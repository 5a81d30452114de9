/-
`HandedOut.lean` -- everything on the wire and in the queues comes from a command of the run.

A command hands out what it says, its replies and its notices, and `LOGIN` hands out what waits for its
user, which some command handed out before. So what is true of all that the commands of a run
say is true of every message that is ever sent or waits, whatever the interleaving. Most commands are looked at
operation by operation. Three of them write down lists of users as they stand in memory; these, and the
queue that `LOGIN` takes, are read in the critical section in which they begin.
-/
import ChatApp.Accounts
import ChatApp.Faults
import ChatApp.Outgoing

set_option autoImplicit false

namespace ChatApp

open Prog PostgresPersistence handle_client

/-! ## The wire and the queues -/

/-- What was sent. -/
def Frame.message (f : Frame) : PendingMsg := ⟨f.type, f.payload, f.userId⟩

/-- The message was sent to somebody, or it waits for somebody. -/
def HandedOut (w : World) (m : PendingMsg) : Prop :=
  (∃ f ∈ w.out, m = f.message) ∨ ∃ uid, m ∈ w.mem.g_offline_messages.get uid

/-- The operation sends and queues nothing but messages of which `P` is true; it may take others out of a queue. -/
@[simp] def Op.emits (P : PendingMsg → Prop) {β : Type} : Op β → Prop
  | .send _ type payload userId => P ⟨type, payload, userId⟩
  | .modify .g_offline_messages f => ∀ q uid m, m ∈ (f q).get uid → m ∈ q.get uid ∨ P m
  | _ => True

section Turns

variable {P : PendingMsg → Prop} {pg : Bool} {env : Env} {w : World}

/-- An operation that queues messages last emits them. -/
theorem Op.hands.emits {β : Type} {o : Op β} (ho : o.hands P) : o.emits P := by
  cases o with
  | send fd type payload userId => exact ho
  | modify x f =>
    cases x with
    | g_offline_messages =>
      intro q uid m hm
      obtain ⟨new, hnew, hP⟩ := ho q uid
      rw [hnew] at hm
      exact (List.mem_append.mp hm).imp_right (hP m)
    | _ => trivial
  | _ => trivial

/-- What was sent and what waits grows by what an operation emits. -/
theorem Op.emits.exec {β : Type} {o : Op β} (ho : o.emits P) (env : Env) (hw : ∀ m, HandedOut w m → P m) :
    ∀ m, HandedOut (o.exec env w).2 m → P m := by
  have hsame : ∀ {w' : World}, w'.out = w.out → w'.mem.g_offline_messages = w.mem.g_offline_messages →
      ∀ m, HandedOut w' m → P m := by
    intro w' hout hqueue m hm
    rw [HandedOut, hout, hqueue] at hm
    exact hw m hm
  cases o with
  | send fd type payload userId =>
    rintro m (⟨f, hf, rfl⟩ | hm)
    · rcases List.mem_append.mp hf with hf | hf
      · exact hw _ (.inl ⟨f, hf, rfl⟩)
      · rw [List.mem_singleton.mp hf]
        exact ho
    · exact hw m (.inr hm)
  | modify x f =>
    cases x with
    | g_offline_messages =>
      rintro m (hm | ⟨uid, hm⟩)
      · exact hw m (.inl hm)
      · exact (ho w.mem.g_offline_messages uid m hm).elim (fun hold => hw m (.inr ⟨uid, hold⟩)) id
    | _ => exact hsame rfl rfl
  | _ => exact hsame rfl rfl

theorem Op.hands.exec {β : Type} {o : Op β} (ho : o.hands P) (env : Env) (hw : ∀ m, HandedOut w m → P m) :
    ∀ m, HandedOut (o.exec env w).2 m → P m := ho.emits.exec env hw

/-- The section of `LOGIN` collects messages that waited. -/
theorem login_session_hands (fd : Int) (payload : Bytes)
    (hother : ∀ m : PendingMsg, m.type ≠ .SUCCESS → m.type ≠ .DIRECT_MESSAGE → m.type ≠ .GROUP_MESSAGE → P m)
    (hw : ∀ m, HandedOut w m → P m) : Ensures env w (login_session pg fd payload) fun l w' =>
      (∀ login, l = some login → ∀ m ∈ login.offlineMessages, P m) ∧ ∀ m, HandedOut w' m → P m := by
  refine Ensures.locked (ensures_read (ensures_ite (fun _ => ?_) fun _ => ?_))
  · have hreply : (Op.send fd .ERROR (str "Invalid credentials") 0).hands P := hother _ (by simp) (by simp) (by simp)
    exact ⟨(fun _ h => nomatch h), hreply.exec env hw⟩
  · refine ensures_set_user (ensures_modify (ensures_part fun _ w₁ h₁ => ?_))
    refine ensures_part fun _ w₂ h₂ => ensures_read (ensures_modify (ensures_pure ?_))
    -- what comes before the queue is read leaves it alone
    have hqueue : w₂.mem.g_offline_messages = w.mem.g_offline_messages :=
      (h₁ (.var .g_offline_messages) (by simp)).trans (h₂ (.var .g_offline_messages) (by simp))
    have hout : w₂.out = w.out := (h₁ .out (by simp)).trans (h₂ .out (by simp))
    refine ⟨fun login hlogin m hm => ?_, fun m hm => ?_⟩
    · cases hlogin
      exact hw m (.inr ⟨_, hqueue ▸ hm⟩)
    · rcases hm with ⟨f, hf, rfl⟩ | ⟨uid, hm⟩
      · exact hw _ (.inl ⟨f, hout ▸ hf, rfl⟩)
      · have hmem : m ∈ (w₂.mem.g_offline_messages.erase _).get uid := hm
        rw [UMap.get_erase] at hmem
        split at hmem
        · cases hmem
        · exact hw m (.inr ⟨uid, hqueue ▸ hmem⟩)

/-- What follows the section of a `LOGIN` sends what the section has collected, as it is. -/
theorem login_deliver_hands (fd : Int) (username : Bytes) (l : Login)
    (hother : ∀ m : PendingMsg, m.type ≠ .SUCCESS → m.type ≠ .DIRECT_MESSAGE → m.type ≠ .GROUP_MESSAGE → P m)
    (hwelcome : ∀ uid username userId, P ⟨.SUCCESS, welcome uid username, userId⟩)
    (hmessages : ∀ m ∈ l.offlineMessages, P m) :
    (login_deliver pg fd username l).Always (Op.hands P) fun _ => True := by
  refine Always.seq ((always_reply ..).mpr ⟨hwelcome .., trivial⟩) fun _ => ?_
  refine Always.seq (by simp [notify_friends_status_change, find_fd, Op.hands, hother]) fun _ => ?_
  refine Always.seq (by simp [send_pending_request, Op.hands, hother]) fun _ => ?_
  refine Always.seq (by simp [get_pending_group_invites, send_pending_invite, Op.hands, hother]) fun _ => ?_
  exact (always_forM ..).mpr ⟨fun m hm => (always_reply ..).mpr ⟨hmessages m hm, trivial⟩, trivial⟩

/-- **The first turn of a `LOGIN`** takes the queue; what follows sends it as it is. -/
theorem login_hands_turn (fd me rid : Int) (payload : Bytes)
    (hother : ∀ m : PendingMsg, m.type ≠ .SUCCESS → m.type ≠ .DIRECT_MESSAGE → m.type ≠ .GROUP_MESSAGE → P m)
    (hwelcome : ∀ uid username userId, P ⟨.SUCCESS, welcome uid username, userId⟩)
    (hw : ∀ m, HandedOut w m → P m) :
    ((perform pg fd me rid (.login payload)).advance env w).1.Always (Op.hands P) (fun _ => True) ∧
      ∀ m, HandedOut ((perform pg fd me rid (.login payload)).advance env w).2 m → P m := by
  have hsession : Ensures env w (login_session pg fd payload) _ := login_session_hands fd payload hother hw
  obtain ⟨hmessages, hhanded⟩ := hsession
  rw [perform, advance_lift, login, login_section]
  refine ⟨?_, hhanded⟩
  rw [always_lift]
  revert hmessages
  cases ((login_session pg fd payload).run env w).1 with
  | none => exact fun _ => trivial
  | some l =>
    intro hmessages
    refine Always.seq ((always_lift ..).mpr ?_) fun _ => trivial
    exact login_deliver_hands fd _ l hother hwelcome (hmessages l rfl)

/-- The friends of `me` with their names. -/
def listed_friends (me : Int) (s : ServerState) : List NamedUser :=
  (((s.g_friends.get me).toList.filter fun e => e.2).map Prod.fst).map fun fid =>
    ⟨fid, s.username_or fid (str "User" ++ to_string fid)⟩

theorem friend_items_listed (me : Int) (s : ServerState) : friend_items me s =
    (str "count", to_string (listed_friends me s).length)
      :: numbered_items ((listed_friends me s).map NamedUser.fields) := by
  simp only [friend_items, listed_friends, numbered_items, List.length_map, List.zipIdx_map, List.map_map]
  rfl

theorem request_item_named (from_ : Int) (j : Nat) : (request_item from_ j).Always (Op.hands P) fun items =>
    ∃ u : NamedUser, items = numbered u.request_fields j := by
  refine Always.seq (by simp [Op.hands]) fun uname => ?_
  exact ⟨⟨from_, uname⟩, rfl⟩

/-- What was sent and what waits after a frame was written. -/
theorem handed_reply {fd : Int} {type : MessageType} {payload : Bytes} {userId : UInt32}
    (hm : P ⟨type, payload, userId⟩) (hw : ∀ m, HandedOut w m → P m) :
    Ensures env w (reply fd type payload userId : Prog [.out] Unit) fun _ w' => ∀ m, HandedOut w' m → P m :=
  have hsend : (Op.send fd type payload userId).hands P := hm
  hsend.exec env hw

/-- `SEARCH_USER` and `GET_ALL_USERS` are a critical section each. -/
theorem users_listed_turn {p : Prog [.var .g_friends, .out] Unit} {T : List Field}
    (hunlocked : p.Unlocked) (h : [.var .g_friends, .out] ⊆ T)
    (hp : Ensures env w p fun _ w' => ∀ m, HandedOut w' m → P m) :
    (((andNext (locked p)).lift h).advance env w).1.Always (Op.hands P) (fun _ => True) ∧
      ∀ m, HandedOut (((andNext (locked p)).lift h).advance env w).2 m → P m := by
  rw [advance_lift, andNext, advance_locked hunlocked]
  exact ⟨trivial, hp⟩

/-- **The first turn of a command that lists users** reads them; what follows sends what was read. -/
theorem list_hands_turn (fd me rid : Int) {c : Command} (hc : c.lists_users = true)
    (hanswers : ∀ r, c.Answers r → ∀ userId, P ⟨.SUCCESS, r.payload, userId⟩)
    (hw : ∀ m, HandedOut w m → P m) :
    ((perform pg fd me rid c).advance env w).1.Always (Op.hands P) (fun _ => True) ∧
      ∀ m, HandedOut ((perform pg fd me rid c).advance env w).2 m → P m := by
  -- memory of friends is not handed out
  have htouch : ∀ (b : Bool) (w₁ : World), (∀ m, HandedOut w₁ m → P m) →
      Ensures env w₁ (when b (modify .g_friends fun g => g.touch rid) : Prog [.var .g_friends, .out] Unit)
        fun _ w' => ∀ m, HandedOut w' m → P m := by
    intro b w₁ h₁
    cases b with
    | false => exact h₁
    | true => exact h₁
  cases c with
  | search_user payload =>
    refine users_listed_turn (by simp [Unlocked, Op.isLock, Op.isUnlock]) (by decide) (ensures_read ?_)
    generalize hhits : (List.take 20 _ : List User) = hits
    refine Ensures.bind (htouch _ w hw) fun _ w₁ h₁ => ensures_read (handed_reply ?_ h₁)
    have hanswer := hanswers (.search (hits.map fun u =>
      ⟨⟨⟨u.id, u.username⟩, w₁.mem.isFriend rid u.id⟩, u.phone⟩)) trivial (u32 rid)
    simpa [Reply.payload, numbered_items, List.zipIdx_map, Function.comp_def, numbered, FoundUser.fields,
      search_item] using hanswer
  | get_all_users =>
    refine users_listed_turn (by simp [Unlocked, Op.isLock, Op.isUnlock]) (by decide) (ensures_read ?_)
    generalize hothers : (List.filter _ _ : List (Int × User)) = others
    refine Ensures.bind (htouch _ w hw) fun _ w₁ h₁ => ensures_read (handed_reply ?_ h₁)
    have hanswer := hanswers (.all_users (others.map fun o =>
      ⟨⟨o.1, o.2.username⟩, w₁.mem.isFriend rid o.1⟩)) trivial (u32 rid)
    simpa [Reply.payload, numbered_items, List.zipIdx_map, Function.comp_def, numbered, ListedUser.fields,
      user_item] using hanswer
  | get_friends_list =>
    have hturn : ((get_friends_list pg fd me).advance env w) =
        (do
          let pendingFromUsers ← (merge_pending pg me (w.mem.g_friend_requests.get me)).lift
          let requests ← (pendingFromUsers.zipIdx.mapM fun e => request_item e.1 e.2).lift
          andNext (reply fd .SUCCESS (serialize_kv (friend_items me { w.mem with
              g_friends := w.mem.g_friends.touch me }
            ++ (str "pendingCount", to_string pendingFromUsers.length) :: requests.flatten)) (u32 me)),
        { w with mem := { w.mem with g_friends := w.mem.g_friends.touch me } }) := by
      rw [get_friends_list, advance_locked (by simp [Unlocked, Op.isLock, Op.isUnlock])]
      rfl
    rw [perform, advance_lift, hturn]
    refine ⟨?_, hw⟩
    rw [always_lift]
    refine Always.seq ((always_lift ..).mpr (hands_of_footprint _ (by simp) (by simp))) fun pending => ?_
    rw [always_bind, always_lift]
    refine (always_mapM_zipIdx request_item_named pending 0).mono ?_
    rintro _ ⟨requests, hlength, rfl⟩
    have hanswer := hanswers (.friends_list (listed_friends me { w.mem with
      g_friends := w.mem.g_friends.touch me }) requests) trivial (u32 me)
    rw [Reply.payload, friends_reply, ← friend_items_listed, hlength] at hanswer
    simpa [andNext, Op.hands, numbered_items, List.zipIdx_map, Function.comp_def] using hanswer
  | _ => cases hc

end Turns

/-! ## Runs -/

namespace Concurrent

/-- The handler is about to take a queue or a list, and will say only what `P` is true of, or it hands out only
messages of which `P` is true. -/
inductive Handing (pg : Bool) (P : PendingMsg → Prop) (h : Handler) : Prop where
  | starting (me rid : Int) (c : Command) (prog : h.prog = perform pg h.fd me rid c)
    (reads : c.lists_users = true ∨ ∃ payload, c = .login payload)
    (answers : ∀ r, c.Answers r → ∀ userId, P ⟨.SUCCESS, r.payload, userId⟩)
  | handing (prog : h.prog.Always (Op.hands P) fun _ => True)

section Run

variable {pg : Bool} {env : Env} {C : Concurrent → Concurrent.Event → Prop} {w₀ : World} {s : Concurrent}
  {tr : List (Taken Concurrent Concurrent.Event)} {P : PendingMsg → Prop}

/-- What the commands of a run say: the replies and notices of each, and its messages in the session in which it
was asked for. -/
def Said (pg : Bool) (tr : List (Taken Concurrent Concurrent.Event)) (P : PendingMsg → Prop) : Prop :=
  ∀ t ∈ tr, ∀ fd r c, t.event = .request fd r → r.header.valid = true →
    decode pg r.header.type r.payload = .ok c →
    (∀ reply, c.Answers reply → ∀ userId, P ⟨.SUCCESS, reply.payload, userId⟩) ∧
      ∀ m, c.Speaks (t.before.world.session fd) m → P m

/-- **Everything that is handed out was said.** -/
theorem handed_out_said (booted : Booted pg env w₀) (run : Run pg env C (quiet w₀) tr s)
    (hother : ∀ m : PendingMsg, m.type ≠ .SUCCESS → m.type ≠ .DIRECT_MESSAGE → m.type ≠ .GROUP_MESSAGE → P m)
    (hsaid : Said pg tr P) : ∀ m, HandedOut s.world m → P m := by
  refine (invariant_of_stages (K := Handing pg P) (I := fun w => ∀ m, HandedOut w m → P m)
    (fun x fd r h hC hstarted => ?_) (fun fd me => .handing ?_) (fun _ _ hw => hw) ?_ run.recorded ?_ ?_).1
  · -- a handler starts with a frame of the run
    obtain ⟨-, y, hy⟩ := hC
    rcases request_handler_eq pg hstarted with ⟨hvalid, c, hc, rfl⟩ | ⟨-, rfl⟩
    · obtain ⟨hanswers, hspeaks⟩ := hsaid _ hy fd r c rfl hvalid hc
      by_cases hreads : c.lists_users = true ∨ ∃ payload, c = .login payload
      · exact .starting (x.world.session fd) (requester_id r.header (x.world.session fd)) c rfl hreads hanswers
      · obtain ⟨hlists, hlogin⟩ := not_or.mp hreads
        refine .handing (perform_hands_replies pg fd _ _ (fun payload h => hlogin ⟨payload, h⟩) hother ?_
          hanswers hspeaks)
        exact fun h => absurd h hlists
    · refine .handing ?_
      simp [invalid_header, Op.hands, hother]
  · simp [cleanup_handler, cleanup, go_offline, notify_friends_status_change, find_fd, Op.hands, hother]
  -- a turn: the commands that read in their first turn send what they have read
  · intro x i h _ _ hh hx
    cases hh with
    | starting me rid c hprog hreads hanswers =>
      rw [hprog]
      rcases hreads with hlists | ⟨payload, rfl⟩
      · obtain ⟨hrest, hhanded⟩ := list_hands_turn h.fd me rid hlists hanswers hx
        exact ⟨.handing hrest, hhanded⟩
      · obtain ⟨hrest, hhanded⟩ := login_hands_turn h.fd me rid payload hother
          (fun uid username => hanswers (.welcome uid username) trivial) hx
        exact ⟨.handing hrest, hhanded⟩
    | handing hprog =>
      obtain ⟨hrest, hhanded⟩ := hprog.advance (I := fun w => ∀ m, HandedOut w m → P m)
        (fun _ _ ho hw => ho.exec env hw) hx
      exact ⟨.handing hrest, hhanded⟩
  · -- nothing was sent before, and nothing waits
    rintro m (⟨f, hf, -⟩ | ⟨uid, hm⟩)
    · have hout : w₀.out = [] := booted.conns_empty.2
      rw [quiet, hout] at hf
      cases hf
    · rw [quiet, booted.offline_empty] at hm
      cases hm
  · exact fun h hh => absurd hh List.not_mem_nil

/-- A command of the run answers, or tells the others, what the message says. -/
def Replied (pg : Bool) (tr : List (Taken Concurrent Concurrent.Event)) (m : PendingMsg) : Prop :=
  ∃ t ∈ tr, ∃ fd r c reply, t.event = .request fd r ∧ decode pg r.header.type r.payload = .ok c ∧
    c.Answers reply ∧ m.payload = reply.payload

/-- **Every `SUCCESS` frame is a reply.** What is ever sent or waits with this type, in any interleaving, is one
of the replies and notices of a command that was asked for. -/
theorem success_replied (booted : Booted pg env w₀) (run : Run pg env C (quiet w₀) tr s) {m : PendingMsg}
    (hm : HandedOut s.world m) (htype : m.type = .SUCCESS) : Replied pg tr m := by
  refine handed_out_said (P := fun m => m.type = .SUCCESS → Replied pg tr m) booted run
    (fun m hm _ _ htype => absurd htype hm) ?_ m hm htype
  intro t ht fd r c hevent _ hc
  refine ⟨fun reply hreply _ _ => ⟨t, ht, fd, r, c, reply, hevent, hc, hreply, rfl⟩, fun m hspeaks htype => ?_⟩
  -- chat messages and announcements have other types
  rcases hspeaks.chat with h | h <;> exact absurd (htype.symm.trans h) (by decide)

end Run

end Concurrent

end ChatApp
