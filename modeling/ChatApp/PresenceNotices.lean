/-
`PresenceNotices.lean` -- what a friend is told of the sessions of a user.

`LOGIN` tells the friends of its user that the user is online, `LOGOUT` and the cleanup block tell them that it is
not, and nothing else that the server sends says so. Each notice goes to every friend who is listed as online. After
a `LOGOUT` the cleanup block still runs, and tells them again. A session is not announced when it begins with a
`REGISTER`, nor when it ends because its connection logs in anew. In the other runs the notices alternate: one when
a session begins, one when it ends.
-/
import ChatApp.Outgoing
import ChatApp.Presence

set_option autoImplicit false

namespace ChatApp

open Prog PostgresPersistence handle_client

/-! ## Notices -/

/-- The payload of a notice about `uid`. -/
def status_payload (uid : Int) : Bytes := serialize_kv [(str "userId", to_string uid)]

theorem status_payload_injective {uid uid' : Int} (h : status_payload uid = status_payload uid') : uid = uid' := by
  have hitem : str "userId" ++ 61 :: to_string uid = str "userId" ++ 61 :: to_string uid' := by
    simpa [status_payload, serialize_kv] using h
  exact to_string_injective (List.tail_eq_of_cons_eq (List.append_cancel_left hitem))

/-- The two kinds of notice. -/
def status (online : Bool) : MessageType := if online then .USER_ONLINE else .USER_OFFLINE

/-- The frame tells the connection about `u`. -/
def Frame.notice (u fd : Int) (f : Frame) : Bool :=
  f.fd = fd && (f.type = .USER_ONLINE || f.type = .USER_OFFLINE) && f.payload = status_payload u

/-- What the connection is told about `u`. -/
def status_notices (u fd : Int) (frames : List Frame) : List MessageType :=
  (frames.filter (Frame.notice u fd)).map Frame.type

/-- Between the two states the connection is told exactly this about `u`. -/
def Tells (u fd : Int) (types : List MessageType) (w w' : World) : Prop :=
  ∃ sent, w'.out = w.out ++ sent ∧ status_notices u fd sent = types

section Tells

variable {u fd : Int} {types types' : List MessageType} {w w' w'' : World}

theorem tells_nothing (h : w'.out = w.out) : Tells u fd [] w w' := ⟨[], by rw [h, List.append_nil], rfl⟩

theorem Tells.trans (h : Tells u fd types w w') (h' : Tells u fd types' w' w'') :
    Tells u fd (types ++ types') w w'' := by
  obtain ⟨sent, hout, rfl⟩ := h
  obtain ⟨sent', hout', rfl⟩ := h'
  refine ⟨sent ++ sent', by rw [hout', hout, List.append_assoc], ?_⟩
  simp [status_notices]

theorem tells_frame {f : Frame} (h : w'.out = w.out ++ [f]) :
    Tells u fd (if f.notice u fd then [f.type] else []) w w' := by
  refine ⟨[f], h, ?_⟩
  cases hf : f.notice u fd with
  | false => simp [status_notices, hf]
  | true => simp [status_notices, hf]

/-- The operation tells the connection nothing about `u`. -/
def Op.untold (u fd : Int) {β : Type} : Op β → Prop
  | .send fd' type payload _ =>
    fd' = fd → (type = .USER_ONLINE ∨ type = .USER_OFFLINE) → payload ≠ status_payload u
  | _ => True

theorem Op.untold.exec {β : Type} {o : Op β} (ho : o.untold u fd) (env : Env) (w : World) :
    Tells u fd [] w (o.exec env w).2 := by
  cases o with
  | send fd' type payload userId =>
    have hquiet : Frame.notice u fd ⟨fd', type, payload, userId, !env.send_fails w.ticks⟩ = false := by
      by_contra hnotice
      simp only [Frame.notice, Bool.and_eq_true, Bool.or_eq_true, decide_eq_true_eq, Bool.not_eq_false] at hnotice
      exact ho hnotice.1.1 hnotice.1.2 hnotice.2
    have htells : Tells u fd _ w ((Op.send fd' type payload userId).exec env w).2 := tells_frame rfl
    rwa [hquiet] at htells
  | _ => exact tells_nothing rfl

/-- Nor does a program of such operations. -/
theorem tells_of_untold {S : List Field} {α : Type} {p : Prog S α} {R : α → Prop}
    (hp : p.Always (Op.untold u fd) R) (env : Env) (w : World) : Tells u fd [] w (p.run env w).2 :=
  hp.rel (fun _ => tells_nothing rfl) (fun h h' => h.trans h') fun _ w ho => ho.exec env w

end Tells

/-! ## Who is told -/

section Told

variable {env : Env} {w : World} {u f fd : Int}

/-- `f` is a friend of `u`, and the connection is listed under `f` only. -/
structure Listens (u f fd : Int) (w : World) : Prop where
  friend : w.mem.isFriend u f = true
  listed : ∀ g, w.mem.g_online_clients.find? g = some fd ↔ g = f

theorem Listens.mem_friends (h : Listens u f fd w) :
    f ∈ ((w.mem.g_friends.get u).toList.filter fun e => e.2).map Prod.fst := by
  have hfind : (w.mem.g_friends.get u).find? f = some true := by
    have hget : ((w.mem.g_friends.get u).find? f).getD false = true := h.friend
    cases hf : (w.mem.g_friends.get u).find? f with
    | none => rw [hf] at hget; cases hget
    | some b => rw [hf] at hget; exact congrArg some hget
  exact List.mem_map.mpr ⟨(f, true), List.mem_filter.mpr ⟨(UMap.mem_toList ..).mpr hfind, rfl⟩, rfl⟩

theorem nodup_friends (w : World) (u : Int) :
    (((w.mem.g_friends.get u).toList.filter fun e => e.2).map Prod.fst).Nodup :=
  ((UMap.keys_nodup _).sublist (List.filter_sublist.map Prod.fst))

/-- A look-up gives the connection for `f` alone. -/
theorem Listens.online_fd (h : Listens u f fd w) (hfd : fd ≠ -1) (g : Int) : w.mem.online_fd g = fd ↔ g = f := by
  rw [← h.listed g, ServerState.online_fd]
  cases w.mem.g_online_clients.find? g with
  | none => exact iff_of_false (Ne.symm hfd) (by simp)
  | some x => simp

/-- **A notice is one frame to each listener.** -/
theorem notify_tells (online : Bool) (h : Listens u f fd w) (hfd : fd ≠ -1) :
    Ensures env w (notify_friends_status_change u online) fun _ w' => Tells u fd [status online] w w' := by
  have hfriends : Ensures env w (locked do
      modify .g_friends fun g => g.touch u
      read fun s => ((s.g_friends.get u).toList.filter fun e => e.2).map Prod.fst :
        Prog status_writes (List Int)) fun friends w₁ =>
      friends = ((w.mem.g_friends.get u).toList.filter fun e => e.2).map Prod.fst ∧
        w₁.mem.g_online_clients = w.mem.g_online_clients ∧ w₁.out = w.out :=
    Ensures.locked (ensures_modify ⟨by simp [Var.modify], rfl, rfl⟩)
  refine hfriends.bind ?_
  rintro _ w₁ ⟨rfl, honline, hout⟩
  have hloop : ∀ friends : List Int, Ensures env w₁ (friends.forM fun fid => do
      let fd ← find_fd fid
      when (fd ≠ -1) (reply fd (status online) (status_payload u) (u32 u)) : Prog status_writes Unit) fun _ w₂ =>
        w₂.mem = w₁.mem ∧ Tells u fd ((friends.filter fun fid => fid = f).map fun _ => status online) w₁ w₂ := by
    intro friends
    refine Prog.run_forM env w₁ (I := fun (done : List Int) w₂ => w₂.mem = w₁.mem ∧
      Tells u fd ((done.filter fun fid => fid = f).map fun _ => status online) w₁ w₂) ⟨rfl, tells_nothing rfl⟩ ?_
    rintro done fid w₂ - ⟨hmem, hdone⟩
    have hlook : w₂.mem.online_fd fid = w.mem.online_fd fid := by
      rw [ServerState.online_fd, hmem, honline, ServerState.online_fd]
    rw [List.filter_append, List.map_append]
    suffices hone : Ensures env w₂ (do
        let fd ← find_fd fid
        when (fd ≠ -1) (reply fd (status online) (status_payload u) (u32 u)) : Prog status_writes Unit) fun _ w₃ =>
          w₃.mem = w₂.mem ∧ Tells u fd (([fid].filter fun fid => fid = f).map fun _ => status online) w₂ w₃ from
      ⟨hone.1.trans hmem, hdone.trans hone.2⟩
    refine Ensures.bind (R := fun fd' w₃ => fd' = w.mem.online_fd fid ∧ w₃ = w₂) (by simp [Ensures, find_fd, hlook]) ?_
    rintro _ w₃ ⟨rfl, rfl⟩
    have hat := h.online_fd hfd fid
    refine ensures_when (fun hon => ?_) fun hoff => ?_
    · refine ⟨rfl, ?_⟩
      have htells : Tells u fd _ w₃ ((reply (w.mem.online_fd fid) (status online) (status_payload u) (u32 u) :
        Prog status_writes Unit).run env w₃).2 := tells_frame rfl
      have hkind : status online = .USER_ONLINE ∨ status online = .USER_OFFLINE := by
        cases online <;> simp [status]
      by_cases hfid : fid = f
      · subst hfid
        simpa [Frame.notice, hat.mpr rfl, hkind] using htells
      · simpa [Frame.notice, mt hat.mp hfid, hfid] using htells
    · have hfid : fid ≠ f := by
        rintro rfl
        exact absurd hoff (by simp [hat.mpr rfl, hfd])
      exact ⟨rfl, by simpa [hfid] using tells_nothing rfl⟩
  refine (hloop _).mono fun _ w₂ h₂ => ?_
  have hsingle : ((((w.mem.g_friends.get u).toList.filter fun e => e.2).map Prod.fst).filter fun fid => fid = f) =
      [f] := by
    rw [List.filter_eq, List.count_eq_one_of_mem (nodup_friends w u) h.mem_friends]
    rfl
  have htells := (tells_nothing hout).trans h₂.2
  rwa [hsingle] at htells

/-- About somebody else nothing is told. -/
theorem notify_untold {uid : Int} (huid : uid ≠ u) (online : Bool) :
    (notify_friends_status_change uid online).Always (Op.untold u fd) fun _ => True := by
  have hother : serialize_kv [(str "userId", to_string uid)] ≠ status_payload u := fun h =>
    huid (status_payload_injective h)
  simp [notify_friends_status_change, find_fd, Op.untold, hother]

end Told

/-! ## Commands -/

section Commands

variable {env : Env} {w : World} {u f fd fd' : Int} (pg : Bool)

/-- The section of `LOGIN` tells nothing. -/
theorem login_session_untold (payload : Bytes) :
    (login_session pg fd' payload).Always (Op.untold u fd) fun _ => True := by
  simp [login_session, mark_online, update_user_online_status, log_activity, login_pending, get_pending_requests,
    Op.untold]

/-- After its notice `LOGIN` talks to its own connection only. -/
theorem login_rest_untold (hne : fd' ≠ fd) (l : Login) : (do
      (l.pendingRequests.forM (send_pending_request fd')).lift
      when pg do
        let pendingInvites ← (get_pending_group_invites l.uid).lift
        (pendingInvites.forM (send_pending_invite fd')).lift
      l.offlineMessages.forM fun m => reply fd' m.type m.payload m.fromUserId :
        Prog [.var .g_friends, .out] Unit).Always (Op.untold u fd) fun _ => True := by
  simp [send_pending_request, get_pending_group_invites, send_pending_invite, Op.untold, hne]

theorem login_deliver_tells (username : Bytes) (hne : fd' ≠ fd) (hfd : fd ≠ -1) (l : Login) :
    Ensures env w (login_deliver pg fd' username l) fun _ w' =>
      (l.uid ≠ u → Tells u fd [] w w') ∧ (l.uid = u → Listens u f fd w → Tells u fd [.USER_ONLINE] w w') := by
  refine Ensures.bind (R := fun _ w₁ => w₁.mem = w.mem ∧ Tells u fd [] w w₁) ⟨rfl, ?_⟩ fun _ w₁ h₁ => ?_
  · have hreply : (reply fd' .SUCCESS (welcome l.uid username) (u32 l.uid) :
        Prog [.var .g_friends, .out] Unit).Always (Op.untold u fd) fun _ => True := by simp [Op.untold]
    exact tells_of_untold hreply env w
  · have hnotice : Ensures env w₁ (notify_friends_status_change l.uid true) fun _ w₂ =>
        (l.uid ≠ u → Tells u fd [] w w₂) ∧ (l.uid = u → Listens u f fd w → Tells u fd [.USER_ONLINE] w w₂) := by
      refine ⟨fun huid => h₁.2.trans (tells_of_untold (notify_untold huid true) env w₁), fun huid h => ?_⟩
      have hlistens : Listens u f fd w₁ := ⟨by rw [h₁.1]; exact h.friend, by rw [h₁.1]; exact h.listed⟩
      subst huid
      exact h₁.2.trans (notify_tells true hlistens hfd)
    refine Ensures.bind hnotice fun _ w₂ h₂ => ?_
    have hrest : Tells u fd [] w₂ _ := tells_of_untold (login_rest_untold pg hne l) env w₂
    exact ⟨fun huid => (h₂.1 huid).trans hrest, fun huid h => (h₂.2 huid h).trans hrest⟩

/-- **What a `LOGIN` tells**: a notice about its user. -/
theorem login_tells (payload : Bytes) (hfd : fd ≠ -1) (htx : w.db.tx = none) :
    Ensures env w (login pg fd' payload) fun r w' => r = .next ∧
      (((∀ uid, ¬Grants pg env w (.login payload) uid) ∧ SessionsSame w w' ∧ Tells u fd [] w w') ∨
        ∃ uid, Grants pg env w (.login payload) uid ∧ SessionsGranted pg env fd' uid w w' ∧
          (fd' ≠ fd → (uid ≠ u → Tells u fd [] w w') ∧
            (uid = u → f ≠ u → Listens u f fd w → Tells u fd [.USER_ONLINE] w w'))) := by
  have htells : Ensures env w (login_session pg fd' payload) fun _ w' => Tells u fd [] w w' :=
    tells_of_untold (login_session_untold pg payload) env w
  refine ((((login_session_ensures fd' payload htx).and (ensures_frame _)).and htells).lift _).bind ?_
  rintro r w₁ ⟨⟨hr, hframe⟩, htold⟩
  rcases hr with ⟨rfl, hno, hsame⟩ | ⟨l, rfl, hgrants, hgranted⟩
  · exact ensures_pure ⟨rfl, .inl ⟨hno, hsame, htold⟩⟩
  · have hdeliver : Ensures env w₁ (login_deliver pg fd' (field payload "username") l) fun _ w₂ => fd' ≠ fd →
        (l.uid ≠ u → Tells u fd [] w₁ w₂) ∧ (l.uid = u → Listens u f fd w₁ → Tells u fd [.USER_ONLINE] w₁ w₂) :=
      ensures_imp fun hne => login_deliver_tells pg _ hne hfd l
    refine Ensures.bind (((ensures_frame _).and hdeliver).lift _) fun _ w₂ h₂ => ensures_pure ⟨rfl, ?_⟩
    refine .inr ⟨l.uid, hgrants, ?_, fun hne => ?_⟩
    · refine hgranted.trans fd' (sessionsSame_of_frame fun x hx => h₂.1 x ?_)
      simp only [List.mem_cons, List.not_mem_nil, or_false] at hx
      rcases hx with rfl | rfl | rfl <;> simp
    · refine ⟨fun huid => htold.trans ((h₂.2 hne).1 huid), fun huid hfu h => htold.trans ((h₂.2 hne).2 huid ?_)⟩
      -- the user itself is listed, the friend as before
      refine ⟨?_, fun g => ?_⟩
      · have hfriends : w₁.mem.g_friends = w.mem.g_friends := hframe (.var .g_friends) (by simp)
        rw [ServerState.isFriend, hfriends]
        exact h.friend
      · rw [hgranted.online, UMap.find?_set]
        split
        · next hg =>
          subst hg
          exact iff_of_false (fun h => hne (Option.some.inj h)) (fun h => hfu (h.symm.trans huid))
        · exact h.listed g

/-- **What the end of a session tells.** -/
theorem go_offline_tells (me : Int) (hfd : fd ≠ -1) : Ensures env w (go_offline me) fun _ w' =>
    (me ≠ u → Tells u fd [] w w') ∧
      (me = u → u ≠ 0 → f ≠ u → Listens u f fd w → Tells u fd [.USER_OFFLINE] w w') := by
  refine ⟨fun hme => ?_, ?_⟩
  · have hquiet : (go_offline me).Always (Op.untold u fd) fun _ => True := by
      simp [go_offline, notify_untold hme, Op.untold]
    exact tells_of_untold hquiet env w
  · rintro rfl hme hfu h
    let w₁ : World := { w with mem := Var.modify .g_online_clients (fun m => m.erase me) w.mem }
    have hlistens : Listens me f fd w₁ := by
      refine ⟨h.friend, fun g => ?_⟩
      have hfind : w₁.mem.g_online_clients.find? g = if g = me then none else w.mem.g_online_clients.find? g :=
        UMap.find?_erase ..
      rw [hfind]
      split
      · next hg => exact iff_of_false (by simp) (fun hgf => hfu (hgf.symm.trans hg))
      · exact h.listed g
    have hnotice : Ensures env w₁ _ _ := notify_tells false hlistens hfd
    have hrun : ((go_offline me).run env w).2 = ((notify_friends_status_change me false).run env w₁).2 := by
      simp [go_offline, hme, w₁]
    rw [hrun]
    exact (tells_nothing rfl).trans hnotice

theorem end_connection_tells (hfd : fd ≠ -1) (f : Int) (env : Env) (w : World) :
    (w.session fd' ≠ u → Tells u fd [] w (end_connection env fd' w)) ∧
      (w.session fd' = u → u ≠ 0 → f ≠ u → Listens u f fd w →
        Tells u fd [.USER_OFFLINE] w (end_connection env fd' w)) := by
  have h : Ensures env w (go_offline (w.session fd')) fun _ w' => (w.session fd' ≠ u → Tells u fd [] w w') ∧
      (w.session fd' = u → u ≠ 0 → f ≠ u → Listens u f fd w → Tells u fd [.USER_OFFLINE] w w') :=
    go_offline_tells (w.session fd') hfd
  have hclose : Tells u fd [] ((go_offline (w.session fd')).run env w).2 (end_connection env fd' w) := by
    refine tells_nothing ?_
    rw [end_connection, cleanup, run_bind, run_lift]
    rfl
  exact ⟨fun hme => (h.1 hme).trans hclose, fun hme hu hfu hl => (h.2 hme hu hfu hl).trans hclose⟩

/-- A `LOGOUT` of somebody else tells nothing. -/
theorem logout_untold {me : Int} (hme : me ≠ u) :
    (logout fd' me).Always (Op.untold u fd) fun _ => True := by
  simp [logout, go_offline, notify_untold hme, Op.untold]

/-- The other commands tell nothing. -/
theorem perform_untold (me rid : Int) {c : Command} (hlogin : ∀ payload, c ≠ .login payload) (hlogout : c ≠ .logout) :
    (perform pg fd' me rid c).Always (Op.untold u fd) fun _ => True := by
  refine (perform_hands_routine (P := fun m => m.type ≠ .USER_ONLINE ∧ m.type ≠ .USER_OFFLINE) pg fd' me rid hlogin
    hlogout (fun m _ _ _ h h' _ => ⟨h, h'⟩) (fun _ _ _ => by simp) (fun _ _ _ => by simp) fun m hm => ?_).weaken ?_
  · rcases hm.chat with h | h <;> rw [h] <;> simp
  · intro β o ho
    cases o with
    | send => exact fun _ hkind => (hkind.elim ho.1 ho.2).elim
    | _ => trivial

end Commands

/-! ## Sessions -/

/-- `u` is logged in on some connection. -/
def in_session (u : Int) (w : World) : Bool := w.conns.toList.any fun e => e.2 = u

theorem in_session_iff {u : Int} {w : World} : in_session u w = true ↔ ∃ fd, w.conns.find? fd = some u := by
  rw [in_session, List.any_eq_true]
  constructor
  · rintro ⟨⟨fd, me⟩, hmem, hme⟩
    refine ⟨fd, (UMap.mem_toList ..).mp ?_⟩
    rwa [← of_decide_eq_true hme]
  · rintro ⟨fd, hfd⟩
    exact ⟨(fd, u), (UMap.mem_toList ..).mpr hfd, by simp⟩

/-- `u` uses one connection at a time. -/
def OneConnection (u : Int) (w : World) : Prop :=
  ∀ fd fd', w.conns.find? fd = some u → w.conns.find? fd' = some u → fd = fd'

/-- What is told when a session begins or ends: one notice. -/
def session_notices (before after : Bool) : List MessageType :=
  if before = after then [] else [status after]

section Sessions

variable {pg : Bool} {env : Env} {w w' : World} {u fd' me uid : Int}

/-- Another user's session on a connection makes no difference. -/
theorem in_session_set (hme : w.conns.find? fd' ≠ some u) (huid : uid ≠ u) (h : w'.conns = w.conns.set fd' uid) :
    in_session u w' = in_session u w := by
  rw [Bool.eq_iff_iff, in_session_iff, in_session_iff, h]
  refine exists_congr fun x => ?_
  rw [UMap.find?_set]
  split
  · next hx =>
    rw [hx]
    exact iff_of_false (fun h => huid (Option.some.inj h)) hme
  · rfl

theorem in_session_erase (hme : w.conns.find? fd' ≠ some u) (h : w'.conns = w.conns.erase fd') :
    in_session u w' = in_session u w := by
  rw [Bool.eq_iff_iff, in_session_iff, in_session_iff, h]
  refine exists_congr fun x => ?_
  rw [UMap.find?_erase]
  split
  · next hx =>
    rw [hx]
    exact iff_of_false (by simp) hme
  · rfl

/-- A session begins. -/
theorem session_begins (hme : w.conns.find? fd' ≠ some u) (h : w'.conns = w.conns.set fd' u)
    (hone : OneConnection u w') : in_session u w = false ∧ in_session u w' = true := by
  have hnew : w'.conns.find? fd' = some u := by
    rw [h, UMap.find?_set, if_pos rfl]
  refine ⟨Bool.eq_false_iff.mpr fun hin => ?_, in_session_iff.mpr ⟨fd', hnew⟩⟩
  obtain ⟨x, hx⟩ := in_session_iff.mp hin
  have hne : x ≠ fd' := by
    rintro rfl
    exact hme hx
  have hold : w'.conns.find? x = some u := by
    rw [h, UMap.find?_set, if_neg hne]
    exact hx
  exact hne (hone x fd' hold hnew)

/-- A session ends. -/
theorem session_ends (hme : w.conns.find? fd' = some u) (h : w'.conns = w.conns.erase fd')
    (hone : OneConnection u w) : in_session u w = true ∧ in_session u w' = false := by
  refine ⟨in_session_iff.mpr ⟨fd', hme⟩, Bool.eq_false_iff.mpr fun hin => ?_⟩
  obtain ⟨x, hx⟩ := in_session_iff.mp hin
  rw [h, UMap.find?_erase] at hx
  split at hx
  · cases hx
  · next hne => exact hne (hone x fd' hx hme)

end Sessions

/-! ## Steps -/

section Steps

variable (pg : Bool) (env : Env) (u f fd : Int) (w : World) (e : Event)

/-- `f` stays a friend of `u`, and online on one connection, on which nobody logs in; and `u` uses one connection at
a time. -/
structure Attends : Prop where
  listens : Listens u f fd w
  open_ : w.conns.find? fd = some f
  one : OneConnection u w
  stays : ∀ rid c uid, e.command pg w = some (fd, rid, c) → ¬Grants pg env w c uid
  after : ∀ w', Server.step pg env w e = some w' →
    Listens u f fd w' ∧ w'.conns.find? fd = some f ∧ OneConnection u w'

/-- No session of `u` begins with a `REGISTER`, ends with a `LOGOUT`, or ends because its connection logs in anew. -/
structure PlainSessions : Prop where
  registered : ∀ fd rid payload, e.command pg w = some (fd, rid, .register payload) →
    ¬Grants pg env w (.register payload) u
  logged_out : ∀ fd rid, e.command pg w = some (fd, rid, .logout) → w.session fd ≠ u
  replaced : ∀ fd rid c uid, e.command pg w = some (fd, rid, c) → Grants pg env w c uid → w.session fd ≠ u

variable {pg env u f fd w e}

/-- The end of a connection. -/
theorem ended_tells {fd' me : Int} {w₁ w' : World} (hu : u ≠ 0) (hfd : fd ≠ -1) (h : Attends pg env u f fd w e)
    (hs : Server.step pg env w e = some w') (opened : w.conns.find? fd' = some me) (hsame : w₁.conns = w.conns)
    (hmem : w₁.mem = w.mem) (hout : Tells u fd [] w w₁) (hw' : w' = end_connection env fd' w₁) :
    Tells u fd (session_notices (in_session u w) (in_session u w')) w w' := by
  have hconns : w'.conns = w.conns.erase fd' := by
    rw [hw', (end_connection_sessions env w₁ fd').conns, hsame]
  have hsession : w₁.session fd' = me := by
    rw [World.session, hsame]
    exact UMap.get_of_find? opened
  have htells : (w₁.session fd' ≠ u → Tells u fd [] w₁ w') ∧
      (w₁.session fd' = u → u ≠ 0 → f ≠ u → Listens u f fd w₁ → Tells u fd [.USER_OFFLINE] w₁ w') :=
    hw' ▸ end_connection_tells hfd f env w₁
  by_cases hme : me = u
  · subst hme
    obtain ⟨hbefore, hafter⟩ := session_ends opened hconns h.one
    have hfu : f ≠ me := by
      rintro rfl
      have hopen := (h.after w' hs).2.1
      rw [hconns, UMap.find?_erase, if_pos (h.one fd fd' h.open_ opened)] at hopen
      cases hopen
    have hlistens : Listens me f fd w₁ := ⟨by rw [hmem]; exact h.listens.friend, by rw [hmem]; exact h.listens.listed⟩
    rw [hbefore, hafter]
    exact hout.trans (htells.2 hsession hu hfu hlistens)
  · have hother : w.conns.find? fd' ≠ some u := by
      rw [opened]
      exact fun h => hme (Option.some.inj h)
    rw [in_session_erase hother hconns, session_notices, if_pos rfl]
    exact hout.trans (htells.1 (hsession ▸ hme))

theorem in_session_same {w' : World} (h : w'.conns = w.conns) : in_session u w' = in_session u w := by
  rw [in_session, h, in_session]

/-- A `LOGIN`. -/
theorem logged_in_tells {fd' rid me : Int} {payload : Bytes} {w' : World} (hfd : fd ≠ -1) (htx : w.db.tx = none)
    (h : Attends pg env u f fd w e) (hC : PlainSessions pg env u w e) (hs : Server.step pg env w e = some w')
    (opened : w.conns.find? fd' = some me) (command : e.command pg w = some (fd', rid, .login payload))
    (hw' : w' = ((login pg fd' payload).run env w).2) :
    Tells u fd (session_notices (in_session u w) (in_session u w')) w w' := by
  have hlogin : Ensures env w (login pg fd' payload) _ := login_tells (u := u) (f := f) pg payload hfd htx
  rw [Ensures, ← hw'] at hlogin
  obtain ⟨-, ⟨-, hsame, htells⟩ | ⟨uid, hgrants, hgranted, htells⟩⟩ := hlogin
  · rw [in_session_same hsame.conns, session_notices, if_pos rfl]
    exact htells
  have hconns : w'.conns = w.conns.set fd' uid := hgranted.conns
  have hother : w.conns.find? fd' ≠ some u := by
    have hreplaced := hC.replaced fd' rid _ uid command hgrants
    rw [World.session, UMap.get_of_find? opened] at hreplaced
    rw [opened]
    exact fun h => hreplaced (Option.some.inj h)
  have hne : fd' ≠ fd := by
    rintro rfl
    exact h.stays rid _ uid command hgrants
  obtain ⟨hno, htold⟩ := htells hne
  by_cases huid : uid = u
  · subst huid
    obtain ⟨hbefore, hafter⟩ := session_begins hother hconns (h.after w' hs).2.2
    have hfu : f ≠ uid := by
      rintro rfl
      rw [in_session_iff.mpr ⟨fd, h.open_⟩] at hbefore
      cases hbefore
    rw [hbefore, hafter]
    exact htold rfl hfu h.listens
  · rw [in_session_set hother huid hconns, session_notices, if_pos rfl]
    exact hno huid

/-- Any other command. -/
theorem performed_tells {fd' rid me : Int} {c : Command} {w' : World} (hfd : fd ≠ -1) (htx : w.db.tx = none)
    (hC : PlainSessions pg env u w e) (opened : w.conns.find? fd' = some me)
    (command : e.command pg w = some (fd', rid, c)) (hlogin : ∀ payload, c ≠ .login payload)
    (hw' : w' = finish env fd' ((perform pg fd' me rid c).run env w)) :
    Tells u fd (session_notices (in_session u w) (in_session u w')) w w' := by
  have hsession : w.session fd' = me := UMap.get_of_find? opened
  by_cases hlogout : c = .logout
  · subst hlogout
    have hme : me ≠ u := hsession ▸ hC.logged_out fd' rid command
    have hother : w.conns.find? fd' ≠ some u := by
      rw [opened]
      exact fun h => hme (Option.some.inj h)
    rw [perform, run_lift] at hw'
    have hended : SessionsEnded fd' me w w' := hw' ▸ logout_sessions fd' me opened
    have hkept : World.session ((logout fd' me).run env w).2 fd' ≠ u := by
      rw [World.session, run_frame env (logout fd' me) w (x := .conns) (by decide)]
      exact hsession.trans_ne hme
    have hend : Tells u fd [] ((logout fd' me).run env w).2 w' := by
      have hcleanup : ((logout fd' me).run env w).1 = .cleanup := by simp [logout]
      rw [hw', finish, if_pos hcleanup]
      exact (end_connection_tells hfd 0 env _).1 hkept
    rw [in_session_erase hother hended.conns, session_notices, if_pos rfl]
    exact (tells_of_untold (logout_untold hme) env w).trans hend
  have hrun : w' = ((perform pg fd' me rid c).run env w).2 := by
    rw [hw', finish, if_neg (by rw [perform_next pg env w fd' me rid c hlogout]; simp)]
  have htells : Tells u fd [] w w' := by
    rw [hrun]
    exact tells_of_untold (perform_untold pg me rid hlogin hlogout) env w
  have hsessions := perform_sessions pg env fd' me rid c htx opened
  rw [← hw'] at hsessions
  suffices hsame : in_session u w' = in_session u w by
    rw [hsame, session_notices, if_pos rfl]
    exact htells
  rcases hsessions with ⟨uid, hgrants, hgranted⟩ | ⟨hc, -⟩ | hsame
  · have hother : w.conns.find? fd' ≠ some u := by
      have hreplaced := hC.replaced fd' rid c uid command hgrants
      rw [hsession] at hreplaced
      rw [opened]
      exact fun h => hreplaced (Option.some.inj h)
    refine in_session_set hother ?_ hgranted.conns
    rintro rfl
    cases c with
    | register payload => exact hC.registered fd' rid payload command hgrants
    | login payload => exact hlogin payload rfl
    | _ => exact hgrants
  · exact absurd hc hlogout
  · exact in_session_same hsame.conns

/-- **A step tells the friend what it does to the sessions of `u`.** -/
theorem step_tells {w' : World} (hu : u ≠ 0) (hfd : fd ≠ -1) (htx : w.db.tx = none) (h : Attends pg env u f fd w e)
    (hC : PlainSessions pg env u w e) (hs : Server.step pg env w e = some w') :
    Tells u fd (session_notices (in_session u w) (in_session u w')) w w' := by
  cases Server.move_of_step pg env hs with
  | accepted fd' valid unused =>
    have hother : w.conns.find? fd' ≠ some u := fun h => nomatch unused.symm.trans h
    have hsame : in_session u { w with conns := w.conns.set fd' 0 } = in_session u w :=
      in_session_set hother (Ne.symm hu) rfl
    rw [hsame, session_notices, if_pos rfl]
    exact tells_nothing rfl
  | hungup fd' me opened => exact ended_tells hu hfd h hs opened rfl rfl (tells_nothing rfl) rfl
  | refused fd' me r opened invalid =>
    have hheader : (invalid_header fd').Always (Op.untold u fd) fun _ => True := by
      simp [invalid_header, Op.untold]
    let w₁ : World := ((invalid_header fd').run env w).2
    have hconns : w₁.conns = w.conns := rfl
    have hmem : w₁.mem = w.mem := rfl
    exact ended_tells hu hfd h hs opened hconns hmem (tells_of_untold hheader env w) rfl
  | performed fd' me rid r c opened command =>
    by_cases hlogin : ∃ payload, c = .login payload
    · obtain ⟨payload, rfl⟩ := hlogin
      refine logged_in_tells hfd htx h hC hs opened command ?_
      rw [finish, if_neg (by rw [perform_next pg env w fd' me rid _ (by simp)]; simp), perform, run_lift]
    · exact performed_tells hfd htx hC opened command (fun payload hc => hlogin ⟨payload, hc⟩) rfl

/-! ## Runs -/

/-- Open connections have the descriptors that `accept` gives. -/
theorem Reachable.open_nonneg {fd' me : Int} (h : Reachable pg env w) (opened : w.conns.find? fd' = some me) :
    0 ≤ fd' := by
  obtain ⟨w₀, tr, booted, run⟩ := h
  have hall : (∀ fd me, w.conns.find? fd = some me → 0 ≤ fd) ∧ w.db.tx = none := by
    refine booted.invariant (I := fun w => ∀ fd me, w.conns.find? fd = some me → 0 ≤ fd) run ?_ ?_
    · intro fd me hfd
      rw [booted.conns_empty.1, UMap.find?_empty] at hfd
      cases hfd
    · intro x e y hx htx _ hs fd me hfd
      have herased : ∀ fd₀, y.conns = x.conns.erase fd₀ → 0 ≤ fd := by
        intro fd₀ hconns
        rw [hconns, UMap.find?_erase] at hfd
        split at hfd
        · cases hfd
        · exact hx fd me hfd
      cases Server.move_of_step pg env hs with
      | accepted fd₀ valid unused =>
        rw [UMap.find?_set] at hfd
        split at hfd
        · next heq => exact heq ▸ valid
        · exact hx fd me hfd
      | hungup fd₀ me₀ opened => exact herased fd₀ (end_connection_sessions env x fd₀).conns
      | refused fd₀ me₀ r opened invalid =>
        exact herased fd₀ (end_connection_sessions env ((invalid_header fd₀).run env x).2 fd₀).conns
      | performed fd₀ me₀ rid r c opened command =>
        rcases perform_sessions pg env fd₀ me₀ rid c htx opened with
          ⟨uid, -, hgranted⟩ | ⟨-, hended⟩ | hsame
        · rw [hgranted.conns, UMap.find?_set] at hfd
          split at hfd
          · next heq => exact heq ▸ hx fd₀ me₀ opened
          · exact hx fd me hfd
        · exact herased fd₀ hended.conns
        · rw [hsame.conns] at hfd
          exact hx fd me hfd
  exact hall.1 fd' me opened

/-- Notices that alternate, beginning with `USER_ONLINE`. -/
def alternating : Nat → List MessageType
  | 0 => []
  | n + 1 => alternating n ++ [status (n % 2 = 0)]

/-- **Notices alternate**: in every run in which no session of `u` begins with a `REGISTER`, ends with a `LOGOUT` or
is replaced on its connection, a friend that stays online is told once when a session begins and once when it ends. -/
theorem notices_alternate {w₀ w : World} {tr : List (Taken World Event)} (reach : Reachable pg env w₀) (hu : u ≠ 0)
    (run : Server.Run pg env (fun x e => Attends pg env u f fd x e ∧ PlainSessions pg env u x e) w₀ tr w) :
    (∀ t ∈ tr, Tells u fd (session_notices (in_session u t.before) (in_session u t.after)) t.before t.after) ∧
      (in_session u w₀ = false → ∃ n, Tells u fd (alternating n) w₀ w ∧ (in_session u w = true ↔ n % 2 = 1)) := by
  have hrun : Reachable pg env w ∧
      (∀ t ∈ tr, Tells u fd (session_notices (in_session u t.before) (in_session u t.after)) t.before t.after) ∧
      (in_session u w₀ = false → ∃ n, Tells u fd (alternating n) w₀ w ∧ (in_session u w = true ↔ n % 2 = 1)) := by
    refine run.history (I := fun past x => Reachable pg env x ∧
      (∀ t ∈ past, Tells u fd (session_notices (in_session u t.before) (in_session u t.after)) t.before t.after) ∧
      (in_session u w₀ = false → ∃ n, Tells u fd (alternating n) w₀ x ∧ (in_session u x = true ↔ n % 2 = 1))) ?_ ?_
    · refine ⟨reach, fun t ht => absurd ht List.not_mem_nil, fun h => ⟨0, tells_nothing rfl, ?_⟩⟩
      simp [h]
    · rintro past x e y ⟨hx, hpast, halternate⟩ ⟨hA, hC⟩ hs
      have hopen := hx.open_nonneg hA.open_
      have hstep := step_tells hu (by omega) hx.tx_none hA hC hs
      obtain ⟨w₁, tr₁, booted, run₁⟩ := hx
      refine ⟨⟨w₁, _, booted, run₁.snoc trivial hs⟩, fun t ht => ?_, fun h => ?_⟩
      · rcases List.mem_append.mp ht with ht | ht
        · exact hpast t ht
        · rw [List.mem_singleton.mp ht]
          exact hstep
      · obtain ⟨n, htold, hn⟩ := halternate h
        by_cases hsame : in_session u x = in_session u y
        · rw [session_notices, if_pos hsame] at hstep
          refine ⟨n, ?_, hsame ▸ hn⟩
          simpa using htold.trans hstep
        · rw [session_notices, if_neg hsame] at hstep
          have hy : in_session u y = decide (n % 2 = 0) := by
            have hparity := Nat.mod_two_eq_zero_or_one n
            cases hbefore : in_session u x <;> cases hafter : in_session u y <;> simp_all
          refine ⟨n + 1, ?_, ?_⟩
          · rw [hy] at hstep
            exact htold.trans hstep
          · rw [hy, decide_eq_true_eq]
            omega
  exact hrun.2

end Steps

/-! ## Two friends -/

/-- Users 1 and 2 are friends; user 2 is online on connection 6, and connection 7 is open. -/
def two_friends : World :=
  (Run.exec (Server.step false Env.calm) (World.new Tables.empty) (two_users ++
    [.send 5 .FRIEND_REQUEST "targetUserId=2", .send 6 .FRIEND_ACCEPT "userId=1", .hangup 5, .accept 7])).getD
      (World.new Tables.empty)

theorem two_friends_reachable : Reachable false Env.calm two_friends := by
  have hexec : (Run.exec (Server.step false Env.calm) (World.new Tables.empty) (two_users ++
      [.send 5 .FRIEND_REQUEST "targetUserId=2", .send 6 .FRIEND_ACCEPT "userId=1", .hangup 5, .accept 7])) =
        some two_friends := rfl
  obtain ⟨tr, run, -⟩ := Run.of_exec hexec
  exact ⟨_, tr, booted_new Tables.empty_valid, run⟩

/-- The `LOGIN` of user 1 on connection 7. -/
def return_of_friend : Event := .send 7 .LOGIN "username=a&password=x"

/-- Then it is online. -/
def back_again : World := (Server.step false Env.calm two_friends return_of_friend).getD two_friends

/-- After that its connection is closed, or it logs out. -/
def gone_again (e : Event) : World := (Server.step false Env.calm back_again e).getD back_again

/-- What is looked at in these worlds. -/
structure Scene (w : World) : Prop where
  listens : Listens 1 2 6 w
  open_ : w.conns.find? 6 = some 2
  one : OneConnection 1 w

theorem scene_of_check {w : World} (hfriend : w.mem.isFriend 1 2 = true)
    (hlisted : w.mem.g_online_clients.find? 2 = some 6)
    (hothers : ∀ e ∈ w.mem.g_online_clients.toList, e.2 = 6 → e.1 = 2) (hopen : w.conns.find? 6 = some 2)
    (hone : ∀ e ∈ w.conns.toList, e.2 = 1 → e.1 = 7) : Scene w := by
  refine ⟨⟨hfriend, fun g => ⟨fun hg => hothers _ ((UMap.mem_toList ..).mpr hg) rfl, ?_⟩⟩, hopen, ?_⟩
  · rintro rfl
    exact hlisted
  · intro fd fd' hfd hfd'
    have h₁ : fd = 7 := hone (fd, 1) ((UMap.mem_toList ..).mpr hfd) rfl
    have h₂ : fd' = 7 := hone (fd', 1) ((UMap.mem_toList ..).mpr hfd') rfl
    exact h₁.trans h₂.symm

theorem two_friends_scene : Scene two_friends :=
  scene_of_check (by decide) (by decide) (by decide) (by decide) (by decide)

theorem back_again_scene : Scene back_again :=
  scene_of_check (by decide) (by decide) (by decide) (by decide) (by decide)

/-- A step between two such worlds that is not on connection 6 is one that user 2 attends. -/
theorem Scene.attends {w w' : World} {e : Event} (h : Scene w) (h' : Scene w')
    (hs : Server.step false Env.calm w e = some w') (hcommand : ∀ rid c, e.command false w ≠ some (6, rid, c)) :
    Attends false Env.calm 1 2 6 w e := by
  refine ⟨h.listens, h.open_, h.one, fun rid c _ hc => absurd hc (hcommand rid c), fun w'' hs'' => ?_⟩
  obtain rfl := Option.some.inj (hs.symm.trans hs'')
  exact ⟨h'.listens, h'.open_, h'.one⟩

theorem return_attended : Attends false Env.calm 1 2 6 two_friends return_of_friend := by
  refine two_friends_scene.attends back_again_scene rfl fun rid c hc => ?_
  have hcommand : (return_of_friend.command false two_friends).map (fun c => c.1) = some 7 := by decide
  rw [hc] at hcommand
  exact absurd hcommand (by simp)

/-- User 1 comes back, and its connection is closed. -/
theorem notices_alternate_twice : ∃ n, Tells 1 6 (alternating n) two_friends (gone_again (.hangup 7)) ∧
    (in_session 1 (gone_again (.hangup 7)) = true ↔ n % 2 = 1) := by
  have hgone : Attends false Env.calm 1 2 6 back_again (.hangup 7) := by
    have hscene : Scene (gone_again (.hangup 7)) :=
      scene_of_check (by decide) (by decide) (by decide) (by decide) (by decide)
    exact back_again_scene.attends hscene rfl fun _ _ h => nomatch h
  have hlogin : ∀ fd rid c, return_of_friend.command false two_friends = some (fd, rid, c) →
      fd = 7 ∧ c = .login (str "username=a&password=x") := by
    intro fd rid c hc
    have hcommand : return_of_friend.command false two_friends =
        some (7, 0, .login (str "username=a&password=x")) := by decide
    cases hc.symm.trans hcommand
    exact ⟨rfl, rfl⟩
  have hreturn : PlainSessions false Env.calm 1 two_friends return_of_friend := by
    refine ⟨fun fd rid payload hc => ?_, fun fd rid hc => ?_, fun fd rid c uid hc _ => ?_⟩
    · exact absurd (hlogin fd rid _ hc).2 (by simp)
    · exact absurd (hlogin fd rid _ hc).2 (by simp)
    · rw [(hlogin fd rid c hc).1]
      decide
  have hhangup : PlainSessions false Env.calm 1 back_again (.hangup 7) :=
    ⟨fun _ _ _ h => (nomatch h), fun _ _ h => (nomatch h), fun _ _ _ _ h => (nomatch h)⟩
  exact (notices_alternate two_friends_reachable (by decide)
    (.snoc (.snoc (.nil _) ⟨return_attended, hreturn⟩ rfl) ⟨hgone, hhangup⟩ rfl)).2 (by decide)

theorem length_alternating (n : Nat) : (alternating n).length = n := by
  induction n with
  | zero => rfl
  | succ n ih => rw [alternating, List.length_append, ih]; rfl

/-- **A `LOGOUT` is told twice.** -/
theorem logged_out_twice : ¬∀ (pg : Bool) (env : Env) (w₀ w : World) (tr : List (Taken World Event)) (u f fd : Int),
    Reachable pg env w₀ → u ≠ 0 → Server.Run pg env (Attends pg env u f fd) w₀ tr w →
    (∀ t ∈ tr, Tells u fd (session_notices (in_session u t.before) (in_session u t.after)) t.before t.after) ∧
      (in_session u w₀ = false → ∃ n, Tells u fd (alternating n) w₀ w ∧ (in_session u w = true ↔ n % 2 = 1)) := by
  intro claim
  have hgone : Attends false Env.calm 1 2 6 back_again (.send 7 .LOGOUT "") := by
    have hscene : Scene (gone_again (.send 7 .LOGOUT "")) :=
      scene_of_check (by decide) (by decide) (by decide) (by decide) (by decide)
    refine back_again_scene.attends hscene rfl fun rid c hc => ?_
    have hcommand : ((Event.send 7 .LOGOUT "").command false back_again).map (fun c => c.1) = some 7 := by decide
    rw [hc] at hcommand
    exact absurd hcommand (by simp)
  obtain ⟨n, ⟨sent, hout, hnotices⟩, -⟩ := (claim false Env.calm two_friends (gone_again (.send 7 .LOGOUT "")) _
    1 2 6 two_friends_reachable (by decide) (.snoc (.snoc (.nil _) return_attended rfl) hgone rfl)).2 (by decide)
  have hsent : sent = (gone_again (.send 7 .LOGOUT "")).out.drop two_friends.out.length := by
    rw [hout, List.drop_left]
  have htold : status_notices 1 6 ((gone_again (.send 7 .LOGOUT "")).out.drop two_friends.out.length) =
      [.USER_ONLINE, .USER_OFFLINE, .USER_OFFLINE] := by decide
  rw [hsent, htold] at hnotices
  have hn : n = 3 := by rw [← length_alternating n, ← hnotices]; rfl
  subst hn
  exact absurd hnotices (by decide)

end ChatApp
