/-
`Outgoing.lean` -- what a command may send or queue.

Most of what a command writes are replies and notices to one user. A chat message comes out of a
`DIRECT_MESSAGE` or a `GROUP_MESSAGE`, and is the frame that its case builds. The announcements that follow a
change to a group go out as `GROUP_MESSAGE` too; their sender is 0. Only `LOGIN` sends what no
command has built: the messages that wait for its user.
-/
import ChatApp.Effects
import ChatApp.Replies

set_option autoImplicit false

namespace ChatApp

open Prog PostgresPersistence handle_client

/-! ## Operations -/

/-- The operation sends and queues nothing but messages of which `P` is true, and queues them last. -/
@[simp] def Op.hands (P : PendingMsg → Prop) {β : Type} : Op β → Prop
  | .send _ type payload userId => P ⟨type, payload, userId⟩
  | .modify .g_offline_messages f =>
    ∀ q uid, ∃ new, (f q).get uid = q.get uid ++ new ∧ ∀ m ∈ new, P m
  | _ => True

/-- An announcement in the group. -/
def Announces (gid : Int) (m : PendingMsg) : Prop := ∃ text ts_ms, m = system_message gid text ts_ms

/-- What a command says to others in a direct or a group message. -/
def Command.Speaks (me : Int) : Command → PendingMsg → Prop
  | .direct_message _ message, m => ∃ timestamp, m = direct_message_frame me message timestamp
  | .group_message gid message, m => ∃ ts_ms, m = group_message_frame me gid message ts_ms
  | .create_group .., m => ∃ gid, Announces gid m
  | .invite_to_group gid _, m | .rename_group gid _, m | .set_group_nickname gid _ _, m
  | .make_admin gid _, m => Announces gid m
  | .remove_from_group gid _, m => m = removed_notice gid ∨ Announces gid m
  | _, _ => False

/-- What is said to others is a chat message. -/
theorem Command.Speaks.chat {me : Int} {c : Command} {m : PendingMsg} (h : c.Speaks me m) :
    m.type = .DIRECT_MESSAGE ∨ m.type = .GROUP_MESSAGE := by
  have hannounces : ∀ gid, Announces gid m → m.type = .DIRECT_MESSAGE ∨ m.type = .GROUP_MESSAGE := by
    rintro gid ⟨text, ts_ms, rfl⟩
    exact .inr rfl
  cases c with
  | direct_message =>
    obtain ⟨timestamp, rfl⟩ := h
    exact .inl rfl
  | group_message =>
    obtain ⟨ts_ms, rfl⟩ := h
    exact .inr rfl
  | create_group =>
    obtain ⟨gid, h⟩ := h
    exact hannounces gid h
  | invite_to_group gid | rename_group gid | set_group_nickname gid | make_admin gid => exact hannounces gid h
  | remove_from_group gid =>
    rcases h with rfl | h
    · exact .inr rfl
    · exact hannounces gid h
  | _ => exact h.elim

/-- The commands that list users as they stand in memory. -/
def Command.lists_users : Command → Bool
  | .search_user _ | .get_all_users | .get_friends_list => true
  | _ => false

section Hands

variable {P : PendingMsg → Prop} {S T : List Field}

/-- A delivery hands one message over. -/
theorem deliver_hands {m : PendingMsg} (hm : P m) (uid : Int) :
    (deliver m uid).Always (Op.hands P) fun _ => True := by
  have hqueue : ∀ (q : UMap Int (List PendingMsg)) (u : Int),
      ∃ new, (q.update uid fun ms => ms ++ [m]).get u = q.get u ++ new ∧ ∀ m ∈ new, P m := by
    intro q u
    rw [UMap.get_update]
    by_cases hu : u = uid
    · exact ⟨[m], by rw [if_pos hu, hu], fun m' hm' => List.mem_singleton.mp hm' ▸ hm⟩
    · exact ⟨[], by rw [if_neg hu, List.append_nil], fun m' hm' => absurd hm' List.not_mem_nil⟩
  refine Always.seq (by simp [find_fd, Op.hands]) fun fd => ?_
  refine (always_ite ..).mpr ⟨fun _ => (always_reply ..).mpr ⟨hm, trivial⟩, fun _ => ?_⟩
  rw [always_lift, enqueue_offline, always_locked, always_modify]
  exact ⟨trivial, hqueue, trivial, trivial⟩

theorem deliver_all_hands {m : PendingMsg} (hm : P m) (uids : List Int) :
    (deliver_all m uids).Always (Op.hands P) fun _ => True :=
  (always_forM ..).mpr ⟨fun uid _ => deliver_hands hm uid, trivial⟩

/-- A program that neither sends nor queues. -/
theorem hands_of_footprint {α : Type} (p : Prog S α) (hout : .out ∉ S)
    (hqueue : .var .g_offline_messages ∉ S) : p.Always (Op.hands P) fun _ => True := by
  refine always_of_footprint p fun o ho => ?_
  cases o with
  | send => exact absurd (ho .out (by simp [Op.writes])) hout
  | modify x f =>
    cases x with
    | g_offline_messages => exact absurd (ho _ (by simp [Op.writes])) hqueue
    | _ => trivial
  | _ => trivial

theorem announce_hands (pg : Bool) (gid : Int) (sys : Prog [] Bytes)
    (hannounces : ∀ m, Announces gid m → P m) :
    (announce pg gid sys).Always (Op.hands P) fun _ => True := by
  refine Always.seq (by simp [Op.hands]) fun ts_ms => ?_
  refine Always.seq ((always_lift ..).mpr (hands_of_footprint sys (by simp) (by simp))) fun text => ?_
  refine Always.seq ?_ fun _ => Always.seq ?_ fun members => Always.seq ?_ fun _ => trivial
  · simp [save_group_message, Op.hands]
  · exact (always_lift ..).mpr (hands_of_footprint _ (by simp) (by simp))
  · exact (always_lift ..).mpr (deliver_all_hands (hannounces _ ⟨text, ts_ms, rfl⟩) members)

/-! ## Commands -/

/-- What is made of each thing and its number has a form that a list of data accounts for. -/
theorem always_mapM_zipIdx {Q : {β : Type} → Op β → Prop} {ι ε β : Type} {f : ι × Nat → Prog S β}
    {g : ε → Nat → β} (h : ∀ x i, (f (x, i)).Always Q fun b => ∃ e, b = g e i) (xs : List ι) (n : Nat) :
    ((xs.zipIdx n).mapM f : Prog S (List β)).Always Q fun bs =>
      ∃ es : List ε, es.length = xs.length ∧ bs = (es.zipIdx n).map fun e => g e.1 e.2 := by
  induction xs generalizing n with
  | nil => exact ⟨[], rfl, rfl⟩
  | cons x xs ih =>
    rw [List.zipIdx_cons, List.mapM_cons, always_bind]
    refine (h x n).mono ?_
    rintro _ ⟨e, rfl⟩
    rw [always_bind]
    refine (ih (n + 1)).mono ?_
    rintro _ ⟨es, hlength, rfl⟩
    exact ⟨e :: es, congrArg Nat.succ hlength, rfl⟩

theorem group_item_db_entry (g : GroupRow) (i : Nat) :
    (group_item_db g i).Always (Op.hands P) fun items => ∃ e, items = entry_items e i := by
  refine Always.seq (by simp [get_group_members, Op.hands]) fun members => ?_
  refine Always.seq (by simp [get_group_member_nicknames, Op.hands]) fun nicknameMap => ?_
  refine Always.seq (hands_of_footprint _ (by simp) (by simp)) fun admins => ?_
  exact ⟨⟨g.id, g.name, _, _, _, _⟩, rfl⟩

theorem group_item_mem_entry (g : Group) (i : Nat) :
    (group_item_mem g i).Always (Op.hands P) fun items => ∃ e, items = entry_items e i := by
  refine Always.seq (hands_of_footprint _ (by simp) (by simp)) fun names => ?_
  exact ⟨⟨g.id, g.name, _, _, _, _⟩, rfl⟩

/-- A part that neither sends nor queues. -/
theorem part_hands {α : Type} (p : Prog S α) (h : S ⊆ T) (hout : .out ∉ S)
    (hqueue : .var .g_offline_messages ∉ S) : (p.lift h).Always (Op.hands P) fun _ => True :=
  (always_lift p h).mpr (hands_of_footprint p hout hqueue)

/-- The frames that any command may send: the fixed replies, and what is neither a reply nor a chat message nor says
who is online, of the sender `me` or of none. -/
structure Routine (me : Int) (P : PendingMsg → Prop) : Prop where
  other : ∀ m : PendingMsg, m.type ≠ .SUCCESS → m.type ≠ .DIRECT_MESSAGE → m.type ≠ .GROUP_MESSAGE →
    m.type ≠ .USER_ONLINE → m.type ≠ .USER_OFFLINE → m.fromUserId = u32 me ∨ m.fromUserId = 0 → P m
  done : ∀ text userId, acknowledgements.contains text = true → P ⟨.SUCCESS, text, userId⟩

section Cases

variable (pg : Bool) (fd me : Int)

theorem get_user_groups_hands (requester_id : Int)
    (hanswers : ∀ gs userId, P ⟨.SUCCESS, (Reply.user_groups gs).payload, userId⟩) :
    (get_user_groups pg fd me requester_id).Always (Op.hands P) fun _ => True := by
  have hreply : ∀ items, (∃ gs : List Room.GroupEntry, items = gs.zipIdx.map fun g => entry_items g.1 g.2) →
      (andNext (reply fd .SUCCESS (serialize_kv ((str "count", to_string items.length) :: items.flatten))
        (u32 me)) : Prog answer_writes Outcome).Always (Op.hands P) fun _ => True := by
    rintro items ⟨gs, rfl⟩
    have hanswer := hanswers gs (u32 me)
    simpa [andNext, Op.hands, Reply.payload, Room.group_list, entry_items] using hanswer
  refine (always_ite ..).mpr ⟨fun _ => ?_, fun _ => ?_⟩
  · rw [always_bind, always_lift]
    refine Always.mono ?_ hreply
    refine Always.seq (by simp [PostgresPersistence.get_user_groups, Op.hands]) fun groups => ?_
    exact (always_mapM_zipIdx group_item_db_entry groups 0).mono fun _ h => h.imp fun _ hitems => hitems.2
  · rw [always_bind, always_lift]
    refine Always.mono ?_ hreply
    refine Always.seq (by simp [Op.hands]) fun groups => ?_
    exact (always_mapM_zipIdx group_item_mem_entry groups 0).mono fun _ h => h.imp fun _ hitems => hitems.2

variable (h : Routine me P)

include h

theorem register_hands (payload : Bytes)
    (hwelcome : ∀ uid username userId, P ⟨.SUCCESS, welcome uid username, userId⟩) :
    (register pg fd payload).Always (Op.hands P) fun _ => True := by
  have hother := h.other
  refine Always.seq ?_ fun _ => trivial
  refine (always_ite ..).mpr ⟨fun _ => by simp [Op.hands, hother], fun _ => ?_⟩
  refine Always.locked (Always.seq (by simp [Op.hands]) fun taken => ?_) trivial trivial
  refine (always_ite ..).mpr ⟨fun _ => by simp [Op.hands, hother], fun _ => ?_⟩
  refine Always.seq (part_hands _ _ (by simp) (by simp)) fun uid => ?_
  simp [register_user, Op.hands, hother, hwelcome]

theorem friend_request_hands (target : Target) :
    (friend_request pg fd me target).Always (Op.hands P) fun _ => True := by
  have hother := h.other
  refine Always.seq (part_hands _ _ (by simp) (by simp)) fun found => ?_
  cases found with
  | error e => simp [andNext, Op.hands, hother]
  | ok x =>
    refine Always.seq ?_ fun _ => trivial
    refine (always_ite ..).mpr ⟨fun _ => by simp [Op.hands, hother], fun _ => ?_⟩
    refine Always.seq (part_hands _ _ (by simp) (by simp)) fun refused => ?_
    simp [notify_target, Op.hands, hother, h.done, acknowledgements]

theorem friend_accept_hands (other : Int) :
    (friend_accept pg fd me other).Always (Op.hands P) fun _ => True := by
  have hrest : ∀ ok, (accept_in_memory fd me other ok).Always (Op.hands P) fun _ => True :=
    fun ok => by simp [accept_in_memory, Op.hands, h.other, h.done, acknowledgements]
  refine Always.seq (Always.locked ((always_ite ..).mpr ⟨fun _ => ?_, fun _ => ?_⟩) trivial trivial)
    fun _ => trivial
  · refine Always.seq (part_hands _ _ (by simp [all_tables]) (by simp [all_tables])) fun ok => ?_
    exact (always_lift ..).mpr (hrest ok)
  · refine Always.seq (always_pure true |>.mpr trivial) fun ok => ?_
    exact (always_lift ..).mpr (hrest ok)

theorem direct_message_hands (recipientId : Int) (message : Bytes)
    (hspeaks : ∀ timestamp, P (direct_message_frame me message timestamp)) :
    (direct_message pg fd me recipientId message).Always (Op.hands P) fun _ => True := by
  refine Always.seq (by simp [Op.hands]) fun ms => ?_
  refine Always.seq (by simp [save_message, Op.hands]) fun _ => ?_
  refine Always.seq ((always_lift ..).mpr (deliver_hands (hspeaks _) _)) fun _ => ?_
  simp [andNext, Op.hands, h.done, acknowledgements]

theorem get_group_history_hands (gid limit : Int)
    (hanswers : ∀ messages userId, P ⟨.SUCCESS, (Reply.group_history gid messages).payload, userId⟩) :
    (get_group_history pg fd me gid limit).Always (Op.hands P) fun _ => True := by
  refine Always.seq (part_hands _ _ (by simp) (by simp)) fun member => Always.seq ?_ fun _ => trivial
  refine (always_ite ..).mpr ⟨fun _ => by simp [Op.hands, h.other], fun _ => ?_⟩
  have hreply : ∀ messages : List GroupMessageRow, P ⟨.SUCCESS, serialize_kv ((str "groupId", to_string gid)
      :: (str "count", to_string messages.length)
        :: (messages.reverse.zipIdx.map fun m => group_message_item m.1 m.2).flatten), u32 me⟩ := by
    intro messages
    have hanswer := hanswers messages.reverse (u32 me)
    rwa [Reply.payload, group_reply, List.length_reverse] at hanswer
  have hempty := hreply []
  cases pg with
  | true => simp [get_group_messages, Op.hands, hreply]
  | false => simpa [get_group_messages, Op.hands] using hempty

theorem create_group_hands (name : Option Bytes) (memberIds : List Int)
    (hcreated : ∀ gid name userId, P ⟨.SUCCESS, created_reply me gid name memberIds, userId⟩)
    (hspeaks : ∀ gid m, Announces gid m → P m) :
    (create_group pg fd me name memberIds).Always (Op.hands P) fun _ => True := by
  refine Always.seq (part_hands _ _ (by simp) (by simp)) fun name => ?_
  refine (always_ite ..).mpr ⟨fun _ => ?_, fun _ => ?_⟩
  all_goals
    refine Always.seq (part_hands _ _ (by simp [all_tables]) (by simp [all_tables])) fun gid => ?_
    refine Always.seq ((always_lift ..).mpr ((always_ite ..).mpr ⟨fun _ => ?_, fun _ => ?_⟩)) fun _ => trivial
    · simp [Op.hands, h.other]
    refine Always.seq (part_hands _ _ (by simp) (by simp)) fun _ => ?_
    refine Always.seq ((always_reply ..).mpr ⟨hcreated _ _ _, trivial⟩) fun _ => ?_
    exact Always.seq (announce_hands pg _ _ (hspeaks _)) fun _ => trivial

theorem invite_to_group_hands (gid uid : Int) (hspeaks : ∀ m, Announces gid m → P m) :
    (invite_to_group pg fd me gid uid).Always (Op.hands P) fun _ => True := by
  have hother := h.other
  refine Always.seq (by simp [Op.hands]) fun ok => Always.seq ?_ fun _ => trivial
  refine (always_ite ..).mpr ⟨fun _ => by simp [Op.hands, hother], fun _ => ?_⟩
  refine Always.seq (part_hands _ _ (by simp) (by simp)) fun added => ?_
  refine (always_ite ..).mpr ⟨fun _ => by simp [Op.hands, hother], fun _ => ?_⟩
  refine Always.seq (by simp [notify_invited, find_fd, Op.hands, hother]) fun _ => ?_
  refine Always.seq ((always_lift ..).mpr (announce_hands pg gid _ hspeaks)) fun _ => ?_
  simp [Op.hands, h.done, acknowledgements]

theorem rename_group_hands (gid : Int) (newName : Bytes) (hspeaks : ∀ m, Announces gid m → P m)
    (hrenamed : P (renamed_notice me gid newName)) :
    (rename_group pg fd me gid newName).Always (Op.hands P) fun _ => True := by
  refine Always.seq (by simp [Op.hands]) fun ok => Always.seq ?_ fun _ => trivial
  refine (always_ite ..).mpr ⟨fun _ => by simp [Op.hands, h.other], fun _ => ?_⟩
  refine Always.seq ?_ fun _ => ?_
  · simp [PostgresPersistence.rename_group, log_activity, Op.hands]
  refine Always.seq ((always_lift ..).mpr (announce_hands pg gid _ hspeaks)) fun members => ?_
  refine Always.seq ((always_lift ..).mpr (deliver_all_hands hrenamed members)) fun _ => ?_
  simp [Op.hands, h.done, acknowledgements]

theorem set_group_nickname_hands (gid uid : Int) (nick : Bytes) (hspeaks : ∀ m, Announces gid m → P m) :
    (set_group_nickname pg fd me gid uid nick).Always (Op.hands P) fun _ => True := by
  refine Always.seq ?_ fun ok => Always.seq ?_ fun _ => trivial
  · simp [PostgresPersistence.set_group_nickname, log_activity, Op.hands]
  refine (always_ite ..).mpr ⟨fun _ => by simp [Op.hands, h.other], fun _ => ?_⟩
  refine Always.seq ((always_lift ..).mpr ?_) fun _ => by simp [Op.hands, h.done, acknowledgements]
  refine Always.seq (by simp [Op.hands]) fun ts_ms => Always.seq (by simp [Op.hands]) fun names => ?_
  refine Always.seq (by simp [save_group_message, Op.hands]) fun _ => ?_
  refine Always.seq (by simp [Op.hands]) fun members => ?_
  exact (always_lift ..).mpr (deliver_all_hands (hspeaks _ ⟨_, _, rfl⟩) members)

theorem remove_from_group_hands (gid uid : Int) (hspeaks : ∀ m, m = removed_notice gid ∨ Announces gid m → P m)
    (hremoved : P (member_removed_notice gid uid)) :
    (remove_from_group pg fd me gid uid).Always (Op.hands P) fun _ => True := by
  have hother := h.other
  refine Always.seq (part_hands _ _ (by simp) (by simp)) fun permitted => Always.seq ?_ fun _ => trivial
  refine (always_ite ..).mpr ⟨fun _ => by simp [Op.hands, hother], fun _ => ?_⟩
  refine Always.seq (part_hands _ _ (by simp) (by simp)) fun removed => ?_
  refine (always_ite ..).mpr ⟨fun _ => by simp [Op.hands, hother], fun _ => ?_⟩
  refine Always.seq ((always_lift ..).mpr (announce_hands pg gid _ fun m hm => hspeaks m (.inr hm))) fun _ => ?_
  refine Always.seq ((always_lift ..).mpr (deliver_hands (hspeaks _ (.inl rfl)) uid)) fun _ => ?_
  refine Always.seq (part_hands _ _ (by simp) (by simp)) fun members => ?_
  refine Always.seq ((always_lift ..).mpr (deliver_all_hands hremoved members)) fun _ => ?_
  simp [Op.hands, h.done, acknowledgements]

theorem make_admin_hands (gid uid : Int) (hspeaks : ∀ m, Announces gid m → P m)
    (hpromoted : P (admin_notice me gid uid)) :
    (make_admin pg fd me gid uid).Always (Op.hands P) fun _ => True := by
  have hother := h.other
  refine Always.seq (part_hands _ _ (by simp) (by simp)) fun permitted => Always.seq ?_ fun _ => trivial
  refine (always_ite ..).mpr ⟨fun _ => by simp [Op.hands, hother], fun _ => ?_⟩
  refine Always.seq (part_hands _ _ (by simp) (by simp)) fun updated => ?_
  refine (always_ite ..).mpr ⟨fun _ => by simp [Op.hands, hother], fun _ => ?_⟩
  refine Always.seq ((always_lift ..).mpr (announce_hands pg gid _ hspeaks)) fun members => ?_
  refine Always.seq ((always_lift ..).mpr (deliver_all_hands hpromoted members)) fun _ => ?_
  simp [Op.hands, h.done, acknowledgements]

theorem leave_group_hands (gid : Int) : (leave_group pg fd me gid).Always (Op.hands P) fun _ => True := by
  refine Always.seq (by simp [Op.hands]) fun r => ?_
  have hrest : ∀ persisted deleted : Bool, (andNext (
      if !persisted then reply fd .ERROR (str "Leave failed (db)") (u32 me)
      else reply fd .SUCCESS (if deleted then str "Group deleted" else str "Left group") (u32 me)) :
        Prog leave_writes Outcome).Always (Op.hands P) fun _ => True := by
    intro persisted deleted
    cases deleted <;> simp [andNext, Op.hands, h.other, h.done, acknowledgements]
  refine (always_ite ..).mpr ⟨fun _ => ?_, fun _ => ?_⟩
  · exact Always.seq (part_hands _ _ (by simp) (by simp)) fun persisted => hrest persisted _
  · exact hrest true _

theorem group_message_hands (gid : Int) (message : Bytes)
    (hspeaks : ∀ ts_ms, P (group_message_frame me gid message ts_ms)) :
    (group_message pg fd me gid message).Always (Op.hands P) fun _ => True := by
  refine Always.seq (part_hands _ _ (by simp) (by simp)) fun members => ?_
  cases members with
  | none => simp [andNext, Op.hands, h.other]
  | some members =>
    refine Always.seq (by simp [Op.hands]) fun ts_ms => ?_
    refine Always.seq (by simp [save_group_message, Op.hands]) fun _ => ?_
    refine Always.seq ((always_lift ..).mpr (deliver_all_hands (hspeaks _) members)) fun _ => ?_
    simp [andNext, Op.hands, h.done, acknowledgements]

end Cases

/-- **A command sends what it says**, its replies and notices; who is online is said by `LOGIN` and `LOGOUT` alone. -/
theorem perform_hands_routine (pg : Bool) (fd me rid : Int) {c : Command}
    (hlogin : ∀ payload, c ≠ .login payload) (hlogout : c ≠ .logout)
    (hother : ∀ m : PendingMsg, m.type ≠ .SUCCESS → m.type ≠ .DIRECT_MESSAGE → m.type ≠ .GROUP_MESSAGE →
      m.type ≠ .USER_ONLINE → m.type ≠ .USER_OFFLINE → m.fromUserId = u32 me ∨ m.fromUserId = 0 → P m)
    (hlists : c.lists_users = true → ∀ payload userId, P ⟨.SUCCESS, payload, userId⟩)
    (hanswers : ∀ r, c.Answers r → ∀ userId, P ⟨.SUCCESS, r.payload, userId⟩)
    (hspeaks : ∀ m, c.Speaks me m → P m) :
    (perform pg fd me rid c).Always (Op.hands P) fun _ => True := by
  have hdone : ∀ text userId, acknowledgements.contains text = true → P ⟨.SUCCESS, text, userId⟩ :=
    fun text userId h => hanswers (.acknowledgement text (by simpa using h)) (by cases c <;> trivial) userId
  have h : Routine me P := ⟨hother, hdone⟩
  cases c with
  | login payload => exact absurd rfl (hlogin payload)
  | heartbeat | unknown => simp [perform, heartbeat, andNext, Op.hands, hdone, acknowledgements]
  | register payload =>
    rw [perform, always_lift]
    refine register_hands pg fd me h payload ?_
    exact fun uid username => hanswers (.welcome uid username) trivial
  | logout => exact absurd rfl hlogout
  | search_user payload => simp [perform, search_user, andNext, Op.hands, hlists rfl]
  | get_all_users => simp [perform, get_all_users, andNext, Op.hands, hlists rfl]
  | get_friends_list =>
    rw [perform, always_lift]
    refine Always.seq (by simp [Op.hands]) fun found => ?_
    refine Always.seq (part_hands _ _ (by simp) (by simp)) fun froms => ?_
    refine Always.seq (part_hands _ _ (by simp) (by simp)) fun requests => ?_
    simp [andNext, Op.hands, hlists rfl]
  | friend_request target =>
    rw [perform, always_lift]
    exact friend_request_hands pg fd me h target
  | friend_accept other =>
    rw [perform, always_lift]
    exact friend_accept_hands pg fd me h other
  | friend_decline other =>
    simp [perform, friend_decline, decline_friend_request, log_activity, andNext, Op.hands, hdone, acknowledgements]
  | unfriend other => simp [perform, unfriend, andNext, Op.hands, hdone, acknowledgements]
  | direct_message recipientId message =>
    rw [perform, always_lift]
    exact direct_message_hands pg fd me h recipientId message fun _ => hspeaks _ ⟨_, rfl⟩
  | get_conversation_history otherUserId limit =>
    rw [perform, always_lift]
    refine Always.seq (part_hands _ _ (by simp) (by simp)) fun messages => ?_
    have hreply := hanswers (.conversation messages.reverse) trivial (u32 me)
    rw [Reply.payload, conversation_reply, List.length_reverse] at hreply
    simp [andNext, Op.hands, hreply]
  | get_group_history gid limit =>
    rw [perform, always_lift]
    exact get_group_history_hands pg fd me h gid limit fun _ => hanswers _ rfl
  | get_user_groups =>
    rw [perform, always_lift]
    exact get_user_groups_hands pg fd me rid fun _ => hanswers _ trivial
  | delete_conversation other =>
    simp [perform, handle_client.delete_conversation, PostgresPersistence.delete_conversation,
      andNext, Op.hands, hother, hdone, acknowledgements]
  | create_group name memberIds =>
    rw [perform, always_lift]
    refine create_group_hands pg fd me h name memberIds (fun gid name => ?_) fun gid m hm => ?_
    · exact hanswers (.created me gid name memberIds) trivial
    · exact hspeaks m ⟨gid, hm⟩
  | invite_to_group gid uid =>
    rw [perform, always_lift]
    exact invite_to_group_hands pg fd me h gid uid hspeaks
  | accept_group_invite gid =>
    rw [perform, always_lift]
    refine Always.seq (part_hands _ _ (by simp) (by simp)) fun ok => Always.seq ?_ fun _ => trivial
    have hjoined : P ⟨.SUCCESS, serialize_kv [(str "groupId", to_string gid), (str "userId", to_string me)],
      u32 me⟩ := hanswers (.joined gid me) rfl (u32 me)
    simp [notify_joined, Op.hands, hother, hdone, hjoined, acknowledgements]
  | decline_group_invite gid =>
    simp [perform, decline_group_invite, delete_group_invite, andNext, Op.hands, hdone, acknowledgements]
  | rename_group gid newName =>
    rw [perform, always_lift]
    refine rename_group_hands pg fd me h gid newName hspeaks ?_
    exact hanswers (.renamed gid newName) ⟨rfl, rfl⟩ (u32 me)
  | set_group_nickname gid uid nick =>
    rw [perform, always_lift]
    exact set_group_nickname_hands pg fd me h gid uid nick hspeaks
  | remove_from_group gid uid =>
    rw [perform, always_lift]
    refine remove_from_group_hands pg fd me h gid uid hspeaks ?_
    exact hanswers (.member_removed gid uid) ⟨rfl, rfl⟩ 0
  | make_admin gid uid =>
    rw [perform, always_lift]
    refine make_admin_hands pg fd me h gid uid hspeaks ?_
    exact hanswers (.promoted gid uid) ⟨rfl, rfl⟩ (u32 me)
  | leave_group gid =>
    rw [perform, always_lift]
    exact leave_group_hands pg fd me h gid
  | group_message gid message =>
    rw [perform, always_lift]
    exact group_message_hands pg fd me h gid message fun _ => hspeaks _ ⟨_, rfl⟩

/-- So does every command but `LOGIN`. -/
theorem perform_hands_replies (pg : Bool) (fd me rid : Int) {c : Command}
    (hlogin : ∀ payload, c ≠ .login payload)
    (hother : ∀ m : PendingMsg, m.type ≠ .SUCCESS → m.type ≠ .DIRECT_MESSAGE → m.type ≠ .GROUP_MESSAGE → P m)
    (hlists : c.lists_users = true → ∀ payload userId, P ⟨.SUCCESS, payload, userId⟩)
    (hanswers : ∀ r, c.Answers r → ∀ userId, P ⟨.SUCCESS, r.payload, userId⟩)
    (hspeaks : ∀ m, c.Speaks me m → P m) :
    (perform pg fd me rid c).Always (Op.hands P) fun _ => True := by
  by_cases hlogout : c = .logout
  · subst hlogout
    have hdone : ∀ userId, P ⟨.SUCCESS, [], userId⟩ :=
      hanswers (.acknowledgement [] (by simp [acknowledgements])) trivial
    simp [perform, logout, go_offline, notify_friends_status_change, find_fd, Op.hands, hother, hdone]
  · exact perform_hands_routine pg fd me rid hlogin hlogout (fun m h₁ h₂ h₃ _ _ _ => hother m h₁ h₂ h₃) hlists hanswers
      hspeaks

/-- Where replies do not matter, all that is asked of them is that they are no chat messages. -/
theorem perform_hands (pg : Bool) (fd me rid : Int) {c : Command} (hlogin : ∀ payload, c ≠ .login payload)
    (hplain : ∀ m : PendingMsg, m.type ≠ .DIRECT_MESSAGE → m.type ≠ .GROUP_MESSAGE → P m)
    (hspeaks : ∀ m, c.Speaks me m → P m) :
    (perform pg fd me rid c).Always (Op.hands P) fun _ => True :=
  perform_hands_replies pg fd me rid hlogin (fun m _ => hplain m)
    (fun _ _ _ => hplain _ (by simp) (by simp)) (fun _ _ _ => hplain _ (by simp) (by simp)) hspeaks

end Hands

end ChatApp
