/-
`LockDiscipline.lean` -- every handler leaves the critical sections it enters.

`g_mutex` is a plain `std::mutex`: a thread that locks it a second time waits for itself. The source takes it with
`std::lock_guard`, in scopes that end; that no scope is entered inside another one, be it through a function
that is called there, has to be read off each case (`perform_closed`).
-/
import ChatApp.Stranded

set_option autoImplicit false

namespace ChatApp

open Prog PostgresPersistence handle_client

/-! ## Parts -/

section Parts

variable {S T : List Field} {α β : Type}

theorem closed_pure (a : α) : (pure a : Prog S α).Closed := rfl

theorem closed_lift {p : Prog S α} (hp : p.Closed) (h : S ⊆ T) : (p.lift h).Closed := (Program.balanced_hom _).mpr hp

theorem closed_ite {c : Prop} [Decidable c] {p q : Prog S α} (hp : p.Closed) (hq : q.Closed) :
    (if c then p else q).Closed := by
  split
  · exact hp
  · exact hq

theorem closed_when {c : Bool} {p : Prog S Unit} (hp : p.Closed) : (when c p).Closed := by
  cases c with
  | true => exact hp
  | false => rfl

theorem closed_forM {ι : Type} {xs : List ι} {f : ι → Prog S Unit} (hf : ∀ x ∈ xs, (f x).Closed) :
    (xs.forM f : Prog S Unit).Closed := by
  induction xs with
  | nil => rfl
  | cons x xs ih => exact (hf x List.mem_cons_self).bind fun _ => ih fun y hy => hf y (List.mem_cons_of_mem x hy)

theorem closed_mapM {ι : Type} {f : ι → Prog S β} (hf : ∀ x, (f x).Closed) (xs : List ι) :
    (xs.mapM f : Prog S (List β)).Closed := by
  induction xs with
  | nil => rfl
  | cons x xs ih =>
    rw [List.mapM_cons]
    exact (hf x).bind fun _ => ih.bind fun _ => rfl

theorem closed_andNext {p : Prog S Unit} (hp : p.Closed) : (andNext p).Closed := hp.bind fun _ => rfl

theorem closed_reply (fd : Int) (type : MessageType) (payload : Bytes) (userId : UInt32) (h : .out ∈ S) :
    (reply fd type payload userId h).Closed :=
  closed_of_unlocked (by simp [Unlocked, Op.isLock, Op.isUnlock])

theorem closed_locked_read {β : Type} (f : ServerState → β) : (locked (read f) : Prog S β).Closed :=
  closed_locked (by simp [Unlocked, Op.isLock, Op.isUnlock])

theorem closed_notify (uid : Int) (online : Bool) : (notify_friends_status_change uid online).Closed := by
  refine Program.Closed.bind (closed_locked (by simp [Unlocked, Op.isLock, Op.isUnlock])) fun friends => ?_
  refine closed_forM fun fid _ => Program.Closed.bind (closed_locked_read _) fun fd => ?_
  exact closed_when (closed_reply ..)

end Parts

/-! ## Cases -/

/-- What never strands a message is closed, whatever the environment does. -/
theorem closed_of_drains {pg : Bool} {S : List Field} {α : Type} {p : Prog S α} (hp : ∀ env, Drains pg env p) :
    p.Closed :=
  (hp Env.calm).closed

section Cases

variable (pg : Bool) (fd me rid : Int)

theorem closed_login_deliver (username : Bytes) (l : Login) : (login_deliver pg fd username l).Closed := by
  refine Program.Closed.bind (closed_reply ..) fun _ => Program.Closed.bind (closed_notify ..) fun _ => ?_
  refine Program.Closed.bind (closed_lift (closed_forM fun from_ _ => ?_) _) fun _ => ?_
  · exact Program.Closed.bind (closed_locked_read _) fun name => closed_reply ..
  refine Program.Closed.bind (closed_when (Program.Closed.bind (closed_lift ?_ _) fun invites =>
    closed_lift (closed_forM fun inv _ => ?_) _)) fun _ => closed_forM fun m _ => closed_reply ..
  · exact closed_of_unlocked (by simp [get_pending_group_invites, Unlocked, Op.isLock, Op.isUnlock])
  · exact closed_of_unlocked (by simp [send_pending_invite, Unlocked, Op.isLock, Op.isUnlock])

theorem register_closed (payload : Bytes) : (register pg fd payload).Closed := by
  refine closed_andNext (closed_ite (closed_reply ..) (closed_locked ?_))
  simp [register_id, create_user, update_user_online_status, log_activity, register_user, Unlocked, Op.isLock,
    Op.isUnlock]

theorem login_closed (payload : Bytes) : (login pg fd payload).Closed := by
  refine Program.Closed.bind (closed_lift (closed_of_drains fun _ => login_session_drains fd payload) _)
    fun session => ?_
  cases session with
  | none => rfl
  | some l => exact closed_andNext (closed_lift (closed_login_deliver ..) _)

theorem go_offline_closed : (go_offline me).Closed := by
  refine Program.Closed.bind (closed_locked ?_) fun _ => closed_when (closed_lift (closed_notify ..) _)
  simp [Unlocked, Op.isLock, Op.isUnlock]

theorem logout_closed : (logout fd me).Closed :=
  (go_offline_closed me).bind fun _ => Program.Closed.bind (closed_reply ..) fun _ => rfl

theorem cleanup_closed : (cleanup fd me).Closed :=
  Program.Closed.bind (closed_lift (go_offline_closed me) _) fun _ =>
    closed_of_unlocked (by simp [Unlocked, Op.isLock, Op.isUnlock])

theorem get_friends_list_closed : (get_friends_list pg fd me).Closed := by
  have hmerge : ∀ inMemory, (merge_pending pg me inMemory).Closed := by
    intro inMemory
    refine closed_ite (Program.Closed.bind (closed_lift (closed_of_unlocked ?_) _) fun requests => ?_) rfl
    · simp [get_pending_requests, Unlocked, Op.isLock, Op.isUnlock]
    · exact Program.Closed.bind (closed_locked (by simp [Unlocked, Op.isLock, Op.isUnlock])) fun _ => rfl
  have hitem : ∀ from_ j, (request_item from_ j).Closed := fun from_ j =>
    Program.Closed.bind (closed_locked_read _) fun uname => rfl
  refine Program.Closed.bind (closed_locked (by simp [Unlocked, Op.isLock, Op.isUnlock])) fun read => ?_
  refine Program.Closed.bind (closed_lift (hmerge _) _) fun pending => ?_
  have hitems : (pending.zipIdx.mapM fun e => request_item e.1 e.2).Closed :=
    closed_mapM (fun _ => hitem ..) _
  exact Program.Closed.bind (closed_lift hitems _) fun requests => closed_andNext (closed_reply ..)

theorem friend_request_closed (target : Target) : (friend_request pg fd me target).Closed := by
  have hfind : (find_target target).Closed := by
    cases target with
    | username name => exact closed_locked_read _
    | id | missing => rfl
  have hstore : ∀ x, (store_request pg me x).Closed := by
    intro x
    refine closed_locked ?_
    simp [store_request_db, has_pending_request, send_friend_request, log_activity, Unlocked, Op.isLock, Op.isUnlock]
  have hnotify : ∀ x, (notify_target me x).Closed := fun x =>
    closed_locked (by simp [Unlocked, Op.isLock, Op.isUnlock])
  refine Program.Closed.bind (closed_lift hfind _) fun found => ?_
  cases found with
  | error e => exact closed_andNext (closed_reply ..)
  | ok x =>
    refine closed_andNext (closed_ite (closed_reply ..) ?_)
    refine Program.Closed.bind (closed_lift (hstore x) _) fun refused => closed_ite (closed_reply ..) ?_
    exact Program.Closed.bind (closed_lift (hnotify x) _) fun _ => closed_reply ..

theorem get_group_history_closed (gid limit : Int) : (get_group_history pg fd me gid limit).Closed := by
  have hmember : (is_member pg gid me).Closed := by
    refine closed_ite (closed_of_unlocked ?_) (closed_locked_read _)
    simp [get_group_members, Unlocked, Op.isLock, Op.isUnlock]
  have hmessages : (get_group_messages gid limit).Closed := by
    refine closed_of_unlocked ?_
    simp [get_group_messages, Unlocked, Op.isLock, Op.isUnlock]
  refine Program.Closed.bind (closed_lift hmember _) fun member => closed_andNext (closed_ite (closed_reply ..) ?_)
  refine closed_ite (c := pg = true) (Program.Closed.bind (closed_lift hmessages _) fun _ => ?_) ?_
  · exact closed_reply ..
  · exact closed_reply _ _ _ _ (by decide)

theorem get_user_groups_closed : (get_user_groups pg fd me rid).Closed := by
  have hdb : ∀ g i, (group_item_db g i).Closed := by
    intro g i
    rw [group_item_db]
    have hmembers : (get_group_members g.id).Closed :=
      closed_of_unlocked (by simp [get_group_members, Unlocked, Op.isLock, Op.isUnlock])
    have hnicknames : (get_group_member_nicknames g.id).Closed :=
      closed_of_unlocked (by simp [get_group_member_nicknames, Unlocked, Op.isLock, Op.isUnlock])
    have hadmin : ∀ uid, (is_group_admin g.id uid).Closed := fun uid =>
      closed_of_unlocked (by simp [is_group_admin, Unlocked, Op.isLock, Op.isUnlock])
    refine hmembers.bind fun members => hnicknames.bind fun nicknames => ?_
    have hadmins : (members.mapM fun m => is_group_admin g.id m.id).Closed := closed_mapM (fun _ => hadmin _) _
    exact hadmins.bind fun admins => closed_pure _
  have hmem : ∀ g i, (group_item_mem g i).Closed := by
    intro g i
    rw [group_item_mem]
    have hnames : (g.members.keys.mapM fun uid =>
        read fun s => s.username_or uid (str "User " ++ to_string uid) : Prog [] _).Closed :=
      closed_mapM (fun uid => closed_of_unlocked (by simp [Unlocked, Op.isLock, Op.isUnlock])) _
    exact hnames.bind fun names => closed_pure _
  have hgroups : (PostgresPersistence.get_user_groups rid).Closed :=
    closed_of_unlocked (by simp [PostgresPersistence.get_user_groups, Unlocked, Op.isLock, Op.isUnlock])
  have hitems_db : ∀ groups : List GroupRow, (groups.zipIdx.mapM fun g => group_item_db g.1 g.2).Closed :=
    fun groups => closed_mapM (fun _ => hdb ..) _
  have hitems_mem : ∀ groups : List Group, (groups.zipIdx.mapM fun g => group_item_mem g.1 g.2).Closed :=
    fun groups => closed_mapM (fun _ => hmem ..) _
  refine closed_ite (c := pg = true)
    (Program.Closed.bind (closed_lift (hgroups.bind fun groups => hitems_db groups) _) fun items => ?_)
    (Program.Closed.bind (closed_lift ((closed_locked_read _).bind fun groups => hitems_mem groups) _) fun items => ?_)
  · exact closed_andNext (closed_reply ..)
  · exact closed_andNext (closed_reply ..)

theorem accept_group_invite_closed (gid : Int) : (accept_group_invite pg fd me gid).Closed := by
  have hjoin : (join_group pg me gid).Closed := by
    refine closed_ite (Program.Closed.bind (closed_lift (closed_of_unlocked ?_) _) fun added => ?_) (closed_locked ?_)
    · simp [add_group_member, log_activity, Unlocked, Op.isLock, Op.isUnlock]
    · refine Program.Closed.bind (closed_when (Program.Closed.bind (closed_locked ?_) fun _ =>
        closed_of_unlocked ?_)) fun _ => rfl
      · simp [Unlocked, Op.isLock, Op.isUnlock]
      · simp [delete_group_invite, Unlocked, Op.isLock, Op.isUnlock]
    · simp [Unlocked, Op.isLock, Op.isUnlock]
  refine Program.Closed.bind (closed_lift hjoin _) fun ok => closed_andNext (closed_ite (closed_reply ..) ?_)
  refine Program.Closed.bind (closed_lift (closed_locked ?_) _) fun _ => closed_reply ..
  simp [Unlocked, Op.isLock, Op.isUnlock]

theorem leave_group_closed (gid : Int) : (leave_group pg fd me gid).Closed := by
  have hreply : ∀ persisted deleted : Bool, (andNext (
      if !persisted then reply fd .ERROR (str "Leave failed (db)") (u32 me)
      else reply fd .SUCCESS (if deleted then str "Group deleted" else str "Left group") (u32 me)) :
        Prog leave_writes Outcome).Closed := fun persisted deleted =>
    closed_andNext (closed_ite (closed_reply ..) (closed_reply ..))
  refine Program.Closed.bind (closed_locked (by simp [Unlocked, Op.isLock, Op.isUnlock])) fun left => ?_
  refine closed_ite (Program.Closed.bind (closed_lift (closed_of_unlocked ?_) _) fun _ => hreply ..) (hreply true _)
  simp [remove_group_member, log_activity, Unlocked, Op.isLock, Op.isUnlock]

/-- **A handler enters a critical section only from outside, and leaves every one it enters.** -/
theorem perform_closed (c : Command) : (perform pg fd me rid c).Closed := by
  rw [perform.eq_def]
  cases c with
  | heartbeat | unknown => exact closed_lift (closed_andNext (closed_reply ..)) _
  | register payload => exact closed_lift (register_closed ..) _
  | login payload => exact closed_lift (login_closed ..) _
  | logout => exact closed_lift (logout_closed ..) _
  | search_user payload =>
    exact closed_lift (closed_andNext (closed_locked (by simp [Unlocked, Op.isLock, Op.isUnlock]))) _
  | get_all_users =>
    exact closed_lift (closed_andNext (closed_locked (by simp [Unlocked, Op.isLock, Op.isUnlock]))) _
  | get_friends_list => exact closed_lift (get_friends_list_closed ..) _
  | friend_request target => exact closed_lift (friend_request_closed ..) _
  | friend_accept other =>
    refine closed_lift (closed_andNext (closed_locked ?_)) _
    simp [accept_friend_request, add_friend, log_activity, accept_in_memory, Unlocked, Op.isLock, Op.isUnlock]
  | friend_decline other =>
    refine closed_lift (closed_andNext (closed_locked ?_)) _
    simp [decline_friend_request, log_activity, Unlocked, Op.isLock, Op.isUnlock]
  | unfriend other =>
    exact closed_lift (closed_andNext (closed_locked (by simp [Unlocked, Op.isLock, Op.isUnlock]))) _
  | direct_message recipientId message =>
    exact closed_lift (closed_of_drains fun _ => direct_message_drains fd me recipientId message) _
  | get_conversation_history otherUserId limit =>
    refine closed_lift (closed_of_unlocked ?_) _
    simp [get_conversation_history, get_conversation, andNext, Unlocked, Op.isLock, Op.isUnlock]
  | get_group_history gid limit => exact closed_lift (get_group_history_closed ..) _
  | get_user_groups => exact closed_lift (get_user_groups_closed ..) _
  | delete_conversation other =>
    refine closed_lift (closed_of_unlocked ?_) _
    simp [handle_client.delete_conversation, PostgresPersistence.delete_conversation, andNext, Unlocked, Op.isLock,
      Op.isUnlock]
  | create_group name memberIds =>
    exact closed_lift (closed_of_drains fun _ => create_group_drains fd me name memberIds) _
  | invite_to_group gid uid => exact closed_lift (closed_of_drains fun _ => invite_to_group_drains fd me gid uid) _
  | accept_group_invite gid => exact closed_lift (accept_group_invite_closed ..) _
  | decline_group_invite gid =>
    refine closed_lift (closed_of_unlocked ?_) _
    simp [decline_group_invite, delete_group_invite, andNext, Unlocked, Op.isLock, Op.isUnlock]
  | rename_group gid newName => exact closed_lift (closed_of_drains fun _ => rename_group_drains fd me gid newName) _
  | set_group_nickname gid uid nick =>
    exact closed_lift (closed_of_drains fun _ => set_group_nickname_drains fd me gid uid nick) _
  | remove_from_group gid uid =>
    exact closed_lift (closed_of_drains fun _ => remove_from_group_drains fd me gid uid) _
  | make_admin gid uid => exact closed_lift (closed_of_drains fun _ => make_admin_drains fd me gid uid) _
  | leave_group gid => exact closed_lift (leave_group_closed ..) _
  | group_message gid message => exact closed_lift (closed_of_drains fun _ => group_message_drains fd me gid message) _

end Cases

end ChatApp
