/-
`Stranded.lean` -- messages that wait for a user who is online.

A sender looks the recipient up in one critical section and queues the message in a later one; a
`LOGIN` enters the user and takes its queue in one section of its own, and a `REGISTER` enters the user
and takes nothing. So a message is stranded when its recipient comes online between the two sections of
the sender, or comes into being with a queue. Nothing else strands one: every other move of a handler
leaves who is online and what waits as it was, or takes from either.
-/
import ChatApp.Concurrent
import ChatApp.Sessions

set_option autoImplicit false

namespace ChatApp

open Prog PostgresPersistence handle_client

/-! ## The invariant and the condition -/

/-- No message waits for a user who is online. -/
def NoneWaiting (w : World) : Prop :=
  ∀ uid, w.mem.g_online_clients.find? uid ≠ none → w.mem.g_offline_messages.get uid = []

/-- A `REGISTER` that succeeds in this state, for the user `uid`. -/
def Registers (pg : Bool) (env : Env) (w : World) (payload : Bytes) (uid : Int) : Prop :=
  Grants pg env w (.register payload) uid ∧ (pg = true → w.db.aborted = false)

/-- The condition on a move: a message is queued while its recipient is not online, and nothing waits
for a user who is registered. -/
def strandsNothing (pg : Bool) (env : Env) : Condition where
  Holds {S α} p w :=
    (∀ uid m (h : [.var .g_offline_messages] ⊆ S) (k : Unit → Prog S α),
      p = (enqueue_offline uid m).lift h >>= k → w.mem.g_online_clients.find? uid = none) ∧
    ∀ fd payload (h : register_writes ⊆ S) (k : Outcome → Prog S α),
      p = (register pg fd payload).lift h >>= k →
        ∀ uid, Registers pg env w payload uid → w.mem.g_offline_messages.get uid = []
  of_bind p f w hp := by
    constructor
    · rintro uid m h k rfl
      exact hp.1 uid m h _ (bind_assoc ..)
    · rintro fd payload h k rfl
      exact hp.2 fd payload h _ (bind_assoc ..)
  of_lift p hsub w hp := by
    constructor
    · rintro uid m h k rfl
      refine hp.1 uid m (List.Subset.trans h hsub) (fun a => (k a).lift hsub) ?_
      rw [lift_bind, lift_lift]
    · rintro fd payload h k rfl
      refine hp.2 fd payload (List.Subset.trans h hsub) (fun a => (k a).lift hsub) ?_
      rw [lift_bind, lift_lift]

/-- Every move of the program that meets the condition leaves no message waiting. -/
abbrev Drains (pg : Bool) (env : Env) {S : List Field} {α : Type} (p : Prog S α) : Prop :=
  p.Guarded env (strandsNothing pg env) fun w w' => NoneWaiting w → NoneWaiting w'

/-! ## What leaves the two maps alone -/

/-- The operation brings nobody online and queues nothing. -/
@[simp] def Op.drains {β : Type} : Op β → Prop
  | .modify .g_online_clients f => ∀ m uid, (f m).find? uid ≠ none → m.find? uid ≠ none
  | .modify .g_offline_messages _ => False
  | _ => True

section Rules

variable {pg : Bool} {env : Env} {S T : List Field} {α β : Type} {R : α → Prop} {w w' : World}

theorem Op.drains.exec {o : Op β} (ho : o.drains) (hw : NoneWaiting w) :
    NoneWaiting (o.exec env w).2 := by
  cases o with
  | modify x f =>
    cases x with
    | g_online_clients => exact fun uid honline => hw uid (ho _ uid honline)
    | g_offline_messages => exact ho.elim
    | _ => exact hw
  | _ => exact hw

theorem moves_of_drains {p : Prog S α} (hp : p.Always Op.drains R) :
    p.Moves env (strandsNothing pg env) fun w w' => NoneWaiting w → NoneWaiting w' :=
  .of_always hp (fun _ => id) (fun _ _ _ h h' => h' ∘ h) fun _ _ ho => ho.exec

theorem drains_of_footprint (p : Prog S α) (honline : .var .g_online_clients ∉ S)
    (hqueue : .var .g_offline_messages ∉ S) : p.Always Op.drains fun _ => True := by
  refine always_of_footprint p fun o ho => ?_
  cases o with
  | modify x f =>
    cases x with
    | g_online_clients => exact absurd (ho _ (by simp [Op.writes])) honline
    | g_offline_messages => exact absurd (ho _ (by simp [Op.writes])) hqueue
    | _ => trivial
  | _ => trivial

/-- A part of a handler that queues nothing. -/
theorem Drains.part {p : Prog S α} (hclosed : p.Closed) (hp : p.Always Op.drains fun _ => True) :
    Drains pg env p :=
  ⟨hclosed, moves_of_drains hp⟩

/-- A part that has no critical section and writes neither map. -/
theorem Drains.unlocked {p : Prog S α} (hunlocked : p.Unlocked) (honline : .var .g_online_clients ∉ S)
    (hqueue : .var .g_offline_messages ∉ S) : Drains pg env p :=
  .part (closed_of_unlocked hunlocked) (drains_of_footprint p honline hqueue)

theorem noneWaiting_of_same (honline : w'.mem.g_online_clients = w.mem.g_online_clients)
    (hqueue : w'.mem.g_offline_messages = w.mem.g_offline_messages) (hw : NoneWaiting w) :
    NoneWaiting w' := by
  intro uid
  rw [honline, hqueue]
  exact hw uid

end Rules

/-! ## Deliveries -/

section Deliveries

variable {pg : Bool} {env : Env} {S : List Field}

/-- The one place where a message is queued: the condition speaks of it. -/
theorem enqueue_offline_drains (uid : Int) (m : PendingMsg) : Drains pg env (enqueue_offline uid m) := by
  refine Guarded.locked (by simp [Unlocked, Op.isLock, Op.isUnlock]) fun w hw hnone u honline => ?_
  have hoff : w.mem.g_online_clients.find? uid = none := by
    refine hw.1 uid m (List.Subset.refl _) pure ?_
    rw [lift_self, bind_pure]
    rfl
  show (w.mem.g_offline_messages.update uid fun ms => ms ++ [m]).get u = []
  have hu : u ≠ uid := by
    rintro rfl
    exact honline hoff
  rw [UMap.get_update, if_neg hu]
  exact hnone u honline

theorem reply_drains (fd : Int) (type : MessageType) (payload : Bytes) (userId : UInt32)
    (h : .out ∈ S) : Drains pg env (reply fd type payload userId h : Prog S Unit) :=
  .part (closed_of_unlocked (by simp [Unlocked, Op.isLock, Op.isUnlock])) (by simp [Op.drains])

/-- A section that only reads. -/
theorem locked_read_drains {β : Type} (f : ServerState → β) :
    Drains pg env (locked (read f) : Prog S β) :=
  .part (closed_locked (by simp [Unlocked, Op.isLock, Op.isUnlock])) (by simp [Op.drains])

theorem now_ms_drains : Drains pg env (now_ms : Prog S Int) :=
  .part (closed_of_unlocked (by simp [Unlocked, Op.isLock, Op.isUnlock])) (by simp [Op.drains])

theorem deliver_drains (m : PendingMsg) (uid : Int) : Drains pg env (deliver m uid) :=
  (locked_read_drains _).bind fun _ =>
    .ite (fun _ => reply_drains ..) fun _ => (enqueue_offline_drains uid m).lift _

theorem deliver_all_drains (m : PendingMsg) (uids : List Int) : Drains pg env (deliver_all m uids) :=
  .forM fun uid _ => deliver_drains m uid

/-- An announcement: the text is made in sections that only read. -/
theorem announce_drains (gid : Int) {sys : Prog [] Bytes} (hsys : Drains pg env sys) :
    Drains pg env (announce pg gid sys) := by
  refine now_ms_drains.bind fun ts_ms => (hsys.lift _).bind fun text => ?_
  have hsave : Drains pg env (save_group_message gid 0 text ts_ms) :=
    .unlocked (by simp [save_group_message, Unlocked, Op.isLock, Op.isUnlock]) (by simp) (by simp)
  have hmembers : Drains pg env (members_to_notify pg gid) := by
    refine .ite (fun _ => ?_) fun _ => ?_
    · refine Drains.unlocked ?_ (by simp) (by simp)
      simp [get_group_members, Unlocked, Op.isLock, Op.isUnlock]
    · refine Drains.part (closed_locked ?_) (drains_of_footprint _ (by simp) (by simp))
      simp [Unlocked, Op.isLock, Op.isUnlock]
  refine Guarded.bind (.when ((hsave.lift _).bind fun _ => .pure ())) fun _ => ?_
  refine (hmembers.lift _).bind fun members => ?_
  exact ((deliver_all_drains _ members).lift _).bind fun _ => .pure members

theorem sys_actor_drains (me : Int) (rest : Bytes) : Drains pg env (sys_actor me rest) :=
  (locked_read_drains _).bind fun actor => .pure (actor ++ rest)

theorem sys_actor_target_drains (me uid : Int) (verb rest : Bytes) :
    Drains pg env (sys_actor_target me uid verb rest) :=
  (locked_read_drains _).bind fun names => .pure (names.1 ++ verb ++ names.2 ++ rest)

end Deliveries

/-! ## The cases -/

section Cases

variable {pg : Bool} {env : Env} (fd me : Int)

theorem drains_andNext {S : List Field} {p : Prog S Unit} (hp : Drains pg env p) :
    Drains pg env (andNext p) := hp.bind fun _ => .pure Outcome.next

/-- A section that writes one group. -/
theorem locked_groups_drains {S : List Field} {f : Groups → Groups} (h : .var .g_groups ∈ S) :
    Drains pg env (locked (modify .g_groups f h) : Prog S Unit) :=
  .part (closed_locked (by simp [Unlocked, Op.isLock, Op.isUnlock])) (by simp [Op.drains])

theorem direct_message_drains (recipientId : Int) (message : Bytes) :
    Drains pg env (direct_message pg fd me recipientId message) := by
  refine now_ms_drains.bind fun ms => Guarded.bind (.when ?_) fun _ => ?_
  · refine Guarded.bind (.lift (Drains.unlocked ?_ (by simp) (by simp)) _) fun _ => .pure ()
    simp [save_message, Unlocked, Op.isLock, Op.isUnlock]
  · exact ((deliver_drains ..).lift _).bind fun _ => drains_andNext (reply_drains ..)

theorem create_group_drains (name : Option Bytes) (memberIds : List Int) :
    Drains pg env (create_group pg fd me name memberIds) := by
  have hname : Drains pg env (group_name name) := by
    refine Drains.unlocked ?_ (by simp) (by simp)
    cases name <;> simp [group_name, Unlocked, Op.isLock, Op.isUnlock]
  have hdb : ∀ name, Drains pg env (create_group_db me name memberIds) := fun name => by
    refine Drains.unlocked ?_ (by simp [all_tables]) (by simp [all_tables])
    simp [create_group_db, PostgresPersistence.create_group, add_members, add_group_member,
      set_group_admin, log_activity, Unlocked, Op.isLock, Op.isUnlock]
  have hmem : ∀ name, Drains pg env (create_group_mem me name memberIds) := fun name =>
    .part (closed_locked (by simp [Unlocked, Op.isLock, Op.isUnlock]))
      (drains_of_footprint _ (by simp) (by simp))
  have hrest : ∀ name gid, Drains pg env (announce_group pg fd me name memberIds gid) := by
    refine fun name gid => .ite (fun _ => reply_drains ..) fun _ => ?_
    have hpopulate : Drains pg env (populate_group pg me gid name memberIds) :=
      .part (closed_locked (by simp [Unlocked, Op.isLock, Op.isUnlock]))
        (drains_of_footprint _ (by simp) (by simp))
    refine (hpopulate.lift _).bind fun _ => (reply_drains ..).bind fun _ => ?_
    exact (announce_drains gid (sys_actor_drains ..)).bind fun _ => .pure ()
  refine (hname.lift _).bind fun name => .ite (fun _ => ?_) fun _ => ?_
  · exact ((hdb name).lift _).bind fun gid => drains_andNext ((hrest name _).lift _)
  · exact ((hmem name).lift _).bind fun gid => drains_andNext ((hrest name _).lift _)

/-- A change to memory that follows one to the database. -/
theorem committed_drains {S : List Field} {p : Prog S Bool} {f : Groups → Groups} {h : .var .g_groups ∈ S}
    (hp : Drains pg env p) : Drains pg env (do
      let ok ← p
      when ok (locked (modify .g_groups f h))
      pure ok) :=
  Guarded.bind hp fun _ => Guarded.bind (.when (locked_groups_drains h)) fun _ => .pure _

/-- A change to memory that the database, if there is one, has made before. -/
theorem tried_drains {S T : List Field} {p : Prog T Bool} {hT : T ⊆ S} {f : Groups → Groups}
    {h : .var .g_groups ∈ S} (hp : Drains pg env p) : Drains pg env (do
      let ok ← if pg then p.lift hT else pure true
      when ok (locked (modify .g_groups f h))
      pure ok) :=
  .ite (fun _ => committed_drains (hp.lift hT)) fun _ => committed_drains (p := pure true) (.pure true)

theorem invite_to_group_drains (gid uid : Int) :
    Drains pg env (invite_to_group pg fd me gid uid) := by
  have hmember : Drains pg env (persist_member pg gid uid) := by
    refine .ite (fun _ => committed_drains ((Drains.unlocked ?_ (by simp) (by simp)).lift _)) fun _ => ?_
    · simp [add_group_member, log_activity, Unlocked, Op.isLock, Op.isUnlock]
    · exact Guarded.bind (locked_groups_drains _) fun _ => .pure true
  have hnotify : Drains pg env (notify_invited me gid uid) := by
    refine (locked_read_drains _).bind fun invited_fd => .when (Drains.unlocked ?_ (by simp) (by simp))
    simp [Unlocked, Op.isLock, Op.isUnlock]
  refine (locked_read_drains _).bind fun ok => drains_andNext (.ite (fun _ => reply_drains ..) fun _ => ?_)
  refine (hmember.lift _).bind fun added => .ite (fun _ => reply_drains ..) fun _ => ?_
  refine (hnotify.lift _).bind fun _ => ?_
  exact ((announce_drains gid (sys_actor_target_drains ..)).lift _).bind fun _ => reply_drains ..

theorem rename_group_drains (gid : Int) (newName : Bytes) :
    Drains pg env (rename_group pg fd me gid newName) := by
  have hrename : Drains pg env (locked do
      let member ← read fun s => s.hasMember gid me
      when member (modify .g_groups (rename gid newName))
      pure member : Prog rename_writes Bool) :=
    .part (closed_locked (by simp [Unlocked, Op.isLock, Op.isUnlock])) (by simp [Op.drains])
  refine hrename.bind fun ok => drains_andNext (.ite (fun _ => reply_drains ..) fun _ => ?_)
  refine Guarded.bind (.when (Guarded.bind (.lift (Drains.unlocked ?_ (by simp) (by simp)) _)
    fun _ => .pure ())) fun _ => ?_
  · simp [PostgresPersistence.rename_group, log_activity, Unlocked, Op.isLock, Op.isUnlock]
  refine ((announce_drains gid (sys_actor_drains ..)).lift _).bind fun members => ?_
  exact ((deliver_all_drains ..).lift _).bind fun _ => reply_drains ..

theorem set_group_nickname_drains (gid uid : Int) (nick : Bytes) :
    Drains pg env (set_group_nickname pg fd me gid uid nick) := by
  have hset : Drains pg env (locked do
      let member ← read fun s => s.hasMember gid uid
      when member (modify .g_groups (set_nickname gid uid nick))
      when (member && pg) do
        let _ ← (PostgresPersistence.set_group_nickname gid uid nick).lift
        pure ()
      pure member : Prog member_writes Bool) := by
    refine Drains.part (closed_locked ?_) ?_
    · simp [PostgresPersistence.set_group_nickname, log_activity, Unlocked, Op.isLock, Op.isUnlock]
    · simp [PostgresPersistence.set_group_nickname, log_activity, Op.drains]
  have hannounce : Drains pg env (announce_nickname pg me gid uid nick) := by
    refine now_ms_drains.bind fun ts_ms => (locked_read_drains _).bind fun names => ?_
    refine Guarded.bind (.when (Guarded.bind (.lift (Drains.unlocked ?_ (by simp) (by simp)) _)
      fun _ => .pure ())) fun _ => ?_
    · simp [save_group_message, Unlocked, Op.isLock, Op.isUnlock]
    · exact (locked_read_drains _).bind fun members => (deliver_all_drains ..).lift _
  refine hset.bind fun ok => drains_andNext (.ite (fun _ => reply_drains ..) fun _ => ?_)
  exact (hannounce.lift _).bind fun _ => reply_drains ..

theorem remove_from_group_drains (gid uid : Int) :
    Drains pg env (remove_from_group pg fd me gid uid) := by
  have hmay : Drains pg env (may_remove pg me gid uid) := by
    refine .ite (fun _ => .ite (fun _ => .pure true) fun _ => ?_) fun _ => locked_read_drains _
    exact Drains.unlocked (by simp [is_group_admin, Unlocked, Op.isLock, Op.isUnlock]) (by simp) (by simp)
  have hremoved : Drains pg env (persist_removal pg gid uid) := by
    refine tried_drains (.unlocked ?_ (by simp) (by simp))
    simp [remove_group_member, log_activity, Unlocked, Op.isLock, Op.isUnlock]
  have hremaining : Drains pg env (remaining_members pg gid) := by
    refine .ite (fun _ => ?_) fun _ => locked_read_drains _
    exact Drains.unlocked (by simp [get_group_members, Unlocked, Op.isLock, Op.isUnlock]) (by simp)
      (by simp)
  refine (hmay.lift _).bind fun permitted => drains_andNext (.ite (fun _ => reply_drains ..) fun _ => ?_)
  refine (hremoved.lift _).bind fun removed => .ite (fun _ => reply_drains ..) fun _ => ?_
  refine ((announce_drains gid (sys_actor_target_drains ..)).lift _).bind fun _ => ?_
  refine ((deliver_drains ..).lift _).bind fun _ => (hremaining.lift _).bind fun members => ?_
  exact ((deliver_all_drains ..).lift _).bind fun _ => reply_drains ..

theorem make_admin_drains (gid uid : Int) : Drains pg env (make_admin pg fd me gid uid) := by
  have hmay : Drains pg env (may_promote pg me gid) := by
    refine .ite (fun _ => ?_) fun _ => locked_read_drains _
    exact Drains.unlocked (by simp [is_group_admin, Unlocked, Op.isLock, Op.isUnlock]) (by simp) (by simp)
  have hupdated : Drains pg env (persist_admin pg gid uid) := by
    refine tried_drains (.unlocked ?_ (by simp) (by simp))
    simp [set_group_admin, Unlocked, Op.isLock, Op.isUnlock]
  refine (hmay.lift _).bind fun permitted => drains_andNext (.ite (fun _ => reply_drains ..) fun _ => ?_)
  refine (hupdated.lift _).bind fun updated => .ite (fun _ => reply_drains ..) fun _ => ?_
  refine ((announce_drains gid (sys_actor_target_drains ..)).lift _).bind fun members => ?_
  exact ((deliver_all_drains ..).lift _).bind fun _ => reply_drains ..

theorem group_message_drains (gid : Int) (message : Bytes) :
    Drains pg env (group_message pg fd me gid message) := by
  have hrecipients : Drains pg env (recipients pg me gid) := by
    refine .ite (fun _ => Drains.unlocked ?_ (by simp) (by simp)) fun _ => locked_read_drains _
    simp [is_group_member, get_group_members, Unlocked, Op.isLock, Op.isUnlock]
  refine (hrecipients.lift _).bind fun members => ?_
  cases members with
  | none => exact drains_andNext (reply_drains ..)
  | some members =>
    refine now_ms_drains.bind fun ts_ms => Guarded.bind (.when (Guarded.bind
      (.lift (Drains.unlocked ?_ (by simp) (by simp)) _) fun _ => .pure ())) fun _ => ?_
    · simp [save_group_message, Unlocked, Op.isLock, Op.isUnlock]
    · exact ((deliver_all_drains ..).lift _).bind fun _ => drains_andNext (reply_drains ..)

end Cases

/-! ## `LOGIN` and `REGISTER` -/

section Sessions

variable {pg : Bool} {env : Env} (fd me rid : Int)

/-- Ending a session takes a user offline. -/
theorem go_offline_always : (go_offline me).Always Op.drains fun _ => True := by
  simp only [go_offline, always_bind, always_locked, always_when, always_modify, always_lift]
  refine ⟨trivial, fun _ => ⟨fun m uid => ?_, trivial⟩, trivial, fun _ => ?_, trivial⟩
  · rw [UMap.find?_erase]
    split
    · exact fun h => absurd rfl h
    · exact id
  · exact drains_of_footprint _ (by simp) (by simp)

theorem logout_always : (logout fd me).Always Op.drains fun _ => True := by
  rw [logout, always_bind]
  exact (go_offline_always me).mono fun _ _ => by simp [Op.drains]

theorem cleanup_always : (cleanup fd me).Always Op.drains fun _ => True := by
  rw [cleanup, always_bind, always_lift]
  exact (go_offline_always me).mono fun _ _ => by simp [Op.drains]

/-- The section of `LOGIN` enters the user and takes what waits. -/
theorem login_session_drains (payload : Bytes) : Drains pg env (login_session pg fd payload) := by
  refine Guarded.locked ?_ fun w _ hnone => ?_
  · simp [mark_online, update_user_online_status, log_activity, login_pending, get_pending_requests,
      Unlocked, Op.isLock, Op.isUnlock]
  · refine ensures_read (Q := fun _ w' => NoneWaiting w') (ensures_ite (fun _ => ?_) fun _ => ?_)
    · exact Ensures.bind (R := fun _ w' => NoneWaiting w') hnone fun _ _ h => ensures_pure h
    · refine ensures_set_user (ensures_modify (ensures_part fun _ w₁ h₁ => ?_))
      refine ensures_part fun _ w₂ h₂ => ensures_read (ensures_modify (ensures_pure ?_))
      have honline := Eq.trans (h₂ (.var .g_online_clients) (by simp))
        (h₁ (.var .g_online_clients) (by simp))
      have hqueue := Eq.trans (h₂ (.var .g_offline_messages) (by simp))
        (h₁ (.var .g_offline_messages) (by simp))
      intro u hu
      show (w₂.mem.g_offline_messages.erase _).get u = []
      rw [UMap.get_erase]
      split
      · rfl
      · next hother =>
        -- another user: online as before, and its queue is the same
        have hu : w.mem.g_online_clients.find? u ≠ none := by
          have hset : w₂.mem.g_online_clients = w.mem.g_online_clients.set _ fd := honline
          change w₂.mem.g_online_clients.find? u ≠ none at hu
          rw [hset, UMap.find?_set, if_neg hother] at hu
          exact hu
        have hqueue : w₂.mem.g_offline_messages = w.mem.g_offline_messages := hqueue
        rw [hqueue]
        exact hnone u hu

theorem login_moves (payload : Bytes) : (login pg fd payload).Moves env (strandsNothing pg env)
    fun w w' => NoneWaiting w → NoneWaiting w' := by
  refine ((login_session_drains fd payload).lift _).moves_bind fun session => ?_
  cases session with
  | none => exact .pure _
  | some l =>
    refine moves_of_drains (R := fun _ => True) (Always.seq ((always_lift ..).mpr ?_) fun _ => trivial)
    exact drains_of_footprint _ (by simp) (by simp)

/-- A statement that gives a result was executed on a connection in working order. -/
theorem execute_some {S : List Field} {β : Type} {w : World} (t : Table) (q : Statement t β)
    (h : .table t ∈ S) : Ensures env w (execute t q h : Prog S (Option β)) fun r _ => ∀ b, r = some b →
      w.db.aborted = false ∧ env.sql_fails w.ticks = false ∧ (q w.db.tables).1 = some b := by
  intro b hb
  rw [run_execute, World.mapDb] at hb
  change (Database.exec t q (env.sql_fails w.ticks) w.db).1 = some b at hb
  unfold Database.exec at hb
  split at hb
  · cases hb
  · next haborted =>
    split at hb
    · cases hb
    · next hfails =>
      refine ⟨by simpa using haborted, by simpa using hfails, ?_⟩
      dsimp only at hb
      split at hb
      · next b' hq => rw [hq, ← hb]
      · cases hb

/-- The id that a `REGISTER` gets, whatever state the database is in. -/
theorem register_id_new (username password phone : Bytes) {w : World} :
    Ensures env w (register_id pg username password phone) fun r w' =>
      w'.mem.g_online_clients = w.mem.g_online_clients ∧
        w'.mem.g_offline_messages = w.mem.g_offline_messages ∧ ∀ uid, r = some uid →
          NewId pg env w username uid ∧ (pg = true → w.db.aborted = false) := by
  suffices h : Ensures env w (register_id pg username password phone) fun r _ => ∀ uid, r = some uid →
      NewId pg env w username uid ∧ (pg = true → w.db.aborted = false) from
    (h.and (ensures_frame _)).mono fun r w' h =>
      ⟨h.2 (.var .g_online_clients) (by simp), h.2 (.var .g_offline_messages) (by simp), h.1⟩
  cases pg with
  | false =>
    refine ensures_read (ensures_modify (ensures_read fun uid huid => ⟨?_, fun h => absurd h (by simp)⟩))
    exact (Option.some.inj huid).symm
  | true =>
    have hcreate : Ensures env w (create_user username password phone) fun r _ => ∀ uid, r = some uid →
        NewId true env w username uid ∧ w.db.aborted = false := by
      refine Ensures.bind (execute_some .users (insert_user (escape_string username)
        (escape_string password) (escape_string phone)) _) fun res w₁ h₁ => ?_
      refine ensures_ite (fun _ => ?_) fun _ => ?_
      · exact ensures_pure fun uid huid => absurd huid (by simp)
      · refine ensures_part fun _ w₂ _ => ensures_pure fun uid huid => ?_
        obtain ⟨haborted, hfails, hinsert⟩ := h₁ uid huid
        unfold insert_user at hinsert
        split at hinsert
        · cases hinsert
        · next hfree =>
          refine ⟨⟨hfails, ?_, (Option.some.inj hinsert).symm⟩, haborted⟩
          simpa using hfree
    refine (hcreate.lift _).bind fun r w₁ h₁ => ?_
    refine Ensures.bind (R := fun _ _ => True) trivial fun _ w₂ _ => ensures_pure fun uid huid => ?_
    exact ⟨(h₁ uid huid).1, fun _ => (h₁ uid huid).2⟩

theorem register_moves (payload : Bytes) : (register pg fd payload).Moves env (strandsNothing pg env)
    fun w w' => NoneWaiting w → NoneWaiting w' := by
  by_cases hmissing : field payload "username" = [] ∨ field payload "password" = []
  · rw [register, andNext, if_pos hmissing]
    exact moves_of_drains (R := fun _ => True) (by simp [Op.drains])
  rw [register, andNext, if_neg hmissing]
  refine Moves.locked_bind ?_ (fun w hw hnone => ?_) fun _ => .pure _
  · simp [register_id, create_user, update_user_online_status, log_activity, register_user,
      Unlocked, Op.isLock, Op.isUnlock]
  have hqueue := hw.2 fd payload (List.Subset.refl _) pure (by
    rw [lift_self, bind_pure, register, andNext, if_neg hmissing])
  refine ensures_read (Q := fun _ w' => NoneWaiting w') (ensures_ite (fun _ => hnone) fun htaken => ?_)
  refine ((register_id_new ..).lift _).bind fun r w₁ h₁ => ?_
  obtain ⟨honline, hoffline, hnew⟩ := h₁
  have hsame := noneWaiting_of_same honline hoffline hnone
  refine ensures_ite (fun _ => hsame) fun hsome => ?_
  obtain ⟨uid, rfl⟩ := Option.ne_none_iff_exists'.mp (by simpa using hsome)
  -- nothing waits for the new user
  have hempty : w.mem.g_offline_messages.get uid = [] := by
    refine hqueue uid ⟨⟨?_, ?_, ?_, (hnew uid rfl).1⟩, (hnew uid rfl).2⟩
    · exact fun h => hmissing (.inl h)
    · exact fun h => hmissing (.inr h)
    · simpa using htaken
  intro u hu
  show w₁.mem.g_offline_messages.get u = []
  by_cases huid : u = uid
  · rw [huid, hoffline, hempty]
  · refine hsame u ?_
    change (w₁.mem.g_online_clients.set uid fd).find? u ≠ none at hu
    rw [UMap.find?_set, if_neg huid] at hu
    exact hu

/-- **Every move of a handler** that meets the condition leaves no message waiting. -/
theorem perform_moves (c : Command) : (perform pg fd me rid c).Moves env (strandsNothing pg env)
    fun w w' => NoneWaiting w → NoneWaiting w' := by
  have hquiet : ∀ {S : List Field} (p : Prog S Outcome),
      .var .g_online_clients ∉ S → .var .g_offline_messages ∉ S →
      p.Moves env (strandsNothing pg env) fun w w' => NoneWaiting w → NoneWaiting w' :=
    fun p honline hqueue => moves_of_drains (drains_of_footprint p honline hqueue)
  cases c with
  | register payload => exact (register_moves fd payload).lift (by decide)
  | login payload => exact (login_moves fd payload).lift (by decide)
  | logout => exact (moves_of_drains (logout_always fd me)).lift (by decide)
  | direct_message recipientId message =>
    exact ((direct_message_drains fd me recipientId message).moves).lift (by decide)
  | create_group name memberIds => exact ((create_group_drains fd me name memberIds).moves).lift (by decide)
  | invite_to_group gid uid => exact ((invite_to_group_drains fd me gid uid).moves).lift (by decide)
  | rename_group gid newName => exact ((rename_group_drains fd me gid newName).moves).lift (by decide)
  | set_group_nickname gid uid nick =>
    exact ((set_group_nickname_drains fd me gid uid nick).moves).lift (by decide)
  | remove_from_group gid uid => exact ((remove_from_group_drains fd me gid uid).moves).lift (by decide)
  | make_admin gid uid => exact ((make_admin_drains fd me gid uid).moves).lift (by decide)
  | group_message gid message => exact ((group_message_drains fd me gid message).moves).lift (by decide)
  | _ => exact (hquiet _ (by simp [all_tables]) (by simp [all_tables])).lift (by decide)

end Sessions

/-! ## Who is online, and what waits -/

/-- **No message is stranded** in any state of any interleaving in which a message is queued while its
recipient is not online and a user who registers has no queue, whether handlers are at work in that state
or not. -/
theorem none_stranded {pg : Bool} {env₀ env : Env} {w₀ : World} {s : Concurrent}
    {tr : List (Taken Concurrent Concurrent.Event)} (booted : Booted pg env₀ w₀)
    (run : Concurrent.Run pg env (Concurrent.Meets (strandsNothing pg env)) (.quiet w₀) tr s) (uid : Int)
    (honline : s.world.mem.g_online_clients.find? uid ≠ none) :
    s.world.mem.g_offline_messages.get uid = [] := by
  have hstart : NoneWaiting w₀ := by
    intro u hu
    rw [booted.online_empty, UMap.find?_empty] at hu
    exact absurd rfl hu
  have hinvalid : ∀ fd, (invalid_header fd).Moves env (strandsNothing pg env)
      fun w w' => NoneWaiting w → NoneWaiting w' :=
    fun fd => moves_of_drains (R := fun _ => True) (by simp [invalid_header, Op.drains])
  have hcleanup : ∀ fd me, (cleanup_handler fd me).prog.Moves env (strandsNothing pg env)
      fun w w' => NoneWaiting w → NoneWaiting w' :=
    fun fd me => moves_of_drains (R := fun _ => True)
      (Always.seq ((always_lift ..).mpr (cleanup_always fd me)) fun _ => trivial)
  have hnone : NoneWaiting s.world :=
    Concurrent.invariant_of_moves (fun fd me rid c => perform_moves fd me rid c)
      (fun fd => (hinvalid fd).lift _) hcleanup (fun w fd hw => hw) (fun _ i h hC hget => hC i h rfl hget)
      run hstart fun h hh => absurd hh List.not_mem_nil
  exact hnone uid honline

/-- Nothing waits for the users who are online, nor for the next user. -/
def ServerState.nobodyWaits (s : ServerState) : Bool :=
  s.g_online_clients.keys.all (fun uid => (s.g_offline_messages.get uid).isEmpty) &&
    (s.g_offline_messages.get s.g_next_user_id).isEmpty

/-- A move meets the condition if nothing waits after it and nothing waits for the next user. -/
theorem strandsNothing_of_nobodyWaits {env : Env} {S : List Field} {α : Type} {p : Prog S α} {w : World}
    (hbefore : w.mem.nobodyWaits = true) (hafter : (p.advance env w).2.mem.nobodyWaits = true) :
    (strandsNothing false env).Holds p w := by
  rw [ServerState.nobodyWaits, Bool.and_eq_true, List.all_eq_true] at hbefore hafter
  constructor
  · rintro uid m h k rfl
    by_contra honline
    have hqueued : (((enqueue_offline uid m).lift h >>= k).advance env w).2.mem
        = { w.mem with g_offline_messages :=
            w.mem.g_offline_messages.update uid fun ms => ms ++ [m] } := rfl
    rw [hqueued] at hafter
    obtain ⟨fd, hfd⟩ := Option.ne_none_iff_exists'.mp honline
    have hempty := hafter.1 uid ((UMap.mem_keys ..).mpr ⟨fd, hfd⟩)
    simp [UMap.get_update] at hempty
  · rintro fd payload h k - uid ⟨⟨-, -, -, rfl⟩, -⟩
    exact List.isEmpty_iff.mp hbefore.2

/-- User 2 is written to while offline, and logs in. -/
theorem none_stranded_login : ∃ tr s,
    Concurrent.Run false Env.calm (Concurrent.Meets (strandsNothing false Env.calm))
      (.quiet (World.new Tables.empty)) tr s ∧
      s.world.mem.g_online_clients.find? 2 = some 7 ∧ s.world.mem.g_offline_messages.get 2 = [] := by
  have hrun : (Run.exec (Run.guard (Concurrent.step false Env.calm) fun s e =>
      match e with
      | .advance i => (s.handlers[i]?).all fun h => s.world.mem.nobodyWaits &&
          (h.prog.advance Env.calm s.world).2.mem.nobodyWaits
      | _ => true)
      (.quiet (World.new Tables.empty)) (Concurrent.two_users ++ Concurrent.served 6 .LOGOUT "" 8
        ++ Concurrent.served 5 .DIRECT_MESSAGE "recipientId=2&message=hi" 5
        ++ .accept 7 :: Concurrent.served 7 .LOGIN "username=b&password=x" 5)).map
          (fun s => s.world.mem.g_online_clients.find? 2) = some (some 7) := by decide
  obtain ⟨tr, s, run, honline⟩ := Concurrent.run_of_exec hrun
  have hrun : Concurrent.Run false Env.calm (Concurrent.Meets (strandsNothing false Env.calm))
      (.quiet (World.new Tables.empty)) tr s := by
    refine run.mono fun s e hguard i h he hget => ?_
    subst he
    simp only [hget, Option.all_some, Bool.and_eq_true] at hguard
    exact strandsNothing_of_nobodyWaits hguard.1 hguard.2
  exact ⟨tr, s, hrun, honline, none_stranded (booted_new Tables.empty_valid) hrun 2 (by simp [honline])⟩

/-- **A message can be stranded**: user 2 logs in after the sender has looked it up and before the sender
queues the message, which then waits for a user who is online while no handler is at work. -/
theorem some_stranded : ¬∀ (env : Env) (w₀ : World) (s : Concurrent)
    (tr : List (Taken Concurrent Concurrent.Event)) (uid : Int), Booted false env w₀ →
    Concurrent.Run false env (fun _ _ => True) (.quiet w₀) tr s → s.handlers = [] →
    s.world.mem.g_online_clients.find? uid ≠ none → s.world.mem.g_offline_messages.get uid = [] := by
  intro claim
  have hrun : (Run.exec (Run.guard (Concurrent.step false Env.calm) fun _ _ => true)
      (.quiet (World.new Tables.empty)) (Concurrent.two_users ++ Concurrent.served 6 .LOGOUT "" 8
        ++ Concurrent.served 5 .DIRECT_MESSAGE "recipientId=2&message=hi" 2
        ++ [.accept 7, .request 7 (.of .LOGIN "username=b&password=x")]
        ++ List.replicate 4 (.advance 1) ++ List.replicate 3 (.advance 0))).map
          (fun s => (s.handlers.length, s.world.mem.g_online_clients.find? 2,
            (s.world.mem.g_offline_messages.get 2).length)) = some (0, some 7, 1) := by decide
  obtain ⟨tr, s, run, hafter⟩ := Concurrent.run_of_exec hrun
  obtain ⟨hquiet, honline, hwaits⟩ := by simpa using hafter
  have hempty := claim _ _ _ _ 2 (booted_new Tables.empty_valid) (run.mono fun _ _ _ => trivial)
    hquiet (by simp [honline])
  rw [hempty] at hwaits
  cases hwaits

end ChatApp
