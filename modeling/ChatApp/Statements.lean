/-
`Statements.lean` -- the statements that each command makes to the database.

The server writes to the database through a few statements, and most of them have the session's user among their
parameters. `Issues me c` lists those of a command; every operation of the command is one of them or writes no
table. What a session may touch, and that the tables stay as the schema wants them, is read off this list: what every
statement of the list keeps, and what rolling back keeps, holds of the tables in every interleaving.
-/
import ChatApp.Concurrent
import ChatApp.Transactions

set_option autoImplicit false

namespace ChatApp

open Prog PostgresPersistence handle_client

/-! ## The list -/

/-- The statements of a command in the session `me`. -/
inductive Issues (me : Int) : Command → {β : Type} → (t : Table) → Statement t β → Prop where
  | logged (c : Command) (uid target : Int) : Issues me c .activity_logs (insert_activity_log uid target)
  | registered (payload username password_hash phone : Bytes) :
    Issues me (.register payload) .users (insert_user username password_hash phone)
  | begins_online (payload : Bytes) (uid : Int) : Issues me (.register payload) .users (update_online uid true)
  | marked_online (payload : Bytes) (uid : Int) : Issues me (.login payload) .users (update_online uid true)
  | requested (target : Target) (x : Int) :
    Issues me (.friend_request target) .friend_requests (upsert_friend_request me x)
  | befriended (other : Int) : Issues me (.friend_accept other) .friends
    (insert_friend (if other > me then me else other) (if other > me then other else me))
  | accepted (other : Int) : Issues me (.friend_accept other) .friend_requests (delete_friend_request other me)
  | declined (other : Int) : Issues me (.friend_decline other) .friend_requests (delete_friend_request other me)
  | stored (recipientId : Int) (message : Bytes) (timestamp : Int) :
    Issues me (.direct_message recipientId message) .messages
      (insert_message me recipientId (escape_string message) timestamp)
  | deleted (other : Int) : Issues me (.delete_conversation other) .messages (delete_messages me other)
  | founded (name : Option Bytes) (memberIds : List Int) (groupName : Bytes) :
    Issues me (.create_group name memberIds) .groups (insert_group (escape_string groupName) me)
  | populated (name : Option Bytes) (memberIds : List Int) (gid uid : Int) (listed : uid = me ∨ uid ∈ memberIds) :
    Issues me (.create_group name memberIds) .group_members (insert_group_member gid uid)
  | invited (gid uid : Int) : Issues me (.invite_to_group gid uid) .group_members (insert_group_member gid uid)
  | joined (gid : Int) : Issues me (.accept_group_invite gid) .group_members (insert_group_member gid me)
  | taken (gid : Int) : Issues me (.accept_group_invite gid) .group_invites (delete_invite gid me)
  | refused (gid : Int) : Issues me (.decline_group_invite gid) .group_invites (delete_invite gid me)
  | renamed (gid : Int) (newName : Bytes) :
    Issues me (.rename_group gid newName) .groups (update_group_name gid (escape_string newName))
  | nicknamed (gid uid : Int) (nick : Bytes) : Issues me (.set_group_nickname gid uid nick) .group_members
    (update_group_member gid uid fun r => { r with nickname := some (escape_string nick) })
  | removed (gid uid : Int) : Issues me (.remove_from_group gid uid) .group_members (delete_group_member gid uid)
  | left (gid : Int) : Issues me (.leave_group gid) .group_members (delete_group_member gid me)
  | altered (c : Command) : Issues me c .group_members alter_group_members
  | crowned_founder (name : Option Bytes) (memberIds : List Int) (gid : Int) :
    Issues me (.create_group name memberIds) .group_members
      (update_group_member gid me fun r => { r with is_admin := some true })
  | crowned (gid uid : Int) : Issues me (.make_admin gid uid) .group_members
    (update_group_member gid uid fun r => { r with is_admin := some true })
  | spoken (gid : Int) (message : Bytes) (timestamp : Int) : Issues me (.group_message gid message) .group_messages
    (insert_group_message gid me (escape_string message) timestamp)
  | announced (c : Command) (gid : Int) (text : Bytes) (timestamp : Int) :
    Issues me c .group_messages (insert_group_message gid 0 text timestamp)

/-- The operation writes no table but by a statement of the command. -/
@[simp] def Op.issued (me : Int) (c : Command) {β : Type} : Op β → Prop
  | .execute t q => Issues me c t q
  | _ => True

section Issued

variable {S T : List Field} {me : Int} {c : Command}

/-- A program that writes no table. -/
theorem issued_of_footprint {α : Type} (p : Prog S α) (h : ∀ t, Field.table t ∉ S) :
    p.Always (Op.issued me c) fun _ => True := by
  refine always_of_footprint p fun {β} o ho => ?_
  cases o with
  | execute t q => exact absurd (ho _ (by simp [Op.writes])) (h t)
  | _ => trivial

theorem part_issued {α : Type} (p : Prog S α) (h : S ⊆ T) (htable : ∀ t, Field.table t ∉ S) :
    (p.lift h).Always (Op.issued me c) fun _ => True :=
  (always_lift p h).mpr (issued_of_footprint p htable)

theorem log_activity_issued (uid target : Int) :
    (log_activity uid target).Always (Op.issued me c) fun _ => True := by
  simp [log_activity, Op.issued, Issues.logged]

theorem add_group_member_issued {gid uid : Int} (h : Issues me c .group_members (insert_group_member gid uid)) :
    (add_group_member gid uid).Always (Op.issued me c) fun _ => True := by
  simp [add_group_member, log_activity_issued, Op.issued, h]

theorem set_group_admin_issued {gid uid : Int} {is_admin : Bool} (h : Issues me c .group_members
    (update_group_member gid uid fun r => { r with is_admin := some is_admin })) :
    (set_group_admin gid uid is_admin).Always (Op.issued me c) fun _ => True := by
  simp [set_group_admin, Op.issued, h, Issues.altered]

theorem remove_group_member_issued {gid uid : Int}
    (h : Issues me c .group_members (delete_group_member gid uid)) :
    (remove_group_member gid uid).Always (Op.issued me c) fun _ => True := by
  simp [remove_group_member, log_activity_issued, Op.issued, h]

theorem save_group_message_issued {gid uid : Int} {content : Bytes} {timestamp : Int}
    (h : Issues me c .group_messages (insert_group_message gid uid (escape_string content) timestamp)) :
    (save_group_message gid uid content timestamp).Always (Op.issued me c) fun _ => True := by
  simp [save_group_message, Op.issued, h]

theorem announce_issued (pg : Bool) (gid : Int) (sys : Prog [] Bytes) :
    (announce pg gid sys).Always (Op.issued me c) fun _ => True := by
  refine Always.seq (by simp [Op.issued]) fun ts_ms => ?_
  refine Always.seq (part_issued sys _ (by simp)) fun text => ?_
  refine Always.seq ?_ fun _ => Always.seq ?_ fun members => Always.seq ?_ fun _ => trivial
  · simp [save_group_message_issued, Issues.announced]
  · exact part_issued _ _ (by simp)
  · exact part_issued _ _ (by simp)

end Issued

/-! ## Commands -/

section Cases

variable (pg : Bool) (fd me : Int)

theorem register_issued (payload : Bytes) :
    (register pg fd payload).Always (Op.issued me (.register payload)) fun _ => True := by
  have hid : ∀ username password phone,
      (register_id pg username password phone).Always (Op.issued me (.register payload)) fun _ => True := by
    intro username password phone
    have hlog : ∀ uid, (log_activity uid 0).Always (Op.issued me (.register payload)) fun _ => True :=
      fun uid => log_activity_issued uid 0
    have hcreate : (create_user username password phone).Always (Op.issued me (.register payload)) fun _ => True := by
      simp [create_user, hlog, Op.issued, Issues.registered]
    have honline : ∀ uid, (update_user_online_status uid true).Always (Op.issued me (.register payload))
        fun _ => True := by
      simp [update_user_online_status, hlog, Op.issued, Issues.begins_online]
    refine (always_ite ..).mpr ⟨fun _ => ?_, fun _ => by simp [Op.issued]⟩
    exact Always.seq ((always_lift ..).mpr hcreate) fun uid => Always.seq ((always_when ..).mpr
      ⟨fun _ => Always.seq ((always_lift ..).mpr (honline _)) fun _ => trivial, trivial⟩) fun _ => trivial
  refine Always.seq ?_ fun _ => trivial
  refine (always_ite ..).mpr ⟨fun _ => by simp [Op.issued], fun _ => Always.locked ?_ trivial trivial⟩
  refine Always.seq (by simp [Op.issued]) fun taken => ?_
  refine (always_ite ..).mpr ⟨fun _ => by simp [Op.issued], fun _ => ?_⟩
  refine Always.seq ((always_lift ..).mpr (hid ..)) fun uid => ?_
  simp [register_user, Op.issued]

theorem login_issued (payload : Bytes) :
    (login pg fd payload).Always (Op.issued me (.login payload)) fun _ => True := by
  refine Always.seq ((always_lift ..).mpr (Always.locked ?_ trivial trivial)) fun session => ?_
  · refine Always.seq (by simp [Op.issued]) fun user => ?_
    refine (always_ite ..).mpr ⟨fun _ => by simp [Op.issued], fun _ => ?_⟩
    refine Always.seq (by simp [Op.issued]) fun _ => Always.seq (by simp [Op.issued]) fun _ => ?_
    refine Always.seq ?_ fun _ => Always.seq (part_issued _ _ (by simp)) fun pending => by simp [Op.issued]
    simp [mark_online, update_user_online_status, log_activity_issued, Op.issued, Issues.marked_online]
  · cases session with
    | none => exact trivial
    | some l => exact Always.seq (part_issued _ _ (by simp)) fun _ => trivial

theorem friend_request_issued (target : Target) :
    (friend_request pg fd me target).Always (Op.issued me (.friend_request target)) fun _ => True := by
  refine Always.seq (part_issued _ _ (by simp)) fun found => ?_
  cases found with
  | error e => simp [andNext, Op.issued]
  | ok x =>
    have hstore : (store_request_db pg me x).Always (Op.issued me (.friend_request target)) fun _ => True := by
      simp [store_request_db, has_pending_request, send_friend_request, log_activity_issued, Op.issued,
        Issues.requested]
    refine Always.seq ((always_ite ..).mpr ⟨fun _ => by simp [Op.issued], fun _ => ?_⟩) fun _ => trivial
    refine Always.seq ((always_lift ..).mpr (Always.locked ?_ trivial trivial)) fun refused => ?_
    · refine Always.seq (by simp [Op.issued]) fun friends => Always.seq (by simp [Op.issued]) fun _ => ?_
      refine (always_ite ..).mpr ⟨fun _ => trivial, fun _ => Always.seq ((always_lift ..).mpr hstore) fun refused => ?_⟩
      simp [Op.issued]
    · simp [notify_target, Op.issued]

theorem friend_accept_issued (other : Int) :
    (friend_accept pg fd me other).Always (Op.issued me (.friend_accept other)) fun _ => True := by
  have hrest : ∀ ok, (accept_in_memory fd me other ok).Always (Op.issued me (.friend_accept other)) fun _ => True :=
    fun ok => issued_of_footprint _ (by simp)
  refine Always.seq (Always.locked ((always_ite ..).mpr ⟨fun _ => ?_, fun _ => ?_⟩) trivial trivial) fun _ => trivial
  · refine Always.seq ?_ fun ok => (always_lift ..).mpr (hrest ok)
    simp [accept_friend_request, add_friend, log_activity_issued, Op.issued, Issues.befriended, Issues.accepted]
  · exact Always.seq (always_pure true |>.mpr trivial) fun ok => (always_lift ..).mpr (hrest ok)

theorem create_group_issued (name : Option Bytes) (memberIds : List Int) :
    (create_group pg fd me name memberIds).Always (Op.issued me (.create_group name memberIds)) fun _ => True := by
  have hrest : ∀ groupName gid, (announce_group pg fd me groupName memberIds gid).Always
      (Op.issued me (.create_group name memberIds)) fun _ => True := by
    refine fun groupName gid => (always_ite ..).mpr ⟨fun _ => by simp [Op.issued], fun _ => ?_⟩
    refine Always.seq (part_issued _ _ (by simp)) fun _ => Always.seq (by simp [Op.issued]) fun _ => ?_
    exact Always.seq (announce_issued pg _ _) fun _ => trivial
  have hmembers : ∀ gid, (add_members me gid memberIds).Always (Op.issued me (.create_group name memberIds))
      fun _ => True := by
    intro gid
    refine Always.seq ((always_lift ..).mpr (set_group_admin_issued (.crowned_founder ..))) fun _ => ?_
    refine (always_forM ..).mpr ⟨fun uid huid => ?_, trivial⟩
    exact Always.seq (add_group_member_issued (.populated _ _ _ _ (.inr huid))) fun _ => trivial
  have hcreate : ∀ groupName, (PostgresPersistence.create_group groupName me).Always
      (Op.issued me (.create_group name memberIds)) fun _ => True := by
    intro groupName
    have hfounder : ∀ gid, (add_group_member gid me).Always (Op.issued me (.create_group name memberIds))
        fun _ => True := fun gid => add_group_member_issued (.populated _ _ _ _ (.inl rfl))
    simp [PostgresPersistence.create_group, log_activity_issued, hfounder, Op.issued, Issues.founded]
  refine Always.seq (part_issued _ _ (by simp)) fun groupName => (always_ite ..).mpr ⟨fun _ => ?_, fun _ => ?_⟩
  · refine Always.seq ((always_lift ..).mpr (Always.seq (hcreate _) fun gid => ?_)) fun gid => ?_
    · exact Always.seq ((always_when ..).mpr ⟨fun _ => (always_lift ..).mpr (hmembers _), trivial⟩) fun _ => trivial
    · exact Always.seq ((always_lift ..).mpr (hrest groupName _)) fun _ => trivial
  · refine Always.seq (part_issued _ _ (by simp)) fun gid => ?_
    exact Always.seq ((always_lift ..).mpr (hrest groupName _)) fun _ => trivial

theorem persist_member_issued {c : Command} {gid uid : Int}
    (h : Issues me c .group_members (insert_group_member gid uid)) :
    (persist_member pg gid uid).Always (Op.issued me c) fun _ => True := by
  unfold persist_member
  refine (always_ite ..).mpr ⟨fun _ => ?_, fun _ => ?_⟩
  · simp [add_group_member_issued h, Op.issued]
  · simp [Op.issued]

theorem group_message_issued (gid : Int) (message : Bytes) :
    (group_message pg fd me gid message).Always (Op.issued me (.group_message gid message)) fun _ => True := by
  refine Always.seq (part_issued _ _ (by simp)) fun members => ?_
  cases members with
  | none => simp [andNext, Op.issued]
  | some members =>
    refine Always.seq (by simp [Op.issued]) fun ts_ms => Always.seq ?_ fun _ => ?_
    · simp [save_group_message_issued, Issues.spoken]
    · exact Always.seq (part_issued _ _ (by simp)) fun _ => by simp [andNext, Op.issued]

end Cases

/-- **A command makes its own statements and no others.** -/
theorem perform_issued (pg : Bool) (fd me rid : Int) (c : Command) :
    (perform pg fd me rid c).Always (Op.issued me c) fun _ => True := by
  rw [perform.eq_def]
  cases c with
  | register payload => exact (always_lift ..).mpr (register_issued pg fd me payload)
  | login payload => exact (always_lift ..).mpr (login_issued pg fd me payload)
  | friend_request target => exact (always_lift ..).mpr (friend_request_issued pg fd me target)
  | friend_accept other => exact (always_lift ..).mpr (friend_accept_issued pg fd me other)
  | friend_decline other =>
    simp [friend_decline, decline_friend_request, log_activity_issued, andNext, Op.issued, Issues.declined]
  | direct_message recipientId message =>
    refine (always_lift ..).mpr (Always.seq (by simp [Op.issued]) fun ms => Always.seq ?_ fun _ => ?_)
    · simp [save_message, Op.issued, Issues.stored]
    · exact Always.seq (part_issued _ _ (by simp)) fun _ => by simp [andNext, Op.issued]
  | delete_conversation other =>
    simp [handle_client.delete_conversation, PostgresPersistence.delete_conversation, andNext, Op.issued,
      Issues.deleted]
  | create_group name memberIds => exact (always_lift ..).mpr (create_group_issued pg fd me name memberIds)
  | invite_to_group gid uid =>
    refine (always_lift ..).mpr (Always.seq (by simp [Op.issued]) fun ok => Always.seq ?_ fun _ => trivial)
    refine (always_ite ..).mpr ⟨fun _ => by simp [Op.issued], fun _ => ?_⟩
    refine Always.seq ((always_lift ..).mpr (persist_member_issued pg me (.invited gid uid))) fun added => ?_
    refine (always_ite ..).mpr ⟨fun _ => by simp [Op.issued], fun _ => ?_⟩
    refine Always.seq (part_issued _ _ (by simp)) fun _ => ?_
    exact Always.seq ((always_lift ..).mpr (announce_issued pg _ _)) fun _ => by simp [Op.issued]
  | accept_group_invite gid =>
    have hjoin : (join_group pg me gid).Always (Op.issued me (.accept_group_invite gid)) fun _ => True := by
      simp [join_group, add_group_member_issued (Issues.joined gid), delete_group_invite, Op.issued, Issues.taken]
    refine (always_lift ..).mpr (Always.seq ((always_lift ..).mpr hjoin) fun ok => Always.seq ?_ fun _ => trivial)
    refine (always_ite ..).mpr ⟨fun _ => by simp [Op.issued], fun _ => ?_⟩
    exact Always.seq (part_issued _ _ (by simp)) fun _ => by simp [Op.issued]
  | decline_group_invite gid =>
    simp [decline_group_invite, delete_group_invite, andNext, Op.issued, Issues.refused]
  | rename_group gid newName =>
    refine (always_lift ..).mpr (Always.seq (by simp [Op.issued]) fun ok => Always.seq ?_ fun _ => trivial)
    refine (always_ite ..).mpr ⟨fun _ => by simp [Op.issued], fun _ => Always.seq ?_ fun _ => ?_⟩
    · simp [PostgresPersistence.rename_group, log_activity_issued, Op.issued, Issues.renamed]
    refine Always.seq ((always_lift ..).mpr (announce_issued pg _ _)) fun members => ?_
    exact Always.seq (part_issued _ _ (by simp)) fun _ => by simp [Op.issued]
  | set_group_nickname gid uid nick =>
    refine (always_lift ..).mpr (Always.seq ?_ fun ok => Always.seq ?_ fun _ => trivial)
    · simp [PostgresPersistence.set_group_nickname, log_activity_issued, Op.issued, Issues.nicknamed]
    refine (always_ite ..).mpr ⟨fun _ => by simp [Op.issued], fun _ => ?_⟩
    refine Always.seq ((always_lift ..).mpr ?_) fun _ => by simp [Op.issued]
    refine Always.seq (by simp [Op.issued]) fun ts_ms => Always.seq (by simp [Op.issued]) fun names => ?_
    refine Always.seq ?_ fun _ => Always.seq (by simp [Op.issued]) fun members => part_issued _ _ (by simp)
    simp [save_group_message_issued, Issues.announced]
  | remove_from_group gid uid =>
    have hremoved : (persist_removal pg gid uid).Always (Op.issued me (.remove_from_group gid uid)) fun _ => True := by
      simp [persist_removal, remove_group_member_issued (Issues.removed gid uid), Op.issued]
    refine (always_lift ..).mpr (Always.seq (part_issued _ _ (by simp)) fun permitted => Always.seq ?_ fun _ => trivial)
    refine (always_ite ..).mpr ⟨fun _ => by simp [Op.issued], fun _ => ?_⟩
    refine Always.seq ((always_lift ..).mpr hremoved) fun removed => ?_
    refine (always_ite ..).mpr ⟨fun _ => by simp [Op.issued], fun _ => ?_⟩
    refine Always.seq ((always_lift ..).mpr (announce_issued pg _ _)) fun _ => ?_
    refine Always.seq (part_issued _ _ (by simp)) fun _ => Always.seq (part_issued _ _ (by simp)) fun _ => ?_
    exact Always.seq (part_issued _ _ (by simp)) fun _ => by simp [Op.issued]
  | make_admin gid uid =>
    have hadmin : (persist_admin pg gid uid).Always (Op.issued me (.make_admin gid uid)) fun _ => True := by
      simp [persist_admin, set_group_admin_issued (Issues.crowned gid uid), Op.issued]
    refine (always_lift ..).mpr (Always.seq (part_issued _ _ (by simp)) fun permitted => Always.seq ?_ fun _ => trivial)
    refine (always_ite ..).mpr ⟨fun _ => by simp [Op.issued], fun _ => ?_⟩
    refine Always.seq ((always_lift ..).mpr hadmin) fun updated => ?_
    refine (always_ite ..).mpr ⟨fun _ => by simp [Op.issued], fun _ => ?_⟩
    refine Always.seq ((always_lift ..).mpr (announce_issued pg _ _)) fun members => ?_
    exact Always.seq (part_issued _ _ (by simp)) fun _ => by simp [Op.issued]
  | leave_group gid =>
    have hrest : ∀ persisted deleted : Bool, (andNext (
        if !persisted then reply fd .ERROR (str "Leave failed (db)") (u32 me)
        else reply fd .SUCCESS (if deleted then str "Group deleted" else str "Left group") (u32 me)) :
          Prog leave_writes Outcome).Always (Op.issued me (.leave_group gid)) fun _ => True :=
      fun persisted deleted => by simp [andNext, Op.issued]
    refine (always_lift ..).mpr (Always.seq (by simp [Op.issued]) fun r =>
      (always_ite ..).mpr ⟨fun _ => ?_, fun _ => ?_⟩)
    · exact Always.seq ((always_lift ..).mpr (remove_group_member_issued (.left gid)))
        fun persisted => hrest persisted _
    · exact hrest true _
  | group_message gid message => exact (always_lift ..).mpr (group_message_issued pg fd me gid message)
  | _ => exact (always_lift ..).mpr (issued_of_footprint _ (by simp))

/-! ## Transactions -/

/-- What is to hold of the tables at any time, and between the tables and those that an open transaction goes back
to; rolling back keeps it. -/
structure Transactional (T : Tables → Prop) (R : Tables → Tables → Prop) : Prop where
  refl : ∀ {d}, T d → R d d
  trans : ∀ {d d' d''}, R d d' → R d' d'' → R d d''
  restore : ∀ {now before}, T before → R before now → T (Database.restore now before)

/-- It holds now, and so it did when an open transaction began. -/
structure Database.Holds (T : Tables → Prop) (R : Tables → Tables → Prop) (d : Database) : Prop where
  now : T d.tables
  snapshot : ∀ t, d.tx = some t → T t.snapshot ∧ R t.snapshot d.tables

/-- The statement keeps it. -/
def Statement.Keeps {t : Table} {β : Type} (T : Tables → Prop) (R : Tables → Tables → Prop) (q : Statement t β) :
    Prop :=
  ∀ d, T d → T (t.put (q d).2 d) ∧ R d (t.put (q d).2 d)

/-- The operation writes tables by such statements only. -/
@[simp] def Op.respects (T : Tables → Prop) (R : Tables → Tables → Prop) {β : Type} : Op β → Prop
  | .execute _ q => q.Keeps T R
  | _ => True

section Holds

variable {T : Tables → Prop} {R : Tables → Tables → Prop} {β : Type} {d : Database}

/-- A program that writes no table. -/
theorem respects_of_footprint {S : List Field} {α : Type} (p : Prog S α) (h : ∀ t, Field.table t ∉ S) :
    p.Always (Op.respects T R) fun _ => True := by
  refine always_of_footprint p fun {β} o ho => ?_
  cases o with
  | execute t q => exact absurd (ho _ (by simp [Op.writes])) (h t)
  | _ => trivial

/-- Nothing is asked of the snapshot when none is taken. -/
theorem holds_of_none (h : T d.tables) (htx : d.tx = none) : d.Holds T R :=
  ⟨h, fun t ht => absurd (htx.symm.trans ht) (by simp)⟩

theorem Database.Holds.abort (h : d.Holds T R) : d.abort.Holds T R := by
  refine ⟨h.now, fun t ht => ?_⟩
  obtain ⟨t', ht', rfl⟩ := Option.map_eq_some_iff.mp ht
  exact h.snapshot t' ht'

variable (rule : Transactional T R)

include rule

theorem Database.Holds.exec (h : d.Holds T R) (t : Table) {q : Statement t β} (hq : q.Keeps T R) (fails : Bool) :
    (Database.exec t q fails d).2.Holds T R := by
  obtain ⟨hT, hR⟩ := hq d.tables h.now
  have hwritten : Database.Holds T R { d with tables := t.put (q d.tables).2 d.tables } :=
    ⟨hT, fun t' ht' => ⟨(h.snapshot t' ht').1, rule.trans (h.snapshot t' ht').2 hR⟩⟩
  unfold Database.exec
  split
  · exact h
  split
  · exact h.abort
  dsimp only
  split
  · exact hwritten
  · exact hwritten.abort

omit rule in
theorem Database.Holds.select (h : d.Holds T R) (q : Tables → β) (fails : Bool) :
    (Database.select q fails d).2.Holds T R := by
  unfold Database.select
  split
  · exact h
  split
  · exact h.abort
  · exact h

theorem Database.Holds.begin (h : d.Holds T R) (fails : Bool) : (Database.begin fails d).2.Holds T R := by
  unfold Database.begin
  split
  · exact h
  split
  · exact h
  · refine ⟨h.now, fun t ht => ?_⟩
    rw [← Option.some.inj ht]
    exact ⟨h.now, rule.refl h.now⟩

theorem Database.Holds.rollback (h : d.Holds T R) (fails : Bool) : (Database.rollback fails d).2.Holds T R := by
  unfold Database.rollback
  split
  · next t ht => exact holds_of_none (rule.restore (h.snapshot t ht).1 (h.snapshot t ht).2) rfl
  · exact h

theorem Database.Holds.commit (h : d.Holds T R) (fails : Bool) : (Database.commit fails d).2.Holds T R := by
  unfold Database.commit
  split
  · exact h.rollback rule fails
  · exact holds_of_none h.now rfl

/-- **What every statement and rolling back keep, every operation keeps.** -/
theorem Op.respects.exec {o : Op β} (ho : o.respects T R) (env : Env) {w : World} (hw : w.db.Holds T R) :
    (o.exec env w).2.db.Holds T R := by
  cases o with
  | execute t q => exact hw.exec rule t ho _
  | select q => exact hw.select q _
  | begin => exact hw.begin rule _
  | rollback => exact hw.rollback rule _
  | commit => exact hw.commit rule _
  | _ => exact hw

end Holds

/-! ## Steps -/

section Steps

variable {pg : Bool} {env : Env} {w w' : World} {e : Event} {T : Tables → Prop} {R : Tables → Tables → Prop}

/-- A program that makes no statements leaves the tables alone. -/
theorem holds_of_footprint {S : List Field} {α : Type} (rule : Transactional T R) (p : Prog S α)
    (h : ∀ t, Field.table t ∉ S) (hw : w.db.Holds T R) : (p.run env w).2.db.Holds T R :=
  (respects_of_footprint p h).invariant (I := fun w => w.db.Holds T R) (fun _ _ ho hw => ho.exec rule env hw) hw

/-- **What the statements of the command keep holds after a step**, whatever fails. -/
theorem Server.holds_of_step (rule : Transactional T R) (hs : Server.step pg env w e = some w')
    (hw : w.db.Holds T R) (keeps : ∀ fd rid c, e.command pg w = some (fd, rid, c) →
      ∀ {β : Type} (t : Table) (q : Statement t β), Issues (w.session fd) c t q → q.Keeps T R) :
    w'.db.Holds T R := by
  have hend : ∀ {w : World} fd, w.db.Holds T R → (end_connection env fd w).db.Holds T R := fun fd hw =>
    holds_of_footprint rule _ (by simp) hw
  cases Server.move_of_step pg env hs with
  | accepted fd valid unused => exact hw
  | performed fd me rid r c opened command =>
    have hme : w.session fd = me := UMap.get_of_find? opened
    have hc : (perform pg fd me rid c).Always (Op.respects T R) fun _ => True := by
      refine (perform_issued pg fd me rid c).weaken fun {β} o ho => ?_
      cases o with
      | execute t q => exact keeps fd rid c command t q (hme ▸ ho)
      | _ => trivial
    have hdone := hc.invariant (I := fun w => w.db.Holds T R) (fun _ _ ho hw => Op.respects.exec rule ho env hw) hw
    unfold finish
    split
    · exact hend fd hdone
    · exact hdone
  | refused fd me r opened invalid => exact hend fd (holds_of_footprint rule _ (by simp) hw)
  | hungup fd me opened => exact hend fd hw

end Steps

/-! ## Runs -/

namespace Concurrent

/-- The statement is one that a frame of the run has asked for, in the session of its connection. -/
def Asks (pg : Bool) (tr : List (Taken Concurrent Concurrent.Event)) {β : Type} (t : Table) (q : Statement t β) :
    Prop :=
  ∃ x ∈ tr, ∃ fd r c, x.event = .request fd r ∧ decode pg r.header.type r.payload = .ok c ∧
    Issues (x.before.world.session fd) c t q

variable {pg : Bool} {env : Env} {C : Concurrent → Concurrent.Event → Prop} {w₀ : World} {s : Concurrent}
  {tr : List (Taken Concurrent Concurrent.Event)} {T : Tables → Prop} {R : Tables → Tables → Prop}

/-- **The rule of requests.** What every operation that the frames of a run lead to preserves holds in every state
of every interleaving. -/
theorem invariant_of_requests {Q : {β : Type} → Op β → Prop} {I : World → Prop} (run : Run pg env C (quiet w₀) tr s)
    (start : I w₀)
    (hperform : ∀ x ∈ tr, ∀ fd r c rid, x.event = .request fd r → decode pg r.header.type r.payload = .ok c →
      (perform pg fd (x.before.world.session fd) rid c).Always Q fun _ => True)
    (hinvalid : ∀ fd, (invalid_header fd).Always Q fun _ => True)
    (hcleanup : ∀ fd me, (cleanup fd me).Always Q fun _ => True)
    (hop : ∀ {β : Type} (o : Op β) (w : World), Q o → I w → I (o.exec env w).2)
    (haccept : ∀ (w : World) fd, I w → I { w with conns := w.conns.set fd 0 }) : I s.world := by
  refine (invariant_of_stages (K := fun h => h.prog.Always Q fun _ => True) (fun x fd r h hC hstarted => ?_)
    (fun fd me => ?_) haccept ?_ run.recorded start fun h hh => absurd hh List.not_mem_nil).1
  · -- a handler starts with a frame of the run
    obtain ⟨-, y, hy⟩ := hC
    rcases request_handler_eq pg hstarted with ⟨-, c, hc, rfl⟩ | ⟨-, rfl⟩
    · exact hperform _ hy fd r c _ rfl hc
    · exact (Program.always_hom _).mpr (hinvalid fd)
  · exact Always.seq ((always_lift ..).mpr (hcleanup fd me)) fun _ => trivial
  · intro x i h _ _ hh hx
    exact hh.advance (fun o w ho hw => hop o w ho hw) hx

/-- **The rule of statements.** What every statement that was asked for keeps holds of the tables in every
interleaving, whatever fails. -/
theorem holds_of_statements (rule : Transactional T R) (run : Run pg env C (quiet w₀) tr s)
    (start : w₀.db.Holds T R)
    (keeps : ∀ {β : Type} (t : Table) (q : Statement t β), Asks pg tr t q → q.Keeps T R) :
    s.world.db.Holds T R := by
  refine invariant_of_requests (I := fun w => w.db.Holds T R) run start (fun x hx fd r c rid he hc => ?_)
    (fun fd => respects_of_footprint _ (by simp)) (fun fd me => respects_of_footprint _ (by simp))
    (fun o w ho hw => ho.exec rule env hw) fun _ _ hw => hw
  refine (perform_issued pg fd _ rid c).weaken fun {β} o ho => ?_
  cases o with
  | execute t q => exact keeps t q ⟨x, hx, fd, r, c, he, hc, ho⟩
  | _ => trivial

end Concurrent

end ChatApp
