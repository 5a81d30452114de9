/-
`GroupOutsiders.lean` -- what a user can do to a group it has no part in.

Each group request has its own test of who may make it: some ask whether the sender is a member,
one whether the target is, some whether the sender is an admin, and two ask nothing. So
for each request there is a condition under which it leaves the groups of others alone: the
group is as it was, in memory and in the database, and nobody gets a `GROUP_MESSAGE` for it.
-/
import ChatApp.Outgoing
import ChatApp.TransactionResults

set_option autoImplicit false

namespace ChatApp

open Prog PostgresPersistence handle_client

/-! ## Leaving a group alone -/

/-- A `GROUP_MESSAGE` for the group: the first item of its payload names the group. -/
def isForGroup (gid : Int) (type : MessageType) (payload : Bytes) : Bool :=
  type = .GROUP_MESSAGE && payload.takeWhile (· ≠ 38) = str "groupId=" ++ to_string gid

/-- The messages for the group that are queued for a user. -/
def ServerState.queuedFor (s : ServerState) (gid uid : Int) : List PendingMsg :=
  (s.g_offline_messages.get uid).filter fun m => isForGroup gid m.type m.payload

/-- The group is as it was: its name, members, admins and nicknames, in memory and in the
database. -/
structure GroupUntouched (gid : Int) (w w' : World) : Prop where
  memory : w'.mem.g_groups.find? gid = w.mem.g_groups.find? gid
  members : w'.db.tables.group_members.filter (·.group_id = gid)
    = w.db.tables.group_members.filter (·.group_id = gid)
  name : w'.db.tables.groups.rows.filter (·.id = gid) = w.db.tables.groups.rows.filter (·.id = gid)

/-- No `GROUP_MESSAGE` for the group was handed to `send_message` or queued for anybody. -/
structure GroupSilent (gid : Int) (w w' : World) : Prop where
  sent : ∃ frames, w'.out = w.out ++ frames ∧ ∀ f ∈ frames, isForGroup gid f.type f.payload = false
  queued : ∀ uid, w'.mem.queuedFor gid uid = w.mem.queuedFor gid uid ∨ w'.mem.queuedFor gid uid = []

/-- `me` is logged in and has no part in the group: it is a member in neither copy, and no invite
of it is pending. -/
structure Outsider (pg : Bool) (w : World) (gid me : Int) : Prop where
  session : me ≠ 0
  memory : w.mem.hasMember gid me = false
  rows : pg = true → w.db.tables.isMember gid me = false
  invites : ∀ r ∈ w.db.tables.group_invites,
    ¬(r.group_id = gid ∧ r.to_user_id = me ∧ r.status = .PENDING)

/-- `me` is a member of the group in neither copy. -/
structure NoPart (pg : Bool) (w : World) (gid me : Int) : Prop where
  memory : w.mem.hasMember gid me = false
  rows : pg = true → w.db.tables.isMember gid me = false

theorem Outsider.noPart {pg : Bool} {w : World} {gid me : Int} (h : Outsider pg w gid me) : NoPart pg w gid me :=
  ⟨h.memory, h.rows⟩

/-- The condition under which a command of `me`, who has no part in the group, leaves it alone.
Where the source has a test that an outsider fails there is nothing to ask. -/
def sparesGroup (pg : Bool) (env : Env) (w : World) (me gid : Int) : Command → Bool
  -- nothing for the group waits for the user that logs in
  | .login payload => (loginUser w payload).all fun u => (w.mem.queuedFor gid u.id).isEmpty
  -- the new group is another one, or there is none
  | .create_group name _ => w.newGroupId pg ≠ gid ||
    -- the clock names a group that comes without a name
    pg && createFails env w.db.tables (w.ticks + if name.isNone then 1 else 0) me
  -- no invite is asked for: only an unknown group, or a failure, stops the sender
  | .accept_group_invite g => g ≠ gid ||
    if pg then !(w.db.tables.hasGroup gid && w.db.tables.hasUser me) || env.sql_fails w.ticks
    else !w.mem.g_groups.count gid
  -- only the target has to be a member
  | .set_group_nickname g uid _ => g ≠ gid || !w.mem.hasMember gid uid
  -- everybody may remove itself; without a database an admin need not be a member
  | .remove_from_group g uid => g ≠ gid ||
    if pg then uid ≠ me || env.sql_fails w.ticks
    else if uid = me then !w.mem.g_groups.count gid else !w.mem.hasAdmin gid me
  | .make_admin g _ => g ≠ gid || pg || !w.mem.hasAdmin gid me
  -- a group without members goes when anybody leaves it
  | .leave_group g => g ≠ gid || !w.mem.leavesLast gid me
  | _ => true

theorem GroupUntouched.refl (gid : Int) (w : World) : GroupUntouched gid w w := ⟨rfl, rfl, rfl⟩

theorem GroupUntouched.trans {gid : Int} {w w' w'' : World} (h : GroupUntouched gid w w')
    (h' : GroupUntouched gid w' w'') : GroupUntouched gid w w'' :=
  ⟨h'.memory.trans h.memory, h'.members.trans h.members, h'.name.trans h.name⟩

theorem GroupSilent.refl (gid : Int) (w : World) : GroupSilent gid w w :=
  ⟨⟨[], (List.append_nil _).symm, fun _ hf => absurd hf List.not_mem_nil⟩, fun _ => .inl rfl⟩

theorem GroupSilent.trans {gid : Int} {w w' w'' : World} (h : GroupSilent gid w w')
    (h' : GroupSilent gid w' w'') : GroupSilent gid w w'' := by
  obtain ⟨s, hs, hquiet⟩ := h.sent
  obtain ⟨t, ht, hquiet'⟩ := h'.sent
  refine ⟨⟨s ++ t, by rw [ht, hs, List.append_assoc], ?_⟩, ?_⟩
  · intro f hf
    exact (List.mem_append.mp hf).elim (hquiet f) (hquiet' f)
  · intro uid
    rcases h'.queued uid with hsame | hempty
    · rw [hsame]
      exact h.queued uid
    · exact .inr hempty

theorem groupUntouched_of_frame {gid : Int} {w w' : World} (h : ∀ x ∈ role_fields, x.Same w w') :
    GroupUntouched gid w w' := by
  have hgroups : w'.mem.g_groups = w.mem.g_groups := h (.var .g_groups) (by simp)
  have hmembers : w'.db.tables.group_members = w.db.tables.group_members :=
    h (.table .group_members) (by simp)
  have hrows : w'.db.tables.groups = w.db.tables.groups := h (.table .groups) (by simp)
  exact ⟨by rw [hgroups], by rw [hmembers], by rw [hrows]⟩

theorem groupSilent_of_frame {gid : Int} {w w' : World}
    (h : ∀ x ∈ [Field.var .g_offline_messages, .out], x.Same w w') : GroupSilent gid w w' := by
  have hqueue : w'.mem.g_offline_messages = w.mem.g_offline_messages :=
    h (.var .g_offline_messages) (by simp)
  have hout : w'.out = w.out := h .out (by simp)
  refine ⟨⟨[], by rw [hout, List.append_nil], fun _ hf => absurd hf List.not_mem_nil⟩, ?_⟩
  intro uid
  rw [ServerState.queuedFor, ServerState.queuedFor, hqueue]
  exact .inl rfl

/-! ## Operations that leave it alone -/

/-- The operation hands no message for the group to anybody. -/
def Op.quiet (gid : Int) {β : Type} : Op β → Prop
  | .send _ type payload _ => isForGroup gid type payload = false
  | .modify .g_offline_messages f => ∀ q uid,
    ((f q).get uid).filter (fun m => isForGroup gid m.type m.payload)
      = (q.get uid).filter fun m => isForGroup gid m.type m.payload
  | _ => True

/-- The operation changes nothing of the group. A transaction is not looked into. -/
def Op.spares (gid : Int) {β : Type} : Op β → Prop
  | .modify .g_groups f => ∀ m, (f m).find? gid = m.find? gid
  | .execute .group_members q => ∀ d,
    (q d).2.filter (·.group_id = gid) = d.group_members.filter (·.group_id = gid)
  | .execute .groups q => ∀ d, (q d).2.rows.filter (·.id = gid) = d.groups.rows.filter (·.id = gid)
  | .begin | .commit | .rollback => False
  | _ => True

theorem Op.quiet.silent {gid : Int} {β : Type} {o : Op β} (ho : o.quiet gid) (env : Env)
    (w : World) : GroupSilent gid w (o.exec env w).2 := by
  cases o with
  | send fd type payload userId =>
    refine ⟨⟨_, rfl, fun f hf => ?_⟩, fun _ => .inl rfl⟩
    rw [List.mem_singleton.mp hf]
    exact ho
  | modify x f =>
    have hsent : ∃ frames, w.out = w.out ++ frames ∧
        ∀ f ∈ frames, isForGroup gid f.type f.payload = false :=
      ⟨[], (List.append_nil _).symm, fun _ hf => absurd hf List.not_mem_nil⟩
    cases x with
    | g_offline_messages => exact ⟨hsent, fun uid => .inl (ho w.mem.g_offline_messages uid)⟩
    | _ => exact ⟨hsent, fun uid => .inl rfl⟩
  | _ => exact groupSilent_of_frame fun x hx => Op.exec_same env _ (by
      simp only [List.mem_cons, List.not_mem_nil, or_false] at hx
      rcases hx with rfl | rfl <;> simp [Op.writes, all_tables]) w

theorem Op.spares.untouched {gid : Int} {β : Type} {o : Op β} (ho : o.spares gid) (env : Env)
    (w : World) : GroupUntouched gid w (o.exec env w).2 := by
  have hframe : (∀ x ∈ role_fields, x ∉ o.writes) → GroupUntouched gid w (o.exec env w).2 :=
    fun h => groupUntouched_of_frame fun x hx => Op.exec_same env o (h x hx) w
  cases o with
  | modify x f =>
    cases x with
    | g_groups => exact ⟨ho w.mem.g_groups, rfl, rfl⟩
    | _ => exact hframe (by simp [Op.writes])
  | execute t q =>
    -- the table is what the statement makes of it, or as it was
    have hexec : (Database.exec t q (env.sql_fails w.ticks) w.db).2.tables = w.db.tables ∨
        (Database.exec t q (env.sql_fails w.ticks) w.db).2.tables
          = t.put (q w.db.tables).2 w.db.tables := by
      unfold Database.exec
      split
      · exact .inl rfl
      split
      · exact .inl rfl
      · dsimp only
        split <;> exact .inr rfl
    have hmembers : ∀ d : Tables, (Database.exec t q (env.sql_fails w.ticks) w.db).2.tables = d →
        (((execute t q : Op _).exec env w).2.db.tables.group_members.filter (·.group_id = gid))
          = d.group_members.filter (·.group_id = gid) := fun d h =>
      congrArg (fun d : Tables => d.group_members.filter (·.group_id = gid)) h
    have hrows : ∀ d : Tables, (Database.exec t q (env.sql_fails w.ticks) w.db).2.tables = d →
        (((execute t q : Op _).exec env w).2.db.tables.groups.rows.filter (·.id = gid))
          = d.groups.rows.filter (·.id = gid) := fun d h =>
      congrArg (fun d : Tables => d.groups.rows.filter (·.id = gid)) h
    cases t with
    | groups =>
      rcases hexec with h | h
      · exact ⟨rfl, hmembers _ h, hrows _ h⟩
      · exact ⟨rfl, (hmembers _ h).trans rfl, (hrows _ h).trans (ho w.db.tables)⟩
    | group_members =>
      rcases hexec with h | h
      · exact ⟨rfl, hmembers _ h, hrows _ h⟩
      · exact ⟨rfl, (hmembers _ h).trans (ho w.db.tables), (hrows _ h).trans rfl⟩
    | _ => exact hframe (by simp [Op.writes])
  | begin | commit | rollback => exact ho.elim
  | _ => exact hframe (by simp [Op.writes])

/-- A program of quiet operations is silent. -/
theorem Prog.Always.silent {S : List Field} {α : Type} {p : Prog S α} {R : α → Prop} {gid : Int}
    (hp : p.Always (Op.quiet gid) R) (env : Env) (w : World) :
    GroupSilent gid w (p.run env w).2 :=
  hp.rel (GroupSilent.refl gid) GroupSilent.trans fun _ w ho => Op.quiet.silent ho env w

/-- A program of sparing operations leaves the group untouched. -/
theorem Prog.Always.untouched {S : List Field} {α : Type} {p : Prog S α} {R : α → Prop} {gid : Int}
    (hp : p.Always (Op.spares gid) R) (env : Env) (w : World) :
    GroupUntouched gid w (p.run env w).2 :=
  hp.rel (GroupUntouched.refl gid) GroupUntouched.trans fun _ w ho => Op.spares.untouched ho env w

/-! ## Frames for other groups -/

section Quiet

variable {gid g : Int} {S : List Field}

/-- A frame that names a group first is for that group. -/
theorem isForGroup_serialize (items : List (Bytes × Bytes)) :
    isForGroup gid .GROUP_MESSAGE (serialize_kv ((str "groupId", to_string g) :: items))
      = decide (g = gid) := by
  have hkey : (38 : UInt8) ∉ str "groupId" := by decide
  have hvalue : (38 : UInt8) ∉ to_string g := fun h =>
    (mem_to_string h).elim (absurd · (by decide)) fun h => absurd h.1 (by decide)
  rw [isForGroup, serialize_kv_head _ _ _ hkey hvalue, decide_eq_true rfl, Bool.true_and,
    decide_eq_decide]
  constructor
  · intro h
    have hid : to_string g = to_string gid := by simpa [str] using h
    exact to_string_injective hid
  · rintro rfl
    rfl

/-- An operation that hands out nothing for the group is quiet. -/
theorem Op.hands.quiet {β : Type} {o : Op β}
    (ho : o.hands fun m => isForGroup gid m.type m.payload = false) : o.quiet gid := by
  cases o with
  | send => exact ho
  | modify x f =>
    cases x with
    | g_offline_messages =>
      intro q uid
      obtain ⟨new, hnew, hquiet⟩ := ho q uid
      have hnone : new.filter (fun m => isForGroup gid m.type m.payload) = [] :=
        List.filter_eq_nil_iff.mpr fun m hm => by simp [hquiet m hm]
      rw [hnew, List.filter_append, hnone, List.append_nil]
    | _ => trivial
  | _ => trivial

/-- A program that neither sends nor queues is quiet. -/
theorem quiet_of_footprint {α : Type} (p : Prog S α) (hout : .out ∉ S)
    (hqueue : .var .g_offline_messages ∉ S) : p.Always (Op.quiet gid) fun _ => True :=
  (hands_of_footprint p hout hqueue).weaken fun _ ho => ho.quiet

theorem Announces.quiet {m : PendingMsg} (hm : Announces g m) (hg : g ≠ gid) :
    isForGroup gid m.type m.payload = false := by
  obtain ⟨text, ts_ms, rfl⟩ := hm
  rw [system_message, isForGroup_serialize, decide_eq_false hg]

theorem announce_quiet (pg : Bool) (sys : Prog [] Bytes) (hg : g ≠ gid) :
    (announce pg g sys).Always (Op.quiet gid) fun _ => True :=
  (announce_hands pg g sys fun _ hm => hm.quiet hg).weaken fun _ ho => ho.quiet

end Quiet

/-- The group a command is about. -/
def Command.group : Command → Option Int
  | .invite_to_group g _ | .accept_group_invite g | .rename_group g _ | .set_group_nickname g _ _
  | .remove_from_group g _ | .make_admin g _ | .leave_group g | .group_message g _ => some g
  | _ => none

/-- What two commands hand out depends on the state. -/
def Command.plain : Command → Bool
  | .login _ | .create_group .. => false
  | _ => true

/-- **A command about another group is quiet.** -/
theorem perform_quiet (pg : Bool) (fd me rid gid : Int) {c : Command} (hc : c.plain = true)
    (hgroup : c.group ≠ some gid) :
    (perform pg fd me rid c).Always (Op.quiet gid) fun _ => True := by
  refine (perform_hands pg fd me rid (fun payload h => ?_) (fun m _ htype => ?_) fun m hm => ?_).weaken
    fun _ ho => Op.hands.quiet ho
  · rw [h] at hc
    cases hc
  · rw [isForGroup, decide_eq_false htype, Bool.false_and]
  -- what is said is not said in the group
  · cases c with
    | create_group => cases hc
    | direct_message =>
      obtain ⟨timestamp, rfl⟩ := hm
      rfl
    | group_message g message =>
      obtain ⟨ts_ms, rfl⟩ := hm
      rw [group_message_frame, isForGroup_serialize, decide_eq_false fun h => hgroup (congrArg some h)]
    | invite_to_group g | rename_group g | set_group_nickname g | make_admin g =>
      exact Announces.quiet hm fun h => hgroup (congrArg some h)
    | remove_from_group g =>
      rcases hm with rfl | hm
      · rw [removed_notice, isForGroup_serialize, decide_eq_false fun h => hgroup (congrArg some h)]
      · exact hm.quiet fun h => hgroup (congrArg some h)
    | _ => exact hm.elim

/-! ## Changes to other groups -/

section Spares

variable {gid g : Int} {S : List Field}

/-- A program that writes none of the fields a group is kept in spares every group. -/
theorem spares_of_footprint {α : Type} (p : Prog S α) (hS : ∀ x ∈ role_fields, x ∉ S)
    (htx : .tx ∉ S) : p.Always (Op.spares gid) fun _ => True := by
  have hgroups : Field.table .groups ∉ S := hS _ (by simp)
  have hmembers : Field.table .group_members ∉ S := hS _ (by simp)
  have hmemory : Field.var .g_groups ∉ S := hS _ (by simp)
  refine always_of_footprint p fun o ho => ?_
  cases o with
  | modify x f =>
    cases x with
    | g_groups => exact absurd (ho _ (by simp [Op.writes])) hmemory
    | _ => trivial
  | execute t q =>
    cases t with
    | groups => exact absurd (ho _ (by simp [Op.writes])) hgroups
    | group_members => exact absurd (ho _ (by simp [Op.writes])) hmembers
    | _ => trivial
  | begin => exact absurd (ho .tx (by simp [Op.writes])) htx
  | commit | rollback => exact absurd (ho _ (by simp [Op.writes, all_tables])) hgroups
  | _ => trivial

theorem spares_adjust (hg : g ≠ gid) (F : Group → Group) :
    (Op.modify .g_groups fun m => m.adjust g F).spares gid := by
  intro m
  rw [UMap.find?_adjust, if_neg hg.symm]

theorem spares_touch (hg : g ≠ gid) : (Op.modify .g_groups fun m => m.touch g).spares gid := by
  intro m
  rw [UMap.find?_touch, if_neg hg.symm]

theorem spares_set (hg : g ≠ gid) (grp : Group) :
    (Op.modify .g_groups fun m => m.set g grp).spares gid := by
  intro m
  rw [UMap.find?_set, if_neg hg.symm]

theorem spares_put_member (hg : g ≠ gid) (uid : Int) :
    (Op.modify .g_groups (put_member g uid)).spares gid := by
  intro m
  rw [put_member, UMap.update, UMap.find?_set, if_neg hg.symm]

theorem spares_leave (hg : g ≠ gid) (uid : Int) :
    (Op.modify .g_groups (leave g uid)).spares gid := by
  intro m
  unfold leave
  split
  · split
    · rw [UMap.find?_erase, if_neg hg.symm]
    · rw [UMap.find?_set, if_neg hg.symm]
  · rfl

theorem spares_insert (hg : g ≠ gid) (uid : Int) :
    (Op.execute .group_members (insert_group_member g uid)).spares gid := by
  intro d
  unfold insert_group_member
  split
  · rfl
  split
  · rw [List.filter_append, List.filter_singleton, decide_eq_false hg]
    exact List.append_nil _
  · rfl

theorem spares_delete (hg : g ≠ gid) (uid : Int) :
    (Op.execute .group_members (delete_group_member g uid)).spares gid := by
  intro d
  rw [delete_group_member, List.filter_filter]
  refine List.filter_congr fun r _ => ?_
  by_cases hr : r.group_id = gid
  · simp [hr, hg.symm]
  · simp [hr]

/-- An `UPDATE` that keeps the ids of a row. -/
theorem spares_update (hg : g ≠ gid) (uid : Int) {f : GroupMemberRow → GroupMemberRow}
    (hf : ∀ r, (f r).group_id = r.group_id) :
    (Op.execute .group_members (update_group_member g uid f)).spares gid := by
  intro d
  rw [update_group_member, List.filter_map]
  have hsame : ∀ r : GroupMemberRow,
      (if r.group_id = g && r.user_id = uid then f r else r).group_id = r.group_id := by
    intro r
    split
    · exact hf r
    · rfl
  refine Eq.trans (List.map_congr_left fun r hr => ?_) ((List.map_id _).trans ?_)
  · -- a row of the group in question is not of the group that is updated
    have hgid : r.group_id = gid := by
      have := (List.mem_filter.mp hr).2
      rwa [Function.comp_apply, hsame, decide_eq_true_eq] at this
    rw [if_neg (by simp [hgid, hg.symm]), id]
  · refine List.filter_congr fun r _ => ?_
    rw [Function.comp_apply, hsame]

theorem spares_alter : (Op.execute .group_members alter_group_members).spares gid := fun _ => rfl

theorem spares_rename (hg : g ≠ gid) (name : Bytes) :
    (Op.execute .groups (update_group_name g name)).spares gid := by
  intro d
  rw [update_group_name, List.filter_map]
  have hsame : ∀ r : GroupRow, (if r.id = g then { r with name := name } else r).id = r.id := by
    intro r
    split <;> rfl
  refine Eq.trans (List.map_congr_left fun r hr => ?_) ((List.map_id _).trans ?_)
  · have hgid : r.id = gid := by
      have := (List.mem_filter.mp hr).2
      rwa [Function.comp_apply, hsame, decide_eq_true_eq] at this
    rw [if_neg (by rw [hgid]; exact hg.symm), id]
  · refine List.filter_congr fun r _ => ?_
    rw [Function.comp_apply, hsame]

/-- An announcement looks the group up, and so may create its entry. -/
theorem announce_spares (pg : Bool) (sys : Prog [] Bytes) (hg : g ≠ gid) :
    (announce pg g sys).Always (Op.spares gid) fun _ => True := by
  refine Always.seq (by simp [Op.spares]) fun ts_ms => ?_
  refine Always.seq ((always_lift ..).mpr (spares_of_footprint sys (by simp) (by simp))) fun text => ?_
  refine Always.seq ?_ fun _ => Always.seq ?_ fun members => Always.seq ?_ fun _ => trivial
  · exact (always_when ..).mpr ⟨fun _ => by simp [save_group_message, Op.spares], trivial⟩
  · refine (always_lift ..).mpr ((always_ite ..).mpr ⟨fun _ => ?_, fun _ => ?_⟩)
    · simp [get_group_members, Op.spares]
    · refine Always.locked ?_ trivial trivial
      exact Always.seq ((always_modify ..).mpr ⟨spares_touch hg, trivial⟩) fun _ => by simp [Op.spares]
  · exact (always_lift ..).mpr (spares_of_footprint _ (by simp) (by simp))

theorem add_group_member_spares (hg : g ≠ gid) (uid : Int) :
    (add_group_member g uid).Always (Op.spares gid) fun _ => True := by
  refine Always.seq ((always_execute ..).mpr ⟨spares_insert hg uid, fun _ => trivial⟩) fun res => ?_
  simp [log_activity, Op.spares]

theorem remove_group_member_spares (hg : g ≠ gid) (uid : Int) :
    (remove_group_member g uid).Always (Op.spares gid) fun _ => True := by
  refine Always.seq ((always_execute ..).mpr ⟨spares_delete hg uid, fun _ => trivial⟩) fun res => ?_
  simp [log_activity, Op.spares]

theorem set_group_admin_spares (hg : g ≠ gid) (uid : Int) (is_admin : Bool) :
    (set_group_admin g uid is_admin).Always (Op.spares gid) fun _ => True := by
  refine Always.seq ((always_execute ..).mpr ⟨spares_alter, fun _ => trivial⟩) fun res => ?_
  refine (always_ite ..).mpr ⟨fun _ => trivial, fun _ => ?_⟩
  exact Always.seq ((always_execute ..).mpr ⟨spares_update hg uid fun _ => rfl, fun _ => trivial⟩)
    fun _ => trivial

/-- The change to memory that follows a change to the database. -/
theorem persist_spares {p : Prog S Bool} {F : Group → Group} {h : .var .g_groups ∈ S} (hg : g ≠ gid)
    (hp : p.Always (Op.spares gid) fun _ => True) :
    (p >>= fun ok => Prog.when ok (locked (modify .g_groups (fun m => m.adjust g F) h)) >>=
      fun _ => pure ok).Always (Op.spares gid) fun _ => True := by
  refine Always.seq hp fun ok => Always.seq ?_ fun _ => trivial
  exact (always_when ..).mpr ⟨fun _ => Always.locked
    ((always_modify ..).mpr ⟨spares_adjust hg F, trivial⟩) trivial trivial, trivial⟩

theorem persist_member_spares (pg : Bool) (hg : g ≠ gid) (uid : Int) :
    (persist_member pg g uid).Always (Op.spares gid) fun _ => True := by
  cases pg with
  | true => exact persist_spares hg ((always_lift ..).mpr (add_group_member_spares hg uid))
  | false =>
    exact Always.seq (Always.locked ((always_modify ..).mpr ⟨spares_put_member hg uid, trivial⟩)
      trivial trivial) fun _ => trivial

theorem persist_removal_spares (pg : Bool) (hg : g ≠ gid) (uid : Int) :
    (persist_removal pg g uid).Always (Op.spares gid) fun _ => True := by
  cases pg with
  | true => exact persist_spares hg ((always_lift ..).mpr (remove_group_member_spares hg uid))
  | false => exact persist_spares (p := pure true) hg trivial

theorem persist_admin_spares (pg : Bool) (hg : g ≠ gid) (uid : Int) :
    (persist_admin pg g uid).Always (Op.spares gid) fun _ => True := by
  cases pg with
  | true => exact persist_spares hg ((always_lift ..).mpr (set_group_admin_spares hg uid true))
  | false => exact persist_spares (p := pure true) hg trivial

/-- **A command about another group spares this one.** -/
theorem perform_spares (pg : Bool) (fd me rid : Int) {c : Command} (hgroup : c.group = some g)
    (hg : g ≠ gid) : (perform pg fd me rid c).Always (Op.spares gid) fun _ => True := by
  -- a part that writes nothing of any group
  have hpart : ∀ {α : Type} {S T : List Field} (p : Prog S α) (h : S ⊆ T),
      (∀ x ∈ role_fields, x ∉ S) → .tx ∉ S → (p.lift h).Always (Op.spares gid) fun _ => True :=
    fun p h hS htx => (always_lift p h).mpr (spares_of_footprint p hS htx)
  cases c with
  | invite_to_group g' uid =>
    obtain rfl : g' = g := Option.some.inj hgroup
    rw [perform, always_lift]
    refine Always.seq (by simp [Op.spares]) fun ok => Always.seq ?_ fun _ => trivial
    refine (always_ite ..).mpr ⟨fun _ => by simp [Op.spares], fun _ => ?_⟩
    refine Always.seq ((always_lift ..).mpr (persist_member_spares pg hg uid)) fun added => ?_
    refine (always_ite ..).mpr ⟨fun _ => by simp [Op.spares], fun _ => ?_⟩
    refine Always.seq ((always_lift ..).mpr ?_) fun _ => ?_
    · refine Always.seq (by simp [find_fd, Op.spares]) fun invited => (always_when ..).mpr
        ⟨fun _ => ?_, trivial⟩
      exact Always.seq ((always_modify ..).mpr ⟨spares_touch hg, trivial⟩) fun _ => by simp [Op.spares]
    · refine Always.seq ((always_lift ..).mpr (announce_spares pg _ hg)) fun _ => ?_
      simp [Op.spares]
  | accept_group_invite g' =>
    obtain rfl : g' = g := Option.some.inj hgroup
    rw [perform, always_lift]
    refine Always.seq ((always_lift ..).mpr ?_) fun ok => Always.seq ?_ fun _ => trivial
    · refine (always_ite ..).mpr ⟨fun _ => ?_, fun _ => Always.locked ?_ trivial trivial⟩
      · refine Always.seq ((always_lift ..).mpr (add_group_member_spares hg me)) fun added => ?_
        refine Always.seq ((always_when ..).mpr ⟨fun _ => ?_, trivial⟩) fun _ => trivial
        refine Always.seq (Always.locked ((always_modify ..).mpr ⟨spares_adjust hg _, trivial⟩)
          trivial trivial) fun _ => ?_
        simp [delete_group_invite, Op.spares]
      · refine Always.seq (by simp [Op.spares]) fun known => ?_
        exact Always.seq ((always_modify ..).mpr ⟨spares_adjust hg _, trivial⟩) fun _ => trivial
    · simp [notify_joined, Op.spares]
  | rename_group g' newName =>
    obtain rfl : g' = g := Option.some.inj hgroup
    rw [perform, always_lift]
    refine Always.seq (Always.locked ?_ trivial trivial) fun ok => Always.seq ?_ fun _ => trivial
    · refine Always.seq (by simp [Op.spares]) fun member => Always.seq ?_ fun _ => trivial
      exact (always_when ..).mpr
        ⟨fun _ => (always_modify ..).mpr ⟨spares_adjust hg _, trivial⟩, trivial⟩
    refine (always_ite ..).mpr ⟨fun _ => by simp [Op.spares], fun _ => ?_⟩
    refine Always.seq ((always_when ..).mpr ⟨fun _ => Always.seq ?_ fun _ => trivial, trivial⟩)
      fun _ => ?_
    · refine (always_lift ..).mpr (Always.seq ((always_execute ..).mpr
        ⟨spares_rename hg _, fun _ => trivial⟩) fun res => ?_)
      simp [log_activity, Op.spares]
    refine Always.seq ((always_lift ..).mpr (announce_spares pg _ hg)) fun members => ?_
    refine Always.seq (hpart _ _ (by simp) (by simp)) fun _ => ?_
    simp [Op.spares]
  | set_group_nickname g' uid nick =>
    obtain rfl : g' = g := Option.some.inj hgroup
    rw [perform, always_lift]
    refine Always.seq (Always.locked ?_ trivial trivial) fun ok => Always.seq ?_ fun _ => trivial
    · refine Always.seq (by simp [Op.spares]) fun member => Always.seq ?_ fun _ => ?_
      · exact (always_when ..).mpr
          ⟨fun _ => (always_modify ..).mpr ⟨spares_adjust hg _, trivial⟩, trivial⟩
      refine Always.seq ((always_when ..).mpr ⟨fun _ => Always.seq ?_ fun _ => trivial, trivial⟩)
        fun _ => trivial
      refine (always_lift ..).mpr (Always.seq ((always_execute ..).mpr
        ⟨spares_update hg uid fun _ => rfl, fun _ => trivial⟩) fun res => ?_)
      simp [log_activity, Op.spares]
    refine (always_ite ..).mpr ⟨fun _ => by simp [Op.spares], fun _ => ?_⟩
    refine Always.seq ((always_lift ..).mpr ?_) fun _ => by simp [Op.spares]
    -- the members are looked up without creating an entry
    refine Always.seq (by simp [Op.spares]) fun ts_ms => Always.seq (by simp [Op.spares]) fun names => ?_
    refine Always.seq (by simp [save_group_message, Op.spares]) fun _ => ?_
    refine Always.seq (by simp [Op.spares]) fun members => ?_
    exact hpart _ _ (by simp) (by simp)
  | remove_from_group g' uid =>
    obtain rfl : g' = g := Option.some.inj hgroup
    rw [perform, always_lift]
    refine Always.seq (hpart _ _ (by simp) (by simp)) fun permitted => Always.seq ?_ fun _ => trivial
    refine (always_ite ..).mpr ⟨fun _ => by simp [Op.spares], fun _ => ?_⟩
    refine Always.seq ((always_lift ..).mpr (persist_removal_spares pg hg uid)) fun removed => ?_
    refine (always_ite ..).mpr ⟨fun _ => by simp [Op.spares], fun _ => ?_⟩
    refine Always.seq ((always_lift ..).mpr (announce_spares pg _ hg)) fun _ => ?_
    refine Always.seq (hpart _ _ (by simp) (by simp)) fun _ => ?_
    refine Always.seq (hpart _ _ (by simp) (by simp)) fun members => ?_
    refine Always.seq (hpart _ _ (by simp) (by simp)) fun _ => ?_
    simp [Op.spares]
  | make_admin g' uid =>
    obtain rfl : g' = g := Option.some.inj hgroup
    rw [perform, always_lift]
    refine Always.seq (hpart _ _ (by simp) (by simp)) fun permitted => Always.seq ?_ fun _ => trivial
    refine (always_ite ..).mpr ⟨fun _ => by simp [Op.spares], fun _ => ?_⟩
    refine Always.seq ((always_lift ..).mpr (persist_admin_spares pg hg uid)) fun updated => ?_
    refine (always_ite ..).mpr ⟨fun _ => by simp [Op.spares], fun _ => ?_⟩
    refine Always.seq ((always_lift ..).mpr (announce_spares pg _ hg)) fun members => ?_
    refine Always.seq (hpart _ _ (by simp) (by simp)) fun _ => ?_
    simp [Op.spares]
  | leave_group g' =>
    obtain rfl : g' = g := Option.some.inj hgroup
    rw [perform, always_lift]
    refine Always.seq (Always.locked ?_ trivial trivial) fun r => ?_
    · refine Always.seq (by simp [Op.spares]) fun ok => ?_
      exact Always.seq ((always_modify ..).mpr ⟨spares_leave hg me, trivial⟩) fun _ => by
        simp [Op.spares]
    have hrest : ∀ (persisted : Bool) (text : Bytes), (andNext (
        if !persisted then reply fd .ERROR (str "Leave failed (db)") (u32 me)
        else reply fd .SUCCESS text (u32 me)) : Prog leave_writes Outcome).Always (Op.spares gid)
          fun _ => True := fun persisted text => by simp [andNext, Op.spares]
    refine (always_ite ..).mpr ⟨fun _ => ?_, fun _ => ?_⟩
    · exact Always.seq ((always_lift ..).mpr (remove_group_member_spares hg me)) fun persisted =>
        hrest persisted _
    · exact hrest true _
  | group_message => rw [perform]; exact hpart _ _ (by simp) (by simp)
  | _ => cases hgroup

end Spares

end ChatApp
