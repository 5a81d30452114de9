/-
`Memberships.lean` -- what each step does to the members and admins of groups.

With a database a group is kept twice: in `g_groups`, and in the rows of
`group_members`. A `Role` is what one copy says of one user in one group, and
`GroupChange` says exactly how each handler changes the role in either copy. Most
apply the same change to both; where a handler does not, the two changes stand side
by side.
-/
import ChatApp.Friendships

set_option autoImplicit false

namespace ChatApp

open Prog PostgresPersistence handle_client

/-! ## Roles -/

/-- What one copy says of a user in a group. -/
structure Role where
  member : Bool
  admin : Bool
  deriving DecidableEq

/-- The user is now a member. -/
def Role.enrol (c : Role) : Role := { c with member := true }

/-- The user is neither member nor admin. -/
def Role.clear (_ : Role) : Role := ⟨false, false⟩

/-- The user is no member; the admin entry stays. -/
def Role.depart (c : Role) : Role := { c with member := false }

/-- The user is an admin, member or not. -/
def Role.crown (c : Role) : Role := { c with admin := true }

/-- The user is an admin if it is a member. -/
def Role.crownMember (c : Role) : Role := { c with admin := c.member || c.admin }

/-- What a change does to the rows: without a database there are none. -/
def Role.stored (pg : Bool) (f : Role → Role) : Role → Role := if pg then f else id

/-- A change of the role of `uid` in `gid`, seen from the role of `u` in `g`. -/
def Role.at (gid uid : Int) (f : Role → Role) (g u : Int) (c : Role) : Role :=
  if g = gid ∧ u = uid then f c else c

/-- The role of `uid` in a group in memory. -/
def Group.role (grp : Group) (uid : Int) : Role := ⟨grp.members.count uid, grp.admins.get uid⟩

/-- The role of `uid` in the group `gid`, if memory has the group. -/
def ServerState.role? (s : ServerState) (gid uid : Int) : Option Role :=
  (s.g_groups.find? gid).map fun grp => grp.role uid

/-- A row of the user in the group has `is_admin` set to `TRUE`. -/
def Tables.adminRow (d : Tables) (gid uid : Int) : Bool :=
  d.group_members.any fun r => r.group_id = gid && r.user_id = uid && r.is_admin = some true

/-- The role the rows give. -/
def Tables.role (d : Tables) (gid uid : Int) : Role := ⟨d.isMember gid uid, d.adminRow gid uid⟩

@[simp] theorem Role.at_self (gid uid : Int) (f : Role → Role) (c : Role) :
    Role.at gid uid f gid uid c = f c := if_pos ⟨rfl, rfl⟩

@[simp] theorem Role.at_id (gid uid g u : Int) (c : Role) : Role.at gid uid id g u c = c :=
  ite_self c

/-! ## Roles in memory -/

section Memory

variable {s s' : ServerState} (gid uid g u : Int)

/-- A change to one group that changes the role of one user. -/
theorem role?_adjust {F : Group → Group} {f : Role → Role}
    (hF : ∀ grp u, (F grp).role u = if u = uid then f (grp.role u) else grp.role u)
    (h : s'.g_groups = s.g_groups.adjust gid F) :
    s'.role? g u = (s.role? g u).map (Role.at gid uid f g u) := by
  rw [ServerState.role?, h, UMap.find?_adjust, ServerState.role?, Option.map_map]
  by_cases hg : g = gid
  · rw [if_pos hg, Option.map_map, hg]
    refine congrArg (Option.map · _) (funext fun grp => ?_)
    show (F grp).role u = Role.at gid uid f gid u (grp.role u)
    rw [hF, Role.at]
    simp only [true_and]
  · rw [if_neg hg]
    refine congrArg (Option.map · _) (funext fun grp => ?_)
    show grp.role u = Role.at gid uid f g u (grp.role u)
    rw [Role.at, if_neg fun hgu => hg hgu.1]

/-- A change to one group that changes no role. -/
theorem role?_adjust_same {F : Group → Group} (hF : ∀ grp u, (F grp).role u = grp.role u)
    (h : s'.g_groups = s.g_groups.adjust gid F) : s'.role? g u = s.role? g u := by
  rw [role?_adjust gid u g u (fun grp v => ?_) h (f := id)]
  · rw [show Role.at gid u id g u = id from funext fun c => Role.at_id .., Option.map_id, id]
  · rw [hF, id, ite_self]

theorem role_add_member (grp : Group) : Group.role { grp with members := grp.members.set uid true } u
    = if u = uid then (grp.role u).enrol else grp.role u := by
  unfold Group.role Role.enrol UMap.count
  rw [UMap.find?_set]
  split <;> rfl

theorem role_remove_member (grp : Group) : Group.role
    { grp with members := grp.members.erase uid, admins := grp.admins.erase uid } u
    = if u = uid then (grp.role u).clear else grp.role u := by
  unfold Group.role Role.clear UMap.count
  rw [UMap.find?_erase, UMap.get_erase]
  split <;> rfl

theorem role_set_admin (grp : Group) : Group.role { grp with admins := grp.admins.set uid true } u
    = if u = uid then (grp.role u).crown else grp.role u := by
  unfold Group.role Role.crown
  rw [UMap.get_set]
  split <;> rfl

theorem role_erase_member (grp : Group) : Group.role
    { grp with members := grp.members.erase uid } u
    = if u = uid then (grp.role u).depart else grp.role u := by
  unfold Group.role Role.depart UMap.count
  rw [UMap.find?_erase]
  split <;> rfl

theorem mark_all_count (ids : List Int) (members : UMap Int Bool) :
    (mark_all ids members).count u = true ↔ u ∈ ids ∨ members.count u = true := by
  unfold mark_all
  induction ids generalizing members with
  | nil => simp
  | cons x ids ih =>
    rw [List.foldl_cons, ih, List.mem_cons, UMap.count, UMap.find?_set, UMap.count]
    split
    · next hu => simp [hu]
    · next hu => simp [hu]

/-- In a new group the creator is a member and an admin, and those listed are members. -/
theorem role_new_group (name : Bytes) (me : Int) (ids : List Int) :
    (new_group gid name me ids).role u = ⟨decide (u = me ∨ u ∈ ids), decide (u = me)⟩ := by
  have hmember : (mark_all ids ((∅ : UMap Int Bool).set me true)).count u
      = decide (u = me ∨ u ∈ ids) := by
    rw [Bool.eq_iff_iff, mark_all_count, decide_eq_true_eq, or_comm, UMap.count, UMap.find?_set]
    by_cases hu : u = me <;> simp [hu]
  have hadmin : ((∅ : UMap Int Bool).set me true).get u = decide (u = me) := by
    rw [UMap.get_set]
    by_cases hu : u = me <;> simp [hu]
  rw [Group.role, Role.mk.injEq]
  exact ⟨hmember, hadmin⟩

/-- The group loses its last member when `uid` leaves. -/
def ServerState.leavesLast (s : ServerState) (gid uid : Int) : Bool :=
  (s.g_groups.find? gid).any fun grp => (grp.members.erase uid).empty

theorem role?_leave (h : s'.g_groups = leave gid uid s.g_groups) :
    s'.role? g u = if s.leavesLast gid uid = true ∧ g = gid then none
      else (s.role? g u).map (Role.at gid uid Role.depart g u) := by
  unfold leave at h
  unfold ServerState.leavesLast
  cases hfind : s.g_groups.find? gid with
  | none =>
    -- the group is not there: nothing happens
    rw [hfind] at h
    rw [if_neg (by simp), ServerState.role?, h, ServerState.role?, Option.map_map]
    by_cases hg : g = gid
    · rw [hg, hfind]
      rfl
    · refine congrArg (Option.map · _) (funext fun grp => ?_)
      exact (if_neg fun hgu => hg hgu.1).symm
  | some grp =>
    rw [hfind] at h
    dsimp only at h
    rw [Option.any_some]
    split at h
    · next hlast =>
      by_cases hg : g = gid
      · rw [if_pos ⟨hlast, hg⟩, ServerState.role?, h, UMap.find?_erase, if_pos hg]
        rfl
      · rw [if_neg fun hgu => hg hgu.2, ServerState.role?, h, UMap.find?_erase, if_neg hg,
          ServerState.role?, Option.map_map]
        refine congrArg (Option.map · _) (funext fun grp => ?_)
        exact (if_neg fun hgu => hg hgu.1).symm
    · next hlast =>
      rw [if_neg fun hgu => hlast hgu.1]
      refine role?_adjust gid uid g u (fun grp u => role_erase_member uid u grp) ?_
      rw [h, UMap.adjust, hfind]

end Memory

/-! ## Roles in the database -/

section Rows

variable {d d' : Tables} (gid uid g u : Int)

theorem isMember_iff : d.isMember gid uid = true ↔
    ∃ r ∈ d.group_members, r.group_id = gid ∧ r.user_id = uid := by
  simp [Tables.isMember]

theorem adminRow_iff : d.adminRow gid uid = true ↔
    ∃ r ∈ d.group_members, r.group_id = gid ∧ r.user_id = uid ∧ r.is_admin = some true := by
  simp [Tables.adminRow, and_assoc]

theorem role_of_same (h : d'.group_members = d.group_members) : d'.role gid uid = d.role gid uid := by
  rw [Tables.role, Tables.role, Tables.isMember, Tables.isMember, Tables.adminRow, Tables.adminRow, h]

/-- An admin's row is a row. -/
theorem isMember_of_adminRow (h : d.adminRow gid uid = true) : d.isMember gid uid = true := by
  obtain ⟨r, hr, hg, hu, -⟩ := (adminRow_iff gid uid).mp h
  exact (isMember_iff gid uid).mpr ⟨r, hr, hg, hu⟩

theorem role_insert (hok : (insert_group_member gid uid d).1 = some ())
    (h : d'.group_members = (insert_group_member gid uid d).2) :
    d'.role g u = Role.at gid uid Role.enrol g u (d.role g u) ∧
      (d.isMember gid uid = true ∨ (d.hasGroup gid = true ∧ d.hasUser uid = true)) := by
  unfold insert_group_member at hok h
  split at hok
  · next hrow =>
    rw [if_pos hrow] at h
    refine ⟨?_, .inl hrow⟩
    rw [role_of_same g u h, Role.at]
    split
    · next hgu => rw [hgu.1, hgu.2, Tables.role, hrow]; rfl
    · rfl
  next hrow =>
  rw [if_neg hrow] at h
  split at hok
  · next hrefs =>
    rw [if_pos hrefs] at h
    refine ⟨?_, .inr (by simpa using hrefs)⟩
    rw [Tables.role, Tables.isMember, Tables.adminRow, h, List.any_append, List.any_append,
      Role.at]
    split
    · next hgu => simp [hgu, Tables.role, Role.enrol, Tables.adminRow]
    · next hgu =>
      have hne : ¬(gid = g ∧ uid = u) := fun h => hgu ⟨h.1.symm, h.2.symm⟩
      simp [hne, Tables.role, Tables.isMember, Tables.adminRow]
  · cases hok

theorem role_delete (h : d'.group_members = (delete_group_member gid uid d).2) :
    d'.role g u = Role.at gid uid Role.clear g u (d.role g u) := by
  have hmem : ∀ r, r ∈ d'.group_members ↔
      r ∈ d.group_members ∧ ¬(r.group_id = gid ∧ r.user_id = uid) := by
    intro r
    rw [h, delete_group_member, List.mem_filter, Bool.not_eq_true', ← Bool.not_eq_true]
    simp only [Bool.and_eq_true, decide_eq_true_eq]
  rw [Role.at]
  split
  · next hgu =>
    obtain ⟨rfl, rfl⟩ := hgu
    have hnone : d'.isMember g u = false := by
      rw [← Bool.not_eq_true, isMember_iff]
      rintro ⟨r, hr, hids⟩
      exact ((hmem r).mp hr).2 hids
    rw [Tables.role, hnone, Role.clear, Role.mk.injEq]
    refine ⟨rfl, ?_⟩
    rw [← Bool.not_eq_true]
    exact fun h => absurd (isMember_of_adminRow g u h) (by simp [hnone])
  · next hgu =>
    have hkept : ∀ r : GroupMemberRow, r.group_id = g → r.user_id = u →
        (r ∈ d'.group_members ↔ r ∈ d.group_members) := by
      rintro r rfl rfl
      rw [hmem]
      exact and_iff_left hgu
    rw [Tables.role, Tables.role, Role.mk.injEq]
    constructor
    · rw [Bool.eq_iff_iff, isMember_iff, isMember_iff]
      exact exists_congr fun r => and_congr_left fun hr => hkept r hr.1 hr.2
    · rw [Bool.eq_iff_iff, adminRow_iff, adminRow_iff]
      exact exists_congr fun r => and_congr_left fun hr => hkept r hr.1 hr.2.1

/-- An `UPDATE` adds and removes no member. -/
theorem isMember_update {f : GroupMemberRow → GroupMemberRow}
    (h : d'.group_members = (update_group_member gid uid f d).2)
    (hf : ∀ r, (f r).group_id = r.group_id ∧ (f r).user_id = r.user_id) :
    d'.isMember g u = d.isMember g u := by
  rw [Tables.isMember, h, update_group_member, List.any_map, Tables.isMember]
  refine congrArg (List.any _) (funext fun r => ?_)
  rw [Function.comp_apply]
  split
  · rw [(hf r).1, (hf r).2]
  · rfl

theorem role_update_admin (h : d'.group_members =
      (update_group_member gid uid (fun r => { r with is_admin := some true }) d).2) :
    d'.role g u = Role.at gid uid Role.crownMember g u (d.role g u) := by
  have hmember : d'.isMember g u = d.isMember g u :=
    isMember_update gid uid g u h fun _ => ⟨rfl, rfl⟩
  have hadmin : d'.adminRow g u = true ↔
      d.adminRow g u = true ∨ (g = gid ∧ u = uid ∧ d.isMember g u = true) := by
    rw [adminRow_iff, adminRow_iff, isMember_iff, h, update_group_member]
    simp only [List.mem_map]
    constructor
    · rintro ⟨r, ⟨r₀, hr₀, rfl⟩, rfl, rfl, hadmin⟩
      split at hadmin
      · next hids =>
        rw [if_pos hids]
        simp only [Bool.and_eq_true, decide_eq_true_eq] at hids
        exact .inr ⟨hids.1, hids.2, r₀, hr₀, rfl, rfl⟩
      · next hids =>
        rw [if_neg hids]
        exact .inl ⟨r₀, hr₀, rfl, rfl, hadmin⟩
    · rintro (⟨r, hr, rfl, rfl, hadmin⟩ | ⟨rfl, rfl, r, hr, rfl, rfl⟩)
      · refine ⟨_, ⟨r, hr, rfl⟩, ?_⟩
        split <;> simp [hadmin]
      · exact ⟨_, ⟨r, hr, rfl⟩, by simp⟩
  have hrole : d'.adminRow g u =
      (d.adminRow g u || (decide (g = gid ∧ u = uid) && d.isMember g u)) := by
    rw [Bool.eq_iff_iff, hadmin]
    simp [and_assoc]
  rw [Tables.role, hmember, hrole, Role.at]
  split
  · next hgu => simp [hgu, Tables.role, Role.crownMember, Bool.or_comm]
  · next hgu => simp [hgu, Tables.role]

theorem role_update_nickname (nickname : Option Bytes) (h : d'.group_members =
      (update_group_member gid uid (fun r => { r with nickname := nickname }) d).2) :
    d'.role g u = d.role g u := by
  have hmember : d'.isMember g u = d.isMember g u :=
    isMember_update gid uid g u h fun _ => ⟨rfl, rfl⟩
  rw [Tables.role, hmember, Tables.role, Role.mk.injEq]
  refine ⟨rfl, ?_⟩
  rw [Tables.adminRow, h, update_group_member, List.any_map, Tables.adminRow]
  refine congrArg (List.any _) (funext fun r => ?_)
  rw [Function.comp_apply]
  split <;> rfl

end Rows

/-! ## The two copies -/

/-- Every role is as it was, in both copies, and so are the groups the database has. -/
structure RolesSame (w w' : World) : Prop where
  memory : ∀ g u, w'.mem.role? g u = w.mem.role? g u
  rows : ∀ g u, w'.db.tables.role g u = w.db.tables.role g u
  groups : ∀ g, w'.db.tables.hasGroup g = w.db.tables.hasGroup g
  next : w.db.tables.groups.next ≤ w'.db.tables.groups.next

/-- The role of `uid` in `gid` has changed: by `f` in memory, by `f'` in the database. -/
structure RolesChanged (gid uid : Int) (f f' : Role → Role) (w w' : World) : Prop where
  memory : ∀ g u, w'.mem.role? g u = (w.mem.role? g u).map (Role.at gid uid f g u)
  rows : ∀ g u, w'.db.tables.role g u = Role.at gid uid f' g u (w.db.tables.role g u)
  groups : ∀ g, w'.db.tables.hasGroup g = w.db.tables.hasGroup g
  next : w.db.tables.groups.next ≤ w'.db.tables.groups.next

/-- `me` has left: in memory the admin entry stays, unless the group is gone with its last
member. The rows stay when they cannot be deleted. -/
structure RolesLeft (pg : Bool) (env : Env) (gid me : Int) (w w' : World) : Prop where
  memory : ∀ g u, w'.mem.role? g u = if w.mem.leavesLast gid me = true ∧ g = gid then none
    else (w.mem.role? g u).map (Role.at gid me Role.depart g u)
  rows : ∃ f', (f' = id ∨ f' = Role.clear) ∧ (pg = true → env.SqlSucceeds → f' = Role.clear) ∧
    ∀ g u, w'.db.tables.role g u = Role.at gid me f' g u (w.db.tables.role g u)
  groups : ∀ g, w'.db.tables.hasGroup g = w.db.tables.hasGroup g
  next : w.db.tables.groups.next ≤ w'.db.tables.groups.next

/-- The rows of the group `gid` once `me` has created it: `me` is an admin, and those listed
are members if they are users. -/
def Role.founded (d : Tables) (me : Int) (ids : List Int) (u : Int) (c : Role) : Role :=
  ⟨c.member || decide (u = me ∨ (u ∈ ids ∧ d.hasUser u = true)), c.admin || decide (u = me)⟩

/-- The id the next group gets. -/
def World.newGroupId (pg : Bool) (w : World) : Int :=
  if pg then w.db.tables.groups.next else w.mem.g_next_group_id

/-- `me` has created a group. Memory has those listed as its members, with a database only the
friends of `me` among them; the database has the users among them. -/
structure RolesFounded (pg : Bool) (env : Env) (me : Int) (ids : List Int) (w w' : World) :
    Prop where
  creator : pg = true → w.db.tables.hasUser me = true
  memory : ∀ g u, w'.mem.role? g u = if g = w.newGroupId pg
    then some ⟨decide (u = me ∨ (u ∈ ids ∧ (pg = true → w.mem.isFriend me u = true))),
      decide (u = me)⟩
    else w.mem.role? g u
  rows : ∀ g u, w'.db.tables.isMember g u = true →
    w.db.tables.isMember g u = true ∨ w.db.tables.hasUser u = true
  next : w.db.tables.groups.next ≤ w'.db.tables.groups.next
  stored : pg = true → env.SqlSucceeds → w.db.tables.groups.next < w'.db.tables.groups.next ∧
    (∀ g, w'.db.tables.hasGroup g = true → w.db.tables.hasGroup g = true ∨
      g = w.db.tables.groups.next) ∧
    ∀ g u, w'.db.tables.role g u = if g = w.db.tables.groups.next
      then (w.db.tables.role g u).founded w.db.tables me ids u else w.db.tables.role g u

/-- The fields the roles are kept in. -/
abbrev role_fields : List Field := [.var .g_groups, .table .group_members, .table .groups]

theorem RolesSame.refl (w : World) : RolesSame w w :=
  ⟨fun _ _ => rfl, fun _ _ => rfl, fun _ => rfl, le_rfl⟩

theorem rolesSame_of_frame {w w' : World} (h : ∀ x ∈ role_fields, x.Same w w') :
    RolesSame w w' := by
  have hgroups : w'.mem.g_groups = w.mem.g_groups := h (.var .g_groups) (by simp)
  have htable : w'.db.tables.groups = w.db.tables.groups := h (.table .groups) (by simp)
  refine ⟨fun g u => ?_, fun g u => ?_, fun g => ?_, ?_⟩
  · rw [ServerState.role?, ServerState.role?, hgroups]
  · exact role_of_same g u (h (.table .group_members) (by simp))
  · rw [Tables.hasGroup, Tables.hasGroup, htable]
  · rw [htable]

theorem rolesSame_of_tables {w w' : World} (hmem : w'.mem.g_groups = w.mem.g_groups)
    (htables : w'.db.tables = w.db.tables) : RolesSame w w' := by
  refine ⟨fun g u => ?_, fun g u => by rw [htables], fun g => by rw [htables], by rw [htables]⟩
  rw [ServerState.role?, ServerState.role?, hmem]

theorem RolesSame.trans {w w' w'' : World} (h : RolesSame w w') (h' : RolesSame w' w'') :
    RolesSame w w'' :=
  ⟨fun g u => (h'.memory g u).trans (h.memory g u), fun g u => (h'.rows g u).trans (h.rows g u),
    fun g => (h'.groups g).trans (h.groups g), h.next.trans h'.next⟩

theorem RolesChanged.trans {gid uid : Int} {f f' : Role → Role} {w w' w'' : World}
    (h : RolesChanged gid uid f f' w w') (h' : RolesSame w' w'') :
    RolesChanged gid uid f f' w w'' :=
  ⟨fun g u => (h'.memory g u).trans (h.memory g u), fun g u => (h'.rows g u).trans (h.rows g u),
    fun g => (h'.groups g).trans (h.groups g), h.next.trans h'.next⟩

theorem RolesLeft.trans {pg : Bool} {env : Env} {gid me : Int} {w w' w'' : World}
    (h : RolesLeft pg env gid me w w') (h' : RolesSame w' w'') :
    RolesLeft pg env gid me w w'' := by
  obtain ⟨f', hf', hs, hrows⟩ := h.rows
  exact ⟨fun g u => (h'.memory g u).trans (h.memory g u),
    ⟨f', hf', hs, fun g u => (h'.rows g u).trans (hrows g u)⟩,
    fun g => (h'.groups g).trans (h.groups g), h.next.trans h'.next⟩

theorem RolesFounded.trans {pg : Bool} {env : Env} {me : Int} {ids : List Int} {w w' w'' : World}
    (h : RolesFounded pg env me ids w w') (h' : RolesSame w' w'') :
    RolesFounded pg env me ids w w'' := by
  refine ⟨h.creator, fun g u => (h'.memory g u).trans (h.memory g u), fun g u hrow => ?_,
    h.next.trans h'.next, fun hpg hs => ?_⟩
  · have hmember := congrArg Role.member (h'.rows g u)
    exact h.rows g u (hmember.symm.trans hrow)
  · obtain ⟨hnext, hgroups, hrows⟩ := h.stored hpg hs
    refine ⟨hnext.trans_le h'.next, fun g hg => hgroups g ((h'.groups g).symm.trans hg),
      fun g u => (h'.rows g u).trans (hrows g u)⟩

section Tails

variable {env : Env} {w : World} {S : List Field} {α : Type}

/-- A program that writes none of these fields changes no role. -/
theorem keeps_roles (p : Prog S α) (hS : ∀ x ∈ role_fields, x ∉ S) :
    Ensures env w p fun _ w' => RolesSame w w' :=
  rolesSame_of_frame fun x hx => run_frame env p w (hS x hx)

theorem reply_roles (fd : Int) (type : MessageType) (payload : Bytes) (uid : UInt32)
    (h : .out ∈ S) :
    Ensures env w (reply fd type payload uid h : Prog S Unit) fun _ w' => RolesSame w w' :=
  ⟨fun _ _ => rfl, fun _ _ => rfl, fun _ => rfl, le_rfl⟩

/-- A lookup of a group that is there creates nothing. -/
theorem touch_known {gid : Int} (known : w.mem.g_groups.count gid = true) :
    w.mem.g_groups.touch gid = w.mem.g_groups := by
  rw [UMap.touch, if_pos known]

/-- An announcement of a group that memory has changes no role. With a database it takes the
members from there. -/
theorem announce_roles (pg : Bool) (gid : Int) (sys : Prog [] Bytes)
    (known : pg = false → w.mem.g_groups.count gid = true) :
    Ensures env w (announce pg gid sys) fun _ w' => RolesSame w w' := by
  refine Ensures.bind (R := fun _ w₁ => w₁.mem = w.mem ∧ RolesSame w w₁)
    ⟨rfl, fun _ _ => rfl, fun _ _ => rfl, fun _ => rfl, le_rfl⟩ fun ts_ms w₁ h₁ => ?_
  refine (((keeps_roles sys (by simp)).and (ensures_frame _)).lift _).bind fun text w₂ h₂ => ?_
  have hg₂ : w₂.mem.g_groups = w.mem.g_groups :=
    Eq.trans (h₂.2 (.var .g_groups) (by simp)) (by rw [← h₁.1]; rfl)
  have hsame := h₁.2.trans h₂.1
  have hsave : Ensures env w₂ (Prog.when pg do
      let _ ← (save_group_message gid 0 text ts_ms).lift
      pure () : Prog broadcast_writes Unit)
      fun _ w₃ => RolesSame w₂ w₃ ∧ w₃.mem.g_groups = w₂.mem.g_groups := by
    refine ensures_when (fun _ => ?_) fun _ => ⟨RolesSame.refl w₂, rfl⟩
    exact (((keeps_roles (save_group_message gid 0 text ts_ms) (by simp)).and
      (ensures_frame _)).lift _).bind
        fun _ _ h => ensures_pure ⟨h.1, h.2 (.var .g_groups) (by simp)⟩
  refine hsave.bind fun _ w₃ h₃ => ?_
  have hmembers : Ensures env w₃ (members_to_notify pg gid) fun _ w₄ => RolesSame w₃ w₄ := by
    cases pg with
    | true =>
      exact ((keeps_roles (get_group_members gid) (by simp)).lift _).bind
        fun _ _ h => ensures_pure h
    | false =>
      refine Ensures.locked (ensures_modify (rolesSame_of_tables (touch_known ?_) rfl))
      rw [h₃.2, hg₂]
      exact known rfl
  refine (hmembers.lift _).bind fun members w₄ h₄ => ?_
  refine ((keeps_roles (deliver_all _ members) (by simp)).lift _).bind fun _ w₅ h₅ =>
    ensures_pure ?_
  exact hsame.trans (h₃.1.trans (h₄.trans h₅))

end Tails

/-! ## Changing one role -/

theorem Role.at_comp (gid uid : Int) (f f' : Role → Role) (g u : Int) (c : Role) :
    Role.at gid uid f' g u (Role.at gid uid f g u c) = Role.at gid uid (f' ∘ f) g u c := by
  unfold Role.at
  split <;> rfl

/-- Two changes of one role are one. -/
theorem RolesChanged.comp {gid uid : Int} {f f' h h' : Role → Role} {w w' w'' : World}
    (hc : RolesChanged gid uid f f' w w') (hc' : RolesChanged gid uid h h' w' w'') :
    RolesChanged gid uid (h ∘ f) (h' ∘ f') w w'' := by
  refine ⟨fun g u => ?_, fun g u => ?_, fun g => (hc'.groups g).trans (hc.groups g),
    hc.next.trans hc'.next⟩
  · rw [hc'.memory, hc.memory, Option.map_map]
    exact congrArg (Option.map · _) (funext fun c => Role.at_comp ..)
  · rw [hc'.rows, hc.rows, Role.at_comp]

theorem RolesSame.changed {gid uid : Int} {w w' : World} (h : RolesSame w w') :
    RolesChanged gid uid id id w w' := by
  refine ⟨fun g u => ?_, fun g u => ?_, h.groups, h.next⟩
  · rw [h.memory, show Role.at gid uid id g u = id from funext fun c => Role.at_id .., Option.map_id,
      id]
  · rw [h.rows, Role.at_id]

/-- Memory has the groups in which it knows a role. -/
theorem count_eq_role? (s : ServerState) (g : Int) :
    s.g_groups.count g = (s.role? g 0).isSome := by
  rw [ServerState.role?, Option.isSome_map, UMap.count]

/-- Memory has the same groups after a change of roles. -/
theorem RolesChanged.count {gid uid : Int} {f f' : Role → Role} {w w' : World}
    (h : RolesChanged gid uid f f' w w') (g : Int) :
    w'.mem.g_groups.count g = w.mem.g_groups.count g := by
  rw [count_eq_role?, count_eq_role?, h.memory, Option.isSome_map]

theorem RolesSame.count {w w' : World} (h : RolesSame w w') (g : Int) :
    w'.mem.g_groups.count g = w.mem.g_groups.count g := by
  rw [count_eq_role?, count_eq_role?, h.memory]

section Cases

variable {env : Env} {w : World} (fd me gid uid : Int)

/-- A change of `group_members` and nothing else. -/
theorem rolesChanged_of_rows {w' : World} {f' : Role → Role} {m : List GroupMemberRow}
    (hmem : w'.mem.g_groups = w.mem.g_groups)
    (htables : w'.db.tables = { w.db.tables with group_members := m })
    (hrows : ∀ g u, w'.db.tables.role g u = Role.at gid uid f' g u (w.db.tables.role g u)) :
    RolesChanged gid uid id f' w w' := by
  refine ⟨fun g u => ?_, hrows, fun g => ?_, ?_⟩
  · rw [show Role.at gid uid id g u = id from funext fun c => Role.at_id .., Option.map_id, id,
      ServerState.role?, ServerState.role?, hmem]
  · rw [htables]
    rfl
  · rw [htables]

/-- Nothing but `g_groups` has changed, and there what the group has. -/
theorem rolesChanged_of_act {S : List Field} {F : Group → Group} {f : Role → Role} {act : Groups → Groups}
    (hF : ∀ grp u, (F grp).role u = if u = uid then f (grp.role u) else grp.role u)
    (hact : act w.mem.g_groups = w.mem.g_groups.adjust gid F) (h : .var .g_groups ∈ S) :
    Ensures env w (Prog.locked (Prog.modify .g_groups act h) : Prog S Unit)
      fun _ w' => RolesChanged gid uid f id w w' := by
  refine Ensures.locked ⟨fun g u => ?_, fun g u => ?_, fun g => rfl, le_rfl⟩
  · exact role?_adjust gid uid g u hF hact
  · rw [Role.at_id]
    rfl

theorem rolesChanged_of_adjust {S : List Field} {F : Group → Group} {f : Role → Role}
    (hF : ∀ grp u, (F grp).role u = if u = uid then f (grp.role u) else grp.role u)
    (h : .var .g_groups ∈ S) :
    Ensures env w (Prog.locked (Prog.modify .g_groups (fun g => g.adjust gid F) h) : Prog S Unit)
      fun _ w' => RolesChanged gid uid f id w w' :=
  rolesChanged_of_act gid uid hF rfl h

/-- The rows a foreign key allows: of a group and a user that exist, or one that is there. -/
def Tables.enrols (d : Tables) (gid uid : Int) : Prop :=
  d.isMember gid uid = true ∨ (d.hasGroup gid = true ∧ d.hasUser uid = true)

theorem add_group_member_ensures (htx : w.db.tx = none) :
    Ensures env w (add_group_member gid uid) fun ok w' => w'.db.tx = none ∧
      ((ok = true ∧ (insert_group_member gid uid w.db.tables).1 = some () ∧
          w'.db.tables = { w.db.tables with
            group_members := (insert_group_member gid uid w.db.tables).2 }) ∨
        (ok = false ∧ w'.db.tables = w.db.tables ∧
          (env.SqlSucceeds → (insert_group_member gid uid w.db.tables).1 = none))) := by
  have hrefused : (insert_group_member gid uid w.db.tables).1 = none →
      (insert_group_member gid uid w.db.tables).2 = w.db.tables.group_members := by
    unfold insert_group_member
    split
    · exact fun h => absurd h (by simp)
    split
    · exact fun h => absurd h (by simp)
    · exact fun _ => rfl
  refine (logged_ensures uid 0 htx hrefused).mono fun ok w' h => ⟨h.1, ?_⟩
  rcases h.2 with ⟨hok, ⟨u, hu⟩, htables⟩ | hfailed
  · exact .inl ⟨hok, hu, htables⟩
  · exact .inr hfailed

theorem add_group_member_roles (htx : w.db.tx = none) :
    Ensures env w (add_group_member gid uid) fun ok w' =>
      (ok = true ∧ w.db.tables.enrols gid uid ∧ RolesChanged gid uid id Role.enrol w w') ∨
        (ok = false ∧ RolesSame w w') := by
  refine ((add_group_member_ensures gid uid htx).and (ensures_frame _)).mono fun ok w' h => ?_
  obtain ⟨⟨-, hdb⟩, hframe⟩ := h
  have hmem : w'.mem.g_groups = w.mem.g_groups := hframe (.var .g_groups) (by simp)
  rcases hdb with ⟨hok, hins, htables⟩ | ⟨hok, htables, -⟩
  · have hrole := fun g u =>
      @role_insert w.db.tables w'.db.tables gid uid g u hins (by rw [htables])
    exact .inl ⟨hok, (hrole 0 0).2, rolesChanged_of_rows gid uid hmem htables fun g u => (hrole g u).1⟩
  · exact .inr ⟨hok, rolesSame_of_tables hmem htables⟩

theorem remove_group_member_roles (htx : w.db.tx = none) :
    Ensures env w (remove_group_member gid uid) fun ok w' =>
      (ok = true ∧ RolesChanged gid uid id Role.clear w w') ∨
        (ok = false ∧ ¬env.SqlSucceeds ∧ RolesSame w w') := by
  have hlogged : Ensures env w (remove_group_member gid uid) _ :=
    logged_ensures uid 0 htx fun h => absurd h (by simp [delete_group_member])
  refine (hlogged.and (ensures_frame _)).mono fun ok w' h => ?_
  obtain ⟨⟨-, hdb⟩, hframe⟩ := h
  have hmem : w'.mem.g_groups = w.mem.g_groups := hframe (.var .g_groups) (by simp)
  rcases hdb with ⟨hok, -, htables⟩ | ⟨hok, htables, hfails⟩
  · refine .inl ⟨hok, rolesChanged_of_rows gid uid hmem htables fun g u => ?_⟩
    exact role_delete gid uid g u (by rw [htables]; rfl)
  · refine .inr ⟨hok, fun hs => absurd (hfails hs) (by simp [delete_group_member]), ?_⟩
    exact rolesSame_of_tables hmem htables

theorem set_group_admin_roles (htx : w.db.tx = none) :
    Ensures env w (set_group_admin gid uid true) fun ok w' => w'.db.tx = none ∧
      ((ok = true ∧ RolesChanged gid uid id Role.crownMember w w' ∧
          ∃ m, w'.db.tables = { w.db.tables with group_members := m }) ∨
        (ok = false ∧ ¬env.SqlSucceeds ∧ RolesSame w w' ∧ w'.db.tables = w.db.tables)) := by
  -- the column is there already
  refine (execute_of_none .group_members alter_group_members _ htx).and (ensures_frame _) |>.bind
    fun r w₁ h₁ => ?_
  obtain ⟨hdb, hframe⟩ := h₁
  have hmem : w₁.mem.g_groups = w.mem.g_groups := hframe (.var .g_groups) (by simp)
  rcases hdb with ⟨hfails, rfl, hdb⟩ | ⟨-, rfl, hdb⟩
  · refine ensures_pure ⟨by rw [hdb, htx], .inr ⟨rfl, fun hs => ?_, ?_, by rw [hdb]⟩⟩
    · exact absurd hfails (by simp [hs w.ticks])
    · exact rolesSame_of_tables hmem (by rw [hdb])
  replace hdb : w₁.db = ⟨w.db.tables, none⟩ := hdb
  refine ((execute_of_none .group_members (update_group_member gid uid _) _ (by rw [hdb])).and
    (ensures_frame _)).bind fun r w₂ h₂ => ensures_pure ?_
  obtain ⟨hdb₂, hframe₂⟩ := h₂
  have hmem₂ : w₂.mem.g_groups = w.mem.g_groups :=
    Eq.trans (hframe₂ (.var .g_groups) (by simp)) hmem
  rcases hdb₂ with ⟨hfails, rfl, hdb₂⟩ | ⟨-, rfl, hdb₂⟩
  · refine ⟨by rw [hdb₂, hdb], .inr ⟨rfl, fun hs => ?_, ?_, by rw [hdb₂, hdb]⟩⟩
    · exact absurd hfails (by simp [hs w₁.ticks])
    · exact rolesSame_of_tables hmem₂ (by rw [hdb₂, hdb])
  · rw [hdb] at hdb₂
    refine ⟨by rw [hdb₂], .inl ⟨rfl, ?_, _, by rw [hdb₂]; rfl⟩⟩
    refine rolesChanged_of_rows gid uid hmem₂ (by rw [hdb₂]; rfl) fun g u => ?_
    exact role_update_admin gid uid g u (by rw [hdb₂]; rfl)

theorem set_group_nickname_roles (nick : Bytes) (htx : w.db.tx = none) :
    Ensures env w (PostgresPersistence.set_group_nickname gid uid nick) fun _ w' =>
      RolesSame w w' := by
  have hlogged : Ensures env w (PostgresPersistence.set_group_nickname gid uid nick) _ :=
    logged_ensures uid 0 htx fun h => absurd h (by simp [update_group_member])
  refine (hlogged.and (ensures_frame _)).mono fun ok w' h => ?_
  obtain ⟨⟨-, hdb⟩, hframe⟩ := h
  have hmem : w'.mem.g_groups = w.mem.g_groups := hframe (.var .g_groups) (by simp)
  rcases hdb with ⟨-, -, htables⟩ | ⟨-, htables, -⟩
  · refine ⟨fun g u => ?_, fun g u => ?_, fun g => by rw [htables]; rfl, by rw [htables]; rfl⟩
    · rw [ServerState.role?, ServerState.role?, hmem]
    · exact role_update_nickname gid uid g u _ (by rw [htables]; rfl)
  · exact rolesSame_of_tables hmem htables

theorem rename_group_roles (name : Bytes) (htx : w.db.tx = none) :
    Ensures env w (PostgresPersistence.rename_group gid name) fun _ w' => RolesSame w w' := by
  have hlogged : Ensures env w (PostgresPersistence.rename_group gid name) _ :=
    logged_ensures 0 0 htx fun h => absurd h (by simp [update_group_name])
  refine (hlogged.and (ensures_frame _)).mono fun ok w' h => ?_
  obtain ⟨⟨-, hdb⟩, hframe⟩ := h
  have hmem : w'.mem.g_groups = w.mem.g_groups := hframe (.var .g_groups) (by simp)
  rcases hdb with ⟨-, -, htables⟩ | ⟨-, htables, -⟩
  · refine ⟨fun g u => ?_, fun g u => ?_, fun g => ?_, by rw [htables]; rfl⟩
    · rw [ServerState.role?, ServerState.role?, hmem]
    · exact role_of_same g u (by rw [htables]; rfl)
    · rw [htables, Tables.hasGroup]
      show (List.map _ w.db.tables.groups.rows).any _ = _
      rw [List.any_map, Tables.hasGroup]
      refine congrArg (List.any _) (funext fun r => ?_)
      rw [Function.comp_apply]
      split <;> rfl
  · exact rolesSame_of_tables hmem htables

/-- The database is changed first, and memory only if that succeeded. -/
theorem persist_roles {S : List Field} {p : Prog S Bool} {F : Group → Group} {f f' : Role → Role}
    {P : Prop} {h : .var .g_groups ∈ S}
    (hF : ∀ grp u, (F grp).role u = if u = uid then f (grp.role u) else grp.role u)
    (hp : Ensures env w p fun ok w' => (ok = true ∧ P ∧ RolesChanged gid uid id f' w w') ∨
      (ok = false ∧ RolesSame w w')) :
    Ensures env w (p >>= fun ok =>
        Prog.when ok (locked (modify .g_groups (fun g => g.adjust gid F) h)) >>= fun _ => pure ok)
      fun ok w' => (ok = true ∧ P ∧ RolesChanged gid uid f f' w w') ∨
        (ok = false ∧ RolesSame w w') := by
  refine hp.bind fun ok w₁ h₁ => ?_
  rcases h₁ with ⟨rfl, hP, hrows⟩ | ⟨rfl, hsame⟩
  · refine (rolesChanged_of_adjust gid uid hF h).bind fun _ w₂ h₂ => ensures_pure ?_
    exact .inl ⟨rfl, hP, hrows.comp h₂⟩
  · exact .inr ⟨rfl, hsame⟩

/-! ## The cases that change them -/

theorem count_of_hasMember {s : ServerState} (h : s.hasMember gid me = true) :
    s.g_groups.count gid = true := by
  rw [ServerState.hasMember] at h
  rw [UMap.count]
  cases hfind : s.g_groups.find? gid with
  | none => rw [hfind] at h; cases h
  | some grp => rfl

theorem count_of_hasAdmin {s : ServerState} (h : s.hasAdmin gid me = true) :
    s.g_groups.count gid = true := by
  rw [ServerState.hasAdmin] at h
  rw [UMap.count]
  cases hfind : s.g_groups.find? gid with
  | none => rw [hfind] at h; cases h
  | some grp => rfl

theorem notify_invited_roles (known : w.mem.g_groups.count gid = true) :
    Ensures env w (notify_invited me gid uid) fun _ w' => RolesSame w w' := by
  refine Ensures.bind (R := fun _ w₁ => w₁ = w) (Ensures.locked rfl) fun fd w₁ h₁ => ?_
  subst h₁
  refine ensures_when (fun _ => ensures_modify (ensures_read ?_)) fun _ => RolesSame.refl w₁
  refine (reply_roles _ _ _ _ _).mono fun _ w' h => RolesSame.trans ?_ h
  exact rolesSame_of_tables (touch_known known) rfl

variable (pg : Bool)

/-- `persist_roles`, with and without a database. -/
theorem persisted_roles {S : List Field} {p : Prog S Bool} {F : Group → Group} {f f' : Role → Role}
    {P : Prop} {h : .var .g_groups ∈ S}
    (hF : ∀ grp u, (F grp).role u = if u = uid then f (grp.role u) else grp.role u)
    (hp : Ensures env w p fun ok w' => (ok = true ∧ P ∧ RolesChanged gid uid id f' w w') ∨
      (ok = false ∧ RolesSame w w')) :
    Ensures env w (if pg then p >>= fun ok =>
        Prog.when ok (locked (modify .g_groups (fun g => g.adjust gid F) h)) >>= fun _ => pure ok
      else pure true >>= fun ok =>
        Prog.when ok (locked (modify .g_groups (fun g => g.adjust gid F) h)) >>= fun _ => pure ok)
      fun ok w' =>
        (ok = true ∧ (pg = true → P) ∧ RolesChanged gid uid f (Role.stored pg f') w w') ∨
          (ok = false ∧ RolesSame w w') := by
  cases pg with
  | true =>
    refine (persist_roles gid uid hF hp).mono fun ok w' h => ?_
    exact h.imp_left fun h => ⟨h.1, fun _ => h.2.1, h.2.2⟩
  | false =>
    refine (rolesChanged_of_adjust gid uid hF h).bind fun _ w₁ h₁ => ensures_pure ?_
    exact .inl ⟨rfl, fun h => absurd h Bool.false_ne_true, h₁⟩

theorem persist_member_roles (hknown : w.mem.g_groups.count gid = true) (htx : w.db.tx = none) :
    Ensures env w (persist_member pg gid uid) fun ok w' =>
      (ok = true ∧ (pg = true → w.db.tables.enrols gid uid) ∧
        RolesChanged gid uid Role.enrol (Role.stored pg Role.enrol) w w') ∨
        (ok = false ∧ RolesSame w w') := by
  cases pg with
  | true =>
    exact persisted_roles gid uid true (fun grp u => role_add_member uid u grp)
      ((add_group_member_roles gid uid htx).lift _)
  | false =>
    -- the group is there, so `operator[]` makes none
    refine (rolesChanged_of_act gid uid (fun grp u => role_add_member uid u grp)
      (put_member_of_count uid hknown) _).bind fun _ w₁ h₁ => ensures_pure ?_
    exact .inl ⟨rfl, fun h => absurd h Bool.false_ne_true, h₁⟩

theorem persist_removal_roles (htx : w.db.tx = none) :
    Ensures env w (persist_removal pg gid uid) fun ok w' =>
      (ok = true ∧ (pg = true → True) ∧
        RolesChanged gid uid Role.clear (Role.stored pg Role.clear) w w') ∨
        (ok = false ∧ RolesSame w w') := by
  refine persisted_roles gid uid pg (fun grp u => role_remove_member uid u grp)
    (((remove_group_member_roles gid uid htx).mono fun ok w' h => ?_).lift _)
  exact h.imp (fun h => ⟨h.1, trivial, h.2⟩) fun h => ⟨h.1, h.2.2⟩

theorem persist_admin_roles (htx : w.db.tx = none) :
    Ensures env w (persist_admin pg gid uid) fun ok w' =>
      (ok = true ∧ (pg = true → True) ∧
        RolesChanged gid uid Role.crown (Role.stored pg Role.crownMember) w w') ∨
        (ok = false ∧ RolesSame w w') := by
  refine persisted_roles gid uid pg (fun grp u => role_set_admin uid u grp)
    (((set_group_admin_roles gid uid htx).mono fun ok w' h => ?_).lift _)
  exact h.2.imp (fun h => ⟨h.1, trivial, h.2.1⟩) fun h => ⟨h.1, h.2.2.1⟩

/-- `INVITE_TO_GROUP` by a member, or nothing. -/
theorem invite_to_group_roles (htx : w.db.tx = none) :
    Ensures env w (invite_to_group pg fd me gid uid) fun _ w' => RolesSame w w' ∨
      (w.mem.hasMember gid me = true ∧ (pg = true → w.db.tables.enrols gid uid) ∧
        RolesChanged gid uid Role.enrol (Role.stored pg Role.enrol) w w') := by
  refine Ensures.bind (R := fun ok w₁ => ok = w.mem.hasMember gid me ∧ w₁ = w)
    (Ensures.locked ⟨rfl, rfl⟩) fun ok w₁ h₁ => ?_
  obtain ⟨hok, rfl⟩ := h₁
  suffices hbody : Ensures env w₁ _ fun (_ : Unit) w' => RolesSame w₁ w' ∨
      (w₁.mem.hasMember gid me = true ∧ (pg = true → w₁.db.tables.enrols gid uid) ∧
        RolesChanged gid uid Role.enrol (Role.stored pg Role.enrol) w₁ w') from
    hbody.bind fun _ w' h => ensures_pure h
  refine ensures_ite (fun _ => (reply_roles ..).mono fun _ _ h => .inl h) fun hmember => ?_
  replace hmember : w₁.mem.hasMember gid me = true := by simpa [← hok] using hmember
  have hfound : w₁.mem.g_groups.count gid = true := count_of_hasMember me gid hmember
  refine ((persist_member_roles gid uid pg hfound htx).lift _).bind fun added w₂ h₂ => ?_
  rcases h₂ with ⟨rfl, henrols, hchanged⟩ | ⟨rfl, hsame⟩
  · have hknown : w₂.mem.g_groups.count gid = true := (hchanged.count gid).trans hfound
    refine ((notify_invited_roles me gid uid hknown).lift _).bind fun _ w₃ h₃ => ?_
    refine ((announce_roles pg gid _ fun _ => (h₃.count gid).trans hknown).lift _).bind
      fun _ w₄ h₄ => ?_
    refine (reply_roles ..).mono fun _ w₅ h₅ => ?_
    exact .inr ⟨hmember, henrols, hchanged.trans (h₃.trans (h₄.trans h₅))⟩
  · exact (reply_roles ..).mono fun _ _ h => .inl (hsame.trans h)

/-- `ACCEPT_GROUP_INVITE`, whether or not there was an invite. -/
theorem accept_group_invite_roles (htx : w.db.tx = none) :
    Ensures env w (accept_group_invite pg fd me gid) fun _ w' => RolesSame w w' ∨
      ((pg = true → w.db.tables.enrols gid me) ∧
        RolesChanged gid me Role.enrol (Role.stored pg Role.enrol) w w') := by
  have hjoin : Ensures env w (join_group pg me gid) fun ok w' => RolesSame w w' ∨
      ((pg = true → w.db.tables.enrols gid me) ∧
        RolesChanged gid me Role.enrol (Role.stored pg Role.enrol) w w') := by
    cases pg with
    | true =>
      refine ((add_group_member_roles gid me htx).lift _).bind fun added w₁ h₁ => ?_
      rcases h₁ with ⟨rfl, henrols, hrows⟩ | ⟨rfl, hsame⟩
      · suffices hbody : Ensures env w₁ _ fun (_ : Unit) w' =>
            RolesChanged gid me Role.enrol Role.enrol w w' from
          hbody.bind fun _ w' h => ensures_pure (.inr ⟨fun _ => henrols, h⟩)
        refine (rolesChanged_of_adjust gid me (fun grp u => role_add_member me u grp) _).bind
          fun _ w₂ h₂ => ?_
        refine ((keeps_roles (delete_group_invite gid me) (by simp)).lift _).bind
          fun _ w₃ h₃ => ensures_pure ?_
        exact (hrows.comp h₂).trans h₃
      · exact .inl hsame
    | false =>
      -- without a database a group that is not known stays unknown
      refine .inr ⟨fun h => absurd h Bool.false_ne_true, fun g u => ?_, fun g u => ?_, fun _ => rfl,
        le_rfl⟩
      · exact role?_adjust gid me g u (fun grp u => role_add_member me u grp) rfl
      · exact (Role.at_id ..).symm
  refine (hjoin.lift _).bind fun ok w₁ h₁ => ?_
  suffices hbody : Ensures env w₁ _ fun (_ : Unit) w' => RolesSame w₁ w' by
    refine hbody.bind fun _ w' h => ensures_pure ?_
    exact h₁.imp (fun hsame => hsame.trans h) fun hjoined => ⟨hjoined.1, hjoined.2.trans h⟩
  refine ensures_ite (fun _ => reply_roles ..) fun _ => ?_
  refine ((keeps_roles (notify_joined me gid) (by simp)).lift _).bind fun _ w₂ h₂ => ?_
  exact (reply_roles ..).mono fun _ _ h => h₂.trans h

/-- `REMOVE_FROM_GROUP` by the user itself or by an admin, or nothing. -/
theorem remove_from_group_roles (htx : w.db.tx = none) :
    Ensures env w (remove_from_group pg fd me gid uid) fun _ w' => RolesSame w w' ∨
      RolesChanged gid uid Role.clear (Role.stored pg Role.clear) w w' := by
  have hpermitted : Ensures env w (may_remove pg me gid uid) fun ok w₁ =>
      pg = false → ok = true → w₁.mem.g_groups.count gid = true := by
    cases pg with
    | true => exact fun h => absurd h.symm Bool.false_ne_true
    | false =>
      intro _ hok
      replace hok : (if uid = me then w.mem.g_groups.count gid else w.mem.hasAdmin gid me) = true :=
        hok
      split at hok
      · exact hok
      · exact count_of_hasAdmin me gid hok
  refine ((((keeps_roles (may_remove pg me gid uid) (by simp)).and (ensures_frame _)).and
    hpermitted).lift _).bind fun permitted w₁ h₁ => ?_
  obtain ⟨⟨hsame, hframe⟩, hknown⟩ := h₁
  have htx₁ : w₁.db.tx = none := hframe .tx (by simp) htx
  suffices hbody : Ensures env w₁ _ fun (_ : Unit) w' => RolesSame w₁ w' ∨
      RolesChanged gid uid Role.clear (Role.stored pg Role.clear) w₁ w' from
    hbody.bind fun _ w' h => ensures_pure
      (h.imp hsame.trans fun h => hsame.changed.comp h)
  refine ensures_ite (fun _ => (reply_roles ..).mono fun _ _ h => .inl h) fun hok => ?_
  replace hknown := fun hpg => hknown hpg (by simpa using hok)
  refine ((persist_removal_roles gid uid pg htx₁).lift _).bind fun removed w₂ h₂ => ?_
  rcases h₂ with ⟨rfl, -, hchanged⟩ | ⟨rfl, hsame₂⟩
  · refine ((announce_roles pg gid _ fun hpg =>
      (hchanged.count gid).trans (hknown hpg)).lift _).bind fun _ w₃ h₃ => ?_
    refine ((keeps_roles (deliver _ uid) (by simp)).lift _).bind fun _ w₄ h₄ => ?_
    refine ((keeps_roles (remaining_members pg gid) (by simp)).lift _).bind
      fun members w₅ h₅ => ?_
    refine ((keeps_roles (deliver_all _ members) (by simp)).lift _).bind fun _ w₆ h₆ => ?_
    refine (reply_roles ..).mono fun _ w₇ h₇ => .inr ?_
    exact hchanged.trans (h₃.trans (h₄.trans (h₅.trans (h₆.trans h₇))))
  · exact (reply_roles ..).mono fun _ _ h => .inl (hsame₂.trans h)

/-- Who may promote: the database's admins, or memory's. -/
def World.mayPromote (w : World) (gid me : Int) : Bool :=
  if pg then w.db.tables.isAdmin gid me else w.mem.hasAdmin gid me

/-- `MAKE_ADMIN` by an admin, or nothing. -/
theorem make_admin_roles (htx : w.db.tx = none) :
    Ensures env w (make_admin pg fd me gid uid) fun _ w' => RolesSame w w' ∨
      (w.mayPromote pg gid me = true ∧
        RolesChanged gid uid Role.crown (Role.stored pg Role.crownMember) w w') := by
  have hpermitted : Ensures env w (may_promote pg me gid) fun ok w₁ => ok = true →
      w.mayPromote pg gid me = true ∧ (pg = false → w₁.mem.g_groups.count gid = true) := by
    cases pg with
    | true =>
      refine (select_answer _).bind fun res w₁ hres => ensures_pure fun hok => ?_
      refine ⟨?_, fun h => absurd h.symm Bool.false_ne_true⟩
      rcases hres with rfl | rfl
      · exact absurd hok Bool.false_ne_true
      · exact hok
    | false => exact fun hok => ⟨hok, fun _ => count_of_hasAdmin me gid hok⟩
  refine ((((keeps_roles (may_promote pg me gid) (by simp)).and (ensures_frame _)).and
    hpermitted).lift _).bind fun permitted w₁ h₁ => ?_
  obtain ⟨⟨hsame, hframe⟩, hknown⟩ := h₁
  have htx₁ : w₁.db.tx = none := hframe .tx (by simp) htx
  suffices hbody : Ensures env w₁ _ fun (_ : Unit) w' => RolesSame w₁ w' ∨
      (w.mayPromote pg gid me = true ∧
        RolesChanged gid uid Role.crown (Role.stored pg Role.crownMember) w₁ w') from
    hbody.bind fun _ w' h => ensures_pure
      (h.imp hsame.trans fun h => ⟨h.1, hsame.changed.comp h.2⟩)
  refine ensures_ite (fun _ => (reply_roles ..).mono fun _ _ h => .inl h) fun hok => ?_
  obtain ⟨hmay, hknown⟩ := hknown (by simpa using hok)
  refine ((persist_admin_roles gid uid pg htx₁).lift _).bind fun updated w₂ h₂ => ?_
  rcases h₂ with ⟨rfl, -, hchanged⟩ | ⟨rfl, hsame₂⟩
  · refine ((announce_roles pg gid _ fun hpg =>
      (hchanged.count gid).trans (hknown hpg)).lift _).bind fun members w₃ h₃ => ?_
    refine ((keeps_roles (deliver_all _ members) (by simp)).lift _).bind fun _ w₄ h₄ => ?_
    exact (reply_roles ..).mono fun _ w₅ h₅ =>
      .inr ⟨hmay, hchanged.trans (h₃.trans (h₄.trans h₅))⟩
  · exact (reply_roles ..).mono fun _ _ h => .inl (hsame₂.trans h)

/-- A new name changes no role. -/
theorem rename_group_command_roles (newName : Bytes) (htx : w.db.tx = none) :
    Ensures env w (handle_client.rename_group pg fd me gid newName)
      fun _ w' => RolesSame w w' := by
  refine Ensures.bind (R := fun ok w₁ => RolesSame w w₁ ∧ w₁.db = w.db ∧
    (ok = true → w₁.mem.g_groups.count gid = true)) (Ensures.locked (ensures_read ?_))
    fun ok w₁ h₁ => ?_
  · refine Ensures.bind (R := fun _ w₁ => RolesSame w w₁ ∧ w₁.db = w.db)
      (ensures_when (fun _ => ⟨⟨fun g u => ?_, fun _ _ => rfl, fun _ => rfl, le_rfl⟩, rfl⟩)
        fun _ => ⟨RolesSame.refl w, rfl⟩) fun _ w₁ h₁ => ensures_pure ⟨h₁.1, h₁.2, fun hok => ?_⟩
    · exact role?_adjust_same gid g u (F := fun grp => { grp with name := newName })
        (fun _ _ => rfl) rfl
    · exact (h₁.1.count gid).trans (count_of_hasMember me gid hok)
  obtain ⟨hsame, hdb, hknown⟩ := h₁
  suffices hbody : Ensures env w₁ _ fun (_ : Unit) w' => RolesSame w₁ w' from
    hbody.bind fun _ w' h => ensures_pure (hsame.trans h)
  refine ensures_ite (fun _ => reply_roles ..) fun hok => ?_
  replace hknown := hknown (by simpa using hok)
  refine Ensures.bind (R := fun _ w₂ => RolesSame w₁ w₂) (ensures_when (fun _ => ?_) fun _ =>
    RolesSame.refl w₁) fun _ w₂ h₂ => ?_
  · exact ((rename_group_roles gid newName (by rw [hdb, htx])).lift _).bind
      fun _ _ h => ensures_pure h
  refine ((announce_roles pg gid _ fun _ => (h₂.count gid).trans hknown).lift _).bind
    fun members w₃ h₃ => ?_
  refine ((keeps_roles (deliver_all _ members) (by simp)).lift _).bind fun _ w₄ h₄ => ?_
  exact (reply_roles ..).mono fun _ w₅ h₅ => h₂.trans (h₃.trans (h₄.trans h₅))

/-- And neither does a nickname. -/
theorem set_group_nickname_command_roles (nick : Bytes) (htx : w.db.tx = none) :
    Ensures env w (handle_client.set_group_nickname pg fd me gid uid nick)
      fun _ w' => RolesSame w w' := by
  refine Ensures.bind (R := fun _ w₁ => RolesSame w w₁) (Ensures.locked (ensures_read ?_))
    fun ok w₁ h₁ => ?_
  · refine Ensures.bind (R := fun _ w₁ => RolesSame w w₁ ∧ w₁.db = w.db)
      (ensures_when (fun _ => ⟨⟨fun g u => ?_, fun _ _ => rfl, fun _ => rfl, le_rfl⟩, rfl⟩)
        fun _ => ⟨RolesSame.refl w, rfl⟩) fun _ w₁ h₁ => ?_
    · exact role?_adjust_same gid g u
        (F := fun grp => { grp with member_nicknames := grp.member_nicknames.set uid nick })
        (fun _ _ => rfl) rfl
    refine Ensures.bind (R := fun _ w₂ => RolesSame w₁ w₂) (ensures_when (fun _ => ?_) fun _ =>
      RolesSame.refl w₁) fun _ w₂ h₂ => ensures_pure (h₁.1.trans h₂)
    exact ((set_group_nickname_roles gid uid nick (by rw [h₁.2, htx])).lift _).bind
      fun _ _ h => ensures_pure h
  suffices hbody : Ensures env w₁ _ fun (_ : Unit) w' => RolesSame w₁ w' from
    hbody.bind fun _ w' h => ensures_pure (h₁.trans h)
  refine ensures_ite (fun _ => reply_roles ..) fun _ => ?_
  have hannounce : Ensures env w₁ (announce_nickname pg me gid uid nick)
      fun _ w' => RolesSame w₁ w' := by
    refine Ensures.bind (R := fun _ w₂ => RolesSame w₁ w₂)
      ⟨fun _ _ => rfl, fun _ _ => rfl, fun _ => rfl, le_rfl⟩ fun ts_ms w₂ h₂ => ?_
    refine Ensures.bind (R := fun _ w₃ => w₃ = w₂) (Ensures.locked rfl) fun names w₃ h₃ => ?_
    subst h₃
    refine Ensures.bind (R := fun _ w₃ => RolesSame w₁ w₃) (ensures_when (fun _ => ?_) fun _ => h₂)
      fun _ w₄ h₄ => ?_
    · exact ((keeps_roles (save_group_message gid 0 _ ts_ms) (by simp)).lift _).bind
        fun _ _ h => ensures_pure (h₂.trans h)
    refine Ensures.bind (R := fun _ w₅ => w₅ = w₄) (Ensures.locked rfl) fun members w₅ h₅ => ?_
    subst h₅
    exact ((keeps_roles (deliver_all _ members) (by simp)).lift _).mono fun _ _ h => h₄.trans h
  refine (hannounce.lift _).bind fun _ w₂ h₂ => ?_
  exact (reply_roles ..).mono fun _ w₃ h₃ => h₂.trans h₃

/-- `LEAVE_GROUP` of a group that memory has. -/
theorem leave_group_roles (htx : w.db.tx = none) :
    Ensures env w (leave_group pg fd me gid) fun _ w' => RolesSame w w' ∨
      (w.mem.g_groups.count gid = true ∧ RolesLeft pg env gid me w w') := by
  refine Ensures.bind (R := fun r w₁ => r.1 = w.mem.g_groups.count gid ∧
    w₁.mem.g_groups = leave gid me w.mem.g_groups ∧ w₁.db = w.db)
    (Ensures.locked ⟨rfl, rfl, rfl⟩) fun r w₁ h₁ => ?_
  obtain ⟨ok, deleted⟩ := r
  obtain ⟨hok, hleave, hdb⟩ := h₁
  have hmemory := fun g u => role?_leave gid me g u hleave
  have hreply : ∀ (persisted : Bool) (w₂ : World), Ensures env w₂ (andNext
      (if !persisted then reply fd .ERROR (str "Leave failed (db)") (u32 me)
        else reply fd .SUCCESS (if deleted then str "Group deleted" else str "Left group") (u32 me))
      : Prog leave_writes Outcome) fun _ w' => RolesSame w₂ w' := fun persisted w₂ => by
    refine Ensures.bind (R := fun _ w' => RolesSame w₂ w')
      (ensures_ite (fun _ => reply_roles ..) fun _ => reply_roles ..) fun _ w' h => ensures_pure h
  have hdb₁ : w₁.db.tables = w.db.tables := by rw [hdb]
  refine ensures_ite (fun hpersist => ?_) fun hskip => ?_
  · -- the database is asked to delete the row
    obtain ⟨hok', rfl⟩ : ok = true ∧ pg = true := by simpa using hpersist
    refine ((remove_group_member_roles gid me (by rw [hdb, htx])).lift _).bind
      fun persisted w₂ h₂ => (hreply persisted w₂).mono fun _ w₃ h₃ => ?_
    refine .inr ⟨hok.symm.trans hok', RolesLeft.trans ?_ h₃⟩
    rcases h₂ with ⟨-, hrows⟩ | ⟨-, hfails, hrows⟩
    · refine ⟨fun g u => ?_, ⟨Role.clear, .inr rfl, fun _ _ => rfl, fun g u => ?_⟩,
        fun g => by rw [hrows.groups, hdb₁], by rw [← hdb₁]; exact hrows.next⟩
      · rw [hrows.memory, ← hmemory, show Role.at gid me id g u = id from
          funext fun c => Role.at_id .., Option.map_id, id]
      · rw [hrows.rows, hdb₁]
    · refine ⟨fun g u => by rw [hrows.memory, ← hmemory],
        ⟨id, .inl rfl, fun _ hs => absurd hs hfails, fun g u => ?_⟩,
        fun g => by rw [hrows.groups, hdb₁], by rw [← hdb₁]; exact hrows.next⟩
      rw [hrows.rows, hdb₁, Role.at_id]
  · refine Ensures.bind (R := fun _ w₂ => w₂ = w₁) rfl fun persisted w₂ h₂ => ?_
    subst h₂
    refine (hreply persisted w₂).mono fun _ w₃ h₃ => ?_
    cases hfound : ok with
    | true =>
      have hpg : pg = false := by simpa [hfound] using hskip
      refine .inr ⟨hok.symm.trans hfound, RolesLeft.trans ?_ h₃⟩
      refine ⟨hmemory, ⟨id, .inl rfl, fun h => absurd h (by simp [hpg]), fun g u => ?_⟩,
        fun g => by rw [hdb₁], by rw [hdb₁]⟩
      rw [hdb₁, Role.at_id]
    | false =>
      -- memory does not have the group, and nothing was done
      have hnone : w.mem.g_groups.find? gid = none := by
        rw [hfound, UMap.count] at hok
        exact Option.not_isSome_iff_eq_none.mp (by rw [← hok]; exact Bool.false_ne_true)
      refine .inl (RolesSame.trans (rolesSame_of_tables ?_ hdb₁) h₃)
      rw [hleave, leave, hnone]

/-! ## `CREATE_GROUP` -/

/-- The rows of a group after the ids in `done` were added. -/
def Role.joined (d : Tables) (done : List Int) (u : Int) (c : Role) : Role :=
  { c with member := c.member || decide (u ∈ done ∧ d.hasUser u = true) }

/-- What adding the ids in `done` to the group `gid` does to the rows. A row that is not there
before names a user; where nothing fails, exactly the users among the ids have joined. -/
structure RowsJoined (env : Env) (gid : Int) (w : World) (done : List Int) (w' : World) : Prop where
  tx : w'.db.tx = none
  tables : ∃ m, w'.db.tables = { w.db.tables with group_members := m }
  bound : ∀ g u, w'.db.tables.isMember g u = true →
    w.db.tables.isMember g u = true ∨ w.db.tables.hasUser u = true
  exact : env.SqlSucceeds → w.db.tables.hasGroup gid = true → ∀ g u, w'.db.tables.role g u =
    if g = gid then (w.db.tables.role g u).joined w.db.tables done u else w.db.tables.role g u

/-- A row that was inserted: one more id has joined. -/
theorem RowsJoined.inserted {w₁ w' : World} {done : List Int}
    (h : RowsJoined env gid w done w₁) (htx : w'.db.tx = none)
    (hins : (insert_group_member gid uid w₁.db.tables).1 = some ())
    (hrows : w'.db.tables = { w₁.db.tables with
      group_members := (insert_group_member gid uid w₁.db.tables).2 }) :
    RowsJoined env gid w (done ++ [uid]) w' := by
  obtain ⟨m, htables⟩ := h.tables
  have huser : ∀ u, w₁.db.tables.hasUser u = w.db.tables.hasUser u := fun u => by rw [htables]; rfl
  have hrole := fun g u =>
    @role_insert w₁.db.tables w'.db.tables gid uid g u hins (by rw [hrows])
  have henrols := (hrole 0 0).2
  refine ⟨htx, ⟨_, by rw [hrows, htables]⟩, fun g u hrow => ?_, fun hs hg g u => ?_⟩
  · have hmember : (Role.at gid uid Role.enrol g u (w₁.db.tables.role g u)).member = true := by
      rw [← (hrole g u).1]
      exact hrow
    rw [Role.at] at hmember
    split at hmember
    · next hgu =>
      obtain ⟨rfl, rfl⟩ := hgu
      rcases henrols with hold | hrefs
      · exact h.bound g u hold
      · exact .inr (by rw [← huser]; exact hrefs.2)
    · exact h.bound g u hmember
  · rw [(hrole g u).1, h.exact hs hg g u, Role.at]
    by_cases hgid : g = gid
    · subst hgid
      rw [if_pos rfl, if_pos rfl]
      split
      · next hgu =>
        -- the id that was added: it had a row, or it is a user
        obtain ⟨-, rfl⟩ := hgu
        have hmember := congrArg Role.member (h.exact hs hg g u)
        rw [if_pos rfl] at hmember
        rcases henrols with hold | ⟨-, hu⟩
        · have hjoined := hmember.symm.trans hold
          simp only [Role.joined, Bool.or_eq_true, decide_eq_true_eq] at hjoined
          rcases hjoined with hold | hnew <;> simp [Role.joined, Role.enrol, *]
        · rw [huser] at hu
          simp [Role.joined, Role.enrol, hu]
      · next hgu =>
        have hne : u ≠ uid := fun h => hgu ⟨rfl, h⟩
        simp [Role.joined, hne]
    · rw [if_neg hgid, if_neg hgid, if_neg fun h => hgid h.1]

/-- A row that was refused: where nothing fails, its id is no user's. -/
theorem RowsJoined.refused {w₁ w' : World} {done : List Int}
    (h : RowsJoined env gid w done w₁) (htx : w'.db.tx = none)
    (hrefused : env.SqlSucceeds → (insert_group_member gid uid w₁.db.tables).1 = none)
    (hrows : w'.db.tables = w₁.db.tables) : RowsJoined env gid w (done ++ [uid]) w' := by
  obtain ⟨m, htables⟩ := h.tables
  refine ⟨htx, ⟨m, by rw [hrows, htables]⟩, fun g u hrow => h.bound g u (by rw [← hrows]; exact hrow),
    fun hs hg g u => ?_⟩
  have hno : w.db.tables.hasUser uid = false := by
    by_contra hyes
    have hnone := hrefused hs
    unfold insert_group_member at hnone
    have huser : w₁.db.tables.hasUser uid = true := by
      rw [htables]
      exact Bool.of_not_eq_false hyes
    have hgroup : w₁.db.tables.hasGroup gid = true := by
      rw [htables]
      exact hg
    rw [huser, hgroup] at hnone
    split at hnone <;> exact absurd hnone (by simp)
  rw [hrows, h.exact hs hg g u]
  by_cases hu : u = uid
  · subst hu
    simp [Role.joined, hno]
  · simp [Role.joined, hu]

/-- Every id listed is added, if it is a user's. -/
theorem add_listed_roles (ids : List Int) (htx : w.db.tx = none) :
    Ensures env w (ids.forM fun memberId => do
        let _ ← add_group_member gid memberId
        pure () : Prog [.table .group_members, .table .activity_logs] Unit)
      fun _ w' => RowsJoined env gid w ids w' := by
  refine Prog.run_forM env w (I := fun (done : List Int) w' => RowsJoined env gid w done w') ?_
    fun done uid w₁ _ h₁ => ?_
  · refine ⟨htx, ⟨_, rfl⟩, fun _ _ h => .inl h, fun _ _ g u => ?_⟩
    simp [Role.joined]
  suffices hbody : Ensures env w₁ _ fun (_ : Unit) w' => RowsJoined env gid w (done ++ [uid]) w' from
    hbody
  refine (add_group_member_ensures gid uid h₁.tx).bind fun _ w₂ h₂ => ensures_pure ?_
  rcases h₂.2 with ⟨-, hins, hrows⟩ | ⟨-, hrows, hrefused⟩
  · exact h₁.inserted gid uid h₂.1 hins hrows
  · exact h₁.refused gid uid h₂.1 hrefused hrows

/-- The creator's row is made an admin's, and the ids listed are added. -/
theorem add_members_roles (ids : List Int) (htx : w.db.tx = none) :
    Ensures env w (add_members me gid ids) fun _ w' =>
      (∃ m, w'.db.tables = { w.db.tables with group_members := m }) ∧
      (∀ g u, w'.db.tables.isMember g u = true →
        w.db.tables.isMember g u = true ∨ w.db.tables.hasUser u = true) ∧
      (env.SqlSucceeds → w.db.tables.hasGroup gid = true → ∀ g u, w'.db.tables.role g u =
        if g = gid then
          (Role.at gid me Role.crownMember g u (w.db.tables.role g u)).joined w.db.tables ids u
        else w.db.tables.role g u) := by
  refine ((set_group_admin_roles gid me htx).lift _).bind fun _ w₁ h₁ => ?_
  obtain ⟨htx₁, hdb⟩ := h₁
  have hmember : ∀ g u, w₁.db.tables.isMember g u = w.db.tables.isMember g u := by
    intro g u
    rcases hdb with ⟨-, hcrown, -⟩ | ⟨-, -, -, htables⟩
    · have hrow := congrArg Role.member (hcrown.rows g u)
      refine Eq.trans hrow ?_
      rw [Role.at]
      split <;> rfl
    · rw [htables]
  have htables : ∃ m, w₁.db.tables = { w.db.tables with group_members := m } := by
    rcases hdb with ⟨-, -, htables⟩ | ⟨-, -, -, htables⟩
    · exact htables
    · exact ⟨_, htables⟩
  obtain ⟨m, htables⟩ := htables
  refine (add_listed_roles gid ids htx₁).mono fun _ w₂ h₂ => ?_
  obtain ⟨m', htables'⟩ := h₂.tables
  refine ⟨⟨m', by rw [htables', htables]⟩, fun g u hrow => ?_, fun hs hg g u => ?_⟩
  · have h := h₂.bound g u hrow
    rw [hmember, htables] at h
    exact h
  · rcases hdb with ⟨-, hcrown, -⟩ | ⟨-, hfails, -⟩
    · rw [h₂.exact hs (by rw [htables]; exact hg), hcrown.rows, htables]
      split
      · rfl
      · next hgid => rw [Role.at, if_neg fun h => hgid h.1]
    · exact absurd hs hfails

/-- What the database part of `CREATE_GROUP` does to the rows. -/
structure RowsFounded (env : Env) (me : Int) (ids : List Int) (w : World) (gid : Option Int)
    (w' : World) : Prop where
  id : ∀ g, gid = some g → g = w.db.tables.groups.next ∧ w.db.tables.hasUser me = true
  refused : gid = none → (∀ g u, w'.db.tables.role g u = w.db.tables.role g u) ∧
    ∀ g, w'.db.tables.hasGroup g = w.db.tables.hasGroup g
  bound : ∀ g u, w'.db.tables.isMember g u = true →
    w.db.tables.isMember g u = true ∨ w.db.tables.hasUser u = true
  next : w.db.tables.groups.next ≤ w'.db.tables.groups.next
  stored : gid.isSome = true → env.SqlSucceeds →
    w.db.tables.groups.next < w'.db.tables.groups.next ∧
    (∀ g, w'.db.tables.hasGroup g = true → w.db.tables.hasGroup g = true ∨
      g = w.db.tables.groups.next) ∧
    ∀ g u, w'.db.tables.role g u = if g = w.db.tables.groups.next
      then (w.db.tables.role g u).founded w.db.tables me ids u else w.db.tables.role g u

theorem create_group_db_roles (name : Bytes) (ids : List Int) (htx : w.db.tx = none) :
    Ensures env w (create_group_db me name ids) fun gid w' => RowsFounded env me ids w gid w' := by
  refine (create_group_ensures name me htx).bind fun gid w₁ h₁ => ?_
  obtain ⟨htx₁, hdb⟩ := h₁
  cases gid with
  | none =>
    rcases hdb with ⟨hgid, -⟩ | ⟨⟨n, hn, htables⟩, -, -⟩
    · cases hgid
    · refine ensures_pure ⟨fun g h => absurd h (by simp), fun _ => ⟨fun g u => ?_, fun g => ?_⟩,
        fun g u h => .inl ?_, ?_, fun h => absurd h (by simp)⟩
      · rw [htables]; rfl
      · rw [htables]; rfl
      · rw [htables] at h; exact h
      · rw [htables]; exact hn
  | some gid =>
    refine Ensures.bind (ensures_when (fun _ => (add_members_roles me gid ids htx₁).lift _)
      fun h => absurd h (by simp)) fun _ w₂ h₂ => ensures_pure ?_
    obtain ⟨⟨m, hm⟩, hbound, hexact⟩ := h₂
    rcases hdb with ⟨hgid, huser, htables⟩ | ⟨⟨n, hn, htables⟩, hid, hfails⟩
    · -- the group is there, with its creator
      cases hgid
      have hins := @insert_creator_some name me _ huser
      have hcreated := fun g u => (@role_insert (w.db.tables.withGroupRow name me) w₁.db.tables
        w.db.tables.groups.next me g u hins (by rw [htables]; rfl)).1
      refine ⟨fun g h => ⟨(Option.some.inj h).symm, huser⟩, fun h => absurd h (by simp),
        fun g u hrow => ?_, ?_, fun _ hs => ⟨?_, fun g hg => ?_, fun g u => ?_⟩⟩
      · rcases hbound g u hrow with hrow | hu
        · have hmember := congrArg Role.member (hcreated g u)
          rw [Role.at] at hmember
          split at hmember
          · next hgu => exact .inr (by rw [hgu.2]; exact huser)
          · exact .inl (hmember.symm.trans hrow)
        · rw [htables] at hu
          exact .inr hu
      · rw [hm, htables]
        show _ ≤ w.db.tables.groups.next + 1
        omega
      · rw [hm, htables]
        show _ < w.db.tables.groups.next + 1
        omega
      · rw [hm, htables] at hg
        replace hg : (w.db.tables.groups.rows ++ [_]).any _ = true := hg
        rw [List.any_append, Bool.or_eq_true] at hg
        refine hg.imp_right fun h => ?_
        simpa [eq_comm] using h
      · have hgroup : w₁.db.tables.hasGroup w.db.tables.groups.next = true := by
          rw [htables]
          simp [Tables.hasGroup, Tables.withGroup, Tables.withGroupRow]
        rw [hexact hs hgroup, hcreated]
        show (if _ then (Role.at _ _ _ _ _ (Role.at _ _ _ _ _ (w.db.tables.role g u))).joined _ _ _
          else _) = _
        split
        · next hg =>
          rw [Role.at_comp, Role.at, hg]
          have husers : w₁.db.tables.hasUser u = w.db.tables.hasUser u := by rw [htables]; rfl
          by_cases hu : u = me
          · simp [hu, Role.joined, Role.founded, Role.crownMember, Role.enrol]
          · simp [hu, Role.joined, Role.founded, husers]
        · next hg =>
          rw [Role.at, if_neg fun h => hg h.1]
          rfl
    · -- it was rolled back, and the id says nothing
      refine ⟨hid, fun h => absurd h (by simp), fun g u hrow => ?_, ?_, fun _ hs => ?_⟩
      · have h := hbound g u hrow
        rw [htables] at h
        exact h
      · rw [hm, htables]
        exact hn
      · exact absurd (hfails hs).2 (by simp)

/-- The second critical section writes the group into memory. -/
theorem populate_group_roles (name : Bytes) (ids : List Int) :
    Ensures env w (populate_group pg me gid name ids) fun _ w' =>
      (∀ g u, w'.mem.role? g u = if g = gid
        then some ⟨decide (u = me ∨ (u ∈ ids ∧ (pg = true → w.mem.isFriend me u = true))),
          decide (u = me)⟩
        else w.mem.role? g u) ∧ w'.db = w.db := by
  refine Ensures.locked (ensures_read ⟨fun g u => ?_, rfl⟩)
  show ((w.mem.g_groups.set gid _).find? g).map _ = _
  rw [UMap.find?_set]
  split
  · rw [Option.map_some, role_new_group]
    cases pg <;> simp
  · rfl

/-- What follows once the group has its id: the reply and the announcement change no role. -/
theorem announce_group_roles (name : Bytes) (ids : List Int) (hgid : gid ≠ -1) :
    Ensures env w (announce_group pg fd me name ids gid) fun _ w' =>
      ∃ w₁, ((∀ g u, w₁.mem.role? g u = if g = gid
          then some ⟨decide (u = me ∨ (u ∈ ids ∧ (pg = true → w.mem.isFriend me u = true))),
            decide (u = me)⟩
          else w.mem.role? g u) ∧ w₁.db = w.db) ∧ RolesSame w₁ w' := by
  refine ensures_ite (fun h => absurd h hgid) fun _ => ?_
  refine ((populate_group_roles me gid pg name ids).lift _).bind fun _ w₁ h₁ => ?_
  have hknown : w₁.mem.g_groups.count gid = true := by
    rw [count_eq_role?, h₁.1, if_pos rfl]
    rfl
  refine (reply_roles ..).bind fun _ w₂ h₂ => ?_
  refine (announce_roles pg gid _ fun _ => (h₂.count gid).trans hknown).bind
    fun _ w₃ h₃ => ensures_pure ?_
  exact ⟨w₁, h₁, h₂.trans h₃⟩

/-- `CREATE_GROUP`, or nothing. -/
theorem create_group_roles (name : Option Bytes) (ids : List Int) (htx : w.db.tx = none)
    (hserial : pg = true → 0 < w.db.tables.groups.next) :
    Ensures env w (handle_client.create_group pg fd me name ids) fun _ w' => RolesSame w w' ∨
      RolesFounded pg env me ids w w' := by
  have hname : Ensures env w (group_name name) fun _ w₁ => w₁.mem = w.mem ∧ w₁.db = w.db := by
    cases name <;> exact ⟨rfl, rfl⟩
  refine (hname.lift _).bind fun name w₁ h₁ => ?_
  obtain ⟨hmem₁, hdb₁⟩ := h₁
  have hsame : ∀ {w'}, RolesSame w₁ w' → RolesSame w w' := fun h =>
    RolesSame.trans (rolesSame_of_tables (by rw [hmem₁]) (by rw [hdb₁])) h
  cases pg with
  | true =>
    refine (((create_group_db_roles me name ids (by rw [hdb₁, htx])).and (ensures_frame _)).lift _).bind
      fun gid w₂ h₂ => ?_
    obtain ⟨hrows, hframe⟩ := h₂
    have hgroups : w₂.mem.g_groups = w₁.mem.g_groups :=
      hframe (.var .g_groups) (by simp [all_tables])
    have hfriends : ∀ u, w₂.mem.isFriend me u = w₁.mem.isFriend me u := fun u =>
      congrArg (fun g : Friends => (g.get me).get u) (hframe (.var .g_friends) (by simp [all_tables]))
    cases gid with
    | none =>
      refine Ensures.bind (R := fun _ w' => RolesSame w₂ w')
        ((ensures_ite (fun _ => reply_roles ..) fun h => absurd rfl h).lift _)
        fun _ w' h => ensures_pure (.inl (hsame (RolesSame.trans ?_ h)))
      obtain ⟨hroles, hids⟩ := hrows.refused rfl
      refine ⟨fun g u => ?_, hroles, hids, hrows.next⟩
      rw [ServerState.role?, ServerState.role?, hgroups]
    | some gid =>
      obtain ⟨hgid, huser⟩ := hrows.id gid rfl
      rw [hdb₁] at hgid huser
      have hne : gid ≠ -1 := by
        have hpos := hserial rfl
        omega
      refine ((announce_group_roles fd me gid true name ids hne).lift _).bind
        fun _ w' h => ensures_pure (.inr ?_)
      obtain ⟨w₃, ⟨hmemory, hdb₃⟩, hlast⟩ := h
      refine RolesFounded.trans ⟨fun _ => huser, fun g u => ?_, fun g u => ?_, ?_, fun _ hs => ?_⟩ hlast
      · rw [hmemory, hfriends, hmem₁, ServerState.role?, hgroups, hmem₁, hgid]
        rfl
      · rw [hdb₃, ← hdb₁]
        exact hrows.bound g u
      · rw [hdb₃, ← hdb₁]
        exact hrows.next
      · rw [hdb₃, ← hdb₁]
        exact hrows.stored rfl hs
  | false =>
    have hcreate : Ensures env w₁ (create_group_mem me name ids) fun gid w₂ =>
        gid = some w₁.mem.g_next_group_id ∧ (∀ g u, w₂.mem.role? g u =
          if g = w₁.mem.g_next_group_id
          then some ⟨decide (u = me ∨ u ∈ ids), decide (u = me)⟩ else w₁.mem.role? g u) ∧
        w₂.db = w₁.db := by
      refine Ensures.locked ⟨rfl, fun g u => ?_, rfl⟩
      show ((w₁.mem.g_groups.set w₁.mem.g_next_group_id _).find? g).map _ = _
      rw [UMap.find?_set]
      split
      · rw [Option.map_some, role_new_group]
      · rfl
    refine (hcreate.lift _).bind fun gid w₂ h₂ => ?_
    obtain ⟨rfl, hmemory, hdb₂⟩ := h₂
    suffices hbody : Ensures env w₂ (announce_group false fd me name ids w₁.mem.g_next_group_id)
        fun _ w' => ∃ w₃, (∀ g u, w₃.mem.role? g u = w₂.mem.role? g u) ∧ w₃.db = w₂.db ∧
          RolesSame w₃ w' by
      refine (hbody.lift _).bind fun _ w' h => ensures_pure (.inr ?_)
      obtain ⟨w₃, hmem₃, hdb₃, hlast⟩ := h
      refine RolesFounded.trans ⟨fun h => absurd h Bool.false_ne_true, fun g u => ?_, fun g u h => ?_,
        ?_, fun h => absurd h Bool.false_ne_true⟩ hlast
      · rw [hmem₃, hmemory, hmem₁]
        simp [World.newGroupId]
      · rw [hdb₃, hdb₂, hdb₁] at h
        exact .inl h
      · rw [hdb₃, hdb₂, hdb₁]
    by_cases hgid : w₁.mem.g_next_group_id = -1
    · -- the reply is an error, but the group is there
      refine ensures_ite (fun _ => ?_) fun h => absurd hgid h
      exact (reply_roles ..).mono fun _ w' h => ⟨w₂, fun _ _ => rfl, rfl, h⟩
    · refine (announce_group_roles fd me _ false name ids hgid).mono fun _ w' h => ?_
      obtain ⟨w₃, ⟨hmem₃, hdb₃⟩, hlast⟩ := h
      refine ⟨w₃, fun g u => ?_, hdb₃, hlast⟩
      rw [hmem₃, hmemory]
      split <;> simp [*]

end Cases

/-! ## What each step does to them -/

/-- What an event does to the roles: one of six things. -/
inductive GroupChange (pg : Bool) (env : Env) (w : World) (e : Event) (w' : World) : Prop where
  | same (change : RolesSame w w')
  | founded (fd rid me : Int) (name : Option Bytes) (ids : List Int)
    (opened : w.conns.find? fd = some me)
    (command : e.command pg w = some (fd, rid, .create_group name ids))
    (change : RolesFounded pg env me ids w w')
  | enrolled (gid uid : Int) (allowed : pg = true → w.db.tables.enrols gid uid)
    (change : RolesChanged gid uid Role.enrol (Role.stored pg Role.enrol) w w')
  | cleared (gid uid : Int)
    (change : RolesChanged gid uid Role.clear (Role.stored pg Role.clear) w w')
  | crowned (fd rid me gid uid : Int) (opened : w.conns.find? fd = some me)
    (command : e.command pg w = some (fd, rid, .make_admin gid uid))
    (permitted : w.mayPromote pg gid me = true)
    (change : RolesChanged gid uid Role.crown (Role.stored pg Role.crownMember) w w')
  | left (fd rid me gid : Int) (opened : w.conns.find? fd = some me)
    (command : e.command pg w = some (fd, rid, .leave_group gid))
    (known : w.mem.g_groups.count gid = true) (change : RolesLeft pg env gid me w w')

section Steps

variable {pg : Bool} {env : Env} {w w' : World} {e : Event}

theorem end_connection_roles (fd : Int) (w : World) : RolesSame w (end_connection env fd w) :=
  rolesSame_of_frame fun x hx => end_connection_frame fd w (by
    simp only [List.mem_cons, List.not_mem_nil, or_false] at hx
    rcases hx with rfl | rfl | rfl <;> simp)

/-- **The effect of a step on the roles.** -/
theorem Server.groupChange (htx : w.db.tx = none)
    (hserial : pg = true → 0 < w.db.tables.groups.next)
    (hs : Server.step pg env w e = some w') : GroupChange pg env w e w' := by
  cases Server.move_of_step pg env hs with
  | accepted fd valid unused => exact .same ⟨fun _ _ => rfl, fun _ _ => rfl, fun _ => rfl, le_rfl⟩
  | hungup fd me opened => exact .same (end_connection_roles fd w)
  | refused fd me r opened invalid =>
    refine .same (RolesSame.trans ?_ (end_connection_roles fd _))
    exact ⟨fun _ _ => rfl, fun _ _ => rfl, fun _ => rfl, le_rfl⟩
  | performed fd me rid r c opened command =>
    have hnext : c ≠ .logout → finish env fd ((perform pg fd me rid c).run env w)
        = ((perform pg fd me rid c).run env w).2 := fun hc =>
      if_neg (by simp [perform_next pg env w fd me rid c hc])
    cases c with
    | create_group name ids =>
      rw [hnext (by simp), perform, run_lift]
      have hcreate : Ensures env w (handle_client.create_group pg fd me name ids) _ :=
        create_group_roles fd me pg name ids htx hserial
      exact hcreate.elim .same (.founded fd rid me name ids opened command)
    | invite_to_group gid uid =>
      rw [hnext (by simp), perform, run_lift]
      have hinvite : Ensures env w (invite_to_group pg fd me gid uid) _ :=
        invite_to_group_roles fd me gid uid pg htx
      exact hinvite.elim .same fun h => .enrolled gid uid h.2.1 h.2.2
    | accept_group_invite gid =>
      rw [hnext (by simp), perform, run_lift]
      have haccept : Ensures env w (accept_group_invite pg fd me gid) _ :=
        accept_group_invite_roles fd me gid pg htx
      exact haccept.elim .same fun h => .enrolled gid me h.1 h.2
    | remove_from_group gid uid =>
      rw [hnext (by simp), perform, run_lift]
      have hremove : Ensures env w (remove_from_group pg fd me gid uid) _ :=
        remove_from_group_roles fd me gid uid pg htx
      exact hremove.elim .same (.cleared gid uid)
    | make_admin gid uid =>
      rw [hnext (by simp), perform, run_lift]
      have hpromote : Ensures env w (make_admin pg fd me gid uid) _ :=
        make_admin_roles fd me gid uid pg htx
      exact hpromote.elim .same fun h => .crowned fd rid me gid uid opened command h.1 h.2
    | leave_group gid =>
      rw [hnext (by simp), perform, run_lift]
      have hleave : Ensures env w (leave_group pg fd me gid) _ :=
        leave_group_roles fd me gid pg htx
      exact hleave.elim .same fun h => .left fd rid me gid opened command h.1 h.2
    | rename_group gid newName =>
      rw [hnext (by simp), perform, run_lift]
      exact .same (rename_group_command_roles fd me gid pg newName htx)
    | set_group_nickname gid uid nick =>
      rw [hnext (by simp), perform, run_lift]
      exact .same (set_group_nickname_command_roles fd me gid uid pg nick htx)
    | _ =>
      refine .same (rolesSame_of_frame fun x hx => ?_)
      refine Field.Same.trans (perform_effect pg fd me rid _ htx ?_) (finish_frame fd _ ?_)
      all_goals
        simp only [List.mem_cons, List.not_mem_nil, or_false] at hx
        rcases hx with rfl | rfl | rfl <;> simp [Command.effect, Command.writes]

end Steps

end ChatApp
