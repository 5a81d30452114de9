/-
`GroupSync.lean` -- whether memory and the database agree on groups.

Some handlers ask memory who may do what and others ask the database, so it matters that
the two copies of a group say the same. Three handlers change them differently:
`CREATE_GROUP` enters the friends of the creator into memory and all users into the
rows, `MAKE_ADMIN` flags a user in memory that may have no row, and `LEAVE_GROUP` keeps
the admin entry of the one who left. Where none of the three differences shows, the two
copies agree for ever.
-/
import ChatApp.Memberships
import ChatApp.Restart

set_option autoImplicit false

namespace ChatApp

open Prog PostgresPersistence handle_client

/-! ## Agreement -/

/-- A group in memory has the members its rows name, and as admins those of them that the rows
call admins. -/
def GroupsAgree (w : World) : Prop :=
  ∀ gid grp, w.mem.g_groups.find? gid = some grp → ∀ uid,
    (grp.members.count uid = true ↔
      ∃ r ∈ w.db.tables.group_members, r.group_id = gid ∧ r.user_id = uid) ∧
    (grp.admins.get uid = true ↔
      ∃ r ∈ w.db.tables.group_members, r.group_id = gid ∧ r.user_id = uid ∧
        r.is_admin = some true)

/-- The condition on a step: a user that creates a group lists no user but its friends, only a
member is made an admin, and an admin leaves only as the last member. -/
def keepsGroups (w : World) (e : Event) : Bool :=
  match e.command true w with
  | some (fd, _, .create_group _ ids) =>
    !w.db.tables.hasUser (w.session fd) || ids.all fun u =>
      !w.db.tables.hasUser u || u = w.session fd || w.mem.isFriend (w.session fd) u
  | some (fd, _, .make_admin gid uid) =>
    !w.db.tables.isAdmin gid (w.session fd) || !w.mem.g_groups.count gid || w.mem.hasMember gid uid
  | some (fd, _, .leave_group gid) =>
    w.mem.leavesLast gid (w.session fd) || !w.mem.hasAdmin gid (w.session fd)
  | _ => true

/-- The invariant behind it. Group ids are given out in order, so that a new group finds no row
of its own. -/
structure GroupsInSync (w : World) : Prop where
  agree : ∀ g u c, w.mem.role? g u = some c → w.db.tables.role g u = c
  serial : 0 < w.db.tables.groups.next
  groups : ∀ g, w.db.tables.hasGroup g = true → g < w.db.tables.groups.next
  members : ∀ g u, w.db.tables.isMember g u = true → g < w.db.tables.groups.next

/-- Only users the database knows are friends. -/
structure FriendsKnown (w : World) : Prop where
  friends : ∀ a b, w.mem.isFriend a b = true → w.db.tables.hasUser b = true
  edges : ∀ a b, w.db.tables.edge a b → w.db.tables.hasUser a = true

theorem GroupsInSync.groupsAgree {w : World} (h : GroupsInSync w) : GroupsAgree w := by
  intro gid grp hfind uid
  have hrole : w.db.tables.role gid uid = grp.role uid :=
    h.agree gid uid _ (by rw [ServerState.role?, hfind, Option.map_some])
  rw [← isMember_iff, ← adminRow_iff]
  rw [Tables.role, Group.role, Role.mk.injEq] at hrole
  rw [hrole.1, hrole.2]
  exact ⟨Iff.rfl, Iff.rfl⟩

theorem hasMember_eq (s : ServerState) (gid uid : Int) :
    s.hasMember gid uid = (s.role? gid uid).any Role.member := by
  rw [ServerState.hasMember, ServerState.role?, Option.any_map]
  rfl

theorem hasAdmin_eq (s : ServerState) (gid uid : Int) :
    s.hasAdmin gid uid = (s.role? gid uid).any Role.admin := by
  rw [ServerState.hasAdmin, ServerState.role?, Option.any_map]
  rfl

/-! ## Keeping the two in step -/

section Steps

variable {env : Env} {w w' : World} {e : Event}

theorem groupsInSync_of_same (hI : GroupsInSync w) (change : RolesSame w w') : GroupsInSync w' := by
  refine ⟨fun g u c h => ?_, hI.serial.trans_le change.next, fun g h => ?_, fun g u h => ?_⟩
  · rw [change.rows]
    exact hI.agree g u c (by rw [← change.memory]; exact h)
  · rw [change.groups] at h
    exact (hI.groups g h).trans_le change.next
  · have hmember := congrArg Role.member (change.rows g u)
    exact (hI.members g u (hmember.symm.trans h)).trans_le change.next

/-- A change that does the same to both copies of a role that memory has keeps them in step. -/
theorem groupsInSync_of_changed {gid uid : Int} {f f' : Role → Role} (hI : GroupsInSync w)
    (change : RolesChanged gid uid f f' w w')
    (hf : ∀ c, w.mem.role? gid uid = some c → f' c = f c)
    (hmember : ∀ c, (f' c).member = true → c.member = true ∨ gid < w.db.tables.groups.next) :
    GroupsInSync w' := by
  refine ⟨fun g u c h => ?_, hI.serial.trans_le change.next, fun g h => ?_, fun g u h => ?_⟩
  · rw [change.memory] at h
    obtain ⟨c₀, hc₀, rfl⟩ := Option.map_eq_some_iff.mp h
    rw [change.rows, hI.agree g u c₀ hc₀, Role.at, Role.at]
    split
    · next hgu => exact hf c₀ (by rw [← hgu.1, ← hgu.2]; exact hc₀)
    · rfl
  · rw [change.groups] at h
    exact (hI.groups g h).trans_le change.next
  · have hrow : (Role.at gid uid f' g u (w.db.tables.role g u)).member = true := by
      rw [← change.rows]
      exact h
    rw [Role.at] at hrow
    split at hrow
    · next hgu =>
      rcases hmember _ hrow with hold | hlt
      · exact (hI.members g u hold).trans_le change.next
      · rw [hgu.1]
        exact hlt.trans_le change.next
    · exact (hI.members g u hrow).trans_le change.next

/-- A new group finds no row, and its rows name the members memory was given. -/
theorem groupsInSync_founded {me : Int} {ids : List Int} (hI : GroupsInSync w)
    (hF : FriendsKnown w) (hsql : env.SqlSucceeds)
    (hlisted : ∀ u ∈ ids, w.db.tables.hasUser u = true → u = me ∨ w.mem.isFriend me u = true)
    (change : RolesFounded true env me ids w w') : GroupsInSync w' := by
  obtain ⟨hnext, hgroups, hrows⟩ := change.stored rfl hsql
  have hfresh : ∀ u, w.db.tables.role w.db.tables.groups.next u = ⟨false, false⟩ := by
    intro u
    have hnone : w.db.tables.isMember w.db.tables.groups.next u = false := by
      rw [← Bool.not_eq_true]
      exact fun h => absurd (hI.members _ u h) (lt_irrefl _)
    rw [Tables.role, hnone, Role.mk.injEq]
    refine ⟨rfl, ?_⟩
    rw [← Bool.not_eq_true]
    exact fun h => absurd (isMember_of_adminRow _ u h) (by simp [hnone])
  refine ⟨fun g u c h => ?_, hI.serial.trans hnext, fun g h => ?_, fun g u h => ?_⟩
  · rw [change.memory, World.newGroupId, if_pos rfl] at h
    rw [hrows]
    split at h
    · next hg =>
      rw [if_pos hg, hg, hfresh, ← Option.some.inj h, Role.founded, Role.mk.injEq]
      -- among the ids listed, the friends are the users
      have hsame : (u = me ∨ (u ∈ ids ∧ w.db.tables.hasUser u = true)) ↔
          (u = me ∨ (u ∈ ids ∧ (true = true → w.mem.isFriend me u = true))) := by
        constructor
        · rintro (hu | ⟨hu, huser⟩)
          · exact .inl hu
          · exact (hlisted u hu huser).imp_right fun h => ⟨hu, fun _ => h⟩
        · rintro (hu | ⟨hu, hfriend⟩)
          · exact .inl hu
          · exact .inr ⟨hu, hF.friends _ _ (hfriend rfl)⟩
      exact ⟨by rw [Bool.false_or]; exact decide_eq_decide.mpr hsame, Bool.false_or _⟩
    · next hg =>
      rw [if_neg hg]
      exact hI.agree g u c h
  · rcases hgroups g h with h | rfl
    · exact (hI.groups g h).trans hnext
    · exact hnext
  · have hmember := congrArg Role.member (hrows g u)
    split at hmember
    · next hg =>
      rw [hg]
      exact hnext
    · exact (hI.members g u (hmember.symm.trans h)).trans hnext

/-- One who leaves without an admin entry leaves the same behind in both copies. -/
theorem groupsInSync_left {gid me : Int} (hI : GroupsInSync w) (hsql : env.SqlSucceeds)
    (hleaves : w.mem.leavesLast gid me = true ∨ w.mem.hasAdmin gid me = false)
    (change : RolesLeft true env gid me w w') : GroupsInSync w' := by
  obtain ⟨f', -, hclear, hrows⟩ := change.rows
  obtain rfl := hclear rfl hsql
  refine ⟨fun g u c h => ?_, hI.serial.trans_le change.next, fun g h => ?_, fun g u h => ?_⟩
  · rw [change.memory] at h
    split at h
    · cases h
    next hlast =>
    obtain ⟨c₀, hc₀, rfl⟩ := Option.map_eq_some_iff.mp h
    rw [hrows, hI.agree g u c₀ hc₀, Role.at, Role.at]
    split
    · next hgu =>
      have hadmin : c₀.admin = false := by
        rcases hleaves with hgone | hnone
        · exact absurd ⟨hgone, hgu.1⟩ hlast
        · rw [hasAdmin_eq, ← hgu.1, ← hgu.2, hc₀] at hnone
          exact hnone
      rw [Role.clear, Role.depart, hadmin]
    · rfl
  · rw [change.groups] at h
    exact (hI.groups g h).trans_le change.next
  · have hrow : (Role.at gid me Role.clear g u (w.db.tables.role g u)).member = true := by
      rw [← hrows]
      exact h
    rw [Role.at] at hrow
    split at hrow
    · cases hrow
    · exact (hI.members g u hrow).trans_le change.next

theorem groupsInSync_step (hI : GroupsInSync w) (hF : FriendsKnown w) (htx : w.db.tx = none)
    (hsql : env.SqlSucceeds) (hC : keepsGroups w e = true)
    (hs : Server.step true env w e = some w') : GroupsInSync w' := by
  have hsession : ∀ {fd me}, w.conns.find? fd = some me → w.session fd = me :=
    fun h => UMap.get_of_find? h
  cases Server.groupChange htx (fun _ => hI.serial) hs with
  | same change => exact groupsInSync_of_same hI change
  | founded fd rid me name ids opened command change =>
    refine groupsInSync_founded hI hF hsql (fun u hu huser => ?_) change
    rw [keepsGroups, command] at hC
    simp only [hsession opened, change.creator rfl, Bool.not_true, Bool.false_or,
      List.all_eq_true] at hC
    simpa [huser] using hC u hu
  | enrolled gid uid allowed change =>
    refine groupsInSync_of_changed hI change (fun c _ => rfl) fun c _ => .inr ?_
    exact (allowed rfl).elim (hI.members gid uid) fun h => hI.groups gid h.1
  | cleared gid uid change =>
    exact groupsInSync_of_changed hI change (fun c _ => rfl) fun c h => absurd h Bool.false_ne_true
  | crowned fd rid me gid uid opened command permitted change =>
    refine groupsInSync_of_changed hI change (fun c hc => ?_) fun c h => .inl h
    -- memory has the group, so the user is a member
    have hknown : w.mem.g_groups.count gid = true := by
      rw [UMap.count]
      rw [ServerState.role?] at hc
      obtain ⟨grp, hgrp, -⟩ := Option.map_eq_some_iff.mp hc
      rw [hgrp]
      rfl
    have hadmin : w.db.tables.isAdmin gid me = true := permitted
    have hmember : c.member = true := by
      rw [keepsGroups, command] at hC
      simp only [hsession opened, hadmin, hknown, Bool.not_true, Bool.false_or, hasMember_eq,
        hc] at hC
      exact hC
    show Role.crownMember c = Role.crown c
    rw [Role.crownMember, Role.crown, hmember, Bool.true_or]
  | left fd rid me gid opened command known change =>
    refine groupsInSync_left hI hsql ?_ change
    rw [keepsGroups, command] at hC
    simpa [hsession opened] using hC

theorem friendsKnown_of_same (hF : FriendsKnown w)
    (husers : ∀ uid, w.db.tables.hasUser uid = true → w'.db.tables.hasUser uid = true)
    (hfriends : ∀ a b, w'.mem.isFriend a b = true → w.mem.isFriend a b = true)
    (hedges : w'.db.tables.friends = w.db.tables.friends) : FriendsKnown w' := by
  refine ⟨fun a b h => husers b (hF.friends a b (hfriends a b h)), fun a b h => husers a ?_⟩
  rw [Tables.edge, hedges] at h
  exact hF.edges a b h

theorem friendsKnown_step (hF : FriendsKnown w) (htx : w.db.tx = none) (hsql : env.SqlSucceeds)
    (hs : Server.step true env w e = some w') : FriendsKnown w' := by
  have husers : ∀ uid, w.db.tables.hasUser uid = true → w'.db.tables.hasUser uid = true :=
    fun uid => Server.users_kept hsql htx hs
  cases Server.friendChange htx hs with
  | same keeps change | imported me keeps change | requested fd rid me x target opened command found change
  | declined fd rid me other opened command change =>
    exact friendsKnown_of_same hF husers (fun a b h => by rw [← change.friends]; exact h) change.edges
  | unfriended fd rid me other opened command change =>
    refine friendsKnown_of_same hF husers (fun a b h => ?_) change.edges
    rw [change.friends, Bool.and_eq_true] at h
    exact h.2
  | accepted fd rid me other opened command change =>
    have hins := fun a b => edge_insert_pair a b other me (change.inserted rfl) change.edges
    have hpair : w.db.tables.hasUser other = true ∧ w.db.tables.hasUser me = true :=
      (hins 0 0).2.elim (fun h => ⟨hF.edges _ _ h, hF.edges _ _ ((Tables.edge_comm ..).mp h)⟩) id
    refine ⟨fun a b h => husers b ?_, fun a b h => husers a ?_⟩
    · rw [change.friends, Bool.or_eq_true, decide_eq_true_eq] at h
      rcases h with (⟨-, rfl⟩ | ⟨-, rfl⟩) | h
      · exact hpair.1
      · exact hpair.2
      · exact hF.friends a b h
    · rcases (hins a b).1.mp h with h | ⟨rfl, rfl⟩ | ⟨rfl, rfl⟩
      · exact hF.edges a b h
      · exact hpair.1
      · exact hpair.2

end Steps

/-! ## Loading -/

section Load

variable {S : List Field} {env : Env} {w : World}

/-- A loop that collects answers: each of them is what a function says, and an invariant of the
state is kept. -/
theorem mapM_ensures {ι β : Type} {I : World → Prop} {f : ι → Prog S β} {g : ι → β}
    (body : ∀ x w, I w → Ensures env w (f x) fun b w' => b = g x ∧ I w') (xs : List ι) :
    ∀ w, I w → Ensures env w (xs.mapM f) fun bs w' => bs = xs.map g ∧ I w' := by
  induction xs with
  | nil =>
    intro w hI
    rw [List.mapM_nil]
    exact ensures_pure ⟨rfl, hI⟩
  | cons x xs ih =>
    intro w hI
    rw [List.mapM_cons]
    refine (body x w hI).bind fun b w₁ h₁ => ?_
    refine (ih w₁ h₁.2).bind fun bs w₂ h₂ => ensures_pure ⟨?_, h₂.2⟩
    rw [h₁.1, h₂.1, List.map_cons]

/-- The members a query finds are those with a row and a user. -/
theorem mem_membersOf (d : Tables) (gid uid : Int) :
    uid ∈ (d.membersOf gid).map UserRow.id ↔ d.isMember gid uid = true ∧ d.hasUser uid = true := by
  simp only [Tables.membersOf, List.mem_map, List.mem_insertionSort, List.mem_flatMap,
    List.mem_filter, Bool.and_eq_true, decide_eq_true_eq, isMember_iff, hasUser_iff]
  constructor
  · rintro ⟨_, ⟨u, hu, m, ⟨hm, huser, hgroup⟩, rfl⟩, rfl⟩
    exact ⟨⟨m, hm, hgroup, huser⟩, u, hu, rfl⟩
  · rintro ⟨⟨m, hm, hgroup, huser⟩, u, hu, rfl⟩
    exact ⟨u, ⟨u, hu, m, ⟨hm, huser, hgroup⟩, rfl⟩, rfl⟩

/-- A group has one row for each member, so the first one found is the only one. -/
theorem isAdmin_eq {d : Tables} (hd : d.Valid) (gid uid : Int) :
    d.isAdmin gid uid = d.adminRow gid uid := by
  rw [Bool.eq_iff_iff, adminRow_iff, Tables.isAdmin]
  constructor
  · intro h
    cases hfind : d.group_members.find? fun r => r.group_id = gid && r.user_id = uid with
    | none => rw [hfind] at h; cases h
    | some r =>
      have hids := List.find?_some hfind
      simp only [Bool.and_eq_true, decide_eq_true_eq] at hids
      refine ⟨r, List.mem_of_find?_eq_some hfind, hids.1, hids.2, ?_⟩
      rw [hfind] at h
      cases hadmin : r.is_admin with
      | none => rw [Option.bind_some, hadmin] at h; cases h
      | some b =>
        rw [Option.bind_some, hadmin] at h
        rw [show b = true from h]
  · rintro ⟨r, hr, hgroup, huser, hadmin⟩
    cases hfind : d.group_members.find? fun r => r.group_id = gid && r.user_id = uid with
    | none =>
      have hno := List.find?_eq_none.mp hfind r hr
      simp [hgroup, huser] at hno
    | some r' =>
      have hids := List.find?_some hfind
      simp only [Bool.and_eq_true, decide_eq_true_eq] at hids
      have hsame : r' = r := List.inj_on_of_nodup_map hd.members_unique
        (List.mem_of_find?_eq_some hfind) hr (by rw [hids.1, hids.2, hgroup, huser])
      rw [Option.bind_some, hsame, hadmin]
      rfl

/-- Flags entered one after another: those found are the listed ones, each with the flag its
list has. -/
theorem get_flags (flag : Int → Bool) (ids : List Int) (m : UMap Int Bool) (u : Int) :
    ((ids.map fun x => (x, flag x)).foldl (fun m e => m.set e.1 e.2) m).get u
      = if u ∈ ids then flag u else m.get u := by
  induction ids generalizing m with
  | nil => rfl
  | cons x ids ih =>
    rw [List.map_cons, List.foldl_cons, ih, UMap.get_set]
    by_cases hu : u ∈ ids
    · simp [hu]
    · by_cases hx : u = x <;> simp [hu, hx]

/-- The role of a user in a group as it is loaded. -/
theorem role_loaded_group (g : GroupRow) (flag : Int → Bool) (ids : List Int) (u : Int) :
    (loaded_group g (ids.zip (ids.map flag))).role u
      = ⟨decide (u ∈ ids), decide (u ∈ ids) && flag u⟩ := by
  have hzip : ids.zip (ids.map flag) = ids.map fun x => (x, flag x) := by
    induction ids with
    | nil => rfl
    | cons x ids ih => rw [List.map_cons, List.zip_cons_cons, ih, List.map_cons]
  have hmembers : (loaded_group g (ids.zip (ids.map flag))).members = mark_all ids ∅ := by
    rw [loaded_group, hzip, mark_all, List.foldl_map]
  have hadmins : (loaded_group g (ids.zip (ids.map flag))).admins.get u
      = (decide (u ∈ ids) && flag u) := by
    rw [loaded_group, hzip]
    refine (get_flags flag ids ∅ u).trans ?_
    by_cases hu : u ∈ ids <;> simp [hu]
  rw [Group.role, hmembers, hadmins, Role.mk.injEq]
  refine ⟨?_, rfl⟩
  rw [Bool.eq_iff_iff, mark_all_count, decide_eq_true_eq]
  simp [UMap.count]

/-- Memory has of each group what the tables have. -/
def LoadedFrom (d : Database) (w : World) : Prop :=
  w.db = d ∧ ∀ g u c, w.mem.role? g u = some c → d.tables.role g u = c

theorem load_group_loaded {d : Database} (g : GroupRow) (hs : env.SqlSucceeds) (htx : d.tx = none)
    (hd : d.tables.Valid) (hI : LoadedFrom d w) :
    Ensures env w (load_group g) fun _ w' => LoadedFrom d w' := by
  refine Ensures.locked (ensures_read (ensures_when (fun _ => ?_) fun _ => hI))
  have hmembers : Ensures env w (get_group_members g.id) fun members w₁ =>
      members = d.tables.membersOf g.id ∧ LoadedFrom d w₁ := by
    refine (select_ensures _ hs (by rw [hI.1, htx])).bind fun res w₁ h₁ => ensures_pure ?_
    obtain ⟨hmem, hdb, rfl⟩ := h₁
    exact ⟨by rw [hI.1]; rfl, hdb.trans hI.1, fun g u c h => hI.2 g u c (by rw [← hmem]; exact h)⟩
  refine (hmembers.lift _).bind fun members w₁ h₁ => ?_
  obtain ⟨rfl, hI₁⟩ := h₁
  have hflags : Ensures env w₁ ((d.tables.membersOf g.id).mapM fun m => is_group_admin g.id m.id)
      fun flags w₂ => flags = (d.tables.membersOf g.id).map (fun m => d.tables.isAdmin g.id m.id) ∧
        LoadedFrom d w₂ := by
    refine mapM_ensures (I := LoadedFrom d) (fun m w hI => ?_) _ _ hI₁
    refine (select_ensures _ hs (by rw [hI.1, htx])).bind fun res w₂ h₂ => ensures_pure ?_
    obtain ⟨hmem, hdb, rfl⟩ := h₂
    exact ⟨by rw [hI.1]; rfl, hdb.trans hI.1, fun g u c h => hI.2 g u c (by rw [← hmem]; exact h)⟩
  refine (hflags.lift _).bind fun flags w₂ h₂ => ensures_modify ⟨h₂.2.1, fun g' u c h => ?_⟩
  obtain ⟨rfl, hI₂⟩ := h₂
  replace h : ((w₂.mem.g_groups.set g.id _).find? g').map (fun grp => grp.role u) = some c := h
  rw [UMap.find?_set] at h
  split at h
  · next hg =>
    -- the group that was loaded
    rw [Option.map_some] at h
    have hrole := role_loaded_group g (d.tables.isAdmin g.id)
      ((d.tables.membersOf g.id).map UserRow.id) u
    rw [List.map_map] at hrole
    rw [hg, ← Option.some.inj h]
    refine Eq.trans ?_ hrole.symm
    have hmember : decide (u ∈ (d.tables.membersOf g.id).map UserRow.id)
        = d.tables.isMember g.id u := by
      rw [Bool.eq_iff_iff, decide_eq_true_eq, mem_membersOf, and_iff_left_iff_imp, isMember_iff]
      rintro ⟨r, hr, hgroup, rfl⟩
      exact (hd.members_refs r hr).2
    rw [Tables.role, hmember, isAdmin_eq hd, Role.mk.injEq]
    refine ⟨rfl, ?_⟩
    by_cases hadmin : d.tables.adminRow g.id u = true
    · rw [hadmin, isMember_of_adminRow _ _ hadmin]
      rfl
    · rw [Bool.not_eq_true] at hadmin
      rw [hadmin, Bool.and_false]
  · exact hI₂.2 g' u c h

/-- **What `main` has loaded** of groups is what the tables have. -/
theorem load_database_groups (hs : env.SqlSucceeds) (htx : w.db.tx = none)
    (hd : w.db.tables.Valid) (hempty : w.mem.g_groups = ∅) :
    Ensures env w load_database fun _ w' => LoadedFrom w.db w' := by
  refine (select_ensures _ hs htx).bind fun all_users w₁ h₁ => ?_
  obtain ⟨hmem, hdb, rfl⟩ := h₁
  have hnone : ∀ w', w'.mem.g_groups = ∅ → w'.db = w.db → LoadedFrom w.db w' := by
    intro w' hgroups hdb
    refine ⟨hdb, fun g u c h => ?_⟩
    rw [ServerState.role?, hgroups, UMap.find?_empty] at h
    cases h
  have husers : Ensures env w₁ (w.db.tables.allUsers.forM load_user) fun _ w' => w'.db = w.db := by
    refine Prog.run_forM env w₁ (I := fun (_ : List UserRow) w' => w'.db = w.db) hdb
      fun done u w' _ h => ?_
    have hload : Ensures env w' (load_user u) _ := load_user_friends u hs (by rw [h, htx])
    exact hload.1.trans h
  refine ((husers.and (ensures_frame _)).lift _).bind fun _ w₂ h₂ => ensures_modify ?_
  have hgroups : w₂.mem.g_groups = ∅ := by
    refine Eq.trans (h₂.2 (.var .g_groups) (by simp)) ?_
    rw [← hempty, ← hmem]
    rfl
  -- each user in turn, each group of the user in turn
  refine Ensures.lift (T := load_writes) ?_ (by decide)
  refine Prog.run_forM env _ (I := fun (_ : List UserRow) w' => LoadedFrom w.db w')
    (hnone _ hgroups h₂.1) fun done u w₃ _ h₃ => ?_
  suffices hbody : Ensures env w₃ _ fun (_ : Unit) w' => LoadedFrom w.db w' from hbody
  have hrows : Ensures env w₃ (PostgresPersistence.get_user_groups u.id)
      fun _ w' => LoadedFrom w.db w' := by
    refine (select_ensures _ hs (by rw [h₃.1, htx])).bind fun res w₄ h₄ => ensures_pure ?_
    exact ⟨h₄.2.1.trans h₃.1, fun g u c h => h₃.2 g u c (by rw [← h₄.1]; exact h)⟩
  refine (hrows.lift _).bind fun groups w₄ h₄ => ?_
  refine Prog.run_forM env w₄ (I := fun (_ : List GroupRow) w' => LoadedFrom w.db w') h₄
    fun done g w₅ _ h₅ => ?_
  exact load_group_loaded g hs htx hd h₅

end Load

/-! ## The result -/

section Result

variable {env : Env} {w w₀ : World}

theorem Booted.groupsInSync (h : Booted true env w) (hsql : env.SqlSucceeds) : GroupsInSync w := by
  obtain ⟨w₁, fresh, hboot⟩ := h
  cases hboot
  have hload : Ensures env w₁ load_database _ :=
    load_database_groups hsql fresh.tx fresh.tables (by rw [fresh.mem]; rfl)
  obtain ⟨hdb, hroles⟩ := hload
  rw [← hdb] at hroles
  have hserial := fresh.tables.groups_serial
  rw [← hdb] at hserial
  have hgroups : ∀ g, (load_database.run env w₁).2.db.tables.hasGroup g = true →
      g < (load_database.run env w₁).2.db.tables.groups.next := by
    intro g h
    obtain ⟨r, hr, hid⟩ := List.any_eq_true.mp h
    rw [← of_decide_eq_true hid]
    exact (hserial.2 r hr).2
  refine ⟨hroles, hserial.1, hgroups, fun g u h => hgroups g ?_⟩
  rw [hdb] at h ⊢
  obtain ⟨r, hr, rfl, -⟩ := (isMember_iff g u).mp h
  exact (fresh.tables.members_refs r hr).1

theorem Booted.friendsKnown (h : Booted true env w) (hsql : env.SqlSucceeds) : FriendsKnown w := by
  have hagrees := h.graphAgrees hsql
  refine ⟨fun a b hab => hagrees.users b a ?_, hagrees.users⟩
  exact (Tables.edge_comm ..).mp ((hagrees.friends a b).mp hab)

/-- **Memory and the database agree on groups** in every run in which a creator lists its
friends only, only members are promoted, and an admin leaves only as the last member. -/
theorem groups_agree {tr : List (Taken World Event)} (booted : Booted true env w₀)
    (succeeds : env.SqlSucceeds)
    (run : Server.Run true env (fun w e => keepsGroups w e = true) w₀ tr w) : GroupsAgree w := by
  have hI : (GroupsInSync w ∧ FriendsKnown w) ∧ w.db.tx = none := by
    refine booted.invariant (I := fun w => GroupsInSync w ∧ FriendsKnown w) run
      ⟨booted.groupsInSync succeeds, booted.friendsKnown succeeds⟩ ?_
    rintro x e y ⟨hsync, hknown⟩ htx hC hs
    exact ⟨groupsInSync_step hsync hknown htx succeeds hC hs, friendsKnown_step hknown htx succeeds hs⟩
  exact hI.1.1.groupsAgree

end Result

/-- User 1 creates a group with its friend 2, promotes it, and 2 renames the group. -/
theorem groups_agree_promoted : ∃ w, Reachable true Env.calm w ∧
    w.mem.hasMember 1 2 = true ∧ w.mem.hasAdmin 1 2 = true ∧ GroupsAgree w := by
  have hrun : (Run.exec (Run.guard (Server.step true Env.calm) keepsGroups) loaded
      (befriended ++ [.send 5 .CREATE_GROUP "name=g&members=2",
        .send 5 .MAKE_ADMIN "groupId=1&userId=2", .send 6 .RENAME_GROUP "groupId=1&name=h"])).map
        (fun w => (w.mem.hasMember 1 2, w.mem.hasAdmin 1 2)) = some (true, true) := by decide
  obtain ⟨tr, w, run, hw⟩ := run_of_exec hrun
  obtain ⟨hmember, hadmin⟩ := Prod.mk.inj hw
  exact ⟨w, ⟨loaded, tr, booted_loaded, run.mono fun _ _ _ => trivial⟩, hmember, hadmin,
    groups_agree booted_loaded Env.calm_sqlSucceeds run⟩

/-- **They can come apart**: an admin leaves a group that another member is still in, and
memory still has it as an admin. -/
theorem groups_not_agree :
    ¬∀ env w, env.SqlSucceeds → Reachable true env w → GroupsAgree w := by
  intro claim
  have hrun : (Run.exec (Server.step true Env.calm) loaded
      (two_users ++ [.send 5 .CREATE_GROUP "name=g&members=",
        .send 5 .INVITE_TO_GROUP "groupId=1&userId=2", .send 5 .LEAVE_GROUP "groupId=1"])).map
        (fun w => (w.mem.hasAdmin 1 1, w.db.tables.adminRow 1 1)) = some (true, false) := by decide
  obtain ⟨w, hreach, hw⟩ := reachable_of_exec (World.new_fresh Tables.empty_valid) rfl hrun
  obtain ⟨hadmin, hrow⟩ := Prod.mk.inj hw
  rw [ServerState.hasAdmin] at hadmin
  obtain ⟨grp, hfind, hflag⟩ := (Option.any_eq_true ..).mp hadmin
  have hexists := ((claim Env.calm w Env.calm_sqlSucceeds hreach 1 grp hfind 1).2).mp hflag
  rw [← adminRow_iff, hrow] at hexists
  cases hexists

end ChatApp
