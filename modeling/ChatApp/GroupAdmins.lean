/-
`GroupAdmins.lean` -- whether the admins of a group are its members, without a database.

Members and admins are two maps, and who may remove or promote is read from the second
alone. An admin entry that outlives the membership is therefore a right that nobody
shows in a list of members. `REMOVE_FROM_GROUP` erases both entries; `LEAVE_GROUP` erases
one, and `MAKE_ADMIN` writes an admin entry for any id.
-/
import ChatApp.Memberships

set_option autoImplicit false

namespace ChatApp

open Prog PostgresPersistence handle_client

/-- Every admin of a group is one of its members. -/
def AdminsAreMembers (w : World) : Prop :=
  ∀ gid grp, w.mem.g_groups.find? gid = some grp →
    ∀ uid, grp.admins.get uid = true → grp.members.count uid = true

/-- Who is not a member of a group can neither remove another user from it nor make anybody its
admin: nothing in memory changes. -/
def OutsidersPowerless (env : Env) (w : World) : Prop :=
  ∀ gid me, w.mem.hasMember gid me = false → ∀ fd uid,
    (uid ≠ me → ((remove_from_group false fd me gid uid).run env w).2.mem = w.mem) ∧
      ((make_admin false fd me gid uid).run env w).2.mem = w.mem

/-- The condition on a step: only a member is made an admin, and an admin leaves only as the last
member. -/
def keepsAdmins (w : World) (e : Event) : Bool :=
  match e.command false w with
  | some (fd, _, .make_admin gid uid) =>
    !w.mem.hasAdmin gid (w.session fd) || w.mem.hasMember gid uid
  | some (fd, _, .leave_group gid) =>
    w.mem.leavesLast gid (w.session fd) || !w.mem.hasAdmin gid (w.session fd)
  | _ => true

theorem adminsAreMembers_iff (w : World) : AdminsAreMembers w ↔
    ∀ g u c, w.mem.role? g u = some c → c.admin = true → c.member = true := by
  constructor
  · intro h g u c hc
    rw [ServerState.role?] at hc
    obtain ⟨grp, hfind, rfl⟩ := Option.map_eq_some_iff.mp hc
    exact h g grp hfind u
  · intro h gid grp hfind uid hadmin
    refine h gid uid (grp.role uid) ?_ hadmin
    rw [ServerState.role?, hfind, Option.map_some]

section Steps

variable {env : Env} {w w₀ w' : World} {e : Event}

/-- An admin is a member, so one who is no member is no admin. -/
theorem AdminsAreMembers.hasAdmin (h : AdminsAreMembers w) {gid me : Int}
    (hme : w.mem.hasMember gid me = false) : w.mem.hasAdmin gid me = false := by
  unfold ServerState.hasMember at hme
  unfold ServerState.hasAdmin
  cases hfind : w.mem.g_groups.find? gid with
  | none => rfl
  | some grp =>
    rw [hfind, Option.any_some] at hme
    rw [Option.any_some, ← Bool.not_eq_true]
    intro hadmin
    rw [h gid grp hfind me hadmin] at hme
    exact absurd hme (by decide)

theorem AdminsAreMembers.powerless (h : AdminsAreMembers w) : OutsidersPowerless env w := by
  intro gid me hme fd uid
  have hadmin := h.hasAdmin hme
  constructor
  · intro huid
    have hmay : Ensures env w (may_remove false me gid uid) fun ok w₁ => ok = false ∧ w₁ = w :=
      ⟨(if_neg huid).trans hadmin, rfl⟩
    have hrefused : Ensures env w (remove_from_group false fd me gid uid)
        fun _ w' => w'.mem = w.mem := by
      refine (hmay.lift _).bind fun ok w₁ h₁ => ?_
      obtain ⟨rfl, rfl⟩ := h₁
      rfl
    exact hrefused
  · have hmay : Ensures env w (may_promote false me gid) fun ok w₁ => ok = false ∧ w₁ = w :=
      ⟨hadmin, rfl⟩
    have hrefused : Ensures env w (make_admin false fd me gid uid)
        fun _ w' => w'.mem = w.mem := by
      refine (hmay.lift _).bind fun ok w₁ h₁ => ?_
      obtain ⟨rfl, rfl⟩ := h₁
      rfl
    exact hrefused

/-- A change of one role, of a kind that makes no outsider an admin. -/
theorem adminsAreMembers_of_changed {gid uid : Int} {f f' : Role → Role}
    (hI : AdminsAreMembers w) (change : RolesChanged gid uid f f' w w')
    (hf : ∀ c, w.mem.role? gid uid = some c → (c.admin = true → c.member = true) →
      (f c).admin = true → (f c).member = true) : AdminsAreMembers w' := by
  rw [adminsAreMembers_iff] at hI ⊢
  intro g u c hc
  rw [change.memory] at hc
  obtain ⟨c₀, hc₀, rfl⟩ := Option.map_eq_some_iff.mp hc
  rw [Role.at]
  split
  · next hgu =>
    obtain ⟨rfl, rfl⟩ := hgu
    exact hf c₀ hc₀ (hI g u c₀ hc₀)
  · exact hI g u c₀ hc₀

theorem adminsAreMembers_step (hI : AdminsAreMembers w) (htx : w.db.tx = none)
    (hC : keepsAdmins w e = true) (hs : Server.step false env w e = some w') :
    AdminsAreMembers w' := by
  have hsession : ∀ {fd me}, w.conns.find? fd = some me → w.session fd = me :=
    fun h => UMap.get_of_find? h
  cases Server.groupChange htx (fun h => absurd h Bool.false_ne_true) hs with
  | same change =>
    rw [adminsAreMembers_iff] at hI ⊢
    intro g u c hc
    exact hI g u c (by rw [← change.memory]; exact hc)
  | founded fd rid me name ids opened command change =>
    rw [adminsAreMembers_iff] at hI ⊢
    intro g u c hc
    rw [change.memory] at hc
    by_cases hg : g = w.newGroupId false
    · -- the one admin of a new group is its creator
      rw [if_pos hg] at hc
      rw [← Option.some.inj hc, decide_eq_true_eq, decide_eq_true_eq]
      exact fun hu => .inl hu
    · rw [if_neg hg] at hc
      exact hI g u c hc
  | enrolled gid uid allowed change =>
    exact adminsAreMembers_of_changed hI change fun c _ _ _ => rfl
  | cleared gid uid change =>
    exact adminsAreMembers_of_changed hI change fun c _ _ h => absurd h Bool.false_ne_true
  | crowned fd rid me gid uid opened command permitted change =>
    refine adminsAreMembers_of_changed hI change fun c hc _ _ => ?_
    have hadmin : w.mem.hasAdmin gid me = true := permitted
    have hmember : w.mem.hasMember gid uid = true := by
      rw [keepsAdmins, command] at hC
      simpa [hsession opened, hadmin] using hC
    rw [ServerState.role?] at hc
    obtain ⟨grp, hfind, rfl⟩ := Option.map_eq_some_iff.mp hc
    rw [ServerState.hasMember, hfind] at hmember
    exact hmember
  | left fd rid me gid opened command known change =>
    have hleaves : w.mem.leavesLast gid me = true ∨ w.mem.hasAdmin gid me = false := by
      rw [keepsAdmins, command] at hC
      simpa [hsession opened] using hC
    rw [adminsAreMembers_iff] at hI ⊢
    intro g u c hc
    rw [change.memory] at hc
    by_cases hgone : w.mem.leavesLast gid me = true ∧ g = gid
    · rw [if_pos hgone] at hc
      cases hc
    rw [if_neg hgone] at hc
    obtain ⟨c₀, hc₀, rfl⟩ := Option.map_eq_some_iff.mp hc
    by_cases hgu : g = gid ∧ u = me
    · -- the group goes on, so the one who left was no admin
      obtain ⟨rfl, rfl⟩ := hgu
      have hadmin : w.mem.hasAdmin g u = false :=
        hleaves.resolve_left fun hlast => hgone ⟨hlast, rfl⟩
      rw [ServerState.role?] at hc₀
      obtain ⟨grp, hfind, rfl⟩ := Option.map_eq_some_iff.mp hc₀
      rw [ServerState.hasAdmin, hfind] at hadmin
      rw [Role.at_self]
      intro h
      exact absurd (hadmin.symm.trans h) Bool.false_ne_true
    · rw [Role.at, if_neg hgu]
      exact hI g u c₀ hc₀

/-- **Admins are members**, and outsiders powerless, in every run without a database in which
only members are promoted and an admin leaves only as the last member. -/
theorem admins_are_members {tr : List (Taken World Event)} (booted : Booted false env w₀)
    (run : Server.Run false env (fun w e => keepsAdmins w e = true) w₀ tr w) :
    AdminsAreMembers w ∧ OutsidersPowerless env w := by
  have hstart : AdminsAreMembers w₀ := by
    intro gid grp hfind
    rw [booted.groups_empty, UMap.find?_empty] at hfind
    cases hfind
  have hI : AdminsAreMembers w ∧ w.db.tx = none :=
    booted.invariant run hstart fun x e y hx htx hC hs => adminsAreMembers_step hx htx hC hs
  exact ⟨hI.1, hI.1.powerless⟩

end Steps

/-- User 1 creates a group with user 2, who leaves. -/
theorem admins_are_members_created : ∃ w, Reachable false Env.calm w ∧
    w.mem.hasAdmin 1 1 = true ∧ w.mem.hasMember 1 2 = false ∧ AdminsAreMembers w ∧
      OutsidersPowerless Env.calm w := by
  have hrun : (Run.exec (Run.guard (Server.step false Env.calm) keepsAdmins)
      (World.new Tables.empty) (two_users ++ [.send 5 .CREATE_GROUP "name=g&members=2",
        .send 6 .LEAVE_GROUP "groupId=1"])).map
        (fun w => (w.mem.hasAdmin 1 1, w.mem.hasMember 1 2)) = some (true, false) := by decide
  obtain ⟨tr, w, run, hw⟩ := run_of_exec hrun
  obtain ⟨hadmin, hmember⟩ := Prod.mk.inj hw
  exact ⟨w, ⟨_, tr, booted_new Tables.empty_valid, run.mono fun _ _ _ => trivial⟩, hadmin, hmember,
    admins_are_members (booted_new Tables.empty_valid) run⟩

/-- **An admin need not be a member**: user 1 creates a group with user 2, leaves it, and still
removes user 2 from it. -/
theorem admins_not_members : ¬∀ env w, Reachable false env w →
    AdminsAreMembers w ∧ OutsidersPowerless env w := by
  intro claim
  have hrun : (Run.exec (Server.step false Env.calm) (World.new Tables.empty)
      (two_users ++ [.send 5 .CREATE_GROUP "name=g&members=2",
        .send 5 .LEAVE_GROUP "groupId=1"])).map
        (fun w => (w.mem.hasMember 1 1, w.mem.hasMember 1 2,
          ((remove_from_group false 5 1 1 2).run Env.calm w).2.mem.hasMember 1 2))
      = some (false, true, false) := by decide
  obtain ⟨w, hreach, hw⟩ := reachable_of_exec (World.new_fresh Tables.empty_valid) rfl hrun
  obtain ⟨hme, hw⟩ := Prod.mk.inj hw
  obtain ⟨hbefore, hafter⟩ := Prod.mk.inj hw
  obtain ⟨-, hpowerless⟩ := claim Env.calm w hreach
  rw [(hpowerless 1 1 hme 5 2).1 (by decide), hbefore] at hafter
  cases hafter

end ChatApp
