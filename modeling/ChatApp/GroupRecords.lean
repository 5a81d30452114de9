/-
`GroupRecords.lean` -- what every record of `g_groups` has to be, without a database.

A group is stored under its own id, and it has a member: whoever creates it is one. Of the two
requests that take members away, `LEAVE_GROUP` erases the group together with its last member.
`REMOVE_FROM_GROUP` does not, and a user may remove itself; an admin who is no member any more may
remove the last one. The requests are taken as the single steps of `GroupRequests.lean`, which
also say that no broadcast creates a record: `operator[]` finds the group.
-/
import ChatApp.GroupEffects
import ChatApp.GroupAdmins

set_option autoImplicit false

namespace ChatApp

open Prog PostgresPersistence handle_client

/-- Every group is stored under its own id and has a member. -/
def WellKept (groups : Int → Option Group) : Prop :=
  ∀ gid grp, groups gid = some grp → grp.id = gid ∧ grp.members.empty = false

/-- `REMOVE_FROM_GROUP` is permitted, and takes the last member of the group. -/
def emptiesGroup (w : World) (e : Event) : Bool :=
  match e.command false w with
  | some (fd, _, .remove_from_group gid uid) =>
    (uid = w.session fd || w.mem.hasAdmin gid (w.session fd)) && w.mem.leavesLast gid uid
  | _ => false

/-! ## What one change does to the records -/

section Changes

variable {groups : Int → Option Group} {gid me ms : Int}

theorem empty_set (m : UMap Int Bool) (k : Int) (b : Bool) : (m.set k b).empty = false := by
  rw [← Bool.not_eq_true, UMap.empty_iff]
  intro h
  have hk := h k
  rw [UMap.find?_set, if_pos rfl] at hk
  cases hk

theorem empty_mark_all (ids : List Int) (me : Int) :
    (mark_all ids ((∅ : UMap Int Bool).set me true)).empty = false := by
  have hme : (mark_all ids ((∅ : UMap Int Bool).set me true)).count me = true := by
    rw [mark_all_count]
    right
    rw [UMap.count, UMap.find?_set, if_pos rfl]
    rfl
  rw [← Bool.not_eq_true, UMap.empty_iff]
  intro h
  rw [UMap.count, h me] at hme
  cases hme

/-- A change of one record that leaves it its id and a member. -/
theorem WellKept.adjust {f : Group → Group} (h : WellKept groups)
    (hf : ∀ grp, groups gid = some grp → grp.members.empty = false →
      (f grp).id = grp.id ∧ (f grp).members.empty = false) :
    WellKept fun k => if k = gid then (groups k).map f else groups k := by
  intro k grp hk
  dsimp only at hk
  by_cases hgid : k = gid
  · rw [if_pos hgid] at hk
    obtain ⟨grp₀, hfind, rfl⟩ := Option.map_eq_some_iff.mp hk
    obtain ⟨hid, hmembers⟩ := h k grp₀ hfind
    obtain ⟨hid', hmembers'⟩ := hf grp₀ (hgid ▸ hfind) hmembers
    exact ⟨hid'.trans hid, hmembers'⟩
  · rw [if_neg hgid] at hk
    exact h k grp hk

/-- **A group request keeps the records**, unless it removes the last member. -/
theorem inGroups_kept {v : GroupView} {c : Command} (h : WellKept v.groups)
    (hremove : ∀ gid uid, c = .remove_from_group gid uid → uid = me ∨ v.hasAdmin gid me = true →
      ∀ grp, v.groups gid = some grp → (grp.members.erase uid).empty = false) :
    WellKept (c.inGroups me ms v).2.groups := by
  cases c with
  | create_group name memberIds =>
    intro k grp hk
    dsimp only [Command.inGroups] at hk
    by_cases hnew : k = v.next
    · rw [if_pos hnew] at hk
      cases hk
      exact ⟨hnew.symm, empty_mark_all memberIds me⟩
    · rw [if_neg hnew] at hk
      exact h k grp hk
  | invite_to_group gid uid =>
    rw [Command.inGroups]
    split
    · exact h.adjust fun grp _ _ => ⟨rfl, empty_set _ _ _⟩
    · exact h
  | accept_group_invite gid => exact h.adjust fun grp _ _ => ⟨rfl, empty_set _ _ _⟩
  | rename_group gid newName =>
    rw [Command.inGroups]
    split
    · exact h.adjust fun grp _ hmembers => ⟨rfl, hmembers⟩
    · exact h
  | make_admin gid uid =>
    rw [Command.inGroups]
    split
    · exact h.adjust fun grp _ hmembers => ⟨rfl, hmembers⟩
    · exact h
  | remove_from_group gid uid =>
    rw [Command.inGroups]
    by_cases hpermitted : (if uid = me then (v.groups gid).isSome else v.hasAdmin gid me) = true
    · rw [if_pos hpermitted]
      have hmay : uid = me ∨ v.hasAdmin gid me = true := by
        by_cases huid : uid = me
        · exact .inl huid
        · rw [if_neg huid] at hpermitted
          exact .inr hpermitted
      exact h.adjust fun grp hfind _ => ⟨rfl, hremove gid uid rfl hmay grp hfind⟩
    · rw [if_neg hpermitted]
      exact h
  | leave_group gid =>
    -- the record goes with the last member
    intro k grp hk
    dsimp only [Command.inGroups, GroupView.leave] at hk
    by_cases hgid : k = gid
    · rw [if_pos hgid] at hk
      obtain ⟨grp₀, hfind, hleft⟩ := Option.bind_eq_some_iff.mp hk
      by_cases hlast : (grp₀.members.erase me).empty = true
      · rw [if_pos hlast] at hleft
        cases hleft
      · rw [if_neg hlast] at hleft
        cases hleft
        exact ⟨(h k grp₀ hfind).1, Bool.not_eq_true _ ▸ hlast⟩
    · rw [if_neg hgid] at hk
      exact h k grp hk
  | _ => exact h

/-- The operation keeps the records whatever the state. -/
def Op.keepsRecords {β : Type} : Op β → Prop
  | .modify .g_groups f => ∀ g : Groups, WellKept g.find? → WellKept (f g).find?
  | _ => True

theorem Op.keepsRecords.exec {β : Type} {o : Op β} (ho : o.keepsRecords) (env : Env) (w : World)
    (h : WellKept w.mem.g_groups.find?) : WellKept (o.exec env w).2.mem.g_groups.find? := by
  cases o with
  | modify x f =>
    cases x with
    | g_groups => exact ho _ h
    | _ => exact h
  | _ => exact h

theorem keepsRecords_of_footprint {S : List Field} {α : Type} (p : Prog S α) (h : .var .g_groups ∉ S) :
    p.Always Op.keepsRecords fun _ => True := by
  refine always_of_footprint p fun o ho => ?_
  cases o with
  | modify x f =>
    cases x with
    | g_groups => exact absurd (ho _ (by simp [Op.writes])) h
    | _ => trivial
  | _ => trivial

theorem set_nickname_kept (gid uid : Int) (nick : Bytes) (g : Groups) (h : WellKept g.find?) :
    WellKept (set_nickname gid uid nick g).find? := by
  intro k grp hk
  rw [set_nickname, UMap.find?_adjust] at hk
  by_cases hgid : k = gid
  · subst hgid
    rw [if_pos rfl] at hk
    obtain ⟨grp₀, hfind, rfl⟩ := Option.map_eq_some_iff.mp hk
    exact h k grp₀ hfind
  · rw [if_neg hgid] at hk
    exact h k grp hk

end Changes

/-! ## What a step does to the records -/

section Steps

variable {env : Env} {w w₀ w' : World} {e : Event}

/-- A nickname is a change of one record that leaves it its members. -/
theorem set_group_nickname_kept (fd me gid uid : Int) (nick : Bytes) (h : WellKept w.mem.g_groups.find?) :
    WellKept ((handle_client.set_group_nickname false fd me gid uid nick).run env w).2.mem.g_groups.find? := by
  have hops : (handle_client.set_group_nickname false fd me gid uid nick).Always Op.keepsRecords
      fun _ => True := by
    simp [handle_client.set_group_nickname, announce_nickname, andNext, Op.keepsRecords,
      keepsRecords_of_footprint]
    exact set_nickname_kept gid uid nick
  exact hops.invariant (I := fun w => WellKept w.mem.g_groups.find?)
    (fun o w ho hw => ho.exec env w hw) h

/-- A step that writes no group keeps the records. -/
theorem wellKept_of_same (h : WellKept w.mem.g_groups.find?) (hsame : (Field.var .g_groups).Same w w') :
    WellKept w'.mem.g_groups.find? := by
  have hgroups : w'.mem.g_groups = w.mem.g_groups := hsame
  rw [hgroups]
  exact h

theorem wellKept_step (hI : WellKept w.mem.g_groups.find?) (htx : w.db.tx = none)
    (hC : emptiesGroup w e = false) (hs : Server.step false env w e = some w') :
    WellKept w'.mem.g_groups.find? := by
  cases Server.move_of_step false env hs with
  | accepted fd valid unused => exact hI
  | hungup fd me opened => exact wellKept_of_same hI (end_connection_frame fd w (by simp))
  | refused fd me r opened invalid =>
    refine wellKept_of_same hI (Field.Same.trans ?_ (end_connection_frame fd _ (by simp)))
    exact run_frame env (invalid_header fd) w (by simp)
  | performed fd me rid r c opened command =>
    have hsession : w.session fd = me := UMap.get_of_find? opened
    have hfinish : (Field.var .g_groups).Same ((perform false fd me rid c).run env w).2
        (finish env fd ((perform false fd me rid c).run env w)) := finish_frame fd _ (by simp)
    refine wellKept_of_same ?_ hfinish
    by_cases hrequest : c.isGroupRequest = true
    · have hserved : Ensures env w (perform false fd me rid c) fun _ w' =>
          Served me (env.clock_ms w.ticks) c w w' := perform_served fd me rid hrequest
      have hview : ((perform false fd me rid c).run env w).2.mem.g_groups.find? =
          (c.inGroups me (env.clock_ms w.ticks) w.groupView).2.groups :=
        congrArg GroupView.groups hserved.view
      rw [hview]
      refine inGroups_kept hI fun gid uid hc hmay grp hfind => ?_
      subst hc
      have hlast : w.mem.leavesLast gid uid = (grp.members.erase uid).empty := by
        have hfind' : w.mem.g_groups.find? gid = some grp := hfind
        rw [ServerState.leavesLast, hfind', Option.any_some]
      rw [emptiesGroup, command] at hC
      dsimp only at hC
      rw [hsession, hlast] at hC
      have hmay' : (decide (uid = me) || w.mem.hasAdmin gid me) = true := by
        rw [Bool.or_eq_true, decide_eq_true_eq]
        exact hmay
      rwa [hmay', Bool.true_and] at hC
    · cases c with
      | set_group_nickname gid uid nick =>
        rw [perform, run_lift]
        exact set_group_nickname_kept fd me gid uid nick hI
      | create_group | invite_to_group | accept_group_invite | rename_group | remove_from_group
        | make_admin | leave_group => exact absurd rfl hrequest
      | _ =>
        exact wellKept_of_same hI (perform_effect false fd me rid _ htx
          (by simp [Command.effect, Command.writes]))

/-- **Groups are well kept** in every run without a database in which nobody removes the last member
of a group. -/
theorem groups_well_kept {tr : List (Taken World Event)} (booted : Booted false env w₀)
    (run : Server.Run false env (fun w e => emptiesGroup w e = false) w₀ tr w) :
    WellKept w.mem.g_groups.find? := by
  have hstart : WellKept w₀.mem.g_groups.find? := by
    intro gid grp hfind
    rw [booted.groups_empty, UMap.find?_empty] at hfind
    cases hfind
  exact (booted.invariant (I := fun w => WellKept w.mem.g_groups.find?) run hstart
    fun x e y hx htx hC hs => wellKept_step hx htx hC hs).1

/-- No more can be allowed: the step leaves a record without members behind. -/
theorem emptied_of_step (hC : emptiesGroup w e = true) (hs : Server.step false env w e = some w') :
    ¬WellKept w'.mem.g_groups.find? := by
  cases Server.move_of_step false env hs with
  | accepted fd valid unused => cases hC
  | hungup fd me opened => cases hC
  | refused fd me r opened invalid =>
    simp [emptiesGroup, Event.command, invalid] at hC
  | performed fd me rid r c opened command =>
    have hsession : w.session fd = me := UMap.get_of_find? opened
    rw [emptiesGroup, command] at hC
    cases c with
    | remove_from_group gid uid =>
      dsimp only at hC
      rw [hsession, Bool.and_eq_true, Bool.or_eq_true, decide_eq_true_eq] at hC
      obtain ⟨hmay, hlast⟩ := hC
      rw [ServerState.leavesLast, Option.any_eq_true] at hlast
      obtain ⟨grp, hfind, hempty⟩ := hlast
      have hserved : Ensures env w (perform false fd me rid (.remove_from_group gid uid)) fun _ w' =>
          Served me (env.clock_ms w.ticks) (.remove_from_group gid uid) w w' := perform_served fd me rid rfl
      have hfinish : (Field.var .g_groups).Same
          ((perform false fd me rid (.remove_from_group gid uid)).run env w).2
          (finish env fd ((perform false fd me rid (.remove_from_group gid uid)).run env w)) :=
        finish_frame fd _ (by simp)
      have hpermitted : (if uid = me then (w.groupView.groups gid).isSome
          else w.groupView.hasAdmin gid me) = true := by
        have hknown : (w.groupView.groups gid).isSome = true := Option.isSome_iff_exists.mpr ⟨grp, hfind⟩
        by_cases huid : uid = me
        · rw [if_pos huid]
          exact hknown
        · rw [if_neg huid]
          exact hmay.resolve_left huid
      intro hkept
      have hview := hserved.view
      rw [Command.inGroups, if_pos hpermitted] at hview
      have hfind' : ((perform false fd me rid (.remove_from_group gid uid)).run env w).2.mem.g_groups.find? gid
          = some { grp with members := grp.members.erase uid, admins := grp.admins.erase uid } := by
        refine (congrFun (congrArg GroupView.groups hview) gid).trans ?_
        rw [GroupView.adjust]
        dsimp only
        rw [if_pos rfl]
        exact congrArg (Option.map _) hfind
      have hgone := hkept gid _ ((congrArg (UMap.find? · gid) hfinish).trans hfind')
      rw [hempty] at hgone
      exact Bool.noConfusion hgone.2
    | _ => cases hC

end Steps

/-- User 1 creates a group with user 2 and removes it again. -/
theorem groups_well_kept_removed : ∃ w, Reachable false Env.calm w ∧ w.mem.hasMember 1 1 = true ∧
    w.mem.hasMember 1 2 = false ∧ WellKept w.mem.g_groups.find? := by
  have hrun : (Run.exec (Run.guard (Server.step false Env.calm) fun w e => !emptiesGroup w e)
      (World.new Tables.empty) (two_users ++ [.send 5 .CREATE_GROUP "name=g&members=2",
        .send 5 .REMOVE_FROM_GROUP "groupId=1&userId=2"])).map
        (fun w => (w.mem.hasMember 1 1, w.mem.hasMember 1 2)) = some (true, false) := by decide
  obtain ⟨tr, w, run, hw⟩ := run_of_exec hrun
  obtain ⟨hone, htwo⟩ := Prod.mk.inj hw
  have hkeeps := run.mono fun x e hC => Bool.not_eq_true' _ ▸ hC
  exact ⟨w, ⟨_, tr, booted_new Tables.empty_valid, run.mono fun _ _ _ => trivial⟩, hone, htwo,
    groups_well_kept (booted_new Tables.empty_valid) hkeeps⟩

/-- **A group may have nobody in it**: user 1 creates a group alone and removes itself. -/
theorem group_emptied : ¬∀ env w, Reachable false env w → WellKept w.mem.g_groups.find? := by
  intro claim
  have hrun : (Run.exec (Server.step false Env.calm) (World.new Tables.empty)
      (two_users ++ [.send 5 .CREATE_GROUP "name=g", .send 5 .REMOVE_FROM_GROUP "groupId=1&userId=1"])).map
        (fun w => (w.mem.g_groups.find? 1).map fun grp => grp.members.empty) = some (some true) := by decide
  obtain ⟨w, hreach, hw⟩ := reachable_of_exec (World.new_fresh Tables.empty_valid) rfl hrun
  obtain ⟨grp, hfind, hempty⟩ := Option.map_eq_some_iff.mp hw
  have hmembers := (claim Env.calm w hreach 1 grp hfind).2
  rw [hempty] at hmembers
  cases hmembers

end ChatApp
