/-
`FriendSymmetry.lean` -- friendship is mutual, whatever the handlers do to each other.

The two directions of a friendship are two entries of `g_friends`. No operation of a handler
writes one of them without the other, and the lookups that insert add empty entries. So the
symmetry is kept by every operation, and it does not matter where the handlers take turns.
-/
import ChatApp.Concurrent
import ChatApp.Restart

set_option autoImplicit false

namespace ChatApp

open Prog PostgresPersistence handle_client

/-! ## The operations on the graph -/

/-- `g_friends[a][b]` is true exactly when `g_friends[b][a]` is. -/
def SymmetricFriends (g : Friends) : Prop := ∀ a b, (g.get a).get b = true ↔ (g.get b).get a = true

/-- A lookup adds an empty entry. -/
@[simp] theorem symmetricFriends_touch (a : Int) (g : Friends) :
    SymmetricFriends (g.touch a) ↔ SymmetricFriends g := by
  simp only [SymmetricFriends, UMap.get_touch]

theorem SymmetricFriends.touch_pair {g : Friends} (hg : SymmetricFriends g) (a b : Int) :
    SymmetricFriends (touch_pair a b g) := by
  unfold ChatApp.touch_pair
  split
  · exact (symmetricFriends_touch a g).mpr hg
  · exact (symmetricFriends_touch b _).mpr ((symmetricFriends_touch a g).mpr hg)

theorem SymmetricFriends.befriend {g : Friends} (hg : SymmetricFriends g) (a b : Int) :
    SymmetricFriends (befriend a b g) := by
  intro x y
  rw [get_befriend, get_befriend]
  simp only [Bool.or_eq_true, decide_eq_true_eq, hg x y]
  tauto

theorem SymmetricFriends.unfriend_pair {g : Friends} (hg : SymmetricFriends g) (a b : Int) :
    SymmetricFriends (unfriend_pair a b g) := by
  intro x y
  rw [get_unfriend_pair, get_unfriend_pair]
  simp only [Bool.and_eq_true, Bool.not_eq_true', decide_eq_false_iff_not, hg x y]
  tauto

/-! ## The operations of the handlers -/

/-- The operation keeps the graph symmetric. -/
@[simp] def Op.mutual {β : Type} : Op β → Prop
  | .modify .g_friends f => ∀ g, SymmetricFriends g → SymmetricFriends (f g)
  | _ => True

theorem Op.mutual.exec {β : Type} {o : Op β} (ho : o.mutual) (env : Env) {w : World}
    (hw : SymmetricFriends w.mem.g_friends) : SymmetricFriends (o.exec env w).2.mem.g_friends := by
  cases o with
  | modify x f =>
    cases x with
    | g_friends => exact ho _ hw
    | _ => exact hw
  | _ => exact hw

theorem mutual_of_footprint {S : List Field} {α : Type} (p : Prog S α)
    (hS : .var .g_friends ∉ S) : p.Always Op.mutual fun _ => True := by
  refine always_of_footprint p fun o ho => ?_
  cases o with
  | modify x f =>
    cases x with
    | g_friends => exact absurd (ho _ (by simp [Op.writes])) hS
    | _ => trivial
  | _ => trivial

theorem perform_mutual (pg : Bool) (fd me rid : Int) (c : Command) :
    (perform pg fd me rid c).Always Op.mutual fun _ => True := by
  have hpart : ∀ {α : Type} {S T : List Field} (p : Prog S α) (h : S ⊆ T), .var .g_friends ∉ S →
      (p.lift h).Always Op.mutual fun _ => True :=
    fun p h hS => (always_lift p h).mpr (mutual_of_footprint p hS)
  have hnotify : ∀ uid online, (notify_friends_status_change uid online).Always Op.mutual
      fun _ => True := fun uid online => by
    simp [notify_friends_status_change, find_fd, Op.mutual]
  cases c with
  | register payload =>
    rw [perform, always_lift]
    refine Always.seq ((always_ite ..).mpr ⟨fun _ => by simp [Op.mutual], fun _ => ?_⟩)
      fun _ => trivial
    refine Always.locked (Always.seq (by simp [Op.mutual]) fun taken => ?_) trivial trivial
    refine (always_ite ..).mpr ⟨fun _ => by simp [Op.mutual], fun _ => ?_⟩
    refine Always.seq (hpart _ _ (by simp)) fun uid => ?_
    simp [register_user, Op.mutual]
  | login payload =>
    rw [perform, always_lift]
    refine Always.seq (hpart _ _ (by simp)) fun session => ?_
    cases session with
    | none => trivial
    | some l =>
      refine Always.seq ((always_lift ..).mpr ?_) fun _ => trivial
      refine Always.seq (by simp [Op.mutual]) fun _ => Always.seq (hnotify l.uid true) fun _ => ?_
      refine Always.seq (hpart _ _ (by simp)) fun _ => ?_
      simp [get_pending_group_invites, send_pending_invite, Op.mutual]
  | logout => simp [perform, logout, go_offline, hnotify, Op.mutual]
  | search_user payload => simp [perform, search_user, andNext, Op.mutual]
  | get_all_users => simp [perform, get_all_users, andNext, Op.mutual]
  | get_friends_list =>
    rw [perform, always_lift]
    refine Always.seq (by simp [Op.mutual]) fun found => ?_
    refine Always.seq (hpart _ _ (by simp)) fun froms => Always.seq (hpart _ _ (by simp)) fun items => ?_
    simp [andNext, Op.mutual]
  | friend_request target =>
    rw [perform, always_lift]
    refine Always.seq (hpart _ _ (by simp)) fun found => ?_
    cases found with
    | error e => simp [andNext, Op.mutual]
    | ok x =>
      refine Always.seq ((always_ite ..).mpr ⟨fun _ => by simp [Op.mutual], fun _ => ?_⟩)
        fun _ => trivial
      refine Always.seq ((always_lift ..).mpr (Always.locked ?_ trivial trivial)) fun refused => ?_
      · refine Always.seq (by simp [Op.mutual]) fun already => ?_
        refine Always.seq ((always_modify ..).mpr
          ⟨fun g hg => hg.touch_pair me x, trivial⟩) fun _ => ?_
        refine (always_ite ..).mpr ⟨fun _ => trivial, fun _ => ?_⟩
        refine Always.seq (hpart _ _ (by simp)) fun refused => ?_
        simp [Op.mutual]
      · refine (always_ite ..).mpr ⟨fun _ => by simp [Op.mutual], fun _ => ?_⟩
        exact Always.seq (hpart _ _ (by simp)) fun _ => by simp [Op.mutual]
  | friend_accept other =>
    rw [perform, always_lift]
    have hrest : ∀ ok, (accept_in_memory fd me other ok).Always Op.mutual fun _ => True := by
      intro ok
      refine (always_ite ..).mpr ⟨fun _ => by simp [Op.mutual], fun _ => ?_⟩
      refine Always.seq (by simp [Op.mutual]) fun _ => ?_
      exact Always.seq ((always_modify ..).mpr ⟨fun g hg => hg.befriend me other, trivial⟩)
        fun _ => by simp [Op.mutual]
    refine Always.seq (Always.locked ((always_ite ..).mpr ⟨fun _ => ?_, fun _ => ?_⟩) trivial trivial)
      fun _ => trivial
    · refine Always.seq (hpart _ _ (by simp [all_tables])) fun ok => ?_
      exact (always_lift ..).mpr (hrest ok)
    · refine Always.seq (always_pure true |>.mpr trivial) fun ok => ?_
      exact (always_lift ..).mpr (hrest ok)
  | unfriend other =>
    rw [perform, always_lift]
    refine Always.seq (Always.locked ?_ trivial trivial) fun _ => trivial
    exact Always.seq ((always_modify ..).mpr ⟨fun g hg => hg.unfriend_pair me other, trivial⟩)
      fun _ => by simp [Op.mutual]
  | _ => rw [perform]; exact hpart _ _ (by simp [all_tables])

theorem cleanup_mutual (fd me : Int) : (cleanup fd me).Always Op.mutual fun _ => True := by
  simp [cleanup, go_offline, notify_friends_status_change, find_fd, Op.mutual]

/-! ## Every state -/

/-- The graph that is loaded is symmetric: a row of `friends` gives both directions, and both
users are loaded. -/
theorem Booted.symmetricFriends {pg : Bool} {env : Env} {w : World} (h : Booted pg env w)
    (hs : pg = true → env.SqlSucceeds) : SymmetricFriends w.mem.g_friends := by
  cases pg with
  | true =>
    have hgraph := h.graphAgrees (hs rfl)
    intro a b
    exact (hgraph.friends a b).trans ((Tables.edge_comm ..).trans (hgraph.friends b a).symm)
  | false =>
    obtain ⟨w₀, -, ⟨hpg, -⟩ | ⟨-, s, hload, rfl⟩⟩ := h.loaded
    · exact Bool.noConfusion hpg
    · have hfriends := (load_users_friendless hload).friends
      intro a b
      exact iff_of_eq (congrArg (· = true) ((hfriends a b).trans (hfriends b a).symm))

/-- **Friendship is mutual** in every state that the server reaches, whatever turns its handlers
take, with a database or without. The load and the requests have an environment each: the queries
of the load are assumed to succeed, and nothing else is. -/
theorem friends_symmetric {pg : Bool} {env₀ env : Env} {w₀ : World} {s : Concurrent}
    {tr : List (Taken Concurrent Concurrent.Event)} (booted : Booted pg env₀ w₀)
    (hload : pg = true → env₀.SqlSucceeds)
    (run : Concurrent.Run pg env (fun _ _ => True) (.quiet w₀) tr s) (a b : Int) :
    s.world.mem.isFriend a b = true ↔ s.world.mem.isFriend b a = true := by
  have hsymmetric : SymmetricFriends s.world.mem.g_friends :=
    Concurrent.invariant_of_ops (I := fun w => SymmetricFriends w.mem.g_friends)
      (perform_mutual pg) (fun fd => by simp [invalid_header, Op.mutual]) cleanup_mutual
      (fun o w ho hw => ho.exec env hw) (fun w fd hw => hw) run (booted.symmetricFriends hload)
      fun h hh => absurd hh List.not_mem_nil
  exact hsymmetric a b

/-- User 1 accepts user 2, who unfriends user 1 at the same time: the handler of 2 is done when that
of 1 begins its critical section. -/
theorem friends_symmetric_accepting : ∃ tr s,
    Concurrent.Run false Env.calm (fun _ _ => True) (.quiet (World.new Tables.empty)) tr s ∧
      s.world.mem.isFriend 1 2 = true ∧
      (s.world.mem.isFriend 1 2 = true ↔ s.world.mem.isFriend 2 1 = true) := by
  have hrun : (Run.exec (Run.guard (Concurrent.step false Env.calm) fun _ _ => true)
      (.quiet (World.new Tables.empty)) (Concurrent.two_users
        ++ [.request 5 (.of .FRIEND_ACCEPT "userId=2"), .request 6 (.of .UNFRIEND "userId=1"),
          .advance 1, .advance 0])).map (fun s => s.world.mem.isFriend 1 2) = some true := by decide
  obtain ⟨tr, s, run, hfriend⟩ := Concurrent.run_of_exec hrun
  have hrun := run.mono (D := fun _ _ => True) fun _ _ _ => trivial
  exact ⟨tr, s, hrun, hfriend, friends_symmetric (booted_new Tables.empty_valid)
    (fun h => absurd h Bool.false_ne_true) hrun 1 2⟩

end ChatApp
