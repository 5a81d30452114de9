/-
`UserTables.lean` -- the two user tables and the counter.

Without a database `g_users_by_name` and `g_users_by_id` hold the same records, each under its own key,
and `g_next_user_id` is above every id. A `REGISTER` keeps this: it is one critical section, it
takes the counter's value, and no user is ever removed, so that the counter is one more than the number of
users for as long as it does not overflow. The statement is about every interleaving.
-/
import ChatApp.Accounts

set_option autoImplicit false

namespace ChatApp

open Prog PostgresPersistence handle_client

/-! ## Consistent tables -/

/-- The user tables are inverse to each other, under the keys the records have; the ids are positive and
distinct, and the counter is above them. -/
structure UsersConsistent (s : ServerState) : Prop where
  named : ∀ n u, s.g_users_by_name.find? n = some u → u.username = n
  numbered : ∀ i u, s.g_users_by_id.find? i = some u → u.id = i
  inverse : ∀ n i, (∃ u, s.g_users_by_name.find? n = some u ∧ u.id = i) ↔
    ∃ u, s.g_users_by_id.find? i = some u ∧ u.username = n
  distinct : ∀ n n' u u', s.g_users_by_name.find? n = some u → s.g_users_by_name.find? n' = some u' →
    u.id = u'.id → n = n'
  positive : ∀ i u, s.g_users_by_id.find? i = some u → 0 < i
  above : ∀ i u, s.g_users_by_id.find? i = some u → i < s.g_next_user_id

/-- The user `u`, whose name and id were free, was added, and nothing else changed. -/
structure Added (u : User) (s s' : ServerState) : Prop where
  free_name : s.g_users_by_name.find? u.username = none
  free_id : s.g_users_by_id.find? u.id = none
  by_name : s'.g_users_by_name = s.g_users_by_name.set u.username u
  by_id : s'.g_users_by_id = s.g_users_by_id.set u.id u

/-- The transition is the turn of a `REGISTER` that is answered with `SUCCESS`. -/
def Concurrent.Registers (t : Taken Concurrent Concurrent.Event) : Prop :=
  ∃ i fd me rid payload, t.event = .advance i ∧
    t.before.handlers[i]? = some ⟨fd, perform false fd me rid (.register payload)⟩ ∧
    Succeeded fd t.before.world t.after.world

/-- What holds of the tables while the counter has not overflowed: they hold the same records, and the
counter is one more than their number. -/
structure UsersCounted (s : ServerState) : Prop where
  named : ∀ n u, s.g_users_by_name.find? n = some u → u.username = n
  numbered : ∀ i u, s.g_users_by_id.find? i = some u → u.id = i
  same : ∀ u, s.g_users_by_name.find? u.username = some u ↔ s.g_users_by_id.find? u.id = some u
  bounded : ∀ i u, s.g_users_by_id.find? i = some u → 0 < i ∧ i < s.g_next_user_id
  counted : s.g_next_user_id = s.g_users_by_name.size + 1

theorem UsersCounted.consistent {s : ServerState} (h : UsersCounted s) : UsersConsistent s := by
  have hby_id : ∀ n u, s.g_users_by_name.find? n = some u → s.g_users_by_id.find? u.id = some u := by
    intro n u hu
    rw [← h.same, h.named n u hu]
    exact hu
  refine ⟨h.named, h.numbered, fun n i => ⟨?_, ?_⟩, ?_, fun i u hu => (h.bounded i u hu).1,
    fun i u hu => (h.bounded i u hu).2⟩
  · rintro ⟨u, hu, rfl⟩
    exact ⟨u, hby_id n u hu, h.named n u hu⟩
  · rintro ⟨u, hu, rfl⟩
    have hid := h.numbered i u hu
    refine ⟨u, (h.same u).mpr ?_, hid⟩
    rwa [hid]
  · intro n n' u u' hu hu' hid
    have hu₁ := hby_id n u hu
    have hu₂ := hby_id n' u' hu'
    rw [hid, hu₂] at hu₁
    rw [← h.named n u hu, ← h.named n' u' hu', Option.some.inj hu₁]

section Steps

variable {env : Env} {w w' : World} {u : User} {fd : Int} {payload : Bytes}

/-- The counter counts up until it reaches the largest `int`. -/
theorem succ_int_of_lt {n : Nat} (h : n + 2 < 2 ^ 31) : succ_int ((n : Int) + 1) = (n : Int) + 2 := by
  rw [succ_int, Int.bmod_eq_of_le] <;> omega

theorem usersCounted_same (hsame : AccountsSame w w') (h : UsersCounted w.mem) : UsersCounted w'.mem := by
  obtain ⟨hnamed, hnumbered, hsame', hbounded, hcounted⟩ := h
  constructor
  all_goals simp only [hsame.by_name, hsame.by_id, hsame.next]
  all_goals assumption

/-- The new id is free: it is the counter's value. -/
theorem added_of_entered (hentered : Entered false env fd payload u w w') (h : UsersCounted w.mem) :
    Added u w.mem w'.mem := by
  refine ⟨hentered.free, ?_, hentered.by_name, hentered.by_id⟩
  have hid : u.id = w.mem.g_next_user_id := hentered.id
  by_contra hused
  obtain ⟨u', hu'⟩ := Option.ne_none_iff_exists'.mp hused
  have hbelow := (h.bounded _ _ hu').2
  omega

theorem usersCounted_entered (hentered : Entered false env fd payload u w w') (h : UsersCounted w.mem)
    (hfew : w'.mem.g_users_by_name.size < 2 ^ 31 - 1) : UsersCounted w'.mem := by
  have hadded := added_of_entered hentered h
  have hid : u.id = w.mem.g_users_by_name.size + 1 := Eq.trans hentered.id h.counted
  have hsize : w'.mem.g_users_by_name.size = w.mem.g_users_by_name.size + 1 := by
    rw [hadded.by_name, UMap.size_set_of_absent u hadded.free_name]
  have hnext : w'.mem.g_next_user_id = w.mem.g_users_by_name.size + 2 := by
    rw [hentered.next rfl, h.counted, succ_int_of_lt (by omega)]
  have hcounted := h.counted
  constructor
  · intro n v hv
    rw [hadded.by_name, UMap.find?_set] at hv
    split at hv
    · next hn => rw [← Option.some.inj hv, hn]
    · exact h.named n v hv
  · intro i v hv
    rw [hadded.by_id, UMap.find?_set] at hv
    split at hv
    · next hi => rw [← Option.some.inj hv, hi]
    · exact h.numbered i v hv
  · intro v
    by_cases hv : v = u
    · simp [hv, hadded.by_name, hadded.by_id]
    · -- an old record has neither the new name nor the new id
      have hold := h.same v
      have hfree : w.mem.g_users_by_name.find? v.username = some v →
          v.username ≠ u.username ∧ v.id ≠ u.id := by
        refine fun hin => ⟨fun hname => ?_, fun hid => ?_⟩
        · rw [hname, hadded.free_name] at hin
          cases hin
        · have hin := hold.mp hin
          rw [hid, hadded.free_id] at hin
          cases hin
      rw [hadded.by_name, hadded.by_id, UMap.find?_set, UMap.find?_set]
      constructor
      · intro hin
        split at hin
        · exact absurd (Option.some.inj hin).symm hv
        · rw [if_neg (hfree hin).2]
          exact hold.mp hin
      · intro hin
        split at hin
        · exact absurd (Option.some.inj hin).symm hv
        · rw [if_neg (hfree (hold.mpr hin)).1]
          exact hold.mpr hin
  · intro i v hv
    rw [hadded.by_id, UMap.find?_set] at hv
    split at hv
    · next hi => omega
    · have hold := h.bounded i v hv
      omega
  · rw [hnext, hsize]
    omega

end Steps

/-! ## Runs -/

section Runs

variable {env : Env} {w₀ : World} {s : Concurrent} {tr : List (Taken Concurrent Concurrent.Event)}

/-- What a transition does to the users: a successful `REGISTER` adds one, nothing else changes any. -/
def Concurrent.AddsOne (t : Taken Concurrent Concurrent.Event) : Prop :=
  (Concurrent.Registers t → ∃ u, Added u t.before.world.mem t.after.world.mem) ∧
    (¬Concurrent.Registers t → AccountsSame t.before.world t.after.world)

/-- The turn of a successful `REGISTER` enters a user. -/
theorem entered_of_registers {x y : Concurrent} {e : Concurrent.Event}
    (hs : Concurrent.step false env x e = some y) (hregisters : Concurrent.Registers ⟨x, e, y⟩) :
    ∃ fd payload u, Entered false env fd payload u x.world y.world := by
  obtain ⟨i, fd, me, rid, payload, rfl, hget, hsucceeded⟩ := hregisters
  cases Concurrent.move_of_step false env hs with
  | finished i h out =>
    -- nothing was sent
    obtain ⟨f, hout, -⟩ := hsucceeded
    simp at hout
  | turned i h hget' =>
    rw [hget] at hget'
    cases hget'
    rcases (@register_turn false env x.world fd me rid payload).2 with hdenied | ⟨u, hentered⟩
    · exact absurd hsucceeded hdenied.fails
    · exact ⟨fd, payload, u, hentered⟩

theorem addsOne_of_step {x y : Concurrent} {e : Concurrent.Event}
    (hs : Concurrent.step false env x e = some y) (hstages : ∀ h ∈ x.handlers, Stage false h)
    (hcounted : UsersCounted x.world.mem) : Concurrent.AddsOne ⟨x, e, y⟩ := by
  constructor
  · intro hregisters
    obtain ⟨fd, payload, u, hentered⟩ := entered_of_registers hs hregisters
    exact ⟨u, added_of_entered hentered hcounted⟩
  · intro hother
    rcases (stages_step hs hstages).2 with hsame | ⟨i, fd, me, rid, payload, u, he, hget, hentered⟩
    · exact hsame
    · exact absurd ⟨i, fd, me, rid, payload, he, hget, hentered.succeeded⟩ hother

/-- **The user tables are consistent** in every state of every interleaving that starts with empty
tables, while there are fewer than `2 ^ 31 - 1` users; and every transition adds one user if it is
a successful `REGISTER`, and otherwise changes none. -/
theorem users_consistent (start : w₀.mem = ServerState.initial)
    (run : Concurrent.Run false env (fun _ _ => True) (.quiet w₀) tr s)
    (few : s.world.mem.g_users_by_name.size < 2 ^ 31 - 1) :
    UsersConsistent s.world.mem ∧ ∀ t ∈ tr, Concurrent.AddsOne t := by
  suffices h : (∀ h ∈ s.handlers, Stage false h) ∧ (s.world.mem.g_users_by_name.size < 2 ^ 31 - 1 →
      UsersCounted s.world.mem ∧ ∀ t ∈ tr, Concurrent.AddsOne t) from
    ⟨(h.2 few).1.consistent, (h.2 few).2⟩
  refine run.history (I := fun past x => (∀ h ∈ x.handlers, Stage false h) ∧
    (x.world.mem.g_users_by_name.size < 2 ^ 31 - 1 →
      UsersCounted x.world.mem ∧ ∀ t ∈ past, Concurrent.AddsOne t)) ?_ ?_
  · refine ⟨fun h hh => absurd hh List.not_mem_nil, fun _ => ⟨?_, fun t ht => absurd ht List.not_mem_nil⟩⟩
    rw [Concurrent.quiet, start]
    constructor <;> simp [ServerState.initial]
  · rintro past x e y ⟨hstages, hx⟩ - hs
    obtain ⟨hstages', heffect⟩ := stages_step hs hstages
    refine ⟨hstages', fun hfew => ?_⟩
    -- the number of users only grows
    have hbefore : x.world.mem.g_users_by_name.size ≤ y.world.mem.g_users_by_name.size := by
      rcases heffect with hsame | ⟨_, _, _, _, _, u, _, _, hentered⟩
      · rw [hsame.by_name]
      · rw [hentered.by_name, UMap.size_set_of_absent u hentered.free]
        omega
    obtain ⟨hcounted, hpast⟩ := hx (by omega)
    refine ⟨?_, fun t ht => ?_⟩
    · rcases heffect with hsame | ⟨_, _, _, _, _, u, _, _, hentered⟩
      · exact usersCounted_same hsame hcounted
      · exact usersCounted_entered hentered hcounted hfew
    · rcases List.mem_append.mp ht with ht | ht
      · exact hpast t ht
      · rw [List.mem_singleton.mp ht]
        exact addsOne_of_step hs hstages hcounted

end Runs

/-- Two users register, one after the other. -/
theorem users_consistent_two : ∃ tr s, Concurrent.Run false Env.calm (fun _ _ => True)
    (.quiet (World.new Tables.empty)) tr s ∧ s.world.mem.g_users_by_name.size = 2 ∧
      UsersConsistent s.world.mem ∧ ∀ t ∈ tr, Concurrent.AddsOne t := by
  have hrun : (Run.exec (Run.guard (Concurrent.step false Env.calm) fun _ _ => true)
      (.quiet (World.new Tables.empty)) Concurrent.two_users).map
        (fun s => s.world.mem.g_users_by_name.size) = some 2 := by decide
  obtain ⟨tr, s, run, hsize⟩ := Concurrent.run_of_exec hrun
  have run := run.mono fun _ _ _ => trivial
  exact ⟨tr, s, run, hsize, users_consistent rfl run (by rw [hsize]; decide)⟩

end ChatApp
