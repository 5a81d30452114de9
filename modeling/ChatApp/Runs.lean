/-
`Runs.lean` -- runs of a labelled transition system, and the rules for proving
things about them.

A step is a partial function of a state and an event: `none` is an event that
cannot happen in that state. A run is finite and remembers every transition it took,
so a property of the past ("there was an earlier request") is a property of the run's
history. A run may be restricted to steps that meet a condition `C`; a theorem
about every such run says what the condition buys.
-/
import Mathlib.Data.List.Basic

set_option autoImplicit false

namespace ChatApp

universe u v

/-- A transition that was taken. -/
structure Taken (σ : Type u) (ε : Type v) where
  before : σ
  event : ε
  after : σ

/-- `Run step C s tr s'`: from `s`, the transitions `tr`, each of them meeting `C`, lead
to `s'`. -/
inductive Run {σ : Type u} {ε : Type v} (step : σ → ε → Option σ) (C : σ → ε → Prop) :
    σ → List (Taken σ ε) → σ → Prop where
  | nil (s : σ) : Run step C s [] s
  | snoc {s t u : σ} {tr : List (Taken σ ε)} {e : ε} (run : Run step C s tr t) (meets : C t e)
      (steps : step t e = some u) : Run step C s (tr ++ [⟨t, e, u⟩]) u

namespace Run

variable {σ : Type u} {ε : Type v} {step : σ → ε → Option σ} {C D : σ → ε → Prop} {s t u : σ}
  {tr tr' : List (Taken σ ε)}

/-! ## Rules -/

/-- **The history rule.** A relation between the past and the state that holds at
the start and is preserved by every step of a run holds at its end. -/
theorem history {I : List (Taken σ ε) → σ → Prop} (run : Run step C s tr t) (start : I [] s)
    (preserved : ∀ past x e y, I past x → C x e → step x e = some y → I (past ++ [⟨x, e, y⟩]) y) :
    I tr t := by
  induction run with
  | nil => exact start
  | snoc run meets steps ih => exact preserved _ _ _ _ ih meets steps

/-- **The invariant rule**: the history rule for properties of the state alone. -/
theorem invariant {I : σ → Prop} (run : Run step C s tr t) (start : I s)
    (preserved : ∀ x e y, I x → C x e → step x e = some y → I y) : I t :=
  run.history (I := fun _ x => I x) start fun _ x e y hx => preserved x e y hx

/-- A run under a condition is a run under any weaker one. -/
theorem mono (run : Run step C s tr t) (weaker : ∀ x e, C x e → D x e) : Run step D s tr t := by
  induction run with
  | nil => exact .nil _
  | snoc _ meets steps ih => exact .snoc ih (weaker _ _ meets) steps

/-- Every step of a run is taken in a state with its invariant. -/
theorem with_invariant {I : σ → Prop} (run : Run step C s tr t) (start : I s)
    (preserved : ∀ x e y, I x → C x e → step x e = some y → I y) :
    Run step (fun x e => C x e ∧ I x) s tr t := by
  induction run with
  | nil => exact .nil _
  | snoc run meets steps ih => exact .snoc ih ⟨meets, run.invariant start preserved⟩ steps

/-- Every step of a run is in its history. -/
theorem recorded (run : Run step C s tr t) :
    Run step (fun x e => C x e ∧ ∃ y, ⟨x, e, y⟩ ∈ tr) s tr t := by
  induction run with
  | nil => exact .nil _
  | snoc _ meets steps ih =>
    have hlast : ∀ {α : Type _} {xs : List α} {x : α}, x ∈ xs ++ [x] := by simp
    refine .snoc (ih.mono fun x e hx => ⟨hx.1, ?_⟩) ⟨meets, _, hlast⟩ steps
    obtain ⟨y, hy⟩ := hx.2
    exact ⟨y, List.mem_append_left _ hy⟩

/-- Every step of a run meets the condition. -/
theorem meets_of_mem (run : Run step C s tr t) {x : Taken σ ε} (hx : x ∈ tr) : C x.before x.event := by
  induction run with
  | nil => exact absurd hx List.not_mem_nil
  | snoc _ meets _ ih =>
    rcases List.mem_append.mp hx with hx | hx
    · exact ih hx
    · rw [List.mem_singleton.mp hx]
      exact meets

/-- Runs compose. -/
theorem trans (run : Run step C s tr t) (run' : Run step C t tr' u) :
    Run step C s (tr ++ tr') u := by
  induction run' with
  | nil => rw [List.append_nil]; exact run
  | snoc _ meets steps ih => rw [← List.append_assoc]; exact .snoc ih meets steps

/-! ## Executing a list of events -/

/-- Take the events one after another. -/
def exec (step : σ → ε → Option σ) : σ → List ε → Option σ
  | s, [] => some s
  | s, e :: es => (step s e).bind fun t => exec step t es

/-- A list of events that can be executed is the history of a run. -/
theorem of_exec {es : List ε} (h : exec step s es = some t) :
    ∃ tr, Run step (fun _ _ => True) s tr t ∧ tr.map Taken.event = es := by
  induction es generalizing s with
  | nil =>
    cases Option.some.inj h
    exact ⟨[], .nil _, rfl⟩
  | cons e es ih =>
    obtain ⟨x, hx, hrest⟩ := Option.bind_eq_some_iff.mp h
    obtain ⟨tr, hrun, hes⟩ := ih hrest
    refine ⟨_, (Run.snoc (.nil _) trivial hx).trans hrun, ?_⟩
    rw [List.map_append, hes]
    rfl

/-- The steps that meet a decidable condition. -/
def guard (step : σ → ε → Option σ) (C : σ → ε → Bool) (s : σ) (e : ε) : Option σ :=
  if C s e then step s e else none

/-- A run of the guarded steps is a run in which each step meets the guard. -/
theorem of_guard {C : σ → ε → Bool} (run : Run (guard step C) D s tr t) :
    Run step (fun s e => C s e = true) s tr t := by
  induction run with
  | nil => exact .nil _
  | snoc _ _ steps ih =>
    rw [guard] at steps
    split at steps
    · next hC => exact .snoc ih hC steps
    · cases steps

end Run

end ChatApp
