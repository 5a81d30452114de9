/-
`Simulation.lean` -- forward simulations between labelled transition systems, with what can be observed of them.

A step of the first system is matched by a run of the second: several steps, one, or none. What is observed of a
transition is a list, empty where nothing can be seen, and the matching run shows the same. Then every run of the first
system is matched by a run of the second with the same observations, and what holds of the observations of all runs of
the second holds of those of the first.

Nothing here names the server: both systems, the relation between their states and the observations are parameters.
-/
import ChatApp.Runs
import Mathlib.Data.List.Flatten

set_option autoImplicit false

namespace ChatApp

universe u v w

section Simulation

variable {σ τ : Type u} {ε δ : Type v} {O : Type w} {step : σ → ε → Option σ} {step' : τ → δ → Option τ}
  {C : σ → ε → Prop} {D : τ → δ → Prop} {obs : Taken σ ε → List O} {obs' : Taken τ δ → List O} {R : σ → τ → Prop}

/-- Every step is matched by a run that shows the same. -/
def Simulates (step : σ → ε → Option σ) (C : σ → ε → Prop) (obs : Taken σ ε → List O) (step' : τ → δ → Option τ)
    (D : τ → δ → Prop) (obs' : Taken τ δ → List O) (R : σ → τ → Prop) : Prop :=
  ∀ x a e y, R x a → C x e → step x e = some y →
    ∃ b tr, Run step' D a tr b ∧ R y b ∧ tr.flatMap obs' = obs ⟨x, e, y⟩

/-- **The rule of simulation.** Every run is matched by a run that shows the same. -/
theorem Run.simulated {s t : σ} {a : τ} {tr : List (Taken σ ε)} (h : Simulates step C obs step' D obs' R)
    (run : Run step C s tr t) (start : R s a) :
    ∃ b tr', Run step' D a tr' b ∧ R t b ∧ tr'.flatMap obs' = tr.flatMap obs := by
  induction run with
  | nil => exact ⟨a, [], .nil a, start, rfl⟩
  | snoc _ meets steps ih =>
    obtain ⟨b, tr', run', hb, hobs⟩ := ih
    obtain ⟨b', new, hnew, hb', hobs'⟩ := h _ _ _ _ hb meets steps
    refine ⟨b', tr' ++ new, run'.trans hnew, hb', ?_⟩
    rw [List.flatMap_append, List.flatMap_append, hobs, hobs', List.flatMap_singleton]

/-- A step that is matched by one. -/
theorem matched_by_one (e' : δ) {a b : τ} {x : σ} {e : ε} {y : σ} (hstep : step' a e' = some b) (meets : D a e')
    (hR : R y b) (hobs : obs' ⟨a, e', b⟩ = obs ⟨x, e, y⟩) :
    ∃ b tr, Run step' D a tr b ∧ R y b ∧ tr.flatMap obs' = obs ⟨x, e, y⟩ := by
  refine ⟨b, _, .snoc (.nil a) meets hstep, hR, ?_⟩
  rw [List.nil_append, List.flatMap_singleton]
  exact hobs

end Simulation

end ChatApp
