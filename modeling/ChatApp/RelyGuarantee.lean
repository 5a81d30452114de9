/-
`RelyGuarantee.lean` -- programs that keep a promise as long as the others do.

Tasks share a state, are launched at any time and take turns at any operation. The promise is a relation between the
state before and the state after: each task relies on it for whatever happens between two of its operations, and
guarantees it for its own. What a task has read may be out of date when it writes; that it still knows something
about the state then is what it gets out of the promise of the others. In every interleaving the state moves along the
relation.

Nothing here names the client: signature, state and relation are parameters.
-/
import ChatApp.Program
import ChatApp.Runs

set_option autoImplicit false

namespace ChatApp

variable {E : Type → Type 1} {α β σ : Type}

/-! ## Programs -/

namespace Program

section Respects

variable (h : {β : Type} → E β → σ → β × σ) (R : σ → σ → Prop)

/-- From the state on, whatever moves along `R` in between, every operation moves along `R`; and an answer `a` is in
`Q a`, then and later. -/
def Respects (Q : α → σ → Prop) : Program E α → σ → Prop
  | .pure a, s => ∀ t, R s t → Q a t
  | .op o k, s => ∀ t, R s t → R t (h o t).2 ∧ (k (h o t).1).Respects Q (h o t).2

variable {h R} {Q : α → σ → Prop} {s t : σ}

/-- What is respected from a state on is respected later. -/
theorem Respects.later (trans : ∀ s t u, R s t → R t u → R s u) {p : Program E α} (hp : p.Respects h R Q s)
    (hst : R s t) : p.Respects h R Q t := by
  cases p with
  | pure a => exact fun u htu => hp u (trans s t u hst htu)
  | op o k => exact fun u htu => hp u (trans s t u hst htu)

/-- One operation. -/
theorem respects_perform {o : E α} (ho : ∀ t, R s t → R t (h o t).2 ∧ ∀ u, R (h o t).2 u → Q (h o t).1 u) :
    (perform o).Respects h R Q s := ho

/-- The rule of sequencing. What the first program answers holds for the second as long as it takes. -/
theorem Respects.bind (refl : ∀ s, R s s) (trans : ∀ s t u, R s t → R t u → R s u) {p : Program E β}
    {f : β → Program E α} {Q' : β → σ → Prop} (hp : p.Respects h R Q' s)
    (hf : ∀ b t, R s t → Q' b t → (f b).Respects h R Q t) : (p >>= f).Respects h R Q s := by
  show (p.bind f).Respects h R Q s
  induction p generalizing s with
  | pure b => exact hf b s (refl s) (hp s (refl s))
  | op o k ih =>
    intro t hst
    refine ⟨(hp t hst).1, ih _ (hp t hst).2 fun b u htu hQ => hf b u ?_ hQ⟩
    exact trans s t u hst (trans t _ u (hp t hst).1 htu)

/-- The rule of the conditional. -/
theorem respects_ite {c : Prop} [Decidable c] {p q : Program E α} (hp : c → p.Respects h R Q s)
    (hq : ¬c → q.Respects h R Q s) : (if c then p else q).Respects h R Q s := by
  split
  · next hc => exact hp hc
  · next hc => exact hq hc

/-- A program whose operations all move along the relation, in whatever state. -/
theorem respects_of_always {A : {β : Type} → E β → Prop} {B : α → Prop} {p : Program E α} (hp : p.Always A B)
    (hA : ∀ {β : Type} (o : E β) (s : σ), A o → R s (h o s).2) : p.Respects h R (fun a _ => B a) s := by
  induction p generalizing s with
  | pure a => exact fun _ _ => hp
  | op o k ih => exact fun t _ => ⟨hA o t hp.1, ih _ (hp.2 _)⟩

end Respects

end Program

/-! ## Tasks -/

/-- The tasks, by what remains of them, and the state they share. -/
structure Tasks (E : Type → Type 1) (σ : Type) where
  running : List (Program E Unit)
  state : σ

/-- A task is launched, or has a turn. -/
inductive Tasks.Event (E : Type → Type 1) where
  | launch (p : Program E Unit)
  | turn (i : Nat)

namespace Tasks

variable (h : {β : Type} → E β → σ → β × σ)

/-- A turn is one operation. -/
def step (s : Tasks E σ) : Event E → Option (Tasks E σ)
  | .launch p => some ⟨s.running ++ [p], s.state⟩
  | .turn i =>
    match s.running[i]? with
    | some (.op o k) => some ⟨s.running.set i (k (h o s.state).1), (h o s.state).2⟩
    | _ => none

variable {h} {R : σ → σ → Prop} {C : Tasks E σ → Event E → Prop} {s t : Tasks E σ}
  {tr : List (Taken (Tasks E σ) (Event E))}

/-- Every task respects the relation from now on. -/
def Respect (h : {β : Type} → E β → σ → β × σ) (R : σ → σ → Prop) (s : Tasks E σ) : Prop :=
  ∀ p ∈ s.running, p.Respects h R (fun _ _ => True) s.state

/-- One step: the state moves along the relation, and what remains of the tasks respects it. -/
theorem Respect.step (refl : ∀ s, R s s) (trans : ∀ s t u, R s t → R t u → R s u) {e : Event E} (hs : Respect h R s)
    (launched : ∀ p, e = .launch p → p.Respects h R (fun _ _ => True) s.state) (hstep : Tasks.step h s e = some t) :
    R s.state t.state ∧ Respect h R t := by
  cases e with
  | launch p =>
    cases hstep
    refine ⟨refl _, fun q hq => ?_⟩
    rcases List.mem_append.mp hq with hq | hq
    · exact hs q hq
    · rw [List.mem_singleton.mp hq]
      exact launched p rfl
  | turn i =>
    simp only [Tasks.step] at hstep
    split at hstep
    · next o k hget =>
      cases hstep
      have hmoves := hs _ (List.mem_of_getElem? hget) s.state (refl _)
      refine ⟨hmoves.1, fun q hq => ?_⟩
      rcases List.mem_or_eq_of_mem_set hq with hq | rfl
      · exact (hs q hq).later trans hmoves.1
      · exact hmoves.2
    · cases hstep

/-- **The rule of rely and guarantee.** If whatever is launched respects the relation from then on, the state moves
along the relation in every interleaving. -/
theorem Respect.run (refl : ∀ s, R s s) (trans : ∀ s t u, R s t → R t u → R s u) (hs : Respect h R s)
    (launched : ∀ x p, R s.state x.state → C x (.launch p) → p.Respects h R (fun _ _ => True) x.state)
    (run : Run (Tasks.step h) C s tr t) : R s.state t.state ∧ Respect h R t := by
  refine run.invariant (I := fun t => R s.state t.state ∧ Respect h R t) ⟨refl _, hs⟩ ?_
  rintro x e y ⟨hx, hrespect⟩ hC hstep
  obtain ⟨hmoves, hy⟩ := hrespect.step refl trans (fun p he => launched x p hx (he ▸ hC)) hstep
  exact ⟨trans _ _ _ hx hmoves, hy⟩

end Tasks

end ChatApp
