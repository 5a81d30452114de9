/-
`Lockstep.lean` -- two programs that move side by side, in states that an observer cannot tell apart.

Noninterference is about two executions: of one program in two states that differ in a secret, or of two programs
that differ in one. `Lockstep R I Q p p'` says that from states related by `R` every move of `p` is matched by the
move of `p'` at the same place, that the states are related again, and that what the two return is related by `Q`. A
move is an operation, or a critical section as a whole; inside a section the states need not be related. What is known
of the states between the moves of the first execution is the parameter `I`.

A program none of whose operations sees the difference is in lockstep with itself (`Lockstep.of_always`).
Only what looks at the secret, or says it, is looked at by hand.

Nothing here names the server: signature, sections and relation are parameters.
-/
import ChatApp.Runs
import ChatApp.Sections
import Mathlib.Data.List.Forall2

set_option autoImplicit false

namespace ChatApp

universe u v

/-! ## Runs -/

namespace Run

variable {σ : Type u} {ε : Type v} {step : σ → ε → Option σ} {C : σ → ε → Prop} {s t : σ} {tr : List (Taken σ ε)}

end Run

/-! ## Programs -/

namespace Program

variable {E : Type → Type 1} {α β γ σ : Type}

section Lockstep

variable (enters leaves : {β : Type} → E β → Bool) (h : {β : Type} → E β → σ → β × σ)
  (R : σ → σ → Prop) (I : σ → Prop)

/-- The two programs move in lockstep. -/
inductive Lockstep {α : Type} (Q : α → α → Prop) : Program E α → Program E α → Prop where
  | pure {a a' : α} (related : Q a a') : Lockstep Q (.pure a) (.pure a')
  | op {β β' : Type} (o : E β) (k : β → Program E α) (o' : E β') (k' : β' → Program E α)
    (now : ∀ s s', R s s' → I s → I (advance enters leaves h (.op o k) s).2 →
      R (advance enters leaves h (.op o k) s).2 (advance enters leaves h (.op o' k') s').2)
    (later : ∀ s s', R s s' → I s → I (advance enters leaves h (.op o k) s).2 → Lockstep Q
      (advance enters leaves h (.op o k) s).1 (advance enters leaves h (.op o' k') s').1) :
    Lockstep Q (.op o k) (.op o' k')

/-- The operation does not see the difference, and leaves it one. -/
def Blind {β : Type} (o : E β) : Prop := ∀ s s', R s s' → (h o s).1 = (h o s').1 ∧ R (h o s).2 (h o s').2

variable {enters leaves h R I} {Q : α → α → Prop}

/-! ### Programs that do not see the difference -/

section Blind

variable {P : {β : Type} → E β → Prop} {T : α → Prop} {p : Program E α} {s s' : σ}

/-- A move of a program whose operations do not see the difference is the same move. -/
theorem finishSection_blind (hp : p.Always P T) (hP : ∀ {β : Type} (o : E β), P o → Blind h R o) (hs : R s s') :
    (finishSection leaves h p s).1 = (finishSection leaves h p s').1 ∧
      R (finishSection leaves h p s).2 (finishSection leaves h p s').2 := by
  induction p generalizing s s' with
  | pure a => exact ⟨rfl, hs⟩
  | op o k ih =>
    obtain ⟨hanswer, hstate⟩ := hP o hp.1 s s' hs
    rw [finishSection, finishSection, ← hanswer]
    split
    · exact ⟨rfl, hstate⟩
    · exact ih _ (hp.2 _) hstate

theorem advance_blind (hp : p.Always P T) (hP : ∀ {β : Type} (o : E β), P o → Blind h R o) (hs : R s s') :
    (advance enters leaves h p s).1 = (advance enters leaves h p s').1 ∧
      R (advance enters leaves h p s).2 (advance enters leaves h p s').2 := by
  cases p with
  | pure a => exact ⟨rfl, hs⟩
  | op o k =>
    obtain ⟨hanswer, hstate⟩ := hP o hp.1 s s' hs
    rw [advance, advance, ← hanswer]
    split
    · exact finishSection_blind (hp.2 _) hP hstate
    · exact ⟨rfl, hstate⟩

/-- **A program that does not see the difference** is in lockstep with itself. -/
theorem Lockstep.of_always (hp : p.Always P T) (hP : ∀ {β : Type} (o : E β), P o → Blind h R o) :
    p.Lockstep enters leaves h R I (fun a a' => a = a') p := by
  suffices hboth : p.Lockstep enters leaves h R I (fun a a' => a = a') p ∧ ∀ s,
      (finishSection leaves h p s).1.Lockstep enters leaves h R I (fun a a' => a = a') (finishSection leaves h p s).1
    from hboth.1
  induction p with
  | pure a => exact ⟨.pure rfl, fun _ => .pure rfl⟩
  | op o k ih =>
    have hrest : ∀ s, (advance enters leaves h (.op o k) s).1.Lockstep enters leaves h R I (fun a a' => a = a')
        (advance enters leaves h (.op o k) s).1 := by
      intro s
      rw [advance]
      split
      · exact (ih _ (hp.2 _)).2 _
      · exact (ih _ (hp.2 _)).1
    refine ⟨.op o k o k (fun s s' hs _ _ => (advance_blind hp hP hs).2) fun s s' hs _ _ => ?_, fun s => ?_⟩
    · rw [← (advance_blind hp hP hs).1]
      exact hrest s
    · rw [finishSection]
      split
      · exact (ih _ (hp.2 _)).1
      · exact (ih _ (hp.2 _)).2 _

end Blind

/-! ### Rules -/

/-- The rule of consequence. -/
theorem Lockstep.mono {Q' : α → α → Prop} {p p' : Program E α} (hp : p.Lockstep enters leaves h R I Q p')
    (hQ : ∀ a a', Q a a' → Q' a a') : p.Lockstep enters leaves h R I Q' p' := by
  induction hp with
  | pure related => exact .pure (hQ _ _ related)
  | op o k o' k' now later ih => exact .op o k o' k' now ih

/-- The rule of sequencing, after programs that leave the sections they enter. -/
theorem Lockstep.bind {Q' : β → β → Prop} {p p' : Program E β} {f f' : β → Program E α}
    (hclosed : p.Closed enters leaves) (hclosed' : p'.Closed enters leaves)
    (hp : p.Lockstep enters leaves h R I Q' p')
    (hf : ∀ b b', Q' b b' → (f b).Lockstep enters leaves h R I Q (f' b')) :
    (p >>= f).Lockstep enters leaves h R I Q (p' >>= f') := by
  induction hp with
  | pure related => exact hf _ _ related
  | op o k o' k' now later ih =>
    have hleft := fun s => advance_bind (h := h) hclosed f s
    have hright := fun s => advance_bind (h := h) hclosed' f' s
    refine .op o (fun b => (k b).bind f) o' (fun b => (k' b).bind f') (fun s s' hs hI hI' => ?_)
      fun s s' hs hI hI' => ?_
    · show R (advance enters leaves h (.op o k >>= f) s).2 (advance enters leaves h (.op o' k' >>= f') s').2
      change I (advance enters leaves h (.op o k >>= f) s).2 at hI'
      rw [(hleft s).2] at hI' ⊢
      rw [(hright s').2]
      exact now s s' hs hI hI'
    · show (advance enters leaves h (.op o k >>= f) s).1.Lockstep enters leaves h R I Q
        (advance enters leaves h (.op o' k' >>= f') s').1
      change I (advance enters leaves h (.op o k >>= f) s).2 at hI'
      rw [(hleft s).2] at hI' ⊢
      rw [(hright s').2]
      exact ih s s' hs hI hI' (hleft s).1 (hright s').1

/-- A translation of programs in lockstep. -/
theorem Lockstep.hom {F : Type → Type 1} (φ : {β : Type} → F β → E β) {p p' : Program F α}
    (hp : p.Lockstep (fun o => enters (φ o)) (fun o => leaves (φ o)) (fun o => h (φ o)) R I Q p') :
    (p.hom φ).Lockstep enters leaves h R I Q (p'.hom φ) := by
  induction hp with
  | pure related => exact .pure related
  | op o k o' k' now later ih =>
    refine .op (φ o) (fun b => (k b).hom φ) (φ o') (fun b => (k' b).hom φ) (fun s s' hs hI hI' => ?_)
      fun s s' hs hI hI' => ?_
    · show R (advance enters leaves h ((Program.op o k).hom φ) s).2
        (advance enters leaves h ((Program.op o' k').hom φ) s').2
      change I (advance enters leaves h ((Program.op o k).hom φ) s).2 at hI'
      rw [advance_hom] at hI' ⊢
      rw [advance_hom]
      exact now s s' hs hI hI'
    · show (advance enters leaves h ((Program.op o k).hom φ) s).1.Lockstep enters leaves h R I Q
        (advance enters leaves h ((Program.op o' k').hom φ) s').1
      change I (advance enters leaves h ((Program.op o k).hom φ) s).2 at hI'
      rw [advance_hom] at hI' ⊢
      rw [advance_hom]
      exact ih s s' hs hI hI'

/-- One move. -/
theorem Lockstep.advance {p p' : Program E α} (hp : p.Lockstep enters leaves h R I Q p') {s s' : σ} (hs : R s s')
    (hI : I s) (hI' : I (advance enters leaves h p s).2) :
    R (Program.advance enters leaves h p s).2 (Program.advance enters leaves h p' s').2 ∧
      (Program.advance enters leaves h p s).1.Lockstep enters leaves h R I Q
        (Program.advance enters leaves h p' s').1 := by
  cases hp with
  | pure related => exact ⟨hs, .pure related⟩
  | op o k o' k' now later => exact ⟨now s s' hs hI hI', later s s' hs hI hI'⟩

end Lockstep

end Program

end ChatApp
