/-
`Sections.lean` -- programs that move by critical sections.

Between two moments at which another thread can get its turn a program performs one
operation, or, once it has entered a critical section, everything up to the end of the
section. `advance` is that move. It leaves what the program computes as it was (`run_advance`),
and what every operation preserves is preserved by every move (`Always.advance`).

Where what an operation does matters only for the section it stands in, the moves are looked at
as a whole: `Moves C G p` says that every move of `p` that meets the condition `C` keeps to the
guarantee `G`. It composes over programs that close the sections they enter (`Closed`).

Nothing here names the server: which operations enter and leave a section is a parameter.
-/
import ChatApp.Program

set_option autoImplicit false

namespace ChatApp

namespace Program

variable {E : Type → Type 1} {α β γ σ : Type}

section Sections

variable (enters leaves : {β : Type} → E β → Bool) (h : {β : Type} → E β → σ → β × σ)

/-- The rest of a critical section, with the operation that leaves it. -/
def finishSection : Program E α → σ → Program E α × σ
  | .pure a, s => (.pure a, s)
  | .op o k, s =>
    if leaves o then (k (h o s).1, (h o s).2) else finishSection (k (h o s).1) (h o s).2

/-- One operation, or a critical section as a whole. -/
def advance : Program E α → σ → Program E α × σ
  | .pure a, s => (.pure a, s)
  | .op o k, s =>
    if enters o then finishSection leaves h (k (h o s).1) (h o s).2 else (k (h o s).1, (h o s).2)

/-- The number of operations a run performs. -/
def length : Program E α → σ → Nat
  | .pure _, _ => 0
  | .op o k, s => (k (h o s).1).length (h o s).2 + 1

variable {enters leaves h}

theorem run_finishSection (p : Program E α) (s : σ) :
    run h (finishSection leaves h p s).1 (finishSection leaves h p s).2 = run h p s := by
  induction p generalizing s with
  | pure a => rfl
  | op o k ih =>
    rw [finishSection]
    split
    · rfl
    · exact ih _ _

/-- **A move changes nothing about the outcome**: the rest of the program, run from where the
move ends, ends where the program does. -/
theorem run_advance (p : Program E α) (s : σ) :
    run h (advance enters leaves h p s).1 (advance enters leaves h p s).2 = run h p s := by
  cases p with
  | pure a => rfl
  | op o k =>
    rw [advance]
    split
    · exact run_finishSection _ _
    · rfl

theorem length_finishSection (p : Program E α) (s : σ) :
    length h (finishSection leaves h p s).1 (finishSection leaves h p s).2 ≤ length h p s := by
  induction p generalizing s with
  | pure a => exact Nat.le_refl _
  | op o k ih =>
    rw [finishSection]
    split
    · exact Nat.le_succ _
    · exact Nat.le_succ_of_le (ih _ _)

/-- A program that has not returned gets shorter with every move. -/
theorem length_advance {o : E β} {k : β → Program E α} {s : σ} :
    length h (advance enters leaves h (.op o k) s).1 (advance enters leaves h (.op o k) s).2
      < length h (.op o k) s := by
  rw [advance]
  split
  · exact Nat.lt_succ_of_le (length_finishSection _ _)
  · exact Nat.lt_succ_self _

/-- A section is left where the program inside it ends. -/
theorem finishSection_bind {Q : {β : Type} → E β → Prop} {R : β → Prop} {p : Program E β}
    (hp : p.Always Q R) (stays : ∀ {β : Type} (o : E β), Q o → leaves o = false)
    (f : β → Program E α) (s : σ) :
    finishSection leaves h (p >>= f) s
      = finishSection leaves h (f (run h p s).1) (run h p s).2 := by
  show finishSection leaves h (p.bind f) s = _
  induction p generalizing s with
  | pure a => rfl
  | op o k ih =>
    rw [bind, finishSection, stays o hp.1]
    exact ih _ (hp.2 _) _

section Hom

variable {F : Type → Type 1} (φ : {β : Type} → F β → E β)

theorem finishSection_hom (p : Program F α) (s : σ) : finishSection leaves h (p.hom φ) s
    = ((finishSection (fun o => leaves (φ o)) (fun o => h (φ o)) p s).1.hom φ,
      (finishSection (fun o => leaves (φ o)) (fun o => h (φ o)) p s).2) := by
  induction p generalizing s with
  | pure a => rfl
  | op o k ih =>
    rw [hom, finishSection, finishSection]
    split
    · rfl
    · exact ih _ _

/-- The moves of a translation are the translated moves. -/
theorem advance_hom (p : Program F α) (s : σ) : advance enters leaves h (p.hom φ) s
    = ((advance (fun o => enters (φ o)) (fun o => leaves (φ o)) (fun o => h (φ o)) p s).1.hom φ,
      (advance (fun o => enters (φ o)) (fun o => leaves (φ o)) (fun o => h (φ o)) p s).2) := by
  cases p with
  | pure a => rfl
  | op o k =>
    rw [hom, advance, advance]
    split
    · exact finishSection_hom φ _ _
    · rfl

end Hom

section Always

variable {Q : {β : Type} → E β → Prop} {I : σ → Prop} {R : α → Prop}

theorem Always.finishSection {p : Program E α} (hp : p.Always Q R)
    (step : ∀ {β : Type} (o : E β) (s : σ), Q o → I s → I (h o s).2) {s : σ} (hs : I s) :
    (Program.finishSection leaves h p s).1.Always Q R ∧
      I (Program.finishSection leaves h p s).2 := by
  induction p generalizing s with
  | pure a => exact ⟨hp, hs⟩
  | op o k ih =>
    rw [Program.finishSection]
    split
    · exact ⟨hp.2 _, step o s hp.1 hs⟩
    · exact ih _ (hp.2 _) (step o s hp.1 hs)

/-- **The rule of moves.** What every operation of a program preserves, a move of the program
preserves, and the rest of the program is made of such operations again. -/
theorem Always.advance {p : Program E α} (hp : p.Always Q R)
    (step : ∀ {β : Type} (o : E β) (s : σ), Q o → I s → I (h o s).2) {s : σ} (hs : I s) :
    (Program.advance enters leaves h p s).1.Always Q R ∧
      I (Program.advance enters leaves h p s).2 := by
  cases p with
  | pure a => exact ⟨hp, hs⟩
  | op o k =>
    rw [Program.advance]
    split
    · exact Always.finishSection (hp.2 _) step (step o s hp.1 hs)
    · exact ⟨hp.2 _, step o s hp.1 hs⟩

end Always

end Sections

/-! ## Closed programs -/

section Closed

variable (enters leaves : {β : Type} → E β → Bool)

/-- The sections of a program: it starts inside one or outside, enters only from outside, leaves
only from inside, and returns in `R`, which also says where it is then. -/
def Balanced : Program E α → Bool → (Bool → α → Prop) → Prop
  | .pure a, inside, R => R inside a
  | .op o k, inside, R =>
    if enters o then inside = false ∧ ∀ b, (k b).Balanced true R
    else if leaves o then inside = true ∧ ∀ b, (k b).Balanced false R
    else ∀ b, (k b).Balanced inside R

/-- A program that leaves every section it enters. -/
def Closed (p : Program E α) : Prop := p.Balanced enters leaves false fun inside _ => inside = false

variable {enters leaves} {h : {β : Type} → E β → σ → β × σ} {inside : Bool}

theorem balanced_bind {p : Program E α} {f : α → Program E β} {R : Bool → β → Prop} :
    (p >>= f).Balanced enters leaves inside R ↔
      p.Balanced enters leaves inside fun inside a => (f a).Balanced enters leaves inside R := by
  show (p.bind f).Balanced enters leaves inside R ↔ _
  induction p generalizing inside with
  | pure a => rfl
  | op o k ih => simp only [bind, Balanced, ih]

theorem balanced_hom {F : Type → Type 1} (φ : {β : Type} → F β → E β) {p : Program F α}
    {R : Bool → α → Prop} : (p.hom φ).Balanced enters leaves inside R ↔
      p.Balanced (fun o => enters (φ o)) (fun o => leaves (φ o)) inside R := by
  induction p generalizing inside with
  | pure a => rfl
  | op o k ih => simp only [hom, Balanced, ih]

theorem Balanced.mono {p : Program E α} {R R' : Bool → α → Prop}
    (hp : p.Balanced enters leaves inside R) (hR : ∀ inside a, R inside a → R' inside a) :
    p.Balanced enters leaves inside R' := by
  induction p generalizing inside with
  | pure a => exact hR inside a hp
  | op o k ih =>
    rw [Balanced] at hp ⊢
    by_cases henters : enters o = true
    · rw [if_pos henters] at hp ⊢
      exact ⟨hp.1, fun b => ih b (hp.2 b)⟩
    by_cases hleaves : leaves o = true
    · rw [if_neg henters, if_pos hleaves] at hp ⊢
      exact ⟨hp.1, fun b => ih b (hp.2 b)⟩
    · rw [if_neg henters, if_neg hleaves] at hp ⊢
      exact fun b => ih b (hp b)

theorem Closed.bind {p : Program E α} {f : α → Program E β} (hp : p.Closed enters leaves)
    (hf : ∀ a, (f a).Closed enters leaves) : (p >>= f).Closed enters leaves := by
  refine balanced_bind.mpr (Balanced.mono hp fun inside a hinside => ?_)
  subst hinside
  exact hf a

/-- The section a closed program is in ends inside that program. -/
theorem finishSection_closed {p : Program E α}
    (hp : p.Balanced enters leaves true fun inside _ => inside = false) (f : α → Program E β) (s : σ) :
    (finishSection leaves h p s).1.Closed enters leaves ∧ finishSection leaves h (p >>= f) s
      = ((finishSection leaves h p s).1 >>= f, (finishSection leaves h p s).2) := by
  show _ ∧ finishSection leaves h (p.bind f) s = _
  induction p generalizing s with
  | pure a => exact Bool.noConfusion (show true = false from hp)
  | op o k ih =>
    rw [Balanced] at hp
    split at hp
    · exact Bool.noConfusion hp.1
    rw [Program.bind, finishSection, finishSection]
    split at hp
    · next hleaves =>
      rw [if_pos hleaves, if_pos hleaves]
      exact ⟨hp.2 _, rfl⟩
    · next hstays =>
      rw [if_neg hstays, if_neg hstays]
      exact ih _ (hp _) _

/-- **The moves of a composition** are those of its first part, until that has returned. -/
theorem advance_bind {o : E γ} {k : γ → Program E α} (hp : (Program.op o k).Closed enters leaves)
    (f : α → Program E β) (s : σ) :
    (advance enters leaves h (.op o k) s).1.Closed enters leaves ∧
      advance enters leaves h (.op o k >>= f) s
        = ((advance enters leaves h (.op o k) s).1 >>= f, (advance enters leaves h (.op o k) s).2) := by
  show _ ∧ advance enters leaves h (.op o fun b => (k b).bind f) s = _
  rw [Closed, Balanced] at hp
  rw [advance, advance]
  split at hp
  · next henters =>
    rw [if_pos henters, if_pos henters]
    exact finishSection_closed (hp.2 _) f _
  · next houtside =>
    rw [if_neg houtside, if_neg houtside]
    split at hp
    · exact absurd hp.1 (by simp)
    · exact ⟨hp _, rfl⟩

end Closed

/-! ## Guarantees -/

section Moves

variable (enters leaves : {β : Type} → E β → Bool) (h : {β : Type} → E β → σ → β × σ)
  (C : (α : Type) → Program E α → σ → Prop) (G : σ → σ → Prop)

/-- Every move of the program that meets the condition `C` keeps to the guarantee `G`. The condition is
one on the program and the state before the move. -/
inductive Moves {α : Type} : Program E α → Prop where
  | pure (a : α) : Moves (.pure a)
  | op {β : Type} (o : E β) (k : β → Program E α)
    (now : ∀ s, C α (.op o k) s → G s (advance enters leaves h (.op o k) s).2)
    (later : ∀ s, C α (.op o k) s → Moves (advance enters leaves h (.op o k) s).1) : Moves (.op o k)

variable {enters leaves h C G}

/-- A guarantee that every operation keeps to. -/
theorem Moves.of_always {Q : {β : Type} → E β → Prop} {R : α → Prop} {p : Program E α}
    (hp : p.Always Q R) (refl : ∀ s, G s s) (trans : ∀ s t u, G s t → G t u → G s u)
    (step : ∀ {β : Type} (o : E β) (s : σ), Q o → G s (h o s).2) : p.Moves enters leaves h C G := by
  suffices hboth : p.Moves enters leaves h C G ∧
      ∀ s, (finishSection leaves h p s).1.Moves enters leaves h C G from hboth.1
  induction p with
  | pure a => exact ⟨.pure a, fun _ => .pure a⟩
  | op o k ih =>
    refine ⟨.op o k (fun s _ => ?_) fun s _ => ?_, fun s => ?_⟩
    · exact (Always.advance (I := G s) hp (fun o t ho hst => trans s t _ hst (step o t ho)) (refl s)).2
    · rw [advance]
      split
      · exact (ih _ (hp.2 _)).2 _
      · exact (ih _ (hp.2 _)).1
    · rw [finishSection]
      split
      · exact (ih _ (hp.2 _)).1
      · exact (ih _ (hp.2 _)).2 _

/-- One program after another. -/
theorem Moves.bind {p : Program E α} {f : α → Program E β}
    (hC : ∀ (p : Program E α) (s : σ), C β (p >>= f) s → C α p s) (hclosed : p.Closed enters leaves)
    (hp : p.Moves enters leaves h C G) (hf : ∀ a, (f a).Moves enters leaves h C G) :
    (p >>= f).Moves enters leaves h C G := by
  induction hp with
  | pure a => exact hf a
  | op o k now later ih =>
    have hbind := fun s => advance_bind (h := h) hclosed f s
    refine .op o (fun b => (k b).bind f) (fun s hs => ?_) fun s hs => ?_
    · show G s (Program.advance enters leaves h (.op o k >>= f) s).2
      rw [(hbind s).2]
      exact now s (hC _ s hs)
    · show Moves enters leaves h C G (Program.advance enters leaves h (.op o k >>= f) s).1
      rw [(hbind s).2]
      exact ih s (hC _ s hs) (hbind s).1

/-- A translation keeps to what the program keeps to. -/
theorem Moves.hom {F : Type → Type 1} {D : (α : Type) → Program F α → σ → Prop}
    (φ : {β : Type} → F β → E β) {p : Program F α}
    (hC : ∀ (p : Program F α) (s : σ), C α (p.hom φ) s → D α p s)
    (hp : p.Moves (fun o => enters (φ o)) (fun o => leaves (φ o)) (fun o => h (φ o)) D G) :
    (p.hom φ).Moves enters leaves h C G := by
  induction hp with
  | pure a => exact .pure a
  | op o k now later ih =>
    refine .op (φ o) (fun b => (k b).hom φ) (fun s hs => ?_) fun s hs => ?_
    · show G s (Program.advance enters leaves h ((Program.op o k).hom φ) s).2
      rw [advance_hom]
      exact now s (hC _ s hs)
    · show Moves enters leaves h C G (Program.advance enters leaves h ((Program.op o k).hom φ) s).1
      rw [advance_hom]
      exact ih s (hC _ s hs)

/-- What is guaranteed under a condition is guaranteed under any stronger one. -/
theorem Moves.mono {D : (α : Type) → Program E α → σ → Prop} {p : Program E α}
    (hp : p.Moves enters leaves h C G) (hD : ∀ (p : Program E α) (s : σ), D α p s → C α p s) :
    p.Moves enters leaves h D G := by
  induction hp with
  | pure a => exact .pure a
  | op o k now later ih => exact .op o k (fun s hs => now s (hD _ s hs)) fun s hs => ih s (hD _ s hs)

/-- A weaker guarantee. -/
theorem Moves.weaken {G' : σ → σ → Prop} {p : Program E α} (hp : p.Moves enters leaves h C G)
    (hG : ∀ s t, G s t → G' s t) : p.Moves enters leaves h C G' := by
  induction hp with
  | pure a => exact .pure a
  | op o k now later ih => exact .op o k (fun s hs => hG _ _ (now s hs)) ih

/-- A program alone: what the guarantee preserves, and what implies the condition, it leaves true. -/
theorem Moves.run {I : σ → Prop} {p : Program E α} (hp : p.Moves enters leaves h C G)
    (hC : ∀ (p : Program E α) (s : σ), I s → C α p s) (hG : ∀ s t, G s t → I s → I t) {s : σ}
    (hs : I s) : I (Program.run h p s).2 := by
  induction hp generalizing s with
  | pure a => exact hs
  | op o k now later ih =>
    have hnow := now s (hC _ s hs)
    have hrest := ih s (hC _ s hs) (hG _ _ hnow hs)
    rwa [run_advance] at hrest

/-- A move keeps to the guarantee, and so does what is left. -/
theorem Moves.advance {p : Program E α} (hp : p.Moves enters leaves h C G) {s : σ} (hs : C α p s)
    (refl : ∀ s, G s s) : G s (Program.advance enters leaves h p s).2 ∧
      (Program.advance enters leaves h p s).1.Moves enters leaves h C G := by
  cases hp with
  | pure a => exact ⟨refl s, .pure a⟩
  | op o k now later => exact ⟨now s hs, later s hs⟩

end Moves

end Program

end ChatApp
