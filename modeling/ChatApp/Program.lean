/-
`Program.lean` -- finite effectful programs over a signature of operations.

A `Program E α` is a finite tree: it either returns a value or performs one
operation of the signature `E` and continues with the operation's answer. The
same program is read in several ways -- run to completion against a handler
(`run`), inspected for what its operations may do (`run_rel`), inspected for what
every path of it performs (`Surely`), or scheduled one operation at a time next to
other programs (`Pool.step`) -- so a piece of code is written once and every
reading is about the same text.

Nothing here names the server: the signature, the state and the handler are
parameters.
-/
import Mathlib.Data.List.Basic
import Mathlib.Control.Lawful

set_option autoImplicit false

namespace ChatApp

/-- A finite program over the signature `E`: `E β` is an operation whose answer
has type `β`. -/
inductive Program (E : Type → Type 1) (α : Type) : Type 1 where
  | pure (a : α)
  | op {β : Type} (o : E β) (k : β → Program E α)

namespace Program

variable {E F : Type → Type 1} {α β γ σ : Type}

/-! ## The monad -/

/-- Sequencing: graft `f` onto every leaf. -/
def bind : Program E α → (α → Program E β) → Program E β
  | .pure a, f => f a
  | .op o k, f => .op o fun b => (k b).bind f

/-- The program that performs one operation and returns its answer. -/
def perform (o : E β) : Program E β := .op o .pure

instance : Monad (Program E) where
  pure := Program.pure
  bind := Program.bind

theorem bind_pure_left (a : α) (f : α → Program E β) : (Program.pure a).bind f = f a := rfl

theorem bind_pure_right (p : Program E α) : p.bind .pure = p := by
  induction p with
  | pure a => rfl
  | op o k ih => simp only [bind, ih]

theorem bind_assoc (p : Program E α) (f : α → Program E β) (g : β → Program E γ) :
    (p.bind f).bind g = p.bind fun a => (f a).bind g := by
  induction p with
  | pure a => rfl
  | op o k ih => simp only [bind, ih]

instance : LawfulMonad (Program E) :=
  LawfulMonad.mk' _ bind_pure_right bind_pure_left bind_assoc

/-! ## Running a program to completion -/

section Run

variable (h : {β : Type} → E β → σ → β × σ)

/-- Run a program against a handler. The tree is finite, so this is total: a run
always returns. -/
def run : Program E α → σ → α × σ
  | .pure a, s => (a, s)
  | .op o k, s => (k (h o s).1).run (h o s).2

@[simp] theorem run_pure (a : α) (s : σ) :
    run h (Pure.pure a : Program E α) s = (a, s) := rfl

@[simp] theorem run_perform (o : E β) (s : σ) : run h (perform o) s = h o s := rfl

/-- A run of `p >>= f` is a run of `p` followed by a run of `f` on its answer. -/
@[simp] theorem run_bind (p : Program E α) (f : α → Program E β) (s : σ) :
    run h (p >>= f) s = run h (f (run h p s).1) (run h p s).2 := by
  show run h (p.bind f) s = _
  induction p generalizing s with
  | pure a => rfl
  | op o k ih => exact ih _ _

@[simp] theorem run_ite (c : Prop) [Decidable c] (p q : Program E α) (s : σ) :
    run h (if c then p else q) s = if c then run h p s else run h q s := by
  split <;> rfl

/-- **The invariance rule.** A reflexive and transitive relation that every
operation of the signature respects is respected by every run. -/
theorem run_rel {R : σ → σ → Prop} (refl : ∀ s, R s s)
    (trans : ∀ s t u, R s t → R t u → R s u)
    (step : ∀ {β : Type} (o : E β) (s : σ), R s (h o s).2) (p : Program E α) (s : σ) :
    R s (run h p s).2 := by
  induction p generalizing s with
  | pure a => exact refl s
  | op o k ih => exact trans _ _ _ (step o s) (ih _ _)

/-- **Postconditions.** A run of `p` from `s` ends in `Q`. -/
def Ensures (p : Program E α) (s : σ) (Q : α → σ → Prop) : Prop := Q (run h p s).1 (run h p s).2

section Ensures

variable {h}

theorem ensures_pure {a : α} {s : σ} {Q : α → σ → Prop} (ha : Q a s) :
    Ensures h (Pure.pure a : Program E α) s Q := ha

/-- The rule of sequencing: what holds between the two programs is named. -/
theorem Ensures.bind {p : Program E α} {f : α → Program E β} {s : σ} {R : α → σ → Prop}
    {Q : β → σ → Prop} (hp : Ensures h p s R) (hf : ∀ a t, R a t → Ensures h (f a) t Q) :
    Ensures h (p >>= f) s Q := by
  have hQ := hf _ _ hp
  rw [Ensures] at hQ ⊢
  rw [run_bind]
  exact hQ

/-- The rule of consequence. -/
theorem Ensures.mono {p : Program E α} {s : σ} {R Q : α → σ → Prop} (hp : Ensures h p s R)
    (hRQ : ∀ a t, R a t → Q a t) : Ensures h p s Q := hRQ _ _ hp

/-- The rule of the conditional. -/
theorem ensures_ite {c : Prop} [Decidable c] {p q : Program E α} {s : σ} {Q : α → σ → Prop}
    (hp : c → Ensures h p s Q) (hq : ¬c → Ensures h q s Q) :
    Ensures h (if c then p else q) s Q := by
  split
  · next hc => exact hp hc
  · next hc => exact hq hc

end Ensures

end Run

/-! ## Changing the signature -/

/-- Read a program over `E` as a program over `F`. -/
def hom (φ : {β : Type} → E β → F β) : Program E α → Program F α
  | .pure a => .pure a
  | .op o k => .op (φ o) fun b => (k b).hom φ

theorem hom_bind (φ : {β : Type} → E β → F β) (p : Program E α) (f : α → Program E β) :
    (p >>= f).hom φ = p.hom φ >>= fun a => (f a).hom φ := by
  show (p.bind f).hom φ = (p.hom φ).bind _
  induction p with
  | pure a => rfl
  | op o k ih => exact congrArg (Program.op (φ o)) (funext ih)

theorem hom_hom {G : Type → Type 1} (φ : {β : Type} → E β → F β) (ψ : {β : Type} → F β → G β)
    (p : Program E α) : (p.hom φ).hom ψ = p.hom fun o => ψ (φ o) := by
  induction p with
  | pure a => rfl
  | op o k ih => exact congrArg (Program.op (ψ (φ o))) (funext ih)

/-- A handler of `F` that answers translated operations as a handler of `E` does
runs the translated program as the other runs the program. -/
theorem run_hom (φ : {β : Type} → E β → F β) (hE : {β : Type} → E β → σ → β × σ)
    (hF : {β : Type} → F β → σ → β × σ)
    (agree : ∀ {β : Type} (o : E β) (s : σ), hF (φ o) s = hE o s)
    (p : Program E α) (s : σ) : run hF (p.hom φ) s = run hE p s := by
  induction p generalizing s with
  | pure a => rfl
  | op o k ih => simp only [hom, run, agree, ih]

/-! ## What every path performs -/

/-- Every path through `p` performs an operation in `Q`, or returns a value in
`R`. -/
def Surely (Q : {β : Type} → E β → Prop) : Program E α → (α → Prop) → Prop
  | .pure a, R => R a
  | .op o k, R => Q o ∨ ∀ b, (k b).Surely Q R

section Surely

variable {Q : {β : Type} → E β → Prop}

theorem surely_of_forall {p : Program E α} {R : α → Prop} (hR : ∀ a, R a) :
    p.Surely Q R := by
  induction p with
  | pure a => exact hR a
  | op o k ih => exact Or.inr ih

theorem surely_bind {p : Program E α} {f : α → Program E β} {R : β → Prop} :
    (p >>= f).Surely Q R ↔ p.Surely Q fun a => (f a).Surely Q R := by
  show (p.bind f).Surely Q R ↔ _
  induction p with
  | pure a => rfl
  | op o k ih => simp only [bind, Surely, ih]

/-- A translation answers for what it translates. -/
theorem surely_hom (φ : {β : Type} → E β → F β) {Q : {β : Type} → F β → Prop} {p : Program E α}
    {R : α → Prop} : (p.hom φ).Surely Q R ↔ p.Surely (fun o => Q (φ o)) R := by
  induction p with
  | pure a => rfl
  | op o k ih => simp only [hom, Surely, ih]

/-- **The progress rule.** If performing an operation in `Q` is a `Hit`, and a hit stays one
under what the operations around it do (`Rel`), then a run of a program that surely performs
one is a hit or returns in `R`. -/
theorem Surely.run {h : {β : Type} → E β → σ → β × σ} (Rel Hit : σ → σ → Prop)
    {p : Program E α} {R : α → Prop} (hp : p.Surely Q R) (refl : ∀ s, Rel s s)
    (trans : ∀ s t u, Rel s t → Rel t u → Rel s u)
    (step : ∀ {β : Type} (o : E β) (s : σ), Rel s (h o s).2)
    (hit : ∀ {β : Type} (o : E β) (s : σ), Q o → Hit s (h o s).2)
    (before : ∀ s t u, Rel s t → Hit t u → Hit s u)
    (after : ∀ s t u, Hit s t → Rel t u → Hit s u) (s : σ) :
    R (run h p s).1 ∨ Hit s (run h p s).2 := by
  induction p generalizing s with
  | pure a => exact .inl hp
  | op o k ih =>
    rcases hp with hQ | hk
    · right
      exact after _ _ _ (hit o s hQ) (run_rel h refl trans step (k (h o s).1) (h o s).2)
    · rcases ih _ (hk _) (h o s).2 with hR | hhit
      · exact .inl hR
      · exact .inr (before _ _ _ (step o s) hhit)

theorem Surely.mono {p : Program E α} {R R' : α → Prop} (hp : p.Surely Q R)
    (hR : ∀ a, R a → R' a) : p.Surely Q R' := by
  induction p with
  | pure a => exact hR a hp
  | op o k ih => exact hp.imp_right fun hk b => ih b (hk b)

end Surely

/-- Every leaf of `p` is in `R`: whatever the operations answer, `p` returns in `R`. -/
abbrev Returns (p : Program E α) (R : α → Prop) : Prop := p.Surely (fun _ => False) R

theorem Returns.op {o : E β} {k : β → Program E α} {R : α → Prop}
    (h : (Program.op o k).Returns R) (b : β) : (k b).Returns R :=
  h.resolve_left not_false b

/-! ## What every operation does -/

/-- Every operation on every path of `p` is in `Q`, and every value it returns is in `R`. -/
def Always (Q : {β : Type} → E β → Prop) : Program E α → (α → Prop) → Prop
  | .pure a, R => R a
  | .op o k, R => Q o ∧ ∀ b, (k b).Always Q R

section Always

variable {Q : {β : Type} → E β → Prop}

theorem always_bind {p : Program E α} {f : α → Program E β} {R : β → Prop} :
    (p >>= f).Always Q R ↔ p.Always Q fun a => (f a).Always Q R := by
  show (p.bind f).Always Q R ↔ _
  induction p with
  | pure a => rfl
  | op o k ih => simp only [bind, Always, ih]

theorem always_hom (φ : {β : Type} → E β → F β) {Q : {β : Type} → F β → Prop} {p : Program E α}
    {R : α → Prop} : (p.hom φ).Always Q R ↔ p.Always (fun o => Q (φ o)) R := by
  induction p with
  | pure a => rfl
  | op o k ih => simp only [hom, Always, ih]

theorem Always.mono {p : Program E α} {R R' : α → Prop} (hp : p.Always Q R)
    (hR : ∀ a, R a → R' a) : p.Always Q R' := by
  induction p with
  | pure a => exact hR a hp
  | op o k ih => exact ⟨hp.1, fun b => ih b (hp.2 b)⟩

/-- A weaker property of the operations. -/
theorem Always.weaken {Q' : {β : Type} → E β → Prop} {p : Program E α} {R : α → Prop} (hp : p.Always Q R)
    (hQ : ∀ {β : Type} (o : E β), Q o → Q' o) : p.Always Q' R := by
  induction p with
  | pure a => exact hp
  | op o k ih => exact ⟨hQ o hp.1, fun b => ih b (hp.2 b)⟩

/-- Two properties of the operations. -/
theorem Always.and {Q' : {β : Type} → E β → Prop} {p : Program E α} {R : α → Prop} (hp : p.Always Q R)
    (hp' : p.Always Q' R) : p.Always (fun o => Q o ∧ Q' o) R := by
  induction p with
  | pure a => exact hp
  | op o k ih => exact ⟨⟨hp.1, hp'.1⟩, fun b => ih b (hp.2 b) (hp'.2 b)⟩

/-- **The rule of operations.** What every operation of a program preserves, a run of the program
preserves. -/
theorem Always.run {h : {β : Type} → E β → σ → β × σ} {I : σ → Prop} {p : Program E α}
    {R : α → Prop} (hp : p.Always Q R)
    (step : ∀ {β : Type} (o : E β) (s : σ), Q o → I s → I (h o s).2) {s : σ} (hs : I s) :
    R (Program.run h p s).1 ∧ I (Program.run h p s).2 := by
  induction p generalizing s with
  | pure a => exact ⟨hp, hs⟩
  | op o k ih => exact ih _ (hp.2 _) (step o s hp.1 hs)

end Always

/-! ## What every operation does, given the answers -/

/-- Every operation that `p` can come to is in `Q`, and every value it returns is in `R`, where `A` says which answers
an operation may give. -/
def AlwaysOn (A : {β : Type} → E β → β → Prop) (Q : {β : Type} → E β → Prop) : Program E α → (α → Prop) → Prop
  | .pure a, R => R a
  | .op o k, R => Q o ∧ ∀ b, A o b → (k b).AlwaysOn A Q R

section AlwaysOn

variable {A : {β : Type} → E β → β → Prop} {Q : {β : Type} → E β → Prop} {R : α → Prop}

/-- Whatever the answers are. -/
theorem Always.on {p : Program E α} (hp : p.Always Q R) : p.AlwaysOn A Q R := by
  induction p with
  | pure a => exact hp
  | op o k ih => exact ⟨hp.1, fun b _ => ih b (hp.2 b)⟩

theorem alwaysOn_bind {p : Program E α} {f : α → Program E β} {R : β → Prop} :
    (p >>= f).AlwaysOn A Q R ↔ p.AlwaysOn A Q fun a => (f a).AlwaysOn A Q R := by
  show (p.bind f).AlwaysOn A Q R ↔ _
  induction p with
  | pure a => rfl
  | op o k ih => simp only [bind, AlwaysOn, ih]

theorem alwaysOn_hom (φ : {β : Type} → F β → E β) {p : Program F α} : (p.hom φ).AlwaysOn A Q R ↔
    p.AlwaysOn (fun o b => A (φ o) b) (fun o => Q (φ o)) R := by
  induction p with
  | pure a => rfl
  | op o k ih => simp only [hom, AlwaysOn, ih]

theorem AlwaysOn.mono {p : Program E α} {R' : α → Prop} (hp : p.AlwaysOn A Q R) (hR : ∀ a, R a → R' a) :
    p.AlwaysOn A Q R' := by
  induction p with
  | pure a => exact hR a hp
  | op o k ih => exact ⟨hp.1, fun b hb => ih b (hp.2 b hb)⟩

end AlwaysOn

/-! ## Two programs at the same time -/

/-- Run two programs at the same time: each turn of the schedule gives one operation to the first or to
the second, and what is left at its end runs to completion, the first before the second. -/
def interleave (h : {γ : Type} → E γ → σ → γ × σ) : List Bool → Program E α → Program E β → σ → σ
  | [], p, q, s => (run h q (run h p s).2).2
  | true :: turns, .op o k, q, s => interleave h turns (k (h o s).1) q (h o s).2
  | false :: turns, p, .op o k, s => interleave h turns p (k (h o s).1) (h o s).2
  | true :: turns, .pure a, q, s => interleave h turns (.pure a) q s
  | false :: turns, p, .pure b, s => interleave h turns p (.pure b) s

/-- **The rule of interleaving.** What relates both programs to the state, through every operation of
either, relates what is left of them to the final state. -/
theorem interleave_invariant {h : {γ : Type} → E γ → σ → γ × σ} {I : Program E α → Program E β → σ → Prop}
    {Q : σ → Prop} (turns : List Bool) {p : Program E α} {q : Program E β} {s : σ} (start : I p q s)
    (left : ∀ {γ : Type} (o : E γ) k q s, I (.op o k) q s → I (k (h o s).1) q (h o s).2)
    (right : ∀ {γ : Type} (o : E γ) p k s, I p (.op o k) s → I p (k (h o s).1) (h o s).2)
    (done : ∀ a b s, I (.pure a) (.pure b) s → Q s) : Q (interleave h turns p q s) := by
  have hright : ∀ (q : Program E β) a s, I (.pure a) q s → Q (run h q s).2 := by
    intro q
    induction q with
    | pure b => exact fun a s hI => done a b s hI
    | op o k ih => exact fun a s hI => ih _ a _ (right o _ k s hI)
  have hrest : ∀ (p : Program E α) q s, I p q s → Q (run h q (run h p s).2).2 := by
    intro p
    induction p with
    | pure a => exact fun q s hI => hright q a s hI
    | op o k ih => exact fun q s hI => ih _ q _ (left o k q s hI)
  fun_induction interleave h turns p q s with
  | case1 p q s => exact hrest p q s start
  | case2 => rename_i ih; exact ih (left _ _ _ _ start)
  | case3 => rename_i ih; exact ih (right _ _ _ _ start)
  | case4 => rename_i ih; exact ih start
  | case5 => rename_i ih; exact ih start

/-- A schedule that lets the second program run first. -/
theorem exists_right_first {h : {γ : Type} → E γ → σ → γ × σ} (p : Program E α) (q : Program E β) (s : σ) :
    ∃ n, interleave h (List.replicate n false) p q s = (run h p (run h q s).2).2 := by
  induction q generalizing s with
  | pure b => exact ⟨0, rfl⟩
  | op o k ih =>
    obtain ⟨n, hn⟩ := ih (h o s).1 (h o s).2
    refine ⟨n + 1, ?_⟩
    rw [List.replicate_succ]
    cases p <;> exact hn

/-! ## Programs that do not disturb each other -/

/-- Two operations commute in the states in `I`: neither changes the other's answer, and their order does not
matter. -/
structure Commutes (h : {γ : Type} → E γ → σ → γ × σ) (I : σ → Prop) (o : E α) (o' : E β) : Prop where
  left : ∀ s, I s → (h o (h o' s).2).1 = (h o s).1
  right : ∀ s, I s → (h o' (h o s).2).1 = (h o' s).1
  state : ∀ s, I s → (h o (h o' s).2).2 = (h o' (h o s).2).2

section Commutes

variable {h : {γ : Type} → E γ → σ → γ × σ} {I : σ → Prop} {Q Q' : {γ : Type} → E γ → Prop}

/-- An operation that commutes with all of a program's commutes with a run of the program. -/
theorem run_commutes {p : Program E α} {R : α → Prop} (hp : p.Always Q R) {o' : E γ}
    (keeps : ∀ {β : Type} (o : E β) s, Q o → I s → I (h o s).2)
    (comm : ∀ {β : Type} (o : E β), Q o → Commutes h I o o') {s : σ} (hs : I s) :
    (h o' (run h p s).2).1 = (h o' s).1 ∧ (run h p (h o' s).2).2 = (h o' (run h p s).2).2 := by
  induction p generalizing s with
  | pure a => exact ⟨rfl, rfl⟩
  | op o k ih =>
    have hcomm := comm o hp.1
    obtain ⟨hanswer, hstate⟩ := ih _ (hp.2 (h o s).1) (keeps o s hp.1 hs)
    constructor
    · rw [run, hanswer, hcomm.right s hs]
    · rw [run, run, hcomm.left s hs, hcomm.state s hs, hstate]

/-- **Programs whose operations commute** run at the same time as they run one after the other. -/
theorem interleave_commutes {p : Program E α} {q : Program E β} {R : α → Prop} {R' : β → Prop}
    (hp : p.Always Q R) (hq : q.Always Q' R') (keeps : ∀ {γ : Type} (o : E γ) s, Q o → I s → I (h o s).2)
    (keeps' : ∀ {γ : Type} (o : E γ) s, Q' o → I s → I (h o s).2)
    (comm : ∀ {γ δ : Type} (o : E γ) (o' : E δ), Q o → Q' o' → Commutes h I o o') (turns : List Bool) {s : σ}
    (hs : I s) : interleave h turns p q s = (run h q (run h p s).2).2 := by
  refine interleave_invariant
    (I := fun p' q' s' => p'.Always Q (fun _ => True) ∧ q'.Always Q' (fun _ => True) ∧ I s' ∧
      (run h q' (run h p' s').2).2 = (run h q (run h p s).2).2)
    (Q := fun s' => s' = (run h q (run h p s).2).2) turns
    ⟨hp.mono fun _ _ => trivial, hq.mono fun _ _ => trivial, hs, rfl⟩ ?_ ?_ ?_
  · rintro γ o k q' s' ⟨hp', hq', hs', heq⟩
    exact ⟨hp'.2 _, hq', keeps o s' hp'.1 hs', heq⟩
  · -- the operation of the second program moves before what is left of the first
    rintro γ o' p' k s' ⟨hp', hq', hs', heq⟩
    obtain ⟨hanswer, hstate⟩ := run_commutes hp' keeps (fun o ho => comm o o' ho hq'.1) hs'
    refine ⟨hp', hq'.2 _, keeps' o' s' hq'.1 hs', ?_⟩
    rw [hstate, ← hanswer]
    exact heq
  · rintro a b s' ⟨-, -, -, heq⟩
    exact heq

end Commutes

end Program

end ChatApp
