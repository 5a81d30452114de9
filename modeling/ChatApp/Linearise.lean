/-
`Linearise.lean` -- workers that take effect one after another.

Workers share a state and move in any order. Each has one thing to do; done alone it is a function on a
view of the state, with a result. If every worker has one move that does it (`Linear`: the move before
which nothing of it shows, and after which nothing more does), then what any interleaving leaves of the
view, and every result, is what the workers would have got one at a time, in the order of those moves.

Nothing here names the server: workers, state, view and results are parameters.
-/
import ChatApp.Runs
import Mathlib.Data.List.Perm.Basic

set_option autoImplicit false

namespace ChatApp

universe u v

variable {X : Type u} {σ V : Type v} {K M B : Type}

/-- Workers, and the state they share. -/
structure Crew (X : Type u) (σ : Type v) where
  workers : List X
  state : σ

/-- The `i`th worker moves. -/
def Crew.step (move : X → σ → X × σ) (s : Crew X σ) (i : Nat) : Option (Crew X σ) :=
  s.workers[i]?.map fun x => ⟨s.workers.set i (move x s.state).1, (move x s.state).2⟩

/-- What is to be done, done one thing at a time: the results and the view at the end. The effect
may depend on a choice. -/
def inOrder (exec : K → M → V → B × V) : List (K × M) → V → List B × V
  | [], v => ([], v)
  | (k, m) :: rest, v =>
    let first := exec k m v
    let last := inOrder exec rest first.2
    (first.1 :: last.1, last.2)

theorem inOrder_snoc (exec : K → M → V → B × V) (done : List (K × M)) (k : K) (m : M) (v : V) :
    inOrder exec (done ++ [(k, m)]) v
      = ((inOrder exec done v).1 ++ [(exec k m (inOrder exec done v).2).1],
        (exec k m (inOrder exec done v).2).2) := by
  induction done generalizing v with
  | nil => rfl
  | cons d done ih =>
    rw [List.cons_append, inOrder, ih]
    rfl

/-- Doing the things to a state, where each has its effect on the view. -/
theorem inOrder_view {exec : K → M → V → B × V} {serve : K → M → σ → B × σ} {view : σ → V}
    (hserve : ∀ k m s, (serve k m s).1 = (exec k m (view s)).1 ∧
      view (serve k m s).2 = (exec k m (view s)).2)
    (todo : List (K × M)) (s : σ) : (inOrder serve todo s).1 = (inOrder exec todo (view s)).1 ∧
      view (inOrder serve todo s).2 = (inOrder exec todo (view s)).2 := by
  induction todo generalizing s with
  | nil => exact ⟨rfl, rfl⟩
  | cons d rest ih =>
    obtain ⟨hresult, hview⟩ := hserve d.1 d.2 s
    have hrest := ih (serve d.1 d.2 s).2
    rw [hview] at hrest
    exact ⟨congrArg₂ List.cons hresult hrest.1, hrest.2⟩

/-- Every worker takes effect with one of its moves: until then it is `Pending`, and afterwards
`Decided`, with a result. `meets` is the condition on a move. -/
structure Linear (move : X → σ → X × σ) (meets : X → σ → Prop) (view : σ → V) (key : X → K)
    (exec : K → M → V → B × V) (Pending : X → Prop) (Decided : B → X → Prop) : Prop where
  same : ∀ x s, key (move x s).1 = key x
  pending : ∀ x s, Pending x → meets x s →
    (view (move x s).2 = view s ∧ Pending (move x s).1) ∨
      ∃ m, view (move x s).2 = (exec (key x) m (view s)).2 ∧
        Decided (exec (key x) m (view s)).1 (move x s).1
  decided : ∀ b x s, Decided b x → meets x s → view (move x s).2 = view s ∧ Decided b (move x s).1

/-- What has taken effect, in order, with the choices, and what has not. -/
structure Effected (view : σ → V) (key : X → K) (exec : K → M → V → B × V) (Pending : X → Prop)
    (Decided : B → X → Prop) (v : V) (s : Crew X σ) (done : List (X × M)) (waiting : List X) : Prop where
  workers : s.workers.Perm (done.map Prod.fst ++ waiting)
  view : (inOrder exec (done.map fun d => (key d.1, d.2)) v).2 = view s.state
  results : List.Forall₂ (fun d b => Decided b d.1) done
    (inOrder exec (done.map fun d => (key d.1, d.2)) v).1
  waits : ∀ x ∈ waiting, Pending x

section Perm

variable {α β : Type u} {x x' : α} {before after before' after' : List α}

/-- The others are the same. -/
theorem others_perm (h : (before ++ x :: after).Perm (before' ++ x :: after')) :
    (before ++ after).Perm (before' ++ after') :=
  (List.perm_middle.symm.trans (h.trans List.perm_middle)).cons_inv

/-- One element changes in both lists. -/
theorem replace_perm (h : (before ++ x :: after).Perm (before' ++ x :: after')) (x' : α) :
    (before ++ x' :: after).Perm (before' ++ x' :: after') :=
  List.perm_middle.trans (((others_perm h).cons x').trans List.perm_middle.symm)

theorem forall₂_replace {R : α → B → Prop} {bs : List B}
    (h : List.Forall₂ R (before ++ x :: after) bs) (hx : ∀ b, R x b → R x' b) :
    List.Forall₂ R (before ++ x' :: after) bs := by
  induction before generalizing bs with
  | nil =>
    cases h with
    | cons hb hrest => exact .cons (hx _ hb) hrest
  | cons y before ih =>
    cases h with
    | cons hb hrest => exact .cons hb (ih hrest)

/-- Results that the elements determine. -/
theorem forall₂_determined {R : α → B → Prop} {f : α → B} {xs : List α} {bs : List B}
    (h : List.Forall₂ R xs bs) (hf : ∀ x ∈ xs, ∀ b, R x b → b = f x) : bs = xs.map f := by
  induction h with
  | nil => rfl
  | cons hb _ ih =>
    have hrest := ih fun x hx => hf x (List.mem_cons_of_mem _ hx)
    rw [hf _ List.mem_cons_self _ hb, hrest, List.map_cons]

theorem forall₂_result {R : α → B → Prop} {xs : List α} {bs : List B} (h : List.Forall₂ R xs bs)
    (hx : x ∈ xs) : ∃ b, R x b := by
  induction h with
  | nil => cases hx
  | cons hb _ ih =>
    rcases List.mem_cons.mp hx with rfl | hx
    · exact ⟨_, hb⟩
    · exact ih hx

end Perm

section Rules

variable {move : X → σ → X × σ} {meets : X → σ → Prop} {view : σ → V} {key : X → K}
  {exec : K → M → V → B × V} {Pending : X → Prop} {Decided : B → X → Prop} {v : V}

/-- Each move takes effect at the end of the order, or shows nothing. -/
theorem Linear.step (linear : Linear move meets view key exec Pending Decided) {s s' : Crew X σ}
    {i : Nat} {done : List (X × M)} {waiting : List X}
    (h : Effected view key exec Pending Decided v s done waiting)
    (hmeets : ∀ x, s.workers[i]? = some x → meets x s.state) (hs : s.step move i = some s') :
    ∃ done waiting, Effected view key exec Pending Decided v s' done waiting := by
  obtain ⟨x, hget, rfl⟩ := Option.map_eq_some_iff.mp hs
  have hmeets := hmeets x hget
  have hsame := linear.same x s.state
  obtain ⟨hlt, hx⟩ := List.getElem?_eq_some_iff.mp hget
  have hworkers : s.workers = s.workers.take i ++ x :: s.workers.drop (i + 1) := by
    rw [← hx, List.getElem_cons_drop, List.take_append_drop]
  have hset : s.workers.set i (move x s.state).1
      = s.workers.take i ++ (move x s.state).1 :: s.workers.drop (i + 1) := by
    rw [List.set_eq_take_append_cons_drop, if_pos hlt]
  have hperm := h.workers
  rw [hworkers] at hperm
  have hmem : x ∈ done.map Prod.fst ++ waiting := hperm.subset (by simp)
  rcases List.mem_append.mp hmem with hdone | hwaiting
  · -- it has taken effect already
    obtain ⟨⟨x, m⟩, hd, rfl⟩ := List.mem_map.mp hdone
    obtain ⟨before, after, rfl⟩ := List.append_of_mem hd
    have hbefore : (before ++ (x, m) :: after).map Prod.fst ++ waiting
        = before.map Prod.fst ++ x :: (after.map Prod.fst ++ waiting) := by simp
    have hkeys : (before ++ ((move x s.state).1, m) :: after).map (fun d => (key d.1, d.2))
        = (before ++ (x, m) :: after).map fun d => (key d.1, d.2) := by simp [hsame]
    rw [hbefore] at hperm
    obtain ⟨b, hdecided⟩ := forall₂_result h.results hd
    have hview := (linear.decided b x s.state hdecided hmeets).1
    refine ⟨before ++ ((move x s.state).1, m) :: after, waiting, ?_, ?_, ?_, h.waits⟩
    · rw [hset]
      simpa using replace_perm hperm (move x s.state).1
    · rw [hkeys, hview]
      exact h.view
    · rw [hkeys]
      exact forall₂_replace h.results fun b' hb => (linear.decided b' x s.state hb hmeets).2
  · obtain ⟨before, after, rfl⟩ := List.append_of_mem hwaiting
    rw [← List.append_assoc] at hperm
    rcases linear.pending x s.state (h.waits x hwaiting) hmeets with ⟨hview, hpending⟩ | ⟨m, hview, hdecided⟩
    · -- nothing shows yet
      refine ⟨done, before ++ (move x s.state).1 :: after, ?_, ?_, h.results, fun y hy => ?_⟩
      · rw [hset, ← List.append_assoc]
        exact replace_perm hperm _
      · rw [hview]
        exact h.view
      · rcases List.mem_append.mp hy with hy | hy
        · exact h.waits y (by simp [hy])
        · rcases List.mem_cons.mp hy with rfl | hy
          · exact hpending
          · exact h.waits y (by simp [hy])
    · -- it takes effect with this move
      have hkeys : (done ++ [((move x s.state).1, m)]).map (fun d => (key d.1, d.2))
          = done.map (fun d => (key d.1, d.2)) ++ [(key x, m)] := by simp [hsame]
      refine ⟨done ++ [((move x s.state).1, m)], before ++ after, ?_, ?_, ?_, fun y hy => ?_⟩
      · have hothers := (others_perm hperm).cons (move x s.state).1
        rw [hset]
        refine List.perm_middle.trans (hothers.trans ?_)
        have hlast : ((move x s.state).1 :: (done.map Prod.fst ++ (before ++ after))).Perm
            (done.map Prod.fst ++ (move x s.state).1 :: (before ++ after)) := List.perm_middle.symm
        simpa using hlast
      · rw [hkeys, inOrder_snoc, h.view]
        exact hview.symm
      · rw [hkeys, inOrder_snoc, h.view]
        exact List.rel_append h.results (.cons hdecided .nil)
      · exact h.waits y (by rcases List.mem_append.mp hy with hy | hy <;> simp [hy])

/-- **The order of the effects.** After any run whose moves meet the condition, what shows is what the
workers that have taken effect leave, one at a time, each with its result. -/
theorem Linear.run (linear : Linear move meets view key exec Pending Decided) {s t : Crew X σ}
    {tr : List (Taken (Crew X σ) Nat)}
    (run : Run (Crew.step move) (fun s i => ∀ x, s.workers[i]? = some x → meets x s.state) s tr t)
    (start : ∀ x ∈ s.workers, Pending x) :
    ∃ done waiting, Effected view key exec Pending Decided (view s.state) t done waiting := by
  refine run.invariant (I := fun t => ∃ done waiting,
    Effected view key exec Pending Decided (view s.state) t done waiting)
    ⟨[], s.workers, .refl _, rfl, .nil, start⟩ ?_
  rintro x i y ⟨done, waiting, h⟩ hmeets hs
  exact linear.step h hmeets hs

end Rules

end ChatApp
