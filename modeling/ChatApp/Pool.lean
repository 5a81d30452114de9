/-
`Pool.lean` -- threads running next to each other.

A pool is a list of programs and one shared state. Its step takes one thread and
performs that thread's next operation; the event names the thread and whatever
the operation's outcome depends on besides the state. So a run of a pool is one
interleaving, and a theorem about every run is about every interleaving.
-/
import ChatApp.Program
import ChatApp.Runs

set_option autoImplicit false

namespace ChatApp

/-- The threads, by what remains of their programs, and the state they share. -/
abbrev Pool (E : Type → Type 1) (α σ : Type) : Type 1 := List (Program E α) × σ

namespace Pool

variable {E : Type → Type 1} {α σ χ : Type}

/-- Thread `e.1` performs its next operation, with the outcome `e.2`. -/
def step (h : {β : Type} → χ → E β → σ → β × σ) (pool : Pool E α σ) (e : Nat × χ) :
    Option (Pool E α σ) :=
  match pool.1[e.1]? with
  | some (.op o k) =>
    let res := h e.2 o pool.2
    some (pool.1.set e.1 (k res.1), res.2)
  | _ => none

variable {h : {β : Type} → χ → E β → σ → β × σ}

/-- **What a step of a pool does**: one thread of the list is at an operation, and it
alone moves. -/
theorem step_cases {pool pool' : Pool E α σ} {e : Nat × χ} (hs : step h pool e = some pool') :
    ∃ (β : Type) (o : E β) (k : β → Program E α) (before after : List (Program E α)),
      pool.1 = before ++ .op o k :: after ∧ e.1 = before.length ∧
        pool' = (before ++ k (h e.2 o pool.2).1 :: after, (h e.2 o pool.2).2) := by
  unfold step at hs
  split at hs
  · next o k hget =>
    obtain ⟨hlt, hop⟩ := List.getElem?_eq_some_iff.mp hget
    refine ⟨_, o, k, pool.1.take e.1, pool.1.drop (e.1 + 1), ?_, ?_, ?_⟩
    · rw [← hop, List.getElem_cons_drop, List.take_append_drop]
    · rw [List.length_take]
      omega
    · rw [← Option.some.inj hs, List.set_eq_take_append_cons_drop, if_pos hlt]
  · exact absurd hs (by simp)

end Pool

end ChatApp
