/-
`Answers.lean` -- what the handlers do with the answers that they get in a run.

What a handler does depends on what it is told: it adds members to the group whose number the database has given it,
and asks the user whose name it has found. In a run an operation answers from the state it is performed in, and from
a frame to the next one of its connection the turns of the connection are those of the frame's handler (`During`). So
what every operation preserves, if the answers before it are such and come from states of which it held, holds in every
state (`invariant_of_answers`).
-/
import ChatApp.Threads

set_option autoImplicit false

namespace ChatApp

open Prog handle_client

/-! ## Programs -/

namespace Prog

variable {S T : List Field} {α β : Type} {A : {β : Type} → Op β → β → Prop} {Q : {β : Type} → Op β → Prop}

/-- Every operation that the program can come to is in `Q`, if operations answer as `A` says. -/
def AlwaysOn (A : {β : Type} → Op β → β → Prop) (Q : {β : Type} → Op β → Prop) (p : Prog S α) (R : α → Prop) : Prop :=
  Program.AlwaysOn (fun o b => A o.1 b) (fun o => Q o.1) p R

theorem Always.on {p : Prog S α} {R : α → Prop} (hp : p.Always Q R) : p.AlwaysOn A Q R := Program.Always.on hp

theorem alwaysOn_lift {R : α → Prop} (p : Prog S α) (h : S ⊆ T) : (p.lift h).AlwaysOn A Q R ↔ p.AlwaysOn A Q R :=
  Program.alwaysOn_hom _

theorem AlwaysOn.seq {p : Prog S α} {f : α → Prog S β} {R : α → Prop} {R' : β → Prop} (hp : p.AlwaysOn A Q R)
    (hf : ∀ a, R a → (f a).AlwaysOn A Q R') : (p >>= f).AlwaysOn A Q R' :=
  Program.alwaysOn_bind.mpr (Program.AlwaysOn.mono hp hf)

theorem alwaysOn_pure {a : α} {R : α → Prop} (ha : R a) : (pure a : Prog S α).AlwaysOn A Q R := ha

theorem AlwaysOn.ite {c : Prop} [Decidable c] {p q : Prog S α} {R : α → Prop} (hp : c → p.AlwaysOn A Q R)
    (hq : ¬c → q.AlwaysOn A Q R) : (if c then p else q).AlwaysOn A Q R := by
  split
  · next hc => exact hp hc
  · next hc => exact hq hc

/-- One operation. -/
theorem alwaysOn_perform {o : OpIn S β} {R : β → Prop} (ho : Q o.1) (hR : ∀ b, A o.1 b → R b) :
    Prog.AlwaysOn A Q (Program.perform o : Prog S β) R := ⟨ho, hR⟩

/-- A critical section. -/
theorem AlwaysOn.locked {p : Prog S α} {R : α → Prop} (hp : p.AlwaysOn A Q R) (hlock : Q .lock) (hunlock : Q .unlock) :
    (Prog.locked p).AlwaysOn A Q R := by
  refine AlwaysOn.seq (alwaysOn_perform (R := fun _ => True) hlock fun _ _ => trivial) fun _ _ => ?_
  refine AlwaysOn.seq hp fun a ha => ?_
  exact AlwaysOn.seq (alwaysOn_perform (R := fun _ => True) hunlock fun _ _ => trivial) fun _ _ => alwaysOn_pure ha

end Prog

/-! ## Frames and their handlers -/

namespace Threads

/-- The `n`th step of the run is a frame of `fd`, in the session `me`, that asks for the command. -/
def FrameAt (pg : Bool) (tr : List (Taken Threads Concurrent.Event)) (n : Nat) (fd me : Int) (c : Command) : Prop :=
  ∃ x r, tr[n]? = some x ∧ x.event = .request fd r ∧ r.header.valid = true ∧
    decode pg r.header.type r.payload = .ok c ∧ x.before.world.session fd = me

/-- No frame of `fd` comes between the `n`th step of the run and the `m`th. -/
def During (tr : List (Taken Threads Concurrent.Event)) (fd : Int) (n m : Nat) : Prop :=
  n < m ∧ ∀ j, n < j → j < m → ∀ x r, tr[j]? = some x → x.event ≠ .request fd r

/-- The `m`th step is a turn of the handler of `fd`, from one state of the world to another. -/
def TurnAt (tr : List (Taken Threads Concurrent.Event)) (m : Nat) (fd : Int) (w w' : World) : Prop :=
  ∃ x i, tr[m]? = some x ∧ x.event = .advance i ∧ (x.before.handlers[i]?).map Handler.fd = some fd ∧
    x.before.world = w ∧ x.after.world = w'

/-- The operation answers `b` to the handler of the `n`th step's frame, in the state it is performed in, of which
`I` is true. -/
def Answers (env : Env) (tr : List (Taken Threads Concurrent.Event)) (I : World → Prop) (fd : Int) (n : Nat) {β : Type}
    (o : Op β) (b : β) : Prop :=
  ∃ m w, During tr fd n m ∧ TurnAt tr m fd w (o.exec env w).2 ∧ I w ∧ (o.exec env w).1 = b

section Rule

variable {pg : Bool} {env : Env} {C : Threads → Concurrent.Event → Prop} {w₀ : World} {s t : Threads}
  {tr past : List (Taken Threads Concurrent.Event)} {Q : {β : Type} → Op β → Prop} {I : World → Prop}

/-- What remains of the handler, given the answers that it gets. -/
def OnTrack (env : Env) (tr : List (Taken Threads Concurrent.Event)) (I : World → Prop) (Q : {β : Type} → Op β → Prop)
    (now : Nat) (h : Handler) : Prop :=
  ∃ n, During tr h.fd n now ∧ h.prog.AlwaysOn (Answers env tr I h.fd n) Q fun _ => True

theorem during_succ (tr : List (Taken Threads Concurrent.Event)) (fd : Int) (n : Nat) : During tr fd n (n + 1) :=
  ⟨Nat.lt_succ_self n, fun j hj hj' => absurd hj' (by omega)⟩

/-- A step that is no frame of the connection. -/
theorem During.snoc {fd : Int} {n m : Nat} {x : Taken Threads Concurrent.Event} (h : During tr fd n m)
    (hx : tr[m]? = some x) (hother : ∀ r, x.event ≠ .request fd r) : During tr fd n (m + 1) := by
  refine ⟨Nat.lt_succ_of_lt h.1, fun j hj hj' y r hy => ?_⟩
  rcases Nat.lt_succ_iff_lt_or_eq.mp hj' with hlt | rfl
  · exact h.2 j hj hlt y r hy
  · rw [hx] at hy
    exact Option.some.inj hy ▸ hother r

/-- A handler that nothing is known of but its operations. -/
theorem onTrack_of_always {h : Handler} (n : Nat) (hh : h.prog.Always Q fun _ => True) :
    OnTrack env tr I Q (n + 1) h :=
  ⟨n, during_succ tr h.fd n, hh.on⟩

/-- **A step**: the operation that is performed is one that the handler could come to, and so are those that follow. -/
theorem onTrack_of_step {e : Concurrent.Event} {rest : List (Taken Threads Concurrent.Event)}
    (htr : tr = past ++ ⟨s, e, t⟩ :: rest) (hstep : step pg env s e = some t)
    (hperform : ∀ n fd me rid c, FrameAt pg tr n fd me c →
      (perform pg fd me rid c).AlwaysOn (Answers env tr I fd n) Q fun _ => True)
    (hinvalid : ∀ fd, (invalid_header fd).Always Q fun _ => True)
    (hcleanup : ∀ fd me, (cleanup fd me).Always Q fun _ => True)
    (hop : ∀ {β : Type} (o : Op β) (w : World), Q o → I w → I (o.exec env w).2)
    (haccept : ∀ (w : World) fd, I w → I { w with conns := w.conns.set fd 0 })
    (hs : I s.world) (htrack : ∀ h ∈ s.handlers, OnTrack env tr I Q past.length h) :
    I t.world ∧ ∀ h ∈ t.handlers, OnTrack env tr I Q (past.length + 1) h := by
  have hnow : tr[past.length]? = some ⟨s, e, t⟩ := by
    rw [htr]
    simp
  -- a handler that this step is not about is as far as it was
  have hlater : ∀ h ∈ s.handlers, (∀ r, e ≠ .request h.fd r) → OnTrack env tr I Q (past.length + 1) h := by
    intro h hh hother
    obtain ⟨n, hduring, hprog⟩ := htrack h hh
    exact ⟨n, hduring.snoc hnow hother, hprog⟩
  cases e with
  | advance i =>
    obtain ⟨⟨fd, prog⟩, hget, ht⟩ := Option.bind_eq_some_iff.mp hstep
    obtain ⟨n, hduring, hprog⟩ := htrack _ (List.mem_of_getElem? hget)
    unfold turn at ht
    cases prog with
    | pure out =>
      cases Option.some.inj ht
      refine ⟨hs, fun h hh => (Concurrent.mem_replaced hh).elim (fun hh => ?_)
        fun hh => hlater h hh fun r hr => by cases hr⟩
      cases out with
      | next => cases hh
      | cleanup =>
        rw [List.mem_singleton.mp hh]
        exact onTrack_of_always _ (Always.seq ((always_lift ..).mpr (hcleanup ..)) fun _ => trivial)
    | op o k =>
      dsimp only at ht
      split at ht
      · cases ht
      · cases Option.some.inj ht
        refine ⟨hop o.1 _ hprog.1 hs, fun h hh => (Concurrent.mem_replaced hh).elim (fun hh => ?_)
          fun hh => hlater h hh fun r hr => by cases hr⟩
        rw [List.mem_singleton.mp hh]
        -- the answer of this turn is one of those its program may be told
        have hanswer : Answers env tr I fd n o.1 (o.1.exec env s.world).1 :=
          ⟨past.length, s.world, hduring, ⟨_, i, hnow, rfl, by rw [hget]; rfl, rfl, rfl⟩, hs, rfl⟩
        exact ⟨n, hduring.snoc hnow (fun r hr => by cases hr), hprog.2 _ hanswer⟩
  | accept fd =>
    obtain ⟨t', ht', rfl⟩ := Option.map_eq_some_iff.mp hstep
    refine ⟨world_of_start ht' (fun i he => by cases he) haccept hs, fun h hh => ?_⟩
    cases Concurrent.move_of_step pg env ht' with
    | accepted fd => exact hlater h hh fun r hr => by cases hr
  | request fd r =>
    obtain ⟨t', ht', rfl⟩ := Option.map_eq_some_iff.mp hstep
    refine ⟨world_of_start ht' (fun i he => by cases he) haccept hs, fun h hh => ?_⟩
    cases Concurrent.move_of_step pg env ht' with
    | started fd r h' hopened hidle hstarted =>
      rcases List.mem_append.mp hh with hh | hh
      · refine hlater h hh fun r' hr => ?_
        -- the connection of the frame has no handler at work
        have hother : h.fd ≠ fd := by simpa using List.all_eq_true.mp hidle h hh
        cases hr
        exact hother rfl
      · rw [List.mem_singleton.mp hh]
        rcases Concurrent.request_handler_eq pg hstarted with ⟨hvalid, c, hc, rfl⟩ | ⟨-, rfl⟩
        -- a new handler starts with its frame
        · exact ⟨past.length, during_succ tr fd _, hperform _ fd _ _ c ⟨_, r, hnow, rfl, hvalid, hc, rfl⟩⟩
        · exact onTrack_of_always _ ((Program.always_hom _).mpr (hinvalid fd))
  | hangup fd =>
    obtain ⟨t', ht', rfl⟩ := Option.map_eq_some_iff.mp hstep
    refine ⟨world_of_start ht' (fun i he => by cases he) haccept hs, fun h hh => ?_⟩
    cases Concurrent.move_of_step pg env ht' with
    | hungup fd hopened hidle =>
      rcases List.mem_append.mp hh with hh | hh
      · exact hlater h hh fun r hr => by cases hr
      · rw [List.mem_singleton.mp hh]
        exact onTrack_of_always _ (Always.seq ((always_lift ..).mpr (hcleanup ..)) fun _ => trivial)

/-- **The rule of answers.** What every operation that a handler can come to preserves, given the answers that its
operations get in the run, holds in every state. -/
theorem invariant_of_answers (run : Run pg env C (quiet w₀) tr s) (start : I w₀)
    (hperform : ∀ n fd me rid c, FrameAt pg tr n fd me c →
      (perform pg fd me rid c).AlwaysOn (Answers env tr I fd n) Q fun _ => True)
    (hinvalid : ∀ fd, (invalid_header fd).Always Q fun _ => True)
    (hcleanup : ∀ fd me, (cleanup fd me).Always Q fun _ => True)
    (hop : ∀ {β : Type} (o : Op β) (w : World), Q o → I w → I (o.exec env w).2)
    (haccept : ∀ (w : World) fd, I w → I { w with conns := w.conns.set fd 0 }) : I s.world := by
  suffices h : tr <+: tr → I s.world ∧ ∀ h ∈ s.handlers, OnTrack env tr I Q tr.length h from (h List.prefix_rfl).1
  refine run.history (I := fun past x => past <+: tr → I x.world ∧ ∀ h ∈ x.handlers, OnTrack env tr I Q past.length h)
    (fun _ => ⟨start, fun h hh => absurd hh List.not_mem_nil⟩) fun past x e y hx _ hstep hprefix => ?_
  obtain ⟨hworld, htrack⟩ := hx ((List.prefix_append _ _).trans hprefix)
  obtain ⟨rest, hrest⟩ := hprefix
  rw [List.append_assoc, List.singleton_append] at hrest
  rw [List.length_append, List.length_singleton]
  exact onTrack_of_step hrest.symm hstep hperform hinvalid hcleanup hop haccept hworld htrack

end Rule

end Threads

end ChatApp
