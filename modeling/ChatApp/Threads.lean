/-
`Threads.lean` -- the threads of the server, one operation at a time.

In `Concurrent` a critical section of `g_mutex` is one move. For what the lock guards nothing finer can be
observed; but the connection to the database is shared without it, so a statement that one thread makes outside
the lock may fall between two of a transaction that another makes inside. Here a step is one operation of one
thread. A thread that wants the lock has no turn until it is free; since every handler leaves the sections it
enters, some thread always has one (`Threads.no_deadlock`). `Concurrent` is the part of this system in which nothing
falls into a section (`Threads.run_of_run`).
-/
import ChatApp.LockDiscipline

set_option autoImplicit false

namespace ChatApp

open Prog handle_client

/-- The handlers at work, and the connection whose handler is inside a critical section. -/
structure Threads : Type 1 extends Concurrent where
  owner : Option Int

/-- Who owns the lock once the handler of `fd` has performed the operation. -/
def Op.owner (fd : Int) {β : Type} : Op β → Option Int → Option Int
  | .lock, _ => some fd
  | .unlock, _ => none
  | _, owner => owner

namespace Threads

/-- The state after the `i`th handler has come to `new`. -/
def replaced (s : Threads) (i : Nat) (w : World) (new : List Handler) (owner : Option Int) : Threads :=
  ⟨⟨w, s.toConcurrent.replaced i new⟩, owner⟩

/-- One operation of the `i`th handler; `none` while it waits for the lock. -/
def turn (env : Env) (s : Threads) (i : Nat) (h : Handler) : Option Threads :=
  match h.prog with
  | .pure out => some (s.replaced i s.world (Concurrent.finish s.world h.fd out) s.owner)
  | .op o k =>
    if o.1.isLock && s.owner.isSome then none
    else some (s.replaced i (o.1.exec env s.world).2 [⟨h.fd, k (o.1.exec env s.world).1⟩] (o.1.owner h.fd s.owner))

/-- What the server does next: connections open and handlers start as in `Concurrent`. -/
def step (pg : Bool) (env : Env) (s : Threads) : Concurrent.Event → Option Threads
  | .advance i => s.handlers[i]?.bind (s.turn env i)
  | e => (Concurrent.step pg env s.toConcurrent e).map fun t => ⟨t, s.owner⟩

/-- A run of the server, in which the handlers take turns with every operation. -/
abbrev Run (pg : Bool) (env : Env) (C : Threads → Concurrent.Event → Prop) :
    Threads → List (Taken Threads Concurrent.Event) → Threads → Prop :=
  ChatApp.Run (step pg env) C

/-- No handler is at work. -/
def quiet (w : World) : Threads := ⟨Concurrent.quiet w, none⟩

/-! ## The rule of operations -/

section Rules

variable {pg : Bool} {env : Env} {C : Threads → Concurrent.Event → Prop} {s t : Threads}
  {tr : List (Taken Threads Concurrent.Event)} {Q : {β : Type} → Op β → Prop} {I : World → Prop}

/-- Every operation that the handlers have before them is in `Q`. -/
def Within (Q : {β : Type} → Op β → Prop) (s : Threads) : Prop := ∀ h ∈ s.handlers, h.prog.Always Q fun _ => True

/-- A turn: what each operation preserves is preserved, and the handlers keep to their operations. -/
theorem within_of_turn {i : Nat} {h : Handler} (hcleanup : ∀ fd me, (cleanup fd me).Always Q fun _ => True)
    (hop : ∀ {β : Type} (o : Op β) (w : World), Q o → I w → I (o.exec env w).2) (hget : s.handlers[i]? = some h)
    (ht : s.turn env i h = some t) (hs : I s.world) (hwithin : s.Within Q) : I t.world ∧ t.Within Q := by
  obtain ⟨fd, prog⟩ := h
  have hprog : prog.Always Q fun _ => True := hwithin _ (List.mem_of_getElem? hget)
  unfold turn at ht
  cases prog with
  -- the end of a request starts nothing, or the clean-up
  | pure out =>
    cases Option.some.inj ht
    refine ⟨hs, fun h hh => (Concurrent.mem_replaced hh).elim (fun hh => ?_) (hwithin h)⟩
    cases out with
    | next => cases hh
    | cleanup =>
      rw [List.mem_singleton.mp hh]
      exact Always.seq ((always_lift ..).mpr (hcleanup ..)) fun _ => trivial
  | op o k =>
    -- an operation: the rest of the program is left
    dsimp only at ht
    split at ht
    · cases ht
    · cases Option.some.inj ht
      refine ⟨hop o.1 _ hprog.1 hs, fun h hh => (Concurrent.mem_replaced hh).elim (fun hh => ?_) (hwithin h)⟩
      rw [List.mem_singleton.mp hh]
      exact hprog.2 _

/-- Nothing but a turn of a handler changes more of the world than its connections. -/
theorem world_of_start {x y : Concurrent} {e : Concurrent.Event} (hstep : Concurrent.step pg env x e = some y)
    (he : ∀ i, e ≠ .advance i) (haccept : ∀ (w : World) fd, I w → I { w with conns := w.conns.set fd 0 })
    (hx : I x.world) : I y.world := by
  cases Concurrent.move_of_step pg env hstep with
  | accepted fd => exact haccept _ fd hx
  | started | hungup => exact hx
  | finished i | turned i => exact absurd rfl (he i)

/-- A step. -/
theorem within_of_step {e : Concurrent.Event}
    (hperform : ∀ fd me rid c, (perform pg fd me rid c).Always Q fun _ => True)
    (hinvalid : ∀ fd, (invalid_header fd).Always Q fun _ => True)
    (hcleanup : ∀ fd me, (cleanup fd me).Always Q fun _ => True)
    (hop : ∀ {β : Type} (o : Op β) (w : World), Q o → I w → I (o.exec env w).2)
    (haccept : ∀ (w : World) fd, I w → I { w with conns := w.conns.set fd 0 }) (hstep : step pg env s e = some t)
    (hs : I s.world) (hwithin : s.Within Q) : I t.world ∧ t.Within Q := by
  cases e with
  | advance i =>
    obtain ⟨h, hget, ht⟩ := Option.bind_eq_some_iff.mp hstep
    exact within_of_turn hcleanup hop hget ht hs hwithin
  | accept fd | request fd r | hangup fd =>
    obtain ⟨t', ht', rfl⟩ := Option.map_eq_some_iff.mp hstep
    constructor
    -- what is started are programs of the source
    · exact world_of_start ht' (fun i he => by cases he) haccept hs
    · refine Concurrent.stages_of_step (K := fun h => h.prog.Always Q fun _ => True) ht' (fun fd r h _ hstarted => ?_)
        (fun fd me => Always.seq ((always_lift ..).mpr (hcleanup fd me)) fun _ => trivial) (fun i h he => ?_) hwithin
      · rcases Concurrent.request_handler_eq pg hstarted with ⟨-, c, -, rfl⟩ | ⟨-, rfl⟩
        · exact hperform ..
        · exact (Program.always_hom _).mpr (hinvalid fd)
      · cases he

/-- **The rule of operations.** What every operation of the handlers preserves holds in every state of every run,
whatever operations of others fall between two of them. -/
theorem invariant_of_ops (hperform : ∀ fd me rid c, (perform pg fd me rid c).Always Q fun _ => True)
    (hinvalid : ∀ fd, (invalid_header fd).Always Q fun _ => True)
    (hcleanup : ∀ fd me, (cleanup fd me).Always Q fun _ => True)
    (hop : ∀ {β : Type} (o : Op β) (w : World), Q o → I w → I (o.exec env w).2)
    (haccept : ∀ (w : World) fd, I w → I { w with conns := w.conns.set fd 0 }) (run : Run pg env C s tr t)
    (start : I s.world) (hstart : s.Within Q) : I t.world ∧ t.Within Q :=
  run.invariant (I := fun s => I s.world ∧ s.Within Q) ⟨start, hstart⟩ fun _ _ _ hx _ hstep =>
    within_of_step hperform hinvalid hcleanup hop haccept hstep hx.1 hx.2

end Rules

/-! ## The lock -/

/-- The program of a handler that is inside a critical section, or outside, and leaves the sections it enters. -/
def Stands (inside : Bool) (p : Prog all_fields Outcome) : Prop :=
  Program.Balanced (fun o => o.1.isLock) (fun o => o.1.isUnlock) p inside fun inside _ => inside = false

/-- The lock is where the handlers think it is: the owner is at work, and a handler is inside a critical section
exactly when it owns the lock. -/
structure Disciplined (s : Threads) : Prop where
  single : s.toConcurrent.Single
  owner : ∀ fd, s.owner = some fd → fd ∈ s.handlers.map Handler.fd
  stands : ∀ h ∈ s.handlers, Stands (decide (s.owner = some h.fd)) h.prog

section Lock

variable {pg : Bool} {env : Env} {C : Threads → Concurrent.Event → Prop} {s t : Threads} {w : World}
  {tr : List (Taken Threads Concurrent.Event)} {i : Nat} {h : Handler}

/-- An operation takes the lock, releases it, or leaves it alone. -/
theorem owner_cases {β : Type} (o : Op β) (fd : Int) (owner : Option Int) :
    (o.isLock = true ∧ o.owner fd owner = some fd) ∨
    (o.isLock = false ∧ o.isUnlock = true ∧ o.owner fd owner = none) ∨
    (o.isLock = false ∧ o.isUnlock = false ∧ o.owner fd owner = owner) := by
  cases o with
  | lock => exact .inl ⟨rfl, rfl⟩
  | unlock => exact .inr (.inl ⟨rfl, rfl, rfl⟩)
  | _ => exact .inr (.inr ⟨rfl, rfl, rfl⟩)

/-- A handler that starts is outside. -/
theorem stands_request {fd : Int} {r : Request} (hstarted : request_handler pg w fd r = some h) :
    Stands false h.prog := by
  rcases Concurrent.request_handler_eq pg hstarted with ⟨-, c, -, rfl⟩ | ⟨-, rfl⟩
  · exact perform_closed ..
  · refine closed_lift (S := invalid_header_writes) (closed_of_unlocked ?_) (by decide)
    simp [invalid_header, Unlocked, Op.isLock, Op.isUnlock]

theorem stands_cleanup (fd me : Int) : Stands false (cleanup_handler fd me).prog :=
  Program.Closed.bind (closed_lift (cleanup_closed fd me) _) fun _ => rfl

theorem fd_request {fd : Int} {r : Request} (hstarted : request_handler pg w fd r = some h) : h.fd = fd := by
  rcases Concurrent.request_handler_eq pg hstarted with ⟨-, c, -, rfl⟩ | ⟨-, rfl⟩
  · rfl
  · rfl

theorem Disciplined.started (hs : s.Disciplined) (hidle : s.idle h.fd = true) (hh : Stands false h.prog) (w : World) :
    Disciplined ⟨⟨w, s.handlers ++ [h]⟩, s.owner⟩ where
  single := hs.single.started hidle h.prog w
  owner fd howner := by
    show fd ∈ (s.handlers ++ [h]).map Handler.fd
    rw [List.map_append]
    exact List.mem_append_left _ (hs.owner fd howner)
  stands h' hh' := by
    rcases List.mem_append.mp hh' with hh' | hh'
    · exact hs.stands h' hh'
    · rw [List.mem_singleton.mp hh']
      have hfree : s.owner ≠ some h.fd := by
        intro howner
        obtain ⟨h₀, hh₀, hfd⟩ := List.mem_map.mp (hs.owner h.fd howner)
        simpa [hfd] using List.all_eq_true.mp hidle h₀ hh₀
      rw [decide_eq_false hfree]
      exact hh

/-- A handler that another one takes the place of, or none: what is to be said of the new one and of the owner. -/
theorem Disciplined.replaced (hs : s.Disciplined) (hget : s.handlers[i]? = some h) {new : List Handler}
    {owner : Option Int} (hnew : new = [] ∨ ∃ p, new = [⟨h.fd, p⟩])
    (howner : ∀ fd, owner = some fd → fd = h.fd ∧ new ≠ [] ∨ s.owner = some fd ∧ fd ≠ h.fd)
    (hothers : ∀ fd, fd ≠ h.fd → (owner = some fd ↔ s.owner = some fd))
    (hstands : ∀ h' ∈ new, Stands (decide (owner = some h.fd)) h'.prog) (w : World) :
    Disciplined (s.replaced i w new owner) where
  single := hs.single.replaced hget hnew w
  owner fd hfd := by
    show fd ∈ (s.toConcurrent.replaced i new).map Handler.fd
    rw [Concurrent.replaced, List.map_append, List.map_append]
    -- the owner is the new handler, or one of those that stay
    rcases howner fd hfd with ⟨rfl, hne⟩ | ⟨hbefore, hother⟩
    · obtain ⟨p, rfl⟩ := hnew.resolve_left hne
      simp
    · have hmem := hs.owner fd hbefore
      rw [Concurrent.handlers_split hget, List.map_append, List.map_cons, List.mem_append, List.mem_cons] at hmem
      rw [List.mem_append, List.mem_append]
      rcases hmem with hmem | hmem | hmem
      · exact .inl (.inl hmem)
      · exact absurd hmem hother
      · exact .inr hmem
  stands h' hh' := by
    rcases hs.single.others hget hh' with hh' | ⟨hh', hother⟩
    · have hfd : h'.fd = h.fd := by
        rcases hnew with rfl | ⟨p, rfl⟩
        · cases hh'
        · rw [List.mem_singleton.mp hh']
      show Stands (decide (owner = some h'.fd)) h'.prog
      rw [hfd]
      exact hstands h' hh'
    · show Stands (decide (owner = some h'.fd)) h'.prog
      rw [decide_eq_decide.mpr (hothers h'.fd hother)]
      exact hs.stands h' hh'

/-- **A turn**: the operation that takes the lock has found it free, and the one that releases it is its owner's. -/
theorem Disciplined.turn (hs : s.Disciplined) (hget : s.handlers[i]? = some h) (ht : s.turn env i h = some t) :
    t.Disciplined := by
  obtain ⟨fd, prog⟩ := h
  have hstands := hs.stands _ (List.mem_of_getElem? hget)
  unfold Threads.turn at ht
  cases prog with
  | pure out =>
    cases Option.some.inj ht
    -- a request ends outside its sections
    have hfree : s.owner ≠ some fd := of_decide_eq_false hstands
    refine hs.replaced hget ?_ (fun fd' howner => .inr ⟨howner, ?_⟩) (fun _ _ => Iff.rfl) (fun h' hh' => ?_) _
    · cases out with
      | next => exact .inl rfl
      | cleanup => exact .inr ⟨_, rfl⟩
    · rintro rfl
      exact hfree howner
    · rw [decide_eq_false hfree]
      cases out with
      | next => cases hh'
      | cleanup =>
        rw [List.mem_singleton.mp hh']
        exact stands_cleanup ..
  | op o k =>
    dsimp only at ht hstands
    rw [Stands, Program.Balanced] at hstands
    split at ht
    · cases ht
    next hturn =>
    cases Option.some.inj ht
    rcases owner_cases o.1 fd s.owner with ⟨hlock, howner⟩ | ⟨hlock, hunlock, howner⟩ | ⟨hlock, hunlock, howner⟩
    · -- the lock was free
      have hnone : s.owner = none := by
        rw [hlock, Bool.true_and] at hturn
        exact Option.not_isSome_iff_eq_none.mp hturn
      rw [if_pos hlock] at hstands
      rw [howner]
      refine hs.replaced hget (.inr ⟨_, rfl⟩) (fun fd' h => .inl ⟨(Option.some.inj h).symm, by simp⟩) (fun fd' h => ?_)
        (fun h' hh' => ?_) _
      · simp [hnone, Ne.symm h]
      · rw [List.mem_singleton.mp hh', decide_eq_true rfl]
        exact hstands.2 _
    -- the lock is released by its owner
    · rw [if_neg (Bool.eq_false_iff.mp hlock), if_pos hunlock] at hstands
      have howned : s.owner = some fd := of_decide_eq_true hstands.1
      rw [howner]
      refine hs.replaced hget (.inr ⟨_, rfl⟩) (fun fd' h => by cases h) (fun fd' h => ?_) (fun h' hh' => ?_) _
      · simp [howned, Ne.symm h]
      · rw [List.mem_singleton.mp hh']
        exact hstands.2 _
    -- any other operation leaves the lock as it is
    · rw [if_neg (Bool.eq_false_iff.mp hlock), if_neg (Bool.eq_false_iff.mp hunlock)] at hstands
      rw [howner]
      refine hs.replaced hget (.inr ⟨_, rfl⟩) (fun fd' h => ?_) (fun _ _ => Iff.rfl) (fun h' hh' => ?_) _
      · by_cases hfd : fd' = fd
        · exact .inl ⟨hfd, by simp⟩
        · exact .inr ⟨h, hfd⟩
      · rw [List.mem_singleton.mp hh']
        exact hstands _

/-- **A step keeps the discipline.** -/
theorem Disciplined.step {e : Concurrent.Event} (hs : s.Disciplined) (hstep : step pg env s e = some t) :
    t.Disciplined := by
  cases e with
  | advance i =>
    obtain ⟨h, hget, ht⟩ := Option.bind_eq_some_iff.mp hstep
    exact hs.turn hget ht
  | accept fd =>
    obtain ⟨t', ht', rfl⟩ := Option.map_eq_some_iff.mp hstep
    cases Concurrent.move_of_step pg env ht' with
    | accepted fd => exact ⟨hs.single, hs.owner, hs.stands⟩
  | request fd r =>
    obtain ⟨t', ht', rfl⟩ := Option.map_eq_some_iff.mp hstep
    cases Concurrent.move_of_step pg env ht' with
    | started fd r h hopened hidle hstarted =>
      exact hs.started ((fd_request hstarted).symm ▸ hidle) (stands_request hstarted) s.world
  | hangup fd =>
    obtain ⟨t', ht', rfl⟩ := Option.map_eq_some_iff.mp hstep
    cases Concurrent.move_of_step pg env ht' with
    | hungup fd hopened hidle => exact hs.started (h := cleanup_handler fd _) hidle (stands_cleanup ..) s.world

theorem disciplined_quiet (w : World) : (quiet w).Disciplined where
  single := List.nodup_nil
  owner fd h := by cases h
  stands h hh := absurd hh List.not_mem_nil

/-- In every state of every run the handlers and the lock agree. -/
theorem disciplined (run : Run pg env C (quiet w) tr s) : s.Disciplined :=
  run.invariant (disciplined_quiet w) fun _ _ _ hx _ hstep => hx.step hstep

variable (env) in
/-- A handler that owns the lock does not wait for it. -/
theorem turn_of_owner (hs : s.Disciplined) (hget : s.handlers[i]? = some h)
    (howner : s.owner = none ∨ s.owner = some h.fd) : ∃ t, s.turn env i h = some t := by
  have hstands := hs.stands h (List.mem_of_getElem? hget)
  obtain ⟨fd, prog⟩ := h
  unfold Threads.turn
  cases prog with
  | pure out => exact ⟨_, rfl⟩
  | op o k =>
    refine ⟨_, if_neg ?_⟩
    rcases howner with howner | howner
    · simp [howner]
    · rw [howner, decide_eq_true rfl, Stands, Program.Balanced] at hstands
      intro hlock
      rw [Bool.and_eq_true] at hlock
      rw [if_pos hlock.1] at hstands
      cases hstands.1

/-- **The threads never wait for each other in a circle**: in every state of every run, if a handler is at work
then one of them has a turn. -/
theorem no_deadlock (run : Run pg env C (quiet w) tr s) (busy : s.handlers ≠ []) :
    ∃ i t, step pg env s (.advance i) = some t := by
  have hs := disciplined run
  have hturn : ∀ h ∈ s.handlers, s.owner = none ∨ s.owner = some h.fd → ∃ i t, step pg env s (.advance i) = some t := by
    intro h hh howner
    obtain ⟨i, hget⟩ := List.mem_iff_getElem?.mp hh
    obtain ⟨t, ht⟩ := turn_of_owner env hs hget howner
    exact ⟨i, t, Option.bind_eq_some_iff.mpr ⟨h, hget, ht⟩⟩
  -- if the lock is free anybody may go on, and if it is not its owner may
  cases howner : s.owner with
  | none =>
    obtain ⟨h, hh⟩ := List.exists_mem_of_ne_nil _ busy
    exact hturn h hh (.inl howner)
  | some fd =>
    obtain ⟨h, hh, rfl⟩ := List.mem_map.mp (hs.owner fd howner)
    exact hturn h hh (.inr howner)

/-- A handler that waits for the lock, and the one that has it. -/
theorem no_deadlock_waiting : ∃ s : Threads, s.handlers.length = 2 ∧
    (s.owner, (step true Env.calm s (.advance 1)).isNone) = (some 5, true) ∧
    ∃ i t, step true Env.calm s (.advance i) = some t := by
  have hexec : (ChatApp.Run.exec (step true Env.calm) (quiet loaded) [.accept 5, .accept 6,
      .request 5 (.of .GET_ALL_USERS ""), .request 6 (.of .GET_ALL_USERS ""), .advance 0]).map (fun s =>
        (s.handlers.length, s.owner, (step true Env.calm s (.advance 1)).isNone)) = some (2, some 5, true) := by decide
  obtain ⟨s, hs, hwaits⟩ := Option.map_eq_some_iff.mp hexec
  obtain ⟨htwo, howner⟩ := Prod.mk.inj hwaits
  obtain ⟨tr, run, -⟩ := ChatApp.Run.of_exec hs
  refine ⟨s, htwo, howner, no_deadlock run fun hnil => ?_⟩
  rw [hnil] at htwo
  cases htwo

end Lock

/-! ## Sections as moves -/

section Sections

variable {pg : Bool} {env : Env} {s : Threads} {i : Nat} {fd : Int} {p : Prog all_fields Outcome}

theorem replaced_get {w : World} {h h' : Handler} {owner : Option Int} (hget : s.handlers[i]? = some h) :
    (s.replaced i w [h'] owner).handlers[i]? = some h' := by
  obtain ⟨hi, -⟩ := List.getElem?_eq_some_iff.mp hget
  show (s.handlers.take i ++ [h'] ++ s.handlers.drop (i + 1))[i]? = some h'
  rw [List.append_assoc, List.getElem?_append_right (by simp)]
  simp [Nat.min_eq_left hi.le]

/-- What a handler has come to does not show once it has gone on. -/
theorem replaced_replaced {w w' : World} {h h' : Handler} {new : List Handler} {owner owner' : Option Int}
    (hget : s.handlers[i]? = some h) :
    (s.replaced i w [h'] owner).replaced i w' new owner' = s.replaced i w' new owner' := by
  obtain ⟨hi, -⟩ := List.getElem?_eq_some_iff.mp hget
  have hlength : (s.handlers.take i).length = i := List.length_take_of_le hi.le
  have htake : (s.handlers.take i ++ [h'] ++ s.handlers.drop (i + 1)).take i = s.handlers.take i := by
    rw [List.append_assoc]
    exact List.take_left' hlength
  have hdrop : (s.handlers.take i ++ [h'] ++ s.handlers.drop (i + 1)).drop (i + 1) = s.handlers.drop (i + 1) :=
    List.drop_left' (by simp [hlength])
  simp only [replaced, Concurrent.replaced, htake, hdrop]

variable (pg env) in
/-- Whatever is not a turn of a handler happens as in `Concurrent`. -/
theorem step_start {e : Concurrent.Event} (he : ∀ i, e ≠ .advance i) :
    step pg env s e = (Concurrent.step pg env s.toConcurrent e).map fun t => ⟨t, s.owner⟩ := by
  cases e with
  | advance i => exact absurd rfl (he i)
  | accept fd | request fd r | hangup fd => rfl

variable (pg env) in
/-- One operation of a handler that does not wait. -/
theorem step_op {β : Type} {o : OpIn all_fields β} {k : β → Prog all_fields Outcome}
    (hget : s.handlers[i]? = some ⟨fd, .op o k⟩) (hfree : o.1.isLock = true → s.owner = none) :
    step pg env s (.advance i) = some (s.replaced i (o.1.exec env s.world).2 [⟨fd, k (o.1.exec env s.world).1⟩]
      (o.1.owner fd s.owner)) := by
  rw [step, hget, Option.bind_some, turn]
  refine if_neg fun hlock => ?_
  rw [Bool.and_eq_true] at hlock
  simp [hfree hlock.1] at hlock

variable (pg env) in
/-- From inside a section to its end. -/
theorem run_section (hget : s.handlers[i]? = some ⟨fd, p⟩) (howner : s.owner = some fd) (hp : Stands true p) :
    ∃ tr, Run pg env (fun _ _ => True) s tr
      (s.replaced i (Program.finishSection (fun o => o.1.isUnlock) (fun o w => o.1.exec env w) p s.world).2
        [⟨fd, (Program.finishSection (fun o => o.1.isUnlock) (fun o w => o.1.exec env w) p s.world).1⟩] none) := by
  unfold Stands at hp
  induction p generalizing s with
  | pure out => cases hp
  | op o k ih =>
    rw [Program.Balanced] at hp
    -- inside a section nothing takes the lock; the section ends where it is released
    rcases owner_cases o.1 fd s.owner with ⟨hlock, -⟩ | ⟨hlock, hunlock, hrelease⟩ | ⟨hlock, hunlock, hkeep⟩
    · rw [if_pos hlock] at hp
      cases hp.1
    · have hstep := step_op pg env hget fun h => absurd (hlock.symm.trans h) (by simp)
      rw [hrelease] at hstep
      rw [Program.finishSection, if_pos hunlock]
      exact ⟨_, .snoc (.nil s) trivial hstep⟩
    · have hstep := step_op pg env hget fun h => absurd (hlock.symm.trans h) (by simp)
      rw [if_neg (Bool.eq_false_iff.mp hlock), if_neg (Bool.eq_false_iff.mp hunlock)] at hp
      rw [hkeep] at hstep
      rw [Program.finishSection, if_neg (Bool.eq_false_iff.mp hunlock)]
      obtain ⟨tr, hrun⟩ := ih (o.1.exec env s.world).1
        (s := s.replaced i (o.1.exec env s.world).2 [⟨fd, k (o.1.exec env s.world).1⟩] s.owner)
        (replaced_get hget) howner (hp _)
      rw [replaced_replaced hget] at hrun
      exact ⟨_, ChatApp.Run.trans (.snoc (.nil s) trivial hstep) hrun⟩

variable (pg env) in
/-- A move of a handler, while nobody has the lock. -/
theorem run_advance {β : Type} {o : OpIn all_fields β} {k : β → Prog all_fields Outcome}
    (hget : s.handlers[i]? = some ⟨fd, .op o k⟩) (hfree : s.owner = none) (hp : Stands false (.op o k)) :
    ∃ tr, Run pg env (fun _ _ => True) s tr (s.replaced i (Prog.advance env (.op o k) s.world).2
      [⟨fd, (Prog.advance env (.op o k) s.world).1⟩] none) := by
  have hstep := step_op pg env hget fun _ => hfree
  rw [Stands, Program.Balanced] at hp
  rw [Prog.advance, Program.advance]
  rcases owner_cases o.1 fd s.owner with ⟨hlock, htake⟩ | ⟨hlock, hunlock, -⟩ | ⟨hlock, hunlock, hkeep⟩
  · rw [if_pos hlock] at hp ⊢
    rw [htake] at hstep
    obtain ⟨tr, hrun⟩ := run_section pg env
      (s := s.replaced i (o.1.exec env s.world).2 [⟨fd, k (o.1.exec env s.world).1⟩] (some fd))
      (replaced_get hget) rfl (hp.2 (o.1.exec env s.world).1)
    rw [replaced_replaced hget] at hrun
    exact ⟨_, ChatApp.Run.trans (.snoc (.nil s) trivial hstep) hrun⟩
  · rw [if_neg (Bool.eq_false_iff.mp hlock), if_pos hunlock] at hp
    cases hp.1
  · rw [if_neg (Bool.eq_false_iff.mp hlock)] at hp ⊢
    rw [hkeep, hfree] at hstep
    exact ⟨_, .snoc (.nil s) trivial hstep⟩

/-- A section is left in the move in which it is entered. -/
theorem stands_advance (hp : Stands false p) (w : World) : Stands false (p.advance env w).1 := by
  cases p with
  | pure out => exact hp
  | op o k => exact (Program.advance_bind (h := fun o w => o.1.exec env w) hp Program.pure w).1

/-- **`Concurrent` is the part of this system in which no section is interrupted**: whatever its moves lead to, the
operations lead to. -/
theorem run_of_run {C : Concurrent → Concurrent.Event → Prop} {x y : Concurrent}
    {tr : List (Taken Concurrent Concurrent.Event)} (run : Concurrent.Run pg env C x tr y)
    (start : ∀ h ∈ x.handlers, Stands false h.prog) :
    (∃ tr', Run pg env (fun _ _ => True) ⟨x, none⟩ tr' ⟨y, none⟩) ∧ ∀ h ∈ y.handlers, Stands false h.prog := by
  induction run with
  | nil => exact ⟨⟨[], .nil _⟩, start⟩
  | @snoc y z tr e _ _ steps ih =>
    obtain ⟨⟨tr', hrun⟩, hstands⟩ := ih
    constructor
    · -- one step of `Concurrent` is a few of this system
      suffices h : ∃ tr'', Run pg env (fun _ _ => True) ⟨y, none⟩ tr'' ⟨z, none⟩ from
        h.elim fun _ hmore => ⟨_, ChatApp.Run.trans hrun hmore⟩
      cases e with
      | advance i =>
        obtain ⟨⟨fd, p⟩, hget, rfl⟩ := Option.map_eq_some_iff.mp steps
        have hp : Stands false p := hstands _ (List.mem_of_getElem? hget)
        cases p with
        | pure out =>
          have hstep : step pg env ⟨y, none⟩ (.advance i) = some ⟨Concurrent.turn env y i ⟨fd, .pure out⟩, none⟩ :=
            Option.bind_eq_some_iff.mpr ⟨_, hget, rfl⟩
          exact ⟨_, .snoc (.nil _) trivial hstep⟩
        | op o k =>
          obtain ⟨tr'', hmore⟩ := run_advance pg env (s := ⟨y, none⟩) hget rfl hp
          rw [replaced, Concurrent.replaced, List.append_assoc] at hmore
          exact ⟨tr'', hmore⟩
      | accept fd | request fd r | hangup fd =>
        have hstart := (step_start pg env (s := ⟨y, none⟩) (fun i h => by cases h)).trans
          (Option.map_eq_some_iff.mpr ⟨z, steps, rfl⟩)
        exact ⟨_, .snoc (.nil _) trivial hstart⟩
    · exact Concurrent.stages_of_step (K := fun h => Stands false h.prog) steps
        (fun _ _ _ _ hstarted => stands_request hstarted) (fun _ _ => stands_cleanup ..)
        (fun i h _ hget => stands_advance (hstands h (List.mem_of_getElem? hget)) _) hstands

end Sections

/-- Users 1 and 2 register, one after the other, on connections 5 and 6. -/
def two_users : List Concurrent.Event :=
  .accept 5 :: Concurrent.served 5 .REGISTER "username=a&password=x" 16 ++
    .accept 6 :: Concurrent.served 6 .REGISTER "username=b&password=x" 16

end Threads

end ChatApp
