/-
`Concurrent.lean` -- the server with its handlers running next to each other.

`main` gives every connection a thread. A handler takes the next frame of its connection and
works through the case, and other handlers get their turn whenever it is not inside a critical
section of `g_mutex`. So the state is the world and, for each handler at work, what remains of
its program; a step advances one of them. `Server.step`, which performs a whole handler at
once, is one of these interleavings (`Concurrent.run_of_step`).
-/
import ChatApp.Sections
import ChatApp.Effects

set_option autoImplicit false

namespace ChatApp

open Prog handle_client

/-! ## One move of a program -/

/-- The operation acquires `g_mutex`. -/
@[simp] def Op.isLock {β : Type} : Op β → Bool
  | .lock => true
  | _ => false

/-- The operation releases `g_mutex`. -/
@[simp] def Op.isUnlock {β : Type} : Op β → Bool
  | .unlock => true
  | _ => false

namespace Prog

variable {S T : List Field} {α β : Type}

/-- Perform one operation, or a critical section as a whole. -/
def advance (env : Env) (p : Prog S α) (w : World) : Prog S α × World :=
  Program.advance (fun o => o.1.isLock) (fun o => o.1.isUnlock) (fun o w => o.1.exec env w) p w

/-- A program inside a critical section: it neither takes nor releases the lock. -/
def Unlocked (p : Prog S α) : Prop :=
  p.Always (fun o => o.isLock = false ∧ o.isUnlock = false) fun _ => True

theorem run_advance (env : Env) (p : Prog S α) (w : World) :
    (p.advance env w).1.run env (p.advance env w).2 = p.run env w :=
  Program.run_advance p w

@[simp] theorem advance_pure (env : Env) (a : α) (w : World) :
    (pure a : Prog S α).advance env w = (pure a, w) := rfl

/-- A critical section is one move. -/
theorem advance_locked {env : Env} {p : Prog S β} (hp : p.Unlocked) (f : β → Prog S α) (w : World) :
    (locked p >>= f).advance env w = (f (p.run env w).1, (p.run env w).2) := by
  have hsection : (locked p >>= f : Prog S α) = lock >>= fun _ => p >>= fun b =>
      unlock >>= fun _ => f b := by
    simp only [locked, bind_assoc, pure_bind]
  rw [hsection]
  exact Program.finishSection_bind hp (fun _ ho => ho.2) _ w

/-- A critical section of a part is one move. -/
theorem advance_locked_lift {env : Env} {p : Prog T β} (hp : p.Unlocked) (h : T ⊆ S) (f : β → Prog S α)
    (w : World) : ((locked p).lift h >>= f).advance env w = (f (p.run env w).1, (p.run env w).2) := by
  have hlift : (locked p).lift h = locked (p.lift h) := by
    simp only [locked, lift_bind]
    rfl
  have hunlocked : (p.lift h).Unlocked := Program.always_hom (fun o => _) |>.mpr hp
  rw [hlift, advance_locked hunlocked, run_lift]

theorem advance_lift {T : List Field} {env : Env} (p : Prog S α) (h : S ⊆ T) (w : World) :
    (p.lift h).advance env w = ((p.advance env w).1.lift h, (p.advance env w).2) :=
  Program.advance_hom _ p w

/-- What every operation preserves, a move preserves. -/
theorem Always.advance {Q : {β : Type} → Op β → Prop} {R : α → Prop} {I : World → Prop} {env : Env}
    {p : Prog S α} {w : World} (hp : p.Always Q R)
    (step : ∀ {β : Type} (o : Op β) (w : World), Q o → I w → I (o.exec env w).2) (hw : I w) :
    (p.advance env w).1.Always Q R ∧ I (p.advance env w).2 :=
  Program.Always.advance hp (fun o w => step o.1 w) hw

end Prog

/-! ## Guarantees of the moves -/

/-- A condition on a move: on what remains of the program, and on the world. It looks no further than
the first part of a composition, and not at the footprint. -/
structure Condition : Type 1 where
  Holds : {S : List Field} → {α : Type} → Prog S α → World → Prop
  of_bind : ∀ {S : List Field} {α β : Type} (p : Prog S α) (f : α → Prog S β) (w : World),
    Holds (p >>= f) w → Holds p w
  of_lift : ∀ {S T : List Field} {α : Type} (p : Prog S α) (h : S ⊆ T) (w : World),
    Holds (p.lift h) w → Holds p w

/-- The condition that every move meets. -/
def Condition.none : Condition := ⟨fun _ _ => True, fun _ _ _ _ => trivial, fun _ _ _ _ => trivial⟩

/-- The condition that the world meets a property. -/
def Condition.of (I : World → Prop) : Condition := ⟨fun _ w => I w, fun _ _ _ h => h, fun _ _ _ h => h⟩

namespace Prog

variable {S T : List Field} {α β : Type} {env : Env} {C : Condition} {G : World → World → Prop}

/-- A program that leaves every critical section it enters. -/
def Closed (p : Prog S α) : Prop :=
  Program.Closed (fun o => o.1.isLock) (fun o => o.1.isUnlock) p

/-- Every move of the program that meets the condition keeps to the guarantee. -/
def Moves (env : Env) (C : Condition) (G : World → World → Prop) (p : Prog S α) : Prop :=
  Program.Moves (fun o => o.1.isLock) (fun o => o.1.isUnlock) (fun o w => o.1.exec env w)
    (fun _ p w => C.Holds p w) G p

/-- A program of which both is true. Such programs compose. -/
structure Guarded (env : Env) (C : Condition) (G : World → World → Prop) (p : Prog S α) : Prop where
  closed : p.Closed
  moves : p.Moves env C G

theorem balanced_of_unlocked {p : Prog S α} (hp : p.Unlocked) {inside : Bool} {R : Bool → α → Prop}
    (hR : ∀ a, R inside a) :
    Program.Balanced (fun o => o.1.isLock) (fun o => o.1.isUnlock) p inside R := by
  unfold Unlocked Always at hp
  induction p with
  | pure a => exact hR a
  | op o k ih =>
    rw [Program.Balanced, if_neg (Bool.eq_false_iff.mp hp.1.1), if_neg (Bool.eq_false_iff.mp hp.1.2)]
    exact fun b => ih b (hp.2 b)

theorem closed_of_unlocked {p : Prog S α} (hp : p.Unlocked) : p.Closed :=
  balanced_of_unlocked hp fun _ => rfl

/-- A critical section is closed. -/
theorem closed_locked {p : Prog S α} (hp : p.Unlocked) : (locked p).Closed := by
  refine Program.balanced_bind.mpr ⟨rfl, fun _ => Program.balanced_bind.mpr ?_⟩
  exact balanced_of_unlocked hp fun a => ⟨rfl, fun _ => rfl⟩

theorem Moves.of_always {Q : {β : Type} → Op β → Prop} {R : α → Prop} {p : Prog S α}
    (hp : p.Always Q R) (refl : ∀ w, G w w) (trans : ∀ w w' w'', G w w' → G w' w'' → G w w'')
    (step : ∀ {β : Type} (o : Op β) (w : World), Q o → G w (o.exec env w).2) : p.Moves env C G :=
  Program.Moves.of_always hp refl trans fun o w => step o.1 w

/-- A critical section is one move, and what follows it is known from the state it was entered in. -/
theorem Moves.locked_from {p : Prog S β} {f : β → Prog S α} (hp : p.Unlocked)
    (hG : ∀ w, C.Holds (locked p >>= f) w → G w (p.run env w).2)
    (hf : ∀ w, C.Holds (locked p >>= f) w → (f (p.run env w).1).Moves env C G) :
    (locked p >>= f).Moves env C G := by
  refine .op _ _ (fun w hw => ?_) fun w hw => ?_
  · exact congrArg Prod.snd (advance_locked hp f w) ▸ hG w hw
  · exact congrArg Prod.fst (advance_locked hp f w) ▸ hf w hw

/-- A critical section is one move. -/
theorem Moves.locked_bind {p : Prog S β} {f : β → Prog S α} (hp : p.Unlocked)
    (hG : ∀ w, C.Holds (locked p >>= f) w → G w (p.run env w).2) (hf : ∀ a, (f a).Moves env C G) :
    (locked p >>= f).Moves env C G :=
  .locked_from hp hG fun _ _ => hf _

/-- What follows a closed program need not be closed. -/
theorem Guarded.moves_bind {p : Prog S α} {f : α → Prog S β} (hp : p.Guarded env C G)
    (hf : ∀ a, (f a).Moves env C G) : (p >>= f).Moves env C G :=
  Program.Moves.bind (fun p w => C.of_bind p f w) hp.closed hp.moves hf

theorem Moves.lift {p : Prog S α} (hp : p.Moves env C G) (h : S ⊆ T) : (p.lift h).Moves env C G :=
  Program.Moves.hom _ (fun p w => C.of_lift p h w) hp

theorem Moves.mono {D : Condition} {p : Prog S α} (hp : p.Moves env C G)
    (hD : ∀ (p : Prog S α) (w : World), D.Holds p w → C.Holds p w) : p.Moves env D G :=
  Program.Moves.mono hp hD

/-- A program that runs alone. -/
theorem Moves.run {I : World → Prop} {p : Prog S α} (hp : p.Moves env C G)
    (hC : ∀ (p : Prog S α) (w : World), I w → C.Holds p w) (hG : ∀ w w', G w w' → I w → I w') {w : World}
    (hw : I w) : Ensures env w p fun _ w' => I w' :=
  Program.Moves.run hp hC hG hw

namespace Guarded

theorem pure (a : α) : (Pure.pure a : Prog S α).Guarded env C G := ⟨rfl, .pure a⟩

/-- One program after another. -/
theorem bind {p : Prog S α} {f : α → Prog S β} (hp : p.Guarded env C G)
    (hf : ∀ a, (f a).Guarded env C G) : (p >>= f).Guarded env C G :=
  ⟨hp.closed.bind fun a => (hf a).closed, hp.moves_bind fun a => (hf a).moves⟩

theorem lift {p : Prog S α} (hp : p.Guarded env C G) (h : S ⊆ T) : (p.lift h).Guarded env C G :=
  ⟨(Program.balanced_hom _).mpr hp.closed, hp.moves.lift h⟩

theorem ite {c : Prop} [Decidable c] {p q : Prog S α} (hp : c → p.Guarded env C G)
    (hq : ¬c → q.Guarded env C G) : (if c then p else q).Guarded env C G := by
  split
  · next hc => exact hp hc
  · next hc => exact hq hc

theorem when {c : Bool} {p : Prog S Unit} (hp : p.Guarded env C G) :
    (Prog.when c p).Guarded env C G := by
  cases c with
  | true => exact hp
  | false => exact pure ()

theorem forM {ι : Type} {xs : List ι} {f : ι → Prog S Unit}
    (hf : ∀ x ∈ xs, (f x).Guarded env C G) : (xs.forM f).Guarded env C G := by
  induction xs with
  | nil => exact pure ()
  | cons x xs ih =>
    exact (hf x List.mem_cons_self).bind fun _ => ih fun y hy => hf y (List.mem_cons_of_mem x hy)

/-- A critical section keeps to the guarantee as a whole. -/
theorem locked {p : Prog S α} (hp : p.Unlocked)
    (hG : ∀ w, C.Holds (Prog.locked p) w → G w (p.run env w).2) :
    (Prog.locked p).Guarded env C G := by
  refine ⟨closed_locked hp, ?_⟩
  have hmoves : (Prog.locked p >>= fun a => (Pure.pure a : Prog S α)).Moves env C G :=
    Moves.locked_bind hp (fun w hw => hG w (C.of_bind _ _ w hw)) fun a => .pure a
  rw [bind_pure] at hmoves
  exact hmoves

end Guarded

end Prog

/-! ## Handlers -/

/-- A handler at work: its connection, and what remains of its program. -/
structure Handler : Type 1 where
  fd : Int
  prog : Prog all_fields Outcome

/-- The cleanup block as the last program of a handler. -/
def cleanup_handler (fd me : Int) : Handler :=
  ⟨fd, (do
    (cleanup fd me).lift
    pure .next)⟩

/-- The handler of a frame, unless a fault is thrown while its fields are read. -/
def request_handler (pg : Bool) (w : World) (fd : Int) (r : Request) : Option Handler :=
  if r.header.valid then
    (decode pg r.header.type r.payload).toOption.map fun c =>
      ⟨fd, perform pg fd (w.session fd) (requester_id r.header (w.session fd)) c⟩
  else some ⟨fd, (invalid_header fd).lift⟩

/-- The world and the handlers at work in it. -/
structure Concurrent : Type 1 where
  world : World
  handlers : List Handler

namespace Concurrent

/-- What happens next: as in `Event`, but a request only starts its handler; then the handlers are
advanced one by one. -/
inductive Event where
  | accept (fd : Int)
  | request (fd : Int) (r : Request)
  | hangup (fd : Int)
  /-- The `i`th handler gets its turn. -/
  | advance (i : Nat)

/-- The handler of the connection waits for the next frame. -/
def idle (s : Concurrent) (fd : Int) : Bool := s.handlers.all fun h => h.fd ≠ fd

/-- A handler whose program has returned waits for the next frame, or goes on to the cleanup
block. -/
def finish (w : World) (fd : Int) : Outcome → List Handler
  | .next => []
  | .cleanup => [cleanup_handler fd (w.session fd)]

/-- One turn of the `i`th handler. -/
def turn (env : Env) (s : Concurrent) (i : Nat) (h : Handler) : Concurrent :=
  match h.prog with
  | .pure out => ⟨s.world, s.handlers.take i ++ finish s.world h.fd out ++ s.handlers.drop (i + 1)⟩
  | p => ⟨(p.advance env s.world).2,
      s.handlers.take i ++ ⟨h.fd, (p.advance env s.world).1⟩ :: s.handlers.drop (i + 1)⟩

variable (pg : Bool) (env : Env)

/-- What the server does next; `none` when that is not possible or the process does not survive
it. -/
def step (s : Concurrent) : Event → Option Concurrent
  | .accept fd =>
    if 0 ≤ fd ∧ s.world.conns.count fd = false then
      some ⟨{ s.world with conns := s.world.conns.set fd 0 }, s.handlers⟩
    else none
  | .request fd r =>
    if s.world.conns.count fd ∧ s.idle fd then
      (request_handler pg s.world fd r).map fun h => ⟨s.world, s.handlers ++ [h]⟩
    else none
  | .hangup fd =>
    if s.world.conns.count fd ∧ s.idle fd then
      some ⟨s.world, s.handlers ++ [cleanup_handler fd (s.world.session fd)]⟩
    else none
  | .advance i => s.handlers[i]?.map (s.turn env i)

/-- A run of the server, in which the handlers take turns. -/
abbrev Run (C : Concurrent → Event → Prop) :
    Concurrent → List (Taken Concurrent Event) → Concurrent → Prop :=
  ChatApp.Run (step pg env) C

/-- No handler is at work. -/
def quiet (w : World) : Concurrent := ⟨w, []⟩

/-! ## What a step can do -/

/-- The handlers after the `i`th has been replaced. -/
def replaced (s : Concurrent) (i : Nat) (new : List Handler) : List Handler :=
  s.handlers.take i ++ new ++ s.handlers.drop (i + 1)

/-- The things that happen: a connection opens, a handler starts, ends or gets a turn. -/
inductive Move (s : Concurrent) : Event → Concurrent → Prop where
  | accepted (fd : Int) (valid : 0 ≤ fd) (unused : s.world.conns.find? fd = none) :
    Move s (.accept fd) ⟨{ s.world with conns := s.world.conns.set fd 0 }, s.handlers⟩
  | started (fd : Int) (r : Request) (h : Handler) (opened : s.world.conns.count fd = true)
    (idle : s.idle fd = true) (handler : request_handler pg s.world fd r = some h) :
    Move s (.request fd r) ⟨s.world, s.handlers ++ [h]⟩
  | hungup (fd : Int) (opened : s.world.conns.count fd = true) (idle : s.idle fd = true) :
    Move s (.hangup fd) ⟨s.world, s.handlers ++ [cleanup_handler fd (s.world.session fd)]⟩
  | finished (i : Nat) (h : Handler) (out : Outcome) (at_work : s.handlers[i]? = some h)
    (returned : h.prog = pure out) :
    Move s (.advance i) ⟨s.world, s.replaced i (finish s.world h.fd out)⟩
  | turned (i : Nat) (h : Handler) (at_work : s.handlers[i]? = some h) :
    Move s (.advance i) ⟨(h.prog.advance env s.world).2,
      s.replaced i [⟨h.fd, (h.prog.advance env s.world).1⟩]⟩

/-- **A step is one of these moves.** -/
theorem move_of_step {s t : Concurrent} {e : Event} (hs : step pg env s e = some t) :
    Move pg env s e t := by
  cases e with
  | accept fd =>
    rw [step] at hs
    split at hs
    · next hfd =>
      cases Option.some.inj hs
      exact .accepted fd hfd.1 (by simpa [UMap.count] using hfd.2)
    · cases hs
  | request fd r =>
    rw [step] at hs
    split at hs
    · next hfd =>
      obtain ⟨h, hrequest, rfl⟩ := Option.map_eq_some_iff.mp hs
      exact .started fd r h hfd.1 hfd.2 hrequest
    · cases hs
  | hangup fd =>
    rw [step] at hs
    split at hs
    · next hfd =>
      cases Option.some.inj hs
      exact .hungup fd hfd.1 hfd.2
    · cases hs
  | advance i =>
    obtain ⟨h, hget, rfl⟩ := Option.map_eq_some_iff.mp hs
    unfold turn
    split
    · next out hprog => exact .finished i h out hget hprog
    · have hmove : Move pg env s (.advance i) _ := .turned i h hget
      rw [replaced, List.append_assoc] at hmove
      exact hmove

/-- A handler of the list after a replacement is one of the new ones, or was there. -/
theorem mem_replaced {s : Concurrent} {i : Nat} {new : List Handler} {h : Handler}
    (hh : h ∈ s.replaced i new) : h ∈ new ∨ h ∈ s.handlers := by
  rcases List.mem_append.mp hh with hh | hh
  · rcases List.mem_append.mp hh with hh | hh
    · exact .inr (List.mem_of_mem_take hh)
    · exact .inl hh
  · exact .inr (List.mem_of_mem_drop hh)

/-- A handler that starts is the one of its command, or of an invalid header. -/
theorem request_handler_eq {w : World} {fd : Int} {r : Request} {h : Handler}
    (hrequest : request_handler pg w fd r = some h) :
    (r.header.valid = true ∧ ∃ c, decode pg r.header.type r.payload = .ok c ∧
      h = ⟨fd, perform pg fd (w.session fd) (requester_id r.header (w.session fd)) c⟩) ∨
    (r.header.valid = false ∧ h = ⟨fd, (invalid_header fd).lift⟩) := by
  rw [request_handler] at hrequest
  split at hrequest
  · next hvalid =>
    obtain ⟨c, hc, rfl⟩ := Option.map_eq_some_iff.mp hrequest
    refine .inl ⟨hvalid, c, ?_, rfl⟩
    cases hdecode : decode pg r.header.type r.payload with
    | error e => rw [hdecode] at hc; cases hc
    | ok c' => rw [hdecode] at hc; rw [Option.some.inj hc]
  · next hinvalid =>
    cases Option.some.inj hrequest
    exact .inr ⟨by simpa using hinvalid, rfl⟩

/-! ## One handler for a connection -/

/-- A connection has one handler at work at most. -/
def Single (s : Concurrent) : Prop := (s.handlers.map Handler.fd).Nodup

section Single

variable {pg : Bool} {env : Env} {s s' : Concurrent} {e : Event} {i : Nat} {h h' : Handler}

/-- The handler at a place, between the others. -/
theorem handlers_split (hget : s.handlers[i]? = some h) :
    s.handlers = s.handlers.take i ++ h :: s.handlers.drop (i + 1) := by
  obtain ⟨hi, rfl⟩ := List.getElem?_eq_some_iff.mp hget
  rw [← List.drop_eq_getElem_cons hi, List.take_append_drop]

/-- The others have other connections. -/
theorem Single.others (hsingle : s.Single) (hget : s.handlers[i]? = some h) {new : List Handler}
    (hh' : h' ∈ s.replaced i new) : h' ∈ new ∨ (h' ∈ s.handlers ∧ h'.fd ≠ h.fd) := by
  rw [Single, handlers_split hget, List.map_append, List.map_cons] at hsingle
  have hfresh := (List.nodup_middle.mp hsingle)
  rw [← List.map_append, List.nodup_cons] at hfresh
  have hother : h' ∈ s.handlers.take i ++ s.handlers.drop (i + 1) → h'.fd ≠ h.fd :=
    fun hmem heq => hfresh.1 (heq ▸ List.mem_map_of_mem hmem)
  rcases mem_replaced hh' with hnew | hmem
  · exact .inl hnew
  · rw [replaced, List.mem_append, List.mem_append] at hh'
    rcases hh' with (hh' | hh') | hh'
    · exact .inr ⟨hmem, hother (List.mem_append_left _ hh')⟩
    · exact .inl hh'
    · exact .inr ⟨hmem, hother (List.mem_append_right _ hh')⟩

/-- A handler is followed by one of the same connection, or by none. -/
theorem Single.replaced (hsingle : s.Single) (hget : s.handlers[i]? = some h) {new : List Handler}
    (hnew : new = [] ∨ ∃ p, new = [⟨h.fd, p⟩]) (w : World) : Single ⟨w, s.replaced i new⟩ := by
  rw [Single, handlers_split hget, List.map_append, List.map_cons] at hsingle
  rw [Single, Concurrent.replaced]
  rcases hnew with rfl | ⟨p, rfl⟩
  · rw [List.append_nil, List.map_append]
    exact (List.nodup_cons.mp (List.nodup_middle.mp hsingle)).2
  · simpa using hsingle

/-- A handler starts only while its connection has none. -/
theorem Single.started (hsingle : s.Single) {fd : Int} (hidle : s.idle fd = true) (p : Prog all_fields Outcome)
    (w : World) : Single ⟨w, s.handlers ++ [⟨fd, p⟩]⟩ := by
  rw [Single, List.map_append, List.nodup_append]
  refine ⟨hsingle, List.nodup_singleton _, fun a ha b hb => ?_⟩
  obtain ⟨h, hh, rfl⟩ := List.mem_map.mp ha
  rw [List.mem_singleton.mp hb]
  simpa using List.all_eq_true.mp hidle h hh

/-- **A connection has one handler at a time**. -/
theorem Single.step (hsingle : s.Single) (hs : step pg env s e = some s') : s'.Single := by
  cases move_of_step pg env hs with
  | accepted fd => exact hsingle
  | started fd r h hopened hidle hrequest =>
    rcases request_handler_eq pg hrequest with ⟨-, c, -, rfl⟩ | ⟨-, rfl⟩
    · exact hsingle.started hidle _ _
    · exact hsingle.started hidle _ _
  | hungup fd hopened hidle => exact hsingle.started hidle _ _
  | finished i h out hget =>
    refine hsingle.replaced hget ?_ _
    cases out with
    | next => exact .inl rfl
    | cleanup => exact .inr ⟨_, rfl⟩
  | turned i h hget => exact hsingle.replaced hget (.inr ⟨_, rfl⟩) _

end Single

/-! ## Rules -/

section Rules

variable {pg : Bool} {env : Env} {s t : Concurrent} {C : Concurrent → Event → Prop}
  {tr : List (Taken Concurrent Event)}

/-- A turn meets a condition on moves. -/
def Meets (cond : Condition) (s : Concurrent) (e : Event) : Prop :=
  ∀ i h, e = .advance i → s.handlers[i]? = some h → cond.Holds h.prog s.world

/-- What every handler that starts has, and every turn of a handler keeps, the handlers have after a step if
they had it before. -/
theorem stages_of_step {K : Handler → Prop} {e : Event} (hs : step pg env s e = some t)
    (hrequest : ∀ fd r h, e = .request fd r → request_handler pg s.world fd r = some h → K h)
    (hcleanup : ∀ fd me, K (cleanup_handler fd me))
    (hturn : ∀ i h, e = .advance i → s.handlers[i]? = some h → K ⟨h.fd, (h.prog.advance env s.world).1⟩)
    (hstages : ∀ h ∈ s.handlers, K h) : ∀ h ∈ t.handlers, K h := by
  -- one handler more
  have hmore : ∀ new : Handler, K new → ∀ h ∈ s.handlers ++ [new], K h := by
    intro new hnew h hh
    rcases List.mem_append.mp hh with hh | hh
    · exact hstages h hh
    · rw [List.mem_singleton.mp hh]
      exact hnew
  cases move_of_step pg env hs with
  | accepted fd => exact hstages
  | started fd r h _ _ hstarted => exact hmore h (hrequest fd r h rfl hstarted)
  | hungup fd => exact hmore _ (hcleanup ..)
  | finished i h out =>
    refine fun h' hh' => (mem_replaced hh').elim (fun hh' => ?_) (hstages h')
    cases out with
    | next => cases hh'
    | cleanup =>
      rw [List.mem_singleton.mp hh']
      exact hcleanup ..
  | turned i h hget =>
    refine fun h' hh' => (mem_replaced hh').elim (fun hh' => ?_) (hstages h')
    rw [List.mem_singleton.mp hh']
    exact hturn i h rfl hget

/-- **The rule of stages.** What is known of the handlers at work, together with an invariant of the world,
that every start and every turn of a handler preserve, holds in every state of every interleaving. -/
theorem invariant_of_stages {K : Handler → Prop} {I : World → Prop}
    (hrequest : ∀ s fd r h, C s (.request fd r) → request_handler pg s.world fd r = some h → K h)
    (hcleanup : ∀ fd me, K (cleanup_handler fd me))
    (haccept : ∀ (w : World) fd, I w → I { w with conns := w.conns.set fd 0 })
    (hturn : ∀ s i h, C s (.advance i) → s.handlers[i]? = some h → K h → I s.world →
      K ⟨h.fd, (h.prog.advance env s.world).1⟩ ∧ I (h.prog.advance env s.world).2)
    (run : Run pg env C s tr t) (start : I s.world) (hstart : ∀ h ∈ s.handlers, K h) :
    I t.world ∧ ∀ h ∈ t.handlers, K h := by
  refine run.invariant (I := fun s => I s.world ∧ ∀ h ∈ s.handlers, K h) ⟨start, hstart⟩ ?_
  rintro x e y ⟨hx, hstages⟩ hC hs
  have hknown : ∀ i h, x.handlers[i]? = some h → K h := fun i h hget => hstages h (List.mem_of_getElem? hget)
  constructor
  · cases move_of_step pg env hs with
    | accepted fd => exact haccept _ fd hx
    | started | hungup | finished => exact hx
    | turned i h hget => exact (hturn x i h hC hget (hknown i h hget) hx).2
  · refine stages_of_step hs (fun fd r h he => ?_) hcleanup (fun i h he hget => ?_) hstages
    · exact hrequest x fd r h (he ▸ hC)
    · exact (hturn x i h (he ▸ hC) hget (hknown i h hget) hx).1

/-- **The rule of moves.** A property that every move of the handlers under a condition preserves holds in
every state of every interleaving whose moves meet the condition. -/
theorem invariant_of_moves {cond : Condition} {I : World → Prop}
    (hperform : ∀ fd me rid c, (perform pg fd me rid c).Moves env cond fun w w' => I w → I w')
    (hinvalid : ∀ fd, Prog.Moves (S := all_fields) env cond (fun w w' => I w → I w')
      (invalid_header fd).lift)
    (hcleanup : ∀ fd me, (cleanup_handler fd me).prog.Moves env cond fun w w' => I w → I w')
    (haccept : ∀ (w : World) fd, I w → I { w with conns := w.conns.set fd 0 })
    (hcond : ∀ s i h, C s (.advance i) → s.handlers[i]? = some h → cond.Holds h.prog s.world)
    (run : Run pg env C s tr t) (start : I s.world)
    (hstart : ∀ h ∈ s.handlers, h.prog.Moves env cond fun w w' => I w → I w') : I t.world := by
  refine (invariant_of_stages (K := fun h => h.prog.Moves env cond fun w w' => I w → I w')
    (fun s fd r h _ hrequest => ?_) hcleanup haccept (fun s i h hC hget hh hw => ?_) run start hstart).1
  · rcases request_handler_eq pg hrequest with ⟨-, c, -, rfl⟩ | ⟨-, rfl⟩
    · exact hperform ..
    · exact hinvalid fd
  · have hmove := hh.advance (hcond s i h hC hget) fun _ => id
    exact ⟨hmove.2, hmove.1 hw⟩

/-- **The rule of operations.** What every operation of the handlers preserves holds in every
state of every interleaving. -/
theorem invariant_of_ops {Q : {β : Type} → Op β → Prop} {I : World → Prop}
    (hperform : ∀ fd me rid c, (perform pg fd me rid c).Always Q fun _ => True)
    (hinvalid : ∀ fd, (invalid_header fd).Always Q fun _ => True)
    (hcleanup : ∀ fd me, (cleanup fd me).Always Q fun _ => True)
    (hop : ∀ {β : Type} (o : Op β) (w : World), Q o → I w → I (o.exec env w).2)
    (haccept : ∀ (w : World) fd, I w → I { w with conns := w.conns.set fd 0 })
    (run : Run pg env C s tr t) (start : I s.world)
    (hstart : ∀ h ∈ s.handlers, h.prog.Always Q fun _ => True) : I t.world := by
  have hmoves : ∀ {p : Prog all_fields Outcome}, p.Always Q (fun _ => True) →
      p.Moves env .none fun w w' => I w → I w' := fun hp =>
    .of_always hp (fun _ => id) (fun _ _ _ h h' => h' ∘ h) hop
  exact invariant_of_moves (fun fd me rid c => hmoves (hperform fd me rid c))
    (fun fd => hmoves ((always_lift ..).mpr (hinvalid fd)))
    (fun fd me => hmoves (Always.seq ((always_lift ..).mpr (hcleanup fd me)) fun _ => trivial)) haccept
    (fun _ _ _ _ _ => trivial) run start fun h hh => hmoves (hstart h hh)

/-! ## One handler at a time -/

/-- A handler that runs alone comes to the end of its program. -/
theorem run_alone (fd : Int) (p : Prog all_fields Outcome) (w : World) :
    ∃ tr, Run pg env (fun _ _ => True) ⟨w, [⟨fd, p⟩]⟩ tr
      ⟨(p.run env w).2, [⟨fd, pure (p.run env w).1⟩]⟩ := by
  suffices h : ∀ n (p : Prog all_fields Outcome) w,
      Program.length (fun o w => o.1.exec env w) p w ≤ n → ∃ tr, Run pg env (fun _ _ => True)
        ⟨w, [⟨fd, p⟩]⟩ tr ⟨(p.run env w).2, [⟨fd, pure (p.run env w).1⟩]⟩ from h _ p w le_rfl
  intro n
  induction n with
  | zero =>
    intro p w hn
    cases p with
    | pure a => exact ⟨[], .nil _⟩
    | op o k => exact absurd hn (by simp [Program.length])
  | succ n ih =>
    intro p w hn
    cases p with
    | pure a => exact ⟨[], .nil _⟩
    | op o k =>
      have hshorter : Program.length (fun o w => o.1.exec env w)
          (Prog.advance env (.op o k) w).1 (Prog.advance env (.op o k) w).2 ≤ n :=
        Nat.le_of_lt_succ (Nat.lt_of_lt_of_le Program.length_advance hn)
      obtain ⟨tr, hrun⟩ := ih _ _ hshorter
      rw [run_advance] at hrun
      exact ⟨_, ChatApp.Run.trans (.snoc (e := .advance 0) (.nil _) trivial rfl) hrun⟩

/-- The cleanup block, run alone, ends the connection. -/
theorem run_cleanup (fd : Int) (w : World) :
    ∃ tr, Run pg env (fun _ _ => True) ⟨w, [cleanup_handler fd (w.session fd)]⟩ tr
      (quiet (end_connection env fd w)) := by
  obtain ⟨tr, hrun⟩ := @run_alone pg env fd (cleanup_handler fd (w.session fd)).prog w
  have hend : (cleanup_handler fd (w.session fd)).prog.run env w
      = (.next, end_connection env fd w) := by
    rw [cleanup_handler, run_bind, run_lift]
    rfl
  rw [hend] at hrun
  exact ⟨_, .snoc (e := .advance 0) hrun trivial rfl⟩

/-- The last turn of a handler ends it, or starts the cleanup block. -/
theorem run_finish (fd : Int) (res : Outcome × World) :
    ∃ tr, Run pg env (fun _ _ => True) ⟨res.2, [⟨fd, pure res.1⟩]⟩ tr
      (quiet (ChatApp.finish env fd res)) := by
  obtain ⟨out, w⟩ := res
  cases out with
  | next => exact ⟨_, .snoc (e := .advance 0) (.nil _) trivial rfl⟩
  | cleanup =>
    obtain ⟨tr, hrun⟩ := @run_cleanup pg env fd w
    exact ⟨_, ChatApp.Run.trans (.snoc (e := .advance 0) (.nil _) trivial rfl) hrun⟩

/-- **A step of the server is an interleaving**: the one in which nobody else gets a turn. -/
theorem run_of_step {w w' : World} {e : ChatApp.Event} (hs : Server.step pg env w e = some w') :
    ∃ tr, Run pg env (fun _ _ => True) (quiet w) tr (quiet w') := by
  cases e with
  | accept fd =>
    rw [Server.step] at hs
    split at hs
    · next hfd =>
      cases Option.some.inj hs
      have hstart : step pg env (quiet w) (.accept fd)
          = some (quiet { w with conns := w.conns.set fd 0 }) := if_pos hfd
      exact ⟨_, .snoc (.nil _) trivial hstart⟩
    · cases hs
  | hangup fd =>
    rw [Server.step] at hs
    split at hs
    · next hfd =>
      cases Option.some.inj hs
      obtain ⟨tr, hrun⟩ := @run_cleanup pg env fd w
      have hstart : step pg env (quiet w) (.hangup fd)
          = some ⟨w, [cleanup_handler fd (w.session fd)]⟩ := if_pos ⟨hfd, rfl⟩
      exact ⟨_, ChatApp.Run.trans (.snoc (.nil _) trivial hstart) hrun⟩
    · cases hs
  | request fd r =>
    rw [Server.step] at hs
    split at hs
    · next hfd =>
      -- the handler starts, runs alone, and ends
      have hhandler : ∀ p : Prog all_fields Outcome, request_handler pg w fd r = some ⟨fd, p⟩ →
          ∃ tr, Run pg env (fun _ _ => True) (quiet w) tr
            (quiet (ChatApp.finish env fd (p.run env w))) := by
        intro p hp
        have hstart : step pg env (quiet w) (.request fd r) = some ⟨w, [⟨fd, p⟩]⟩ := by
          rw [step, if_pos ⟨hfd, rfl⟩]
          show (request_handler pg w fd r).map _ = _
          rw [hp]
          rfl
        obtain ⟨tr, hrun⟩ := @run_alone pg env fd p w
        obtain ⟨tr', hrun'⟩ := @run_finish pg env fd (p.run env w)
        exact ⟨_, ChatApp.Run.trans (.snoc (.nil _) trivial hstart) (ChatApp.Run.trans hrun hrun')⟩
      cases hv : r.header.valid with
      | false =>
        rw [handle_request_invalid hv] at hs
        cases Option.some.inj hs
        have hinvalid := hhandler (invalid_header fd).lift (if_neg (by simp [hv]))
        rw [run_lift] at hinvalid
        exact hinvalid
      | true =>
        cases hc : decode pg r.header.type r.payload with
        | error e =>
          rw [handle_request_fault hv hc] at hs
          cases hs
        | ok c =>
          rw [handle_request_ok hv hc] at hs
          cases Option.some.inj hs
          refine hhandler _ ?_
          rw [request_handler, if_pos hv, hc]
          rfl
    · cases hs

/-- Every state that is reached one handler at a time is reached by an interleaving. -/
theorem run_of_run {w w' : World} {tr : List (Taken World ChatApp.Event)}
    (hrun : Server.Run pg env (fun _ _ => True) w tr w') :
    ∃ tr, Run pg env (fun _ _ => True) (quiet w) tr (quiet w') := by
  induction hrun with
  | nil => exact ⟨[], .nil _⟩
  | snoc _ _ steps ih =>
    obtain ⟨tr, hbefore⟩ := ih
    obtain ⟨tr', hstep⟩ := run_of_step steps
    exact ⟨_, hbefore.trans hstep⟩

end Rules

/-! ## Concrete interleavings -/

/-- A frame arrives, and its handler has the next turns. -/
def served (fd : Int) (type : MessageType) (payload : String) (turns : Nat) : List Event :=
  .request fd (.of type payload) :: List.replicate turns (.advance 0)

/-- Users 1 and 2 register, one after the other, on connections 5 and 6. -/
def two_users : List Event :=
  .accept 5 :: served 5 .REGISTER "username=a&password=x" 2
    ++ .accept 6 :: served 6 .REGISTER "username=b&password=x" 2

/-- A list of events that can be executed under a condition is a run under it, and what a
projection of the last state evaluates to holds of that state. -/
theorem run_of_exec {pg : Bool} {env : Env} {C : Concurrent → Event → Bool} {s₀ : Concurrent}
    {es : List Event} {α : Type} {f : Concurrent → α} {a : α}
    (h : (ChatApp.Run.exec (ChatApp.Run.guard (step pg env) C) s₀ es).map f = some a) :
    ∃ tr s, Run pg env (fun s e => C s e = true) s₀ tr s ∧ f s = a := by
  obtain ⟨s, hexec, hf⟩ := Option.map_eq_some_iff.mp h
  obtain ⟨tr, hrun, -⟩ := ChatApp.Run.of_exec hexec
  exact ⟨tr, s, ChatApp.Run.of_guard hrun, hf⟩

end Concurrent

end ChatApp
