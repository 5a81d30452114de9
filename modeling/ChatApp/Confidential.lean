/-
`Confidential.lean` -- what two users say to each other, and a third connection.

Users `a` and `b` write to each other while the handlers of all connections take turns. As long as the descriptor `eve`
is in the session of neither, and was left in `g_online_clients` for neither by an earlier connection, what the server
writes to it does not depend on what the two write: whatever they say instead, in the same requests, every interleaving
is still one, and `eve` gets the same frames (`Concurrent.messages_confidential`).

The two interleavings are taken side by side. A handler that overlooks the texts makes the same moves in both
(`perform_overlooks`); of the others, a `LOGIN` takes what waits for its user, a `GET_CONVERSATION_HISTORY` reads what
was said, and the `DIRECT_MESSAGE`s themselves differ. What these three send of it goes to the connections of the two.
-/
import ChatApp.LockDiscipline
import ChatApp.Views

set_option autoImplicit false

namespace ChatApp

open Prog PostgresPersistence handle_client

/-! ## Lockstep -/

/-- The connection `eve` is in the session of neither. -/
def Stranger (a b eve : Int) (w : World) : Prop := ∀ uid, uid = a ∨ uid = b → w.session eve ≠ uid

/-- It is not listed as the connection of one of them. -/
def Unlisted (a b eve : Int) (w : World) : Prop :=
  ∀ uid, uid = a ∨ uid = b → w.mem.g_online_clients.find? uid ≠ some eve

/-- Both. -/
structure Apart (a b eve : Int) (w : World) : Prop where
  session : Stranger a b eve w
  online : Unlisted a b eve w

/-- The two programs move in lockstep, as it looks from `eve`. -/
def Prog.Lockstep (a b eve : Int) (env : Env) {S : List Field} {α : Type} (Q : α → α → Prop) (p p' : Prog S α) :
    Prop :=
  Program.Lockstep (fun o => o.1.isLock) (fun o => o.1.isUnlock) (fun o w => o.1.exec env w) (LookAlike a b eve)
    (Apart a b eve) Q p p'

section Rules

variable {a b eve : Int} {env : Env} {S T : List Field} {α β : Type} {Q : α → α → Prop} {R : α → Prop}

/-- A program that overlooks the texts is in lockstep with itself. -/
theorem Prog.Lockstep.of_always {p : Prog S α} (hp : p.Always (Op.innocent a b) R) :
    Prog.Lockstep a b eve env (fun x y => x = y) p p :=
  Program.Lockstep.of_always hp fun _ ho _ _ hw => ho.blind env hw

theorem Prog.Lockstep.lift {p p' : Prog S α} (hp : Prog.Lockstep a b eve env Q p p') (h : S ⊆ T) :
    Prog.Lockstep a b eve env Q (p.lift h) (p'.lift h) :=
  Program.Lockstep.hom _ hp

/-- One program after another. -/
theorem Prog.Lockstep.bind {Q' : β → β → Prop} {p p' : Prog S β} {f f' : β → Prog S α} (hclosed : p.Closed)
    (hclosed' : p'.Closed) (hp : Prog.Lockstep a b eve env Q' p p')
    (hf : ∀ x y, Q' x y → Prog.Lockstep a b eve env Q (f x) (f' y)) :
    Prog.Lockstep a b eve env Q (p >>= f) (p' >>= f') :=
  Program.Lockstep.bind hclosed hclosed' hp hf

/-- The same program in both, and what comes after it. -/
theorem Prog.Lockstep.after {p : Prog S β} {f f' : β → Prog S α} {R : β → Prop} (hclosed : p.Closed)
    (hp : p.Always (Op.innocent a b) R) (hf : ∀ x, Prog.Lockstep a b eve env Q (f x) (f' x)) :
    Prog.Lockstep a b eve env Q (p >>= f) (p >>= f') := by
  refine Prog.Lockstep.bind hclosed hclosed (.of_always hp) fun x y hxy => ?_
  rw [← hxy]
  exact hf x

/-- A critical section is one move, and what follows is known from the states before and after it. -/
theorem Prog.Lockstep.locked {p p' : Prog S β} (hp : p.Unlocked) (hp' : p'.Unlocked) {f f' : β → Prog S α}
    (hstep : ∀ w w', LookAlike a b eve w w' → Apart a b eve w → Apart a b eve (p.run env w).2 →
      LookAlike a b eve (p.run env w).2 (p'.run env w').2 ∧
        Prog.Lockstep a b eve env Q (f (p.run env w).1) (f' (p'.run env w').1)) :
    Prog.Lockstep a b eve env Q (Prog.locked p >>= f) (Prog.locked p' >>= f') := by
  have hleft : ∀ w, (Prog.locked p >>= f).advance env w = (f (p.run env w).1, (p.run env w).2) := advance_locked hp f
  have hright : ∀ w, (Prog.locked p' >>= f').advance env w = (f' (p'.run env w).1, (p'.run env w).2) :=
    advance_locked hp' f'
  refine .op _ _ _ _ (fun w w' hw hI hI' => ?_) fun w w' hw hI hI' => ?_
  · have hafter := congrArg Prod.snd (hleft w)
    change Apart a b eve ((Prog.locked p >>= f).advance env w).2 at hI'
    rw [hafter] at hI'
    show LookAlike a b eve ((Prog.locked p >>= f).advance env w).2 ((Prog.locked p' >>= f').advance env w').2
    rw [hafter, congrArg Prod.snd (hright w')]
    exact (hstep w w' hw hI hI').1
  · have hafter := congrArg Prod.snd (hleft w)
    change Apart a b eve ((Prog.locked p >>= f).advance env w).2 at hI'
    rw [hafter] at hI'
    show Prog.Lockstep a b eve env Q ((Prog.locked p >>= f).advance env w).1
      ((Prog.locked p' >>= f').advance env w').1
    rw [congrArg Prod.fst (hleft w), congrArg Prod.fst (hright w')]
    exact (hstep w w' hw hI hI').2

end Rules

/-! ## The messages -/

section Messages

variable {a b eve me : Int} {env : Env} {w w' : World}

/-- What `LOGIN` makes of the session and of who is online: nothing, or the user is in both. -/
theorem login_session_lists (pg : Bool) (fd : Int) (payload : Bytes) :
    Ensures env w (login_session pg fd payload) fun r w' =>
      (r = none ∧ w'.conns = w.conns ∧ w'.mem.g_online_clients = w.mem.g_online_clients) ∨
        ∃ l, r = some l ∧ w'.conns = w.conns.set fd l.uid ∧
          w'.mem.g_online_clients = w.mem.g_online_clients.set l.uid fd := by
  refine Ensures.locked (ensures_read (ensures_ite (fun _ => ?_) fun _ => ?_))
  · exact .inl ⟨rfl, rfl, rfl⟩
  · refine ensures_set_user (ensures_modify (ensures_part fun _ w₁ h₁ => ensures_part fun pending w₂ h₂ => ?_))
    refine ensures_read (ensures_modify (ensures_pure (.inr ⟨_, rfl, ?_, ?_⟩)))
    · exact Eq.trans (h₂ .conns (by simp)) (h₁ .conns (by simp))
    · exact Eq.trans (h₂ (.var .g_online_clients) (by simp)) (h₁ (.var .g_online_clients) (by simp))

end Messages

/-! ## Handlers -/

section Handlers

variable {a b eve : Int} {env : Env} (pg : Bool) (fd me rid : Int)

end Handlers

/-! ## Who is listed -/

/-- The operation lists no connection that was not listed. -/
@[simp] def Op.lists_nobody {β : Type} : Op β → Prop
  | .modify .g_online_clients f => ∀ m uid fd, (f m).find? uid = some fd → m.find? uid = some fd
  | _ => True

section Listed

variable {a b eve : Int} {env : Env} {S : List Field} {α : Type} {w w' : World}

/-- What a move does not do: list `eve` for one of the two, unless it is in its session then. -/
def Unlisting (a b eve : Int) (w w' : World) : Prop := Stranger a b eve w' → Unlisted a b eve w → Unlisted a b eve w'

theorem Op.lists_nobody.exec {β : Type} {o : Op β} (ho : o.lists_nobody) (hw : Unlisted a b eve w) :
    Unlisted a b eve (o.exec env w).2 := by
  cases o with
  | modify x f =>
    cases x with
    | g_online_clients => exact fun uid huid hlisted => hw uid huid (ho _ _ _ hlisted)
    | _ => exact hw
  | _ => exact hw

theorem unlisting_of_always {p : Prog S α} {R : α → Prop} (hp : p.Always Op.lists_nobody R) :
    p.Moves env .none (Unlisting a b eve) :=
  Program.Moves.weaken (G := fun w w' => Unlisted a b eve w → Unlisted a b eve w')
    (Prog.Moves.of_always hp (fun _ => id) (fun _ _ _ h h' => h' ∘ h) fun _ _ ho => ho.exec) fun _ _ h _ => h

theorem lists_nobody_of_footprint (p : Prog S α) (honline : .var .g_online_clients ∉ S) :
    p.Always Op.lists_nobody fun _ => True := by
  refine always_of_footprint p fun o ho => ?_
  cases o with
  | modify x f =>
    cases x with
    | g_online_clients => exact absurd (ho _ (by simp [Op.writes])) honline
    | _ => trivial
  | _ => trivial

/-- A connection that is listed for a user is in its session then. -/
theorem unlisting_of_lists {fd uid : Int} (hconns : w'.conns = w.conns.set fd uid)
    (honline : w'.mem.g_online_clients = w.mem.g_online_clients.set uid fd) : Unlisting a b eve w w' := by
  intro hstranger hunlisted u hu
  rw [honline, UMap.find?_set]
  split
  · next heq =>
    intro heve
    refine hstranger u hu ?_
    rw [World.session, hconns, Option.some.inj heve, UMap.get_set, if_pos rfl, heq]
  · exact hunlisted u hu

theorem unlisting_of_same (honline : w'.mem.g_online_clients = w.mem.g_online_clients) : Unlisting a b eve w w' := by
  intro _ hunlisted u hu
  rw [honline]
  exact hunlisted u hu

variable (pg : Bool) (fd me rid : Int)

theorem go_offline_lists : (go_offline me).Always Op.lists_nobody fun _ => True := by
  simp only [go_offline, always_bind, always_locked, always_when, always_modify, always_lift]
  refine ⟨trivial, fun _ => ⟨fun m uid fd hfd => ?_, trivial⟩, trivial, fun _ => ?_, trivial⟩
  · rw [UMap.find?_erase] at hfd
    split at hfd
    · cases hfd
    · exact hfd
  · exact lists_nobody_of_footprint _ (by simp)

theorem register_unlisting (payload : Bytes) : (register pg fd payload).Moves env .none (Unlisting a b eve) := by
  by_cases hmissing : field payload "username" = [] ∨ field payload "password" = []
  · rw [register, andNext, if_pos hmissing]
    exact unlisting_of_always (R := fun _ => True) (by simp [Op.lists_nobody])
  rw [register, andNext, if_neg hmissing]
  refine Moves.locked_bind ?_ (fun w _ => ?_) fun _ => .pure _
  · simp [register_id, create_user, update_user_online_status, log_activity, register_user, Unlocked, Op.isLock,
      Op.isUnlock]
  refine ensures_read (Q := fun _ w' => Unlisting a b eve w w') ?_
  refine ensures_ite (fun _ => unlisting_of_same rfl) fun _ => ?_
  refine ensures_part fun r w₁ h₁ => ensures_ite (fun _ => ?_) fun _ => ?_
  · exact unlisting_of_same (h₁ (.var .g_online_clients) (by simp))
  · have hconns : w₁.conns = w.conns := h₁ .conns (by simp)
    have honline : w₁.mem.g_online_clients = w.mem.g_online_clients := h₁ (.var .g_online_clients) (by simp)
    have hset : w₁.conns.set fd (r.getD 0) = w.conns.set fd (r.getD 0) := by
      rw [hconns]
    have hlisted : w₁.mem.g_online_clients.set (r.getD 0) fd = w.mem.g_online_clients.set (r.getD 0) fd := by
      rw [honline]
    exact unlisting_of_lists hset hlisted

theorem login_unlisting (payload : Bytes) : (login pg fd payload).Moves env .none (Unlisting a b eve) := by
  have hsession : (login_session pg fd payload).Guarded env .none (Unlisting a b eve) := by
    refine Guarded.locked ?_ fun w _ => ?_
    · simp [mark_online, update_user_online_status, log_activity, login_pending, get_pending_requests, Unlocked,
        Op.isLock, Op.isUnlock]
    · have hlists : Unlisting a b eve w ((login_session pg fd payload).run env w).2 := by
        rcases login_session_lists pg fd payload with ⟨-, -, honline⟩ | ⟨l, -, hconns, honline⟩
        · exact unlisting_of_same honline
        · exact unlisting_of_lists hconns honline
      rw [login_session, run_locked] at hlists
      exact hlists
  refine (hsession.lift _).moves_bind fun session => ?_
  cases session with
  | none => exact .pure _
  | some l =>
    refine unlisting_of_always (R := fun _ => True) (Always.seq ((always_lift ..).mpr ?_) fun _ => trivial)
    exact lists_nobody_of_footprint _ (by simp)

theorem perform_unlisting (c : Command) : (perform pg fd me rid c).Moves env .none (Unlisting a b eve) := by
  have hquiet : ∀ {S : List Field} (p : Prog S Outcome), .var .g_online_clients ∉ S →
      p.Moves env .none (Unlisting a b eve) :=
    fun p honline => unlisting_of_always (lists_nobody_of_footprint p honline)
  cases c with
  | register payload => exact (register_unlisting pg fd payload).lift (by decide)
  | login payload => exact (login_unlisting pg fd payload).lift (by decide)
  | logout =>
    refine Moves.lift (unlisting_of_always (R := fun _ => True) ?_) (by decide)
    exact Always.seq (go_offline_lists me) fun _ => by simp [Op.lists_nobody]
  | _ => exact (hquiet _ (by simp [all_tables])).lift (by decide)

theorem cleanup_unlisting : (cleanup_handler fd me).prog.Moves env .none (Unlisting a b eve) := by
  refine unlisting_of_always (R := fun _ => True) (Always.seq ((always_lift ..).mpr ?_) fun _ => trivial)
  exact Always.seq ((always_lift ..).mpr (go_offline_lists me)) fun _ => by simp [Op.lists_nobody]

end Listed

/-! ## Two interleavings -/

/-- A handler of each, of the same connection. -/
structure Handler.Abreast (a b eve : Int) (env : Env) (h h' : Handler) : Prop where
  fd : h'.fd = h.fd
  prog : Prog.Lockstep a b eve env (fun x y => x = y) h.prog h'.prog

namespace Concurrent

/-- The two look the same from `eve`, and their handlers move in lockstep. -/
structure Abreast (a b eve : Int) (env : Env) (s s' : Concurrent) : Prop where
  world : LookAlike a b eve s.world s'.world
  handlers : List.Forall₂ (Handler.Abreast a b eve env) s.handlers s'.handlers

section Steps

variable {pg : Bool} {env : Env} {a b eve : Int} {s s' t : Concurrent} {e f : Event}

theorem Abreast.idle (h : Abreast a b eve env s s') (fd : Int) : s'.idle fd = s.idle fd := by
  have hfds : ∀ hs hs', List.Forall₂ (Handler.Abreast a b eve env) hs hs' →
      hs'.map Handler.fd = hs.map Handler.fd := by
    intro hs hs' hboth
    induction hboth with
    | nil => rfl
    | cons hx _ ih => rw [List.map_cons, List.map_cons, hx.fd, ih]
  have hidle : ∀ s : Concurrent, s.idle fd = (s.handlers.map Handler.fd).all fun x => x ≠ fd := by
    intro s
    rw [Concurrent.idle, List.all_map]
    rfl
  rw [hidle, hidle, hfds _ _ h.handlers]

theorem Abreast.session (h : Abreast a b eve env s s') (fd : Int) : s'.world.session fd = s.world.session fd := by
  rw [World.session, World.session, h.world.conns]

/-- One handler more. -/
theorem Abreast.snoc (h : Abreast a b eve env s s') {x x' : Handler} (hx : Handler.Abreast a b eve env x x') :
    Abreast a b eve env ⟨s.world, s.handlers ++ [x]⟩ ⟨s'.world, s'.handlers ++ [x']⟩ :=
  ⟨h.world, List.rel_append h.handlers (.cons hx .nil)⟩

/-- Another handler, or none, in the place of one. -/
theorem Abreast.replace (h : Abreast a b eve env s s') (i : Nat) {new new' : List Handler} {w w' : World}
    (hw : LookAlike a b eve w w') (hnew : List.Forall₂ (Handler.Abreast a b eve env) new new') :
    Abreast a b eve env ⟨w, s.replaced i new⟩ ⟨w', s'.replaced i new'⟩ :=
  ⟨hw, List.rel_append (List.rel_append (List.forall₂_take i h.handlers) hnew) (List.forall₂_drop (i + 1) h.handlers)⟩

/-- While `eve` is in the session of neither, it is not listed for one of them, and no handler at work is about to. -/
def KeepsUnlisted (a b eve : Int) (env : Env) (s : Concurrent) : Prop :=
  (∀ h ∈ s.handlers, h.prog.Moves env .none (Unlisting a b eve)) ∧
    (Stranger a b eve s.world → Unlisted a b eve s.world)

theorem KeepsUnlisted.step (h : KeepsUnlisted a b eve env s) (hstranger : Stranger a b eve s.world)
    (hs : step pg env s e = some t) : KeepsUnlisted a b eve env t := by
  obtain ⟨hstages, hlists⟩ := h
  have hmoves : ∀ (i : Nat) (h : Handler), s.handlers[i]? = some h → h.prog.Moves env .none (Unlisting a b eve) :=
    fun i h hget => hstages h (List.mem_of_getElem? hget)
  constructor
  · refine stages_of_step hs (fun fd r h _ hrequest => ?_) (fun fd me => cleanup_unlisting fd me)
      (fun i h _ hget => ((hmoves i h hget).advance trivial fun _ _ => id).2) hstages
    rcases request_handler_eq pg hrequest with ⟨-, c, -, rfl⟩ | ⟨-, rfl⟩
    · exact perform_unlisting pg fd _ _ c
    · exact (unlisting_of_always (R := fun _ => True) (by simp [invalid_header, Op.lists_nobody])).lift (by decide)
  · cases move_of_step pg env hs with
    | accepted | started | hungup | finished => exact fun _ => hlists hstranger
    | turned i h hget =>
      exact fun hafter => ((hmoves i h hget).advance trivial fun _ _ => id).1 hafter (hlists hstranger)

end Steps

end Concurrent

end ChatApp
