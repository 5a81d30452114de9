/-
`Effects.lean` -- what every operation of a handler does.

A footprint says which fields a program may write. Sometimes that is too coarse: a handler
writes `g_groups`, but not the group in question; it sends, but not this kind of frame. Then each
operation is looked at by itself. `Prog.Always Q p R` says that every operation of `p`, on
every path, is in `Q`; the lemmas of this module compute it for any `Q`, so that a property of
the operations is one of the handler after one `simp`.
-/
import ChatApp.Server

set_option autoImplicit false

namespace ChatApp

open PostgresPersistence handle_client

namespace Prog

/-- Every operation of `p` is in `Q`, and every value it returns is in `R`. -/
def Always {S : List Field} {α : Type} (Q : {β : Type} → Op β → Prop) (p : Prog S α)
    (R : α → Prop) : Prop :=
  Program.Always (fun o => Q o.1) p R

section Always

variable {S T : List Field} {α β : Type} {Q : {β : Type} → Op β → Prop} {R : α → Prop}

/-! ## The rules -/

/-- What every operation preserves, a run preserves. -/
theorem Always.invariant {p : Prog S α} {I : World → Prop} {env : Env} {w : World}
    (hp : p.Always Q R)
    (step : ∀ {β : Type} (o : Op β) (w : World), Q o → I w → I (o.exec env w).2) (hw : I w) :
    I (p.run env w).2 :=
  (Program.Always.run hp (fun o w => step o.1 w) hw).2

/-- A reflexive and transitive relation that every operation respects is respected by a run. -/
theorem Always.rel {p : Prog S α} {Rel : World → World → Prop} {env : Env} {w : World}
    (hp : p.Always Q R) (refl : ∀ w, Rel w w) (trans : ∀ {w w' w''}, Rel w w' → Rel w' w'' → Rel w w'')
    (step : ∀ {β : Type} (o : Op β) (w : World), Q o → Rel w (o.exec env w).2) :
    Rel w (p.run env w).2 :=
  hp.invariant (I := Rel w) (fun o w' ho hw' => trans hw' (step o w' ho)) (refl w)

theorem Always.mono {p : Prog S α} {R' : α → Prop} (hp : p.Always Q R) (hR : ∀ a, R a → R' a) :
    p.Always Q R' :=
  Program.Always.mono hp hR

theorem Always.weaken {Q' : {β : Type} → Op β → Prop} {p : Prog S α} (hp : p.Always Q R)
    (hQ : ∀ {β : Type} (o : Op β), Q o → Q' o) : p.Always Q' R :=
  Program.Always.weaken hp fun o => hQ o.1

/-- What holds of no value in particular can be taken out: every program returns. -/
theorem always_const {p : Prog S α} {P : Prop} :
    p.Always Q (fun _ => P) ↔ p.Always Q (fun _ => True) ∧ P := by
  constructor
  · intro h
    refine ⟨h.mono fun _ _ => trivial, ?_⟩
    exact (Program.Always.run (h := fun o w => o.1.exec Env.calm w) (I := fun _ => True) h
      (fun _ _ _ _ => trivial) (s := World.new Tables.empty) trivial).1
  · intro h
    exact h.1.mono fun _ _ => h.2

/-- One program after another. -/
theorem Always.seq {p : Prog S β} {f : β → Prog S α} (hp : p.Always Q fun _ => True)
    (hf : ∀ b, (f b).Always Q R) : (p >>= f).Always Q R :=
  Program.always_bind.mpr (hp.mono fun b _ => hf b)

/-- What the footprint of a program says of every operation. -/
theorem always_of_footprint (p : Prog S α)
    (h : ∀ {β : Type} (o : Op β), (∀ x ∈ o.writes, x ∈ S) → Q o) : p.Always Q fun _ => True := by
  unfold Always
  induction p with
  | pure a => exact trivial
  | op o k ih => exact ⟨h o.1 o.2, ih⟩

/-! ## Computing it -/

@[simp] theorem always_pure (a : α) : (pure a : Prog S α).Always Q R ↔ R a := Iff.rfl

@[simp] theorem always_bind (p : Prog S β) (f : β → Prog S α) :
    (p >>= f).Always Q R ↔ p.Always Q fun b => (f b).Always Q R :=
  Program.always_bind

@[simp] theorem always_map (p : Prog S β) (f : β → α) :
    (f <$> p).Always Q R ↔ p.Always Q fun b => R (f b) := by
  rw [map_eq_pure_bind, always_bind]
  rfl

@[simp] theorem always_ite (c : Prop) [Decidable c] (p q : Prog S α) :
    (if c then p else q).Always Q R ↔ (c → p.Always Q R) ∧ (¬c → q.Always Q R) := by
  split <;> simp_all

@[simp] theorem always_lift (p : Prog S α) (h : S ⊆ T) :
    (p.lift h).Always Q R ↔ p.Always Q R :=
  Program.always_hom _

@[simp] theorem always_lock (R : Unit → Prop) :
    (lock : Prog S Unit).Always Q R ↔ Q Op.lock ∧ R () :=
  and_congr_right fun _ => ⟨fun h => h (), fun h _ => h⟩

@[simp] theorem always_unlock (R : Unit → Prop) :
    (unlock : Prog S Unit).Always Q R ↔ Q Op.unlock ∧ R () :=
  and_congr_right fun _ => ⟨fun h => h (), fun h _ => h⟩

@[simp] theorem always_locked (p : Prog S α) :
    (locked p).Always Q R ↔ Q Op.lock ∧ p.Always Q fun a => Q Op.unlock ∧ R a := by
  simp only [locked, always_bind, always_pure, always_lock, always_unlock]

/-- A critical section, when taking and releasing the lock is in `Q`. -/
theorem Always.locked {p : Prog S α} (hp : p.Always Q R) (hlock : Q Op.lock)
    (hunlock : Q Op.unlock) : (Prog.locked p).Always Q R :=
  (always_locked p).mpr ⟨hlock, hp.mono fun _ h => ⟨hunlock, h⟩⟩

@[simp] theorem always_read (f : ServerState → α) :
    (read f : Prog S α).Always Q R ↔ Q (.read f) ∧ ∀ a, R a := Iff.rfl

@[simp] theorem always_modify (x : Var) (f : x.Ty → x.Ty) (h : .var x ∈ S) (R : Unit → Prop) :
    (modify x f h : Prog S Unit).Always Q R ↔ Q (.modify x f) ∧ R () :=
  and_congr_right fun _ => ⟨fun h => h (), fun h _ => h⟩

@[simp] theorem always_execute (t : Table) (q : Statement t β) (h : .table t ∈ S)
    (R : Option β → Prop) :
    (execute t q h : Prog S (Option β)).Always Q R ↔ Q (.execute t q) ∧ ∀ r, R r := Iff.rfl

@[simp] theorem always_select (q : Tables → β) (R : Option β → Prop) :
    (select q : Prog S (Option β)).Always Q R ↔ Q (.select q) ∧ ∀ r, R r := Iff.rfl

@[simp] theorem always_begin (h : .tx ∈ S) (R : Bool → Prop) :
    (begin h : Prog S Bool).Always Q R ↔ Q .begin ∧ ∀ ok, R ok := Iff.rfl

@[simp] theorem always_commit (h : all_tables ⊆ S) (R : Bool → Prop) :
    (commit h : Prog S Bool).Always Q R ↔ Q .commit ∧ ∀ ok, R ok := Iff.rfl

@[simp] theorem always_rollback (h : all_tables ⊆ S) (R : Bool → Prop) :
    (rollback h : Prog S Bool).Always Q R ↔ Q .rollback ∧ ∀ ok, R ok := Iff.rfl

@[simp] theorem always_now_ms (R : Int → Prop) :
    (now_ms : Prog S Int).Always Q R ↔ Q .now_ms ∧ ∀ ms, R ms := Iff.rfl

@[simp] theorem always_set_user (fd uid : Int) (h : .conns ∈ S) (R : Unit → Prop) :
    (set_user fd uid h : Prog S Unit).Always Q R ↔ Q (.set_user fd uid) ∧ R () :=
  and_congr_right fun _ => ⟨fun h => h (), fun h _ => h⟩

@[simp] theorem always_close (fd : Int) (h : .conns ∈ S) (R : Unit → Prop) :
    (close fd h : Prog S Unit).Always Q R ↔ Q (.close fd) ∧ R () :=
  and_congr_right fun _ => ⟨fun h => h (), fun h _ => h⟩

@[simp] theorem always_write_file (contents : Bytes) (h : .users_file ∈ S) (R : Unit → Prop) :
    (write_file contents h : Prog S Unit).Always Q R ↔ Q (.write_file contents) ∧ R () :=
  and_congr_right fun _ => ⟨fun h => h (), fun h _ => h⟩

@[simp] theorem always_reply (fd : Int) (type : MessageType) (payload : Bytes) (userId : UInt32)
    (h : .out ∈ S) (R : Unit → Prop) : (reply fd type payload userId h : Prog S Unit).Always Q R ↔
      Q (.send fd type payload userId) ∧ R () :=
  and_congr_right fun _ => ⟨fun h => h false, fun h _ => h⟩

@[simp] theorem always_when (c : Bool) (p : Prog S Unit) (R : Unit → Prop) :
    (when c p).Always Q R ↔ (c = true → p.Always Q fun _ => True) ∧ R () := by
  cases c with
  | true =>
    show p.Always Q R ↔ _
    rw [show R = fun _ => R () from rfl, always_const]
    simp
  | false =>
    show R () ↔ _
    simp

/-- A loop over a list: each iteration is looked at by itself. -/
@[simp] theorem always_forM {ι : Type} (xs : List ι) (f : ι → Prog S Unit) (R : Unit → Prop) :
    (forM xs f : Prog S Unit).Always Q R ↔ (∀ x ∈ xs, (f x).Always Q fun _ => True) ∧ R () := by
  rw [show R = fun _ => R () from rfl, always_const]
  refine and_congr_left fun _ => ?_
  induction xs with
  | nil => simp
  | cons x xs ih => rw [List.forM_cons, always_bind, always_const, ih, List.forall_mem_cons]

end Always

end Prog

end ChatApp
