/-
`Machine.lean` -- the server process as a machine: its state, the operations
handler code performs on it, and the programs built from them.

A program's type says which parts of the state it may write: `Prog S α` is a
program whose operations write only fields of `S`. Every handler is given its exact
`S`, so that "this request leaves that table alone" needs no proof of its own: it is
`Prog.run_frame`, once, for every program.

Three things are not the server's to decide: whether a database statement fails,
whether a socket write fails, and what the clock says. They are an `Env`, a fixed
answer for each moment, so theorems about every `Env` are about every pattern of
failures.
-/
import ChatApp.Database
import ChatApp.ServerState

set_option autoImplicit false

namespace ChatApp

/-! ## The state -/

/-- One call of `send_message`: what was sent where, and whether the write
succeeded. -/
structure Frame where
  fd : Int
  type : MessageType
  payload : Bytes
  userId : UInt32
  sent : Bool
  deriving DecidableEq

/-- The process and what it works on: the globals, the database, the users file, the
open connections (each with the `current_user_id` of its handler) and the frames
written so far. `ticks` counts the questions put to the environment. -/
structure World where
  mem : ServerState
  db : Database
  users_file : Bytes
  conns : UMap Int Int
  out : List Frame
  ticks : Nat

/-- What the environment answers at each tick. -/
structure Env where
  sql_fails : Nat → Bool
  send_fails : Nat → Bool
  clock_ms : Nat → Int

/-- The environment in which every statement that the schema allows succeeds. -/
def Env.SqlSucceeds (env : Env) : Prop := ∀ n, env.sql_fails n = false

/-- The parts of the state a footprint distinguishes. -/
inductive Field where
  | var (x : Var)
  | table (t : Table)
  | tx
  | users_file
  | conns
  | out
  deriving DecidableEq

/-- `w'` has the field as `w` has it. For `tx` this means that no transaction was
left open that was not open before. -/
def Field.Same : Field → World → World → Prop
  | .var x, w, w' => x.get w'.mem = x.get w.mem
  | .table t, w, w' => t.get w'.db.tables = t.get w.db.tables
  | .tx, w, w' => w.db.tx = none → w'.db.tx = none
  | .users_file, w, w' => w'.users_file = w.users_file
  | .conns, w, w' => w'.conns = w.conns
  | .out, w, w' => w'.out = w.out

theorem Field.Same.refl (x : Field) (w : World) : x.Same w w := by
  cases x <;> simp [Field.Same]

theorem Field.Same.trans {x : Field} {w w' w'' : World} (h : x.Same w w') (h' : x.Same w' w'') :
    x.Same w w'' := by
  cases x with
  | tx => exact h' ∘ h
  | _ => exact Eq.trans h' h

/-! ## Operations -/

/-- What handler code does to the state, one shared access at a time. -/
inductive Op : Type → Type 1 where
  /-- Acquire `g_mutex`. -/
  | lock : Op Unit
  /-- Release `g_mutex`. -/
  | unlock : Op Unit
  /-- Read the globals. -/
  | read {β : Type} (f : ServerState → β) : Op β
  /-- Write one global. -/
  | modify (x : Var) (f : x.Ty → x.Ty) : Op Unit
  /-- `db->execute` of a statement that writes a table. -/
  | execute {β : Type} (t : Table) (q : Statement t β) : Op (Option β)
  /-- `db->execute` of a `SELECT`. -/
  | select {β : Type} (q : Tables → β) : Op (Option β)
  /-- `db->execute("BEGIN")`. -/
  | begin : Op Bool
  /-- `db->execute("COMMIT")`. -/
  | commit : Op Bool
  /-- `db->execute("ROLLBACK")`. -/
  | rollback : Op Bool
  /-- `network::send_message`. -/
  | send (fd : Int) (type : MessageType) (payload : Bytes) (userId : UInt32) : Op Bool
  /-- `std::chrono::system_clock::now()`, in milliseconds. -/
  | now_ms : Op Int
  /-- The assignment `current_user_id = uid` of the handler of `fd`. -/
  | set_user (fd uid : Int) : Op Unit
  /-- `::close(fd)`. -/
  | close (fd : Int) : Op Unit
  /-- Replace the contents of the users file. -/
  | write_file (contents : Bytes) : Op Unit

/-- Every table whose rows are kept. -/
def all_tables : List Field :=
  [.table .users, .table .friends, .table .friend_requests, .table .messages, .table .groups,
    .table .group_members, .table .group_messages, .table .group_invites]

/-- The fields an operation may write. Rolling back writes every table. -/
def Op.writes {β : Type} : Op β → List Field
  | .modify x _ => [.var x]
  | .execute t _ => [.table t]
  | .begin => [.tx]
  | .commit | .rollback => all_tables
  | .send .. => [.out]
  | .set_user .. | .close _ => [.conns]
  | .write_file _ => [.users_file]
  | .lock | .unlock | .read _ | .select _ | .now_ms => []

namespace World

/-- Apply a function to the database. -/
def mapDb {β : Type} (w : World) (f : Database → β × Database) : β × World :=
  ((f w.db).1, { w with db := (f w.db).2, ticks := w.ticks + 1 })

end World

/-- Perform one operation. -/
def Op.exec (env : Env) {β : Type} : Op β → World → β × World
  | .lock, w => ((), w)
  | .unlock, w => ((), w)
  | .read f, w => (f w.mem, w)
  | .modify x f, w => ((), { w with mem := x.modify f w.mem })
  | .execute t q, w => w.mapDb (Database.exec t q (env.sql_fails w.ticks))
  | .select q, w => w.mapDb (Database.select q (env.sql_fails w.ticks))
  | .begin, w => w.mapDb (Database.begin (env.sql_fails w.ticks))
  | .commit, w => w.mapDb (Database.commit (env.sql_fails w.ticks))
  | .rollback, w => w.mapDb (Database.rollback (env.sql_fails w.ticks))
  | .send fd type payload userId, w =>
    let sent := !env.send_fails w.ticks
    (sent, { w with out := w.out ++ [⟨fd, type, payload, userId, sent⟩], ticks := w.ticks + 1 })
  | .now_ms, w => (env.clock_ms w.ticks, { w with ticks := w.ticks + 1 })
  | .set_user fd uid, w => ((), { w with conns := w.conns.set fd uid })
  | .close fd, w => ((), { w with conns := w.conns.erase fd })
  | .write_file contents, w => ((), { w with users_file := contents })

/-! ## What an operation leaves alone -/

section Same

variable {β : Type} {x : Field}

/-- A database operation leaves a field alone when it leaves the table alone, or, for
`tx`, opens no transaction. -/
theorem Field.same_mapDb {w : World} {f : Database → β × Database}
    (htable : ∀ t, x = .table t → t.get (f w.db).2.tables = t.get w.db.tables)
    (htx : x = .tx → w.db.tx = none → (f w.db).2.tx = none) : x.Same w (w.mapDb f).2 := by
  cases x with
  | table t => exact htable t rfl
  | tx => exact htx rfl
  | _ => rfl

@[simp] theorem Database.abort_tables (d : Database) : d.abort.tables = d.tables := rfl

theorem Database.abort_tx {d : Database} (h : d.tx = none) : d.abort.tx = none := by
  simp [Database.abort, h]

theorem Database.exec_table {t t' : Table} (ht : t' ≠ t) (q : Statement t β) (fails : Bool)
    (d : Database) : t'.get (Database.exec t q fails d).2.tables = t'.get d.tables := by
  unfold Database.exec
  split
  · rfl
  split
  · rfl
  dsimp only
  split <;> exact Table.get_put_ne ht _ _

theorem Database.exec_tx {t : Table} (q : Statement t β) (fails : Bool) {d : Database}
    (h : d.tx = none) : (Database.exec t q fails d).2.tx = none := by
  unfold Database.exec
  split
  · exact h
  split
  · exact Database.abort_tx h
  dsimp only
  split
  · exact h
  · exact Database.abort_tx h

theorem Database.select_tables (q : Tables → β) (fails : Bool) (d : Database) :
    (Database.select q fails d).2.tables = d.tables := by
  unfold Database.select
  split
  · rfl
  split <;> rfl

theorem Database.select_tx (q : Tables → β) (fails : Bool) {d : Database} (h : d.tx = none) :
    (Database.select q fails d).2.tx = none := by
  unfold Database.select
  split
  · exact h
  split
  · exact Database.abort_tx h
  · exact h

theorem Database.begin_tables (fails : Bool) (d : Database) :
    (Database.begin fails d).2.tables = d.tables := by
  unfold Database.begin
  split
  · rfl
  split <;> rfl

/-- `ROLLBACK` always ends the transaction. -/
theorem Database.rollback_tx (fails : Bool) (d : Database) :
    (Database.rollback fails d).2.tx = none := by
  unfold Database.rollback
  split
  · rfl
  · next h => exact h

/-- And so does `COMMIT`. -/
theorem Database.commit_tx (fails : Bool) (d : Database) :
    (Database.commit fails d).2.tx = none := by
  unfold Database.commit
  split
  · exact Database.rollback_tx _ _
  · rfl

end Same

/-- A field outside `o.writes` is the same after `o` as before it. -/
theorem Op.exec_same (env : Env) {β : Type} (o : Op β) {x : Field} (hx : x ∉ o.writes) (w : World) :
    x.Same w (o.exec env w).2 := by
  cases o with
  | lock | unlock | read f => exact Field.Same.refl x w
  | modify y f =>
    cases x with
    | var z =>
      refine Var.get_modify_ne ?_ f w.mem
      rintro rfl
      exact hx (by simp [Op.writes])
    | _ => simp [Field.Same, Op.exec]
  | execute t q =>
    refine Field.same_mapDb (fun t' ht => Database.exec_table ?_ q _ _)
      (fun _ => Database.exec_tx q _)
    rintro rfl
    exact hx (by simp [Op.writes, ht])
  | select q =>
    exact Field.same_mapDb (fun _ _ => by rw [Database.select_tables])
      (fun _ => Database.select_tx q _)
  | begin =>
    exact Field.same_mapDb (fun _ _ => by rw [Database.begin_tables])
      (fun ht => absurd (by simp [Op.writes, ht]) hx)
  | commit =>
    refine Field.same_mapDb (fun t ht => ?_) (fun _ _ => Database.commit_tx _ _)
    subst ht
    cases t <;> first | rfl | exact absurd (by simp [Op.writes, all_tables]) hx
  | rollback =>
    refine Field.same_mapDb (fun t ht => ?_) (fun _ _ => Database.rollback_tx _ _)
    subst ht
    cases t <;> first | rfl | exact absurd (by simp [Op.writes, all_tables]) hx
  | now_ms => cases x <;> simp [Field.Same, Op.exec]
  | send fd type payload userId =>
    cases x with
    | out => exact absurd (by simp [Op.writes]) hx
    | _ => simp [Field.Same, Op.exec]
  | set_user fd uid | close fd =>
    cases x with
    | conns => exact absurd (by simp [Op.writes]) hx
    | _ => simp [Field.Same, Op.exec]
  | write_file contents =>
    cases x with
    | users_file => exact absurd (by simp [Op.writes]) hx
    | _ => simp [Field.Same, Op.exec]

/-! ## Programs with a footprint -/

/-- The operations that write only fields of `S`. -/
def OpIn (S : List Field) (β : Type) : Type 1 := { o : Op β // ∀ x ∈ o.writes, x ∈ S }

/-- Handler code that writes only fields of `S`. -/
abbrev Prog (S : List Field) (α : Type) : Type 1 := Program (OpIn S) α

namespace Prog

variable {S T : List Field} {α β : Type}

/-- Run a program to completion. -/
def run (env : Env) (p : Prog S α) (w : World) : α × World :=
  Program.run (fun o w => o.1.exec env w) p w

/-- A program that writes only `S` writes only `T`, when `S` is part of `T`. -/
def lift (p : Prog S α) (h : S ⊆ T := by decide) : Prog T α :=
  Program.hom (fun o => ⟨o.1, fun x hx => h (o.2 x hx)⟩) p

theorem lift_bind (p : Prog S α) (f : α → Prog S β) (h : S ⊆ T) :
    (p >>= f).lift h = p.lift h >>= fun a => (f a).lift h :=
  Program.hom_bind _ p f

theorem lift_lift {U : List Field} (p : Prog S α) (h : S ⊆ T) (h' : T ⊆ U) :
    (p.lift h).lift h' = p.lift (List.Subset.trans h h') :=
  Program.hom_hom _ _ p

theorem lift_self (p : Prog S α) (h : S ⊆ S) : p.lift h = p := by
  induction p with
  | pure a => rfl
  | op o k ih => exact congrArg (Program.op o) (funext ih)

/-- **The frame rule.** A field outside the footprint is the same after a run as
before it. -/
theorem run_frame (env : Env) (p : Prog S α) (w : World) {x : Field} (hx : x ∉ S) :
    x.Same w (p.run env w).2 :=
  Program.run_rel _ (R := x.Same) (Field.Same.refl x) (fun _ _ _ => Field.Same.trans)
    (fun o w => o.1.exec_same env (fun h => hx (o.2 x h)) w) p w

/-! ### The operations as programs -/

/-- Acquire `g_mutex`. -/
def lock : Prog S Unit := Program.perform ⟨.lock, by simp [Op.writes]⟩

/-- Release `g_mutex`. -/
def unlock : Prog S Unit := Program.perform ⟨.unlock, by simp [Op.writes]⟩

/-- The scope of a `std::lock_guard<std::mutex> lock(g_mutex)`. -/
def locked (p : Prog S α) : Prog S α := do
  lock
  let a ← p
  unlock
  pure a

/-- Read the globals. -/
def read (f : ServerState → β) : Prog S β := Program.perform ⟨.read f, by simp [Op.writes]⟩

/-- Write one global. -/
def modify (x : Var) (f : x.Ty → x.Ty) (h : .var x ∈ S := by decide) : Prog S Unit :=
  Program.perform ⟨.modify x f, by simpa [Op.writes] using h⟩

/-- Execute a statement that writes table `t`. -/
def execute (t : Table) (q : Statement t β) (h : .table t ∈ S := by decide) : Prog S (Option β) :=
  Program.perform ⟨.execute t q, by simpa [Op.writes] using h⟩

/-- Execute a `SELECT`. -/
def select (q : Tables → β) : Prog S (Option β) :=
  Program.perform ⟨.select q, by simp [Op.writes]⟩

/-- Execute `BEGIN`. -/
def begin (h : .tx ∈ S := by decide) : Prog S Bool :=
  Program.perform ⟨.begin, by simpa [Op.writes] using h⟩

/-- Execute `COMMIT`. -/
def commit (h : all_tables ⊆ S := by decide) : Prog S Bool := Program.perform ⟨.commit, h⟩

/-- Execute `ROLLBACK`. -/
def rollback (h : all_tables ⊆ S := by decide) : Prog S Bool := Program.perform ⟨.rollback, h⟩

/-- `send_message(fd, type, payload, userId)`. -/
def send (fd : Int) (type : MessageType) (payload : Bytes) (userId : UInt32)
    (h : .out ∈ S := by decide) : Prog S Bool :=
  Program.perform ⟨.send fd type payload userId, by simpa [Op.writes] using h⟩

/-- The clock, in milliseconds. -/
def now_ms : Prog S Int := Program.perform ⟨.now_ms, by simp [Op.writes]⟩

/-- `current_user_id = uid` in the handler of `fd`. -/
def set_user (fd uid : Int) (h : .conns ∈ S := by decide) : Prog S Unit :=
  Program.perform ⟨.set_user fd uid, by simpa [Op.writes] using h⟩

/-- `::close(fd)`. -/
def close (fd : Int) (h : .conns ∈ S := by decide) : Prog S Unit :=
  Program.perform ⟨.close fd, by simpa [Op.writes] using h⟩

/-- Replace the contents of the users file. -/
def write_file (contents : Bytes) (h : .users_file ∈ S := by decide) : Prog S Unit :=
  Program.perform ⟨.write_file contents, by simpa [Op.writes] using h⟩

/-- `if (c) p;` -/
def when (c : Bool) (p : Prog S Unit) : Prog S Unit := if c then p else pure ()

/-! ### Symbolic execution -/

section Run

variable (env : Env) (w : World)

@[simp] theorem run_pure (a : α) : (pure a : Prog S α).run env w = (a, w) := rfl

@[simp] theorem run_bind (p : Prog S α) (f : α → Prog S β) :
    (p >>= f).run env w = (f (p.run env w).1).run env (p.run env w).2 :=
  Program.run_bind _ p f w

@[simp] theorem run_map (f : α → β) (p : Prog S α) :
    (f <$> p).run env w = (f (p.run env w).1, (p.run env w).2) := by
  rw [map_eq_pure_bind, run_bind, run_pure]

@[simp] theorem run_ite (c : Prop) [Decidable c] (p q : Prog S α) :
    (if c then p else q).run env w = if c then p.run env w else q.run env w :=
  Program.run_ite _ c p q w

/-- A program runs the same whatever larger footprint it is read at. -/
@[simp] theorem run_lift (p : Prog S α) (h : S ⊆ T) : (p.lift h).run env w = p.run env w :=
  Program.run_hom _ _ _ (fun _ _ => rfl) p w

@[simp] theorem run_locked (p : Prog S α) : (locked p).run env w = p.run env w := by
  show ((lock >>= fun _ => p >>= fun a => unlock >>= fun _ => pure a : Prog S α)).run env w = _
  simp only [run_bind, run_pure]
  rfl

@[simp] theorem run_read (f : ServerState → β) :
    (read f : Prog S β).run env w = (f w.mem, w) := rfl

@[simp] theorem run_modify (x : Var) (f : x.Ty → x.Ty) (h : .var x ∈ S) :
    (modify x f h : Prog S Unit).run env w = ((), { w with mem := x.modify f w.mem }) := rfl

@[simp] theorem run_execute (t : Table) (q : Statement t β) (h : .table t ∈ S) :
    (execute t q h : Prog S (Option β)).run env w
      = w.mapDb (Database.exec t q (env.sql_fails w.ticks)) := rfl

@[simp] theorem run_select (q : Tables → β) :
    (select q : Prog S (Option β)).run env w
      = w.mapDb (Database.select q (env.sql_fails w.ticks)) := rfl

@[simp] theorem run_begin (h : .tx ∈ S) :
    (begin h : Prog S Bool).run env w = w.mapDb (Database.begin (env.sql_fails w.ticks)) := rfl

@[simp] theorem run_commit (h : all_tables ⊆ S) :
    (commit h : Prog S Bool).run env w = w.mapDb (Database.commit (env.sql_fails w.ticks)) := rfl

@[simp] theorem run_rollback (h : all_tables ⊆ S) :
    (rollback h : Prog S Bool).run env w
      = w.mapDb (Database.rollback (env.sql_fails w.ticks)) := rfl

@[simp] theorem run_now_ms :
    (now_ms : Prog S Int).run env w
      = (env.clock_ms w.ticks, { w with ticks := w.ticks + 1 }) := rfl

@[simp] theorem run_send (fd : Int) (type : MessageType) (payload : Bytes) (userId : UInt32)
    (h : .out ∈ S) :
    (send fd type payload userId h : Prog S Bool).run env w
      = (!env.send_fails w.ticks,
        { w with
          out := w.out ++ [⟨fd, type, payload, userId, !env.send_fails w.ticks⟩]
          ticks := w.ticks + 1 }) := rfl

@[simp] theorem run_set_user (fd uid : Int) (h : .conns ∈ S) :
    (set_user fd uid h : Prog S Unit).run env w
      = ((), { w with conns := w.conns.set fd uid }) := rfl

@[simp] theorem run_close (fd : Int) (h : .conns ∈ S) :
    (close fd h : Prog S Unit).run env w = ((), { w with conns := w.conns.erase fd }) := rfl

@[simp] theorem run_write_file (contents : Bytes) (h : .users_file ∈ S) :
    (write_file contents h : Prog S Unit).run env w
      = ((), { w with users_file := contents }) := rfl

@[simp] theorem run_when (c : Bool) (p : Prog S Unit) :
    (when c p).run env w = if c then p.run env w else ((), w) := by
  cases c <;> rfl

/-- A run of `p` from `w` ends in `Q`. -/
def Ensures (p : Prog S α) (Q : α → World → Prop) : Prop := Q (p.run env w).1 (p.run env w).2

section Ensures

variable {env w}

theorem ensures_pure {a : α} {Q : α → World → Prop} (ha : Q a w) :
    Ensures env w (pure a : Prog S α) Q :=
  Program.ensures_pure ha

theorem Ensures.bind {p : Prog S α} {f : α → Prog S β} {R : α → World → Prop}
    {Q : β → World → Prop} (hp : Ensures env w p R)
    (hf : ∀ a w', R a w' → Ensures env w' (f a) Q) : Ensures env w (p >>= f) Q :=
  Program.Ensures.bind hp hf

theorem Ensures.mono {p : Prog S α} {R Q : α → World → Prop} (hp : Ensures env w p R)
    (hRQ : ∀ a w', R a w' → Q a w') : Ensures env w p Q :=
  Program.Ensures.mono hp hRQ

theorem ensures_ite {c : Prop} [Decidable c] {p q : Prog S α} {Q : α → World → Prop}
    (hp : c → Ensures env w p Q) (hq : ¬c → Ensures env w q Q) :
    Ensures env w (if c then p else q) Q :=
  Program.ensures_ite hp hq

theorem Ensures.lift {p : Prog S α} {Q : α → World → Prop} (hp : Ensures env w p Q) (h : S ⊆ T) :
    Ensures env w (p.lift h) Q := by
  rw [Ensures, run_lift]
  exact hp

theorem Ensures.and {p : Prog S α} {R Q : α → World → Prop} (hR : Ensures env w p R)
    (hQ : Ensures env w p Q) : Ensures env w p fun a w' => R a w' ∧ Q a w' := ⟨hR, hQ⟩

theorem Ensures.locked {p : Prog S α} {Q : α → World → Prop} (hp : Ensures env w p Q) :
    Ensures env w (locked p) Q := by
  rw [Ensures, run_locked]
  exact hp

theorem ensures_when {c : Bool} {p : Prog S Unit} {Q : Unit → World → Prop}
    (hp : c = true → Ensures env w p Q) (hskip : c = false → Q () w) :
    Ensures env w (when c p) Q := by
  cases c with
  | true => exact hp rfl
  | false => exact hskip rfl

/-- A postcondition under an assumption is proved under it. -/
theorem ensures_imp {p : Prog S α} {P : Prop} {Q : α → World → Prop}
    (hp : P → Ensures env w p Q) : Ensures env w p fun a w' => P → Q a w' :=
  fun h => hp h

/-- Every program keeps to its footprint. -/
theorem ensures_frame (p : Prog S α) : Ensures env w p fun _ w' => ∀ x, x ∉ S → x.Same w w' :=
  fun _ hx => run_frame env p w hx

variable {k : β → Prog S α} {Q : α → World → Prop}

theorem ensures_read {f : ServerState → β} (hk : Ensures env w (k (f w.mem)) Q) :
    Ensures env w (read f >>= k) Q := hk

theorem ensures_modify {k : Unit → Prog S α} {x : Var} {f : x.Ty → x.Ty} {h : .var x ∈ S}
    (hk : Ensures env { w with mem := x.modify f w.mem } (k ()) Q) :
    Ensures env w (modify x f h >>= k) Q := hk

theorem ensures_set_user {k : Unit → Prog S α} {fd uid : Int} {h : .conns ∈ S}
    (hk : Ensures env { w with conns := w.conns.set fd uid } (k ()) Q) :
    Ensures env w (set_user fd uid h >>= k) Q := hk

/-- A part of a program of which only the footprint matters. -/
theorem ensures_part {p : Prog T β} {h : T ⊆ S}
    (hk : ∀ b w', (∀ x, x ∉ T → x.Same w w') → Ensures env w' (k b) Q) :
    Ensures env w (p.lift h >>= k) Q :=
  ((ensures_frame p).lift h).bind hk

end Ensures

/-- **The loop rule.** A relation between the items already handled and the state that
every iteration maintains holds after the loop. -/
theorem run_forM {ι : Type} {I : List ι → World → Prop} {xs : List ι} {f : ι → Prog S Unit}
    (start : I [] w)
    (body : ∀ done x w, x ∈ xs → I done w → I (done ++ [x]) ((f x).run env w).2) :
    I xs ((xs.forM f).run env w).2 := by
  suffices h : ∀ done rest w, done ++ rest = xs → I done w → I xs ((rest.forM f).run env w).2 from
    h [] xs w rfl start
  intro done rest
  induction rest generalizing done with
  | nil =>
    intro w hxs hI
    rw [List.append_nil] at hxs
    exact hxs ▸ hI
  | cons x rest ih =>
    intro w hxs hI
    show I xs ((f x >>= fun _ => rest.forM f : Prog S Unit).run env w).2
    rw [run_bind]
    refine ih (done ++ [x]) _ (by rw [← hxs, List.append_assoc]; rfl) (body done x w ?_ hI)
    rw [← hxs]
    exact List.mem_append_right _ List.mem_cons_self

end Run

end Prog

end ChatApp
