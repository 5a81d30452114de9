/-
`SharedConnection.lean` -- two handlers on the one connection to the database.

All threads execute their statements on the same `PGconn`, and nothing keeps one thread's
statements out of another's `BEGIN` and `COMMIT`. A write that falls between the two belongs to
the other thread's transaction: its call has returned true, and a rollback takes it back. Here one
thread runs a function that opens a transaction and the other one that writes, statement by
statement in any order.
-/
import ChatApp.Pool
import ChatApp.Memberships
import ChatApp.Effects

set_option autoImplicit false

namespace ChatApp

open Prog PostgresPersistence

/-! ## The two calls -/

/-- A call that opens a transaction. -/
inductive Bracket where
  | create_group (name : Bytes) (creator_id : Int)
  | accept_friend_request (a b : Int)

/-- What it does; the result says whether it succeeded. -/
def Bracket.program : Bracket → Prog all_fields Bool
  | .create_group name creator_id => (do
      let gid ← PostgresPersistence.create_group name creator_id
      pure gid.isSome : Prog transaction_writes Bool).lift
  | .accept_friend_request a b => (PostgresPersistence.accept_friend_request a b).lift

/-- A call that writes one row. -/
inductive WriteCall where
  | save_message (a b : Int) (content : Bytes) (timestamp : Int)
  | save_group_message (gid uid : Int) (content : Bytes) (timestamp : Int)
  | add_group_member (gid uid : Int)

namespace WriteCall

/-- What it does. -/
def program : WriteCall → Prog all_fields Bool
  | save_message a b content timestamp =>
    (PostgresPersistence.save_message a b content timestamp).lift
  | save_group_message gid uid content timestamp =>
    (PostgresPersistence.save_group_message gid uid content timestamp).lift
  | add_group_member gid uid => (PostgresPersistence.add_group_member gid uid).lift

/-- The row was not written yet: the table of a message is as it was at the start. -/
def pending (d₀ d : Tables) : WriteCall → Prop
  | save_message .. => d.messages = d₀.messages
  | save_group_message .. => d.group_messages = d₀.group_messages
  | add_group_member .. => True

/-- The row is there: the message after those of the start, or the member. -/
def stored (d₀ d : Tables) : WriteCall → Prop
  | save_message a b content timestamp =>
    d.messages = d₀.messages ++ [⟨a, b, escape_string content, timestamp⟩]
  | save_group_message gid uid content timestamp =>
    d.group_messages = d₀.group_messages ++ [⟨gid, uid, escape_string content, timestamp⟩]
  | add_group_member gid uid => d.isMember gid uid = true

end WriteCall

/-- The two threads and the world. -/
abbrev SharedConnection : Type 1 := Pool (OpIn all_fields) Bool World

namespace SharedConnection

/-- One thread executes its next statement; the event names the thread. -/
def step (env : Env) : SharedConnection → Nat × Unit → Option SharedConnection :=
  Pool.step fun _ o w => o.1.exec env w

/-- Thread 0 opens a transaction, thread 1 writes. -/
def start (bracket : Bracket) (call : WriteCall) (w : World) : SharedConnection :=
  ([bracket.program, call.program], w)

/-- What the threads have returned so far. -/
def results (s : SharedConnection) : List (Option Bool) :=
  s.1.map fun p => match p with
    | .pure r => some r
    | .op .. => none

theorem of_results {s : SharedConnection} {rs : List (Option Bool)} {i : Nat} {r : Bool}
    (h : s.results = rs) (hi : rs[i]? = some (some r)) : s.1[i]? = some (pure r) := by
  subst h
  rw [results, List.getElem?_map] at hi
  obtain ⟨p, hp, hres⟩ := Option.map_eq_some_iff.mp hi
  rw [hp]
  cases p with
  | pure a => exact congrArg (fun a => some (Program.pure a)) (Option.some.inj hres)
  | op o k => cases hres

end SharedConnection

/-- The statement ends an open transaction by rolling it back. -/
def Op.rollsBack (env : Env) (w : World) {β : Type} : Op β → Bool
  | .rollback => w.db.tx.isSome
  | .commit => w.db.tx.isSome && (env.sql_fails w.ticks || w.db.aborted)
  | _ => false

/-- The condition on a step: the row is written while no transaction is open. -/
def writesOutside (call : WriteCall) (s : SharedConnection) (e : Nat × Unit) : Prop :=
  e.1 = 1 → s.1[1]? = some call.program → s.2.db.tx = none

/-- The condition on a step: it rolls back no transaction. -/
def rollsNothingBack (env : Env) (s : SharedConnection) (e : Nat × Unit) : Prop :=
  ∀ (β : Type) (o : OpIn all_fields β) (k : β → Prog all_fields Bool),
    s.1[e.1]? = some (.op o k) → o.1.rollsBack env s.2 = false

/-! ## What a statement keeps -/

/-- The statement keeps a property of the tables. -/
def Op.keeps (P : Tables → Prop) {β : Type} : Op β → Prop
  | .execute t q => ∀ d, P d → P (t.put (q d).2 d)
  | _ => True

/-- The property holds of the tables, and, where a rollback is to be reckoned with, of what it would
restore. -/
def Database.Has (restorable : Bool) (P : Tables → Prop) (d : Database) : Prop :=
  P d.tables ∧ (restorable = true → ∀ t, d.tx = some t → P t.snapshot)

section Keeps

variable {P : Tables → Prop} {restorable : Bool} {env : Env} {w : World}

theorem Database.Has.abort {d : Database} (h : d.Has restorable P) : d.abort.Has restorable P := by
  refine ⟨h.1, fun hr t ht => ?_⟩
  obtain ⟨t₀, ht₀, rfl⟩ := Option.map_eq_some_iff.mp ht
  exact h.2 hr t₀ ht₀

theorem Database.Has.exec {d : Database} (h : d.Has restorable P) {t : Table} {β : Type}
    {q : Statement t β} (hq : ∀ d, P d → P (t.put (q d).2 d)) (fails : Bool) :
    (Database.exec t q fails d).2.Has restorable P := by
  unfold Database.exec
  split
  · exact h
  split
  · exact h.abort
  have hput : Database.Has restorable P { d with tables := t.put (q d.tables).2 d.tables } :=
    ⟨hq d.tables h.1, h.2⟩
  dsimp only
  split
  · exact hput
  · exact hput.abort

/-- A rollback goes back to where the property held as well. -/
theorem Database.Has.rollback {d : Database} (h : d.Has restorable P)
    (hrestore : ∀ now d, P d → P (Database.restore now d))
    (hroll : restorable = false → d.tx = none) (fails : Bool) :
    (Database.rollback fails d).2.Has restorable P := by
  unfold Database.rollback
  split
  · next t ht =>
    by_cases hr : restorable = true
    · exact ⟨hrestore _ _ (h.2 hr t ht), fun _ t ht => absurd ht (by simp)⟩
    · rw [hroll (by simpa using hr)] at ht
      cases ht
  · exact h

/-- **What a statement keeps is kept**, also by the end of a transaction, if the transaction is not
rolled back or its start had the property too. -/
theorem Op.keeps.has {β : Type} {o : Op β} (ho : o.keeps P)
    (hrestore : ∀ now d, P d → P (Database.restore now d))
    (hroll : restorable = false → o.rollsBack env w = false) (h : w.db.Has restorable P) :
    (o.exec env w).2.db.Has restorable P := by
  cases o with
  | execute t q => exact h.exec ho _
  | select q =>
    show (Database.select q (env.sql_fails w.ticks) w.db).2.Has restorable P
    unfold Database.select
    split
    · exact h
    split
    · exact h.abort
    · exact h
  | begin =>
    show (Database.begin (env.sql_fails w.ticks) w.db).2.Has restorable P
    unfold Database.begin
    split
    · exact h
    split
    · exact h
    · refine ⟨h.1, fun _ t ht => ?_⟩
      obtain rfl := Option.some.inj ht
      exact h.1
  | commit =>
    show (Database.commit (env.sql_fails w.ticks) w.db).2.Has restorable P
    unfold Database.commit
    split
    · next hfails =>
      refine h.rollback hrestore (fun hr => ?_) _
      have hnot := hroll hr
      simp only [Op.rollsBack, hfails, Bool.and_true] at hnot
      simpa using hnot
    · exact ⟨h.1, fun _ t ht => absurd ht (by simp)⟩
  | rollback =>
    refine h.rollback hrestore (fun hr => ?_) _
    have hnot := hroll hr
    simpa [Op.rollsBack] using hnot
  | _ => exact h

end Keeps

/-! ## The writer -/

section Writer

variable {d₀ : Tables} {call : WriteCall}

/-- The statement touches the row in no other way. -/
def WriteCall.spared (d₀ : Tables) (call : WriteCall) {β : Type} (o : Op β) : Prop :=
  o.keeps (call.pending d₀) ∧ o.keeps (call.stored d₀)

theorem pending_restore (now d : Tables) (h : call.pending d₀ d) :
    call.pending d₀ (Database.restore now d) := by
  cases call <;> exact h

theorem stored_restore (now d : Tables) (h : call.stored d₀ d) :
    call.stored d₀ (Database.restore now d) := by
  cases call <;> exact h

/-- **The shape of a write**: one statement, which stores the row if it succeeds, and then nothing that
concerns the row. The result says whether the statement succeeded. -/
theorem WriteCall.program_shape (d₀ : Tables) (call : WriteCall) :
    ∃ (t : Table) (q : Statement t Unit) (h : .table t ∈ all_fields)
      (k : Option Unit → Prog all_fields Bool),
      call.program = execute t q h >>= k ∧ k none = pure false ∧
      (k (some ())).Always (call.spared d₀) (fun _ => True) ∧
      ∀ d, call.pending d₀ d → (q d).1 = some () → call.stored d₀ (t.put (q d).2 d) := by
  cases call with
  | save_message a b content timestamp =>
    refine ⟨.messages, insert_message a b (escape_string content) timestamp, by decide,
      fun res => pure res.isSome, rfl, rfl, trivial, fun d hd hok => ?_⟩
    show (insert_message a b (escape_string content) timestamp d).2 = _
    unfold insert_message at hok ⊢
    split at hok
    · next husers =>
      rw [if_pos husers]
      exact congrArg (· ++ _) hd
    · cases hok
  | save_group_message gid uid content timestamp =>
    refine ⟨.group_messages, insert_group_message gid uid (escape_string content) timestamp,
      by decide, fun res => pure res.isSome, rfl, rfl, trivial, fun d hd hok => ?_⟩
    show (insert_group_message gid uid (escape_string content) timestamp d).2 = _
    unfold insert_group_message at hok ⊢
    split at hok
    · next hrefs =>
      rw [if_pos hrefs]
      exact congrArg (· ++ _) hd
    · cases hok
  | add_group_member gid uid =>
    refine ⟨.group_members, insert_group_member gid uid, by decide, fun res => Prog.lift (S :=
      [.table .group_members, .table .activity_logs]) (if res.isNone then pure false else do
        let _ ← (log_activity uid 0).lift
        pure true), rfl, rfl, ?_, fun d hd hok => ?_⟩
    · -- the log entry
      refine (always_lift ..).mpr (Always.seq ?_ fun _ => trivial)
      simp [log_activity, WriteCall.spared, Op.keeps, Table.put]
    · have hrole := (@role_insert d
        (Table.group_members.put (insert_group_member gid uid d).2 d) gid uid gid uid hok rfl).1
      rw [Role.at_self] at hrole
      exact congrArg Role.member hrole

end Writer

/-! ## The transaction -/

/-- The statement does not begin a transaction. -/
def Op.beginsNot {β : Type} : Op β → Prop
  | .begin => False
  | _ => True

/-- The statement ends a transaction. -/
def Op.ends {β : Type} : Op β → Prop
  | .commit | .rollback => True
  | _ => False

/-- A program that does nothing but begin a transaction, and, when that works, surely end it. -/
def Prog.Brackets (p : Prog all_fields Bool) : Prop :=
  ∃ (h : .tx ∈ all_fields) (rest : Prog all_fields Bool),
    (p = begin h >>= fun begun => if begun then rest else pure false) ∧
    rest.Always Op.beginsNot (fun _ => True) ∧ Program.Surely (fun o => o.1.ends) rest fun _ => False

theorem brackets_lift {S : List Field} {γ : Type} {p rest : Prog S γ} {x : γ} {f : γ → Bool}
    {hb : .tx ∈ S} (h : S ⊆ all_fields)
    (hp : p = begin hb >>= fun begun => if !begun then pure x else rest) (hx : f x = false)
    (hno : rest.Always Op.beginsNot fun _ => True)
    (hends : Program.Surely (fun o => o.1.ends) rest fun _ => False) :
    Prog.Brackets ((p >>= fun r => pure (f r)).lift h) := by
  subst hp
  refine ⟨h hb, (rest >>= fun r => pure (f r)).lift h, ?_, ?_, ?_⟩
  · refine congrArg (Program.op _) (funext fun begun => ?_)
    cases begun with
    | true => rfl
    | false => exact congrArg Program.pure hx
  · exact (always_lift ..).mpr (Always.seq hno fun _ => trivial)
  · exact (Program.surely_hom _).mpr (Program.surely_bind.mpr (hends.mono fun _ h => h.elim))

/-- **The shape of a bracket**: `BEGIN` comes first, and once it has succeeded every way through the rest
ends the transaction. -/
theorem Bracket.brackets (bracket : Bracket) : bracket.program.Brackets := by
  cases bracket with
  | create_group name creator_id =>
    refine brackets_lift (by decide) rfl rfl ?_ ?_
    · simp [add_group_member, log_activity, Op.beginsNot]
    · -- after the group's row, and after its creator's
      refine .inr fun inserted => ?_
      show Program.Surely _ (if inserted.isNone = true then _ else _) _
      split
      · exact .inl trivial
      refine Program.surely_bind.mpr (Program.surely_of_forall fun added => ?_)
      split
      · exact .inl trivial
      · exact .inl trivial
  | accept_friend_request a b =>
    have hprogram : (Bracket.accept_friend_request a b).program
        = (PostgresPersistence.accept_friend_request a b >>= fun ok => pure (id ok)).lift := by
      rw [Bracket.program]
      exact congrArg (fun p => Prog.lift p _) (bind_pure _).symm
    rw [hprogram]
    refine brackets_lift (by decide) rfl rfl ?_ ?_
    · simp [add_friend, log_activity, Op.beginsNot]
    · refine Program.surely_bind.mpr (Program.surely_of_forall fun added => ?_)
      split
      · exact .inl trivial
      refine .inr fun deleted => ?_
      show Program.Surely _ (if deleted.isNone = true then _ else _) _
      split
      · exact .inl trivial
      · exact .inl trivial

/-- A statement on another table has nothing to do with the row. -/
theorem spared_execute {call : WriteCall} {d₀ : Tables} {β : Type} {t : Table} (q : Statement t β)
    (ht : t ≠ .messages ∧ t ≠ .group_messages ∧ t ≠ .group_members) :
    call.spared d₀ (Op.execute t q) := by
  obtain ⟨hmessages, hgroup, hmembers⟩ := ht
  cases call <;> cases t <;> first | contradiction | exact ⟨fun _ h => h, fun _ h => h⟩

/-- A new member's row takes no other away. -/
theorem spared_insert {call : WriteCall} {d₀ : Tables} (gid uid : Int) :
    call.spared d₀ (Op.execute .group_members (insert_group_member gid uid)) := by
  cases call with
  | add_group_member g u =>
    refine ⟨fun _ h => h, fun d hd => ?_⟩
    obtain ⟨r, hr, hids⟩ := (isMember_iff g u).mp hd
    refine (isMember_iff g u).mpr ⟨r, ?_, hids⟩
    show r ∈ (insert_group_member gid uid d).2
    unfold insert_group_member
    split
    · exact hr
    split
    · exact List.mem_append_left _ hr
    · exact hr
  | _ => exact ⟨fun _ h => h, fun _ h => h⟩

/-- A bracket touches no row that another call writes. -/
theorem Bracket.spared (bracket : Bracket) (d₀ : Tables) (call : WriteCall) :
    bracket.program.Always (call.spared d₀) fun _ => True := by
  have hbegin : call.spared d₀ Op.begin := ⟨trivial, trivial⟩
  have hcommit : call.spared d₀ Op.commit := ⟨trivial, trivial⟩
  have hrollback : call.spared d₀ Op.rollback := ⟨trivial, trivial⟩
  cases bracket with
  | create_group name creator_id =>
    rw [Bracket.program, always_lift]
    simp [PostgresPersistence.create_group, add_group_member, log_activity, spared_insert,
      spared_execute, hbegin, hcommit, hrollback]
  | accept_friend_request a b =>
    rw [Bracket.program, always_lift]
    simp [PostgresPersistence.accept_friend_request, add_friend, log_activity, spared_execute, hbegin,
      hcommit, hrollback]

theorem WriteCall.beginsNot (call : WriteCall) :
    call.program.Always Op.beginsNot fun _ => True := by
  cases call <;> rw [WriteCall.program, always_lift] <;>
    simp [PostgresPersistence.save_message, PostgresPersistence.save_group_message,
      PostgresPersistence.add_group_member, log_activity, Op.beginsNot]

/-! ## Interleavings -/

section Interleavings

variable {env : Env} {bracket : Bracket} {call : WriteCall} {d₀ : Tables} {outside : Bool}
  {w : World} {p : Prog all_fields Bool}

/-- Where the transaction stands: not begun, or over, or sure to end. -/
inductive BracketAt (bracket : Bracket) (p : Prog all_fields Bool) (d : Database) : Prop where
  | before (waits : p = bracket.program) (closed : d.tx = none)
  | closed (none_begins : p.Always Op.beginsNot fun _ => True) (closed : d.tx = none)
  | inside (none_begins : p.Always Op.beginsNot fun _ => True)
    (ends : Program.Surely (fun o => o.1.ends) p fun _ => False)

/-- Where the write stands: not made, failed, or made. -/
inductive WriteAt (outside : Bool) (d₀ : Tables) (call : WriteCall) (p : Prog all_fields Bool)
    (d : Database) : Prop where
  | before (waits : p = call.program) (has : d.Has outside (call.pending d₀))
  | failed (returns : p = pure false)
  | made (spared : p.Always (call.spared d₀) fun _ => True) (has : d.Has outside (call.stored d₀))

/-- **The invariant** of the two threads. -/
structure Coexist (outside : Bool) (bracket : Bracket) (call : WriteCall) (d₀ : Tables)
    (p p' : Prog all_fields Bool) (d : Database) : Prop where
  transaction : BracketAt bracket p d
  spared : p.Always (call.spared d₀) fun _ => True
  write : WriteAt outside d₀ call p' d
  none_begins : p'.Always Op.beginsNot fun _ => True

theorem Op.beginsNot.closed {β : Type} {o : Op β} (ho : o.beginsNot) (htx : w.db.tx = none) :
    (o.exec env w).2.db.tx = none := by
  have hwrites : Field.tx ∉ o.writes := by
    cases o with
    | begin => exact ho.elim
    | _ => simp [Op.writes, all_tables]
  exact o.exec_same env hwrites w htx

theorem Op.ends.closed {β : Type} {o : Op β} (ho : o.ends) : (o.exec env w).2.db.tx = none := by
  have hrollback : (Database.rollback (env.sql_fails w.ticks) w.db).2.tx = none := by
    unfold Database.rollback
    split
    · rfl
    · next htx => exact htx
  cases o with
  | rollback => exact hrollback
  | commit =>
    show (Database.commit (env.sql_fails w.ticks) w.db).2.tx = none
    unfold Database.commit
    split
    · exact hrollback
    · rfl
  | _ => exact ho.elim

/-- A statement of the bracket. -/
theorem BracketAt.step {β : Type} {o : OpIn all_fields β} {k : β → Prog all_fields Bool}
    (h : BracketAt bracket (.op o k) w.db) :
    BracketAt bracket (k (o.1.exec env w).1) (o.1.exec env w).2.db := by
  cases h with
  | before waits closed =>
    obtain ⟨hb, rest, hprogram, hno, hends⟩ := bracket.brackets
    rw [hprogram] at waits
    change Program.op o k = Program.op _ _ at waits
    cases waits
    -- the transaction begins, or does not
    show BracketAt bracket (if (Database.begin (env.sql_fails w.ticks) w.db).1 = true then rest
      else pure false) (Database.begin (env.sql_fails w.ticks) w.db).2
    split
    · exact .inside hno hends
    · next hfails =>
      refine .closed trivial ?_
      unfold Database.begin at hfails ⊢
      rw [closed] at hfails ⊢
      split
      · exact closed
      · next h => exact absurd (by rw [if_neg h]) hfails
  | closed none_begins closed => exact .closed (none_begins.2 _) (Op.beginsNot.closed none_begins.1 closed)
  | inside none_begins ends =>
    rcases ends with hends | hends
    · exact .closed (none_begins.2 _) (Op.ends.closed hends)
    · exact .inside (none_begins.2 _) (hends _)

/-- A statement of the writer. -/
theorem BracketAt.other {β : Type} {o : Op β} (ho : o.beginsNot) (h : BracketAt bracket p w.db) :
    BracketAt bracket p (o.exec env w).2.db := by
  cases h with
  | before waits closed => exact .before waits (ho.closed closed)
  | closed none_begins closed => exact .closed none_begins (ho.closed closed)
  | inside none_begins ends => exact .inside none_begins ends

/-- A statement of the bracket. -/
theorem WriteAt.other {β : Type} {o : Op β} (ho : call.spared d₀ o)
    (hroll : outside = false → o.rollsBack env w = false) (h : WriteAt outside d₀ call p w.db) :
    WriteAt outside d₀ call p (o.exec env w).2.db := by
  cases h with
  | before waits has => exact .before waits (ho.1.has pending_restore hroll has)
  | failed returns => exact .failed returns
  | made spared has => exact .made spared (ho.2.has stored_restore hroll has)

/-- The statement that writes the row: it fails, or the row is there and a rollback that is to be
reckoned with would leave it. -/
theorem WriteAt.write {t : Table} {q : Statement t Unit} {k : Option Unit → Prog all_fields Bool}
    (hnone : k none = pure false) (hsome : (k (some ())).Always (call.spared d₀) fun _ => True)
    (hq : ∀ d, call.pending d₀ d → (q d).1 = some () → call.stored d₀ (t.put (q d).2 d))
    (hout : outside = true → w.db.tx = none) (has : w.db.Has outside (call.pending d₀)) :
    WriteAt outside d₀ call (k ((Op.execute t q).exec env w).1)
      ((Op.execute t q).exec env w).2.db := by
  show WriteAt outside d₀ call (k (Database.exec t q (env.sql_fails w.ticks) w.db).1)
    (Database.exec t q (env.sql_fails w.ticks) w.db).2
  unfold Database.exec
  split
  · exact .failed hnone
  split
  · exact .failed hnone
  dsimp only
  split
  · next b hok =>
    refine .made hsome ⟨hq _ has.1 hok, fun hr t ht => ?_⟩
    have htx : w.db.tx = some t := ht
    rw [hout hr] at htx
    cases htx
  · exact .failed hnone

/-- A statement of the writer. -/
theorem WriteAt.step {β : Type} {o : OpIn all_fields β} {k : β → Prog all_fields Bool}
    (hout : outside = true → Program.op o k = call.program → w.db.tx = none)
    (hroll : outside = false → o.1.rollsBack env w = false)
    (h : WriteAt outside d₀ call (.op o k) w.db) :
    WriteAt outside d₀ call (k (o.1.exec env w).1) (o.1.exec env w).2.db := by
  cases h with
  | before waits has =>
    obtain ⟨t, q, ht, k', hprogram, hnone, hsome, hq⟩ := call.program_shape d₀
    have hclosed : outside = true → w.db.tx = none := fun hr => hout hr waits
    rw [hprogram] at waits
    change Program.op o k = Program.op _ _ at waits
    cases waits
    exact WriteAt.write hnone hsome hq hclosed has
  | failed returns => cases returns
  | made spared has => exact .made (spared.2 _) (spared.1.2.has stored_restore hroll has)

theorem Coexist.start (htx : w.db.tx = none) (bracket : Bracket) (call : WriteCall) :
    Coexist outside bracket call w.db.tables bracket.program call.program w.db where
  transaction := .before rfl htx
  spared := bracket.spared w.db.tables call
  write := by
    refine .before rfl ⟨by cases call <;> first | rfl | trivial, fun _ t ht => ?_⟩
    rw [htx] at ht
    cases ht
  none_begins := call.beginsNot

/-- The bracket executes a statement. -/
theorem Coexist.step_bracket {β : Type} {o : OpIn all_fields β} {k : β → Prog all_fields Bool}
    (hroll : outside = false → o.1.rollsBack env w = false)
    (h : Coexist outside bracket call d₀ (.op o k) p w.db) :
    Coexist outside bracket call d₀ (k (o.1.exec env w).1) p (o.1.exec env w).2.db where
  transaction := h.transaction.step
  spared := h.spared.2 _
  write := h.write.other h.spared.1 hroll
  none_begins := h.none_begins

/-- The writer executes a statement. -/
theorem Coexist.step_write {β : Type} {o : OpIn all_fields β} {k : β → Prog all_fields Bool}
    (hout : outside = true → Program.op o k = call.program → w.db.tx = none)
    (hroll : outside = false → o.1.rollsBack env w = false)
    (h : Coexist outside bracket call d₀ p (.op o k) w.db) :
    Coexist outside bracket call d₀ p (k (o.1.exec env w).1) (o.1.exec env w).2.db where
  transaction := h.transaction.other h.none_begins.1
  spared := h.spared
  write := h.write.step hout hroll
  none_begins := h.none_begins.2 _

/-- A state of the two threads in which the invariant holds. -/
def Coexisting (outside : Bool) (bracket : Bracket) (call : WriteCall) (d₀ : Tables)
    (s : SharedConnection) : Prop :=
  ∃ p p' : Prog all_fields Bool, s.1 = [p, p'] ∧ Coexist outside bracket call d₀ p p' s.2.db

/-- **Every step of a run keeps the invariant.** -/
theorem Coexisting.step {s s' : SharedConnection} {e : Nat × Unit}
    (h : Coexisting outside bracket call d₀ s)
    (hout : outside = true → writesOutside call s e)
    (hroll : outside = false → rollsNothingBack env s e)
    (hs : SharedConnection.step env s e = some s') : Coexisting outside bracket call d₀ s' := by
  obtain ⟨p, p', hpool, hcoexist⟩ := h
  obtain ⟨β, o, k, before, after, hthreads, hevent, rfl⟩ := Pool.step_cases hs
  have hrolls : outside = false → o.1.rollsBack env s.2 = false := by
    refine fun hr => hroll hr β o k ?_
    rw [hthreads, hevent]
    simp
  rw [hpool] at hthreads
  match before, hthreads with
  | [], hthreads =>
    obtain ⟨rfl, rfl⟩ := List.cons.inj hthreads
    exact ⟨_, _, rfl, hcoexist.step_bracket hrolls⟩
  | [q], hthreads =>
    obtain ⟨rfl, hrest⟩ := List.cons.inj hthreads
    obtain ⟨rfl, rfl⟩ := List.cons.inj hrest
    refine ⟨_, _, rfl, hcoexist.step_write (fun hr hcall => hout hr hevent ?_) hrolls⟩
    rw [hpool, hcall]
    rfl
  | q :: q' :: before, hthreads =>
    have hlength := congrArg List.length hthreads
    simp at hlength

/-- **The invariant holds in every state of a run** whose steps meet one of the two conditions. -/
theorem Coexisting.run {s : SharedConnection} {tr : List (Taken SharedConnection (Nat × Unit))}
    {C : SharedConnection → Nat × Unit → Prop} (htx : w.db.tx = none)
    (run : Run (SharedConnection.step env) C (SharedConnection.start bracket call w) tr s)
    (hout : outside = true → ∀ s e, C s e → writesOutside call s e)
    (hroll : outside = false → ∀ s e, C s e → rollsNothingBack env s e) :
    Coexisting outside bracket call w.db.tables s :=
  run.invariant ⟨_, _, rfl, Coexist.start htx bracket call⟩ fun s e _ h hC hs =>
    h.step (fun hr => hout hr s e hC) (fun hr => hroll hr s e hC) hs

/-- A write that returned true left the row. -/
theorem WriteAt.stored (h : WriteAt outside d₀ call (pure true) w.db) :
    call.stored d₀ w.db.tables := by
  cases h with
  | before waits has =>
    obtain ⟨t, q, ht, k, hprogram, -⟩ := call.program_shape d₀
    rw [hprogram] at waits
    cases waits
  | failed returns => cases returns
  | made spared has => exact has.1

theorem BracketAt.over {r : Bool} (h : BracketAt bracket (pure r) w.db) : w.db.tx = none := by
  cases h with
  | before waits closed => exact closed
  | closed none_begins closed => exact closed
  | inside none_begins ends => exact ends.elim

theorem Coexisting.stays {s : SharedConnection} (h : Coexisting outside bracket call d₀ s)
    (hok : s.1[1]? = some (pure true)) : call.stored d₀ s.2.db.tables ∧
      ∀ r, s.1[0]? = some (pure r) → s.2.db.tx = none := by
  obtain ⟨p, p', hpool, hcoexist⟩ := h
  rw [hpool] at hok ⊢
  obtain rfl := Option.some.inj hok
  refine ⟨hcoexist.write.stored, fun r hr => ?_⟩
  obtain rfl := Option.some.inj hr
  exact hcoexist.transaction.over

end Interleavings

/-! ## What stays in the database -/

/-- **A row whose write returned true stays in the database**, in every interleaving with a function that
opens a transaction and for every pattern of failures, if the row is written while no transaction is open
or none is rolled back: it is in the tables in every state after the call, and when the other thread has
returned too nothing is left that could take it back. -/
theorem writes_stay {env : Env} {bracket : Bracket} {call : WriteCall} {w : World}
    {s : SharedConnection} {tr : List (Taken SharedConnection (Nat × Unit))} (htx : w.db.tx = none)
    (run : Run (SharedConnection.step env) (writesOutside call)
        (SharedConnection.start bracket call w) tr s ∨
      Run (SharedConnection.step env) (rollsNothingBack env)
        (SharedConnection.start bracket call w) tr s)
    (hok : s.1[1]? = some (pure true)) : call.stored w.db.tables s.2.db.tables ∧
      ∀ r, s.1[0]? = some (pure r) → s.2.db.tx = none := by
  rcases run with run | run
  · have hinv : Coexisting true bracket call w.db.tables s :=
      Coexisting.run htx run (fun _ _ _ h => h) (by simp)
    exact hinv.stays hok
  · have hinv : Coexisting false bracket call w.db.tables s :=
      Coexisting.run htx run (by simp) (fun _ _ _ h => h)
    exact hinv.stays hok

/-- A database with two users. -/
def SharedConnection.users : Tables :=
  { Tables.empty with
    users := ⟨[⟨1, str "a", str "x", [], true⟩, ⟨2, str "b", str "y", [], true⟩], 3⟩ }

/-- Thread 1 writes before thread 0 opens its transaction. -/
theorem writes_stay_before : ∃ s : SharedConnection, s.results = [some true, some true] ∧
    (WriteCall.save_message 1 2 (str "hi") 0).stored SharedConnection.users s.2.db.tables := by
  have hexec : (Run.exec (Run.guard (SharedConnection.step Env.calm)
      fun s e => e.1 != 1 || s.2.db.tx.isNone)
      (.start (.create_group (str "g") 1) (.save_message 1 2 (str "hi") 0)
        (World.new SharedConnection.users))
      [(1, ()), (0, ()), (0, ()), (0, ()), (0, ()), (0, ()), (0, ())]).map SharedConnection.results
        = some [some true, some true] := by decide
  obtain ⟨s, hs, hresults⟩ := Option.map_eq_some_iff.mp hexec
  obtain ⟨tr, run, -⟩ := Run.of_exec hs
  refine ⟨s, hresults, (writes_stay rfl (.inl ((Run.of_guard run).mono fun s e h => ?_))
    (SharedConnection.of_results hresults rfl)).1⟩
  intro he _
  simpa [he] using h

/-- **A row whose write returned true can leave the database**: written inside the transaction of
another user's group, it goes with the group when adding the creator fails. -/
theorem writes_need_not_stay : ¬∀ (env : Env) (bracket : Bracket) (call : WriteCall) (w : World)
    (s : SharedConnection) (tr : List (Taken SharedConnection (Nat × Unit))), w.db.tx = none →
    Run (SharedConnection.step env) (fun _ _ => True) (SharedConnection.start bracket call w) tr s →
    s.1[1]? = some (pure true) → call.stored w.db.tables s.2.db.tables := by
  intro claim
  have hexec : (Run.exec (SharedConnection.step
        { Env.calm with sql_fails := fun n => decide (n = 3) })
      (.start (.create_group (str "g") 1) (.save_message 1 2 (str "hi") 0)
        (World.new SharedConnection.users))
      [(0, ()), (0, ()), (1, ()), (0, ()), (0, ())]).map
        (fun s => decide (s.results = [some false, some true] ∧ s.2.db.tables.messages = []))
          = some true := by decide
  obtain ⟨s, hs, hafter⟩ := Option.map_eq_some_iff.mp hexec
  obtain ⟨hresults, hmessages⟩ := of_decide_eq_true hafter
  obtain ⟨tr, run, -⟩ := Run.of_exec hs
  have hstored := claim _ _ _ _ _ _ rfl run (SharedConnection.of_results hresults rfl)
  change s.2.db.tables.messages = _ at hstored
  rw [hmessages] at hstored
  cases hstored

end ChatApp
