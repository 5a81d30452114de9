/-
`Views.lean` -- the server without what two users say to each other.

The view of the world from the connection `eve` leaves out the texts of the messages between `a` and `b`: in the table,
also the one that an open transaction would go back to, and in the queues of the two, of which it keeps how many
messages wait. Of the frames that were written it has those to `eve`. Everything else is in it as it is.

Most operations of the handlers overlook what the view leaves out: they answer the same, and leave the same view, in
any two worlds that look the same (`Op.innocent.blind`).
-/
import ChatApp.Lockstep
import ChatApp.Statements

set_option autoImplicit false

namespace ChatApp

open Prog PostgresPersistence handle_client

/-! ## The view -/

section View

variable (a b : Int)

/-- The row, without its text if it is one between `a` and `b`. -/
def MessageRow.hide (r : MessageRow) : MessageRow := if r.between a b then { r with content := [] } else r

/-- A table without these texts. -/
def Table.hide : (t : Table) → t.Ty → t.Ty
  | .messages, rows => rows.map (MessageRow.hide a b)
  | .users, x => x
  | .friends, x => x
  | .friend_requests, x => x
  | .groups, x => x
  | .group_members, x => x
  | .group_messages, x => x
  | .group_invites, x => x
  | .activity_logs, x => x

/-- The tables without these texts. -/
def Tables.hide (d : Tables) : Tables := { d with messages := d.messages.map (MessageRow.hide a b) }

/-- The database without these texts. -/
def Database.hide (d : Database) : Database where
  tables := d.tables.hide a b
  tx := d.tx.map fun t => { t with snapshot := t.snapshot.hide a b }

/-- What waits for a user; of what waits for `a` or `b`, how much. -/
def queued (q : UMap Int (List PendingMsg)) (uid : Int) : List (Option PendingMsg) :=
  (q.get uid).map fun m => if uid = a ∨ uid = b then none else some m

/-- The globals without the queues. -/
def ServerState.unqueued (s : ServerState) : ServerState := { s with g_offline_messages := ∅ }

/-- What the connection `eve` can learn of the world, and what that depends on. -/
@[ext] structure View where
  mem : ServerState
  queues : Int → List (Option PendingMsg)
  db : Database
  users_file : Bytes
  conns : UMap Int Int
  heard : List Frame
  ticks : Nat

/-- The view of the world from the connection `eve`. -/
def World.view (eve : Int) (w : World) : View where
  mem := w.mem.unqueued
  queues := queued a b w.mem.g_offline_messages
  db := w.db.hide a b
  users_file := w.users_file
  conns := w.conns
  heard := w.out.filter fun f => f.fd = eve
  ticks := w.ticks

/-- The two worlds look the same from `eve`. -/
def LookAlike (eve : Int) (w w' : World) : Prop := w.view a b eve = w'.view a b eve

end View

/-! ## The database -/

section Hide

variable {a b : Int} {β : Type}

theorem MessageRow.hide_hide (r : MessageRow) : (r.hide a b).hide a b = r.hide a b := by
  by_cases h : r.between a b = true
  · have hbetween : ({ r with content := [] } : MessageRow).between a b = true := h
    have hhide : r.hide a b = { r with content := [] } := if_pos h
    rw [hhide]
    exact if_pos hbetween
  · have hsame : r.hide a b = r := if_neg h
    rw [hsame, hsame]

theorem hide_rows (rows : List MessageRow) :
    (rows.map (MessageRow.hide a b)).map (MessageRow.hide a b) = rows.map (MessageRow.hide a b) := by
  rw [List.map_map]
  exact List.map_congr_left fun r _ => r.hide_hide

@[simp] theorem Tables.hide_hide (d : Tables) : (d.hide a b).hide a b = d.hide a b := by
  rw [hide, hide, hide_rows]

@[simp] theorem Database.hide_hide (d : Database) : (d.hide a b).hide a b = d.hide a b := by
  rw [hide, hide, Tables.hide_hide, Option.map_map]
  congr 1
  refine congrArg (fun f => d.tx.map f) (funext fun t => ?_)
  rw [Function.comp_apply, Tables.hide_hide]

@[simp] theorem Database.hide_aborted (d : Database) : (d.hide a b).aborted = d.aborted := by
  rw [aborted, aborted, hide, Option.map_map]
  rfl

/-- Replacing a table and leaving out the texts. -/
theorem Tables.put_hide (t : Table) (x : t.Ty) (d : Tables) :
    (t.put x d).hide a b = t.put (t.hide a b x) (d.hide a b) := by
  cases t <;> rfl

/-- What `ROLLBACK` restores, without the texts. -/
theorem Tables.restore_hide (now before : Tables) :
    (Database.restore now before).hide a b = Database.restore now (before.hide a b) := rfl

theorem Database.abort_hide (d : Database) : d.abort.hide a b = (d.hide a b).abort := by
  rw [abort, abort, hide, hide, Option.map_map, Option.map_map]
  rfl

/-- A function on the database that answers and works the same without the texts. -/
def Ignores (a b : Int) (f : Database → β × Database) : Prop :=
  ∀ d, (f (d.hide a b)).1 = (f d).1 ∧ (f (d.hide a b)).2.hide a b = (f d).2.hide a b

/-- A statement that answers and works the same without the texts. -/
def Statement.Ignores {t : Table} (a b : Int) (q : Statement t β) : Prop :=
  ∀ d : Tables, (q (d.hide a b)).1 = (q d).1 ∧ t.hide a b (q (d.hide a b)).2 = t.hide a b (q d).2

theorem hide_aborted_eq {d d' : Database} (h : d.hide a b = d'.hide a b) : d.aborted = d'.aborted := by
  rw [← Database.hide_aborted (a := a) (b := b) d, h, Database.hide_aborted]

/-- Two statements that answer the same, and leave the same table but for the texts. -/
theorem exec_hide {t : Table} {q q' : Statement t β} (fails : Bool) {d d' : Database} (h : d.hide a b = d'.hide a b)
    (hq : (q d.tables).1 = (q' d'.tables).1 ∧ t.hide a b (q d.tables).2 = t.hide a b (q' d'.tables).2) :
    (Database.exec t q fails d).1 = (Database.exec t q' fails d').1 ∧
      (Database.exec t q fails d).2.hide a b = (Database.exec t q' fails d').2.hide a b := by
  obtain ⟨hanswer, htable⟩ := hq
  have hafter : ({ d with tables := t.put (q d.tables).2 d.tables } : Database).hide a b =
      ({ d' with tables := t.put (q' d'.tables).2 d'.tables } : Database).hide a b := by
    have htx := congrArg Database.tx h
    have htables : d.tables.hide a b = d'.tables.hide a b := congrArg Database.tables h
    have hput : (t.put (q d.tables).2 d.tables).hide a b = (t.put (q' d'.tables).2 d'.tables).hide a b := by
      rw [Tables.put_hide, Tables.put_hide, htable, htables]
    exact congrArg₂ Database.mk hput htx
  unfold Database.exec
  rw [hide_aborted_eq h]
  split
  · exact ⟨rfl, h⟩
  split
  · exact ⟨rfl, by rw [Database.abort_hide, Database.abort_hide, h]⟩
  · dsimp only
    rw [hanswer]
    split
    · exact ⟨rfl, hafter⟩
    · exact ⟨rfl, by rw [Database.abort_hide, Database.abort_hide, hafter]⟩

theorem ignores_exec {t : Table} {q : Statement t β} (hq : q.Ignores a b) (fails : Bool) :
    Ignores a b (Database.exec t q fails) :=
  fun d => exec_hide fails d.hide_hide (hq d.tables)

/-- A `SELECT` leaves the texts as they are, whatever it finds. -/
theorem select_hide (q : Tables → β) (fails : Bool) {d d' : Database} (h : d.hide a b = d'.hide a b) :
    (Database.select q fails d).2.hide a b = (Database.select q fails d').2.hide a b := by
  unfold Database.select
  rw [hide_aborted_eq h]
  split
  · exact h
  split
  · rw [Database.abort_hide, Database.abort_hide, h]
  · exact h

theorem ignores_select {q : Tables → β} (hq : ∀ d, q (d.hide a b) = q d) (fails : Bool) :
    Ignores a b (Database.select q fails) := by
  refine fun d => ⟨?_, select_hide q fails d.hide_hide⟩
  unfold Database.select
  rw [Database.hide_aborted]
  split
  · rfl
  split
  · rfl
  · exact congrArg some (hq d.tables)

theorem ignores_begin (fails : Bool) : Ignores a b (Database.begin fails) := by
  intro d
  unfold Database.begin
  rw [Database.hide_aborted]
  split
  · exact ⟨rfl, d.hide_hide⟩
  · cases htx : d.tx with
    | none =>
      have hnone : (d.hide a b).tx = none := by
        rw [Database.hide, htx]
        rfl
      rw [hnone]
      refine ⟨rfl, ?_⟩
      rw [Database.hide, Database.hide]
      simp [Database.hide]
    | some t =>
      have hsome : (d.hide a b).tx = some { t with snapshot := t.snapshot.hide a b } := by
        rw [Database.hide, htx]
        rfl
      rw [hsome]
      exact ⟨rfl, d.hide_hide⟩

theorem ignores_rollback (fails : Bool) : Ignores a b (Database.rollback fails) := by
  intro d
  unfold Database.rollback
  cases htx : d.tx with
  | none =>
    have hnone : (d.hide a b).tx = none := by
      rw [Database.hide, htx]
      rfl
    rw [hnone]
    exact ⟨rfl, d.hide_hide⟩
  | some t =>
    have hsome : (d.hide a b).tx = some { t with snapshot := t.snapshot.hide a b } := by
      rw [Database.hide, htx]
      rfl
    rw [hsome]
    refine ⟨rfl, ?_⟩
    have hrestore : (Database.restore (d.tables.hide a b) (t.snapshot.hide a b)).hide a b =
        (Database.restore d.tables t.snapshot).hide a b := by
      rw [Tables.restore_hide, Tables.restore_hide, Tables.hide_hide]
      rfl
    exact congrArg (fun tables => Database.mk tables none) hrestore

theorem ignores_commit (fails : Bool) : Ignores a b (Database.commit fails) := by
  intro d
  unfold Database.commit
  rw [Database.hide_aborted]
  split
  · exact ⟨rfl, (ignores_rollback fails d).2⟩
  · refine ⟨rfl, ?_⟩
    have htables : (d.tables.hide a b).hide a b = d.tables.hide a b := d.tables.hide_hide
    exact congrArg (fun tables => Database.mk tables none) htables

/-! ## Statements -/

end Hide

/-! ## Operations that overlook it -/

/-- The operation does not depend on what the view leaves out. Statements are left to `Issues.ignores`. -/
@[simp] def Op.overlooks (a b : Int) {β : Type} : Op β → Prop
  | .read f => ∀ s : ServerState, f s.unqueued = f s
  | .modify .g_offline_messages f => ∀ q q', queued a b q = queued a b q' → queued a b (f q) = queued a b (f q')
  | .select q => ∀ d : Tables, q (d.hide a b) = q d
  | _ => True

/-- The same, of statements too. -/
@[simp] def Op.innocent (a b : Int) {β : Type} : Op β → Prop
  | .execute _ q => q.Ignores a b
  | o => o.overlooks a b

section Blind

variable {a b eve : Int} {β : Type} {w w' : World}

theorem LookAlike.mem (h : LookAlike a b eve w w') : w.mem.unqueued = w'.mem.unqueued := congrArg View.mem h

theorem LookAlike.queues (h : LookAlike a b eve w w') :
    queued a b w.mem.g_offline_messages = queued a b w'.mem.g_offline_messages := congrArg View.queues h

theorem LookAlike.db (h : LookAlike a b eve w w') : w.db.hide a b = w'.db.hide a b := congrArg View.db h

theorem LookAlike.conns (h : LookAlike a b eve w w') : w.conns = w'.conns := congrArg View.conns h

theorem LookAlike.heard (h : LookAlike a b eve w w') :
    (w.out.filter fun f => f.fd = eve) = w'.out.filter fun f => f.fd = eve := congrArg View.heard h

theorem LookAlike.ticks (h : LookAlike a b eve w w') : w.ticks = w'.ticks := congrArg View.ticks h

theorem LookAlike.users_file (h : LookAlike a b eve w w') : w.users_file = w'.users_file :=
  congrArg View.users_file h

/-- What is the same for the whole of a handler: who is online. -/
theorem LookAlike.online (h : LookAlike a b eve w w') : w.mem.g_online_clients = w'.mem.g_online_clients := by
  have hsame := congrArg ServerState.g_online_clients h.mem
  exact hsame

/-- Writing another variable leaves the queues alone. -/
theorem unqueued_modify {x : Var} (hx : x ≠ .g_offline_messages) (f : x.Ty → x.Ty) (s : ServerState) :
    (x.modify f s).unqueued = x.modify f s.unqueued ∧
      (x.modify f s).g_offline_messages = s.g_offline_messages := by
  cases x <;> first | exact ⟨rfl, rfl⟩ | exact absurd rfl hx

/-- A database operation that ignores the texts. -/
theorem mapDb_blind {f : Bool → Database → β × Database} (hf : ∀ fails, Ignores a b (f fails)) (env : Env)
    (h : LookAlike a b eve w w') :
    (w.mapDb (f (env.sql_fails w.ticks))).1 = (w'.mapDb (f (env.sql_fails w'.ticks))).1 ∧
      LookAlike a b eve (w.mapDb (f (env.sql_fails w.ticks))).2 (w'.mapDb (f (env.sql_fails w'.ticks))).2 := by
  rw [← h.ticks]
  obtain ⟨hleft, hleft'⟩ := hf (env.sql_fails w.ticks) w.db
  obtain ⟨hright, hright'⟩ := hf (env.sql_fails w.ticks) w'.db
  rw [← h.db] at hright hright'
  refine ⟨hleft.symm.trans hright, ?_⟩
  refine View.ext h.mem h.queues (hleft'.symm.trans hright') h.users_file h.conns h.heard ?_
  exact congrArg (· + 1) h.ticks

/-- **What overlooks the texts does not see them**: it answers the same, and leaves the same view. -/
theorem Op.innocent.blind {o : Op β} (ho : o.innocent a b) (env : Env) (h : LookAlike a b eve w w') :
    (o.exec env w).1 = (o.exec env w').1 ∧ LookAlike a b eve (o.exec env w).2 (o.exec env w').2 := by
  cases o with
  | lock | unlock => exact ⟨rfl, h⟩
  | read f => exact ⟨(ho w.mem).symm.trans ((congrArg f h.mem).trans (ho w'.mem)), h⟩
  | modify x f =>
    refine ⟨rfl, ?_⟩
    by_cases hx : x = .g_offline_messages
    · subst hx
      exact View.ext h.mem (ho _ _ h.queues) h.db h.users_file h.conns h.heard h.ticks
    · obtain ⟨hmem, hqueue⟩ := unqueued_modify hx f w.mem
      obtain ⟨hmem', hqueue'⟩ := unqueued_modify hx f w'.mem
      refine View.ext ?_ ?_ h.db h.users_file h.conns h.heard h.ticks
      · exact hmem.trans ((congrArg (x.modify f) h.mem).trans hmem'.symm)
      · exact (congrArg (queued a b) hqueue).trans (h.queues.trans (congrArg (queued a b) hqueue').symm)
  | execute t q => exact mapDb_blind (fun fails => ignores_exec ho fails) env h
  | select q => exact mapDb_blind (fun fails => ignores_select ho fails) env h
  | begin => exact mapDb_blind ignores_begin env h
  | commit => exact mapDb_blind ignores_commit env h
  | rollback => exact mapDb_blind ignores_rollback env h
  | send fd type payload userId =>
    have hsent : (!env.send_fails w.ticks) = !env.send_fails w'.ticks := by
      rw [h.ticks]
    refine ⟨hsent, View.ext h.mem h.queues h.db h.users_file h.conns ?_ (congrArg (· + 1) h.ticks)⟩
    show List.filter _ (w.out ++ _) = List.filter _ (w'.out ++ _)
    rw [List.filter_append, List.filter_append, h.heard, hsent]
  | now_ms =>
    exact ⟨congrArg env.clock_ms h.ticks,
      View.ext h.mem h.queues h.db h.users_file h.conns h.heard (congrArg (· + 1) h.ticks)⟩
  | set_user fd uid =>
    refine ⟨rfl, View.ext h.mem h.queues h.db h.users_file ?_ h.heard h.ticks⟩
    exact congrArg (fun m => m.set fd uid) h.conns
  | close fd =>
    exact ⟨rfl, View.ext h.mem h.queues h.db h.users_file (congrArg (fun m => m.erase fd) h.conns) h.heard h.ticks⟩
  | write_file contents => exact ⟨rfl, View.ext h.mem h.queues h.db rfl h.conns h.heard h.ticks⟩

end Blind

/-! ## Handlers that overlook it -/

section Handlers

variable {a b : Int}

section Reads

variable (s : ServerState)

@[simp] theorem unqueued_users_by_name : s.unqueued.g_users_by_name = s.g_users_by_name := rfl

@[simp] theorem unqueued_users_by_id : s.unqueued.g_users_by_id = s.g_users_by_id := rfl

@[simp] theorem unqueued_next_user_id : s.unqueued.g_next_user_id = s.g_next_user_id := rfl

@[simp] theorem unqueued_friends : s.unqueued.g_friends = s.g_friends := rfl

@[simp] theorem unqueued_friend_requests : s.unqueued.g_friend_requests = s.g_friend_requests := rfl

@[simp] theorem unqueued_online_clients : s.unqueued.g_online_clients = s.g_online_clients := rfl

@[simp] theorem unqueued_groups : s.unqueued.g_groups = s.g_groups := rfl

@[simp] theorem unqueued_next_group_id : s.unqueued.g_next_group_id = s.g_next_group_id := rfl

@[simp] theorem unqueued_isFriend : s.unqueued.isFriend = s.isFriend := rfl

@[simp] theorem unqueued_online_fd : s.unqueued.online_fd = s.online_fd := rfl

@[simp] theorem unqueued_username_or : s.unqueued.username_or = s.username_or := rfl

@[simp] theorem unqueued_hasMember : s.unqueued.hasMember = s.hasMember := rfl

@[simp] theorem unqueued_hasAdmin : s.unqueued.hasAdmin = s.hasAdmin := rfl

@[simp] theorem unqueued_search_item : search_item s.unqueued = search_item s := rfl

@[simp] theorem unqueued_user_item : user_item s.unqueued = user_item s := rfl

@[simp] theorem unqueued_friend_items (me : Int) : friend_items me s.unqueued = friend_items me s := rfl

end Reads

section Parts

variable {S : List Field}

end Parts

section Cases

variable (pg : Bool) (fd me rid : Int)

end Cases

end Handlers

end ChatApp
