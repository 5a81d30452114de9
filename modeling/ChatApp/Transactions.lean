/-
`Transactions.lean` -- what the two functions of `PostgresPersistence` that open a
transaction do to the database, and from it the effect of every command.

Both functions end their transaction on every path, so between two requests none is
open. What they leave behind is either the whole change or, up to the numbers a
sequence has given out, no change: the tables they do not mean to write are as they
were even when they roll back. `perform_effect` is the frame rule for commands with
that taken into account.
-/
import ChatApp.Server

set_option autoImplicit false

namespace ChatApp

open Prog PostgresPersistence

/-! ## Statements -/

theorem Table.put_get (t : Table) (d : Tables) : t.put (t.get d) d = d := by
  cases t <;> rfl

/-- With no transaction open there is nothing to abort. -/
theorem Database.exec_of_none {β : Type} {d : Database} (htx : d.tx = none) (t : Table)
    (q : Statement t β) (fails : Bool) :
    Database.exec t q fails d =
      if fails then (none, d) else ((q d.tables).1, ⟨t.put (q d.tables).2 d.tables, none⟩) := by
  obtain ⟨T, tx⟩ := d
  subst htx
  cases fails with
  | true => rfl
  | false =>
    cases hq : (q T).1 <;> simp [Database.exec, Database.aborted, Database.abort, hq]

section Operations

variable {S : List Field} {β : Type} {env : Env} {w : World} {T snap : Tables} {ab : Bool}

/-- A statement outside a transaction. -/
theorem execute_of_none (t : Table) (q : Statement t β) (h : .table t ∈ S) (htx : w.db.tx = none) :
    Ensures env w (execute t q h : Prog S (Option β)) fun r w' =>
      (env.sql_fails w.ticks = true ∧ r = none ∧ w'.db = w.db) ∨
        (env.sql_fails w.ticks = false ∧ r = (q w.db.tables).1 ∧
          w'.db = ⟨t.put (q w.db.tables).2 w.db.tables, none⟩) := by
  rw [Ensures, run_execute, World.mapDb, Database.exec_of_none htx]
  cases env.sql_fails w.ticks with
  | true => exact .inl ⟨rfl, rfl, rfl⟩
  | false => exact .inr ⟨rfl, rfl, rfl⟩

/-- A query outside a transaction changes nothing, and fails only when the connection
does. -/
theorem select_of_none (q : Tables → β) (htx : w.db.tx = none) :
    Ensures env w (select q : Prog S (Option β)) fun r w' => w'.db = w.db ∧
      ((env.sql_fails w.ticks = true ∧ r = none) ∨
        (env.sql_fails w.ticks = false ∧ r = some (q w.db.tables))) := by
  obtain ⟨mem, ⟨T, tx⟩, users_file, conns, out, ticks⟩ := w
  subst htx
  rw [Ensures, run_select]
  show (World.mapDb _ (Database.select q (env.sql_fails ticks))).2.db = _ ∧ _
  cases env.sql_fails ticks with
  | true => exact ⟨rfl, .inl ⟨rfl, rfl⟩⟩
  | false => exact ⟨rfl, .inr ⟨rfl, rfl⟩⟩

/-- A query where nothing fails. -/
theorem select_ensures (q : Tables → β) (hs : env.SqlSucceeds) (htx : w.db.tx = none) :
    Ensures env w (select q : Prog S (Option β)) fun r w' =>
      w'.mem = w.mem ∧ w'.db = w.db ∧ r = some (q w.db.tables) := by
  obtain ⟨hdb, ⟨hfails, -⟩ | ⟨-, hr⟩⟩ : Ensures env w (select q : Prog S (Option β)) _ :=
    select_of_none q htx
  · exact absurd hfails (by simp [hs w.ticks])
  · exact ⟨rfl, hdb, hr⟩

theorem begin_ensures (h : .tx ∈ S) (htx : w.db.tx = none) :
    Ensures env w (begin h : Prog S Bool) fun ok w' =>
      (ok = true ∧ w'.db = ⟨w.db.tables, some ⟨w.db.tables, false⟩⟩) ∨
        (ok = false ∧ ¬env.SqlSucceeds ∧ w'.db = w.db) := by
  have hab : w.db.aborted = false := by rw [Database.aborted, htx]; rfl
  rw [Ensures, run_begin]
  cases hf : env.sql_fails w.ticks with
  | true =>
    refine .inr ⟨by simp [World.mapDb, Database.begin], fun hs => ?_,
      by simp [World.mapDb, Database.begin]⟩
    exact absurd (hs w.ticks) (by simp [hf])
  | false => exact .inl (by simp [World.mapDb, Database.begin, hab, htx])

/-- A statement in a transaction that is not aborted. -/
theorem execute_ensures (t : Table) (q : Statement t β) (h : .table t ∈ S)
    (hdb : w.db = ⟨T, some ⟨snap, false⟩⟩) :
    Ensures env w (execute t q h : Prog S (Option β)) fun r w' =>
      (∃ b, r = some b ∧ (q T).1 = some b ∧ w'.db = ⟨t.put (q T).2 T, some ⟨snap, false⟩⟩) ∨
        (r = none ∧ (env.SqlSucceeds → (q T).1 = none) ∧
          ∃ x, (x = t.get T ∨ x = (q T).2) ∧ w'.db = ⟨t.put x T, some ⟨snap, true⟩⟩) := by
  rw [Ensures, run_execute, World.mapDb, hdb]
  cases hf : env.sql_fails w.ticks with
  | true =>
    refine .inr ⟨rfl, fun hs => absurd (hs w.ticks) (by simp [hf]), t.get T, .inl rfl, ?_⟩
    rw [Table.put_get]
    rfl
  | false =>
    cases hq : (q T).1 with
    | some b =>
      exact .inl ⟨b, by simp [Database.exec, Database.aborted, hq], rfl,
        by simp [Database.exec, Database.aborted, hq]⟩
    | none =>
      exact .inr ⟨by simp [Database.exec, Database.aborted, hq], fun _ => rfl, (q T).2, .inr rfl,
        by simp [Database.exec, Database.aborted, hq, Database.abort]⟩

/-- A statement in an aborted transaction. -/
theorem execute_aborted (t : Table) (q : Statement t β) (h : .table t ∈ S)
    (hdb : w.db = ⟨T, some ⟨snap, true⟩⟩) :
    Ensures env w (execute t q h : Prog S (Option β)) fun r w' => r = none ∧ w'.db = w.db := by
  rw [Ensures, run_execute, World.mapDb, hdb]
  exact ⟨rfl, rfl⟩

theorem rollback_ensures (h : all_tables ⊆ S) (hdb : w.db = ⟨T, some ⟨snap, ab⟩⟩) :
    Ensures env w (rollback h : Prog S Bool) fun _ w' =>
      w'.db = ⟨Database.restore T snap, none⟩ := by
  rw [Ensures, run_rollback, World.mapDb, hdb]
  rfl

/-- `ROLLBACK` without a transaction is a warning. -/
theorem rollback_of_none (h : all_tables ⊆ S) (htx : w.db.tx = none) :
    Ensures env w (rollback h : Prog S Bool) fun _ w' => w'.db = w.db := by
  rw [Ensures, run_rollback, World.mapDb, Database.rollback, htx]

theorem commit_ensures (h : all_tables ⊆ S) (hdb : w.db = ⟨T, some ⟨snap, false⟩⟩) :
    Ensures env w (commit h : Prog S Bool) fun ok w' =>
      (ok = true ∧ w'.db = ⟨T, none⟩) ∨
        (ok = false ∧ ¬env.SqlSucceeds ∧ w'.db = ⟨Database.restore T snap, none⟩) := by
  rw [Ensures, run_commit, World.mapDb, hdb]
  cases hf : env.sql_fails w.ticks with
  | true => exact .inr ⟨rfl, fun hs => absurd (hs w.ticks) (by simp [hf]), rfl⟩
  | false => exact .inl ⟨rfl, rfl⟩

/-- Committing an aborted transaction rolls it back. -/
theorem commit_aborted (h : all_tables ⊆ S) (hdb : w.db = ⟨T, some ⟨snap, true⟩⟩) :
    Ensures env w (commit h : Prog S Bool) fun _ w' =>
      w'.db = ⟨Database.restore T snap, none⟩ := by
  rw [Ensures, run_commit, World.mapDb, hdb]
  cases env.sql_fails w.ticks <;> rfl

end Operations

/-! ## `log_activity` -/

section Log

variable {env : Env} {w : World} {T snap : Tables} (uid target : Int)

/-- A log entry that the foreign keys of `activity_logs` allow. -/
def loggable (d : Tables) (uid target : Int) : Bool :=
  d.hasUser uid && (target ≤ 0 || d.hasUser target)

/-- Outside a transaction an entry that fails does no harm. -/
theorem log_activity_ensures (htx : w.db.tx = none) :
    Ensures env w (log_activity uid target) fun _ w' => w'.db = w.db := by
  rw [Ensures, log_activity, run_bind, run_execute, run_pure]
  obtain ⟨mem, ⟨T, tx⟩, users_file, conns, out, ticks⟩ := w
  subst htx
  simp only [World.mapDb, Database.exec, Database.aborted, Database.abort, Option.map_none,
    Option.getD_none, Bool.false_eq_true, if_false]
  split
  · rfl
  · split <;> rfl

/-- A statement that is logged, outside a transaction: it is executed, or the tables are
as they were. -/
theorem logged_ensures {S : List Field} {β : Type} {t : Table} {q : Statement t β}
    {h : .table t ∈ S} {hl : [.table .activity_logs] ⊆ S} (htx : w.db.tx = none)
    (hrefused : (q w.db.tables).1 = none → (q w.db.tables).2 = t.get w.db.tables) :
    Ensures env w (execute t q h >>= fun res => if res.isNone then pure false
      else (log_activity uid target).lift hl >>= fun _ => pure true : Prog S Bool)
      fun ok w' => w'.db.tx = none ∧
        ((ok = true ∧ (∃ b, (q w.db.tables).1 = some b) ∧
            w'.db.tables = t.put (q w.db.tables).2 w.db.tables) ∨
          (ok = false ∧ w'.db.tables = w.db.tables ∧
            (env.SqlSucceeds → (q w.db.tables).1 = none))) := by
  refine (execute_of_none t q h htx).bind fun r w₁ h₁ => ?_
  rcases h₁ with ⟨hfails, rfl, hdb⟩ | ⟨-, rfl, hdb⟩
  · refine ensures_pure ⟨by rw [hdb, htx], .inr ⟨rfl, by rw [hdb], fun hs => ?_⟩⟩
    exact absurd hfails (by simp [hs w.ticks])
  refine ensures_ite (fun hnone => ?_) fun hsome => ?_
  · have hnone : (q w.db.tables).1 = none := Option.isNone_iff_eq_none.mp hnone
    refine ensures_pure ⟨by rw [hdb], .inr ⟨rfl, ?_, fun _ => hnone⟩⟩
    rw [hdb, hrefused hnone, Table.put_get]
  · refine ((log_activity_ensures _ _ (by rw [hdb])).lift hl).bind fun _ w₂ h₂ => ensures_pure ?_
    have hanswer : ∃ b, (q w.db.tables).1 = some b :=
      Option.ne_none_iff_exists'.mp fun hnone => hsome (Option.isNone_iff_eq_none.mpr hnone)
    exact ⟨by rw [h₂, hdb], .inl ⟨rfl, hanswer, by rw [h₂, hdb]⟩⟩

/-- Inside one it aborts the transaction. -/
theorem log_activity_in_tx (hdb : w.db = ⟨T, some ⟨snap, false⟩⟩) :
    Ensures env w (log_activity uid target) fun _ w' =>
      ∃ ab, w'.db = ⟨T, some ⟨snap, ab⟩⟩ ∧
        (env.SqlSucceeds → loggable T uid target = true → ab = false) := by
  refine (execute_ensures _ _ _ hdb).bind fun r w' hr => ?_
  rcases hr with ⟨b, rfl, -, hdb'⟩ | ⟨rfl, hfail, x, -, hdb'⟩
  · exact ⟨false, hdb', fun _ _ => rfl⟩
  · refine ⟨true, hdb', fun hs hlog => ?_⟩
    have hnone := hfail hs
    rw [insert_activity_log] at hnone
    rw [loggable] at hlog
    exact absurd hnone (by simp [hlog])

end Log

/-! ## `accept_friend_request` -/

section Accept

variable {env : Env} {w : World} {T snap : Tables} (a b : Int)

/-- The row of `friends` for two users. -/
def friendRow (a b : Int) : FriendRow :=
  if a > b then ⟨b, a⟩ else ⟨a, b⟩

/-- `insert_friend` of two users in canonical order, as `add_friend` calls it. -/
def insert_pair (a b : Int) : Statement .friends Unit :=
  insert_friend (friendRow a b).user_id_1 (friendRow a b).user_id_2

/-- The tables after an accepted request. -/
def Tables.accepted (d : Tables) (a b : Int) : Tables :=
  { d with
    friends := (insert_pair a b d).2
    friend_requests := d.friend_requests.filter fun r =>
      !(r.from_user_id = a && r.to_user_id = b) }

theorem add_friend_in_tx (hdb : w.db = ⟨T, some ⟨snap, false⟩⟩) :
    Ensures env w (add_friend a b) fun ok w' =>
      (ok = true ∧ (insert_pair a b T).1 = some () ∧
        ∃ ab, w'.db = ⟨{ T with friends := (insert_pair a b T).2 }, some ⟨snap, ab⟩⟩ ∧
          (env.SqlSucceeds → T.hasUser a = true → T.hasUser b = true → ab = false)) ∨
      (ok = false ∧ (env.SqlSucceeds → (insert_pair a b T).1 = none) ∧
        ∃ x, w'.db = ⟨{ T with friends := x }, some ⟨snap, true⟩⟩) := by
  have hlo : (if a > b then b else a) = (friendRow a b).user_id_1 := by
    unfold friendRow; split <;> rfl
  have hhi : (if a > b then a else b) = (friendRow a b).user_id_2 := by
    unfold friendRow; split <;> rfl
  rw [add_friend, hlo, hhi]
  refine (execute_ensures .friends (insert_pair a b) _ hdb).bind fun r w' hr => ?_
  rcases hr with ⟨u, rfl, hq, hdb'⟩ | ⟨rfl, hfail, x, -, hdb'⟩
  · refine ((log_activity_in_tx _ _ hdb').lift _).bind fun _ w'' hlog => ensures_pure (.inl ?_)
    obtain ⟨ab, hdb'', hab⟩ := hlog
    refine ⟨rfl, hq, ab, hdb'', fun hs ha hb => hab hs ?_⟩
    have hlogged : loggable T (friendRow a b).user_id_1 (friendRow a b).user_id_2 = true := by
      unfold friendRow loggable
      split <;> simp [ha, hb]
    exact hlogged
  · exact ensures_pure (.inr ⟨rfl, hfail, x, hdb'⟩)

/-- **`accept_friend_request` is atomic**: the request is accepted as a whole or the
tables are as they were. With statements that succeed it fails only when the friends
row is refused. -/
theorem accept_friend_request_ensures (htx : w.db.tx = none) :
    Ensures env w (accept_friend_request a b) fun ok w' => w'.db.tx = none ∧
      ((ok = true ∧ (insert_pair a b w.db.tables).1 = some () ∧
          w'.db.tables = w.db.tables.accepted a b) ∨
        (ok = false ∧ w'.db.tables = w.db.tables ∧
          (env.SqlSucceeds → w.db.tables.hasUser a = true → w.db.tables.hasUser b = true →
            (insert_pair a b w.db.tables).1 = none))) := by
  -- A rollback restores the tables: no sequence was touched.
  have hrestore : ∀ x y, Database.restore { w.db.tables with friends := x, friend_requests := y }
      w.db.tables = w.db.tables := fun _ _ => rfl
  refine (begin_ensures _ htx).bind fun begun w₁ h₁ => ?_
  rcases h₁ with ⟨rfl, h₁⟩ | ⟨rfl, hns, h₁⟩
  · refine ((add_friend_in_tx a b h₁).lift _).bind fun added w₂ h₂ => ?_
    rcases h₂ with ⟨rfl, hins, ab, h₂, hab⟩ | ⟨rfl, hfail, x, h₂⟩
    · cases ab with
      | true =>
        -- the log entry has aborted the transaction: the delete fails
        refine (execute_aborted _ _ _ h₂).bind fun r w₃ h₃ => ?_
        obtain ⟨rfl, h₃⟩ := h₃
        refine (rollback_ensures _ (h₃.trans h₂)).bind fun _ w₄ h₄ => ensures_pure ?_
        refine ⟨by rw [h₄], .inr ⟨rfl, by rw [h₄]; rfl, fun hs ha hb => ?_⟩⟩
        exact absurd (hab hs ha hb) (by simp)
      | false =>
        refine (execute_ensures _ _ _ h₂).bind fun r w₃ h₃ => ?_
        rcases h₃ with ⟨u, rfl, -, h₃⟩ | ⟨rfl, hfail, x, -, h₃⟩
        · refine (commit_ensures _ h₃).bind fun ok w₄ h₄ => ?_
          rcases h₄ with ⟨rfl, h₄⟩ | ⟨rfl, hns, h₄⟩
          · refine ((log_activity_ensures _ _ (by rw [h₄])).lift _).bind fun _ w₅ h₅ =>
              ensures_pure ?_
            exact ⟨by rw [h₅, h₄], .inl ⟨rfl, hins, by rw [h₅, h₄]; rfl⟩⟩
          · refine (rollback_of_none _ (by rw [h₄])).bind fun _ w₅ h₅ => ensures_pure ?_
            exact ⟨by rw [h₅, h₄], .inr ⟨rfl, by rw [h₅, h₄]; rfl, fun hs => absurd hs hns⟩⟩
        · refine (rollback_ensures _ h₃).bind fun _ w₄ h₄ => ensures_pure ?_
          refine ⟨by rw [h₄], .inr ⟨rfl, by rw [h₄]; rfl, fun hs _ _ => ?_⟩⟩
          exact absurd (hfail hs) (by simp [delete_friend_request])
    · refine (rollback_ensures _ h₂).bind fun _ w₃ h₃ => ensures_pure ?_
      exact ⟨by rw [h₃], .inr ⟨rfl, by rw [h₃]; rfl, fun hs _ _ => hfail hs⟩⟩
  · exact ensures_pure ⟨by rw [h₁]; exact htx, .inr ⟨rfl, by rw [h₁], fun hs => absurd hs hns⟩⟩

end Accept

/-! ## `create_group` -/

section Create

variable {env : Env} {w : World} {T snap : Tables} (name : Bytes) (creator_id : Int)

/-- The tables with the new group's row. -/
def Tables.withGroupRow (d : Tables) (name : Bytes) (creator_id : Int) : Tables :=
  { d with groups :=
    ⟨d.groups.rows ++ [⟨d.groups.next, escape_string name, creator_id⟩], d.groups.next + 1⟩ }

/-- The tables after a group was created: the group's row, and its creator's. -/
def Tables.withGroup (d : Tables) (name : Bytes) (creator_id : Int) : Tables :=
  { d.withGroupRow name creator_id with
    group_members :=
      (insert_group_member d.groups.next creator_id (d.withGroupRow name creator_id)).2 }

/-- A refused statement on `groups` has at most taken a number. -/
def Tables.groupsNext (d d' : Tables) : Prop :=
  ∃ n, d.groups.next ≤ n ∧ d' = { d with groups := ⟨d.groups.rows, n⟩ }

theorem add_group_member_in_tx (gid uid : Int) (hdb : w.db = ⟨T, some ⟨snap, false⟩⟩) :
    Ensures env w (add_group_member gid uid) fun ok w' =>
      (ok = true ∧ (insert_group_member gid uid T).1 = some () ∧
        ∃ ab, w'.db = ⟨{ T with group_members := (insert_group_member gid uid T).2 },
            some ⟨snap, ab⟩⟩ ∧
          (env.SqlSucceeds → T.hasUser uid = true → ab = false)) ∨
      (ok = false ∧ (env.SqlSucceeds → (insert_group_member gid uid T).1 = none) ∧
        ∃ x, w'.db = ⟨{ T with group_members := x }, some ⟨snap, true⟩⟩) := by
  refine (execute_ensures _ _ _ hdb).bind fun r w' hr => ?_
  rcases hr with ⟨u, rfl, hq, hdb'⟩ | ⟨rfl, hfail, x, -, hdb'⟩
  · refine ((log_activity_in_tx _ _ hdb').lift _).bind fun _ w'' hlog => ensures_pure (.inl ?_)
    obtain ⟨ab, hdb'', hab⟩ := hlog
    refine ⟨rfl, hq, ab, hdb'', fun hs huid => hab hs ?_⟩
    have hlogged : loggable T uid 0 = true := by simp [loggable, huid]
    exact hlogged
  · exact ensures_pure (.inr ⟨rfl, hfail, x, hdb'⟩)

theorem insert_group_some {name : Bytes} {creator_id gid : Int} {d : Tables}
    (h : (insert_group name creator_id d).1 = some gid) :
    gid = d.groups.next ∧ d.hasUser creator_id = true ∧
      (insert_group name creator_id d).2
        = ⟨d.groups.rows ++ [⟨d.groups.next, name, creator_id⟩], d.groups.next + 1⟩ := by
  unfold insert_group at h ⊢
  split at h
  · next hu => exact ⟨(Option.some.inj h).symm, hu, by rw [if_pos hu]⟩
  · exact absurd h (by simp)

theorem insert_group_none {name : Bytes} {creator_id : Int} {d : Tables}
    (h : (insert_group name creator_id d).1 = none) : d.hasUser creator_id = false := by
  unfold insert_group at h
  split at h
  · exact absurd h (by simp)
  · next hu => simpa using hu

/-- The sequence never goes back. -/
theorem insert_group_next (name : Bytes) (creator_id : Int) (d : Tables) :
    (insert_group name creator_id d).2.next = d.groups.next + 1 := by
  unfold insert_group
  split <;> rfl

/-- The creator's row is never refused. -/
theorem insert_creator_some {name : Bytes} {creator_id : Int} {d : Tables}
    (h : d.hasUser creator_id = true) :
    (insert_group_member d.groups.next creator_id (d.withGroupRow name creator_id)).1 = some () := by
  have huser : (d.withGroupRow name creator_id).hasUser creator_id = true := h
  have hgroup : (d.withGroupRow name creator_id).hasGroup d.groups.next = true := by
    simp [Tables.hasGroup, Tables.withGroupRow]
  unfold insert_group_member
  split
  · rfl
  · rw [huser, hgroup]
    rfl

/-- **`create_group` is atomic**, but for the number it takes. An id it returns was
given to a user, even when the group was then rolled back. With statements that succeed it
fails only for a creator that is no user. -/
theorem create_group_ensures (htx : w.db.tx = none) :
    Ensures env w (create_group name creator_id) fun gid w' => w'.db.tx = none ∧
      ((gid = some w.db.tables.groups.next ∧ w.db.tables.hasUser creator_id = true ∧
          w'.db.tables = w.db.tables.withGroup name creator_id) ∨
        (w.db.tables.groupsNext w'.db.tables ∧
          (∀ g, gid = some g → g = w.db.tables.groups.next ∧
            w.db.tables.hasUser creator_id = true) ∧
          (env.SqlSucceeds → w.db.tables.hasUser creator_id = false ∧ gid = none))) := by
  have hnext : ∀ x, w.db.tables.groupsNext (Database.restore
      { w.db.tables.withGroupRow name creator_id with group_members := x } w.db.tables) :=
    fun x => ⟨w.db.tables.groups.next + 1, by omega, rfl⟩
  refine (begin_ensures _ htx).bind fun begun w₁ h₁ => ?_
  rcases h₁ with ⟨rfl, h₁⟩ | ⟨rfl, hns, h₁⟩
  · refine (execute_ensures _ _ _ h₁).bind fun gid w₂ h₂ => ?_
    rcases h₂ with ⟨gid, rfl, hq, h₂⟩ | ⟨rfl, hfail, x, hx, h₂⟩
    · obtain ⟨rfl, huser, hrows⟩ := insert_group_some hq
      rw [hrows] at h₂
      replace h₂ : w₂.db = ⟨w.db.tables.withGroupRow name creator_id,
        some ⟨w.db.tables, false⟩⟩ := h₂
      refine ((add_group_member_in_tx _ _ h₂).lift _).bind fun added w₃ h₃ => ?_
      rcases h₃ with ⟨rfl, hins, ab, h₃, hab⟩ | ⟨rfl, hfail, x, h₃⟩
      · cases ab with
        | true =>
          -- the log entry has aborted the transaction: the commit rolls it back
          refine (commit_aborted _ h₃).bind fun ok w₄ h₄ => ?_
          have hrolled : w₄.db.tx = none ∧ w.db.tables.groupsNext w₄.db.tables := by
            rw [h₄]
            exact ⟨rfl, hnext _⟩
          have hnot : ¬env.SqlSucceeds := fun hs => absurd (hab hs huser) (by simp)
          refine ensures_ite (fun _ => ?_) fun _ => ?_
          · refine (rollback_of_none _ hrolled.1).bind fun _ w₅ h₅ => ensures_pure ?_
            rw [h₅]
            exact ⟨hrolled.1, .inr ⟨hrolled.2, fun _ h => (nomatch h), fun hs => absurd hs hnot⟩⟩
          · refine ((log_activity_ensures _ _ hrolled.1).lift _).bind fun _ w₅ h₅ =>
              ensures_pure ?_
            rw [h₅]
            exact ⟨hrolled.1, .inr ⟨hrolled.2, fun _ h => ⟨(Option.some.inj h).symm, huser⟩,
              fun hs => absurd hs hnot⟩⟩
        | false =>
          refine (commit_ensures _ h₃).bind fun ok w₄ h₄ => ?_
          rcases h₄ with ⟨rfl, h₄⟩ | ⟨rfl, hns, h₄⟩
          · refine ((log_activity_ensures _ _ (by rw [h₄])).lift _).bind fun _ w₅ h₅ =>
              ensures_pure ?_
            rw [h₅, h₄]
            exact ⟨rfl, .inl ⟨rfl, huser, rfl⟩⟩
          · refine (rollback_of_none _ (by rw [h₄])).bind fun _ w₅ h₅ => ensures_pure ?_
            rw [h₅, h₄]
            exact ⟨rfl, .inr ⟨hnext _, fun _ h => (nomatch h), fun hs => absurd hs hns⟩⟩
      · refine (rollback_ensures _ h₃).bind fun _ w₄ h₄ => ensures_pure ?_
        rw [h₄]
        refine ⟨rfl, .inr ⟨hnext _, fun _ h => (nomatch h), fun hs => ?_⟩⟩
        rw [Option.getD_some, insert_creator_some huser] at hfail
        exact absurd (hfail hs) (by simp)
    · refine (rollback_ensures _ h₂).bind fun _ w₃ h₃ => ensures_pure ?_
      rw [h₃]
      refine ⟨rfl, .inr ⟨?_, fun _ h => (nomatch h),
        fun hs => ⟨insert_group_none (hfail hs), rfl⟩⟩⟩
      rcases hx with rfl | rfl
      · exact ⟨_, le_rfl, rfl⟩
      · refine ⟨_, ?_, rfl⟩
        show w.db.tables.groups.next ≤ (insert_group _ _ w.db.tables).2.next
        rw [insert_group_next]
        omega
  · refine ensures_pure ?_
    rw [h₁]
    exact ⟨htx, .inr ⟨⟨_, le_rfl, rfl⟩, fun _ h => (nomatch h), fun hs => absurd hs hns⟩⟩

end Create

/-! ## The effect of a command -/

open handle_client

/-- What `FRIEND_ACCEPT` means to write. -/
abbrev accept_effect : List Field :=
  [.var .g_friends, .var .g_friend_requests, .out, .table .friends, .table .friend_requests,
    .table .activity_logs]

/-- What `CREATE_GROUP` means to write. -/
abbrev create_effect : List Field :=
  .var .g_next_group_id :: .table .groups :: .table .group_members :: .table .activity_logs
    :: broadcast_writes

/-- What a command may write when no transaction is open before it: as
`Command.writes`, but a transaction counts for the tables it means to write. -/
def Command.effect : Command → List Field
  | .friend_accept _ => accept_effect
  | .create_group .. => create_effect
  | c => c.writes

section Effect

variable {env : Env} {w : World}

/-- `accept_friend_request` writes `friends` and `friend_requests` only. -/
theorem accept_friend_request_effect (a b : Int) (htx : w.db.tx = none) {x : Field}
    (hx : x ∉ [Field.table .friends, .table .friend_requests, .table .activity_logs]) :
    x.Same w ((accept_friend_request a b).run env w).2 := by
  have hspec : Ensures env w (accept_friend_request a b) fun _ w' => w'.db.tx = none ∧
      ∃ f r, w'.db.tables = { w.db.tables with friends := f, friend_requests := r } := by
    refine (accept_friend_request_ensures a b htx).mono fun ok w' h => ⟨h.1, ?_⟩
    rcases h.2 with ⟨-, -, h⟩ | ⟨-, h, -⟩
    · exact ⟨_, _, h⟩
    · exact ⟨_, _, h⟩
  obtain ⟨htx', f, r, htables⟩ := hspec
  cases x with
  | tx => exact fun _ => htx'
  | table t =>
    show t.get _ = t.get _
    rw [htables]
    cases t <;> first | rfl | exact absurd (by simp) hx
  | _ => exact run_frame env _ w (by simp [all_tables])

variable (env) in
/-- `create_group` writes `groups` and `group_members` only. -/
theorem create_group_effect (name : Bytes) (creator_id : Int) (htx : w.db.tx = none) {x : Field}
    (hx : x ∉ [Field.table .groups, .table .group_members, .table .activity_logs]) :
    x.Same w ((PostgresPersistence.create_group name creator_id).run env w).2 := by
  have hspec : Ensures env w (PostgresPersistence.create_group name creator_id)
      fun _ w' => w'.db.tx = none ∧
        ∃ g m, w'.db.tables = { w.db.tables with groups := g, group_members := m } := by
    refine (create_group_ensures name creator_id htx).mono fun gid w' h => ⟨h.1, ?_⟩
    rcases h.2 with ⟨-, -, h⟩ | ⟨⟨n, -, h⟩, -⟩
    · exact ⟨_, _, h⟩
    · exact ⟨_, _, h⟩
  obtain ⟨htx', g, m, htables⟩ := hspec
  cases x with
  | tx => exact fun _ => htx'
  | table t =>
    show t.get _ = t.get _
    rw [htables]
    cases t <;> first | rfl | exact absurd (by simp) hx
  | _ => exact run_frame env _ w (by simp [all_tables])

theorem friend_accept_effect (pg : Bool) (fd me other : Int) (htx : w.db.tx = none) {x : Field}
    (hx : x ∉ accept_effect) : x.Same w ((friend_accept pg fd me other).run env w).2 := by
  have hsub : ∀ {T : List Field}, T ⊆ accept_effect → x ∉ T := fun hT h => hx (hT h)
  have hrest : ∀ ok w₁, x.Same w₁ ((accept_in_memory fd me other ok).run env w₁).2 :=
    fun ok w₁ => run_frame env _ w₁ (hsub (by decide))
  simp only [friend_accept, andNext, run_bind, run_locked, run_lift, run_pure, run_ite]
  split
  · exact (accept_friend_request_effect other me htx (hsub (by decide))).trans (hrest _ _)
  · exact hrest true w

variable (env) in
theorem create_group_db_effect (me : Int) (name : Bytes) (memberIds : List Int)
    (htx : w.db.tx = none) {x : Field} (hx : x ∉ create_effect) :
    x.Same w ((create_group_db me name memberIds).run env w).2 := by
  have hsub : ∀ {T : List Field}, T ⊆ create_effect → x ∉ T := fun hT h => hx (hT h)
  have hcreate := create_group_effect env name me htx (hsub (by decide))
  have hmembers : ∀ gid w₁, x.Same w₁ ((add_members me gid memberIds).run env w₁).2 :=
    fun gid w₁ => run_frame env _ w₁ (hsub (by decide))
  simp only [create_group_db, run_bind, run_lift, run_when, run_pure]
  split
  · exact hcreate.trans (hmembers _ _)
  · exact hcreate

theorem create_group_command_effect (pg : Bool) (fd me : Int) (name : Option Bytes)
    (memberIds : List Int) (htx : w.db.tx = none) {x : Field} (hx : x ∉ create_effect) :
    x.Same w ((handle_client.create_group pg fd me name memberIds).run env w).2 := by
  have hsub : ∀ {T : List Field}, T ⊆ create_effect → x ∉ T := fun hT h => hx (hT h)
  have hname : ∀ y, Field.Same y w ((group_name name).run env w).2 :=
    fun y => run_frame env _ w (by simp)
  have hrest : ∀ name gid w₁,
      x.Same w₁ ((announce_group pg fd me name memberIds gid).run env w₁).2 :=
    fun name gid w₁ => run_frame env _ w₁ (hsub (by decide))
  have hmem : ∀ name w₁, x.Same w₁ ((create_group_mem me name memberIds).run env w₁).2 :=
    fun name w₁ => run_frame env _ w₁ (hsub (by decide))
  simp only [handle_client.create_group, andNext, run_bind, run_lift, run_pure, run_ite]
  split
  · have hdb := create_group_db_effect env me ((group_name name).run env w).1 memberIds
      (hname .tx htx) hx
    exact ((hname x).trans hdb).trans (hrest _ _ _)
  · exact ((hname x).trans (hmem _ _)).trans (hrest _ _ _)

@[simp] theorem run_andNext {S : List Field} (p : Prog S Unit) (w : World) :
    ((andNext p).run env w).1 = .next := by
  rw [andNext, run_bind, run_pure]

/-- Every command but `LOGOUT` ends in `break`. -/
theorem perform_next (pg : Bool) (env : Env) (w : World) (fd me rid : Int) (c : Command)
    (hc : c ≠ .logout) : ((perform pg fd me rid c).run env w).1 = .next := by
  cases c with
  | logout => exact absurd rfl hc
  | friend_request target =>
    rw [perform, run_lift, friend_request, run_bind]
    split <;> exact run_andNext _ _
  | group_message gid message =>
    rw [perform, run_lift, group_message, run_bind]
    split <;> simp only [run_bind, run_andNext]
  | login payload =>
    rw [perform, run_lift, login, run_bind]
    split
    · rfl
    · exact run_andNext _ _
  -- these choose between two programs before the end
  | get_user_groups | delete_conversation | create_group | leave_group =>
    rw [perform, run_lift]
    simp only [handle_client.get_user_groups, handle_client.delete_conversation,
      handle_client.create_group, leave_group, run_bind, run_ite]
    split <;> exact run_andNext _ _
  | _ =>
    rw [perform, run_lift]
    simp only [heartbeat, register, search_user, get_all_users, get_friends_list, friend_accept,
      friend_decline, unfriend, direct_message, get_conversation_history, get_group_history,
      invite_to_group, accept_group_invite, decline_group_invite, handle_client.rename_group,
      handle_client.set_group_nickname, remove_from_group, make_admin, run_bind, run_andNext]

/-- **The effect of a command.** A field outside it is the same after the command, and
no transaction is left open. -/
theorem perform_effect (pg : Bool) (fd me rid : Int) (c : Command) (htx : w.db.tx = none)
    {x : Field} (hx : x ∉ c.effect) : x.Same w ((perform pg fd me rid c).run env w).2 := by
  cases c with
  | friend_accept other =>
    rw [perform, run_lift]
    exact friend_accept_effect pg fd me other htx hx
  | create_group name memberIds =>
    rw [perform, run_lift]
    exact create_group_command_effect pg fd me name memberIds htx hx
  | _ => exact perform_frame pg env fd me rid _ w hx

end Effect

/-! ## Steps -/

/-- What ending a connection may write. -/
abbrev cleanup_writes : List Field := [.var .g_online_clients, .var .g_friends, .conns, .out]

theorem Command.tx_not_mem_effect (c : Command) : Field.tx ∉ c.effect := by
  cases c <;> simp [Command.effect, Command.writes]

section Steps

variable {pg : Bool} {env : Env} {w w' : World} {e : Event} {x : Field}

theorem end_connection_frame (fd : Int) (w : World) (hx : x ∉ cleanup_writes) :
    x.Same w (end_connection env fd w) :=
  run_frame env _ w hx

theorem finish_frame (fd : Int) (res : Outcome × World) (hx : x ∉ cleanup_writes) :
    x.Same res.2 (finish env fd res) := by
  unfold finish
  split
  · exact end_connection_frame fd res.2 hx
  · exact Field.Same.refl x res.2

/-- **The frame rule for steps.** A field that neither the command of the event nor the
end of a connection writes is the same after the step. -/
theorem Server.step_frame (htx : w.db.tx = none) (hs : Server.step pg env w e = some w')
    (hx : x ∉ cleanup_writes)
    (hc : ∀ fd rid c, e.command pg w = some (fd, rid, c) → x ∉ c.effect) : x.Same w w' := by
  cases Server.move_of_step pg env hs with
  | accepted fd valid unused =>
    cases x with
    | conns => exact absurd (by simp) hx
    | tx => exact id
    | _ => rfl
  | performed fd me rid r c opened command =>
    exact (perform_effect pg fd me rid c htx (hc fd rid c command)).trans (finish_frame fd _ hx)
  | refused fd me r opened invalid =>
    refine Field.Same.trans (run_frame env _ w fun h => hx ?_) (end_connection_frame fd _ hx)
    simp only [List.mem_cons] at h ⊢
    tauto
  | hungup fd me opened => exact end_connection_frame fd w hx

/-- No step leaves a transaction open. -/
theorem Server.step_tx (htx : w.db.tx = none) (hs : Server.step pg env w e = some w') :
    w'.db.tx = none :=
  Server.step_frame htx hs (by decide) (fun _ _ c _ => c.tx_not_mem_effect) htx

/-! ## How a server starts -/

/-- What loading one line preserves, loading a file preserves. -/
theorem load_lines_rule {I : ServerState × Int → Prop} {lines : List Bytes}
    (hline : ∀ line ∈ lines, ∀ s s', load_line s line = .ok s' → I s → I s') {s s' : ServerState × Int}
    (h : lines.foldlM load_line s = .ok s') (hs : I s) : I s' := by
  induction lines generalizing s with
  | nil =>
    cases Except.ok.inj h
    exact hs
  | cons line lines ih =>
    rw [List.foldlM_cons] at h
    cases hload : load_line s line with
    | error e => rw [hload] at h; cases h
    | ok t =>
      rw [hload] at h
      refine ih (fun l hl => hline l (List.mem_cons_of_mem _ hl)) h ?_
      exact hline line List.mem_cons_self s t hload hs

/-- What loading one line preserves holds of the tables that are loaded. -/
theorem load_users_rule {I : ServerState × Int → Prop} {file : Bytes} {s : ServerState}
    (h : load_users file = .ok s) (hstart : I (ServerState.initial, 0))
    (hline : ∀ line ∈ getlines 10 file, ∀ s s', load_line s line = .ok s' → I s → I s') :
    ∃ s' max_id, I (s', max_id) ∧ s = { s' with g_next_user_id := succ_int max_id } := by
  unfold load_users at h
  cases hlines : (getlines 10 file).foldlM load_line (ServerState.initial, 0) with
  | error e => rw [hlines] at h; cases h
  | ok r =>
    rw [hlines] at h
    cases h
    exact ⟨r.1, r.2, load_lines_rule hline hlines hstart, rfl⟩

/-- What the users file cannot contain. -/
structure ServerState.Friendless (s : ServerState) : Prop where
  online : s.g_online_clients = ∅
  groups : s.g_groups = ∅
  offline : s.g_offline_messages = ∅
  friends : ∀ a b, s.isFriend a b = false
  pending : ∀ a, s.g_friend_requests.get a = []

theorem ServerState.Friendless.initial : ServerState.initial.Friendless :=
  ⟨rfl, rfl, rfl, fun _ _ => rfl, fun _ => rfl⟩

theorem load_line_friendless {s s' : ServerState × Int} {line : Bytes}
    (h : load_line s line = .ok s') (hs : s.1.Friendless) : s'.1.Friendless := by
  simp only [load_line] at h
  cases hid : stoi ((getlines 9 line).getD 0 []) with
  | error e => rw [hid] at h; cases h
  | ok id =>
    rw [hid] at h
    cases h
    refine ⟨hs.online, hs.groups, hs.offline, fun a b => ?_, fun a => ?_⟩
    · rw [ServerState.isFriend, UMap.get_touch]
      exact hs.friends a b
    · rw [UMap.get_touch]
      exact hs.pending a

/-- Without a database the server starts with no friendship, request, group or queue. -/
theorem load_users_friendless {users_file : Bytes} {s : ServerState}
    (h : load_users users_file = .ok s) : s.Friendless := by
  obtain ⟨s', max_id, hs', rfl⟩ := load_users_rule (I := fun s => s.1.Friendless) h
    ServerState.Friendless.initial fun _ _ _ _ => load_line_friendless
  exact ⟨hs'.online, hs'.groups, hs'.offline, hs'.friends, hs'.pending⟩

/-- A server has read the database when it starts, or the users file. -/
theorem Booted.loaded (h : Booted pg env w) : ∃ w₀, World.Fresh w₀ ∧
    ((pg = true ∧ w = (load_database.run env w₀).2) ∨
      (pg = false ∧ ∃ s, load_users w₀.users_file = .ok s ∧ w = { w₀ with mem := s })) := by
  obtain ⟨w₀, fresh, hboot⟩ := h
  refine ⟨w₀, fresh, ?_⟩
  cases pg with
  | true => exact .inl ⟨rfl, (Except.ok.inj hboot).symm⟩
  | false =>
    simp only [boot, Bool.false_eq_true, if_false] at hboot
    cases hload : load_users w₀.users_file with
    | error e => rw [hload] at hboot; cases hboot
    | ok s =>
      rw [hload] at hboot
      exact .inr ⟨rfl, s, rfl, (Except.ok.inj hboot).symm⟩

/-- What neither the load nor the users file touches is as the process found it. -/
theorem Booted.frame (h : Booted pg env w) (hx : x ∉ load_writes)
    (hfile : ∀ w₀ s, World.Fresh w₀ → s.Friendless → x.Same w₀ { w₀ with mem := s }) :
    ∃ w₀, World.Fresh w₀ ∧ x.Same w₀ w := by
  obtain ⟨w₀, fresh, ⟨-, rfl⟩ | ⟨-, s, hload, rfl⟩⟩ := h.loaded
  · exact ⟨w₀, fresh, run_frame env load_database w₀ hx⟩
  · exact ⟨w₀, fresh, hfile w₀ s fresh (load_users_friendless hload)⟩

/-- `main` opens no transaction. -/
theorem Booted.tx_none (h : Booted pg env w) : w.db.tx = none := by
  obtain ⟨w₀, fresh, hsame⟩ := h.frame (x := .tx) (by decide) fun _ _ _ _ => id
  exact hsame fresh.tx

/-- The invariant rule, where every step finds no transaction open. -/
theorem Booted.invariant {env₀ : Env} {w₀ : World} {tr : List (Taken World Event)}
    {C : World → Event → Prop} {I : World → Prop} (booted : Booted pg env₀ w₀)
    (run : Server.Run pg env C w₀ tr w) (start : I w₀)
    (preserved : ∀ x e y, I x → x.db.tx = none → C x e → Server.step pg env x e = some y → I y) :
    I w ∧ w.db.tx = none :=
  Run.invariant (I := fun w => I w ∧ w.db.tx = none) run ⟨start, booted.tx_none⟩
    fun x e y hx hC hs => ⟨preserved x e y hx.1 hx.2 hC hs, Server.step_tx hx.2 hs⟩

/-- No transaction is open between two events. -/
theorem Reachable.tx_none (h : Reachable pg env w) : w.db.tx = none := by
  obtain ⟨w₀, tr, booted, run⟩ := h
  exact (booted.invariant (I := fun _ => True) run trivial fun _ _ _ _ _ _ _ => trivial).2

/-- No connection is open when the server starts to accept, and nothing was sent. -/
theorem Booted.conns_empty (h : Booted pg env w) : w.conns = ∅ ∧ w.out = [] := by
  constructor
  · obtain ⟨w₀, fresh, hsame⟩ := h.frame (x := .conns) (by decide) fun _ _ _ _ => rfl
    exact Eq.trans hsame fresh.conns
  · obtain ⟨w₀, fresh, hsame⟩ := h.frame (x := .out) (by decide) fun _ _ _ _ => rfl
    exact Eq.trans hsame fresh.out

/-- Nobody is online when the server starts. -/
theorem Booted.online_empty (h : Booted pg env w) : w.mem.g_online_clients = ∅ := by
  obtain ⟨w₀, fresh, hsame⟩ := h.frame (x := .var .g_online_clients) (by decide) fun _ _ fresh hs =>
    hs.online.trans (by rw [fresh.mem]; rfl)
  refine Eq.trans hsame ?_
  rw [fresh.mem]
  rfl

/-- And no message waits. -/
theorem Booted.offline_empty (h : Booted pg env w) : w.mem.g_offline_messages = ∅ := by
  obtain ⟨w₀, fresh, hsame⟩ := h.frame (x := .var .g_offline_messages) (by decide) fun _ _ fresh hs =>
    hs.offline.trans (by rw [fresh.mem]; rfl)
  refine Eq.trans hsame ?_
  rw [fresh.mem]
  rfl

/-- Without a database there are no groups when the server starts. -/
theorem Booted.groups_empty (h : Booted false env w) : w.mem.g_groups = ∅ := by
  obtain ⟨w₀, fresh, ⟨hpg, -⟩ | ⟨-, s, hload, rfl⟩⟩ := h.loaded
  · exact Bool.noConfusion hpg
  · exact (load_users_friendless hload).groups

end Steps

end ChatApp
