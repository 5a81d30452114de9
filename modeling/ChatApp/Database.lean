/-
`Database.lean` -- the PostgreSQL database: its tables, and how one connection
executes statements on them.

The tables are those of the schema and its migrations, with the columns the server
reads or writes. A statement is a function from all tables (it may check a foreign
key) to its answer and the new contents of the one table it writes; it answers
`none` when a constraint of the schema refuses it. A refused `INSERT` has consumed a
number of its table's sequence, so the table is returned in that case too.

`exec` is the transaction behaviour every statement goes through: a statement that
fails inside a transaction aborts it, and nothing but `COMMIT` or `ROLLBACK` gets
through until it ends. All threads share the one connection.
-/
import ChatApp.Utils

set_option autoImplicit false

namespace ChatApp

/-! ## Rows -/

/-- A row of `users`. -/
structure UserRow where
  id : Int
  username : Bytes
  password_hash : Bytes
  phone : Bytes
  is_online : Bool
  deriving DecidableEq

/-- A row of `friends`. -/
structure FriendRow where
  user_id_1 : Int
  user_id_2 : Int
  deriving DecidableEq

/-- The values the `CHECK` on `friend_requests.status` allows. -/
inductive RequestStatus where
  | PENDING
  | ACCEPTED
  | DECLINED
  deriving DecidableEq

/-- A row of `friend_requests`. -/
structure FriendRequestRow where
  from_user_id : Int
  to_user_id : Int
  status : RequestStatus
  deriving DecidableEq

/-- A row of `messages`. -/
structure MessageRow where
  from_user_id : Int
  to_user_id : Int
  content : Bytes
  timestamp : Int
  deriving DecidableEq

/-- A row of `groups`. -/
structure GroupRow where
  id : Int
  name : Bytes
  creator_id : Int
  deriving DecidableEq

/-- A row of `group_members`; both added columns are nullable. -/
structure GroupMemberRow where
  group_id : Int
  user_id : Int
  is_admin : Option Bool
  nickname : Option Bytes
  deriving DecidableEq

/-- A row of `group_messages`. -/
structure GroupMessageRow where
  group_id : Int
  user_id : Int
  content : Bytes
  timestamp : Int
  deriving DecidableEq

/-- A row of `group_invites`. -/
structure GroupInviteRow where
  group_id : Int
  from_user_id : Int
  to_user_id : Int
  status : RequestStatus
  deriving DecidableEq

/-! ## Tables -/

/-- A table with a `SERIAL` key, and the next number of its sequence. -/
structure Serial (ρ : Type) where
  rows : List ρ
  next : Int

/-- The contents of the database. Rows stand in the order they were inserted. -/
structure Tables where
  users : Serial UserRow
  friends : List FriendRow
  friend_requests : List FriendRequestRow
  messages : List MessageRow
  groups : Serial GroupRow
  group_members : List GroupMemberRow
  group_messages : List GroupMessageRow
  group_invites : List GroupInviteRow

/-- The tables, by name. Nothing reads `activity_logs`, so only the fact that a
statement on it may fail is kept. -/
inductive Table where
  | users | friends | friend_requests | messages | groups | group_members | group_messages
  | group_invites | activity_logs
  deriving DecidableEq

namespace Table

/-- The contents of a table. -/
@[reducible] def Ty : Table → Type
  | users => Serial UserRow
  | friends => List FriendRow
  | friend_requests => List FriendRequestRow
  | messages => List MessageRow
  | groups => Serial GroupRow
  | group_members => List GroupMemberRow
  | group_messages => List GroupMessageRow
  | group_invites => List GroupInviteRow
  | activity_logs => Unit

/-- Read a table. -/
def get : (t : Table) → Tables → t.Ty
  | users, d => d.users
  | friends, d => d.friends
  | friend_requests, d => d.friend_requests
  | messages, d => d.messages
  | groups, d => d.groups
  | group_members, d => d.group_members
  | group_messages, d => d.group_messages
  | group_invites, d => d.group_invites
  | activity_logs, _ => ()

/-- Replace a table. -/
def put : (t : Table) → t.Ty → Tables → Tables
  | users, x, d => { d with users := x }
  | friends, x, d => { d with friends := x }
  | friend_requests, x, d => { d with friend_requests := x }
  | messages, x, d => { d with messages := x }
  | groups, x, d => { d with groups := x }
  | group_members, x, d => { d with group_members := x }
  | group_messages, x, d => { d with group_messages := x }
  | group_invites, x, d => { d with group_invites := x }
  | activity_logs, _, d => d

/-- A statement on one table leaves every other table as it was. -/
theorem get_put_ne {t t' : Table} (h : t' ≠ t) (x : t.Ty) (d : Tables) :
    t'.get (t.put x d) = t'.get d := by
  cases t <;> cases t' <;> first | rfl | exact absurd rfl h

end Table

/-- A statement that writes table `t`: its answer, or `none` when a constraint
refuses it, and the table afterwards. -/
abbrev Statement (t : Table) (β : Type) : Type := Tables → Option β × t.Ty

/-! ## Transactions -/

/-- An open transaction: the tables when it began, and whether a statement in it has
failed. -/
structure Transaction where
  snapshot : Tables
  aborted : Bool

/-- The database behind the server's connection. -/
structure Database where
  tables : Tables
  tx : Option Transaction

namespace Database

/-- What `ROLLBACK` restores. A sequence is not transactional: the numbers it has
given out stay given out. -/
def restore (now before : Tables) : Tables :=
  { before with
    users := { before.users with next := now.users.next }
    groups := { before.groups with next := now.groups.next } }

/-- The open transaction, if there is one, is now aborted. -/
def abort (d : Database) : Database :=
  { d with tx := d.tx.map fun t => { t with aborted := true } }

/-- An earlier statement of the open transaction has failed. -/
def aborted (d : Database) : Bool := (d.tx.map Transaction.aborted).getD false

/-- Execute a statement. `fails` is a failure from outside the schema (a lost
connection, a length limit, an encoding). -/
def exec {β : Type} (t : Table) (q : Statement t β) (fails : Bool) (d : Database) :
    Option β × Database :=
  if d.aborted then (none, d)
  else if fails then (none, d.abort)
  else
    let d' := { d with tables := t.put (q d.tables).2 d.tables }
    match (q d.tables).1 with
    | some b => (some b, d')
    | none => (none, d'.abort)

/-- Execute a `SELECT`. -/
def select {β : Type} (q : Tables → β) (fails : Bool) (d : Database) : Option β × Database :=
  if d.aborted then (none, d)
  else if fails then (none, d.abort)
  else (some (q d.tables), d)

/-- `BEGIN`. Inside an open transaction it is a warning and changes nothing; inside an
aborted one it fails as any statement does. -/
def begin (fails : Bool) (d : Database) : Bool × Database :=
  if fails || d.aborted then (false, d)
  else
    match d.tx with
    | some _ => (true, d)
    | none => (true, { d with tx := some ⟨d.tables, false⟩ })

/-- `ROLLBACK`. When it cannot be executed the connection is lost, and the database
rolls the transaction back on its own. -/
def rollback (fails : Bool) (d : Database) : Bool × Database :=
  match d.tx with
  | some t => (!fails, { tables := restore d.tables t.snapshot, tx := none })
  | none => (!fails, d)

/-- `COMMIT`. Committing an aborted transaction rolls it back and reports success; a
`COMMIT` that fails leaves the transaction rolled back. -/
def commit (fails : Bool) (d : Database) : Bool × Database :=
  if fails || d.aborted then (!fails, (rollback fails d).2)
  else (true, { d with tx := none })

end Database

end ChatApp
