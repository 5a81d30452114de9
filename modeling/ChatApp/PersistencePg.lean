/-
`PersistencePg.lean` -- `src/persistence_pg.cpp`: the statements the server
issues and the functions of `PostgresPersistence` around them.

A statement's refusals are the constraints of the schema: foreign keys, `UNIQUE`,
`CHECK`. Each function is named and typed as in the source; what it may write is in
its type. `log_activity` is a statement like any other: it can fail on its own, and
inside a transaction that failure aborts the transaction.
-/
import ChatApp.Machine
import Mathlib.Data.List.Sort

set_option autoImplicit false

namespace ChatApp

/-! ## Statements -/

namespace Tables

variable (d : Tables)

/-- `users` has a row with this id: what a foreign key to it checks. -/
def hasUser (uid : Int) : Bool := d.users.rows.any fun r => r.id = uid

/-- `groups` has a row with this id. -/
def hasGroup (gid : Int) : Bool := d.groups.rows.any fun r => r.id = gid

/-- `SELECT 1 FROM group_members WHERE group_id = gid AND user_id = uid`. -/
def isMember (gid uid : Int) : Bool :=
  d.group_members.any fun r => r.group_id = gid && r.user_id = uid

/-- `SELECT is_admin FROM group_members ...`, read as `is_group_admin` reads it. -/
def isAdmin (gid uid : Int) : Bool :=
  ((d.group_members.find? fun r => r.group_id = gid && r.user_id = uid).bind
    GroupMemberRow.is_admin).getD false

/-- `SELECT 1 FROM friend_requests WHERE ... AND status = 'PENDING'`. -/
def isPending (a b : Int) : Bool :=
  d.friend_requests.any fun r => r.from_user_id = a && r.to_user_id = b && r.status = .PENDING

end Tables

/-- The order of `ORDER BY` on a text column: bytewise, as in the C collation. -/
def bytes_le : Bytes → Bytes → Bool
  | [], _ => true
  | _ :: _, [] => false
  | a :: as, b :: bs => a < b || (a = b && bytes_le as bs)

/-- `escape_string`: a literal holds the string up to its first NUL byte. -/
def escape_string (s : Bytes) : Bytes := s.takeWhile (· ≠ 0)

/-- `INSERT INTO users (...) VALUES (...) RETURNING id`. -/
def insert_user (username password_hash phone : Bytes) : Statement .users Int := fun d =>
  let users := { d.users with next := d.users.next + 1 }
  if d.users.rows.any fun r => r.username = username then (none, users)
  else
    (some d.users.next,
      { users with rows := users.rows ++ [⟨d.users.next, username, password_hash, phone, false⟩] })

/-- `UPDATE users SET is_online = ... WHERE id = uid`. -/
def update_online (uid : Int) (is_online : Bool) : Statement .users Unit := fun d =>
  (some (), { d.users with
    rows := d.users.rows.map fun r => if r.id = uid then { r with is_online := is_online } else r })

/-- `INSERT INTO friends ... ON CONFLICT DO NOTHING`. -/
def insert_friend (a b : Int) : Statement .friends Unit := fun d =>
  if ¬a < b then (none, d.friends)
  else if d.friends.contains ⟨a, b⟩ then (some (), d.friends)
  else if d.hasUser a && d.hasUser b then (some (), d.friends ++ [⟨a, b⟩])
  else (none, d.friends)

/-- `INSERT INTO friend_requests ... ON CONFLICT ... DO UPDATE SET status = 'PENDING'`. -/
def upsert_friend_request (a b : Int) : Statement .friend_requests Unit := fun d =>
  if a = b then (none, d.friend_requests)
  else if d.friend_requests.any fun r => r.from_user_id = a && r.to_user_id = b then
    (some (), d.friend_requests.map fun r =>
      if r.from_user_id = a && r.to_user_id = b then { r with status := .PENDING } else r)
  else if d.hasUser a && d.hasUser b then (some (), d.friend_requests ++ [⟨a, b, .PENDING⟩])
  else (none, d.friend_requests)

/-- `DELETE FROM friend_requests WHERE from_user_id = a AND to_user_id = b`. -/
def delete_friend_request (a b : Int) : Statement .friend_requests Unit := fun d =>
  (some (), d.friend_requests.filter fun r => !(r.from_user_id = a && r.to_user_id = b))

/-- `INSERT INTO messages ...`. -/
def insert_message (a b : Int) (content : Bytes) (timestamp : Int) : Statement .messages Unit :=
  fun d =>
    if d.hasUser a && d.hasUser b then (some (), d.messages ++ [⟨a, b, content, timestamp⟩])
    else (none, d.messages)

/-- A message between the two users, in either direction. -/
def MessageRow.between (a b : Int) (r : MessageRow) : Bool :=
  (r.from_user_id = a && r.to_user_id = b) || (r.from_user_id = b && r.to_user_id = a)

/-- `DELETE FROM messages WHERE ...`, both directions. -/
def delete_messages (a b : Int) : Statement .messages Unit := fun d =>
  (some (), d.messages.filter fun r => !r.between a b)

/-- `INSERT INTO groups (name, creator_id) ... RETURNING id`. -/
def insert_group (name : Bytes) (creator_id : Int) : Statement .groups Int := fun d =>
  let groups := { d.groups with next := d.groups.next + 1 }
  if d.hasUser creator_id then
    (some d.groups.next, { groups with rows := groups.rows ++ [⟨d.groups.next, name, creator_id⟩] })
  else (none, groups)

/-- `UPDATE groups SET name = ... WHERE id = gid`. -/
def update_group_name (gid : Int) (name : Bytes) : Statement .groups Unit := fun d =>
  (some (), { d.groups with
    rows := d.groups.rows.map fun r => if r.id = gid then { r with name := name } else r })

/-- `INSERT INTO group_members ... ON CONFLICT DO NOTHING`. -/
def insert_group_member (gid uid : Int) : Statement .group_members Unit := fun d =>
  if d.isMember gid uid then (some (), d.group_members)
  else if d.hasGroup gid && d.hasUser uid then
    (some (), d.group_members ++ [⟨gid, uid, some false, none⟩])
  else (none, d.group_members)

/-- `DELETE FROM group_members WHERE group_id = gid AND user_id = uid`. -/
def delete_group_member (gid uid : Int) : Statement .group_members Unit := fun d =>
  (some (), d.group_members.filter fun r => !(r.group_id = gid && r.user_id = uid))

/-- `UPDATE group_members SET ... WHERE group_id = gid AND user_id = uid`. -/
def update_group_member (gid uid : Int) (f : GroupMemberRow → GroupMemberRow) :
    Statement .group_members Unit := fun d =>
  (some (), d.group_members.map fun r => if r.group_id = gid && r.user_id = uid then f r else r)

/-- `ALTER TABLE group_members ADD COLUMN IF NOT EXISTS is_admin ...`. -/
def alter_group_members : Statement .group_members Unit := fun d => (some (), d.group_members)

/-- `DELETE FROM group_invites WHERE group_id = gid AND to_user_id = uid`. -/
def delete_invite (gid uid : Int) : Statement .group_invites Unit := fun d =>
  (some (), d.group_invites.filter fun r => !(r.group_id = gid && r.to_user_id = uid))

/-- `INSERT INTO group_messages ...`. -/
def insert_group_message (gid uid : Int) (content : Bytes) (timestamp : Int) :
    Statement .group_messages Unit := fun d =>
  if d.hasGroup gid && d.hasUser uid then
    (some (), d.group_messages ++ [⟨gid, uid, content, timestamp⟩])
  else (none, d.group_messages)

/-- `INSERT INTO activity_logs ...`; a target that is not positive is stored as NULL. -/
def insert_activity_log (uid target : Int) : Statement .activity_logs Unit := fun d =>
  (if d.hasUser uid && (target ≤ 0 || d.hasUser target) then some () else none, ())

/-! ## Queries -/

namespace Tables

variable (d : Tables)

/-- `SELECT ... FROM v_user_friends vuf JOIN users u ... ORDER BY u.username`. -/
def friendsOf (uid : Int) : List UserRow :=
  let view := d.friends.map (fun r => (r.user_id_1, r.user_id_2))
    ++ d.friends.map (fun r => (r.user_id_2, r.user_id_1))
  let joined := (view.filter fun r => r.1 = uid).flatMap fun r =>
    d.users.rows.filter fun u => u.id = r.2
  joined.insertionSort fun a b => bytes_le a.username b.username

/-- `SELECT ... FROM friend_requests WHERE to_user_id = uid AND status = 'PENDING'
ORDER BY created_at DESC`. -/
def pendingTo (uid : Int) : List FriendRequestRow :=
  (d.friend_requests.filter fun r => r.to_user_id = uid && r.status = .PENDING).reverse

/-- `SELECT ... FROM messages WHERE ... ORDER BY timestamp DESC LIMIT limit`. -/
def conversation (a b : Int) (limit : Nat) : List MessageRow :=
  ((d.messages.filter fun r => r.between a b).insertionSort
    fun x y => y.timestamp ≤ x.timestamp).take limit

/-- `SELECT g.* FROM groups g JOIN group_members gm ... ORDER BY g.name`. -/
def groupsOf (uid : Int) : List GroupRow :=
  let joined := d.groups.rows.flatMap fun g =>
    (d.group_members.filter fun m => m.group_id = g.id && m.user_id = uid).map fun _ => g
  joined.insertionSort fun a b => bytes_le a.name b.name

/-- `SELECT u.* FROM users u JOIN group_members gm ... ORDER BY u.username`. -/
def membersOf (gid : Int) : List UserRow :=
  let joined := d.users.rows.flatMap fun u =>
    (d.group_members.filter fun m => m.user_id = u.id && m.group_id = gid).map fun _ => u
  joined.insertionSort fun a b => bytes_le a.username b.username

/-- `SELECT user_id, nickname FROM group_members WHERE group_id = gid`, as a map. -/
def nicknamesOf (gid : Int) : UMap Int Bytes :=
  (d.group_members.filter fun m => m.group_id = gid).foldl
    (fun acc m => acc.set m.user_id (m.nickname.getD [])) ∅

/-- `SELECT ... FROM group_invites WHERE to_user_id = uid AND status = 'PENDING'
ORDER BY created_at DESC`. -/
def invitesTo (uid : Int) : List GroupInviteRow :=
  (d.group_invites.filter fun r => r.to_user_id = uid && r.status = .PENDING).reverse

/-- `SELECT ... FROM group_messages WHERE ... ORDER BY timestamp DESC LIMIT limit`. -/
def groupMessages (gid : Int) (limit : Nat) : List GroupMessageRow :=
  ((d.group_messages.filter fun r => r.group_id = gid).insertionSort
    fun x y => y.timestamp ≤ x.timestamp).take limit

end Tables

/-! ## `PostgresPersistence` -/

namespace PostgresPersistence

open Prog

/-- `log_activity`. -/
def log_activity (uid target : Int) : Prog [.table .activity_logs] Bool := do
  let res ← execute .activity_logs (insert_activity_log uid target)
  pure res.isSome

/-- `create_user`; the id is the output parameter. -/
def create_user (username password_hash phone : Bytes) :
    Prog [.table .users, .table .activity_logs] (Option Int) := do
  let res ← execute .users
    (insert_user (escape_string username) (escape_string password_hash) (escape_string phone))
  if res.isNone then pure none
  else do
    let _ ← (log_activity (res.getD 0) 0).lift
    pure res

/-- `update_user_online_status`. -/
def update_user_online_status (uid : Int) (is_online : Bool) :
    Prog [.table .users, .table .activity_logs] Bool := do
  let res ← execute .users (update_online uid is_online)
  if res.isNone then pure false
  else do
    let _ ← (log_activity uid 0).lift
    pure true

/-- `add_friend`, in canonical order. -/
def add_friend (a b : Int) : Prog [.table .friends, .table .activity_logs] Bool := do
  let lo := if a > b then b else a
  let hi := if a > b then a else b
  let res ← execute .friends (insert_friend lo hi)
  if res.isNone then pure false
  else do
    let _ ← (log_activity lo hi).lift
    pure true

/-- `send_friend_request`. -/
def send_friend_request (a b : Int) :
    Prog [.table .friend_requests, .table .activity_logs] Bool := do
  let res ← execute .friend_requests (upsert_friend_request a b)
  if res.isNone then pure false
  else do
    let _ ← (log_activity a b).lift
    pure true

/-- What a transaction may write: rolling back restores every table. -/
abbrev transaction_writes : List Field := .tx :: .table .activity_logs :: all_tables

/-- `accept_friend_request`. -/
def accept_friend_request (a b : Int) : Prog transaction_writes Bool := do
  let begun ← begin
  if !begun then pure false
  else do
    let added ← (add_friend a b).lift
    if !added then do
      let _ ← rollback
      pure false
    else do
      let deleted ← execute .friend_requests (delete_friend_request a b)
      if deleted.isNone then do
        let _ ← rollback
        pure false
      else do
        let committed ← commit
        if !committed then do
          let _ ← rollback
          pure false
        else do
          let _ ← (log_activity b a).lift
          pure true

/-- `decline_friend_request`. -/
def decline_friend_request (a b : Int) :
    Prog [.table .friend_requests, .table .activity_logs] Bool := do
  let res ← execute .friend_requests (delete_friend_request a b)
  if res.isNone then pure false
  else do
    let _ ← (log_activity b a).lift
    pure true

/-- `get_pending_requests`; a failed query gives no rows. -/
def get_pending_requests (uid : Int) : Prog [] (List FriendRequestRow) := do
  let res ← select fun d => d.pendingTo uid
  pure (res.getD [])

/-- `has_pending_request`. -/
def has_pending_request (a b : Int) : Prog [] Bool := do
  let res ← select fun d => d.isPending a b
  pure (res.getD false)

/-- `save_message`. -/
def save_message (a b : Int) (content : Bytes) (timestamp : Int) :
    Prog [.table .messages] Bool := do
  let res ← execute .messages (insert_message a b (escape_string content) timestamp)
  pure res.isSome

/-- `get_conversation`. A negative `LIMIT` is an error, which gives no rows. -/
def get_conversation (a b limit : Int) : Prog [] (List MessageRow) := do
  let res ← select fun d => if limit < 0 then [] else d.conversation a b limit.toNat
  pure (res.getD []).reverse

/-- `delete_conversation`. -/
def delete_conversation (a b : Int) : Prog [.table .messages] Bool := do
  let res ← execute .messages (delete_messages a b)
  pure res.isSome

/-- `add_group_member`. -/
def add_group_member (gid uid : Int) :
    Prog [.table .group_members, .table .activity_logs] Bool := do
  let res ← execute .group_members (insert_group_member gid uid)
  if res.isNone then pure false
  else do
    let _ ← (log_activity uid 0).lift
    pure true

/-- `create_group`; the id is the output parameter, `none` when it returns false. -/
def create_group (name : Bytes) (creator_id : Int) : Prog transaction_writes (Option Int) := do
  let begun ← begin
  if !begun then pure none
  else do
    let inserted ← execute .groups (insert_group (escape_string name) creator_id)
    if inserted.isNone then do
      let _ ← rollback
      pure none
    else do
      let added ← (add_group_member (inserted.getD 0) creator_id).lift
      if !added then do
        let _ ← rollback
        pure none
      else do
        let committed ← commit
        if !committed then do
          let _ ← rollback
          pure none
        else do
          let _ ← (log_activity creator_id 0).lift
          pure inserted

/-- `set_group_nickname`. -/
def set_group_nickname (gid uid : Int) (nickname : Bytes) :
    Prog [.table .group_members, .table .activity_logs] Bool := do
  let res ← execute .group_members
    (update_group_member gid uid fun r => { r with nickname := some (escape_string nickname) })
  if res.isNone then pure false
  else do
    let _ ← (log_activity uid 0).lift
    pure true

/-- `get_group_member_nicknames`. -/
def get_group_member_nicknames (gid : Int) : Prog [] (UMap Int Bytes) := do
  let res ← select fun d => d.nicknamesOf gid
  pure (res.getD ∅)

/-- `remove_group_member`. -/
def remove_group_member (gid uid : Int) :
    Prog [.table .group_members, .table .activity_logs] Bool := do
  let res ← execute .group_members (delete_group_member gid uid)
  if res.isNone then pure false
  else do
    let _ ← (log_activity uid 0).lift
    pure true

/-- `set_group_admin`. -/
def set_group_admin (gid uid : Int) (is_admin : Bool) : Prog [.table .group_members] Bool := do
  let altered ← execute .group_members alter_group_members
  if altered.isNone then pure false
  else do
    let res ← execute .group_members
      (update_group_member gid uid fun r => { r with is_admin := some is_admin })
    pure res.isSome

/-- `is_group_admin`. -/
def is_group_admin (gid uid : Int) : Prog [] Bool := do
  let res ← select fun d => d.isAdmin gid uid
  pure (res.getD false)

/-- `get_user_groups`. -/
def get_user_groups (uid : Int) : Prog [] (List GroupRow) := do
  let res ← select fun d => d.groupsOf uid
  pure (res.getD [])

/-- `get_group_members`. -/
def get_group_members (gid : Int) : Prog [] (List UserRow) := do
  let res ← select fun d => d.membersOf gid
  pure (res.getD [])

/-- `get_pending_group_invites`. -/
def get_pending_group_invites (uid : Int) : Prog [] (List GroupInviteRow) := do
  let res ← select fun d => d.invitesTo uid
  pure (res.getD [])

/-- `delete_group_invite`. -/
def delete_group_invite (gid uid : Int) : Prog [.table .group_invites] Bool := do
  let res ← execute .group_invites (delete_invite gid uid)
  pure res.isSome

/-- `is_group_member`. -/
def is_group_member (gid uid : Int) : Prog [] Bool := do
  let res ← select fun d => d.isMember gid uid
  pure (res.getD false)

/-- `rename_group`; its log entry names user 0, which is no user. -/
def rename_group (gid : Int) (name : Bytes) :
    Prog [.table .groups, .table .activity_logs] Bool := do
  let res ← execute .groups (update_group_name gid (escape_string name))
  if res.isNone then pure false
  else do
    let _ ← (log_activity 0 0).lift
    pure true

/-- `save_group_message`. -/
def save_group_message (gid uid : Int) (content : Bytes) (timestamp : Int) :
    Prog [.table .group_messages] Bool := do
  let res ← execute .group_messages
    (insert_group_message gid uid (escape_string content) timestamp)
  pure res.isSome

/-- `get_group_messages`. -/
def get_group_messages (gid limit : Int) : Prog [] (List GroupMessageRow) := do
  let res ← select fun d => if limit < 0 then [] else d.groupMessages gid limit.toNat
  pure (res.getD []).reverse

end PostgresPersistence

end ChatApp
