/-
`Delivery.lean` -- what the handlers of `src/message_handler.cpp` share: reading the
fields of a payload, replying, and getting a frame to a user.

Most of the repeated text of the source is one loop: look a user up in
`g_online_clients` under the lock, then, outside it, send to the connection found or
queue the message for later. It is `deliver` here. The announcement
that follows every change to a group is the other, `broadcast_system`.
-/
import ChatApp.PersistencePg

set_option autoImplicit false

namespace ChatApp

open Prog PostgresPersistence

/-! ## Payload fields -/

/-- `kv["key"]` of the parsed payload; a missing key reads as the empty string. -/
def field (payload : Bytes) (key : String) : Bytes := (parse_kv payload).get (str key)

/-- `kv.count("key")`. -/
def has_field (payload : Bytes) (key : String) : Bool := (parse_kv payload).count (str key)

/-- What follows the `switch`: another frame, or `goto cleanup`. -/
inductive Outcome where
  | next
  | cleanup
  deriving DecidableEq

/-- A case that ends in `break`: the program, and then the next frame. -/
def andNext {S : List Field} (p : Prog S Unit) : Prog S Outcome := do
  p
  pure .next

/-! ## Sending -/

/-- `send_message` with its result dropped, as every handler drops it. -/
def reply {S : List Field} (fd : Int) (type : MessageType) (payload : Bytes) (userId : UInt32)
    (h : .out ∈ S := by decide) : Prog S Unit := do
  let _ ← send fd type payload userId h
  pure ()

/-- `enqueue_offline`. -/
def enqueue_offline (uid : Int) (m : PendingMsg) : Prog [.var .g_offline_messages] Unit :=
  locked (modify .g_offline_messages fun q => q.update uid fun ms => ms ++ [m])

/-- The lookup of a user's connection under the lock. -/
def find_fd {S : List Field} (uid : Int) : Prog S Int := locked (read fun s => s.online_fd uid)

/-- What a delivery may write. -/
abbrev delivery_writes : List Field := [.var .g_offline_messages, .out]

/-- `if (fd != -1) send_message(...); else enqueue_offline(...);` after the lookup. -/
def deliver (m : PendingMsg) (uid : Int) : Prog delivery_writes Unit := do
  let fd ← find_fd uid
  if fd ≠ -1 then reply fd m.type m.payload m.fromUserId
  else (enqueue_offline uid m).lift

/-- `deliver` to each user of a list, in order. -/
def deliver_all (m : PendingMsg) (uids : List Int) : Prog delivery_writes Unit :=
  uids.forM (deliver m)

/-- What a status notice may write. -/
abbrev status_writes : List Field := [.var .g_friends, .out]

/-- `notify_friends_status_change`. Looking up `g_friends[userId]` leaves a default
entry behind. -/
def notify_friends_status_change (uid : Int) (online : Bool) : Prog status_writes Unit := do
  let friends ← locked do
    modify .g_friends fun g => g.touch uid
    read fun s => ((s.g_friends.get uid).toList.filter fun e => e.2).map Prod.fst
  friends.forM fun fid => do
    let fd ← find_fd fid
    when (fd ≠ -1) (reply fd (if online then .USER_ONLINE else .USER_OFFLINE)
      (serialize_kv [(str "userId", to_string uid)]) (u32 uid))

/-! ## System announcements -/

/-- What an announcement may write. -/
abbrev broadcast_writes : List Field :=
  [.var .g_groups, .var .g_offline_messages, .table .group_messages, .out]

/-- The members an announcement goes to: the database's, or those of
`g_groups[gid]`, which the lookup creates if it is missing. -/
def members_to_notify (pg : Bool) (gid : Int) : Prog [.var .g_groups] (List Int) :=
  if pg then do
    let db_members ← (get_group_members gid).lift
    pure (db_members.map UserRow.id)
  else locked do
    modify .g_groups fun g => g.touch gid
    read fun s => (s.g_groups.get gid).members.keys

/-- The frame of a system message: sender 0. -/
def system_message (gid : Int) (sys : Bytes) (ts_ms : Int) : PendingMsg where
  type := .GROUP_MESSAGE
  payload := serialize_kv [(str "groupId", to_string gid), (str "senderId", str "0"),
    (str "message", sys), (str "timestamp", to_string ts_ms)]
  fromUserId := 0

/-- Save a system message, collect the members and send it to each of them. The
members are returned: two handlers send them a second message. -/
def broadcast_system (pg : Bool) (gid : Int) (sys : Bytes) (ts_ms : Int) :
    Prog broadcast_writes (List Int) := do
  when pg do
    let _ ← (save_group_message gid 0 sys ts_ms).lift
    pure ()
  let membersToNotify ← (members_to_notify pg gid).lift
  (deliver_all (system_message gid sys ts_ms) membersToNotify).lift
  pure membersToNotify

/-- `actor` of the announcements: the session's name, or `User` and its id printed
as the `uint32_t` it is. -/
def actor_name {S : List Field} (me : Int) : Prog S Bytes :=
  locked (read fun s => s.username_or me (str "User" ++ to_string (u32 me).toNat))

/-- `actor` and `target`, read in one critical section. -/
def actor_and_target {S : List Field} (me uid : Int) : Prog S (Bytes × Bytes) :=
  locked (read fun s => (s.username_or me (str "User" ++ to_string (u32 me).toNat),
    s.username_or uid (str "User" ++ to_string uid)))

end ChatApp
