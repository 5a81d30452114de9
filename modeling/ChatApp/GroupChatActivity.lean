/-
`GroupChatActivity.lean` -- the transcript that `ui/activity/GroupChatActivity.kt` shows.

Everything here happens on the main thread, one event after another. The observer builds the list anew from the rows
that the database emits; a message that is sent or comes in is appended. An entry of another user starts a coroutine
that looks the name up and later writes a copy of the entry, with the name, to the index the entry had when the
coroutine was started. The coroutine makes its queries elsewhere and at its own time, so that each of them sees the
tables as they are then.

An index that is not in the list is an exception on the main thread, which nothing catches.
-/
import ChatApp.ChatRepository
import ChatApp.Runs

set_option autoImplicit false

namespace ChatApp.Room

/-- What a function of the client answers when its first transaction sees the first of the databases, its second the
second, and so on. -/
def Dao.seeing {α : Type} (p : Dao α) (seen : ℕ → Database) : α :=
  (Program.run (fun t rest => ((t.exec (rest 0)).1, fun k => rest (k + 1))) p seen).1

/-- `GroupMessage`. -/
structure GroupMessage where
  senderId : Int
  senderName : Bytes
  message : Bytes
  timestamp : Int
  isMine : Bool
  isSystemMessage : Bool
  deriving DecidableEq

namespace GroupChatActivity

/-- A coroutine that looks a name up: the index and the entry it was started with. -/
structure Lookup where
  index : ℕ
  placeholder : GroupMessage
  deriving DecidableEq

/-- The list, the coroutines that have not written yet, and whether the app is gone. -/
structure Screen where
  messagesList : List GroupMessage := []
  lookups : List Lookup := []
  crashed : Bool := false
  deriving DecidableEq

/-- What the activity knows from the start. -/
structure Chat where
  groupId : Int
  myUserId : Int
  myUsername : Bytes

/-! ## The name of a sender -/

/-- The name of a user who is not known. -/
def unknown_name (senderId : Int) : Bytes := str "User " ++ to_string senderId

/-- `resolvedName`: the nickname in the group, the name in the group, the name among the friends and the name among
the users, in this order. -/
def resolve_name (groupId senderId : Int) : Dao Bytes := do
  let gm ← getMember groupId senderId
  if let some nickname := (gm.bind GroupMember.nickname).filter (· ≠ []) then
    pure nickname
  else if let some gm := gm.filter fun gm => !(str "User ").isPrefixOf gm.username then
    pure gm.username
  else
    let friend ← getFriend senderId
    match friend with
    | some friend => pure friend.username
    | none =>
      let user ← getUser senderId
      pure ((user.map User.username).getD (unknown_name senderId))

/-! ## Entries -/

/-- The entry of a system message. -/
def system_entry (senderId : Int) (message : Bytes) (timestamp : Int) : GroupMessage :=
  ⟨senderId, [], message, timestamp, false, true⟩

/-- The entry of another user's message, while the name is looked up. -/
def placeholder (senderId : Int) (message : Bytes) (timestamp : Int) : GroupMessage :=
  ⟨senderId, unknown_name senderId, message, timestamp, false, false⟩

/-- An entry at the end of the list. -/
def Screen.add (m : GroupMessage) (s : Screen) : Screen := { s with messagesList := s.messagesList ++ [m] }

/-- A placeholder at the end of the list, and the coroutine for it. -/
def Screen.add_placeholder (m : GroupMessage) (s : Screen) : Screen where
  messagesList := s.messagesList ++ [m]
  lookups := s.lookups ++ [⟨s.messagesList.length, m⟩]
  crashed := s.crashed

section Functions

variable (c : Chat)

/-- The entry of an own message. -/
def own_entry (message : Bytes) (timestamp : Int) : GroupMessage :=
  ⟨c.myUserId, c.myUsername, message, timestamp, true, false⟩

/-- One row of `dbMessages.forEach`. -/
def show_row (s : Screen) (m : Message) : Screen :=
  if m.senderId = 0 then s.add (system_entry m.senderId m.content m.timestamp)
  else if m.senderId = c.myUserId then s.add (own_entry c m.content m.timestamp)
  else s.add_placeholder (placeholder m.senderId m.content m.timestamp)

/-- The observer of the messages. The coroutines that are under way go on. -/
def observe (dbMessages : List Message) (s : Screen) : Screen :=
  dbMessages.foldl (show_row c) { s with messagesList := [] }

/-- `sendMessage`, where `timestamp` is the clock. -/
def sendMessage (message : Bytes) (timestamp : Int) (s : Screen) : Screen :=
  s.add (own_entry c message timestamp)

/-- What `handleIncomingMessage` reads of a payload: the sender, the text and the timestamp, as the server sent it.
A message for another group is not handled. -/
def incoming (now : Int) (payload : Bytes) : Option (Int × Bytes × Int) := do
  let kv := pairs payload
  let msgGroupId ← (kv.find? (str "groupId")).bind toIntOrNull
  guard (msgGroupId = c.groupId)
  let senderId ← (kv.find? (str "senderId")).bind toIntOrNull
  let message ← kv.find? (str "message")
  let timestamp := ((kv.find? (str "timestamp")).bind toLongOrNull).getD now
  return (senderId, message, timestamp)

/-- `handleIncomingMessage`, where `now` is the clock. An own message is in the list already. -/
def handleIncomingMessage (payload : Bytes) (now : Int) (s : Screen) : Screen :=
  match incoming c now payload with
  | none => s
  | some (senderId, message, timestamp) =>
    if senderId = 0 then s.add (system_entry senderId message timestamp)
    else if senderId ≠ c.myUserId then s.add_placeholder (placeholder senderId message timestamp)
    else s

end Functions

/-- The end of a coroutine, on the main thread. -/
def write_back (l : Lookup) (resolvedName : Bytes) (s : Screen) : Screen :=
  if l.index < s.messagesList.length then
    { s with messagesList := s.messagesList.set l.index { l.placeholder with senderName := resolvedName } }
  else { s with crashed := true }

/-! ## Events -/

/-- What happens to the screen. -/
inductive Event where
  /-- The database emits these rows. -/
  | emission (dbMessages : List Message)
  /-- The user sends a message. -/
  | sent (message : Bytes) (timestamp : Int)
  /-- A live message comes in. -/
  | received (payload : Bytes) (now : Int)
  /-- The coroutine with that number found a name in these databases, and writes. -/
  | resolved (i : ℕ) (seen : ℕ → Database)
  /-- The coroutine with that number failed, and keeps the placeholder. -/
  | failed (i : ℕ)

/-- The event is the end of a coroutine. -/
def Event.completes : Event → Bool
  | .resolved _ _ | .failed _ => true
  | _ => false

/-- The event is an emission. -/
def Event.emits : Event → Bool
  | .emission _ => true
  | _ => false

/-- One event. -/
def step (c : Chat) (s : Screen) (e : Event) : Option Screen :=
  if s.crashed then none else
    match e with
    | .emission dbMessages => some (observe c dbMessages s)
    | .sent message timestamp => some (sendMessage c message timestamp s)
    | .received payload now => some (handleIncomingMessage c payload now s)
    | .resolved i seen =>
      s.lookups[i]?.map fun l =>
        write_back l ((resolve_name c.groupId l.placeholder.senderId).seeing seen)
          { s with lookups := s.lookups.eraseIdx i }
    | .failed i => s.lookups[i]?.map fun _ => { s with lookups := s.lookups.eraseIdx i }

end GroupChatActivity

end ChatApp.Room
