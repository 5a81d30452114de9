/-
`Protocol.lean` -- `include/protocol.h` and the framing of `src/network_utils.cpp`.

Every message is a frame: a 32-byte header followed by the payload. The header
carries the payload's length, so a reader that loses the boundary between two
frames cannot find it again. `send_message` hands the two parts to the socket in
two separate calls; `send_all` is an operation of a signature here, so that the
calls of several threads can be interleaved.
-/
import ChatApp.Program
import ChatApp.Utils

set_option autoImplicit false

namespace ChatApp

/-! ## Message types -/

/-- `proto::MessageType`. -/
inductive MessageType where
  | REGISTER | LOGIN | LOGOUT | SEARCH_USER | GET_ALL_USERS
  | FRIEND_REQUEST | FRIEND_ACCEPT | FRIEND_DECLINE | UNFRIEND | GET_FRIENDS_LIST
  | DIRECT_MESSAGE | MESSAGE_RECEIVED | TYPING_STATUS | GET_CONVERSATION_HISTORY
  | DELETE_CONVERSATION
  | CREATE_GROUP | INVITE_TO_GROUP | REMOVE_FROM_GROUP | LEAVE_GROUP | GROUP_MESSAGE
  | GET_GROUP_HISTORY | GET_USER_GROUPS | ADD_GROUP_MEMBERS | RENAME_GROUP
  | SET_GROUP_NICKNAME | ACCEPT_GROUP_INVITE | DECLINE_GROUP_INVITE | MAKE_ADMIN
  | USER_ONLINE | USER_OFFLINE | SUCCESS | ERROR | HEARTBEAT
  deriving DecidableEq, Repr

namespace MessageType

/-- The byte of a message type. -/
def toByte : MessageType → UInt8
  | REGISTER => 0x01
  | LOGIN => 0x02
  | LOGOUT => 0x03
  | SEARCH_USER => 0x04
  | GET_ALL_USERS => 0x05
  | FRIEND_REQUEST => 0x10
  | FRIEND_ACCEPT => 0x11
  | FRIEND_DECLINE => 0x12
  | UNFRIEND => 0x13
  | GET_FRIENDS_LIST => 0x14
  | DIRECT_MESSAGE => 0x20
  | MESSAGE_RECEIVED => 0x21
  | TYPING_STATUS => 0x22
  | GET_CONVERSATION_HISTORY => 0x23
  | DELETE_CONVERSATION => 0x24
  | CREATE_GROUP => 0x30
  | INVITE_TO_GROUP => 0x31
  | REMOVE_FROM_GROUP => 0x32
  | LEAVE_GROUP => 0x33
  | GROUP_MESSAGE => 0x34
  | GET_GROUP_HISTORY => 0x35
  | GET_USER_GROUPS => 0x36
  | ADD_GROUP_MEMBERS => 0x37
  | RENAME_GROUP => 0x38
  | SET_GROUP_NICKNAME => 0x39
  | ACCEPT_GROUP_INVITE => 0x3A
  | DECLINE_GROUP_INVITE => 0x3B
  | MAKE_ADMIN => 0x3C
  | USER_ONLINE => 0x40
  | USER_OFFLINE => 0x41
  | SUCCESS => 0xF0
  | ERROR => 0xF1
  | HEARTBEAT => 0xFF

/-- Every message type. -/
def all : List MessageType :=
  [REGISTER, LOGIN, LOGOUT, SEARCH_USER, GET_ALL_USERS, FRIEND_REQUEST, FRIEND_ACCEPT,
    FRIEND_DECLINE, UNFRIEND, GET_FRIENDS_LIST, DIRECT_MESSAGE, MESSAGE_RECEIVED, TYPING_STATUS,
    GET_CONVERSATION_HISTORY, DELETE_CONVERSATION, CREATE_GROUP, INVITE_TO_GROUP,
    REMOVE_FROM_GROUP, LEAVE_GROUP, GROUP_MESSAGE, GET_GROUP_HISTORY, GET_USER_GROUPS,
    ADD_GROUP_MEMBERS, RENAME_GROUP, SET_GROUP_NICKNAME, ACCEPT_GROUP_INVITE,
    DECLINE_GROUP_INVITE, MAKE_ADMIN, USER_ONLINE, USER_OFFLINE, SUCCESS, ERROR, HEARTBEAT]

/-- The message type a byte stands for, if it stands for one. -/
def ofByte (b : UInt8) : Option MessageType := all.find? fun t => t.toByte = b

/-- Distinct message types have distinct bytes. -/
theorem ofByte_toByte (t : MessageType) : ofByte t.toByte = some t := by
  cases t <;> decide

end MessageType

/-! ## Headers -/

/-- `proto::MAGIC`, the ASCII letters `CHAT`. -/
def MAGIC : UInt32 := 0x43484154

/-- `proto::VERSION`. -/
def VERSION : UInt8 := 1

/-- The fields `handle_client` decodes from the 32 header bytes. -/
structure Header where
  magic : UInt32
  version : UInt8
  type : UInt8
  timestamp : UInt64
  userId : UInt32
  checksum : UInt32
  deriving DecidableEq

/-- `htonl`, as the bytes it leaves in memory. -/
def htonl (n : UInt32) : Bytes :=
  [(n >>> 24).toUInt8, (n >>> 16).toUInt8, (n >>> 8).toUInt8, n.toUInt8]

/-- `network::write_header`; `ts` is what `time(nullptr)` returned. -/
def write_header (type : UInt8) (length userId : UInt32) (ts : UInt64) : Bytes :=
  htonl MAGIC ++ [VERSION, type] ++ htonl length
    ++ htonl (ts >>> 32).toUInt32 ++ htonl ts.toUInt32
    ++ htonl userId ++ htonl 0 ++ List.replicate 6 0

/-! ## Sending -/

/-- The one operation `send_message` uses: `send_all` on the connection, which answers
whether every byte was written. -/
inductive SendAll : Type → Type 1 where
  | send_all (buf : Bytes) : SendAll Bool

/-- One call of `send_message` on a connection, with the clock value its header
carries. -/
structure Call where
  type : UInt8
  payload : Bytes
  userId : UInt32
  ts : UInt64
  deriving DecidableEq

namespace Call

/-- The header of the call's frame; the length field is the size cast to 32 bits. -/
def header (c : Call) : Bytes :=
  write_header c.type (UInt32.ofNat c.payload.length) c.userId c.ts

/-- The whole frame. -/
def frame (c : Call) : Bytes := c.header ++ c.payload

end Call

/-- `network::send_message`: the header in one call of `send_all`, and the payload,
unless it is empty, in a second. -/
def send_message (c : Call) : Program SendAll Bool := do
  let sent_header ← Program.perform (.send_all c.header)
  if sent_header = false then pure false
  else if c.payload = [] then pure true
  else do
    let sent_payload ← Program.perform (.send_all c.payload)
    if sent_payload = false then pure false else pure true

end ChatApp
