/-
`ClientSocket.lean` -- `protocol_handler.cpp` and the receive loop of `socket_manager.cpp`, on the client.

The client has its own encoder and its own decoder of the 32-byte header. Its receive loop is pushed the
bytes as they come: it keeps them in a buffer and takes every complete message out of it.
-/
import ChatApp.Receiving

set_option autoImplicit false

namespace ChatApp

/-! ## `ProtocolHandler` -/

namespace ProtocolHandler

/-- `PROTOCOL_MAGIC`. -/
def PROTOCOL_MAGIC : UInt32 := 0x43484154

/-- `PROTOCOL_VERSION`. -/
def PROTOCOL_VERSION : UInt8 := 1

/-- `htonll`, as the bytes it leaves in memory: its low half, which comes first, is the swapped high word. -/
def htonll (value : UInt64) : Bytes := htonl (value >>> 32).toUInt32 ++ htonl value.toUInt32

/-- `ntohll` of the eight bytes at `offset`. Its low word is the one at the lower address, where `htonll` puts
the high one: the two do not undo each other. -/
def ntohll (buf : Bytes) (offset : Nat) : UInt64 :=
  ((ntohl buf (offset + 4)).toUInt64 <<< 32) ||| (ntohl buf offset).toUInt64

/-- `createMessage`; `now` is what `time(nullptr)` returned. -/
def createMessage (type : UInt8) (payload : Bytes) (userId : UInt32) (now : UInt64) : Bytes :=
  htonl PROTOCOL_MAGIC ++ [PROTOCOL_VERSION, type] ++ htonl (UInt32.ofNat payload.length)
    ++ htonll now ++ htonl userId ++ htonl 0 ++ List.replicate 6 0 ++ payload

/-- `ProtocolHeader`. -/
structure ProtocolHeader where
  magic : UInt32
  version : UInt8
  type : UInt8
  length : UInt32
  timestamp : UInt64
  userId : UInt32
  checksum : UInt32
  deriving DecidableEq

/-- `parseMessage`. The sum `32 + payload_length` is one of 32 bits. -/
def parseMessage (data : Bytes) : Option (ProtocolHeader × Bytes) :=
  if data.length < 32 then none
  else
    let header : ProtocolHeader :=
      { magic := ntohl data 0, version := data.getD 4 0, type := data.getD 5 0, length := ntohl data 6
        timestamp := ntohll data 10, userId := ntohl data 18, checksum := ntohl data 22 }
    if header.magic ≠ PROTOCOL_MAGIC then none
    else if header.version ≠ PROTOCOL_VERSION then none
    else if data.length < (32 + header.length).toNat then none
    else some (header, if 0 < header.length then (data.drop 32).take header.length.toNat else [])

end ProtocolHandler

/-! ## `SocketManager::receiveLoop` -/

namespace SocketManager

/-- The size of the buffer that `recv` fills. -/
def BUFFER_SIZE : Nat := 8192

/-- The size of a header. -/
def HEADER_SIZE : Nat := 32

/-- The inner loop: the messages that are complete go to the callback, and what is left stays in the buffer. A
`size_t` has 64 bits, so that the sum of the sizes does not overflow. -/
def processMessages (messageBuffer : Bytes) : List Bytes × Bytes :=
  if _h : HEADER_SIZE ≤ messageBuffer.length then
    let payloadLength := ntohl messageBuffer 6
    let totalMessageSize := HEADER_SIZE + payloadLength.toNat
    if totalMessageSize ≤ messageBuffer.length then
      let rest := processMessages (messageBuffer.drop totalMessageSize)
      (messageBuffer.take totalMessageSize :: rest.1, rest.2)
    else ([], messageBuffer)
  else ([], messageBuffer)
termination_by messageBuffer.length
decreasing_by
  rw [List.length_drop]
  have hheader : 0 < HEADER_SIZE := by decide
  omega

/-- `receiveLoop`, from what it has delivered and its buffer, over what the calls of `recv` return; nothing
stands for 0 or an error, which end it. -/
def receiveLoop (st : List Bytes × Bytes) : List Bytes → List Bytes × Bytes
  | [] => st
  | received :: more =>
    if received = [] then st else receiveLoop (Frames.push processMessages st received) more

end SocketManager

end ChatApp
