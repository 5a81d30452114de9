/-
`ClientRequests.lean` -- the payloads the client sends: the methods of `network/NetworkManager.kt` that take
what the user types, and `cpp/message_serializer.cpp`, through which one of them goes.

A Kotlin string is its bytes as `jstringToString` hands them to the native code; a string that the native
code returns to Kotlin and gets back is the same bytes. A Kotlin `Int` has 32 bits and is printed with
its sign, but `serializeChatMessage` takes the id as a `uint32_t`.
-/
import ChatApp.Codecs
import ChatApp.CryptoUtils
import ChatApp.HandleClient
import ChatApp.UrlEncoder

set_option autoImplicit false

namespace ChatApp

/-! ## `MessageSerializer` -/

namespace MessageSerializer

/-- `data[k] = v;` of a `std::map`, whose pairs are in the order of their keys. -/
def assign (k v : Bytes) : List (Bytes × Bytes) → List (Bytes × Bytes)
  | [] => [(k, v)]
  | p :: ps =>
    if k = p.1 then (k, v) :: ps
    else if k < p.1 then (k, v) :: p :: ps
    else p :: assign k v ps

/-- One turn of the loop of `serialize`: the stream, and whether the pair is the first. Key and value
are written as they are. -/
def write_pair (st : Bytes × Bool) (pair : Bytes × Bytes) : Bytes × Bool :=
  ((if st.2 then st.1 else st.1 ++ [38]) ++ pair.1 ++ [61] ++ pair.2, false)

/-- `MessageSerializer::serialize`. -/
def serialize (data : List (Bytes × Bytes)) : Bytes := (data.foldl write_pair ([], true)).1

/-- `MessageSerializer::serializeChatMessage`. -/
def serializeChatMessage (recipientId : UInt32) (message : Bytes) : Bytes :=
  serialize (assign (str "message") message (assign (str "recipientId") (to_string recipientId.toNat) []))

/-- The loop writes what `utils::serialize_kv` writes. -/
theorem serialize_eq (data : List (Bytes × Bytes)) : serialize data = serialize_kv data := by
  have hloop : ∀ (ps : List (Bytes × Bytes)) (out : Bytes), (ps.foldl write_pair (out, false)).1
      = out ++ (ps.map fun p => 38 :: (p.1 ++ 61 :: p.2)).flatten := by
    intro ps
    induction ps with
    | nil => exact fun out => (List.append_nil out).symm
    | cons p ps ih =>
      intro out
      rw [List.foldl_cons, write_pair, ih]
      simp
  have hjoin : ∀ (p : Bytes × Bytes) (ps : List (Bytes × Bytes)), serialize_kv (p :: ps)
      = p.1 ++ 61 :: p.2 ++ (ps.map fun p => 38 :: (p.1 ++ 61 :: p.2)).flatten := by
    intro p ps
    induction ps generalizing p with
    | nil =>
      rw [serialize_kv, List.map_singleton, List.intercalate_singleton, List.map_nil, List.flatten_nil,
        List.append_nil]
    | cons q ps ih =>
      have hrest := ih q
      rw [serialize_kv, List.map_cons] at hrest
      rw [serialize_kv, List.map_cons, List.map_cons, List.intercalate_cons_cons, hrest]
      simp
  cases data with
  | nil => rfl
  | cons p ps =>
    rw [serialize, List.foldl_cons, write_pair, hloop, hjoin]
    simp

end MessageSerializer

/-! ## `NetworkManager` -/

namespace NetworkManager

/-- `register`: the payload of `serializeRegister`. -/
def register (username password email phone : Bytes) : Bytes :=
  str "username=" ++ username ++ str "&password=" ++ CryptoUtils.sha256 password ++ str "&email=" ++ email
    ++ str "&phone=" ++ phone

/-- `sendChatMessage`. -/
def sendChatMessage (recipientId : Int32) (message : Bytes) : Bytes :=
  MessageSerializer.serializeChatMessage recipientId.toUInt32 message

/-- `sendGroupMessage`. -/
def sendGroupMessage (groupId : Int32) (message : Bytes) : Bytes :=
  str "groupId=" ++ to_string groupId.toInt ++ str "&message=" ++ message

/-- `sendFriendRequest`. -/
def sendFriendRequest (friendUsername : Bytes) : Bytes := str "username=" ++ friendUsername

/-- `searchUsers`. -/
def searchUsers (query : Bytes) : Bytes := str "query=" ++ query

/-- `createGroup`; the ids are joined by commas. -/
def createGroup (groupName : Bytes) (memberIds : List Int32) : Bytes :=
  str "name=" ++ groupName ++ str "&members=" ++ [44].intercalate (memberIds.map fun id => to_string id.toInt)

/-- `renameGroup`; the name is encoded as in a form. -/
def renameGroup (groupId : Int32) (newName : Text) : Bytes :=
  str "groupId=" ++ to_string groupId.toInt ++ str "&name=" ++ URLEncoder.encode newName

/-- `setGroupNickname`; so is the nickname. -/
def setGroupNickname (groupId userId : Int32) (nickname : Text) : Bytes :=
  str "groupId=" ++ to_string groupId.toInt ++ str "&userId=" ++ to_string userId.toInt ++ str "&nick="
    ++ URLEncoder.encode nickname

end NetworkManager

end ChatApp
