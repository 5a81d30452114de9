/-
`HandleMessages.lean` -- the cases of `handle_client` about messages and histories:
`DIRECT_MESSAGE`, `GET_CONVERSATION_HISTORY`, `GET_GROUP_HISTORY`, `GET_USER_GROUPS`,
`DELETE_CONVERSATION`.
-/
import ChatApp.HandleAccounts

set_option autoImplicit false

namespace ChatApp

open Prog PostgresPersistence

namespace handle_client

variable (pg : Bool) (fd me : Int)

/-! ## `DIRECT_MESSAGE` -/

/-- What `DIRECT_MESSAGE` may write. -/
abbrev message_writes : List Field := [.table .messages, .var .g_offline_messages, .out]

/-- The frame of a direct message. It carries the time in seconds. -/
def direct_message_frame (message : Bytes) (timestamp : Int) : PendingMsg where
  type := .DIRECT_MESSAGE
  payload := serialize_kv [(str "senderId", to_string me), (str "message", message),
    (str "timestamp", to_string (timestamp / 1000))]
  fromUserId := u32 me

/-- `case proto::DIRECT_MESSAGE`; `time(nullptr)` is the clock in whole seconds. -/
def direct_message (recipientId : Int) (message : Bytes) : Prog message_writes Outcome := do
  let ms ← now_ms
  let timestamp := ms / 1000 * 1000
  when pg do
    let _ ← (save_message me recipientId message timestamp).lift
    pure ()
  (deliver (direct_message_frame me message timestamp) recipientId).lift
  andNext (reply fd .SUCCESS (str "Message sent") (u32 me))

/-! ## Histories -/

/-- What an answer from the tables may write. -/
abbrev answer_writes : List Field := [.out]

/-- The `limit` of a history request: the field, or 50. -/
def history_limit (payload : Bytes) : Except Fault Int :=
  if has_field payload "limit" then stoi (field payload "limit") else pure 50

/-- The items of one direct message. -/
def message_item (m : MessageRow) (i : Nat) : List (Bytes × Bytes) :=
  [(key "from" i, to_string m.from_user_id), (key "to" i, to_string m.to_user_id),
    (key "content" i, m.content), (key "timestamp" i, to_string m.timestamp)]

/-- `case proto::GET_CONVERSATION_HISTORY`, where there is a database. -/
def get_conversation_history (otherUserId limit : Int) : Prog answer_writes Outcome := do
  let messages ← (get_conversation me otherUserId limit).lift
  andNext (reply fd .SUCCESS
    (serialize_kv ((str "count", to_string messages.length)
      :: (messages.reverse.zipIdx.map fun m => message_item m.1 m.2).flatten)) (u32 me))

/-- The items of one group message. -/
def group_message_item (m : GroupMessageRow) (i : Nat) : List (Bytes × Bytes) :=
  [(key "from" i, to_string m.user_id), (key "content" i, m.content),
    (key "timestamp" i, to_string m.timestamp)]

/-- Whether `uid` is a member of the group: by the member rows, or by memory. -/
def is_member (gid uid : Int) : Prog [] Bool :=
  if pg then do
    let members ← get_group_members gid
    pure (members.any fun m => m.id = uid)
  else locked (read fun s => (s.g_groups.find? gid).any fun g => g.members.count uid)

/-- `case proto::GET_GROUP_HISTORY`. -/
def get_group_history (gid limit : Int) : Prog answer_writes Outcome := do
  let member ← (is_member pg gid me).lift
  andNext <|
    if !member then reply fd .ERROR (str "Not in group") (u32 me)
    else do
      let messages ← if pg then (get_group_messages gid limit).lift else pure []
      reply fd .SUCCESS
        (serialize_kv ((str "groupId", to_string gid) :: (str "count", to_string messages.length)
          :: (messages.reverse.zipIdx.map fun m => group_message_item m.1 m.2).flatten)) (u32 me)

/-! ## `GET_USER_GROUPS` -/

/-- `if (!csv.empty()) csv += ","; csv += token;` -/
def csv_push (csv token : Bytes) : Bytes := (if csv = [] then [] else csv ++ [44]) ++ token

/-- The items of one group, from the lists of its members. -/
def group_item (i : Nat) (gid : Int) (name : Bytes) (members nicks names admins : Bytes) :
    List (Bytes × Bytes) :=
  [(key "groupId" i, to_string gid), (key "name" i, name),
    (key "memberCount" i, to_string (members.count 44 + 1)), (key "members" i, members),
    (key "memberNicks" i, nicks), (key "memberNames" i, names), (key "memberAdmins" i, admins)]

/-- The encoded nickname of a member; an empty one stays empty. -/
def encode_nick (nick : Bytes) : Bytes := if nick = [] then [] else base64_encode nick

/-- The items of a group, from the database. -/
def group_item_db (g : GroupRow) (i : Nat) : Prog [] (List (Bytes × Bytes)) := do
  let members ← get_group_members g.id
  let nicknameMap ← get_group_member_nicknames g.id
  let admins ← members.mapM fun m => is_group_admin g.id m.id
  pure (group_item i g.id g.name
    ([44].intercalate (members.map fun m => to_string m.id))
    ((members.map fun m => encode_nick (nicknameMap.get m.id)).foldl csv_push [])
    ((members.map UserRow.username).foldl csv_push [])
    ((admins.map flag).foldl csv_push []))

/-- The items of a group, from memory. The users are looked up without the lock. -/
def group_item_mem (g : Group) (i : Nat) : Prog [] (List (Bytes × Bytes)) := do
  let names ← g.members.keys.mapM fun uid =>
    read fun s => s.username_or uid (str "User " ++ to_string uid)
  pure (group_item i g.id g.name ([44].intercalate (g.members.keys.map to_string)) []
    (names.foldl csv_push []) [])

/-- `case proto::GET_USER_GROUPS`. -/
def get_user_groups (requester_id : Int) : Prog answer_writes Outcome := do
  let items ← if pg then (do
      let groups ← PostgresPersistence.get_user_groups requester_id
      groups.zipIdx.mapM fun g => group_item_db g.1 g.2 : Prog [] _).lift
    else (do
      let groups ← locked (read fun s =>
        (s.g_groups.toList.map Prod.snd).filter fun g => g.members.count requester_id)
      groups.zipIdx.mapM fun g => group_item_mem g.1 g.2 : Prog [] _).lift
  andNext (reply fd .SUCCESS
    (serialize_kv ((str "count", to_string items.length) :: items.flatten)) (u32 me))

/-! ## `DELETE_CONVERSATION` -/

/-- `case proto::DELETE_CONVERSATION`. -/
def delete_conversation (otherUserId : Int) : Prog [.table .messages, .out] Outcome := do
  let success ← if pg then (PostgresPersistence.delete_conversation me otherUserId).lift
    else pure false
  andNext <|
    if success then reply fd .SUCCESS (str "Conversation deleted") (u32 me)
    else reply fd .ERROR (str "Failed to delete conversation") (u32 me)

end handle_client

end ChatApp
