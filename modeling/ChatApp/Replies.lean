/-
`Replies.lean` -- the payloads of `SUCCESS` frames.

A `SUCCESS` frame does not say which request it answers, and the notices about groups are `SUCCESS` frames
too. What the server can write into one is listed here: the fixed texts, the records and the lists that
the cases of `handle_client` serialize, for arbitrary data.
-/
import ChatApp.GroupLists
import ChatApp.HandleClient
import ChatApp.HistoryReplies
import ChatApp.NumberedItems

set_option autoImplicit false

namespace ChatApp

open handle_client

/-! ## Users in lists -/

/-- A user with its name. -/
structure NamedUser where
  id : Int
  name : Bytes

/-- An entry of `GET_ALL_USERS`. -/
structure ListedUser extends NamedUser where
  isFriend : Bool

/-- An entry of `SEARCH_USER`. -/
structure FoundUser extends ListedUser where
  phone : Bytes

/-- The fields of a friend. -/
def NamedUser.fields (u : NamedUser) : List (String × Bytes) := [("id", to_string u.id), ("name", u.name)]

/-- The fields of somebody who has asked. -/
def NamedUser.request_fields (u : NamedUser) : List (String × Bytes) :=
  [("req_id", to_string u.id), ("req_name", u.name)]

/-- The fields of a listed user. -/
def ListedUser.fields (u : ListedUser) : List (String × Bytes) :=
  [("id", to_string u.id), ("name", u.name), ("isFriend", flag u.isFriend)]

/-- The fields of a user that was found. -/
def FoundUser.fields (u : FoundUser) : List (String × Bytes) :=
  [("id", to_string u.id), ("name", u.name), ("phone", u.phone), ("isFriend", flag u.isFriend)]

/-- The items of a group with its rows. -/
def entry_items (e : Room.GroupEntry) (i : Nat) : List (Bytes × Bytes) :=
  group_item i e.gid e.name e.members e.nicks e.names e.admins

/-- The fields of a group with its rows. -/
def Room.GroupEntry.fields (e : Room.GroupEntry) : List (String × Bytes) :=
  [("groupId", to_string e.gid), ("name", e.name), ("memberCount", to_string (e.members.count 44 + 1)),
    ("members", e.members), ("memberNicks", e.nicks), ("memberNames", e.names), ("memberAdmins", e.admins)]

theorem group_list_numbered (es : List Room.GroupEntry) : Room.group_list es =
    serialize_kv ([(str "count", to_string es.length)] ++ numbered_items (es.map Room.GroupEntry.fields)) := by
  rw [Room.group_list, numbered_items, List.zipIdx_map, List.map_map]
  rfl

/-! ## Replies -/

/-- The texts that say only that something was done. -/
def acknowledgements : List Bytes :=
  [[], str "Friend request sent", str "Friend request accepted", str "Friend request declined",
    str "Unfriended", str "Message sent", str "Conversation deleted", str "Added", str "Accepted",
    str "Declined", str "Renamed", str "Nickname set", str "Removed", str "Made admin",
    str "Group deleted", str "Left group", str "Group message sent"]

/-- What a `SUCCESS` frame can tell. -/
inductive Reply where
  /-- Something was done. -/
  | acknowledgement (text : Bytes) (fixed : text ∈ acknowledgements)
  /-- `REGISTER` and `LOGIN`. -/
  | welcome (uid : Int) (username : Bytes)
  /-- `SEARCH_USER`. -/
  | search (hits : List FoundUser)
  /-- `GET_ALL_USERS`. -/
  | all_users (users : List ListedUser)
  /-- `GET_FRIENDS_LIST`. -/
  | friends_list (friends requests : List NamedUser)
  /-- `GET_CONVERSATION_HISTORY`. -/
  | conversation (entries : List MessageRow)
  /-- `GET_GROUP_HISTORY`. -/
  | group_history (gid : Int) (entries : List GroupMessageRow)
  /-- `GET_USER_GROUPS`. -/
  | user_groups (gs : List Room.GroupEntry)
  /-- `CREATE_GROUP`. -/
  | created (me gid : Int) (name : Bytes) (memberIds : List Int)
  /-- The notice of a new member. -/
  | joined (gid uid : Int)
  /-- The notice of a new name. -/
  | renamed (gid : Int) (newName : Bytes)
  /-- The notice that a member was removed. -/
  | member_removed (gid uid : Int)
  /-- The notice of a promotion. -/
  | promoted (gid uid : Int)

/-- The payload of a list of friends and requests. -/
def friends_reply (friends requests : List NamedUser) : Bytes :=
  serialize_kv (((str "count", to_string friends.length) :: numbered_items (friends.map NamedUser.fields))
    ++ (str "pendingCount", to_string requests.length)
      :: numbered_items (requests.map NamedUser.request_fields))

/-- The payload of the frame. -/
def Reply.payload : Reply → Bytes
  | .acknowledgement text _ => text
  | .welcome uid username => handle_client.welcome uid username
  | .search hits =>
    serialize_kv ((str "count", to_string hits.length) :: numbered_items (hits.map FoundUser.fields))
  | .all_users users =>
    serialize_kv ((str "count", to_string users.length) :: numbered_items (users.map ListedUser.fields))
  | .friends_list friends requests => friends_reply friends requests
  | .conversation entries => conversation_reply entries
  | .group_history gid entries => group_reply gid entries
  | .user_groups gs => Room.group_list gs
  | .created me gid name memberIds => created_reply me gid name memberIds
  | .joined gid uid => serialize_kv [(str "groupId", to_string gid), (str "userId", to_string uid)]
  | .renamed gid newName => (renamed_notice 0 gid newName).payload
  | .member_removed gid uid => (member_removed_notice gid uid).payload
  | .promoted gid uid => (admin_notice 0 gid uid).payload

/-- What a command answers when it succeeds, and what it tells the other members then. -/
def Command.Answers : Command → Reply → Prop
  | .register _, .welcome .. | .login _, .welcome .. => True
  | .search_user _, .search _ | .get_all_users, .all_users _ => True
  | .get_friends_list, .friends_list .. => True
  | .get_conversation_history .., .conversation _ => True
  | .get_group_history gid _, .group_history g _ => g = gid
  | .get_user_groups, .user_groups _ => True
  | .create_group .., .created .. => True
  | .accept_group_invite gid, .joined g _ => g = gid
  | .rename_group gid newName, .renamed g name => g = gid ∧ name = newName
  | .remove_from_group gid uid, .member_removed g u => g = gid ∧ u = uid
  | .make_admin gid uid, .promoted g u => g = gid ∧ u = uid
  | _, .acknowledgement .. => True
  | _, _ => False

end ChatApp
