/-
`ServerState.lean` -- `include/data_models.h` and the globals of
`include/server_state.h`.

A user id is an `int`. `current_user_id` is the one variable that holds ids as
`uint32_t`; it is kept here as the `int` it converts to, and `u32` converts back
where the source prints it or puts it in a header.
-/
import ChatApp.Protocol

set_option autoImplicit false

namespace ChatApp

/-! ## `data_models.h` -/

/-- `data::User`, with the fields the handlers read. -/
structure User where
  id : Int
  username : Bytes
  password_hash : Bytes
  phone : Bytes
  deriving DecidableEq

/-- `data::Group`. -/
structure Group where
  id : Int
  name : Bytes
  ownerId : Int
  members : UMap Int Bool
  admins : UMap Int Bool
  member_nicknames : UMap Int Bytes
  deriving DecidableEq

/-- The value `g_groups[gid]` inserts for a missing group. -/
instance : Inhabited Group := ⟨⟨0, [], 0, ∅, ∅, ∅⟩⟩

/-- The value `g_users_by_id[uid]` would insert for a missing user. -/
instance : Inhabited User := ⟨⟨0, [], [], []⟩⟩

/-- `data::PendingMsg`. -/
structure PendingMsg where
  type : MessageType
  payload : Bytes
  fromUserId : UInt32
  deriving DecidableEq

/-! ## `server_state.h` -/

/-- The globals that `g_mutex` guards. -/
structure ServerState where
  g_users_by_name : UMap Bytes User
  g_users_by_id : UMap Int User
  g_next_user_id : Int
  g_friends : UMap Int (UMap Int Bool)
  g_friend_requests : UMap Int (List Int)
  g_online_clients : UMap Int Int
  g_groups : UMap Int Group
  g_next_group_id : Int
  g_offline_messages : UMap Int (List PendingMsg)

/-- The globals as they are initialised. -/
def ServerState.initial : ServerState where
  g_users_by_name := ∅
  g_users_by_id := ∅
  g_next_user_id := 1
  g_friends := ∅
  g_friend_requests := ∅
  g_online_clients := ∅
  g_groups := ∅
  g_next_group_id := 1
  g_offline_messages := ∅

/-- The globals, by name. -/
inductive Var where
  | g_users_by_name | g_users_by_id | g_next_user_id | g_friends | g_friend_requests
  | g_online_clients | g_groups | g_next_group_id | g_offline_messages
  deriving DecidableEq

namespace Var

/-- The type of a global. -/
@[reducible] def Ty : Var → Type
  | g_users_by_name => UMap Bytes User
  | g_users_by_id => UMap Int User
  | g_next_user_id => Int
  | g_friends => UMap Int (UMap Int Bool)
  | g_friend_requests => UMap Int (List Int)
  | g_online_clients => UMap Int Int
  | g_groups => UMap Int Group
  | g_next_group_id => Int
  | g_offline_messages => UMap Int (List PendingMsg)

/-- Read a global. -/
def get : (x : Var) → ServerState → x.Ty
  | g_users_by_name, s => s.g_users_by_name
  | g_users_by_id, s => s.g_users_by_id
  | g_next_user_id, s => s.g_next_user_id
  | g_friends, s => s.g_friends
  | g_friend_requests, s => s.g_friend_requests
  | g_online_clients, s => s.g_online_clients
  | g_groups, s => s.g_groups
  | g_next_group_id, s => s.g_next_group_id
  | g_offline_messages, s => s.g_offline_messages

/-- Apply a function to a global. -/
def modify : (x : Var) → (x.Ty → x.Ty) → ServerState → ServerState
  | g_users_by_name, f, s => { s with g_users_by_name := f s.g_users_by_name }
  | g_users_by_id, f, s => { s with g_users_by_id := f s.g_users_by_id }
  | g_next_user_id, f, s => { s with g_next_user_id := f s.g_next_user_id }
  | g_friends, f, s => { s with g_friends := f s.g_friends }
  | g_friend_requests, f, s => { s with g_friend_requests := f s.g_friend_requests }
  | g_online_clients, f, s => { s with g_online_clients := f s.g_online_clients }
  | g_groups, f, s => { s with g_groups := f s.g_groups }
  | g_next_group_id, f, s => { s with g_next_group_id := f s.g_next_group_id }
  | g_offline_messages, f, s => { s with g_offline_messages := f s.g_offline_messages }

/-- Writing one global leaves every other as it was. -/
theorem get_modify_ne {x y : Var} (h : y ≠ x) (f : x.Ty → x.Ty) (s : ServerState) :
    y.get (x.modify f s) = y.get s := by
  cases x <;> cases y <;> first | rfl | exact absurd rfl h

end Var

/-! ## What the handlers read of it -/

namespace ServerState

/-- `g_friends[a].count(b) && g_friends[a][b]`. -/
def isFriend (s : ServerState) (a b : Int) : Bool := (s.g_friends.get a).get b

/-- The value of `fd` after the lookup loops of the source: the connection of an
online user, or `-1`. -/
def online_fd (s : ServerState) (uid : Int) : Int := (s.g_online_clients.find? uid).getD (-1)

/-- `g_users_by_id.count(uid) ? g_users_by_id[uid].username : dflt`. -/
def username_or (s : ServerState) (uid : Int) (dflt : Bytes) : Bytes :=
  ((s.g_users_by_id.find? uid).map User.username).getD dflt

end ServerState

end ChatApp
