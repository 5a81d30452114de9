/-
`HandleFriends.lean` -- the cases of `handle_client` about the friend graph:
`GET_FRIENDS_LIST`, `FRIEND_REQUEST`, `FRIEND_ACCEPT`, `FRIEND_DECLINE`, `UNFRIEND`.

The friend graph is `g_friends`, one map of flags for each user, and the pending
requests are `g_friend_requests`, keyed by the user they are addressed to. What a
case does to the two is a function of its own here (`befriend`, `forget`, ...), and
the case is the program around it.
-/
import ChatApp.HandleAccounts

set_option autoImplicit false

namespace ChatApp

open Prog PostgresPersistence

/-! ## What the cases do to the globals -/

/-- `g_friends`: for each user, its friends. -/
abbrev Friends : Type := UMap Int (UMap Int Bool)

/-- `g_friend_requests`: for each user, who has asked. -/
abbrev Pending : Type := UMap Int (List Int)

/-- `g_friends[a][b] = true; g_friends[b][a] = true;` -/
def befriend (a b : Int) (g : Friends) : Friends :=
  (g.update a fun m => m.set b true).update b fun m => m.set a true

/-- `g_friends[a].erase(b); g_friends[b].erase(a);` -/
def unfriend_pair (a b : Int) (g : Friends) : Friends :=
  (g.update a fun m => m.erase b).update b fun m => m.erase a

/-- `vec.erase(std::remove(vec.begin(), vec.end(), a), vec.end())` for the pending list
`vec` of `b`. -/
def forget (a b : Int) (g : Pending) : Pending := g.update b fun vec => vec.filter (· ≠ a)

/-- The entries `alreadyFriends` reads, which the reading creates: the second lookup
is made only when the first finds nothing. -/
def touch_pair (a b : Int) (g : Friends) : Friends :=
  if (g.get a).get b then g.touch a else (g.touch a).touch b

namespace handle_client

variable (pg : Bool) (fd me : Int)

/-! ## `GET_FRIENDS_LIST` -/

/-- The items of one friend. -/
def friend_item (s : ServerState) (fid : Int) (i : Nat) : List (Bytes × Bytes) :=
  [(key "id" i, to_string fid),
    (key "name" i, s.username_or fid (str "User" ++ to_string fid))]

/-- The items of the friends of `me`. -/
def friend_items (s : ServerState) : List (Bytes × Bytes) :=
  let friends := ((s.g_friends.get me).toList.filter fun e => e.2).map Prod.fst
  (str "count", to_string friends.length)
    :: (friends.zipIdx.map fun e => friend_item s e.1 e.2).flatten

/-- The items of one pending request. -/
def request_item (from_ : Int) (j : Nat) : Prog [] (List (Bytes × Bytes)) := do
  let uname ← locked (read fun s => s.username_or from_ (str "User" ++ to_string from_))
  pure [(key "req_id" j, to_string from_), (key "req_name" j, uname)]

/-- What merging the pending requests may write. -/
abbrev merge_writes : List Field := [.var .g_friend_requests]

/-- The pending requests: those in memory and, after them, those of the database,
which are put back into memory. -/
def merge_pending (inMemory : List Int) : Prog merge_writes (List Int) :=
  if pg then do
    let db_requests ← (get_pending_requests me).lift
    let pendingFromUsers := add_missing inMemory (db_requests.map FriendRequestRow.from_user_id)
    locked (modify .g_friend_requests fun g =>
      g.update me fun memPend => add_missing memPend pendingFromUsers)
    pure pendingFromUsers
  else pure inMemory

/-- `case proto::GET_FRIENDS_LIST`. -/
def get_friends_list :
    Prog [.var .g_friends, .var .g_friend_requests, .out] Outcome := do
  let (items, inMemory) ← locked do
    modify .g_friends fun g => g.touch me
    read fun s => (friend_items me s, s.g_friend_requests.get me)
  let pendingFromUsers ← (merge_pending pg me inMemory).lift
  let requests ← (pendingFromUsers.zipIdx.mapM fun e => request_item e.1 e.2).lift
  andNext (reply fd .SUCCESS (serialize_kv (items
    ++ (str "pendingCount", to_string pendingFromUsers.length) :: requests.flatten)) (u32 me))

/-! ## `FRIEND_REQUEST` -/

/-- How a `FRIEND_REQUEST` names its target. -/
inductive Target where
  | username (name : Bytes)
  | id (uid : Int)
  | missing
  deriving DecidableEq

/-- The fields of a `FRIEND_REQUEST`. The id is parsed only without a user name. -/
def friend_request_target (payload : Bytes) : Except Fault Target :=
  if has_field payload "username" then pure (.username (field payload "username"))
  else if has_field payload "targetUserId" then do
    let targetId ← stoi (field payload "targetUserId")
    pure (.id targetId)
  else pure .missing

/-- The user a target names, or what the request is refused with. -/
def find_target : Target → Prog [] (Except Bytes Int)
  | .username name => locked (read fun s =>
    match s.g_users_by_id.toList.find? fun e => e.2.username = name with
    | some e => .ok e.1
    | none => .error (str "User not found"))
  | .id uid => pure (.ok uid)
  | .missing => pure (.error (str "Missing username or targetUserId"))

/-- What storing a request may write. -/
abbrev request_writes : List Field :=
  [.var .g_friends, .var .g_friend_requests, .table .friend_requests, .table .activity_logs]

/-- The database part of storing a request: the error it is refused with, if it
is. -/
def store_request_db (targetId : Int) :
    Prog [.table .friend_requests, .table .activity_logs] (Option Bytes) :=
  if pg then do
    let pending ← (has_pending_request me targetId).lift
    if pending then pure (some (str "Friend request already sent"))
    else do
      let sent ← send_friend_request me targetId
      pure (if sent then none else some (str "Failed to send friend request"))
  else pure none

/-- The critical section that stores a request. A request that memory already holds
is refused after the database has taken it. -/
def store_request (targetId : Int) : Prog request_writes (Option Bytes) := locked do
  let alreadyFriends ← read fun s => s.isFriend me targetId || s.isFriend targetId me
  modify .g_friends (touch_pair me targetId)
  if alreadyFriends then pure (some (str "Already friends"))
  else do
    let refused ← (store_request_db pg me targetId).lift
    if refused.isSome then pure refused
    else do
      let known ← read fun s => decide (me ∈ s.g_friend_requests.get targetId)
      modify .g_friend_requests fun g => g.update targetId fun vec => add_missing vec [me]
      pure (if known then some (str "Friend request already sent") else none)

/-- What the notice to the target may write. -/
abbrev notify_writes : List Field := [.out]

/-- The notice to the target, sent with the lock held. -/
def notify_target (targetId : Int) : Prog notify_writes Unit := locked do
  let target_fd ← read fun s => s.g_online_clients.find? targetId
  let fromUsername ← read fun s => s.username_or me (str "User" ++ to_string (u32 me).toNat)
  when target_fd.isSome (reply (target_fd.getD 0) .FRIEND_REQUEST
    (serialize_kv [(str "fromUserId", to_string (u32 me).toNat),
      (str "fromUsername", fromUsername)]) (u32 me))

/-- `case proto::FRIEND_REQUEST`. -/
def friend_request (target : Target) : Prog (.out :: request_writes) Outcome := do
  let found ← (find_target target).lift
  match found with
  | .error e => andNext (reply fd .ERROR e (u32 me))
  | .ok targetId =>
    andNext <|
      if targetId = me then reply fd .ERROR (str "Cannot friend yourself") (u32 me)
      else do
        let refused ← (store_request pg me targetId).lift
        if refused.isSome then reply fd .ERROR (refused.getD []) (u32 me)
        else do
          (notify_target me targetId).lift
          reply fd .SUCCESS (str "Friend request sent") (u32 me)

/-! ## `FRIEND_ACCEPT`, `FRIEND_DECLINE`, `UNFRIEND` -/

/-- What `FRIEND_ACCEPT` may write. -/
abbrev accept_writes : List Field :=
  .var .g_friends :: .var .g_friend_requests :: .out :: transaction_writes

/-- What `FRIEND_ACCEPT` does once the database has answered. -/
def accept_in_memory (other : Int) (success : Bool) :
    Prog [.var .g_friends, .var .g_friend_requests, .out] Unit :=
  if !success then reply fd .ERROR (str "Failed to accept friend request") (u32 me)
  else do
    modify .g_friend_requests fun g => forget me other (forget other me g)
    modify .g_friends (befriend me other)
    reply fd .SUCCESS (str "Friend request accepted") (u32 me)

/-- `case proto::FRIEND_ACCEPT`. -/
def friend_accept (other : Int) : Prog accept_writes Outcome := andNext <| locked do
  let success ← if pg then (accept_friend_request other me).lift else pure true
  (accept_in_memory fd me other success).lift

/-- What `FRIEND_DECLINE` may write. -/
abbrev decline_writes : List Field :=
  [.var .g_friend_requests, .table .friend_requests, .table .activity_logs, .out]

/-- `case proto::FRIEND_DECLINE`. -/
def friend_decline (other : Int) : Prog decline_writes Outcome := andNext <| locked do
  when pg do
    let _ ← (decline_friend_request other me).lift
    pure ()
  modify .g_friend_requests (forget other me)
  reply fd .SUCCESS (str "Friend request declined") (u32 me)

/-- `case proto::UNFRIEND`. The database is not told. -/
def unfriend (other : Int) :
    Prog [.var .g_friends, .var .g_friend_requests, .out] Outcome := andNext <| locked do
  modify .g_friends (unfriend_pair me other)
  modify .g_friend_requests fun g => forget me other (forget other me g)
  reply fd .SUCCESS (str "Unfriended") (u32 me)

end handle_client

end ChatApp
