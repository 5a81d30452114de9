/-
`HandleAccounts.lean` -- the cases of `handle_client` about accounts and presence:
`HEARTBEAT`, `REGISTER`, `LOGIN`, `LOGOUT`, `SEARCH_USER`, `GET_ALL_USERS`, and the
cleanup block a connection ends with.

`pg` says whether `g_pg_persistence` is set, which `main` decides before it accepts
the first connection. `fd` is the handler's connection and `me` its
`current_user_id` when the frame arrives.
-/
import ChatApp.Delivery

set_option autoImplicit false

namespace ChatApp

open Prog PostgresPersistence

/-! ## `src/persistence.cpp` -/

/-- One line of the users file. -/
def user_line (u : User) : Bytes :=
  to_string u.id ++ 9 :: u.username ++ 9 :: u.password_hash ++ 9 :: u.phone ++ [10]

/-- `persistence::save_users`: the contents it writes. -/
def save_users (users_by_name : UMap Bytes User) : Bytes :=
  (users_by_name.toList.map fun e => user_line e.2).flatten

namespace handle_client

variable (pg : Bool) (fd me : Int) (payload : Bytes)

/-! ## `HEARTBEAT` -/

/-- `case proto::HEARTBEAT`, and the default case, which does the same. -/
def heartbeat : Prog [.out] Outcome := andNext (reply fd .SUCCESS [] (u32 me))

/-! ## `REGISTER` and `LOGIN` -/

/-- The reply to a successful `REGISTER` or `LOGIN`. -/
def welcome (uid : Int) (username : Bytes) : Bytes :=
  serialize_kv [(str "success", str "true"), (str "userId", to_string uid),
    (str "token", str "demo_token"), (str "username", username)]

/-- The value of an `int` counter after `++`. -/
def succ_int (n : Int) : Int := Int.bmod (n + 1) (2 ^ 32)

/-- What assigning an id may write. -/
abbrev register_id_writes : List Field :=
  [.var .g_next_user_id, .table .users, .table .activity_logs, .users_file]

/-- The id of a new user: the database's, or the counter's. In file mode the users
are saved at this point, before the new one is among them. -/
def register_id (username password phone : Bytes) : Prog register_id_writes (Option Int) :=
  if pg then do
    let uid ← (create_user username password phone).lift
    when uid.isSome do
      let _ ← (update_user_online_status (uid.getD 0) true).lift
      pure ()
    pure uid
  else do
    let uid ← read fun s => s.g_next_user_id
    modify .g_next_user_id succ_int
    let users ← read fun s => s.g_users_by_name
    write_file (save_users users)
    pure (some uid)

/-- What `REGISTER` may write. -/
abbrev register_writes : List Field :=
  [.var .g_users_by_name, .var .g_users_by_id, .var .g_next_user_id, .var .g_friends,
    .var .g_friend_requests, .var .g_online_clients, .table .users, .table .activity_logs,
    .users_file, .conns, .out]

/-- The end of `REGISTER`: enter the user into the tables and log the connection in
as it. -/
def register_user (u : User) : Prog register_writes Unit := do
  modify .g_users_by_name fun m => m.set u.username u
  modify .g_users_by_id fun m => m.set u.id u
  modify .g_friends fun m => m.touch u.id
  modify .g_friend_requests fun m => m.touch u.id
  set_user fd u.id
  modify .g_online_clients fun m => m.set u.id fd
  modify .g_next_user_id fun n => if n ≤ u.id then succ_int u.id else n
  reply fd .SUCCESS (welcome u.id u.username) (u32 u.id)

/-- `case proto::REGISTER`. -/
def register : Prog register_writes Outcome :=
  let username := field payload "username"
  let password := field payload "password"
  let phone := field payload "phone"
  andNext <|
    if username = [] ∨ password = [] then reply fd .ERROR (str "Missing username/password") 0
    else locked do
      let taken ← read fun s => s.g_users_by_name.count username
      if taken then reply fd .ERROR (str "Username already exists") 0
      else do
        let uid ← (register_id pg username password phone).lift
        if uid.isNone then reply fd .ERROR (str "Failed to create user in database") 0
        else register_user fd ⟨uid.getD 0, username, password, phone⟩

/-- What the critical section of `LOGIN` collects. -/
structure Login where
  uid : Int
  pendingRequests : List Int
  offlineMessages : List PendingMsg

/-- Add each of `froms` that is missing to the end of a pending list. -/
def add_missing (vec froms : List Int) : List Int :=
  froms.foldl (fun v a => if a ∈ v then v else v ++ [a]) vec

/-- What the critical section of `LOGIN` may write. -/
abbrev login_writes : List Field :=
  [.var .g_online_clients, .var .g_friend_requests, .var .g_offline_messages, .table .users,
    .table .activity_logs, .conns, .out]

/-- The online flag of a login, in the database. -/
def mark_online (uid : Int) : Prog [.table .users, .table .activity_logs] Unit :=
  when pg do
    let _ ← update_user_online_status uid true
    pure ()

/-- The pending requests a login finds: the database's, which are also added to
`g_friend_requests`, or those in memory. -/
def login_pending (uid : Int) : Prog [.var .g_friend_requests] (List Int) :=
  if pg then do
    let db_requests ← (get_pending_requests uid).lift
    let froms := db_requests.map FriendRequestRow.from_user_id
    when (!froms.isEmpty)
      (modify .g_friend_requests fun g => g.update uid fun vec => add_missing vec froms)
    pure froms
  else read fun s => s.g_friend_requests.get uid

/-- The critical section of `LOGIN`; `none` when the credentials are refused. -/
def login_session : Prog login_writes (Option Login) :=
  let username := field payload "username"
  let password := field payload "password"
  locked do
    let user ← read fun s => s.g_users_by_name.find? username
    if (user.map User.password_hash) ≠ some password then do
      reply fd .ERROR (str "Invalid credentials") 0
      pure none
    else do
      let uid := (user.map User.id).getD 0
      set_user fd uid
      modify .g_online_clients fun m => m.set uid fd
      (mark_online pg uid).lift
      let pendingRequests ← (login_pending pg uid).lift
      let offlineMessages ← read fun s => s.g_offline_messages.get uid
      modify .g_offline_messages fun q => q.erase uid
      pure (some ⟨uid, pendingRequests, offlineMessages⟩)

/-- The notice of one pending friend request. -/
def send_pending_request (fromUserId : Int) : Prog [.out] Unit := do
  let fromUsername ← locked
    (read fun s => s.username_or fromUserId (str "User" ++ to_string fromUserId))
  reply fd .FRIEND_REQUEST
    (serialize_kv [(str "fromUserId", to_string fromUserId), (str "fromUsername", fromUsername)])
    (u32 fromUserId)

/-- The notice of one pending group invite. The group's name is read without the
lock. -/
def send_pending_invite (inv : GroupInviteRow) : Prog [.out] Unit := do
  let name ← read fun s => ((s.g_groups.find? inv.group_id).map Group.name).getD []
  reply fd .INVITE_TO_GROUP
    (serialize_kv [(str "groupId", to_string inv.group_id), (str "name", name),
      (str "fromUserId", to_string inv.from_user_id)])
    (u32 inv.from_user_id)

/-- The rest of `LOGIN`, outside the critical section. -/
def login_deliver (username : Bytes) (l : Login) : Prog [.var .g_friends, .out] Unit := do
  reply fd .SUCCESS (welcome l.uid username) (u32 l.uid)
  notify_friends_status_change l.uid true
  (l.pendingRequests.forM (send_pending_request fd)).lift
  when pg do
    let pendingInvites ← (get_pending_group_invites l.uid).lift
    (pendingInvites.forM (send_pending_invite fd)).lift
  l.offlineMessages.forM fun m => reply fd m.type m.payload m.fromUserId

/-- `case proto::LOGIN`. -/
def login : Prog (.var .g_friends :: login_writes) Outcome := do
  let session ← (login_session pg fd payload).lift
  match session with
  | none => pure .next
  | some l => andNext (login_deliver pg fd (field payload "username") l).lift

/-! ## `LOGOUT` and the end of a connection -/

/-- What ending a session may write. -/
abbrev logout_writes : List Field := [.var .g_online_clients, .var .g_friends, .out]

/-- Take the session's user offline and tell its friends: the common part of
`LOGOUT` and of the cleanup block. -/
def go_offline : Prog logout_writes Unit := do
  locked (when (me ≠ 0) (modify .g_online_clients fun m => m.erase me))
  when (me ≠ 0) (notify_friends_status_change me false).lift

/-- `case proto::LOGOUT`. -/
def logout : Prog logout_writes Outcome := do
  go_offline me
  reply fd .SUCCESS [] (u32 me)
  pure .cleanup

/-- The `cleanup` block. -/
def cleanup : Prog [.var .g_online_clients, .var .g_friends, .conns, .out] Unit := do
  (go_offline me).lift
  close fd

/-! ## `SEARCH_USER` and `GET_ALL_USERS` -/

/-- `isFriend ? "1" : "0"`. -/
def flag (b : Bool) : Bytes := if b then str "1" else str "0"

/-- The items of one search result. -/
def search_item (s : ServerState) (requester_id : Int) (u : User) (i : Nat) :
    List (Bytes × Bytes) :=
  [(key "id" i, to_string u.id), (key "name" i, u.username), (key "phone" i, u.phone),
    (key "isFriend" i, flag (s.isFriend requester_id u.id))]

/-- `case proto::SEARCH_USER`: the first twenty users, in iteration order, whose
name contains the query. Reading a friend flag leaves a default entry for the
requester. -/
def search_user (requester_id : Int) : Prog [.var .g_friends, .out] Outcome :=
  let query := field payload "query"
  andNext <| locked do
    let hits ← read fun s => ((s.g_users_by_name.toList.map Prod.snd).filter fun u =>
      u.id ≠ requester_id && contains (tolower u.username) (tolower query)).take 20
    when (!hits.isEmpty) (modify .g_friends fun g => g.touch requester_id)
    let items ← read fun s => (hits.zipIdx.map fun h => search_item s requester_id h.1 h.2).flatten
    reply fd .SUCCESS (serialize_kv ((str "count", to_string hits.length) :: items))
      (u32 requester_id)

/-- The items of one user of the full list. -/
def user_item (s : ServerState) (requester_id uid : Int) (uname : Bytes) (i : Nat) :
    List (Bytes × Bytes) :=
  [(key "id" i, to_string uid), (key "name" i, uname),
    (key "isFriend" i, flag (s.isFriend requester_id uid))]

/-- `case proto::GET_ALL_USERS`. -/
def get_all_users (requester_id : Int) : Prog [.var .g_friends, .out] Outcome :=
  andNext <| locked do
    let others ← read fun s => s.g_users_by_id.toList.filter fun e => e.1 ≠ requester_id
    when (!others.isEmpty) (modify .g_friends fun g => g.touch requester_id)
    let items ← read fun s =>
      (others.zipIdx.map fun o => user_item s requester_id o.1.1 o.1.2.username o.2).flatten
    reply fd .SUCCESS (serialize_kv ((str "count", to_string others.length) :: items))
      (u32 requester_id)

end handle_client

end ChatApp
