/-
`HandleClient.lean` -- `handle_client` itself: what one frame makes it do.

Every case of the `switch` first reads the fields it needs, and `std::stoi` throws
there, before the case has done anything. So a frame is decoded to a `Command`
or to the `Fault` that ends the process (`decode`), and a command is a program
(`perform`). `handle_request` is one iteration of the loop, with the cleanup block
when the case ends the connection.
-/
import ChatApp.HandleFriends
import ChatApp.HandleMessages
import ChatApp.HandleGroups

set_option autoImplicit false

namespace ChatApp

open handle_client

/-! ## Decoding -/

/-- A case of the `switch` with the fields it works on. -/
inductive Command where
  | heartbeat
  | register (payload : Bytes)
  | login (payload : Bytes)
  | logout
  | search_user (payload : Bytes)
  | get_all_users
  | get_friends_list
  | friend_request (target : Target)
  | friend_accept (other : Int)
  | friend_decline (other : Int)
  | unfriend (other : Int)
  | direct_message (recipientId : Int) (message : Bytes)
  | get_conversation_history (otherUserId limit : Int)
  | get_group_history (gid limit : Int)
  | get_user_groups
  | delete_conversation (otherUserId : Int)
  | create_group (name : Option Bytes) (memberIds : List Int)
  | invite_to_group (gid uid : Int)
  | accept_group_invite (gid : Int)
  | decline_group_invite (gid : Int)
  | rename_group (gid : Int) (newName : Bytes)
  | set_group_nickname (gid uid : Int) (nick : Bytes)
  | remove_from_group (gid uid : Int)
  | make_admin (gid uid : Int)
  | leave_group (gid : Int)
  | group_message (gid : Int) (message : Bytes)
  | unknown
  deriving DecidableEq

/-- A decoded frame. -/
structure Request where
  header : Header
  payload : Bytes
  deriving DecidableEq

/-- `magic != proto::MAGIC || version != proto::VERSION` does not hold. -/
def Header.valid (h : Header) : Bool := h.magic = MAGIC && h.version = VERSION

/-- `requester_id`: the id in the header, or the session's when that is 0. -/
def requester_id (h : Header) (me : Int) : Int := if h.userId ≠ 0 then i32 h.userId else me

/-- The command of a frame, or what is thrown while its fields are read. A
`GET_CONVERSATION_HISTORY` calls `get_conversation` without asking whether there is a
database. -/
def decode (pg : Bool) (type : UInt8) (payload : Bytes) : Except Fault Command :=
  let int (key : String) : Except Fault Int := stoi (field payload key)
  match MessageType.ofByte type with
  | some .HEARTBEAT => pure .heartbeat
  | some .REGISTER => pure (.register payload)
  | some .LOGIN => pure (.login payload)
  | some .LOGOUT => pure .logout
  | some .SEARCH_USER => pure (.search_user payload)
  | some .GET_ALL_USERS => pure .get_all_users
  | some .GET_FRIENDS_LIST => pure .get_friends_list
  | some .FRIEND_REQUEST => do
    let target ← friend_request_target payload
    pure (.friend_request target)
  | some .FRIEND_ACCEPT => do
    let other ← int "userId"
    pure (.friend_accept other)
  | some .FRIEND_DECLINE => do
    let other ← int "userId"
    pure (.friend_decline other)
  | some .UNFRIEND => do
    let other ← int "userId"
    pure (.unfriend other)
  | some .DIRECT_MESSAGE => do
    let recipientId ← int "recipientId"
    pure (.direct_message recipientId (field payload "message"))
  | some .GET_CONVERSATION_HISTORY => do
    let otherUserId ← int "otherUserId"
    let limit ← history_limit payload
    if pg then pure (.get_conversation_history otherUserId limit) else throw .null_pointer
  | some .GET_GROUP_HISTORY => do
    let gid ← int "groupId"
    let limit ← history_limit payload
    pure (.get_group_history gid limit)
  | some .GET_USER_GROUPS => pure .get_user_groups
  | some .DELETE_CONVERSATION => do
    let otherUserId ← int "otherUserId"
    pure (.delete_conversation otherUserId)
  | some .CREATE_GROUP => do
    let fields ← create_group_fields payload
    pure (.create_group fields.1 fields.2)
  | some .INVITE_TO_GROUP => do
    let gid ← int "groupId"
    let uid ← int "userId"
    pure (.invite_to_group gid uid)
  | some .ACCEPT_GROUP_INVITE => do
    let gid ← int "groupId"
    pure (.accept_group_invite gid)
  | some .DECLINE_GROUP_INVITE => do
    let gid ← int "groupId"
    pure (.decline_group_invite gid)
  | some .RENAME_GROUP => do
    let gid ← int "groupId"
    pure (.rename_group gid (field payload "name"))
  | some .SET_GROUP_NICKNAME => do
    let gid ← int "groupId"
    let uid ← int "userId"
    pure (.set_group_nickname gid uid (field payload "nick"))
  | some .REMOVE_FROM_GROUP => do
    let gid ← int "groupId"
    let uid ← int "userId"
    pure (.remove_from_group gid uid)
  | some .MAKE_ADMIN => do
    let gid ← int "groupId"
    let uid ← int "userId"
    pure (.make_admin gid uid)
  | some .LEAVE_GROUP => do
    let gid ← int "groupId"
    pure (.leave_group gid)
  | some .GROUP_MESSAGE => do
    let gid ← int "groupId"
    pure (.group_message gid (field payload "message"))
  | _ => pure .unknown

/-! ## Performing -/

/-- Everything a request may write. -/
abbrev all_fields : List Field :=
  [.var .g_users_by_name, .var .g_users_by_id, .var .g_next_user_id, .var .g_friends,
    .var .g_friend_requests, .var .g_online_clients, .var .g_groups, .var .g_next_group_id,
    .var .g_offline_messages, .tx, .users_file, .conns, .out, .table .activity_logs] ++ all_tables

/-- The body of a command's case, in the session `me` of the connection `fd`. -/
def perform (pg : Bool) (fd me requester_id : Int) : Command → Prog all_fields Outcome
  | .heartbeat => (heartbeat fd me).lift
  | .register payload => (register pg fd payload).lift
  | .login payload => (login pg fd payload).lift
  | .logout => (logout fd me).lift
  | .search_user payload => (search_user fd payload requester_id).lift
  | .get_all_users => (get_all_users fd requester_id).lift
  | .get_friends_list => (get_friends_list pg fd me).lift
  | .friend_request target => (friend_request pg fd me target).lift
  | .friend_accept other => (friend_accept pg fd me other).lift
  | .friend_decline other => (friend_decline pg fd me other).lift
  | .unfriend other => (unfriend fd me other).lift
  | .direct_message recipientId message => (direct_message pg fd me recipientId message).lift
  | .get_conversation_history otherUserId limit =>
    (get_conversation_history fd me otherUserId limit).lift
  | .get_group_history gid limit => (get_group_history pg fd me gid limit).lift
  | .get_user_groups => (get_user_groups pg fd me requester_id).lift
  | .delete_conversation otherUserId => (delete_conversation pg fd me otherUserId).lift
  | .create_group name memberIds => (create_group pg fd me name memberIds).lift
  | .invite_to_group gid uid => (invite_to_group pg fd me gid uid).lift
  | .accept_group_invite gid => (accept_group_invite pg fd me gid).lift
  | .decline_group_invite gid => (decline_group_invite pg fd me gid).lift
  | .rename_group gid newName => (rename_group pg fd me gid newName).lift
  | .set_group_nickname gid uid nick => (set_group_nickname pg fd me gid uid nick).lift
  | .remove_from_group gid uid => (remove_from_group pg fd me gid uid).lift
  | .make_admin gid uid => (make_admin pg fd me gid uid).lift
  | .leave_group gid => (leave_group pg fd me gid).lift
  | .group_message gid message => (group_message pg fd me gid message).lift
  | .unknown => (heartbeat fd me).lift

/-- What a command may write: the footprint of its case. -/
def Command.writes : Command → List Field
  | .heartbeat | .unknown => [.out]
  | .register _ => register_writes
  | .login _ => .var .g_friends :: login_writes
  | .logout => logout_writes
  | .search_user _ | .get_all_users => [.var .g_friends, .out]
  | .get_friends_list => [.var .g_friends, .var .g_friend_requests, .out]
  | .friend_request _ => .out :: request_writes
  | .friend_accept _ => accept_writes
  | .friend_decline _ => decline_writes
  | .unfriend _ => [.var .g_friends, .var .g_friend_requests, .out]
  | .direct_message .. => message_writes
  | .get_conversation_history .. | .get_group_history .. | .get_user_groups => [.out]
  | .delete_conversation _ => [.table .messages, .out]
  | .create_group .. => create_group_writes
  | .invite_to_group .. | .set_group_nickname .. | .remove_from_group .. | .make_admin .. =>
    member_writes
  | .accept_group_invite _ => accept_invite_writes
  | .decline_group_invite _ => [.table .group_invites, .out]
  | .rename_group .. => rename_writes
  | .leave_group _ => leave_writes
  | .group_message .. => group_message_writes

/-- **The frame rule for commands.** A field outside a command's footprint is the
same after it as before it. -/
theorem perform_frame (pg : Bool) (env : Env) (fd me rid : Int) (c : Command) (w : World)
    {x : Field} (hx : x ∉ c.writes) : x.Same w ((perform pg fd me rid c).run env w).2 := by
  cases c <;> (rw [perform, Prog.run_lift]; exact Prog.run_frame env _ w hx)

/-! ## One iteration of the loop -/

/-- What the answer to an invalid header may write. -/
abbrev invalid_header_writes : List Field := [.out]

/-- The reply to a frame whose header is not valid, which ends the connection. -/
def invalid_header (fd : Int) : Prog invalid_header_writes Outcome := do
  reply fd .ERROR (str "Invalid header") 0
  pure .cleanup

section Loop

variable (pg : Bool) (env : Env)

/-- `current_user_id` of the handler of `fd`. -/
def World.session (w : World) (fd : Int) : Int := w.conns.get fd

/-- The cleanup block, run in the session the connection has at that point. -/
def end_connection (fd : Int) (w : World) : World :=
  ((cleanup fd (w.session fd)).run env w).2

/-- What follows a case: nothing, or the cleanup block. -/
def finish (fd : Int) (res : Outcome × World) : World :=
  if res.1 = .cleanup then end_connection env fd res.2 else res.2

/-- One frame received on `fd`. -/
def handle_request (w : World) (fd : Int) (r : Request) : Except Fault World :=
  if r.header.valid then do
    let c ← decode pg r.header.type r.payload
    let me := w.session fd
    pure (finish env fd ((perform pg fd me (requester_id r.header me) c).run env w))
  else pure (finish env fd ((invalid_header fd).run env w))

section Results

variable {pg env} {w : World} {fd : Int} {r : Request}

theorem handle_request_invalid (hv : r.header.valid = false) :
    handle_request pg env w fd r = .ok (finish env fd ((invalid_header fd).run env w)) := by
  rw [handle_request, if_neg (by simp [hv])]
  rfl

theorem handle_request_fault {e : Fault} (hv : r.header.valid = true)
    (he : decode pg r.header.type r.payload = .error e) :
    handle_request pg env w fd r = .error e := by
  rw [handle_request, if_pos hv, he]
  rfl

theorem handle_request_ok {c : Command} (hv : r.header.valid = true)
    (hc : decode pg r.header.type r.payload = .ok c) :
    handle_request pg env w fd r = .ok (finish env fd
      ((perform pg fd (w.session fd) (requester_id r.header (w.session fd)) c).run env w)) := by
  rw [handle_request, if_pos hv, hc]
  rfl

end Results

end Loop

end ChatApp
