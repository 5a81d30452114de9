/-
`HandleGroups.lean` -- the cases of `handle_client` that change groups or speak to
them: `CREATE_GROUP`, `INVITE_TO_GROUP`, `ACCEPT_GROUP_INVITE`, `DECLINE_GROUP_INVITE`,
`RENAME_GROUP`, `SET_GROUP_NICKNAME`, `REMOVE_FROM_GROUP`, `MAKE_ADMIN`,
`LEAVE_GROUP`, `GROUP_MESSAGE`.

As for the friend graph, what a case does to `g_groups` is a function of its own.
Permission is checked against memory by some cases and against the database by
others; each keeps the check the source has.
-/
import ChatApp.HandleAccounts

set_option autoImplicit false

namespace ChatApp

open Prog PostgresPersistence

/-! ## What the cases do to `g_groups` -/

/-- `g_groups`: the groups, by id. -/
abbrev Groups : Type := UMap Int Group

/-- `for (int m : ids) members[m] = true;` -/
def mark_all (ids : List Int) (members : UMap Int Bool) : UMap Int Bool :=
  ids.foldl (fun m uid => m.set uid true) members

/-- The group `CREATE_GROUP` builds: the creator is a member and the one admin. -/
def new_group (gid : Int) (name : Bytes) (me : Int) (memberIds : List Int) : Group where
  id := gid
  name := name
  ownerId := me
  members := mark_all memberIds ((∅ : UMap Int Bool).set me true)
  admins := (∅ : UMap Int Bool).set me true
  member_nicknames := ∅

/-- `it->second.members[uid] = true;` where the group is found. -/
def add_member (gid uid : Int) (g : Groups) : Groups :=
  g.adjust gid fun grp => { grp with members := grp.members.set uid true }

/-- `g_groups[gid].members[uid] = true;`: a group that is not there is made, with the
default values and this one member. -/
def put_member (gid uid : Int) (g : Groups) : Groups :=
  g.update gid fun grp => { grp with members := grp.members.set uid true }

/-- On a group that is there, both ways to write add the member. -/
theorem put_member_of_count {gid : Int} {g : Groups} (uid : Int) (h : g.count gid = true) :
    put_member gid uid g = add_member gid uid g := UMap.update_of_count _ h

/-- `it->second.members.erase(uid); it->second.admins.erase(uid);` -/
def remove_member (gid uid : Int) (g : Groups) : Groups :=
  g.adjust gid fun grp =>
    { grp with members := grp.members.erase uid, admins := grp.admins.erase uid }

/-- `it->second.admins[uid] = true;` -/
def set_admin (gid uid : Int) (g : Groups) : Groups :=
  g.adjust gid fun grp => { grp with admins := grp.admins.set uid true }

/-- `it->second.name = newName;` -/
def rename (gid : Int) (newName : Bytes) (g : Groups) : Groups :=
  g.adjust gid fun grp => { grp with name := newName }

/-- `it->second.member_nicknames[uid] = nick;` -/
def set_nickname (gid uid : Int) (nick : Bytes) (g : Groups) : Groups :=
  g.adjust gid fun grp => { grp with member_nicknames := grp.member_nicknames.set uid nick }

/-- What `LEAVE_GROUP` does: the member goes, and with the last member the group. The
admin entry stays. -/
def leave (gid uid : Int) (g : Groups) : Groups :=
  match g.find? gid with
  | some grp =>
    if (grp.members.erase uid).empty then g.erase gid
    else g.set gid { grp with members := grp.members.erase uid }
  | none => g

namespace ServerState

/-- `uid` is found among the members of the group `gid`, if that is found. -/
def hasMember (s : ServerState) (gid uid : Int) : Bool :=
  (s.g_groups.find? gid).any fun g => g.members.count uid

/-- `admins.count(uid) && admins[uid]`, where the group is found. -/
def hasAdmin (s : ServerState) (gid uid : Int) : Bool :=
  (s.g_groups.find? gid).any fun g => g.admins.get uid

end ServerState

namespace handle_client

variable (pg : Bool) (fd me : Int)

/-! ## Announcements -/

/-- Announce a change: take the time, read the names, and send a system message to
the members. -/
def announce (gid : Int) (sys : Prog [] Bytes) : Prog broadcast_writes (List Int) := do
  let ts_ms ← now_ms
  let sys ← sys.lift
  broadcast_system pg gid sys ts_ms

/-- `actor + " ..."`. -/
def sys_actor (rest : Bytes) : Prog [] Bytes := do
  let actor ← actor_name me
  pure (actor ++ rest)

/-- `actor + " verb " + target + " ..."`. -/
def sys_actor_target (uid : Int) (verb rest : Bytes) : Prog [] Bytes := do
  let names ← actor_and_target me uid
  pure (names.1 ++ verb ++ names.2 ++ rest)

/-! ## `CREATE_GROUP` -/

/-- The fields of `CREATE_GROUP`: the name, if there is one, and the member ids. A
missing field has no tokens. -/
def create_group_fields (payload : Bytes) : Except Fault (Option Bytes × List Int) := do
  let memberIds ← ((getlines 44 (field payload "members")).filter (· ≠ [])).mapM stoi
  pure (if has_field payload "name" then some (field payload "name") else none, memberIds)

/-- The rows of a new group: the creator is made an admin, and every id listed is
added. None of it can fail the request. -/
def add_members (gid : Int) (memberIds : List Int) :
    Prog [.table .group_members, .table .activity_logs] Unit := do
  let _ ← (set_group_admin gid me true).lift
  memberIds.forM fun memberId => do
    let _ ← add_group_member gid memberId
    pure ()

/-- What the database part of `CREATE_GROUP` may write. -/
abbrev create_db_writes : List Field := transaction_writes

/-- The database part of `CREATE_GROUP`. -/
def create_group_db (name : Bytes) (memberIds : List Int) :
    Prog create_db_writes (Option Int) := do
  let gid ← PostgresPersistence.create_group name me
  when gid.isSome (add_members me (gid.getD 0) memberIds).lift
  pure gid

/-- The in-memory part, without a database. -/
def create_group_mem (name : Bytes) (memberIds : List Int) :
    Prog [.var .g_groups, .var .g_next_group_id] (Option Int) := locked do
  let gid ← read fun s => s.g_next_group_id
  modify .g_next_group_id succ_int
  modify .g_groups fun g => g.set gid (new_group gid name me memberIds)
  pure (some gid)

/-- What the second critical section of `CREATE_GROUP` may write. -/
abbrev populate_writes : List Field := [.var .g_groups]

/-- The second critical section: with a database, only friends of the creator are
marked as members in memory. -/
def populate_group (gid : Int) (name : Bytes) (memberIds : List Int) :
    Prog populate_writes Unit := locked do
  let members ← read fun s => if pg then memberIds.filter (s.isFriend me) else memberIds
  modify .g_groups fun g => g.set gid (new_group gid name me members)

/-- What `CREATE_GROUP` may write. -/
abbrev create_group_writes : List Field :=
  .var .g_next_group_id :: broadcast_writes ++ transaction_writes

/-- The reply to a `CREATE_GROUP`. -/
def created_reply (gid : Int) (name : Bytes) (memberIds : List Int) : Bytes :=
  serialize_kv [(str "groupId", to_string gid), (str "name", name),
    (str "memberCount", to_string (memberIds.length + 1)),
    (str "members", [44].intercalate ((me :: memberIds).map to_string))]

/-- What an announcement and the replies before it may write. -/
abbrev announce_writes : List Field := broadcast_writes

/-- What `CREATE_GROUP` does once it has the group's id. -/
def announce_group (name : Bytes) (memberIds : List Int) (gid : Int) :
    Prog announce_writes Unit :=
  if gid = -1 then reply fd .ERROR (str "Failed to create group") (u32 me)
  else do
    (populate_group pg me gid name memberIds).lift
    reply fd .SUCCESS (created_reply me gid name memberIds) (u32 me)
    let _ ← announce pg gid (sys_actor me (str " created the group"))
    pure ()

/-- The name of a new group: the field, or one made from the clock. -/
def group_name (name : Option Bytes) : Prog [] Bytes :=
  match name with
  | some name => pure name
  | none => do
    let ms ← now_ms
    pure (str "group_" ++ to_string (ms / 1000))

/-- `case proto::CREATE_GROUP`. -/
def create_group (name : Option Bytes) (memberIds : List Int) :
    Prog create_group_writes Outcome := do
  let name ← (group_name name).lift
  let gid ← if pg then (create_group_db me name memberIds).lift
    else (create_group_mem me name memberIds).lift
  andNext (announce_group pg fd me name memberIds (gid.getD (-1))).lift

/-! ## `INVITE_TO_GROUP` -/

/-- What a case that adds a member may write. -/
abbrev member_writes : List Field :=
  .table .group_members :: .table .activity_logs :: broadcast_writes

/-- Add `uid` to the group. With a database the row is written first, and memory follows
where the group is found; without one `operator[]` finds the group or makes it. -/
def persist_member (gid uid : Int) :
    Prog [.var .g_groups, .table .group_members, .table .activity_logs] Bool :=
  if pg then do
    let added ← (add_group_member gid uid).lift
    when added (locked (modify .g_groups (add_member gid uid)))
    pure added
  else do
    locked (modify .g_groups (put_member gid uid))
    pure true

/-- The notice to the user that was added, if it is online. The name is looked up
with `g_groups[gid]`, without the lock. -/
def notify_invited (gid uid : Int) : Prog [.var .g_groups, .out] Unit := do
  let invited_fd ← find_fd uid
  when (invited_fd ≠ -1) do
    modify .g_groups fun g => g.touch gid
    let name ← read fun s => (s.g_groups.get gid).name
    reply invited_fd .INVITE_TO_GROUP
      (serialize_kv [(str "groupId", to_string gid), (str "name", name),
        (str "fromUserId", to_string (u32 me).toNat)]) (u32 me)

/-- `case proto::INVITE_TO_GROUP`: any member may add any user. -/
def invite_to_group (gid uid : Int) : Prog member_writes Outcome := do
  let ok ← locked (read fun s => s.hasMember gid me)
  andNext <|
    if !ok then reply fd .ERROR (str "Invite failed") (u32 me)
    else do
      let added ← (persist_member pg gid uid).lift
      if !added then reply fd .ERROR (str "Invite failed (db)") (u32 me)
      else do
        (notify_invited me gid uid).lift
        let _ ← (announce pg gid
          (sys_actor_target me uid (str " added ") (str " to the group"))).lift
        reply fd .SUCCESS (str "Added") (u32 me)

/-! ## `ACCEPT_GROUP_INVITE` and `DECLINE_GROUP_INVITE` -/

/-- What accepting an invite may write. -/
abbrev accept_invite_writes : List Field :=
  [.var .g_groups, .table .group_members, .table .group_invites, .table .activity_logs, .out]

/-- Become a member. No invite is asked for; without a database the group must be
known. -/
def join_group (gid : Int) :
    Prog [.var .g_groups, .table .group_members, .table .group_invites,
      .table .activity_logs] Bool :=
  if pg then do
    let added ← (add_group_member gid me).lift
    when added do
      locked (modify .g_groups (add_member gid me))
      let _ ← (delete_group_invite gid me).lift
      pure ()
    pure added
  else locked do
    let known ← read fun s => s.g_groups.count gid
    modify .g_groups (add_member gid me)
    pure known

/-- What the notices of a new member may write. -/
abbrev joined_writes : List Field := [.out]

/-- The notices to the other members who are online, sent with the lock held. -/
def notify_joined (gid : Int) : Prog joined_writes Unit := locked do
  let members ← read fun s =>
    ((s.g_groups.find? gid).map fun g => g.members.keys).getD []
  let fds ← read fun s => (members.filter (· ≠ me)).filterMap s.g_online_clients.find?
  fds.forM fun member_fd => reply member_fd .SUCCESS
    (serialize_kv [(str "groupId", to_string gid), (str "userId", to_string me)]) (u32 me)

/-- `case proto::ACCEPT_GROUP_INVITE`. -/
def accept_group_invite (gid : Int) : Prog accept_invite_writes Outcome := do
  let ok ← (join_group pg me gid).lift
  andNext <|
    if !ok then reply fd .ERROR (str "Accept failed") (u32 me)
    else do
      (notify_joined me gid).lift
      reply fd .SUCCESS (str "Accepted") (u32 me)

/-- `case proto::DECLINE_GROUP_INVITE`. -/
def decline_group_invite (gid : Int) : Prog [.table .group_invites, .out] Outcome := do
  when pg do
    let _ ← (delete_group_invite gid me).lift
    pure ()
  andNext (reply fd .SUCCESS (str "Declined") (u32 me))

/-! ## `RENAME_GROUP` -/

/-- What `RENAME_GROUP` may write. -/
abbrev rename_writes : List Field :=
  .table .groups :: .table .activity_logs :: broadcast_writes

/-- The explicit notice of a new name. -/
def renamed_notice (gid : Int) (newName : Bytes) : PendingMsg where
  type := .SUCCESS
  payload := serialize_kv [(str "groupId", to_string gid), (str "name", newName),
    (str "action", str "renamed")]
  fromUserId := u32 me

/-- `case proto::RENAME_GROUP`: any member in memory may rename. -/
def rename_group (gid : Int) (newName : Bytes) : Prog rename_writes Outcome := do
  let ok ← locked do
    let member ← read fun s => s.hasMember gid me
    when member (modify .g_groups (rename gid newName))
    pure member
  andNext <|
    if !ok then reply fd .ERROR (str "Rename failed") (u32 me)
    else do
      when pg do
        let _ ← (PostgresPersistence.rename_group gid newName).lift
        pure ()
      let membersToNotify ← (announce pg gid
        (sys_actor me (str " renamed the group to \"" ++ newName ++ str "\""))).lift
      (deliver_all (renamed_notice me gid newName) membersToNotify).lift
      reply fd .SUCCESS (str "Renamed") (u32 me)

/-! ## `SET_GROUP_NICKNAME` -/

/-- The text of the announcement. -/
def nickname_text (uid : Int) (nick actor target : Bytes) : Bytes :=
  if uid = me then
    if nick = [] then actor ++ str " removed their nickname"
    else actor ++ str " set their nickname to \"" ++ nick ++ str "\""
  else
    if nick = [] then actor ++ str " removed " ++ target ++ str "'s nickname"
    else actor ++ str " set " ++ target ++ str "'s nickname to \"" ++ nick ++ str "\""

/-- The announcement. Unlike the others it takes the members from memory in both
modes, and spells an unknown user with a space. -/
def announce_nickname (gid uid : Int) (nick : Bytes) : Prog announce_writes Unit := do
  let ts_ms ← now_ms
  let (actor, target) ← locked (read fun s =>
    (s.username_or me (str "User " ++ to_string me),
      s.username_or uid (str "User " ++ to_string uid)))
  let sys := nickname_text me uid nick actor target
  when pg do
    let _ ← (save_group_message gid 0 sys ts_ms).lift
    pure ()
  let membersToNotify ← locked (read fun s =>
    ((s.g_groups.find? gid).map fun g => g.members.keys).getD [])
  (deliver_all (system_message gid sys ts_ms) membersToNotify).lift

/-- `case proto::SET_GROUP_NICKNAME`: anyone may name any member. -/
def set_group_nickname (gid uid : Int) (nick : Bytes) : Prog member_writes Outcome := do
  let ok ← locked do
    let member ← read fun s => s.hasMember gid uid
    when member (modify .g_groups (set_nickname gid uid nick))
    when (member && pg) do
      let _ ← (PostgresPersistence.set_group_nickname gid uid nick).lift
      pure ()
    pure member
  andNext <|
    if !ok then reply fd .ERROR (str "Set nickname failed") (u32 me)
    else do
      (announce_nickname pg me gid uid nick).lift
      reply fd .SUCCESS (str "Nickname set") (u32 me)

/-! ## `REMOVE_FROM_GROUP` -/

/-- Who may remove `uid`: the user itself, or an admin. -/
def may_remove (gid uid : Int) : Prog [] Bool :=
  if pg then
    if uid = me then pure true else is_group_admin gid me
  else locked (read fun s =>
    if uid = me then s.g_groups.count gid else s.hasAdmin gid me)

/-- Remove `uid` from the group: in the database, if there is one, and then in
memory. -/
def persist_removal (gid uid : Int) :
    Prog [.var .g_groups, .table .group_members, .table .activity_logs] Bool := do
  let removed ← if pg then (remove_group_member gid uid).lift else pure true
  when removed (locked (modify .g_groups (remove_member gid uid)))
  pure removed

/-- The notice to the removed user. -/
def removed_notice (gid : Int) : PendingMsg where
  type := .GROUP_MESSAGE
  payload := serialize_kv [(str "groupId", to_string gid), (str "action", str "removed")]
  fromUserId := 0

/-- The notice to the members that remain. -/
def member_removed_notice (gid uid : Int) : PendingMsg where
  type := .SUCCESS
  payload := serialize_kv [(str "groupId", to_string gid), (str "userId", to_string uid),
    (str "action", str "memberRemoved")]
  fromUserId := 0

/-- The members that remain. -/
def remaining_members (gid : Int) : Prog [] (List Int) :=
  if pg then do
    let db_members ← get_group_members gid
    pure (db_members.map UserRow.id)
  else locked (read fun s => ((s.g_groups.find? gid).map fun g => g.members.keys).getD [])

/-- `case proto::REMOVE_FROM_GROUP`. -/
def remove_from_group (gid uid : Int) : Prog member_writes Outcome := do
  let permitted ← (may_remove pg me gid uid).lift
  andNext <|
    if !permitted then reply fd .ERROR (str "Not permitted") (u32 me)
    else do
      let removed ← (persist_removal pg gid uid).lift
      if !removed then reply fd .ERROR (str "Remove failed (db)") (u32 me)
      else do
        let _ ← (announce pg gid
          (sys_actor_target me uid (str " removed ") (str " from the group"))).lift
        (deliver (removed_notice gid) uid).lift
        let remainingMembers ← (remaining_members pg gid).lift
        (deliver_all (member_removed_notice gid uid) remainingMembers).lift
        reply fd .SUCCESS (str "Removed") (u32 me)

/-! ## `MAKE_ADMIN` -/

/-- Who may promote: an admin. -/
def may_promote (gid : Int) : Prog [] Bool :=
  if pg then is_group_admin gid me else locked (read fun s => s.hasAdmin gid me)

/-- Set the admin flag: in the database, if there is one, and then in memory. The
database updates a row only if there is one; memory sets the flag of any id. -/
def persist_admin (gid uid : Int) : Prog [.var .g_groups, .table .group_members] Bool := do
  let updated ← if pg then (set_group_admin gid uid true).lift else pure true
  when updated (locked (modify .g_groups (set_admin gid uid)))
  pure updated

/-- The explicit notice of a promotion. -/
def admin_notice (gid uid : Int) : PendingMsg where
  type := .SUCCESS
  payload := serialize_kv [(str "groupId", to_string gid), (str "userId", to_string uid),
    (str "isAdmin", str "true")]
  fromUserId := u32 me

/-- `case proto::MAKE_ADMIN`. -/
def make_admin (gid uid : Int) : Prog member_writes Outcome := do
  let permitted ← (may_promote pg me gid).lift
  andNext <|
    if !permitted then reply fd .ERROR (str "Not permitted") (u32 me)
    else do
      let updated ← (persist_admin pg gid uid).lift
      if !updated then reply fd .ERROR (str "Make admin failed (db)") (u32 me)
      else do
        let membersToNotify ← (announce pg gid
          (sys_actor_target me uid (str " made ") (str " an admin"))).lift
        (deliver_all (admin_notice me gid uid) membersToNotify).lift
        reply fd .SUCCESS (str "Made admin") (u32 me)

/-! ## `LEAVE_GROUP` -/

/-- What `LEAVE_GROUP` may write. -/
abbrev leave_writes : List Field :=
  [.var .g_groups, .table .group_members, .table .activity_logs, .out]

/-- `case proto::LEAVE_GROUP`. The reply says whether the group was deleted. -/
def leave_group (gid : Int) : Prog leave_writes Outcome := do
  let (ok, deleted) ← locked do
    let ok ← read fun s => s.g_groups.count gid
    modify .g_groups (leave gid me)
    let kept ← read fun s => s.g_groups.count gid
    pure (ok, ok && !kept)
  let persisted ← if ok && pg then (remove_group_member gid me).lift else pure true
  andNext <|
    if !persisted then reply fd .ERROR (str "Leave failed (db)") (u32 me)
    else reply fd .SUCCESS (if deleted then str "Group deleted" else str "Left group") (u32 me)

/-! ## `GROUP_MESSAGE` -/

/-- The members a message of `me` goes to, if `me` is a member. -/
def recipients (gid : Int) : Prog [] (Option (List Int)) :=
  if pg then do
    let member_ok ← is_group_member gid me
    if !member_ok then pure none
    else do
      let db_members ← get_group_members gid
      pure (some ((db_members.map UserRow.id).filter (· ≠ me)))
  else locked (read fun s =>
    if s.hasMember gid me then (s.g_groups.find? gid).map fun g => g.members.keys.filter (· ≠ me)
    else none)

/-- The frame of a group message. -/
def group_message_frame (gid : Int) (message : Bytes) (ts_ms : Int) : PendingMsg where
  type := .GROUP_MESSAGE
  payload := serialize_kv [(str "groupId", to_string gid), (str "senderId", to_string me),
    (str "message", message), (str "timestamp", to_string ts_ms)]
  fromUserId := u32 me

/-- What `GROUP_MESSAGE` may write. -/
abbrev group_message_writes : List Field := .table .group_messages :: delivery_writes

/-- `case proto::GROUP_MESSAGE`. -/
def group_message (gid : Int) (message : Bytes) : Prog group_message_writes Outcome := do
  let members ← (recipients pg me gid).lift
  match members with
  | none => andNext (reply fd .ERROR (str "Not in group") (u32 me))
  | some members => do
    let ts_ms ← now_ms
    when pg do
      let _ ← (save_group_message gid me message ts_ms).lift
      pure ()
    (deliver_all (group_message_frame me gid message ts_ms) members).lift
    andNext (reply fd .SUCCESS (str "Group message sent") (u32 me))

end handle_client

end ChatApp
