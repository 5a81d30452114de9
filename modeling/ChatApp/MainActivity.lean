/-
`MainActivity.lean` -- how `ui/activity/MainActivity.kt` tells `SUCCESS` payloads apart.

The activity is handed every message. To a `SUCCESS` payload it applies tests for substrings and for keys,
one after the other, and starts a coroutine for each kind that it makes out. Two of these handlers write
groups: `handleGroupListPayload`, for the list of the user's groups, and `handleGroupCreated`, which makes the user
the creator and an admin of the group in the payload.

What the tests find in a reply depends on its keys, which are known, and on its texts, which users choose.
-/
import ChatApp.Replies
import ChatApp.SubstringTests

set_option autoImplicit false

namespace ChatApp.Room

/-! ## Users in lists -/

/-- One part is entered into the map: a part without `=` enters the empty key. -/
def associate (m : UMap Bytes Bytes) (part : Bytes) : UMap Bytes Bytes :=
  match pair_of part with
  | some p => m.set p.1 p.2
  | none => m.set [] []

/-- `payload.split("&").associate { .. }`. -/
def associated (payload : Bytes) : UMap Bytes Bytes := (payload.splitOn 38).foldl associate ∅

/-- `for (i in 0 until count)` over ids and names; an entry without them is passed over. -/
def listed_users (data : UMap Bytes Bytes) : List (Int × Bytes) :=
  let count := ((data.find? (str "count")).bind toIntOrNull).getD 0
  (List.range count.toNat).filterMap fun i => do
    let uid ← (data.find? (key "id" i)).bind toIntOrNull
    let uname ← data.find? (key "name" i)
    return (uid, uname)

/-- The rows of friends that are made of users, one after the other. Each asks the clock twice: for `lastSeen`, and
for the default of `addedAt`. -/
def dated (now : Nat → Int) (users : List (Int × Bytes)) : List Friend :=
  users.zipIdx.map fun u => ⟨u.1.1, u.1.2, false, now (2 * u.2), now (2 * u.2 + 1)⟩

namespace MainActivity

/-- The coroutine for a list of users. -/
def insertUsers (payload : Bytes) : Dao Unit :=
  (listed_users (pairs payload)).forM fun u => insertUser ⟨u.1, u.2, [], false⟩

/-- `parseAndSaveFriends`. -/
def parseAndSaveFriends (now : Nat → Int) (payload : Bytes) : Dao Unit := do
  let friends := dated now (listed_users (associated payload))
  clearAll
  if friends ≠ [] then insertFriends friends else pure ()

/-! ## Groups -/

/-- Which of the two handlers of groups a payload is passed to. -/
inductive GroupHandler where
  | handleGroupListPayload
  | handleGroupCreated
  deriving DecidableEq

/-- The chain of tests. A payload that fails them may still show how many requests are pending. -/
def group_handler (payload : Bytes) : Option GroupHandler :=
  if contains payload "groupId0=" && contains payload "name0=" then some .handleGroupListPayload
  else if contains payload "groupId=" && contains payload "name=" then some .handleGroupCreated
  else none

/-- `pairs[k]?.toIntOrNull() ?: -1`. -/
def id_of (data : UMap Bytes Bytes) (k : String) : Int := ((data.find? (str k)).bind toIntOrNull).getD (-1)

/-- The coroutine for a promotion. -/
def promote (gid uid : Int) : Dao Unit := do
  let existing ← getMember gid uid
  match existing with
  | some m => insertMember { m with isAdmin := true }
  | none => do
    let user ← getUser uid
    insertMember ⟨gid, uid, (user.map User.username).getD (str "User " ++ to_string uid), none, true⟩

/-- The coroutine for a new name. -/
def rename (gid : Int) (newName : Bytes) : Dao Unit := do
  let existing ← getGroup gid
  match existing with
  | some g => insertGroup { g with name := newName }
  | none => pure ()

section Handlers

variable (decode : Bytes → Option Bytes) (session : Session)

/-- `handleGroupCreated`. The request for all users with which it ends is not a matter of the tables. -/
def handleGroupCreated (payload : Bytes) : Dao Unit :=
  let data := pairs payload
  match (data.find? (str "groupId")).bind toIntOrNull, data.find? (str "name") with
  | some groupId, some groupName => do
    let memberCount := ((data.find? (str "memberCount")).bind toIntOrNull).getD 1
    insertGroup ⟨groupId, groupName, session.userId, memberCount⟩
    insertMember ⟨groupId, session.userId, session.username.getD (str "Me"), none, true⟩
    let otherIds := ((csv_split (data.get (str "members"))).filterMap toIntOrNull).filter (· ≠ session.userId)
    otherIds.forM fun uid => do
      let friend ← getFriend uid
      insertMember ⟨groupId, uid, (friend.map Friend.username).getD (str "User " ++ to_string uid), none, false⟩
  | _, _ => pure ()

/-- The handler that is called. -/
def GroupHandler.handle : GroupHandler → Bytes → Dao Unit
  | .handleGroupListPayload => Room.handleGroupListPayload decode session
  | .handleGroupCreated => MainActivity.handleGroupCreated session

/-- The coroutines that a `SUCCESS` payload starts. -/
def on_success (now : Nat → Int) (payload : Bytes) : List (Dao Unit) :=
  let data := pairs payload
  let gid := id_of data "groupId"
  let uid := id_of data "userId"
  -- a list of users, and a list of friends
  (if data.count (str "id0") && data.count (str "name0") && !data.count (str "groupId")
    then [insertUsers payload] else [])
  ++ (if data.count (str "id0") && data.count (str "name0") &&
      (data.count (str "pendingCount") || data.count (str "req_id0")) then [parseAndSaveFriends now payload] else [])
  ++ ((group_handler payload).map fun h => h.handle decode session payload).toList
  -- a promotion, a removal, a new name
  ++ (if data.count (str "groupId") && data.count (str "userId") && data.find? (str "isAdmin") = some (str "true")
      && 0 < gid && 0 < uid then [promote gid uid] else [])
  ++ (if data.count (str "groupId") && data.count (str "userId")
      && data.find? (str "action") = some (str "memberRemoved") && 0 < gid && 0 < uid
    then [removeMember gid uid] else [])
  ++ (if data.count (str "groupId") && data.count (str "name") && data.find? (str "action") = some (str "renamed")
      && 0 < gid && data.get (str "name") ≠ [] then [rename gid (data.get (str "name"))] else [])

/-- The coroutine for a `GROUP_MESSAGE`: the user may have been removed. -/
def on_group_message (payload : Bytes) : List (Dao Unit) :=
  let data := pairs payload
  match data.find? (str "action"), (data.find? (str "groupId")).bind toIntOrNull with
  | some action, some gid => if action = str "removed" then [removeMember gid session.userId] else []
  | _, _ => []

/-- The coroutine for an `INVITE_TO_GROUP`. -/
def on_invite (payload : Bytes) : List (Dao Unit) :=
  let data := pairs payload
  match (data.find? (str "groupId")).bind toIntOrNull with
  | some gid =>
    [do
      insertGroup ⟨gid, (data.find? (str "name")).getD (str "Group"), id_of data "fromUserId", 1⟩
      insertMember ⟨gid, session.userId, session.username.getD (str "Me"), none, false⟩]
  | none => []

/-- `onMessageReceived`: the coroutines that are started. Other messages are left to the fragments. -/
def onMessageReceived (now : Nat → Int) (messageType : MessageType) (payload : Bytes) : List (Dao Unit) :=
  match messageType with
  | .SUCCESS => on_success decode session now payload
  | .GROUP_MESSAGE => on_group_message session payload
  | .INVITE_TO_GROUP => on_invite session payload
  | _ => []

end Handlers

end MainActivity

end ChatApp.Room

namespace ChatApp

open handle_client Room

/-! ## What the replies are made of -/

namespace Reply

/-- The texts of a reply that its kind does not determine: those that users have chosen, and the rows of groups. -/
def texts : Reply → List Bytes
  | .welcome _ username => [username]
  | .search hits => hits.flatMap fun u => [u.name, u.phone]
  | .all_users users => users.flatMap fun u => [u.name]
  | .friends_list friends requests => (friends.flatMap fun u => [u.name]) ++ requests.flatMap fun u => [u.name]
  | .conversation entries => entries.flatMap fun m => [m.content]
  | .group_history _ entries => entries.flatMap fun m => [m.content]
  | .user_groups gs => gs.flatMap fun g => [g.name, g.members, g.nicks, g.names, g.admins]
  | .created _ _ name _ | .renamed _ name => [name]
  | .acknowledgement .. | .joined .. | .member_removed .. | .promoted .. => []

/-- The keys of a reply that are not numbered. -/
def plain_keys : Reply → List String
  | .welcome .. => ["success", "userId", "token", "username"]
  | .search _ | .all_users _ | .conversation _ => ["count"]
  | .friends_list .. => ["count", "pendingCount"]
  | .group_history .. => ["groupId", "count"]
  | .created .. => ["groupId", "name", "memberCount", "members"]
  | .joined .. => ["groupId", "userId"]
  | .renamed .. => ["groupId", "name", "action"]
  | .member_removed .. => ["groupId", "userId", "action"]
  | .promoted .. => ["groupId", "userId", "isAdmin"]
  | .acknowledgement .. | .user_groups _ => []

/-- The keys that are numbered. -/
def numbered_keys : Reply → List String
  | .search hits => if hits.isEmpty then [] else ["id", "name", "phone", "isFriend"]
  | .all_users users => if users.isEmpty then [] else ["id", "name", "isFriend"]
  | .friends_list friends requests => (if friends.isEmpty then [] else ["id", "name"])
    ++ if requests.isEmpty then [] else ["req_id", "req_name"]
  | .conversation entries => if entries.isEmpty then [] else ["from", "to", "content", "timestamp"]
  | .group_history _ entries => if entries.isEmpty then [] else ["from", "content", "timestamp"]
  | _ => []

/-- The replies of one record, or of lists, whose keys and texts are as above. -/
def itemized : Reply → Bool
  | .acknowledgement .. | .user_groups _ => false
  | _ => true

/-- The fields of a direct message. -/
def message_fields (m : MessageRow) : List (String × Bytes) :=
  [("from", to_string m.from_user_id), ("to", to_string m.to_user_id), ("content", m.content),
    ("timestamp", to_string m.timestamp)]

/-- The fields of a group message. -/
def group_message_fields (m : GroupMessageRow) : List (String × Bytes) :=
  [("from", to_string m.user_id), ("content", m.content), ("timestamp", to_string m.timestamp)]

theorem undelimited_flag (b : Bool) : Undelimited (flag b) := by
  cases b <;> decide

theorem undelimited_ids (ids : List Int) : Undelimited ([44].intercalate (ids.map to_string)) := by
  induction ids with
  | nil => decide
  | cons i ids ih =>
    obtain ⟨heq, hamp⟩ := undelimited_number i
    cases ids with
    | nil => simpa using undelimited_number i
    | cons j ids =>
      rw [List.map_cons] at ih ⊢
      rw [List.map_cons, List.intercalate_cons_cons]
      simpa [Undelimited, heq, hamp] using ih

/-- **The shape of a reply.** -/
theorem shape (r : Reply) (hr : r.itemized = true) :
    ∃ items, items ≠ [] ∧ r.payload = serialize_kv items ∧ Shape items r.plain_keys r.numbered_keys r.texts := by
  have hnumber := undelimited_number
  have hcount : ∀ (name : String) (n : Int), Undelimited (str name) →
      Shape [(str name, to_string n)] [name] [] [] := fun name n hname =>
    Shape.fields [(name, to_string n)] [name] rfl (by simpa using hname) (by simp [hnumber]) (by simp)
  cases r with
  | acknowledgement | user_groups => cases hr
  | welcome uid username =>
    have htrue : Undelimited (str "true") := by decide
    have htoken : Undelimited (str "demo_token") := by decide
    have hfields : Shape _ ["success", "userId", "token", "username"] [] [username] :=
      Shape.fields [("success", str "true"), ("userId", to_string uid), ("token", str "demo_token"),
        ("username", username)] _ rfl (by decide) (by simp [hnumber, htrue, htoken]) (by simp)
    exact ⟨_, List.cons_ne_nil _ _, rfl, hfields⟩
  | search hits =>
    have hlist := Shape.list hits FoundUser.fields ["id", "name", "phone", "isFriend"] (fun u => [u.name, u.phone])
      (fun _ => rfl) (by decide) (by simp [FoundUser.fields, hnumber, undelimited_flag]) (by simp [FoundUser.fields])
    exact ⟨_, List.cons_ne_nil _ _, rfl, (hcount "count" hits.length (by decide)).append hlist⟩
  | all_users users =>
    have hlist := Shape.list users ListedUser.fields ["id", "name", "isFriend"] (fun u => [u.name])
      (fun _ => rfl) (by decide) (by simp [ListedUser.fields, hnumber, undelimited_flag]) (by simp [ListedUser.fields])
    exact ⟨_, List.cons_ne_nil _ _, rfl, (hcount "count" users.length (by decide)).append hlist⟩
  | friends_list friends requests =>
    have hfriends := Shape.list friends NamedUser.fields ["id", "name"] (fun u => [u.name]) (fun _ => rfl)
      (by decide) (by simp [NamedUser.fields, hnumber]) (by simp [NamedUser.fields])
    have hrequests := Shape.list requests NamedUser.request_fields ["req_id", "req_name"] (fun u => [u.name])
      (fun _ => rfl) (by decide) (by simp [NamedUser.request_fields, hnumber]) (by simp [NamedUser.request_fields])
    exact ⟨_, by simp, rfl, ((hcount "count" friends.length (by decide)).append hfriends).append
      ((hcount "pendingCount" requests.length (by decide)).append hrequests)⟩
  | conversation entries =>
    have hlist := Shape.list entries message_fields ["from", "to", "content", "timestamp"] (fun m => [m.content])
      (fun _ => rfl) (by decide) (by simp [message_fields, hnumber]) (by simp [message_fields])
    refine ⟨_, List.cons_ne_nil _ _, ?_, (hcount "count" entries.length (by decide)).append hlist⟩
    rw [payload, conversation_reply, numbered_items, List.zipIdx_map, List.map_map]
    rfl
  | group_history gid entries =>
    have hlist := Shape.list entries group_message_fields ["from", "content", "timestamp"] (fun m => [m.content])
      (fun _ => rfl) (by decide) (by simp [group_message_fields, hnumber]) (by simp [group_message_fields])
    refine ⟨_, List.cons_ne_nil _ _, ?_, ((hcount "groupId" gid (by decide)).append
      (hcount "count" entries.length (by decide))).append hlist⟩
    rw [payload, group_reply, numbered_items, List.zipIdx_map, List.map_map]
    rfl
  | created me gid name memberIds =>
    have hids := undelimited_ids (me :: memberIds)
    rw [List.map_cons] at hids
    have hfields : Shape _ ["groupId", "name", "memberCount", "members"] [] [name] :=
      Shape.fields [("groupId", to_string gid), ("name", name), ("memberCount", to_string (memberIds.length + 1)),
        ("members", [44].intercalate (to_string me :: memberIds.map to_string))] _ rfl (by decide)
        (by simp [hnumber, hids]) (by simp)
    exact ⟨_, List.cons_ne_nil _ _, rfl, hfields⟩
  | joined gid uid =>
    have hfields : Shape _ ["groupId", "userId"] [] [] := Shape.fields [("groupId", to_string gid),
      ("userId", to_string uid)] _ rfl (by decide) (by simp [hnumber]) (by simp)
    exact ⟨_, List.cons_ne_nil _ _, rfl, hfields⟩
  | renamed gid newName =>
    have haction : Undelimited (str "renamed") := by decide
    have hfields : Shape _ ["groupId", "name", "action"] [] [newName] := Shape.fields [("groupId", to_string gid),
      ("name", newName), ("action", str "renamed")] _ rfl (by decide) (by simp [hnumber, haction]) (by simp)
    exact ⟨_, List.cons_ne_nil _ _, rfl, hfields⟩
  | member_removed gid uid =>
    have haction : Undelimited (str "memberRemoved") := by decide
    have hfields : Shape _ ["groupId", "userId", "action"] [] [] := Shape.fields [("groupId", to_string gid),
      ("userId", to_string uid), ("action", str "memberRemoved")] _ rfl (by decide) (by simp [hnumber, haction])
      (by simp)
    exact ⟨_, List.cons_ne_nil _ _, rfl, hfields⟩
  | promoted gid uid =>
    have htrue : Undelimited (str "true") := by decide
    have hfields : Shape _ ["groupId", "userId", "isAdmin"] [] [] := Shape.fields [("groupId", to_string gid),
      ("userId", to_string uid), ("isAdmin", str "true")] _ rfl (by decide) (by simp [hnumber, htrue]) (by simp)
    exact ⟨_, List.cons_ne_nil _ _, rfl, hfields⟩

/-! ## What the tests find -/

/-- A text of the reply has this in it. -/
def Mentions (r : Reply) (s : String) : Prop := ∃ t ∈ r.texts, Room.contains t s = true

/-- Whatever is asked of all the keys of lists holds of those in a reply. -/
theorem forall_numbered {p : String → Prop} (h : ∀ n ∈ ["id", "name", "phone", "isFriend", "req_id", "req_name",
    "from", "to", "content", "timestamp"], p n) (r : Reply) : ∀ n ∈ r.numbered_keys, p n := by
  have hif : ∀ (b : Bool) (ns : List String), (∀ n ∈ ns, p n) → ∀ n ∈ (if b then [] else ns), p n := by
    intro b ns hns n hn
    cases b
    · exact hns n hn
    · cases hn
  simp only [List.forall_mem_cons] at h
  obtain ⟨hid, hname, hphone, hfriend, hreq, hreqname, hfrom, hto, hcontent, htime, -⟩ := h
  cases r with
  | search hits => exact hif _ _ (by simp [hid, hname, hphone, hfriend])
  | all_users users => exact hif _ _ (by simp [hid, hname, hfriend])
  | friends_list friends requests =>
    intro n hn
    rcases List.mem_append.mp hn with hn | hn
    · exact hif _ _ (by simp [hid, hname]) n hn
    · exact hif _ _ (by simp [hreq, hreqname]) n hn
  | conversation entries => exact hif _ _ (by simp [hfrom, hto, hcontent, htime])
  | group_history gid entries => exact hif _ _ (by simp [hfrom, hcontent, htime])
  | _ => exact fun n hn => absurd hn List.not_mem_nil

/-- No key without a number ends in a digit. -/
theorem plain_key_ends (r : Reply) : ∀ n ∈ r.plain_keys, ∀ c ∈ (str n).getLast?, isdigit c = false := by
  have hends : ∀ n ∈ ["success", "userId", "token", "username", "count", "pendingCount", "groupId", "name",
      "memberCount", "members", "action", "isAdmin"], Worded n := by decide
  intro n hn
  refine (hends n ?_).ends
  revert n
  cases r <;> simp [plain_keys]

section Tests

variable {r : Reply}

/-- No key of these replies is taken for the first `groupId` of a list. -/
theorem contains_groupId0 (hr : r.itemized = true) :
    Room.contains r.payload "groupId0=" = true ↔ r.Mentions "groupId0=" := by
  obtain ⟨items, -, hpayload, hshape⟩ := r.shape hr
  have hnone : ¬∃ n ∈ r.numbered_keys, str "groupId" <:+ str n := by
    rintro ⟨n, hn, hsuffix⟩
    exact forall_numbered (p := fun n => ¬str "groupId" <:+ str n) (by decide) r n hn hsuffix
  have htest : Tests "groupId0=" (key "groupId" 0) := ⟨by decide, by decide⟩
  rw [hpayload, hshape.contains_first_key htest (by decide) (by decide) r.plain_key_ends]
  exact or_iff_right hnone

theorem contains_name0 (hr : r.itemized = true) : Room.contains r.payload "name0=" = true ↔
    (∃ n ∈ r.numbered_keys, str "name" <:+ str n) ∨ r.Mentions "name0=" := by
  obtain ⟨items, -, hpayload, hshape⟩ := r.shape hr
  rw [hpayload]
  have htest : Tests "name0=" (key "name" 0) := ⟨by decide, by decide⟩
  exact hshape.contains_first_key htest (by decide) (by decide) r.plain_key_ends

theorem contains_groupId (hr : r.itemized = true) : Room.contains r.payload "groupId=" = true ↔
    (∃ n ∈ r.plain_keys, str "groupId" <:+ str n) ∨ r.Mentions "groupId=" := by
  obtain ⟨items, -, hpayload, hshape⟩ := r.shape hr
  rw [hpayload]
  have htest : Tests "groupId=" (str "groupId") := ⟨by decide, by decide⟩
  exact hshape.contains_plain_key htest (by decide) (by decide)

theorem contains_name (hr : r.itemized = true) : Room.contains r.payload "name=" = true ↔
    (∃ n ∈ r.plain_keys, str "name" <:+ str n) ∨ r.Mentions "name=" := by
  obtain ⟨items, -, hpayload, hshape⟩ := r.shape hr
  rw [hpayload]
  have htest : Tests "name=" (str "name") := ⟨by decide, by decide⟩
  exact hshape.contains_plain_key htest (by decide) (by decide)

open MainActivity in
/-- When a reply is passed to none of the handlers of groups. -/
theorem group_handler_none (hr : r.itemized = true) : group_handler r.payload = none ↔
    ¬(r.Mentions "groupId0=" ∧ ((∃ n ∈ r.numbered_keys, str "name" <:+ str n) ∨ r.Mentions "name0=")) ∧
    ¬(((∃ n ∈ r.plain_keys, str "groupId" <:+ str n) ∨ r.Mentions "groupId=") ∧
      ((∃ n ∈ r.plain_keys, str "name" <:+ str n) ∨ r.Mentions "name=")) := by
  rw [← contains_groupId0 hr, ← contains_name0 hr, ← contains_groupId hr, ← contains_name hr, group_handler]
  simp only [Bool.and_eq_true]
  split
  · next hlist => simp [hlist]
  · next hlist =>
    split
    · next hcreated => simp [hcreated]
    · next hcreated => exact iff_of_true rfl ⟨hlist, hcreated⟩

end Tests

/-- The condition on the texts of a reply under which it is not taken for another kind. A new name always is. -/
def Unmistakable (r : Reply) : Prop :=
  match r with
  | .acknowledgement .. | .user_groups _ | .joined .. | .member_removed .. | .promoted .. => True
  | .renamed .. => False
  -- the text would have to bring along what the keys lack
  | .created .. => ¬(r.Mentions "groupId0=" ∧ r.Mentions "name0=")
  | .welcome .. => ¬(r.Mentions "groupId0=" ∧ r.Mentions "name0=") ∧ ¬r.Mentions "groupId="
  | .search _ | .all_users _ | .friends_list .. =>
    ¬r.Mentions "groupId0=" ∧ ¬(r.Mentions "groupId=" ∧ r.Mentions "name=")
  | .conversation _ =>
    ¬(r.Mentions "groupId0=" ∧ r.Mentions "name0=") ∧ ¬(r.Mentions "groupId=" ∧ r.Mentions "name=")
  | .group_history .. => ¬(r.Mentions "groupId0=" ∧ r.Mentions "name0=") ∧ ¬r.Mentions "name="

/-- A fixed text has no keys. -/
theorem acknowledgement_plain : ∀ text ∈ acknowledgements, 61 ∉ text := by decide

/-- The fixed texts pass no test. -/
theorem group_handler_acknowledgement {text : Bytes} (h : text ∈ acknowledgements) :
    MainActivity.group_handler text = none := by
  have hplain := acknowledgement_plain text h
  have hlist := contains_plain (show Tests "groupId0=" (key "groupId" 0) from ⟨by decide, by decide⟩) hplain
  have hcreated := contains_plain (show Tests "groupId=" (str "groupId") from ⟨by decide, by decide⟩) hplain
  rw [MainActivity.group_handler]
  simp only [hlist, hcreated, Bool.false_and]
  rfl

/-- A reply that is not about a list of groups or a new group is passed on exactly when its texts mislead. -/
theorem group_handler_none_iff (r : Reply) (hcreated : ∀ me gid name ids, r ≠ .created me gid name ids)
    (hgroups : ∀ gs, r ≠ .user_groups gs) :
    MainActivity.group_handler r.payload = none ↔ r.Unmistakable := by
  -- the keys that the tests find, by the kinds
  have hcount : ¬∃ n ∈ ["count"], str "groupId" <:+ str n := by decide
  have hcount' : ¬∃ n ∈ ["count"], str "name" <:+ str n := by decide
  cases r with
  | created me gid name ids => exact absurd rfl (hcreated me gid name ids)
  | user_groups gs => exact absurd rfl (hgroups gs)
  | acknowledgement text fixed =>
    exact iff_of_true (group_handler_acknowledgement fixed) trivial
  | welcome uid username =>
    have hid : ¬∃ n ∈ ["success", "userId", "token", "username"], str "groupId" <:+ str n := by decide
    have hname : ∃ n ∈ ["success", "userId", "token", "username"], str "name" <:+ str n := by decide
    rw [group_handler_none rfl]
    simp only [plain_keys, numbered_keys, Unmistakable, hid, hname]
    simp
  | search hits =>
    have hnamed : (Reply.search hits).Mentions "groupId0=" →
        ∃ n ∈ (Reply.search hits).numbered_keys, str "name" <:+ str n := by
      rintro ⟨t, ht, -⟩
      cases hits with
      | nil => cases ht
      | cons u hits => exact ⟨"name", by simp [numbered_keys], List.suffix_rfl⟩
    rw [group_handler_none rfl]
    simp only [plain_keys, Unmistakable, hcount, hcount', false_or]
    exact and_congr_left' (not_congr (and_iff_left_of_imp fun h => .inl (hnamed h)))
  | all_users users =>
    have hnamed : (Reply.all_users users).Mentions "groupId0=" →
        ∃ n ∈ (Reply.all_users users).numbered_keys, str "name" <:+ str n := by
      rintro ⟨t, ht, -⟩
      cases users with
      | nil => cases ht
      | cons u users => exact ⟨"name", by simp [numbered_keys], List.suffix_rfl⟩
    rw [group_handler_none rfl]
    simp only [plain_keys, Unmistakable, hcount, hcount', false_or]
    exact and_congr_left' (not_congr (and_iff_left_of_imp fun h => .inl (hnamed h)))
  | friends_list friends requests =>
    have hcounts : ¬∃ n ∈ ["count", "pendingCount"], str "groupId" <:+ str n := by decide
    have hcounts' : ¬∃ n ∈ ["count", "pendingCount"], str "name" <:+ str n := by decide
    have hnamed : (Reply.friends_list friends requests).Mentions "groupId0=" →
        ∃ n ∈ (Reply.friends_list friends requests).numbered_keys, str "name" <:+ str n := by
      rintro ⟨t, ht, -⟩
      cases friends with
      | cons u friends => exact ⟨"name", by simp [numbered_keys], List.suffix_rfl⟩
      | nil =>
        cases requests with
        | nil => cases ht
        | cons u requests => exact ⟨"req_name", by simp [numbered_keys], by decide⟩
    rw [group_handler_none rfl]
    simp only [plain_keys, Unmistakable, hcounts, hcounts', false_or]
    exact and_congr_left' (not_congr (and_iff_left_of_imp fun h => .inl (hnamed h)))
  | conversation entries =>
    have hnames : ¬∃ n ∈ (Reply.conversation entries).numbered_keys, str "name" <:+ str n := by
      have hkeys : ¬∃ n ∈ ["from", "to", "content", "timestamp"], str "name" <:+ str n := by decide
      cases entries with
      | nil => exact fun ⟨n, hn, _⟩ => absurd hn List.not_mem_nil
      | cons => exact hkeys
    rw [group_handler_none rfl]
    simp only [plain_keys, Unmistakable, hcount, hcount', hnames, false_or]
  | group_history gid entries =>
    have hid : ∃ n ∈ ["groupId", "count"], str "groupId" <:+ str n := by decide
    have hname : ¬∃ n ∈ ["groupId", "count"], str "name" <:+ str n := by decide
    have hnames : ¬∃ n ∈ (Reply.group_history gid entries).numbered_keys, str "name" <:+ str n := by
      have hkeys : ¬∃ n ∈ ["from", "content", "timestamp"], str "name" <:+ str n := by decide
      cases entries with
      | nil => exact fun ⟨n, hn, _⟩ => absurd hn List.not_mem_nil
      | cons => exact hkeys
    rw [group_handler_none rfl]
    simp only [plain_keys, Unmistakable, hid, hname, hnames, false_or, true_or, true_and]
  | joined gid uid =>
    have hname : ¬∃ n ∈ ["groupId", "userId"], str "name" <:+ str n := by decide
    rw [group_handler_none rfl]
    simp only [plain_keys, numbered_keys, Unmistakable, hname]
    simp [Mentions, texts]
  | renamed gid newName =>
    have hid : ∃ n ∈ ["groupId", "name", "action"], str "groupId" <:+ str n := by decide
    have hname : ∃ n ∈ ["groupId", "name", "action"], str "name" <:+ str n := by decide
    rw [group_handler_none rfl]
    simp only [plain_keys, Unmistakable, hid, hname]
    simp
  | member_removed gid uid =>
    have hname : ¬∃ n ∈ ["groupId", "userId", "action"], str "name" <:+ str n := by decide
    rw [group_handler_none rfl]
    simp only [plain_keys, numbered_keys, Unmistakable, hname]
    simp [Mentions, texts]
  | promoted gid uid =>
    have hname : ¬∃ n ∈ ["groupId", "userId", "isAdmin"], str "name" <:+ str n := by decide
    rw [group_handler_none rfl]
    simp only [plain_keys, numbered_keys, Unmistakable, hname]
    simp [Mentions, texts]

/-- A reply to `CREATE_GROUP` is passed to one of the two handlers. -/
theorem group_handler_created (me gid : Int) (name : Bytes) (ids : List Int) :
    MainActivity.group_handler (Reply.created me gid name ids).payload ≠ none ∧
      (MainActivity.group_handler (Reply.created me gid name ids).payload = some .handleGroupListPayload ↔
        ¬(Reply.created me gid name ids).Unmistakable) := by
  have hid : ∃ n ∈ ["groupId", "name", "memberCount", "members"], str "groupId" <:+ str n := by decide
  have hname : ∃ n ∈ ["groupId", "name", "memberCount", "members"], str "name" <:+ str n := by decide
  have hid' := (contains_groupId (r := .created me gid name ids) rfl).mpr (.inl hid)
  have hname' := (contains_name (r := .created me gid name ids) rfl).mpr (.inl hname)
  have hlist : (Room.contains (Reply.created me gid name ids).payload "groupId0=" = true ∧
      Room.contains (Reply.created me gid name ids).payload "name0=" = true) ↔
        ¬(Reply.created me gid name ids).Unmistakable := by
    rw [contains_groupId0 rfl, contains_name0 rfl, Unmistakable, not_not]
    simp [numbered_keys]
  rw [MainActivity.group_handler, ← hlist]
  simp only [hid', hname', Bool.and_eq_true]
  split <;> simp_all

/-- A list of groups is never taken for a new group. -/
theorem group_handler_user_groups (gs : List Room.GroupEntry) :
    MainActivity.group_handler (Reply.user_groups gs).payload ≠ some .handleGroupCreated := by
  by_cases hgs : gs = []
  · rw [hgs]
    decide
  · obtain ⟨hid, hname⟩ := group_list_contains hgs
    rw [payload, MainActivity.group_handler, hid, hname, if_pos (by decide)]
    exact fun h => by cases h

end Reply

/-! ## What a reply does to groups -/

section Recognised

variable (decode : Bytes → Option Bytes) (session : Session)

/-- Every group keeps its creator and its number of members, and the user becomes an admin of none. -/
structure KeepsStanding (db db' : Room.Database) : Prop where
  groups : ∀ gid, (db'.groups.find? gid).map (fun g => (g.creatorId, g.memberCount)) =
    (db.groups.find? gid).map fun g => (g.creatorId, g.memberCount)
  admin : ∀ gid m', db'.group_members.find? (gid, session.userId) = some m' → m'.isAdmin = true →
    ∃ m, db.group_members.find? (gid, session.userId) = some m ∧ m.isAdmin = true

/-- Groups and members stand under their primary keys, as they do in every database of a phone. -/
structure Keyed (db : Room.Database) : Prop where
  groups : ∀ gid g, db.groups.find? gid = some g → g.id = gid
  members : ∀ k m, db.group_members.find? k = some m → (m.groupId, m.userId) = k

/-- The notices of names, promotions of others and removals, and the histories. -/
def Reply.bystander (session : Session) : Reply → Bool
  | .renamed .. | .member_removed .. | .conversation _ | .group_history .. => true
  | .promoted _ uid => uid ≠ session.userId
  | _ => false

/-- The activity recognises a reply: a new group is made of replies to `CREATE_GROUP` only, a list of groups is read
from replies to `GET_USER_GROUPS` only, and whatever a notice or a history starts, with texts that users can send,
leaves the standing of the user in groups as it was. -/
structure Recognised (r : Reply) : Prop where
  created : MainActivity.group_handler r.payload = some .handleGroupCreated →
    ∃ me gid name memberIds, r = .created me gid name memberIds
  listed : MainActivity.group_handler r.payload = some .handleGroupListPayload → ∃ gs, r = .user_groups gs
  quiet : r.bystander session = true → (∀ t ∈ r.texts, 38 ∉ t) →
    ∀ now, ∀ p ∈ MainActivity.onMessageReceived decode session now .SUCCESS r.payload, ∀ db, Keyed db →
      KeepsStanding session db (p.run db).2

variable {decode session}

theorem keeps_of_same {db db' : Room.Database} (hgroups : db'.groups = db.groups)
    (hmembers : db'.group_members = db.group_members) : KeepsStanding session db db' := by
  refine ⟨fun _ => by rw [hgroups], fun gid m' hm' hadmin => ?_⟩
  rw [hmembers] at hm'
  exact ⟨m', hm', hadmin⟩

theorem insertUsers_keeps (payload : Bytes) (db : Room.Database) :
    KeepsStanding session db ((MainActivity.insertUsers payload).run db).2 := by
  rw [MainActivity.insertUsers, Dao.run_forM]
  -- one user after the other, the groups stay
  have hall : ∀ (us : List (Int × Bytes)) (db' : Room.Database), db'.groups = db.groups →
      db'.group_members = db.group_members →
      KeepsStanding session db (us.foldl (fun db' u => ((insertUser ⟨u.1, u.2, [], false⟩).run db').2) db') := by
    intro us
    induction us with
    | nil => exact fun _ => keeps_of_same
    | cons u us ih => exact fun db' hgroups hmembers => ih _ hgroups hmembers
  exact hall _ db rfl rfl

theorem parseAndSaveFriends_keeps (now : Nat → Int) (payload : Bytes) (db : Room.Database) :
    KeepsStanding session db ((MainActivity.parseAndSaveFriends now payload).run db).2 := by
  rw [MainActivity.parseAndSaveFriends, Dao.run_bind, clearAll, Dao.run_change]
  split
  · exact keeps_of_same rfl rfl
  · exact keeps_of_same rfl rfl

theorem removeMember_keeps (gid uid : Int) (db : Room.Database) :
    KeepsStanding session db ((removeMember gid uid).run db).2 := by
  rw [removeMember, Dao.run_change]
  refine ⟨fun _ => rfl, fun g m' hm' hadmin => ?_⟩
  rw [UMap.find?_erase] at hm'
  split at hm'
  · cases hm'
  · exact ⟨m', hm', hadmin⟩

theorem rename_keeps (gid : Int) (newName : Bytes) {db : Room.Database} (hkeyed : Keyed db) :
    KeepsStanding session db ((MainActivity.rename gid newName).run db).2 := by
  rw [MainActivity.rename, Dao.run_bind, getGroup, Dao.run_query]
  cases hgroup : db.groups.find? gid with
  | none => exact keeps_of_same rfl rfl
  | some g =>
    have hid := hkeyed.groups gid g hgroup
    refine ⟨fun gid' => ?_, fun gid' m' hm' hadmin => ⟨m', hm', hadmin⟩⟩
    dsimp only
    rw [insertGroup, Dao.run_change, UMap.find?_set]
    by_cases hgid : gid' = g.id
    · rw [if_pos hgid, hgid, hid, hgroup]
      rfl
    · rw [if_neg hgid]

/-- A promotion of somebody else. -/
theorem promote_keeps (gid : Int) {uid : Int} (hother : uid ≠ session.userId) {db : Room.Database}
    (hkeyed : Keyed db) :
    KeepsStanding session db ((MainActivity.promote gid uid).run db).2 := by
  have hset : ∀ m : GroupMember, m.userId = uid → KeepsStanding session db ((insertMember m).run db).2 := by
    intro m huid
    rw [insertMember, Dao.run_change]
    refine ⟨fun g => rfl, fun g m' hm' hadmin => ?_⟩
    have hkey : (g, session.userId) ≠ (m.groupId, m.userId) := by
      intro heq
      exact hother (huid.symm.trans (Prod.mk.inj heq).2.symm)
    rw [UMap.find?_set, if_neg hkey] at hm'
    exact ⟨m', hm', hadmin⟩
  rw [MainActivity.promote, Dao.run_bind, getMember, Dao.run_query]
  cases hmember : db.group_members.find? (gid, uid) with
  | none => exact hset ⟨gid, uid, _, none, true⟩ rfl
  | some m => exact hset { m with isAdmin := true } (Prod.mk.inj (hkeyed.members _ m hmember)).2

/-- What a payload starts, if it is passed to no handler of groups, leaves the standing of the user, unless it is a
promotion of the user. -/
theorem on_success_keeps {payload : Bytes} (hnone : MainActivity.group_handler payload = none)
    (hpromoted : (pairs payload).find? (str "isAdmin") = some (str "true") →
      0 < MainActivity.id_of (pairs payload) "userId" →
      MainActivity.id_of (pairs payload) "userId" ≠ session.userId) :
    ∀ now, ∀ p ∈ MainActivity.onMessageReceived decode session now .SUCCESS payload, ∀ db, Keyed db →
      KeepsStanding session db (p.run db).2 := by
  intro now p hp db hkeyed
  have hsingle : ∀ (b : Bool) (q : Dao Unit), p ∈ (if b then [q] else []) → b = true ∧ p = q := by
    intro b q hq
    cases b with
    | false => cases hq
    | true => exact ⟨rfl, List.mem_singleton.mp hq⟩
  rw [MainActivity.onMessageReceived, MainActivity.on_success, hnone] at hp
  simp only [List.mem_append] at hp
  rcases hp with ((((hp | hp) | hp) | hp) | hp) | hp
  · obtain ⟨-, rfl⟩ := hsingle _ _ hp
    exact insertUsers_keeps payload db
  · obtain ⟨-, rfl⟩ := hsingle _ _ hp
    exact parseAndSaveFriends_keeps now payload db
  · cases hp
  · obtain ⟨hb, rfl⟩ := hsingle _ _ hp
    simp only [Bool.and_eq_true, decide_eq_true_eq] at hb
    exact promote_keeps _ (hpromoted hb.1.1.2 hb.2) hkeyed
  · obtain ⟨-, rfl⟩ := hsingle _ _ hp
    exact removeMember_keeps _ _ db
  · obtain ⟨-, rfl⟩ := hsingle _ _ hp
    exact rename_keeps _ _ hkeyed

/-- The number that is read under a key is the one that was written there, if it is positive. -/
theorem id_of_number {data : UMap Bytes Bytes} {k : String} {i : Int} (h : data.find? (str k) = some (to_string i))
    (hpos : 0 < MainActivity.id_of data k) : MainActivity.id_of data k = i := by
  have hread : MainActivity.id_of data k = if Fits 32 i then i else -1 := by
    rw [MainActivity.id_of, h, Option.bind_some, toIntOrNull, toNumberOrNull_to_string_eq]
    split <;> rfl
  by_cases hfits : Fits 32 i
  · rw [hread, if_pos hfits]
  · rw [hread, if_neg hfits] at hpos
    omega

/-- No notice but a promotion says that somebody is an admin, and no history does. -/
theorem no_promotion {r : Reply} (hr : r.bystander session = true) (hclean : ∀ t ∈ r.texts, 38 ∉ t)
    (hadmin : (pairs r.payload).find? (str "isAdmin") = some (str "true"))
    (hpos : 0 < MainActivity.id_of (pairs r.payload) "userId") :
    MainActivity.id_of (pairs r.payload) "userId" ≠ session.userId := by
  have habsent : r.itemized = true → (∀ n ∈ r.plain_keys, str n ≠ str "isAdmin") →
      (pairs r.payload).find? (str "isAdmin") = none := by
    intro hitems hkeys
    obtain ⟨items, hne, hpayload, hshape⟩ := r.shape hitems
    rw [hpayload]
    exact hshape.absent hclean hne (by decide) hkeys
  cases r with
  | renamed gid newName =>
    have hkeys : ∀ n ∈ ["groupId", "name", "action"], str n ≠ str "isAdmin" := by decide
    rw [habsent rfl hkeys] at hadmin
    cases hadmin
  | member_removed gid uid =>
    have hkeys : ∀ n ∈ ["groupId", "userId", "action"], str n ≠ str "isAdmin" := by decide
    rw [habsent rfl hkeys] at hadmin
    cases hadmin
  | conversation entries =>
    have hkeys : ∀ n ∈ ["count"], str n ≠ str "isAdmin" := by decide
    rw [habsent rfl hkeys] at hadmin
    cases hadmin
  | group_history gid entries =>
    have hkeys : ∀ n ∈ ["groupId", "count"], str n ≠ str "isAdmin" := by decide
    rw [habsent rfl hkeys] at hadmin
    cases hadmin
  | promoted gid uid =>
    -- the user that is named is somebody else
    have hother : uid ≠ session.userId := by simpa [Reply.bystander] using hr
    have huid : (pairs (Reply.promoted gid uid).payload).find? (str "userId") = some (to_string uid) := by
      refine find?_pairs (fun p hp => ?_) (List.mem_cons_of_mem _ List.mem_cons_self) fun p hp hk => ?_
      · simp only [List.mem_cons, List.not_mem_nil, or_false] at hp
        rcases hp with rfl | rfl | rfl
        · exact readable_number (by decide) gid
        · exact readable_number (by decide) uid
        · exact readable_text (by decide) (by decide)
      · simp only [List.mem_cons, List.not_mem_nil, or_false] at hp
        rcases hp with rfl | rfl | rfl
        · exact absurd (show str "groupId" = str "userId" from hk) (by decide)
        · rfl
        · exact absurd (show str "isAdmin" = str "userId" from hk) (by decide)
    rw [id_of_number huid hpos]
    exact hother
  | _ => cases hr

/-- **When a reply is recognised**: exactly when its texts do not mislead. A notice of a new name never is. -/
theorem replies_recognised_iff (decode : Bytes → Option Bytes) (session : Session) (r : Reply) :
    Recognised decode session r ↔ r.Unmistakable := by
  by_cases hcreated : ∃ me gid name ids, r = .created me gid name ids
  · -- a reply to `CREATE_GROUP` is taken for a list, or is what it is
    obtain ⟨me, gid, name, ids, rfl⟩ := hcreated
    obtain ⟨-, hlist⟩ := Reply.group_handler_created me gid name ids
    constructor
    · intro h
      by_contra hmistaken
      obtain ⟨gs, hgs⟩ := h.listed (hlist.mpr hmistaken)
      cases hgs
    · intro hplain
      refine ⟨fun _ => ⟨me, gid, name, ids, rfl⟩, fun h => absurd hplain (hlist.mp h), fun h => ?_⟩
      cases h
  by_cases hgroups : ∃ gs, r = .user_groups gs
  · obtain ⟨gs, rfl⟩ := hgroups
    refine iff_of_true ⟨fun h => ?_, fun _ => ⟨gs, rfl⟩, fun h => ?_⟩ trivial
    · exact absurd h (Reply.group_handler_user_groups gs)
    · cases h
  -- the other replies are passed to no handler of groups, or are taken for what they are not
  rw [← r.group_handler_none_iff (fun me gid name ids h => hcreated ⟨me, gid, name, ids, h⟩)
    fun gs h => hgroups ⟨gs, h⟩]
  constructor
  · intro h
    cases hhandler : MainActivity.group_handler r.payload with
    | none => rfl
    | some handler =>
      cases handler with
      | handleGroupListPayload => exact absurd (h.listed hhandler) hgroups
      | handleGroupCreated => exact absurd (h.created hhandler) hcreated
  · intro hnone
    refine ⟨fun h => ?_, fun h => ?_, fun hquiet hclean => on_success_keeps hnone fun hadmin hpos => ?_⟩
    · rw [hnone] at h
      cases h
    · rw [hnone] at h
      cases h
    · exact no_promotion hquiet hclean hadmin hpos

end Recognised

/-! ## A new name -/

/-- A notice of a new name, taken apart. -/
theorem pairs_renamed {newName : Bytes} (gid : Int) (hname : 38 ∉ newName) :
    pairs (Reply.renamed gid newName).payload = (((∅ : UMap Bytes Bytes).set (str "groupId")
      (to_string gid)).set (str "name") newName).set (str "action") (str "renamed") := by
  refine pairs_serialize (List.cons_ne_nil _ _) fun p hp => ?_
  simp only [List.mem_cons, List.not_mem_nil, or_false] at hp
  rcases hp with rfl | rfl | rfl
  · exact readable_number (by decide) gid
  · exact readable_text (by decide) hname
  · exact readable_text (by decide) (by decide)

/-- What a notice of a new name does through `handleGroupCreated`: the user becomes the creator and an admin of the
group, of which it is the one member. -/
theorem renamed_takes_over (session : Session) {gid : Int} {newName : Bytes} (hgid : Fits 32 gid)
    (hname : 38 ∉ newName) (db : Room.Database) :
    ((MainActivity.handleGroupCreated session (Reply.renamed gid newName).payload).run db).2 =
      { db with
        groups := db.groups.set gid ⟨gid, newName, session.userId, 1⟩
        group_members := db.group_members.set (gid, session.userId)
          ⟨gid, session.userId, session.username.getD (str "Me"), none, true⟩ } := by
  have hpairs := pairs_renamed gid hname
  have hread : toIntOrNull (to_string gid) = some gid := toNumberOrNull_to_string hgid
  have hid : (pairs (Reply.renamed gid newName).payload).find? (str "groupId") = some (to_string gid) := by
    rw [hpairs]
    simp [str]
  have hnew : (pairs (Reply.renamed gid newName).payload).find? (str "name") = some newName := by
    rw [hpairs]
    simp [str]
  have hcount : (pairs (Reply.renamed gid newName).payload).find? (str "memberCount") = none := by
    rw [hpairs]
    simp [str]
  have hmembers : (pairs (Reply.renamed gid newName).payload).get (str "members") = [] := by
    rw [hpairs]
    simp [str]
    rfl
  rw [MainActivity.handleGroupCreated]
  simp only [hid, hnew, hcount, hmembers, Option.bind_some, hread]
  rfl

/-- **Replies are mistaken**: the notice that group 7 is called `x` is taken for a new group. -/
theorem replies_mistaken : ¬∀ (decode : Bytes → Option Bytes) (session : Session) (r : Reply),
    Recognised decode session r := by
  intro claim
  have hrecognised := claim (fun _ => none) ⟨1, none⟩ (.renamed 7 (str "x"))
  cases hhandler : MainActivity.group_handler (Reply.renamed 7 (str "x")).payload with
  | none =>
    have hnone := (Reply.renamed 7 (str "x")).group_handler_none_iff (fun _ _ _ _ h => by cases h) fun _ h => by
      cases h
    exact hnone.mp hhandler
  | some handler =>
    cases handler with
    | handleGroupListPayload =>
      obtain ⟨gs, hr⟩ := hrecognised.listed hhandler
      cases hr
    | handleGroupCreated =>
      obtain ⟨me, gid, name, memberIds, hr⟩ := hrecognised.created hhandler
      cases hr

end ChatApp
