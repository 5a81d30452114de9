/-
`FriendsFragment.lean` -- what `ui/fragment/FriendsFragment.kt` does with the messages it is handed.

Every `SUCCESS` payload is read as a reply to `GET_FRIENDS_LIST`, whatever it is: nothing is asked of it
first. Two coroutines of `ui/viewmodel/FriendViewModel.kt` then replace the table of friends by the
friends that were read, and the pending requests of the user by the requests that were read. A payload that
lists neither empties both.

The two coroutines run at the same time, and each of their calls of the database is a transaction.
-/
import ChatApp.MainActivity

set_option autoImplicit false

namespace ChatApp.Room

/-! ## The view model -/

namespace FriendViewModel

/-- `networkManager.getUserId().takeIf { it != 0 } ?: sessionManager.getUserId()`. -/
def currentUserId (networkUserId : Int) (session : Session) : Int :=
  if networkUserId ≠ 0 then networkUserId else session.userId

/-- `replaceFriends`. -/
def replaceFriends (friends : List Friend) : Dao Unit := do
  clearAll
  if friends ≠ [] then insertFriends friends else pure ()

section Requests

variable (currentUserId : Int)

/-- A request that is entered at the time `now`, unless the two are friends already. -/
def addPendingFriendRequest (now fromUserId : Int) (fromUsername : Bytes) : Dao Unit := do
  let friend ← getFriend fromUserId
  if friend.isSome then pure () else insertRequest ⟨fromUserId, currentUserId, fromUsername, now, .PENDING⟩

/-- `clearPendingRequestsForCurrentUser`. -/
def clearPendingRequestsForCurrentUser : Dao Unit := clearPendingFor currentUserId

/-- `replacePendingRequestsForCurrentUser`; `entered` is the time at which the request at a place is entered. -/
def replacePendingRequestsForCurrentUser (entered : Nat → Int) (requests : List (Int × Bytes)) : Dao Unit := do
  clearPendingFor currentUserId
  requests.zipIdx.forM fun r => addPendingFriendRequest currentUserId (entered r.2) r.1.1 r.1.2

end Requests

end FriendViewModel

/-! ## The fragment -/

namespace FriendsFragment

open FriendViewModel

/-- One part that is split at every `=` is entered: unless it has two pieces, it enters the empty key. -/
def associate_strictly (m : UMap Bytes Bytes) (part : Bytes) : UMap Bytes Bytes :=
  match part.splitOn 61 with
  | [k, v] => m.set k v
  | _ => m.set [] []

/-- `payload.split("&").associate { .. }` where a part is split at every `=`. -/
def associated_strictly (payload : Bytes) : UMap Bytes Bytes := (payload.splitOn 38).foldl associate_strictly ∅

/-- The friend at a place. An entry without a number or a name is passed over. -/
def listed_friend (data : UMap Bytes Bytes) (i : Nat) : Option (Int × Bytes) := do
  let fid ← (data.find? (key "id" i)).bind toIntOrNull
  let fname ← data.find? (key "name" i)
  if fname = [] then none else some (fid, fname)

/-- The friends that are read. -/
def listed_friends (data : UMap Bytes Bytes) : List (Int × Bytes) :=
  let count := ((data.find? (str "count")).bind toIntOrNull).getD 0
  (List.range count.toNat).filterMap (listed_friend data)

/-- The requests that are read. -/
def listed_requests (data : UMap Bytes Bytes) : List (Int × Bytes) :=
  let pendingCount := ((data.find? (str "pendingCount")).bind toIntOrNull).getD 0
  (List.range pendingCount.toNat).filterMap fun i => do
    let reqUserId ← (data.find? (key "req_id" i)).bind toIntOrNull
    return (reqUserId, (data.find? (key "req_name" i)).getD (str "Unknown"))

section Handlers

variable (now entered : Nat → Int) (networkUserId : Int) (session : Session)

/-- `parseFriendsListResponse`: the coroutine for the friends and the one for the requests. The clock says `now` while
the friends are read, and `entered` in the second coroutine. -/
def parseFriendsListResponse (payload : Bytes) : Dao Unit × Dao Unit :=
  let data := associated payload
  let current := currentUserId networkUserId session
  let list := listed_requests data
  (replaceFriends (dated now (listed_friends data)),
    if list ≠ [] then replacePendingRequestsForCurrentUser current entered list
    else clearPendingRequestsForCurrentUser current)

/-- `onMessageReceived`: the coroutines that are started, `pure ()` for none. -/
def onMessageReceived (messageType : MessageType) (payload : Bytes) : Dao Unit × Dao Unit :=
  match messageType with
  | .FRIEND_REQUEST =>
    let data := associated_strictly payload
    match (data.find? (str "fromUserId")).bind toIntOrNull with
    | some fromUserId => (pure (), addPendingFriendRequest (currentUserId networkUserId session) (entered 0)
        fromUserId ((data.find? (str "fromUsername")).getD (str "Unknown")))
    | none => (pure (), pure ())
  | .SUCCESS => parseFriendsListResponse now entered networkUserId session payload
  | _ => (pure (), pure ())

end Handlers

/-! ## What is read of a reply -/

/-- Parts without `=` apart, both activities read the same of a payload. -/
theorem associated_find? (payload : Bytes) {k : Bytes} (hk : k ≠ []) :
    (associated payload).find? k = (pairs payload).find? k := by
  rw [associated, pairs]
  -- part by part, both maps say the same of the key
  have hall : ∀ (parts : List Bytes) (m m' : UMap Bytes Bytes), m.find? k = m'.find? k →
      (parts.foldl associate m).find? k =
        ((parts.filterMap pair_of).foldl (fun m p => m.set p.1 p.2) m').find? k := by
    intro parts
    induction parts with
    | nil => exact fun _ _ h => h
    | cons part parts ih =>
      intro m m' h
      rw [List.foldl_cons, List.filterMap_cons, associate]
      cases pair_of part with
      | none =>
        refine ih _ _ ?_
        rw [UMap.find?_set, if_neg hk, h]
      | some p =>
        rw [List.foldl_cons]
        refine ih _ _ ?_
        rw [UMap.find?_set, UMap.find?_set, h]
  exact hall _ _ _ rfl

theorem associated_find?_key (payload : Bytes) (name : String) (i : Nat) :
    (associated payload).find? (key name i) = (pairs payload).find? (key name i) :=
  associated_find? payload (List.append_ne_nil_of_right_ne_nil _ (to_string_ne_nil _))

section Absent

variable {items : List (Bytes × Bytes)} {plain numbered : List String} {texts : List Bytes}

/-- Where nothing has an id, no friends are read. -/
theorem no_friends (h : Shape items plain numbered texts) (hclean : ∀ t ∈ texts, 38 ∉ t) (hne : items ≠ [])
    (hplain : ∀ n ∈ plain, ∀ c ∈ (str n).getLast?, isdigit c = false) (hid : ∀ n ∈ numbered, str n ≠ str "id") :
    listed_friends (associated (serialize_kv items)) = [] := by
  rw [listed_friends, List.filterMap_eq_nil_iff]
  intro i _
  rw [listed_friend, associated_find?_key, h.absent_numbered hclean hne (by decide) hplain hid i]
  rfl

/-- Where requests are not counted, none are read. -/
theorem no_requests (h : Shape items plain numbered texts) (hclean : ∀ t ∈ texts, 38 ∉ t) (hne : items ≠ [])
    (hplain : ∀ n ∈ plain, str n ≠ str "pendingCount") :
    listed_requests (associated (serialize_kv items)) = [] := by
  rw [listed_requests, associated_find? _ (by decide), h.absent hclean hne (by decide) hplain]
  rfl

end Absent

section Lists

variable {ι : Type} {us : List ι} {fields : ι → List (String × Bytes)}

/-- A user with a number that an `int` holds and a name is taken for a friend. -/
def friend_of (u : NamedUser) : Option (Int × Bytes) :=
  if Fits 32 u.id ∧ u.name ≠ [] then some (u.id, u.name) else none

/-- Where a list of users is counted, all of them are taken for friends. -/
def friends_of (us : List NamedUser) : List (Int × Bytes) := if Fits 32 us.length then us.filterMap friend_of else []

theorem friends_of_fits {us : List NamedUser} (h : Fits 32 us.length) : friends_of us = us.filterMap friend_of :=
  if_pos h

theorem friends_of_many {us : List NamedUser} (h : ¬Fits 32 us.length) : friends_of us = [] := if_neg h

/-- A printed count is read as an `int`. -/
theorem counted (n : Nat) : ((some (to_string n)).bind toIntOrNull).getD 0 = if Fits 32 n then (n : Int) else 0 := by
  have hnumber : (some (to_string n)).bind toIntOrNull = if Fits 32 n then some (n : Int) else none :=
    toNumberOrNull_to_string_eq _
  rw [hnumber]
  split <;> rfl

/-- **Friends are read** where their number and their fields are found. -/
theorem listed_friends_read (data : UMap Bytes Bytes) (vs : List NamedUser)
    (hcount : data.find? (str "count") = some (to_string vs.length))
    (hread : ∀ i u, vs[i]? = some u → data.find? (key "id" i) = some (to_string u.id) ∧
      data.find? (key "name" i) = some u.name) : listed_friends data = friends_of vs := by
  rw [listed_friends, hcount, counted]
  by_cases hfits : Fits 32 vs.length
  · rw [if_pos hfits, friends_of_fits hfits]
    refine filterMap_range_of fun i u hu => ?_
    obtain ⟨hid, hname⟩ := hread i u hu
    rw [listed_friend, hid, hname, Option.bind_some, toIntOrNull, toNumberOrNull_to_string_eq, friend_of]
    by_cases hint : Fits 32 u.id
    · by_cases hempty : u.name = []
      · simp [hint, hempty]
      · simp [hint, hempty]
    · simp [hint]
  · rw [if_neg hfits, friends_of_many hfits]
    rfl

/-- **Requests are read** in the same way. -/
theorem listed_requests_read (data : UMap Bytes Bytes) (vs : List NamedUser)
    (hcount : data.find? (str "pendingCount") = some (to_string vs.length))
    (hread : ∀ i u, vs[i]? = some u → data.find? (key "req_id" i) = some (to_string u.id) ∧
      data.find? (key "req_name" i) = some u.name)
    (hfits : Fits 32 vs.length) (hids : ∀ u ∈ vs, Fits 32 u.id) :
    listed_requests data = vs.map fun u => (u.id, u.name) := by
  rw [listed_requests, hcount, counted, if_pos hfits]
  have hmap : vs.map (fun u => (u.id, u.name)) = vs.filterMap fun u => some (u.id, u.name) :=
    (congrFun List.filterMap_eq_map vs).symm
  rw [hmap, Int.toNat_natCast]
  refine filterMap_range_of fun i u hu => ?_
  obtain ⟨hid, hname⟩ := hread i u hu
  rw [hid, hname, Option.bind_some, toIntOrNull, toNumberOrNull_to_string_eq,
    if_pos (hids u (List.mem_of_getElem? hu))]
  rfl

/-- **A list of users is read** as a list of friends. -/
theorem listed_friends_of (user : ι → NamedUser) (hlist : ∀ u ∈ us, Listable (fields u))
    (hid : ∀ u, ("id", to_string (user u).id) ∈ fields u) (hname : ∀ u, ("name", (user u).name) ∈ fields u) :
    listed_friends (associated (serialize_kv ([(str "count", to_string us.length)] ++ numbered_items (us.map fields))))
      = friends_of (us.map user) := by
  have hthings : ∀ fs ∈ us.map fields, Listable fs := List.forall_mem_map.mpr hlist
  refine listed_friends_read _ _ ?_ fun i v hv => ?_
  · rw [associated_find? _ (by decide), List.length_map]
    exact find?_heading (heading_count _) hthings (List.mem_singleton.mpr rfl)
  · rw [List.getElem?_map] at hv
    obtain ⟨u, hu, rfl⟩ := Option.map_eq_some_iff.mp hv
    have hthing : (us.map fields)[i]? = some (fields u) := by rw [List.getElem?_map, hu]; rfl
    rw [associated_find?_key, associated_find?_key]
    exact ⟨find?_numbered (heading_count _) hthings hthing (hid u),
      find?_numbered (heading_count _) hthings hthing (hname u)⟩

end Lists

/-! ## What becomes of the tables -/

section Settled

/-- A transaction on the table of friends. -/
def OnFriends {β : Type} (o : Transaction β) : Prop := ∃ g : UMap Int Friend → β × UMap Int Friend,
  ∀ db, o.exec db = ((g db.friends).1, { db with friends := (g db.friends).2 })

/-- A transaction on the table of requests. -/
def OnRequests {β : Type} (o : Transaction β) : Prop :=
  ∃ g : UMap (Int × Int) FriendRequest → β × UMap (Int × Int) FriendRequest,
    ∀ db, o.exec db = ((g db.friend_requests).1, { db with friend_requests := (g db.friend_requests).2 })

theorem commutes_of_tables {β γ : Type} {o : Transaction β} {o' : Transaction γ} (ho : OnFriends o)
    (ho' : OnRequests o') : Program.Commutes Transaction.exec (fun _ => True) o o' := by
  obtain ⟨g, hg⟩ := ho
  obtain ⟨g', hg'⟩ := ho'
  constructor
  · intro db _
    rw [hg, hg', hg]
  · intro db _
    rw [hg, hg', hg']
  · intro db _
    rw [hg, hg', hg, hg']

/-- The table of these friends; of two entries for a user the last counts. -/
def friends_table (friends : List Friend) : UMap Int Friend := friends.foldl (fun t f => t.set f.userId f) ∅

theorem find?_friends_table (friends : List Friend) (uid : Int) :
    (friends_table friends).find? uid = friends.reverse.find? fun f => f.userId = uid := by
  have hset := UMap.find?_foldl_set Friend.userId id friends ∅ uid
  rw [Option.map_id, UMap.find?_empty, Option.or_none] at hset
  exact hset

theorem replaceFriends_always (friends : List Friend) :
    (replaceFriends friends).Always OnFriends fun _ => True := by
  rw [replaceFriends, Program.always_bind]
  refine ⟨⟨fun _ => ((), ∅), fun _ => rfl⟩, fun _ => ?_⟩
  split
  · exact ⟨⟨fun t => ((), friends.foldl (fun t f => t.set f.userId f) t), fun _ => rfl⟩, fun _ => trivial⟩
  · exact trivial

theorem replaceFriends_run (friends : List Friend) (db : Database) :
    ((replaceFriends friends).run db).2 = { db with friends := friends_table friends } := by
  rw [replaceFriends, Dao.run_bind, clearAll, Dao.run_change]
  split
  · rfl
  · next hnone =>
    rw [not_not.mp hnone]
    rfl

theorem clearPendingFor_always (uid : Int) : (clearPendingFor uid).Always OnRequests fun _ => True :=
  ⟨⟨fun t => ((), t.erase_if fun _ r => r.toUserId = uid && r.status = .PENDING), fun _ => rfl⟩, fun _ => trivial⟩

variable {now entered : Nat → Int} {networkUserId : Int} {session : Session} {payload : Bytes}

/-- Where no requests are read, the friends that are read replace those in the table, and the pending requests of
the user go, in whatever order the coroutines run. -/
theorem received_settled (h : listed_requests (associated payload) = []) (turns : List Bool) (db : Database) :
    Program.interleave Transaction.exec turns (onMessageReceived now entered networkUserId session .SUCCESS payload).1
        (onMessageReceived now entered networkUserId session .SUCCESS payload).2 db =
      { db with
        friends := friends_table (dated now (listed_friends (associated payload)))
        friend_requests := db.friend_requests.erase_if fun _ r =>
          r.toUserId = currentUserId networkUserId session && r.status = .PENDING } := by
  have hpending : (onMessageReceived now entered networkUserId session .SUCCESS payload).2 =
      clearPendingFor (currentUserId networkUserId session) := by
    rw [onMessageReceived, parseFriendsListResponse, h]
    rfl
  rw [hpending]
  refine (Program.interleave_commutes (replaceFriends_always _) (clearPendingFor_always _) (fun _ _ _ _ => trivial)
    (fun _ _ _ _ => trivial) (fun _ _ => commutes_of_tables) turns trivial).trans ?_
  have hfriends := replaceFriends_run (dated now (listed_friends (associated payload))) db
  rw [Dao.run] at hfriends
  rw [hfriends]
  rfl

end Settled

end FriendsFragment

end ChatApp.Room

namespace ChatApp

open handle_client Room FriendsFragment FriendViewModel

/-! ## Replies that are no lists of friends -/

namespace Reply

/-- The users that are taken for friends in a reply to another request. -/
def listed_as_friends : Reply → List (Int × Bytes)
  | .search hits => friends_of (hits.map fun u => u.toNamedUser)
  | .all_users users => friends_of (users.map ListedUser.toNamedUser)
  | _ => []

/-- The shape of a list of groups. -/
theorem user_groups_shape (gs : List Room.GroupEntry) : Shape
    ([(str "count", to_string gs.length)] ++ numbered_items (gs.map Room.GroupEntry.fields)) ["count"]
    (if gs.isEmpty then [] else ["groupId", "name", "memberCount", "members", "memberNicks", "memberNames",
      "memberAdmins"]) (Reply.user_groups gs).texts := by
  have hnumber := undelimited_number
  have hcount : Shape [(str "count", to_string gs.length)] ["count"] [] [] :=
    Shape.fields [("count", to_string gs.length)] ["count"] rfl (by decide) (by simp [hnumber]) (by simp)
  have hlist := Shape.list gs Room.GroupEntry.fields ["groupId", "name", "memberCount", "members", "memberNicks",
    "memberNames", "memberAdmins"] (fun g => [g.name, g.members, g.nicks, g.names, g.admins]) (fun _ => rfl)
    (by decide) (by simp [Room.GroupEntry.fields, hnumber]) (by simp [Room.GroupEntry.fields])
  exact hcount.append hlist

/-- Requests are counted in lists of friends only. -/
theorem no_pendingCount {r : Reply} (hr : ∀ friends requests, r ≠ .friends_list friends requests) :
    ∀ n ∈ r.plain_keys, str n ≠ str "pendingCount" := by
  have hkeys : ∀ n ∈ ["success", "userId", "token", "username", "count", "groupId", "name", "memberCount", "members",
      "action", "isAdmin"], str n ≠ str "pendingCount" := by decide
  intro n hn
  refine hkeys n ?_
  revert n
  cases r with
  | friends_list friends requests => exact absurd rfl (hr friends requests)
  | _ => simp [plain_keys]

section Read

variable {r : Reply}

/-- What is read of the requests. -/
theorem reads_no_requests (hr : ∀ friends requests, r ≠ .friends_list friends requests)
    (hclean : ∀ t ∈ r.texts, 38 ∉ t) : listed_requests (associated r.payload) = [] := by
  by_cases hitems : r.itemized = true
  · obtain ⟨items, hne, hpayload, hshape⟩ := r.shape hitems
    rw [hpayload]
    exact no_requests hshape hclean hne (no_pendingCount hr)
  · cases r with
    | acknowledgement text fixed =>
      have hall : ∀ text ∈ acknowledgements, listed_requests (associated text) = [] := by decide
      exact hall text fixed
    | user_groups gs =>
      rw [payload, group_list_numbered]
      exact no_requests (user_groups_shape gs) hclean (by simp) (by decide)
    | _ => exact absurd rfl hitems

theorem listable_listed {u : ListedUser} (hname : 38 ∉ u.name) : Listable u.fields where
  worded := by simp only [ListedUser.fields, List.forall_mem_cons]; decide
  once := by simp only [ListedUser.fields, List.map_cons, List.map_nil]; decide
  plain := by
    have hflag := (undelimited_flag u.isFriend).2
    have hid := (undelimited_number u.id).2
    simp [ListedUser.fields, hflag, hid, hname]

theorem listable_found {u : FoundUser} (hname : 38 ∉ u.name) (hphone : 38 ∉ u.phone) : Listable u.fields where
  worded := by simp only [FoundUser.fields, List.forall_mem_cons]; decide
  once := by simp only [FoundUser.fields, List.map_cons, List.map_nil]; decide
  plain := by
    have hflag := (undelimited_flag u.isFriend).2
    have hid := (undelimited_number u.id).2
    simp [FoundUser.fields, hflag, hid, hname, hphone]

/-- **What is read of the friends**: the users of a reply that lists users, and else nobody. -/
theorem reads_friends (hr : ∀ friends requests, r ≠ .friends_list friends requests) (hclean : ∀ t ∈ r.texts, 38 ∉ t) :
    listed_friends (associated r.payload) = r.listed_as_friends := by
  have hnone : r.itemized = true → (∀ n ∈ r.numbered_keys, str n ≠ str "id") →
      listed_friends (associated r.payload) = [] := by
    intro hitems hid
    obtain ⟨items, hne, hpayload, hshape⟩ := r.shape hitems
    rw [hpayload]
    exact no_friends hshape hclean hne r.plain_key_ends hid
  cases r with
  | friends_list friends requests => exact absurd rfl (hr friends requests)
  | acknowledgement text fixed =>
    have hall : ∀ text ∈ acknowledgements, listed_friends (associated text) = [] := by decide
    exact hall text fixed
  | user_groups gs =>
    have hkeys : ∀ n ∈ ["groupId", "name", "memberCount", "members", "memberNicks", "memberNames", "memberAdmins"],
      str n ≠ str "id" := by decide
    rw [payload, group_list_numbered]
    have hcount : Worded "count" := by decide
    refine no_friends (user_groups_shape gs) hclean (by simp) (List.forall_mem_singleton.mpr hcount.ends) fun n hn =>
      hkeys n ?_
    split at hn
    · cases hn
    · exact hn
  | search hits =>
    have htexts : ∀ u ∈ hits, 38 ∉ u.name ∧ 38 ∉ u.phone := by
      intro u hu
      exact ⟨hclean _ (List.mem_flatMap.mpr ⟨u, hu, by simp⟩), hclean _ (List.mem_flatMap.mpr ⟨u, hu, by simp⟩)⟩
    have hlist : ∀ u ∈ hits, Listable u.fields := fun u hu => listable_found (htexts u hu).1 (htexts u hu).2
    have hread := listed_friends_of (fun u => u.toNamedUser) hlist (fun u => by simp [FoundUser.fields])
      fun u => by simp [FoundUser.fields]
    rw [payload, listed_as_friends]
    exact hread
  | all_users users =>
    have htexts : ∀ u ∈ users, 38 ∉ u.name := fun u hu => hclean _ (List.mem_flatMap.mpr ⟨u, hu, by simp⟩)
    exact listed_friends_of ListedUser.toNamedUser (fun u hu => listable_listed (htexts u hu))
      (fun u => by simp [ListedUser.fields]) (fun u => by simp [ListedUser.fields])
  | conversation entries =>
    have hkeys : ∀ n ∈ ["from", "to", "content", "timestamp"], str n ≠ str "id" := by decide
    refine hnone rfl fun n hn => hkeys n ?_
    cases entries with
    | nil => cases hn
    | cons => exact hn
  | group_history gid entries =>
    have hkeys : ∀ n ∈ ["from", "content", "timestamp"], str n ≠ str "id" := by decide
    refine hnone rfl fun n hn => hkeys n ?_
    cases entries with
    | nil => cases hn
    | cons => exact hn
  | _ => exact hnone rfl fun n hn => absurd hn List.not_mem_nil

end Read

end Reply

/-! ## When the tables stay -/

/-- The tables of friends and of friend requests say the same. -/
structure SameFriends (db db' : Room.Database) : Prop where
  friends : ∀ uid, db'.friends.find? uid = db.friends.find? uid
  friend_requests : ∀ k, db'.friend_requests.find? k = db.friend_requests.find? k

/-- A `SUCCESS` payload that is read while the clock says `now` leaves both tables as they are, whatever it says in
the coroutines and in whatever order these run. -/
def LeavesFriends (now : Nat → Int) (networkUserId : Int) (session : Session) (payload : Bytes)
    (db : Room.Database) : Prop :=
  ∀ entered turns, SameFriends db (Program.interleave Transaction.exec turns
    (onMessageReceived now entered networkUserId session .SUCCESS payload).1
    (onMessageReceived now entered networkUserId session .SUCCESS payload).2 db)

/-- Removing what a test finds leaves a table as it is when it finds nothing. -/
theorem find?_erase_if_eq_iff {K V : Type} [DecidableEq K] (m : UMap K V) (p : K → V → Bool) :
    (∀ k, (m.erase_if p).find? k = m.find? k) ↔ ∀ k v, m.find? k = some v → p k v = false := by
  constructor
  · intro h k v hv
    have hk := h k
    rw [UMap.find?_erase_if, hv, Option.filter_eq_some_iff] at hk
    simpa using hk.2
  · intro h k
    rw [UMap.find?_erase_if]
    cases hv : m.find? k with
    | none => rfl
    | some v => simp [h k v hv]

/-- **When a reply to another request leaves the friends**: exactly when the phone has the rows of the friends that are
read from it, with these times, and no pending requests of its user. -/
theorem friends_left_iff (now : Nat → Int) (networkUserId : Int) (session : Session) (r : Reply) (db : Room.Database)
    (hr : ∀ friends requests, r ≠ .friends_list friends requests) (hclean : ∀ t ∈ r.texts, 38 ∉ t) :
    LeavesFriends now networkUserId session r.payload db ↔
      (∀ uid, db.friends.find? uid = (dated now r.listed_as_friends).reverse.find? fun f => f.userId = uid) ∧
      ∀ k req, db.friend_requests.find? k = some req →
        ¬(req.toUserId = currentUserId networkUserId session ∧ req.status = .PENDING) := by
  have hfriends := Reply.reads_friends hr hclean
  have hrequests := Reply.reads_no_requests hr hclean
  have hpending := find?_erase_if_eq_iff db.friend_requests fun _ req =>
    req.toUserId = currentUserId networkUserId session && req.status = .PENDING
  simp only [Bool.and_eq_false_iff, decide_eq_false_iff_not] at hpending
  simp only [not_and_or]
  rw [← hpending, LeavesFriends]
  constructor
  · intro h
    obtain ⟨hsame, hsame'⟩ := h now []
    rw [received_settled hrequests, hfriends] at hsame hsame'
    refine ⟨fun uid => ?_, hsame'⟩
    rw [← hsame uid]
    exact find?_friends_table _ uid
  · rintro ⟨hsame, hsame'⟩ entered turns
    rw [received_settled hrequests, hfriends]
    refine ⟨fun uid => ?_, hsame'⟩
    rw [hsame uid]
    exact find?_friends_table _ uid

/-- A phone with one friend. -/
def phone_of_two : Room.Database := { friends := (∅ : UMap Int Friend).set 2 ⟨2, str "b", false, 1000, 1000⟩ }

/-- The list of all users leaves the table when all of them are friends, and were entered in the same millisecond. -/
theorem friends_left_two :
    LeavesFriends (fun _ => 1000) 1 ⟨1, none⟩ (Reply.all_users [⟨⟨2, str "b"⟩, true⟩]).payload phone_of_two := by
  refine (friends_left_iff (fun _ => 1000) 1 ⟨1, none⟩ (.all_users [⟨⟨2, str "b"⟩, true⟩]) phone_of_two
    (fun _ _ h => by cases h) (by decide)).mpr ⟨fun uid => ?_, fun k req h => ?_⟩
  · have hlisted : dated (fun _ => 1000) (Reply.all_users [⟨⟨2, str "b"⟩, true⟩]).listed_as_friends =
      [⟨2, str "b", false, 1000, 1000⟩] := rfl
    rw [hlisted, phone_of_two, UMap.find?_set]
    by_cases huid : uid = 2
    · rw [if_pos huid, huid]
      rfl
    · rw [if_neg huid, UMap.find?_empty]
      simp [Ne.symm huid]
  · cases h

/-- **Friends are lost**: the answer to a message that was sent empties the table. -/
theorem friends_cleared : ¬∀ now networkUserId session (r : Reply) db,
    (∀ friends requests, r ≠ .friends_list friends requests) → (∀ t ∈ r.texts, 38 ∉ t) →
      LeavesFriends now networkUserId session r.payload db := by
  intro claim
  have hr : ∀ friends requests,
      Reply.acknowledgement (str "Message sent") (by decide) ≠ .friends_list friends requests := fun _ _ h => by cases h
  have hclean : ∀ t ∈ (Reply.acknowledgement (str "Message sent") (by decide)).texts, 38 ∉ t :=
    fun _ ht => absurd ht List.not_mem_nil
  have hleft := (claim (fun _ => 2000) 1 ⟨1, none⟩ _ phone_of_two hr hclean (fun _ => 2000) []).friends 2
  rw [received_settled (Reply.reads_no_requests hr hclean), Reply.reads_friends hr hclean] at hleft
  cases hleft

end ChatApp
