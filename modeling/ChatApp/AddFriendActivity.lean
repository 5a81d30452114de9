/-
`AddFriendActivity.lean` -- what `ui/activity/AddFriendActivity.kt` shows of a list of users, and that it
and `FriendsFragment` read the lists the server wrote.

The handlers of `GET_FRIENDS_LIST`, `GET_ALL_USERS` and `SEARCH_USER` number the fields of their
entries in a loop, and print the number of entries in front. The client looks the fields up one number
after the other. The three replies are described by what the tables of the server hold at that moment;
the screen that adds members to a group leaves out users by its own choice.
-/
import ChatApp.FriendsFragment
import ChatApp.GroupSync
import ChatApp.HandedOut
import Mathlib.Data.List.Infix

set_option autoImplicit false

namespace ChatApp.Room

/-! ## The activity -/

/-- `UserItem`, of which `isOnline` is never set. -/
structure UserItem where
  userId : Int
  username : Bytes
  isFriend : Bool
  deriving DecidableEq

namespace AddFriendActivity

/-- The entry at a place. An entry without a number or a name is passed over. -/
def listed_item (pairs : UMap Bytes Bytes) (i : Nat) : Option UserItem := do
  let userId ← (pairs.find? (key "id" i)).bind toIntOrNull
  let username ← pairs.find? (key "name" i)
  return ⟨userId, username, pairs.find? (key "isFriend" i) = some (str "1")⟩

/-- The entries that are read. -/
def listed_items (payload : Bytes) : List UserItem :=
  let pairs := pairs payload
  let count := ((pairs.find? (str "count")).bind toIntOrNull).getD 0
  (List.range count.toNat).filterMap (listed_item pairs)

/-- The items whose users are not in the group yet. -/
def without_members (targetGroupId : Int) (usersList : List UserItem) : Dao (List UserItem) := do
  let members ← usersList.mapM fun u => do
    let member ← getMember targetGroupId u.userId
    pure (if member.isSome then [u] else [])
  pure (usersList.filter (· ∉ members.flatten))

/-- `handleSuccessResponse`, with its coroutines: the answer is the list on the screen. When members are to be
added to a group, it shows friends only, and none that is a member. -/
def handleSuccessResponse (targetGroupId : Int) (payload : Bytes) : Dao (List UserItem) := do
  let usersList := listed_items payload
  usersList.forM fun u => insertUser ⟨u.userId, u.username, [], false⟩
  if targetGroupId > 0 then without_members targetGroupId (usersList.filter UserItem.isFriend)
  else pure usersList

/-! ## Reading the items -/

/-- The item of a user the server lists. -/
def item (u : ListedUser) : UserItem := ⟨u.id, u.name, u.isFriend⟩

/-- **Users are read** where their number and their fields are found. -/
theorem listed_items_read (payload : Bytes) (us : List ListedUser)
    (hcount : (pairs payload).find? (str "count") = some (to_string us.length))
    (hread : ∀ i u, us[i]? = some u → (pairs payload).find? (key "id" i) = some (to_string u.id) ∧
      (pairs payload).find? (key "name" i) = some u.name ∧
      (pairs payload).find? (key "isFriend" i) = some (handle_client.flag u.isFriend))
    (hfits : Fits 32 us.length) (hids : ∀ u ∈ us, Fits 32 u.id) : listed_items payload = us.map item := by
  have hmap : us.map item = us.filterMap fun u => some (item u) := (congrFun List.filterMap_eq_map us).symm
  rw [listed_items, hcount, FriendsFragment.counted, if_pos hfits, hmap, Int.toNat_natCast]
  refine filterMap_range_of fun i u hu => ?_
  obtain ⟨hid, hname, hfriend⟩ := hread i u hu
  rw [listed_item, hid, hname, hfriend, Option.bind_some, toIntOrNull, toNumberOrNull_to_string_eq,
    if_pos (hids u (List.mem_of_getElem? hu))]
  have hflag : decide (some (handle_client.flag u.isFriend) = some (str "1")) = u.isFriend := by
    cases u.isFriend <;> decide
  rw [hflag]
  rfl

section Lists

variable {ι : Type}

/-- **A list of users is read**, whatever other fields its entries have. -/
theorem listed_items_of (us : List ι) (fields : ι → List (String × Bytes)) (user : ι → ListedUser)
    (hlist : ∀ u ∈ us, Listable (fields u))
    (hid : ∀ u, ("id", to_string (user u).id) ∈ fields u) (hname : ∀ u, ("name", (user u).name) ∈ fields u)
    (hfriend : ∀ u, ("isFriend", handle_client.flag (user u).isFriend) ∈ fields u)
    (hfits : Fits 32 us.length) (hids : ∀ u ∈ us, Fits 32 (user u).id) :
    listed_items (serialize_kv ([(str "count", to_string us.length)] ++ numbered_items (us.map fields)))
      = us.map fun u => item (user u) := by
  have hthings : ∀ fs ∈ us.map fields, Listable fs := List.forall_mem_map.mpr hlist
  have hread := listed_items_read
    (serialize_kv ([(str "count", to_string us.length)] ++ numbered_items (us.map fields))) (us.map user) ?_
    (fun i v hv => ?_) (by rwa [List.length_map]) (List.forall_mem_map.mpr hids)
  · rw [hread, List.map_map]
    rfl
  · rw [List.length_map]
    exact find?_heading (heading_count _) hthings (List.mem_singleton.mpr rfl)
  · rw [List.getElem?_map] at hv
    obtain ⟨u, hu, rfl⟩ := Option.map_eq_some_iff.mp hv
    have hthing : (us.map fields)[i]? = some (fields u) := by rw [List.getElem?_map, hu]; rfl
    exact ⟨find?_numbered (heading_count _) hthings hthing (hid u),
      find?_numbered (heading_count _) hthings hthing (hname u),
      find?_numbered (heading_count _) hthings hthing (hfriend u)⟩

end Lists

/-- A loop of queries changes nothing. -/
theorem run_mapM {ι β : Type} {f : ι → Dao β} {g : ι → β} (db : Database)
    (h : ∀ x, (f x).run db = (g x, db)) (xs : List ι) : Dao.run (xs.mapM f) db = (xs.map g, db) := by
  induction xs with
  | nil => rfl
  | cons x xs ih =>
    rw [List.mapM_cons, Dao.run_bind, h, Dao.run_bind, ih]
    rfl

theorem without_members_run (targetGroupId : Int) (usersList : List UserItem) (db : Database) :
    ((without_members targetGroupId usersList).run db).1 =
      usersList.filter fun u => !db.group_members.count (targetGroupId, u.userId) := by
  have hmembers := run_mapM db (f := fun u : UserItem => do
      let member ← getMember targetGroupId u.userId
      pure (if member.isSome then [u] else []))
    (g := fun u => if db.group_members.count (targetGroupId, u.userId) then [u] else []) (fun _ => rfl) usersList
  rw [without_members, Dao.run_bind, hmembers, Dao.run_pure]
  refine List.filter_congr fun u hu => ?_
  have hmem : u ∈ (usersList.map fun u =>
      if db.group_members.count (targetGroupId, u.userId) then [u] else []).flatten ↔
        db.group_members.count (targetGroupId, u.userId) = true := by
    rw [List.mem_flatten]
    constructor
    · rintro ⟨_, hl, hin⟩
      obtain ⟨v, -, rfl⟩ := List.mem_map.mp hl
      split at hin
      · next hmember =>
        rw [List.mem_singleton.mp hin]
        exact hmember
      · cases hin
    · intro hmember
      refine ⟨[u], List.mem_map.mpr ⟨u, hu, ?_⟩, List.mem_singleton_self u⟩
      rw [if_pos hmember]
  rw [decide_not]
  refine congrArg _ ?_
  rw [Bool.eq_iff_iff, decide_eq_true_eq]
  exact hmem

/-- The screen that looks for friends shows everybody who was read; the one that adds members shows the friends
among them who are no members. -/
theorem handleSuccessResponse_run (targetGroupId : Int) (payload : Bytes) (db : Database) :
    ((handleSuccessResponse targetGroupId payload).run db).1 =
      if targetGroupId > 0 then (listed_items payload).filter fun u =>
        u.isFriend && !db.group_members.count (targetGroupId, u.userId)
      else listed_items payload := by
  -- the users that are stored are in another table
  have hstored : ∀ (us : List UserItem) (db : Database),
      (Dao.run (us.forM fun u => insertUser ⟨u.userId, u.username, [], false⟩) db).2.group_members
        = db.group_members := by
    intro us
    induction us with
    | nil => exact fun _ => rfl
    | cons u us ih =>
      intro db
      rw [Dao.run_forM, List.foldl_cons, ← Dao.run_forM, ih]
      rfl
  rw [handleSuccessResponse, Dao.run_bind]
  split
  · rw [without_members_run, hstored, List.filter_filter]
    exact List.filter_congr fun u _ => Bool.and_comm ..
  · rfl

end AddFriendActivity

end ChatApp.Room

namespace ChatApp

open Prog PostgresPersistence handle_client Room.AddFriendActivity

/-! ## What the server says -/

/-- The name that is shown of a user. -/
def ServerState.shown_name (s : ServerState) (uid : Int) : Bytes := s.username_or uid (str "User" ++ to_string uid)

/-- Everybody but the requester, with the flag of the requester. -/
def ServerState.others (s : ServerState) (requester_id : Int) : List ListedUser :=
  (s.g_users_by_id.toList.filter fun e => e.1 ≠ requester_id).map fun e =>
    ⟨⟨e.1, e.2.username⟩, s.isFriend requester_id e.1⟩

/-- The entries of the other users whose names contain the query, whatever the case of the letters. -/
def ServerState.matching (s : ServerState) (requester_id : Int) (query : Bytes) : List (Bytes × User) :=
  s.g_users_by_name.toList.filter fun e => e.2.id ≠ requester_id ∧ tolower query <:+: tolower e.2.username

/-- What is shown of a user that was found. -/
def ServerState.found (s : ServerState) (requester_id : Int) (u : User) : FoundUser :=
  ⟨⟨⟨u.id, u.username⟩, s.isFriend requester_id u.id⟩, u.phone⟩

/-- A frame of type `SUCCESS` with this payload was sent to `fd`, and nothing else. -/
def Says (fd : Int) (payload : Bytes) (w w' : World) : Prop :=
  ∃ f : Frame, w'.out = w.out ++ [f] ∧ f.fd = fd ∧ f.type = .SUCCESS ∧ f.payload = payload

/-- Those who ask, in the rows of the database: nobody without a database, or when the query fails. -/
def rows_asking (pg : Bool) (env : Env) (w : World) (me : Int) : List Int :=
  if pg && !env.sql_fails w.ticks && !w.db.aborted then (w.db.tables.pendingTo me).map FriendRequestRow.from_user_id
  else []

/-- Those who have asked `me`, in memory and then in the rows. -/
def asking (pg : Bool) (env : Env) (w : World) (me : Int) : List NamedUser :=
  (add_missing (w.mem.g_friend_requests.get me) (rows_asking pg env w me)).map fun a =>
    ⟨a, w.mem.shown_name a⟩

section Says

variable {pg : Bool} {env : Env} {w : World} (fd me requester_id : Int)

/-- One string contains another where the other is an infix. -/
theorem contains_iff_infix {haystack needle : Bytes} : contains haystack needle = true ↔ needle <:+: haystack := by
  simp only [contains, List.any_eq_true, List.mem_tails, List.isPrefixOf_iff_prefix,
    List.infix_iff_prefix_suffix]
  constructor
  · rintro ⟨t, hsuffix, hprefix⟩
    exact ⟨t, hprefix, hsuffix⟩
  · rintro ⟨t, hprefix, hsuffix⟩
    exact ⟨t, hsuffix, hprefix⟩

/-- The touch of an empty entry changes no flag. -/
theorem touched_isFriend (b : Bool) (rid : Int) : Ensures env w
    (when b (modify .g_friends fun g => g.touch rid) : Prog [.var .g_friends, .out] Unit) fun _ w' =>
      w'.out = w.out ∧ ∀ x y, w'.mem.isFriend x y = w.mem.isFriend x y := by
  cases b with
  | false => exact ⟨rfl, fun _ _ => rfl⟩
  | true =>
    refine ⟨rfl, fun x y => ?_⟩
    show ((w.mem.g_friends.touch rid).get x).get y = _
    rw [UMap.get_touch]
    rfl

theorem says_reply {S : List Field} {w₁ : World} {payload payload' : Bytes} (userId : UInt32) (h : .out ∈ S)
    (hout : w₁.out = w.out) (hpayload : payload' = payload) :
    Ensures env w₁ (reply fd .SUCCESS payload' userId h : Prog S Unit) fun _ w' => Says fd payload w w' := by
  subst hpayload
  exact ⟨_, congrArg (· ++ [_]) hout, rfl, rfl, rfl⟩

theorem get_all_users_payload : Ensures env w (get_all_users fd requester_id) fun _ w' =>
    Says fd (Reply.all_users (w.mem.others requester_id)).payload w w' := by
  suffices hbody : Ensures env w _ fun (_ : Unit) w' =>
      Says fd (Reply.all_users (w.mem.others requester_id)).payload w w' from
    hbody.bind fun _ w' h => ensures_pure h
  refine Ensures.locked (ensures_read ((touched_isFriend _ _).bind fun _ w₁ h₁ => ensures_read ?_))
  refine says_reply fd _ _ h₁.1 ?_
  simp only [Reply.payload, ServerState.others, List.length_map, List.map_map, numbered_items, List.zipIdx_map]
  simp only [user_item, h₁.2]
  rfl

theorem search_user_payload (payload : Bytes) : Ensures env w (search_user fd payload requester_id) fun _ w' =>
    Says fd (Reply.search (((w.mem.matching requester_id (field payload "query")).take 20).map fun e =>
      w.mem.found requester_id e.2)).payload w w' := by
  suffices hbody : Ensures env w _ fun (_ : Unit) w' => Says fd _ w w' from
    hbody.bind fun _ w' h => ensures_pure h
  have hhits : ((w.mem.g_users_by_name.toList.map Prod.snd).filter fun u => u.id ≠ requester_id &&
      contains (tolower u.username) (tolower (field payload "query"))).take 20 =
        ((w.mem.matching requester_id (field payload "query")).take 20).map Prod.snd := by
    rw [List.filter_map, ← List.map_take, ServerState.matching]
    have hsame : ∀ e ∈ w.mem.g_users_by_name.toList, (decide (e.2.id ≠ requester_id) &&
        contains (tolower e.2.username) (tolower (field payload "query"))) =
          decide (e.2.id ≠ requester_id ∧ tolower (field payload "query") <:+: tolower e.2.username) := by
      intro e _
      rw [Bool.eq_iff_iff, Bool.and_eq_true, contains_iff_infix, decide_eq_true_eq, decide_eq_true_eq]
    exact congrArg (fun l : List (Bytes × User) => (l.take 20).map Prod.snd) (List.filter_congr hsame)
  refine Ensures.locked (ensures_read ?_)
  rw [hhits]
  refine (touched_isFriend _ _).bind fun _ w₁ h₁ => ensures_read (says_reply fd _ _ h₁.1 ?_)
  simp only [Reply.payload, List.length_map, List.map_map, numbered_items, List.zipIdx_map]
  simp only [search_item, h₁.2]
  rfl

/-- Nothing is sent, and no user is changed. -/
def UsersKept (w w' : World) : Prop := w'.out = w.out ∧ w'.mem.g_users_by_id = w.mem.g_users_by_id

theorem UsersKept.shown_name {w' : World} (h : UsersKept w w') (uid : Int) :
    w'.mem.shown_name uid = w.mem.shown_name uid := by
  rw [ServerState.shown_name, ServerState.username_or, h.2]
  rfl

/-- What the query for the requests gives. -/
theorem get_pending_requests_asking : Ensures env w (get_pending_requests me) fun rows w' =>
    rows.map FriendRequestRow.from_user_id = rows_asking true env w me ∧ UsersKept w w' := by
  have hframe : Ensures env w (get_pending_requests me) _ := ensures_frame _
  refine Ensures.mono (R := fun rows w' => rows.map FriendRequestRow.from_user_id = rows_asking true env w me ∧
    ∀ x, x ∉ ([] : List Field) → x.Same w w') (Ensures.and ?_ hframe) fun rows w' h =>
      ⟨h.1, h.2 .out (by simp), h.2 (.var .g_users_by_id) (by simp)⟩
  show ((Database.select (fun d => d.pendingTo me) (env.sql_fails w.ticks) w.db).1.getD []).map _ = _
  rw [rows_asking, Database.select]
  cases w.db.aborted with
  | true => simp
  | false =>
    cases env.sql_fails w.ticks with
    | true => simp
    | false => simp

theorem merge_pending_asking (inMemory : List Int) : Ensures env w (merge_pending pg me inMemory) fun froms w' =>
    froms = add_missing inMemory (rows_asking pg env w me) ∧ UsersKept w w' := by
  cases pg with
  | false => exact ⟨rfl, rfl, rfl⟩
  | true =>
    refine ((get_pending_requests_asking me).lift _).bind fun rows w₁ h₁ => ?_
    refine Ensures.bind (R := fun _ w' => UsersKept w w') (Ensures.locked h₁.2) fun _ w₂ h₂ => ensures_pure ⟨?_, h₂⟩
    rw [← h₁.1]

theorem request_item_asking (a : Int) (j : Nat) {w₁ : World} (h : UsersKept w w₁) :
    Ensures env w₁ (request_item a j) fun items w' =>
      items = numbered (NamedUser.request_fields ⟨a, w.mem.shown_name a⟩) j ∧ UsersKept w w' := by
  refine Ensures.bind (R := fun name w' => name = w.mem.shown_name a ∧ UsersKept w w')
    (Ensures.locked ⟨h.shown_name a, h⟩) fun name w₂ h₂ => ensures_pure ⟨?_, h₂.2⟩
  rw [h₂.1]
  rfl

theorem get_friends_list_payload : Ensures env w (get_friends_list pg fd me) fun _ w' =>
    Says fd (friends_reply (listed_friends me w.mem) (asking pg env w me)) w w' := by
  -- memory of the friends is made, with nothing in it
  refine Ensures.bind (R := fun found w₁ => found = (friend_items me w.mem, w.mem.g_friend_requests.get me) ∧
    w₁ = { w with mem := Var.modify .g_friends (fun g => g.touch me) w.mem }) (Ensures.locked (ensures_modify ?_))
    fun found w₁ h₁ => ?_
  · refine ⟨?_, rfl⟩
    have htouched : listed_friends me (Var.modify .g_friends (fun g => g.touch me) w.mem)
        = listed_friends me w.mem := by
      simp only [listed_friends, Var.modify, UMap.get_touch]
      rfl
    show (friend_items me (Var.modify .g_friends _ w.mem), _) = _
    rw [friend_items_listed, friend_items_listed, htouched]
    rfl
  obtain ⟨rfl, rfl⟩ := h₁
  refine ((merge_pending_asking me _).lift _).bind fun froms w₂ h₂ => ?_
  have hkept : UsersKept w w₂ := h₂.2
  have hfroms : froms = add_missing (w.mem.g_friend_requests.get me) (rows_asking pg env w me) := h₂.1
  have hitems : Ensures env w₂ (froms.zipIdx.mapM fun e => request_item e.1 e.2) fun requests w' =>
      requests = froms.zipIdx.map (fun e => numbered (NamedUser.request_fields ⟨e.1, w.mem.shown_name e.1⟩) e.2) ∧
        UsersKept w w' :=
    mapM_ensures (fun e w' h' => request_item_asking e.1 e.2 h') _ w₂ hkept
  refine (hitems.lift _).bind fun requests w₃ h₃ => ?_
  obtain ⟨rfl, hkept₃⟩ := h₃
  refine (says_reply fd _ _ hkept₃.1 ?_).bind fun _ w' h => ensures_pure h
  rw [friends_reply, asking, ← hfroms, friend_items_listed, List.length_map, numbered_items, numbered_items,
    List.map_map, List.zipIdx_map, List.zipIdx_map, List.map_map, List.map_map]
  rfl

end Says

/-! ## Reading the list of friends -/

section Read

variable {friends requests : List NamedUser}

theorem listable_friend {u : NamedUser} (hname : 38 ∉ u.name) : Listable u.fields where
  worded := by simp only [NamedUser.fields, List.forall_mem_cons]; decide
  once := by simp only [NamedUser.fields, List.map_cons, List.map_nil]; decide
  plain := by
    have hid : 38 ∉ to_string u.id := notMem_to_string (by decide)
    simp [NamedUser.fields, hid, hname]

theorem listable_request {u : NamedUser} (hname : 38 ∉ u.name) : Listable u.request_fields where
  worded := by simp only [NamedUser.request_fields, List.forall_mem_cons]; decide
  once := by simp only [NamedUser.request_fields, List.map_cons, List.map_nil]; decide
  plain := by
    have hid : 38 ∉ to_string u.id := notMem_to_string (by decide)
    simp [NamedUser.request_fields, hid, hname]

/-- Friends and requests have fields of different names. -/
theorem fields_apart {u v : NamedUser} {f f' : String × Bytes} (hf : f ∈ u.fields) (hf' : f' ∈ v.request_fields) :
    str f.1 ≠ str f'.1 := by
  have hapart : ∀ n ∈ ["id", "name"], ∀ m ∈ ["req_id", "req_name"], str n ≠ str m := by decide
  have hname : f.1 ∈ ["id", "name"] := List.mem_map_of_mem (f := Prod.fst) hf
  have hname' : f'.1 ∈ ["req_id", "req_name"] := List.mem_map_of_mem (f := Prod.fst) hf'
  exact hapart f.1 hname f'.1 hname'

/-- The items of friends and requests have no other keys than numbered ones. -/
theorem listable_lists (hfriends : ∀ u ∈ friends, 38 ∉ u.name) (hrequests : ∀ u ∈ requests, 38 ∉ u.name) :
    (∀ fs ∈ friends.map NamedUser.fields, Listable fs) ∧
      ∀ fs ∈ requests.map NamedUser.request_fields, Listable fs :=
  ⟨List.forall_mem_map.mpr fun u hu => listable_friend (hfriends u hu),
    List.forall_mem_map.mpr fun u hu => listable_request (hrequests u hu)⟩

/-- The two counts are the only fields without a number, and have different names. -/
theorem friends_reply_counts (hfriends : ∀ u ∈ friends, 38 ∉ u.name) (hrequests : ∀ u ∈ requests, 38 ∉ u.name) :
    (pairs (friends_reply friends requests)).find? (str "count") = some (to_string friends.length) ∧
      (pairs (friends_reply friends requests)).find? (str "pendingCount") = some (to_string requests.length) := by
  obtain ⟨hlist, hlist'⟩ := listable_lists hfriends hrequests
  have hcounts : ∀ n : Nat, Readable (str "count", to_string n) ∧ Readable (str "pendingCount", to_string n) :=
    fun n => ⟨readable_number (by decide) n, readable_number (by decide) n⟩
  -- every item is one of the counts, or has a number
  have hitems : ∀ p ∈ ((str "count", to_string friends.length) :: numbered_items (friends.map NamedUser.fields))
      ++ (str "pendingCount", to_string requests.length) :: numbered_items (requests.map NamedUser.request_fields),
      Readable p ∧ (p = (str "count", to_string friends.length) ∨ p = (str "pendingCount", to_string requests.length) ∨
        ∃ name i, p.1 = key name i) := by
    intro p hp
    have hnumbered : ∀ things, (∀ fs ∈ things, Listable fs) → p ∈ numbered_items things →
        Readable p ∧ ∃ name i, p.1 = key name i := by
      intro things hthings hp
      refine ⟨readable_numbered hthings p hp, ?_⟩
      obtain ⟨i, fields, -, f, -, rfl⟩ := mem_numbered_items.mp hp
      exact ⟨f.1, i, rfl⟩
    rcases List.mem_append.mp hp with hp | hp <;> rcases List.mem_cons.mp hp with rfl | hp
    · exact ⟨(hcounts _).1, .inl rfl⟩
    · exact (hnumbered _ hlist hp).imp_right fun h => .inr (.inr h)
    · exact ⟨(hcounts _).2, .inr (.inl rfl)⟩
    · exact (hnumbered _ hlist' hp).imp_right fun h => .inr (.inr h)
  have hcount_names : str "count" ≠ str "pendingCount" := by decide
  have hends : ∀ c ∈ (str "count").getLast?, isdigit c = false :=
    (show Worded "count" by decide).ends
  have hends' : ∀ c ∈ (str "pendingCount").getLast?, isdigit c = false :=
    (show Worded "pendingCount" by decide).ends
  constructor
  · refine find?_pairs (fun p hp => (hitems p hp).1) (by simp) fun p hp hpk => ?_
    obtain ⟨-, rfl | rfl | ⟨name, i, hkey⟩⟩ := hitems p hp
    · rfl
    · exact absurd hpk.symm hcount_names
    · exact absurd (hpk.symm.trans hkey) (key_ne hends name i)
  · refine find?_pairs (fun p hp => (hitems p hp).1) (by simp) fun p hp hpk => ?_
    obtain ⟨-, rfl | rfl | ⟨name, i, hkey⟩⟩ := hitems p hp
    · exact absurd hpk hcount_names
    · rfl
    · exact absurd (hpk.symm.trans hkey) (key_ne hends' name i)

/-- A count stands under no numbered key. -/
theorem count_apart {count : String} (hcount : Worded count) (n : Nat) (name : String) (i : Nat) :
    Readable (str count, to_string n) ∧ (str count, to_string n).1 ≠ key name i :=
  ⟨readable_number hcount.plain n, key_ne hcount.ends name i⟩

/-- The fields of a friend are told apart from those of a request by their names. -/
theorem friends_reply_friend (hfriends : ∀ u ∈ friends, 38 ∉ u.name) (hrequests : ∀ u ∈ requests, 38 ∉ u.name)
    {i : Nat} {u : NamedUser} (hu : friends[i]? = some u) {name : String} {v : Bytes} (hmem : (name, v) ∈ u.fields) :
    (pairs (friends_reply friends requests)).find? (key name i) = some v := by
  obtain ⟨hlist, hlist'⟩ := listable_lists hfriends hrequests
  have hthing : (friends.map NamedUser.fields)[i]? = some u.fields := by rw [List.getElem?_map, hu]; rfl
  have hno : ∀ fs ∈ requests.map NamedUser.request_fields, ∀ f ∈ fs, str f.1 ≠ str name :=
    List.forall_mem_map.mpr fun v _ f hf => (fields_apart hmem hf).symm
  have hworded := (hlist _ (List.mem_of_getElem? hthing)).worded _ hmem
  refine find?_numbered_among [(str "count", to_string friends.length)] _ hlist hthing hmem fun p hp => ?_
  rcases List.mem_cons.mp hp with rfl | hp
  · exact count_apart (by decide) _ name i
  rcases List.mem_cons.mp hp with rfl | hp
  · exact count_apart (by decide) _ name i
  · exact numbered_others hlist' hworded hno i p hp

theorem friends_reply_request (hfriends : ∀ u ∈ friends, 38 ∉ u.name) (hrequests : ∀ u ∈ requests, 38 ∉ u.name)
    {i : Nat} {u : NamedUser} (hu : requests[i]? = some u) {name : String} {v : Bytes}
    (hmem : (name, v) ∈ u.request_fields) :
    (pairs (friends_reply friends requests)).find? (key name i) = some v := by
  obtain ⟨hlist, hlist'⟩ := listable_lists hfriends hrequests
  have hthing : (requests.map NamedUser.request_fields)[i]? = some u.request_fields := by
    rw [List.getElem?_map, hu]
    rfl
  have hno : ∀ fs ∈ friends.map NamedUser.fields, ∀ f ∈ fs, str f.1 ≠ str name :=
    List.forall_mem_map.mpr fun v _ f hf => fields_apart hf hmem
  have hworded := (hlist' _ (List.mem_of_getElem? hthing)).worded _ hmem
  have hfound := find?_numbered_among ((str "count", to_string friends.length) ::
    numbered_items (friends.map NamedUser.fields) ++ [(str "pendingCount", to_string requests.length)]) []
    hlist' hthing hmem fun p hp => ?_
  · rw [friends_reply]
    rwa [List.append_nil, List.append_assoc] at hfound
  · rw [List.append_nil] at hp
    rcases List.mem_append.mp hp with hp | hp
    · rcases List.mem_cons.mp hp with rfl | hp
      · exact count_apart (by decide) _ name i
      · exact numbered_others hlist hworded hno i p hp
    · rw [List.mem_singleton.mp hp]
      exact count_apart (by decide) _ name i

end Read

/-! ## What is shown -/

/-- Every user has a name, and no name and no phone number holds a `&`. -/
structure PlainUsers (s : ServerState) : Prop where
  by_name : ∀ e ∈ s.g_users_by_name.toList, e.2.username ≠ [] ∧ 38 ∉ e.2.username ∧ 38 ∉ e.2.phone
  by_id : ∀ e ∈ s.g_users_by_id.toList, e.2.username ≠ [] ∧ 38 ∉ e.2.username

/-- The ids and the numbers of entries fit the type `int`, in which the source keeps them. -/
structure IntSized (w : World) : Prop where
  by_name : ∀ e ∈ w.mem.g_users_by_name.toList, Fits 32 e.2.id
  by_id : ∀ e ∈ w.mem.g_users_by_id.toList, Fits 32 e.1
  users : Fits 32 w.mem.g_users_by_id.toList.length
  friends : ∀ e ∈ w.mem.g_friends.toList, (∀ f ∈ e.2.toList, Fits 32 f.1) ∧ Fits 32 e.2.toList.length
  requests : ∀ e ∈ w.mem.g_friend_requests.toList, (∀ a ∈ e.2, Fits 32 a) ∧
    Fits 32 (e.2.length + w.db.tables.friend_requests.length)
  rows : (∀ r ∈ w.db.tables.friend_requests, Fits 32 r.from_user_id) ∧
    Fits 32 w.db.tables.friend_requests.length

/-- The friends are exactly those of `me`, and the requests those of the users who have asked it, in memory or in
the rows; each stands there once, with its name. -/
structure FriendsExactly (pg : Bool) (env : Env) (w : World) (me : Int) (friends requests : List (Int × Bytes)) :
    Prop where
  every_friend : ∀ f : Int × Bytes, f ∈ friends ↔ w.mem.isFriend me f.1 = true ∧ f.2 = w.mem.shown_name f.1
  friends_once : (friends.map Prod.fst).Nodup
  every_request : ∀ r : Int × Bytes, r ∈ requests ↔
    (r.1 ∈ w.mem.g_friend_requests.get me ∨ r.1 ∈ rows_asking pg env w me) ∧ r.2 = w.mem.shown_name r.1
  requests_once : (w.mem.g_friend_requests.get me).Nodup → (requests.map Prod.fst).Nodup

/-- The items are exactly the other users, each once, with the flag of the requester. -/
structure OthersExactly (s : ServerState) (requester_id : Int) (items : List Room.UserItem) : Prop where
  users : ∀ x : Room.UserItem, x ∈ items ↔ x.userId ≠ requester_id ∧
    (∃ u, s.g_users_by_id.find? x.userId = some u ∧ x.username = u.username) ∧
    x.isFriend = s.isFriend requester_id x.userId
  once : (items.map Room.UserItem.userId).Nodup

/-- The items are those of matching entries, different ones: all of them, or twenty. -/
def MatchesExactly (s : ServerState) (requester_id : Int) (query : Bytes) (items : List Room.UserItem) : Prop :=
  ∃ hits : List (Bytes × User), hits.Sublist (s.matching requester_id query) ∧ (hits.map Prod.fst).Nodup ∧
    hits.length = min 20 (s.matching requester_id query).length ∧
    items = hits.map fun e => ⟨e.2.id, e.2.username, s.isFriend requester_id e.2.id⟩

/-- What is on the screen: the items, or, when members are to be added to a group, the friends among them that are no
members. -/
def Shows (payload : Bytes) (items : List Room.UserItem) : Prop :=
  ∀ targetGroupId (db : Room.Database), ((handleSuccessResponse targetGroupId payload).run db).1 =
    if targetGroupId > 0 then items.filter fun u => u.isFriend && !db.group_members.count (targetGroupId, u.userId)
    else items

theorem shows_listed (payload : Bytes) : Shows payload (listed_items payload) :=
  fun targetGroupId db => handleSuccessResponse_run targetGroupId payload db

section Decoded

variable {pg : Bool} {env : Env} {w : World} (me requester_id : Int)

/-- A name that is shown is not empty, and holds no `&`. -/
theorem plain_shown_name (plain : PlainUsers w.mem) (uid : Int) :
    w.mem.shown_name uid ≠ [] ∧ 38 ∉ w.mem.shown_name uid := by
  rw [ServerState.shown_name, ServerState.username_or]
  cases hu : w.mem.g_users_by_id.find? uid with
  | some u => exact plain.by_id (uid, u) ((UMap.mem_toList ..).mpr hu)
  | none =>
    have hnumber : 38 ∉ to_string uid := notMem_to_string (by decide)
    refine ⟨List.append_ne_nil_of_right_ne_nil _ (to_string_ne_nil uid), fun hmem => ?_⟩
    rcases List.mem_append.mp hmem with hmem | hmem
    · exact absurd hmem (by decide)
    · exact hnumber hmem

/-- The keys of a map are different, also those of some of its entries. -/
theorem keys_of_sublist {K V : Type} [DecidableEq K] {m : UMap K V} {l : List (K × V)} (h : l.Sublist m.toList) :
    (l.map Prod.fst).Nodup :=
  (h.map Prod.fst).nodup m.keys_nodup

theorem others_shown (plain : PlainUsers w.mem) (ints : IntSized w) : OthersExactly w.mem requester_id
    (listed_items (Reply.all_users (w.mem.others requester_id)).payload) := by
  have hentries : ∀ u ∈ w.mem.others requester_id, Listable u.fields ∧ Fits 32 u.id := by
    refine List.forall_mem_map.mpr fun e he => ?_
    have hmem := List.mem_of_mem_filter he
    exact ⟨Reply.listable_listed (plain.by_id e hmem).2, ints.by_id e hmem⟩
  have hfits : Fits 32 (w.mem.others requester_id).length := by
    have hle := List.length_filter_le (fun e : Int × User => decide (e.1 ≠ requester_id)) w.mem.g_users_by_id.toList
    have husers := ints.users
    rw [ServerState.others, List.length_map]
    unfold Fits at husers ⊢
    omega
  have hitems := listed_items_of (w.mem.others requester_id) ListedUser.fields id
    (fun u hu => (hentries u hu).1) (fun u => by simp [ListedUser.fields]) (fun u => by simp [ListedUser.fields])
    (fun u => by simp [ListedUser.fields]) hfits fun u hu => (hentries u hu).2
  have hread : listed_items (Reply.all_users (w.mem.others requester_id)).payload =
      (w.mem.others requester_id).map item := hitems
  rw [hread, ServerState.others, List.map_map]
  constructor
  · intro x
    simp only [List.mem_map, List.mem_filter, decide_eq_true_eq]
    constructor
    · rintro ⟨⟨uid, u⟩, ⟨hmem, hne⟩, rfl⟩
      exact ⟨hne, ⟨u, (UMap.mem_toList ..).mp hmem, rfl⟩, rfl⟩
    · rintro ⟨hne, ⟨u, hu, hname⟩, hflag⟩
      refine ⟨(x.userId, u), ⟨(UMap.mem_toList ..).mpr hu, hne⟩, ?_⟩
      show item ⟨⟨x.userId, u.username⟩, w.mem.isFriend requester_id x.userId⟩ = x
      rw [← hname, ← hflag]
      rfl
  · rw [List.map_map]
    exact keys_of_sublist List.filter_sublist

theorem matches_shown (plain : PlainUsers w.mem) (ints : IntSized w) (query : Bytes) :
    MatchesExactly w.mem requester_id query (listed_items (Reply.search
      (((w.mem.matching requester_id query).take 20).map fun e => w.mem.found requester_id e.2)).payload) := by
  have hsub : ((w.mem.matching requester_id query).take 20).Sublist (w.mem.matching requester_id query) :=
    List.take_sublist ..
  refine ⟨_, hsub, keys_of_sublist (hsub.trans List.filter_sublist), List.length_take, ?_⟩
  have hentries : ∀ u ∈ ((w.mem.matching requester_id query).take 20).map fun e => w.mem.found requester_id e.2,
      Listable u.fields ∧ Fits 32 u.id := by
    refine List.forall_mem_map.mpr fun e he => ?_
    have hmem := List.mem_of_mem_filter (hsub.subset he)
    obtain ⟨-, hname, hphone⟩ := plain.by_name e hmem
    exact ⟨Reply.listable_found hname hphone, ints.by_name e hmem⟩
  have hfits : Fits 32 (((w.mem.matching requester_id query).take 20).map fun e =>
      w.mem.found requester_id e.2).length := by
    rw [List.length_map, List.length_take, Fits]
    omega
  have hitems := listed_items_of _ FoundUser.fields (fun u => u.toListedUser)
    (fun u hu => (hentries u hu).1) (fun u => by simp [FoundUser.fields]) (fun u => by simp [FoundUser.fields])
    (fun u => by simp [FoundUser.fields]) hfits fun u hu => (hentries u hu).2
  exact hitems.trans List.map_map

/-- What holds of every list of a map, and of the empty list, holds of the list of `me`. -/
theorem of_entries {V : Type} [Inhabited V] {m : UMap Int V} {P : V → Prop} (h : ∀ e ∈ m.toList, P e.2)
    (hdefault : P default) : P (m.get me) := by
  rw [UMap.get]
  cases hme : m.find? me with
  | none => exact hdefault
  | some v => exact h (me, v) ((UMap.mem_toList ..).mpr hme)

/-- The friends of `me` are the keys of its map with a flag that is set. -/
theorem mem_friends_of_me (a : Int) : a ∈ ((w.mem.g_friends.get me).toList.filter fun e => e.2).map Prod.fst ↔
    w.mem.isFriend me a = true := by
  rw [ServerState.isFriend, List.mem_map]
  constructor
  · rintro ⟨⟨b, flag⟩, he, rfl⟩
    obtain ⟨hmem, hflag⟩ := List.mem_filter.mp he
    exact (UMap.get_of_find? ((UMap.mem_toList ..).mp hmem)).trans hflag
  · intro h
    refine ⟨(a, true), List.mem_filter.mpr ⟨(UMap.mem_toList ..).mpr ?_, rfl⟩, rfl⟩
    rw [UMap.get] at h
    cases hfind : (w.mem.g_friends.get me).find? a with
    | none =>
      rw [hfind] at h
      cases h
    | some flag =>
      rw [hfind] at h
      rw [show flag = true from h]

/-- The friends that are read. -/
theorem listed_friends_shown (plain : PlainUsers w.mem) (ints : IntSized w) :
    Room.FriendsFragment.listed_friends
        (Room.associated (friends_reply (listed_friends me w.mem) (asking pg env w me)))
      = (listed_friends me w.mem).map fun u => (u.id, u.name) := by
  have hfriends : ∀ u ∈ listed_friends me w.mem, 38 ∉ u.name :=
    List.forall_mem_map.mpr fun a _ => (plain_shown_name plain a).2
  have hrequests : ∀ u ∈ asking pg env w me, 38 ∉ u.name :=
    List.forall_mem_map.mpr fun a _ => (plain_shown_name plain a).2
  obtain ⟨hids, hcount⟩ := of_entries me (P := fun m : UMap Int Bool => (∀ f ∈ m.toList, Fits 32 f.1) ∧
    Fits 32 m.toList.length) ints.friends ⟨fun f hf => absurd hf List.not_mem_nil, by decide⟩
  have hread := Room.FriendsFragment.listed_friends_read
    (Room.associated (friends_reply (listed_friends me w.mem) (asking pg env w me)))
    (listed_friends me w.mem) ?_ fun i u hu => ?_
  · have hfits : Fits 32 (listed_friends me w.mem).length := by
      have hle := List.length_filter_le (fun e : Int × Bool => e.2) (w.mem.g_friends.get me).toList
      rw [listed_friends, List.length_map, List.length_map]
      unfold Fits at hcount ⊢
      omega
    have hall : ∀ u ∈ listed_friends me w.mem, Room.FriendsFragment.friend_of u = some (u.id, u.name) := by
      refine List.forall_mem_map.mpr fun a ha => ?_
      obtain ⟨e, he, rfl⟩ := List.mem_map.mp ha
      exact if_pos ⟨hids e (List.mem_of_mem_filter he), (plain_shown_name plain e.1).1⟩
    rw [hread, Room.FriendsFragment.friends_of_fits hfits, List.filterMap_congr hall]
    exact congrFun List.filterMap_eq_map _
  · rw [Room.FriendsFragment.associated_find? _ (by decide)]
    exact (friends_reply_counts hfriends hrequests).1
  · rw [Room.FriendsFragment.associated_find?_key, Room.FriendsFragment.associated_find?_key]
    exact ⟨friends_reply_friend hfriends hrequests hu (by simp [NamedUser.fields]),
      friends_reply_friend hfriends hrequests hu (by simp [NamedUser.fields])⟩

/-- The rows that ask are some of the table's. -/
theorem rows_asking_sized (ints : IntSized w) : (∀ a ∈ rows_asking pg env w me, Fits 32 a) ∧
    (rows_asking pg env w me).length ≤ w.db.tables.friend_requests.length := by
  rw [rows_asking]
  split
  · refine ⟨List.forall_mem_map.mpr fun r hr => ?_, ?_⟩
    · rw [Tables.pendingTo, List.mem_reverse] at hr
      exact ints.rows.1 r (List.mem_of_mem_filter hr)
    · rw [List.length_map, Tables.pendingTo, List.length_reverse]
      exact List.length_filter_le ..
  · exact ⟨fun a ha => absurd ha List.not_mem_nil, Nat.zero_le _⟩

/-- The requests that are read. -/
theorem listed_requests_shown (plain : PlainUsers w.mem) (ints : IntSized w) :
    Room.FriendsFragment.listed_requests
        (Room.associated (friends_reply (listed_friends me w.mem) (asking pg env w me)))
      = (asking pg env w me).map fun u => (u.id, u.name) := by
  have hfriends : ∀ u ∈ listed_friends me w.mem, 38 ∉ u.name :=
    List.forall_mem_map.mpr fun a _ => (plain_shown_name plain a).2
  have hrequests : ∀ u ∈ asking pg env w me, 38 ∉ u.name :=
    List.forall_mem_map.mpr fun a _ => (plain_shown_name plain a).2
  obtain ⟨hids, hcount⟩ := of_entries me (P := fun vec : List Int => (∀ a ∈ vec, Fits 32 a) ∧
    Fits 32 (vec.length + w.db.tables.friend_requests.length)) ints.requests
    ⟨fun a ha => absurd ha List.not_mem_nil, by
      show Fits 32 ((([] : List Int).length : Int) + _)
      simpa using ints.rows.2⟩
  obtain ⟨hrows, hlength⟩ := @rows_asking_sized pg env w me ints
  refine Room.FriendsFragment.listed_requests_read _ _ ?_ (fun i u hu => ?_) ?_ ?_
  · rw [Room.FriendsFragment.associated_find? _ (by decide)]
    exact (friends_reply_counts hfriends hrequests).2
  · rw [Room.FriendsFragment.associated_find?_key, Room.FriendsFragment.associated_find?_key]
    exact ⟨friends_reply_request hfriends hrequests hu (by simp [NamedUser.request_fields]),
      friends_reply_request hfriends hrequests hu (by simp [NamedUser.request_fields])⟩
  · have hle := length_add_missing_le (w.mem.g_friend_requests.get me) (rows_asking pg env w me)
    rw [asking, List.length_map]
    unfold Fits at hcount ⊢
    omega
  · refine List.forall_mem_map.mpr fun a ha => ?_
    rcases (mem_add_missing ..).mp ha with ha | ha
    · exact hids a ha
    · exact hrows a ha

theorem friends_shown (plain : PlainUsers w.mem) (ints : IntSized w) : FriendsExactly pg env w me
    (Room.FriendsFragment.listed_friends
      (Room.associated (friends_reply (listed_friends me w.mem) (asking pg env w me))))
    (Room.FriendsFragment.listed_requests
      (Room.associated (friends_reply (listed_friends me w.mem) (asking pg env w me)))) := by
  rw [listed_friends_shown me plain ints, listed_requests_shown me plain ints]
  constructor
  · intro f
    rw [listed_friends, List.map_map, List.mem_map]
    constructor
    · rintro ⟨a, ha, rfl⟩
      exact ⟨(mem_friends_of_me me a).mp ha, rfl⟩
    · rintro ⟨hfriend, hname⟩
      refine ⟨f.1, (mem_friends_of_me me f.1).mpr hfriend, ?_⟩
      show (f.1, w.mem.shown_name f.1) = f
      rw [← hname]
  · rw [listed_friends, List.map_map, List.map_map]
    exact (List.map_id _).symm ▸ keys_of_sublist List.filter_sublist
  · intro r
    rw [asking, List.map_map, List.mem_map]
    constructor
    · rintro ⟨a, ha, rfl⟩
      exact ⟨(mem_add_missing ..).mp ha, rfl⟩
    · rintro ⟨hasks, hname⟩
      refine ⟨r.1, (mem_add_missing ..).mpr hasks, ?_⟩
      show (r.1, w.mem.shown_name r.1) = r
      rw [← hname]
  · intro hnodup
    rw [asking, List.map_map, List.map_map]
    exact (List.map_id _).symm ▸ nodup_add_missing _ hnodup

end Decoded

/-- **The lists are read as they were built**, for every state of the server whose users have names, and in which
neither names nor phone numbers hold a `&`. -/
theorem lists_read_back {pg : Bool} {env : Env} {w : World} (plain : PlainUsers w.mem) (ints : IntSized w)
    (fd me requester_id : Int) :
    (Ensures env w (get_friends_list pg fd me) fun _ w' => ∃ payload friends requests, Says fd payload w w' ∧
      FriendsExactly pg env w me friends requests ∧ ∀ now entered networkUserId session,
        Room.FriendsFragment.parseFriendsListResponse now entered networkUserId session payload =
          (Room.FriendViewModel.replaceFriends (Room.dated now friends),
            if requests ≠ [] then Room.FriendViewModel.replacePendingRequestsForCurrentUser
                (Room.FriendViewModel.currentUserId networkUserId session) entered requests
            else Room.FriendViewModel.clearPendingRequestsForCurrentUser
                (Room.FriendViewModel.currentUserId networkUserId session))) ∧
    (Ensures env w (get_all_users fd requester_id) fun _ w' => ∃ payload items, Says fd payload w w' ∧
      OthersExactly w.mem requester_id items ∧ Shows payload items) ∧
    ∀ query : Bytes, Ensures env w (search_user fd query requester_id) fun _ w' => ∃ payload items,
      Says fd payload w w' ∧ MatchesExactly w.mem requester_id (field query "query") items ∧
        Shows payload items := by
  refine ⟨?_, ?_, fun query => ?_⟩
  · exact (get_friends_list_payload fd me).mono fun _ w' h =>
      ⟨_, _, _, h, friends_shown me plain ints, fun _ _ _ _ => rfl⟩
  · exact (get_all_users_payload fd requester_id).mono fun _ w' h =>
      ⟨_, _, h, others_shown requester_id plain ints, shows_listed _⟩
  · exact (search_user_payload fd requester_id query).mono fun _ w' h =>
      ⟨_, _, h, matches_shown requester_id plain ints _, shows_listed _⟩

/-- Users 1 to 3: the second is a friend of the first, and the third has asked it. -/
def three_known : World := { World.new Tables.empty with
  mem := { ServerState.initial with
    g_users_by_name := ((UMap.set ∅ (str "a") ⟨1, str "a", str "x", []⟩).set (str "b") ⟨2, str "b", str "x", []⟩).set
      (str "c") ⟨3, str "c", str "x", []⟩
    g_users_by_id := ((UMap.set ∅ 1 ⟨1, str "a", str "x", []⟩).set 2 ⟨2, str "b", str "x", []⟩).set
      3 ⟨3, str "c", str "x", []⟩
    g_friends := UMap.set ∅ 1 (UMap.set ∅ 2 true)
    g_friend_requests := UMap.set ∅ 1 [3] } }

theorem three_known_plain : PlainUsers three_known.mem := ⟨by decide, by decide⟩

theorem three_known_sized : IntSized three_known :=
  ⟨by decide, by decide, by decide, by decide, by decide, by decide⟩

/-- User 1 lists its friends and everybody, and looks for somebody. -/
theorem lists_read_back_three :
    (Ensures Env.calm three_known (get_friends_list false 5 1) fun _ w' => ∃ payload friends requests,
      Says 5 payload three_known w' ∧ FriendsExactly false Env.calm three_known 1 friends requests ∧
        ∀ now entered networkUserId session,
          Room.FriendsFragment.parseFriendsListResponse now entered networkUserId session payload =
          (Room.FriendViewModel.replaceFriends (Room.dated now friends),
            if requests ≠ [] then Room.FriendViewModel.replacePendingRequestsForCurrentUser
                (Room.FriendViewModel.currentUserId networkUserId session) entered requests
            else Room.FriendViewModel.clearPendingRequestsForCurrentUser
                (Room.FriendViewModel.currentUserId networkUserId session))) ∧
    (Ensures Env.calm three_known (get_all_users 5 1) fun _ w' => ∃ payload items, Says 5 payload three_known w' ∧
      OthersExactly three_known.mem 1 items ∧ Shows payload items) ∧
    ∀ query : Bytes, Ensures Env.calm three_known (search_user 5 query 1) fun _ w' => ∃ payload items,
      Says 5 payload three_known w' ∧ MatchesExactly three_known.mem 1 (field query "query") items ∧
        Shows payload items :=
  lists_read_back three_known_plain three_known_sized 5 1 1

/-- **The screen that adds members to a group leaves users out**: user 3 is no friend of user 1. -/
theorem strangers_left_out : ¬∀ (w : World) (requester_id targetGroupId : Int) (db : Room.Database),
    PlainUsers w.mem → IntSized w → Ensures Env.calm w (get_all_users 5 requester_id) fun _ w' => ∃ payload,
      Says 5 payload w w' ∧
        OthersExactly w.mem requester_id ((handleSuccessResponse targetGroupId payload).run db).1 := by
  intro claim
  obtain ⟨payload, -, hothers⟩ := claim three_known 1 7 {} three_known_plain three_known_sized
  have hshown : (⟨3, str "c", false⟩ : Room.UserItem) ∈ ((handleSuccessResponse 7 payload).run {}).1 :=
    (hothers.users _).mpr ⟨by decide, ⟨_, rfl, rfl⟩, by decide⟩
  rw [handleSuccessResponse_run, if_pos (by decide)] at hshown
  exact Bool.false_ne_true (List.mem_filter.mp hshown).2

end ChatApp
