/-
`GroupLists.lean` -- what a `GET_USER_GROUPS` reply leaves in the local tables.

Two handlers read it: `handleGroupListPayload` of `ui/activity/MainActivity.kt`,
and `onMessageReceived` of `ui/fragment/GroupsFragment.kt`, which says that it
reuses the same persistence logic. Both run the same two loops, over the groups
and over the members of each. They differ in the row they make of a member: the
activity takes the username, the nickname and the admin flag from the payload
where they stand there, the fragment knows the member from the local tables only.

Seen from one row of `group_members`, what either handler leaves there depends on
the last place where the payload lists that member, and on nothing in between. So
the handlers agree exactly where they make the same row at these places.
-/
import ChatApp.ChatRepository
import ChatApp.HandleMessages

set_option autoImplicit false

namespace ChatApp.Room

/-! ## Reading a group list -/

/-- `if (csv.isNotEmpty()) csv.split(',') else emptyList()`. -/
def csv_split (csv : Bytes) : List Bytes := if csv = [] then [] else csv.splitOn 44

/-- One group of a list, as both handlers read it. -/
structure ListedGroup where
  gid : Int
  gname : Bytes
  memberIds : List Int
  serverMemberCount : Option Int
  memberNicks : List Bytes
  memberNames : List Bytes
  memberAdmins : List Bytes

/-- The `i`-th group; without a number or a name it is passed over. -/
def listed (data : UMap Bytes Bytes) (i : Nat) : Option ListedGroup := do
  let gid ← (data.find? (key "groupId" i)).bind toIntOrNull
  let gname ← data.find? (key "name" i)
  return {
    gid := gid
    gname := gname
    memberIds := (csv_split (data.get (key "members" i))).filterMap toIntOrNull
    serverMemberCount := (data.find? (key "memberCount" i)).bind toIntOrNull
    memberNicks := csv_split (data.get (key "memberNicks" i))
    memberNames := csv_split (data.get (key "memberNames" i))
    memberAdmins := csv_split (data.get (key "memberAdmins" i)) }

/-- `for (i in 0 until count)`: the groups that are not passed over. -/
def listed_groups (payload : Bytes) : List ListedGroup :=
  let data := pairs payload
  let count := ((data.find? (str "count")).bind toIntOrNull).getD 0
  (List.range count.toNat).filterMap (listed data)

/-- `serverMemberCount ?: if (memberIds.size > 0) memberIds.size else 1`. -/
def ListedGroup.memberCount (g : ListedGroup) : Int :=
  g.serverMemberCount.getD (if 0 < g.memberIds.length then g.memberIds.length else 1)

/-! ## The handlers -/

/-- What `SessionManager` knows of the user who is logged in. -/
structure Session where
  userId : Int
  username : Option Bytes

section Handlers

variable (decode : Bytes → Option Bytes) (session : Session)

/-- The name of a user by the local tables. -/
def local_username (uid : Int) : Dao Bytes := do
  let friend ← getFriend uid
  match friend with
  | some f => pure f.username
  | none => do
    let user ← getUser uid
    match user with
    | some u => pure u.username
    | none => pure (str "User " ++ to_string uid)

/-- The row `handleGroupListPayload` makes of the member at `idx`. `decode` is `Base64.decode`, whose bytes
become a string; where it throws there is no nickname. -/
def server_member (g : ListedGroup) (idx : Nat) (uid : Int) : Dao GroupMember := do
  let uname ← if (g.memberNames.getD idx []) ≠ [] then pure (g.memberNames.getD idx [])
    else local_username uid
  let nick := if g.memberNicks.getD idx [] ≠ [] then decode (g.memberNicks.getD idx []) else none
  let isAdmin := if g.memberAdmins.getD idx [] ≠ [] then decide (g.memberAdmins.getD idx [] = str "1")
    else decide (uid = session.userId)
  pure ⟨g.gid, uid, uname, nick, isAdmin⟩

/-- The row `GroupsFragment` makes of a member. -/
def local_member (g : ListedGroup) (_ : Nat) (uid : Int) : Dao GroupMember := do
  let uname ← local_username uid
  pure ⟨g.gid, uid, uname, none, decide (uid = session.userId)⟩

/-- The row for the user itself, in a group that does not list it. -/
def my_member (gid : Int) : GroupMember :=
  ⟨gid, session.userId, session.username.getD (str "Me"), none, false⟩

/-- What both handlers do with one group, where `member` makes the rows. -/
def save_group (member : ListedGroup → Nat → Int → Dao GroupMember) (g : ListedGroup) : Dao Unit := do
  insertGroup ⟨g.gid, g.gname, session.userId, g.memberCount⟩
  g.memberIds.zipIdx.forM fun m => do
    let row ← member g m.2 m.1
    insertMember row
  let existing ← getMember g.gid session.userId
  if existing.isNone then insertMember (my_member session g.gid) else pure ()

/-- `MainActivity.handleGroupListPayload`. -/
def handleGroupListPayload (payload : Bytes) : Dao Unit :=
  (listed_groups payload).forM (save_group session (server_member decode session))

/-- `payload.contains(s)`. -/
def contains (payload : Bytes) (s : String) : Bool :=
  (str s).isPrefixOf payload || match payload with
    | [] => false
    | _ :: rest => contains rest s

theorem contains_iff {payload : Bytes} {s : String} : contains payload s = true ↔ str s <:+: payload := by
  induction payload with
  | nil => rw [contains, Bool.or_false, List.isPrefixOf_iff_prefix, List.prefix_nil, List.infix_nil]
  | cons c rest ih => rw [contains, Bool.or_eq_true, List.isPrefixOf_iff_prefix, ih, List.infix_cons_iff]

/-- `GroupsFragment.onMessageReceived`. -/
def GroupsFragment.onMessageReceived (messageType : MessageType) (payload : Bytes) : Dao Unit :=
  if messageType = .SUCCESS ∧ contains payload "groupId0=" ∧ contains payload "name0=" then
    (listed_groups payload).forM (save_group session (local_member session))
  else pure ()

end Handlers

/-! ## The rows of the members -/

/-- The name of a user by the tables of friends and users. -/
def name_of (db : Database) (uid : Int) : Bytes :=
  match db.friends.find? uid, db.users.find? uid with
  | some f, _ => f.username
  | none, some u => u.username
  | none, none => str "User " ++ to_string uid

/-- Programs that make the rows of members without changing the tables, from what they know of friends and
users. -/
structure MakesRows (member : ListedGroup → Nat → Int → Dao GroupMember)
    (row : Database → ListedGroup → Nat → Int → GroupMember) : Prop where
  run : ∀ db g idx uid, (member g idx uid).run db = (row db g idx uid, db)
  key : ∀ db g idx uid, (row db g idx uid).groupId = g.gid ∧ (row db g idx uid).userId = uid
  known : ∀ db db' : Database, db'.friends = db.friends → db'.users = db.users → row db' = row db

section Rows

variable (decode : Bytes → Option Bytes) (session : Session)

/-- The row of the activity. -/
def server_row (db : Database) (g : ListedGroup) (idx : Nat) (uid : Int) : GroupMember where
  groupId := g.gid
  userId := uid
  username := if g.memberNames.getD idx [] ≠ [] then g.memberNames.getD idx [] else name_of db uid
  nickname := if g.memberNicks.getD idx [] ≠ [] then decode (g.memberNicks.getD idx []) else none
  isAdmin := if g.memberAdmins.getD idx [] ≠ [] then decide (g.memberAdmins.getD idx [] = str "1")
    else decide (uid = session.userId)

/-- The row of the fragment. -/
def local_row (db : Database) (g : ListedGroup) (_ : Nat) (uid : Int) : GroupMember :=
  ⟨g.gid, uid, name_of db uid, none, decide (uid = session.userId)⟩

theorem local_username_run (uid : Int) (db : Database) :
    (local_username uid).run db = (name_of db uid, db) := by
  rw [local_username, Dao.run_bind, getFriend, Dao.run_query, name_of]
  cases db.friends.find? uid with
  | some f => rfl
  | none =>
    show Dao.run (getUser uid >>= _) db = _
    rw [Dao.run_bind, getUser, Dao.run_query]
    cases db.users.find? uid <;> rfl

theorem name_of_known {db db' : Database} (hfriends : db'.friends = db.friends)
    (husers : db'.users = db.users) : name_of db' = name_of db := by
  funext uid
  rw [name_of, name_of, hfriends, husers]

theorem server_member_rows : MakesRows (server_member decode session) (server_row decode session) where
  run db g idx uid := by
    by_cases hname : g.memberNames.getD idx [] ≠ []
    · simp only [server_member, server_row, if_pos hname]
      rfl
    · simp only [server_member, server_row, if_neg hname, Dao.run_bind, local_username_run]
      rfl
  key _ _ _ _ := ⟨rfl, rfl⟩
  known db db' hfriends husers := by
    funext g idx uid
    rw [server_row, server_row, name_of_known hfriends husers]

theorem local_member_rows : MakesRows (local_member session) (local_row session) where
  run db g idx uid := by
    rw [local_member, Dao.run_bind, local_username_run]
    rfl
  key _ _ _ _ := ⟨rfl, rfl⟩
  known db db' hfriends husers := by
    funext g idx uid
    rw [local_row, local_row, name_of_known hfriends husers]

end Rows

/-! ## What a list leaves behind -/

/-- The last place where the list has this member of this group: the group, the member and its index. -/
def last_place (gs : List ListedGroup) (k : Int × Int) : Option (ListedGroup × Int × Nat) :=
  (gs.flatMap fun g => g.memberIds.zipIdx.map fun m => (g, m)).reverse.find? fun p => (p.1.gid, p.2.1) = k

/-- The table after rows were entered for these members of a group. -/
def enter_members (row : ListedGroup → Nat → Int → GroupMember) (g : ListedGroup) (ms : List (Int × Nat))
    (t : UMap (Int × Int) GroupMember) : UMap (Int × Int) GroupMember :=
  ms.foldl (fun t m => t.set (g.gid, m.1) (row g m.2 m.1)) t

/-- The row that a list of groups leaves under a key, where there was `before`. -/
def left_behind (session : Session) (row : ListedGroup → Nat → Int → GroupMember) (gs : List ListedGroup)
    (before : Option GroupMember) (k : Int × Int) : Option GroupMember :=
  match last_place gs k with
  | some p => some (row p.1 p.2.2 p.2.1)
  | none => if k.2 = session.userId ∧ k.1 ∈ gs.map ListedGroup.gid
    then some (before.getD (my_member session k.1)) else before

/-- And the group. -/
def left_group (session : Session) (gs : List ListedGroup) (before : Option Group) (gid : Int) : Option Group :=
  ((gs.reverse.find? fun g => g.gid = gid).map fun g => ⟨g.gid, g.gname, session.userId, g.memberCount⟩).or before

section Left

variable {session : Session} {member : ListedGroup → Nat → Int → Dao GroupMember}
  {row : Database → ListedGroup → Nat → Int → GroupMember} {db : Database} {g : ListedGroup}
  {gs : List ListedGroup}

theorem last_place_cons (g : ListedGroup) (gs : List ListedGroup) (k : Int × Int) :
    last_place (g :: gs) k = (last_place gs k).or (last_place [g] k) := by
  simp only [last_place, List.flatMap_cons, List.flatMap_nil, List.append_nil, List.reverse_append,
    List.find?_append]

/-- A list leaves what its tail leaves where the first group left something. -/
theorem left_behind_cons (row : ListedGroup → Nat → Int → GroupMember) (before : Option GroupMember)
    (k : Int × Int) : left_behind session row (g :: gs) before k =
      left_behind session row gs (left_behind session row [g] before k) k := by
  simp only [left_behind, last_place_cons g gs k]
  cases last_place gs k with
  | some p => rfl
  | none =>
    cases last_place [g] k with
    | some p => simp
    | none =>
      by_cases hme : k.2 = session.userId
      · by_cases hfirst : k.1 = g.gid <;> simp [hme, hfirst]
      · simp [hme]

/-- The loop over the members of one group. -/
theorem save_members_run (hrow : MakesRows member row) (ms : List (Int × Nat)) (db : Database) :
    ((ms.forM fun m => member g m.2 m.1 >>= insertMember).run db).2 =
      { db with group_members := enter_members (row db) g ms db.group_members } := by
  have hstep : ∀ db' : Database, db'.friends = db.friends → db'.users = db.users → ∀ m : Int × Nat,
      ((member g m.2 m.1 >>= insertMember).run db').2 =
        { db' with group_members := db'.group_members.set (g.gid, m.1) (row db g m.2 m.1) } := by
    intro db' hfriends husers m
    obtain ⟨hgid, huid⟩ := hrow.key db g m.2 m.1
    rw [Dao.run_bind, hrow.run, hrow.known db db' hfriends husers, insertMember, Dao.run_change, hgid, huid]
  rw [Dao.run_forM]
  suffices hall : ∀ (ms : List (Int × Nat)) (db' : Database), db'.friends = db.friends →
      db'.users = db.users →
      ms.foldl (fun db' m => ((member g m.2 m.1 >>= insertMember).run db').2) db' =
        { db' with group_members := enter_members (row db) g ms db'.group_members } from hall ms db rfl rfl
  intro ms
  induction ms with
  | nil => exact fun _ _ _ => rfl
  | cons m ms ih =>
    intro db' hfriends husers
    rw [List.foldl_cons, hstep db' hfriends husers m]
    exact ih { db' with group_members := db'.group_members.set (g.gid, m.1) (row db g m.2 m.1) }
      hfriends husers

theorem last_place_single (g : ListedGroup) (k : Int × Int) : last_place [g] k =
    (g.memberIds.zipIdx.reverse.find? fun m => (g.gid, m.1) = k).map fun m => (g, m) := by
  rw [last_place, List.flatMap_singleton, ← List.map_reverse, List.find?_map]
  rfl

theorem enter_members_find? (row : ListedGroup → Nat → Int → GroupMember) (g : ListedGroup)
    (t : UMap (Int × Int) GroupMember) (k : Int × Int) :
    (enter_members row g g.memberIds.zipIdx t).find? k =
      ((last_place [g] k).map fun p => row p.1 p.2.2 p.2.1).or (t.find? k) := by
  rw [enter_members, UMap.find?_foldl_set (fun m : Int × Nat => (g.gid, m.1)) fun m => row g m.2 m.1,
    last_place_single, Option.map_map]
  rfl

/-- What the loop over the members and the row of the user itself leave. -/
theorem left_behind_single (row : ListedGroup → Nat → Int → GroupMember) (g : ListedGroup)
    (t : UMap (Int × Int) GroupMember) (k : Int × Int) :
    (if ((enter_members row g g.memberIds.zipIdx t).find? (g.gid, session.userId)).isNone
      then (enter_members row g g.memberIds.zipIdx t).set (g.gid, session.userId) (my_member session g.gid)
      else enter_members row g g.memberIds.zipIdx t).find? k =
      left_behind session row [g] (t.find? k) k := by
  have hown : k.2 = session.userId ∧ k.1 ∈ [g].map ListedGroup.gid ↔ k = (g.gid, session.userId) := by
    rw [List.map_singleton, List.mem_singleton, Prod.ext_iff, and_comm]
  rw [left_behind]
  by_cases hk : k = (g.gid, session.userId)
  · have hmine := hown.mpr hk
    subst hk
    rw [if_pos hmine]
    by_cases hnone : ((enter_members row g g.memberIds.zipIdx t).find? (g.gid, session.userId)).isNone = true
    · rw [if_pos hnone, UMap.find?_set, if_pos rfl]
      rw [enter_members_find?, Option.isNone_iff_eq_none, Option.or_eq_none_iff,
        Option.map_eq_none_iff] at hnone
      simp only [hnone.1, hnone.2, Option.getD_none]
    · rw [if_neg hnone, enter_members_find?]
      rw [enter_members_find?] at hnone
      cases hplace : last_place [g] (g.gid, session.userId) with
      | some p => rfl
      | none =>
        cases ht : t.find? (g.gid, session.userId) with
        | some r => rfl
        | none => exact absurd (by rw [hplace, ht]; rfl) hnone
  · -- the row of the user itself is not asked for
    have hnot : ¬(k.2 = session.userId ∧ k.1 ∈ [g].map ListedGroup.gid) := fun h => hk (hown.mp h)
    have hsame : (if ((enter_members row g g.memberIds.zipIdx t).find? (g.gid, session.userId)).isNone
        then (enter_members row g g.memberIds.zipIdx t).set (g.gid, session.userId) (my_member session g.gid)
        else enter_members row g g.memberIds.zipIdx t).find? k =
        (enter_members row g g.memberIds.zipIdx t).find? k := by
      split
      · rw [UMap.find?_set, if_neg hk]
      · rfl
    rw [hsame, enter_members_find?, if_neg hnot]
    cases last_place [g] k <;> rfl

/-- What one group leaves: the rows of its members, of which the last one of a member stays, the row of
the user itself where there was none, and the group. Friends and users stay as they are. -/
theorem save_group_run (session : Session) (hrow : MakesRows member row) (g : ListedGroup) (db : Database) :
    ∃ db', ((save_group session member g).run db).2 = db' ∧ db'.friends = db.friends ∧
      db'.users = db.users ∧
      (∀ gid, db'.groups.find? gid = left_group session [g] (db.groups.find? gid) gid) ∧
      ∀ k, db'.group_members.find? k =
        left_behind session (row db) [g] (db.group_members.find? k) k := by
  have hmembers := save_members_run hrow (g := g) g.memberIds.zipIdx
    { db with groups := db.groups.set g.gid ⟨g.gid, g.gname, session.userId, g.memberCount⟩ }
  have hknown : row { db with groups := db.groups.set g.gid ⟨g.gid, g.gname, session.userId, g.memberCount⟩ } =
      row db := hrow.known db _ rfl rfl
  rw [hknown] at hmembers
  have hgroups : ∀ gid, (db.groups.set g.gid ⟨g.gid, g.gname, session.userId, g.memberCount⟩).find? gid =
      left_group session [g] (db.groups.find? gid) gid := by
    intro gid
    rw [UMap.find?_set, left_group]
    by_cases hgid : g.gid = gid
    · simp [hgid]
    · simp [hgid, Ne.symm hgid]
  have hrun : ((save_group session member g).run db).2 = { db with
      groups := db.groups.set g.gid ⟨g.gid, g.gname, session.userId, g.memberCount⟩
      group_members :=
        if ((enter_members (row db) g g.memberIds.zipIdx db.group_members).find?
            (g.gid, session.userId)).isNone
        then (enter_members (row db) g g.memberIds.zipIdx db.group_members).set
          (g.gid, session.userId) (my_member session g.gid)
        else enter_members (row db) g g.memberIds.zipIdx db.group_members } := by
    rw [save_group, Dao.run_bind, Dao.run_bind, insertGroup, Dao.run_change, hmembers, Dao.run_bind,
      getMember, Dao.run_query]
    dsimp only
    split <;> rfl
  refine ⟨_, hrun, rfl, rfl, hgroups, fun k => ?_⟩
  exact left_behind_single (row db) g db.group_members k

/-- What a whole list leaves. -/
theorem save_groups_run (session : Session) (hrow : MakesRows member row) (gs : List ListedGroup) (db : Database) :
    ∃ db', ((gs.forM (save_group session member)).run db).2 = db' ∧ db'.friends = db.friends ∧
      db'.users = db.users ∧
      (∀ gid, db'.groups.find? gid = left_group session gs (db.groups.find? gid) gid) ∧
      ∀ k, db'.group_members.find? k =
        left_behind session (row db) gs (db.group_members.find? k) k := by
  induction gs generalizing db with
  | nil =>
    refine ⟨db, rfl, rfl, rfl, fun gid => rfl, fun k => ?_⟩
    rw [left_behind, if_neg (by simp)]
    rfl
  | cons g gs ih =>
    obtain ⟨db₁, hrun, hfriends, husers, hgroups, hmembers⟩ := save_group_run session hrow g db
    obtain ⟨db₂, hrest, hfriends₂, husers₂, hgroups₂, hmembers₂⟩ := ih db₁
    refine ⟨db₂, ?_, hfriends₂.trans hfriends, husers₂.trans husers, fun gid => ?_, fun k => ?_⟩
    · rw [← hrest, ← hrun]
      exact congrArg Prod.snd (Dao.run_bind _ fun _ => gs.forM (save_group session member))
    · rw [hgroups₂, hgroups]
      simp only [left_group, List.reverse_cons, List.reverse_nil, List.nil_append, List.find?_append,
        Option.map_or, Option.or_assoc]
    · rw [hmembers₂, hmembers, hrow.known db db₁ hfriends husers, ← left_behind_cons]

/-- Only the rows at the last places count. -/
theorem left_behind_congr {row row' : ListedGroup → Nat → Int → GroupMember} {k : Int × Int}
    (h : ∀ p, last_place gs k = some p → row p.1 p.2.2 p.2.1 = row' p.1 p.2.2 p.2.1)
    (before : Option GroupMember) :
    left_behind session row gs before k = left_behind session row' gs before k := by
  rw [left_behind, left_behind]
  cases hplace : last_place gs k with
  | some p => exact congrArg some (h p hplace)
  | none => rfl

/-- Whatever a list left before, by whatever rows, the same list leaves its own rows. -/
theorem left_behind_again (row row' : ListedGroup → Nat → Int → GroupMember) (before : Option GroupMember)
    (k : Int × Int) : left_behind session row gs (left_behind session row' gs before k) k =
      left_behind session row gs before k := by
  rw [left_behind, left_behind, left_behind]
  cases last_place gs k with
  | some p => rfl
  | none =>
    by_cases hmine : k.2 = session.userId ∧ k.1 ∈ gs.map ListedGroup.gid
    · simp only [if_pos hmine, Option.getD_some]
    · simp only [if_neg hmine]

theorem left_group_again (before : Option Group) (gid : Int) :
    left_group session gs (left_group session gs before gid) gid = left_group session gs before gid := by
  rw [left_group, left_group]
  cases gs.reverse.find? fun g => g.gid = gid <;> rfl

end Left

/-! ## The two handlers -/

/-- What a `GET_USER_GROUPS` reply says of one group: its members, and of each the encoded nickname, the
username and the admin flag, as the server puts them in a row. -/
structure GroupEntry where
  gid : Int
  name : Bytes
  members : Bytes
  nicks : Bytes
  names : Bytes
  admins : Bytes

/-- The payload of a `GET_USER_GROUPS` reply. -/
def group_list (gs : List GroupEntry) : Bytes :=
  serialize_kv ((str "count", to_string gs.length) :: (gs.zipIdx.map fun g =>
    handle_client.group_item g.2 g.1.gid g.1.name g.1.members g.1.nicks g.1.names g.1.admins).flatten)

/-- The first part, and then each part behind a separator. -/
theorem intercalate_eq_flatten {sep x : Bytes} {ls : List Bytes} :
    sep.intercalate (x :: ls) = x ++ (ls.map (sep ++ ·)).flatten := by
  induction ls generalizing x with
  | nil => rw [List.intercalate_singleton, List.map_nil, List.flatten_nil, List.append_nil]
  | cons y ls ih =>
    rw [List.intercalate_cons_cons, ih, List.map_cons, List.flatten_cons, List.append_assoc, List.append_assoc]

/-- A part that is not the first stands behind a separator. -/
theorem sep_infix_intercalate {sep x l : Bytes} {ls : List Bytes} (h : l ∈ ls) :
    sep ++ l <:+: sep.intercalate (x :: ls) := by
  have hpart : sep ++ l <:+: (ls.map (sep ++ ·)).flatten := List.infix_of_mem_flatten (List.mem_map_of_mem h)
  rw [intercalate_eq_flatten]
  exact hpart.trans (List.suffix_append _ _).isInfix

/-- What is joined stands in the result. -/
theorem infix_intercalate {sep l : Bytes} {ls : List Bytes} (h : l ∈ ls) : l <:+: sep.intercalate ls := by
  cases ls with
  | nil => cases h
  | cons x ls =>
    rcases List.mem_cons.mp h with rfl | h
    · rw [intercalate_eq_flatten]
      exact (List.prefix_append _ _).isInfix
    · exact (List.suffix_append sep l).isInfix.trans (sep_infix_intercalate h)

/-- A key that is written stands in the payload. -/
theorem infix_of_item {items : List (Bytes × Bytes)} {k v : Bytes} (h : (k, v) ∈ items) :
    k ++ [61] <:+: serialize_kv items := by
  have hpair : k ++ 61 :: v <:+: serialize_kv items :=
    infix_intercalate (List.mem_map.mpr ⟨(k, v), h, rfl⟩)
  refine List.IsInfix.trans ?_ hpair
  exact ⟨[], v, by simp⟩

section Agree

variable {decode : Bytes → Option Bytes} {session : Session} {db : Database}

/-- A list with groups is recognised. -/
theorem group_list_contains {gs : List GroupEntry} (hne : gs ≠ []) :
    contains (group_list gs) "groupId0=" = true ∧ contains (group_list gs) "name0=" = true := by
  obtain ⟨g, gs, rfl⟩ := List.exists_cons_of_ne_nil hne
  have hitem : ∀ p ∈ handle_client.group_item 0 g.gid g.name g.members g.nicks g.names g.admins,
      p.1 ++ [61] <:+: group_list (g :: gs) := by
    intro p hp
    refine infix_of_item (v := p.2) (List.mem_cons_of_mem _ (List.mem_flatten.mpr ⟨_, ?_, hp⟩))
    exact List.mem_map.mpr ⟨(g, 0), List.mem_cons_self, rfl⟩
  have hid : str "groupId0" ++ [61] <:+: group_list (g :: gs) :=
    hitem (str "groupId0", to_string g.gid) List.mem_cons_self
  have hname : str "name0" ++ [61] <:+: group_list (g :: gs) :=
    hitem (str "name0", g.name) (List.mem_cons_of_mem _ List.mem_cons_self)
  exact ⟨contains_iff.mpr hid, contains_iff.mpr hname⟩

/-- A list without groups names none. -/
theorem listed_groups_nil : listed_groups (group_list []) = [] := by
  decide

/-- The fragment reads every group list. -/
theorem onMessageReceived_list (gs : List GroupEntry) (db : Database) :
    ((GroupsFragment.onMessageReceived session .SUCCESS (group_list gs)).run db).2 =
      (((listed_groups (group_list gs)).forM (save_group session (local_member session))).run db).2 := by
  rw [GroupsFragment.onMessageReceived]
  by_cases hne : gs = []
  · rw [hne, listed_groups_nil]
    split <;> rfl
  · obtain ⟨hid, hname⟩ := group_list_contains hne
    rw [if_pos ⟨rfl, hid, hname⟩]

/-- The same groups and the same members. -/
def SameGroups (db db' : Database) : Prop :=
  (∀ gid, db.groups.find? gid = db'.groups.find? gid) ∧
    ∀ k, db.group_members.find? k = db'.group_members.find? k

/-- Both handlers leave the same rows, and so do both of them one after the other, in either order. -/
def HandlersAgree (decode : Bytes → Option Bytes) (session : Session) (payload : Bytes) (db : Database) : Prop :=
  let activity := fun db => ((handleGroupListPayload decode session payload).run db).2
  let fragment := fun db => ((GroupsFragment.onMessageReceived session .SUCCESS payload).run db).2
  SameGroups (activity db) (fragment db) ∧ SameGroups (fragment (activity db)) (activity db) ∧
    SameGroups (activity (fragment db)) (activity db)

/-- What the payload says of a member is what the phone assumes without it: the username is the one known
here, there is no nickname, and an admin is the user itself. -/
structure SaysNothingNew (decode : Bytes → Option Bytes) (session : Session) (db : Database)
    (g : ListedGroup) (idx : Nat) (uid : Int) : Prop where
  username : g.memberNames.getD idx [] ≠ [] → g.memberNames.getD idx [] = name_of db uid
  nickname : g.memberNicks.getD idx [] ≠ [] → decode (g.memberNicks.getD idx []) = none
  admin : g.memberAdmins.getD idx [] ≠ [] → (g.memberAdmins.getD idx [] = str "1" ↔ uid = session.userId)

theorem server_row_eq_local {g : ListedGroup} {idx : Nat} {uid : Int} :
    server_row decode session db g idx uid = local_row session db g idx uid ↔
      SaysNothingNew decode session db g idx uid := by
  rw [server_row, local_row, GroupMember.mk.injEq]
  constructor
  · rintro ⟨-, -, hname, hnick, hadmin⟩
    refine ⟨fun h => ?_, fun h => ?_, fun h => ?_⟩
    · rwa [if_pos h] at hname
    · rwa [if_pos h] at hnick
    · rwa [if_pos h, decide_eq_decide] at hadmin
  · rintro ⟨hname, hnick, hadmin⟩
    refine ⟨rfl, rfl, ?_, ?_, ?_⟩
    · by_cases h : g.memberNames.getD idx [] ≠ []
      · rw [if_pos h, hname h]
      · rw [if_neg h]
    · by_cases h : g.memberNicks.getD idx [] ≠ []
      · rw [if_pos h, hnick h]
      · rw [if_neg h]
    · by_cases h : g.memberAdmins.getD idx [] ≠ []
      · rw [if_pos h, decide_eq_decide]
        exact hadmin h
      · rw [if_neg h]

/-- Handlers that agree make the same rows where members are listed last. -/
theorem HandlersAgree.nothing_new {gs : List GroupEntry} (h : HandlersAgree decode session (group_list gs) db)
    {k : Int × Int} {p : ListedGroup × Int × Nat} (hplace : last_place (listed_groups (group_list gs)) k = some p) :
    SaysNothingNew decode session db p.1 p.2.2 p.2.1 := by
  obtain ⟨⟨-, hsame⟩, -, -⟩ := h
  obtain ⟨db₁, hrun₁, -, -, -, hmembers₁⟩ :=
    save_groups_run session (server_member_rows decode session) (listed_groups (group_list gs)) db
  obtain ⟨db₂, hrun₂, -, -, -, hmembers₂⟩ :=
    save_groups_run session (local_member_rows session) (listed_groups (group_list gs)) db
  have hk := hsame k
  dsimp only at hk
  rw [onMessageReceived_list, handleGroupListPayload, hrun₁, hrun₂, hmembers₁, hmembers₂, left_behind,
    left_behind, hplace] at hk
  exact server_row_eq_local.mp (Option.some.inj hk)

/-- **When the two handlers agree**: for every group list and all local tables, they leave the same rows,
and running both in either order leaves what one of them leaves, exactly when of each listed member, where
it is listed last, the payload says nothing that the phone does not assume anyway. -/
theorem handlers_agree_iff (decode : Bytes → Option Bytes) (session : Session) (gs : List GroupEntry)
    (db : Database) : HandlersAgree decode session (group_list gs) db ↔
      ∀ k p, last_place (listed_groups (group_list gs)) k = some p →
        SaysNothingNew decode session db p.1 p.2.2 p.2.1 := by
  refine ⟨fun h k p => h.nothing_new, fun hnothing => ?_⟩
  rw [HandlersAgree]
  simp only [onMessageReceived_list, handleGroupListPayload]
  obtain ⟨db₁, hrun₁, hfriends₁, husers₁, hgroups₁, hmembers₁⟩ :=
    save_groups_run session (server_member_rows decode session) (listed_groups (group_list gs)) db
  obtain ⟨db₂, hrun₂, hfriends₂, husers₂, hgroups₂, hmembers₂⟩ :=
    save_groups_run session (local_member_rows session) (listed_groups (group_list gs)) db
  obtain ⟨db₁₂, hrun₁₂, -, -, hgroups₁₂, hmembers₁₂⟩ :=
    save_groups_run session (local_member_rows session) (listed_groups (group_list gs)) db₁
  obtain ⟨db₂₁, hrun₂₁, -, -, hgroups₂₁, hmembers₂₁⟩ :=
    save_groups_run session (server_member_rows decode session) (listed_groups (group_list gs)) db₂
  rw [hrun₁, hrun₂, hrun₁₂, hrun₂₁]
  rw [(local_member_rows session).known db db₁ hfriends₁ husers₁] at hmembers₁₂
  rw [(server_member_rows decode session).known db db₂ hfriends₂ husers₂] at hmembers₂₁
  have hrows : ∀ before k, left_behind session (server_row decode session db) (listed_groups (group_list gs))
      before k = left_behind session (local_row session db) (listed_groups (group_list gs)) before k :=
    fun before k => left_behind_congr (fun p hp => server_row_eq_local.mpr (hnothing k p hp)) before
  refine ⟨⟨fun gid => ?_, fun k => ?_⟩, ⟨fun gid => ?_, fun k => ?_⟩, ⟨fun gid => ?_, fun k => ?_⟩⟩
  · rw [hgroups₁, hgroups₂]
  · rw [hmembers₁, hmembers₂, hrows]
  · rw [hgroups₁₂, hgroups₁, left_group_again]
  · rw [hmembers₁₂, hmembers₁, left_behind_again, hrows]
  · rw [hgroups₂₁, hgroups₂, hgroups₁, left_group_again]
  · rw [hmembers₂₁, hmembers₂, hmembers₁, left_behind_again]

end Agree

/-- The list of a user with one group, of which the other member is an admin. -/
def one_group : List GroupEntry := [⟨7, str "g", str "1,2", str ",", str "a,b", str "0,1"⟩]

/-- **The handlers disagree**: after the fragment the user is an admin of the group, after the activity it
is not. -/
theorem handlers_disagree : ¬∀ (decode : Bytes → Option Bytes) (session : Session) (gs : List GroupEntry)
    (db : Database), HandlersAgree decode session (group_list gs) db := by
  intro claim
  have hagree := claim (fun _ => none) ⟨1, some (str "a")⟩ one_group {}
  have hplace : (last_place (listed_groups (group_list one_group)) (7, 1)).map
      (fun p => (p.1.memberAdmins.getD p.2.2 [], p.2.1)) = some (str "0", 1) := by decide
  obtain ⟨p, hp, hadmin⟩ := Option.map_eq_some_iff.mp hplace
  obtain ⟨hflag, huid⟩ := Prod.mk.inj hadmin
  have hflags := (hagree.nothing_new hp).admin (by rw [hflag]; decide)
  rw [hflag, huid] at hflags
  exact absurd (hflags.mpr rfl) (by decide)

end ChatApp.Room
