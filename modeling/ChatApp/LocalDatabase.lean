/-
`LocalDatabase.lean` -- the phone's own database: the tables of `data/model`, and what the
annotated methods of `data/dao` do to them.

`messages` has generated ids and a unique index; an insert that would repeat an indexed value is
ignored. A value of `Messages` carries the index with it, so that a table which violates it cannot
be built. The other tables are maps from primary keys, and inserts replace. One call of a method
is one transaction; a function of the client that makes several is a program of them, and others
may come in between.

A string is its bytes, as in `ClientMessages.lean`. Columns that hold the phone's clock at the time
of an insert (`createdAt`, `joinedAt`, `lastSeen`, `addedAt`) are read by nobody here, and left out.
-/
import ChatApp.ClientMessages
import ChatApp.Program
import Mathlib.Data.List.Sort

set_option autoImplicit false

namespace ChatApp.Room

/-! ## `messages` -/

/-- `Message`. The id is generated when the row is inserted. -/
structure Message where
  id : Int := 0
  senderId : Int
  recipientId : Int
  groupId : Option Int := none
  content : Bytes
  timestamp : Int
  isRead : Bool := false
  isSent : Bool := false
  isDelivered : Bool := false
  deriving DecidableEq

/-- The columns of the unique index. -/
def Message.indexed (m : Message) : Int × Int × Int × Bytes :=
  (m.senderId, m.recipientId, m.timestamp, m.content)

/-- The table, in the order of the ids. -/
@[ext] structure Messages where
  rows : List Message
  /-- The id the next row gets. -/
  next : Int
  unique : (rows.map Message.indexed).Nodup
  ordered : rows.Pairwise fun a b => a.id < b.id
  fresh : ∀ r ∈ rows, r.id < next

namespace Messages

instance : EmptyCollection Messages := ⟨⟨[], 1, List.nodup_nil, .nil, by simp⟩⟩

/-- A row with these indexed values is stored. -/
def stores (t : Messages) (m : Message) : Bool := t.rows.any fun r => r.indexed = m.indexed

theorem stores_iff {t : Messages} {m : Message} :
    t.stores m = true ↔ ∃ r ∈ t.rows, r.indexed = m.indexed := by
  rw [stores, List.any_eq_true]
  simp only [decide_eq_true_eq]

/-- The table with one more row. -/
def append (t : Messages) (m : Message) (h : t.stores m = false) : Messages where
  rows := t.rows ++ [{ m with id := t.next }]
  next := t.next + 1
  unique := by
    rw [List.map_append, List.nodup_append]
    refine ⟨t.unique, List.nodup_singleton _, ?_⟩
    intro k hk k' hk' heq
    obtain ⟨r, hr, rfl⟩ := List.mem_map.mp hk
    rw [List.map_singleton, List.mem_singleton] at hk'
    refine Bool.eq_false_iff.mp h (stores_iff.mpr ⟨r, hr, ?_⟩)
    rw [heq, hk']
    rfl
  ordered := by
    rw [List.pairwise_append]
    refine ⟨t.ordered, List.pairwise_singleton _ _, ?_⟩
    intro a ha b hb
    rw [List.mem_singleton.mp hb]
    exact t.fresh a ha
  fresh := by
    intro r hr
    rcases List.mem_append.mp hr with hr | hr
    · have hlt := t.fresh r hr
      omega
    · rw [List.mem_singleton.mp hr]
      exact Int.lt_succ t.next

/-- `insertMessage`, which ignores a row that is stored: its answer is the id, or -1. -/
def insertMessage (m : Message) (t : Messages) : Int × Messages :=
  if h : t.stores m = false then (t.next, t.append m h) else (-1, t)

/-- The rows after the one with the id of `m` became `m`. -/
def replaced (m : Message) (rows : List Message) : List Message :=
  rows.map fun r => if r.id = m.id then m else r

/-- `updateMessage`. A change that would violate the index is an exception, and none is made. -/
def updateMessage (m : Message) (t : Messages) : Messages :=
  if h : ((replaced m t.rows).map Message.indexed).Nodup then
    { rows := replaced m t.rows
      next := t.next
      unique := h
      ordered := by
        refine List.pairwise_map.mpr (t.ordered.imp fun {a b} hab => ?_)
        by_cases ha : a.id = m.id
        · rw [if_pos ha, if_neg (by omega)]
          omega
        · rw [if_neg ha]
          by_cases hb : b.id = m.id
          · rw [if_pos hb]
            omega
          · rw [if_neg hb]
            exact hab
      fresh := by
        intro r hr
        obtain ⟨r₀, hr₀, rfl⟩ := List.mem_map.mp hr
        have hlt := t.fresh r₀ hr₀
        by_cases hid : r₀.id = m.id
        · rw [if_pos hid, ← hid]
          exact hlt
        · rw [if_neg hid]
          exact hlt }
  else t

/-- `SELECT * ... ORDER BY timestamp DESC LIMIT 1` over the rows that match; of rows with one timestamp the
first by id. -/
def latest (p : Message → Bool) (t : Messages) : Option Message := (t.rows.filter p).maxOn? Message.timestamp

/-- What `findLatestMatchingMessage` asks of a row. It does not ask for the group. -/
def matching (senderId recipientId : Int) (content : Bytes) (m : Message) : Bool :=
  m.senderId = senderId && m.recipientId = recipientId && m.content = content

/-- What `findLatestMatchingGroupMessage` asks of a row. -/
def matching_group (senderId groupId : Int) (content : Bytes) (m : Message) : Bool :=
  m.senderId = senderId && m.groupId = some groupId && m.content = content

/-- The same rows up to the generated ids, in whatever order. -/
def SameRows (t t' : Messages) : Prop :=
  (t.rows.map fun r => { r with id := 0 }).Perm (t'.rows.map fun r => { r with id := 0 })

/-! What inserts, updates and look-ups do to each other. -/

section Lemmas

variable {t : Messages} {m e r : Message} {p : Message → Bool}

theorem insertMessage_stored (h : t.stores m = true) : (t.insertMessage m).2 = t := by
  rw [insertMessage, dif_neg (by rw [h]; decide)]

theorem insertMessage_new (h : t.stores m = false) : (t.insertMessage m).2 = t.append m h := by
  rw [insertMessage, dif_pos h]

/-- Once inserted, a message is stored. -/
theorem stores_insertMessage : ((t.insertMessage m).2).stores m = true := by
  cases h : t.stores m with
  | true =>
    rw [insertMessage_stored h]
    exact h
  | false =>
    rw [insertMessage_new h]
    exact stores_iff.mpr ⟨_, List.mem_append_right _ (List.mem_singleton_self _), rfl⟩

/-- The ids tell the rows apart. -/
theorem eq_of_id (hr : r ∈ t.rows) (he : e ∈ t.rows) (hid : r.id = e.id) : r = e := by
  have hids : (t.rows.map Message.id).Nodup :=
    List.pairwise_map.mpr (t.ordered.imp fun hlt => Int.ne_of_lt hlt)
  exact List.inj_on_of_nodup_map hids hr he hid

/-- The indexed values tell the rows apart. -/
theorem eq_of_indexed (hr : r ∈ t.rows) (he : e ∈ t.rows) (h : r.indexed = e.indexed) : r = e :=
  List.inj_on_of_nodup_map t.unique hr he h

/-- A change of a row that leaves its indexed values is made. -/
theorem updateMessage_rows (h : ∀ r ∈ t.rows, r.id = m.id → r.indexed = m.indexed) :
    (t.updateMessage m).rows = replaced m t.rows := by
  have hindexed : (replaced m t.rows).map Message.indexed = t.rows.map Message.indexed := by
    rw [replaced, List.map_map]
    refine List.map_congr_left fun r hr => ?_
    rw [Function.comp_apply]
    by_cases hid : r.id = m.id
    · rw [if_pos hid]
      exact (h r hr hid).symm
    · rw [if_neg hid]
  rw [updateMessage, dif_pos (by rw [hindexed]; exact t.unique)]

@[simp] theorem updateMessage_next : (t.updateMessage m).next = t.next := by
  rw [updateMessage]
  split <;> rfl

theorem latest_mem (h : t.latest p = some e) : e ∈ t.rows ∧ p e = true :=
  List.mem_filter.mp (List.maxOn?_mem h)

theorem latest_none : t.latest p = none ↔ ∀ r ∈ t.rows, ¬p r = true := by
  rw [← Option.not_isSome_iff_eq_none, latest, List.isSome_maxOn?_iff, not_not, List.filter_eq_nil_iff]

/-- No matching row is later than the latest. -/
theorem latest_le (h : t.latest p = some e) (hr : r ∈ t.rows) (hp : p r = true) :
    r.timestamp ≤ e.timestamp := by
  have hmax := List.le_apply_get_maxOn?_of_mem (f := Message.timestamp) (List.mem_filter.mpr ⟨hr, hp⟩)
  rw [latest] at h
  simpa only [h, Option.get_some] using hmax

/-- After an insert the latest row is the new one, if it matches and is later than the others. -/
theorem latest_append (h : t.stores m = false) (hp : p { m with id := t.next } = true) :
    (t.append m h).latest p = some (match t.latest p with
      | none => { m with id := t.next }
      | some e => if e.timestamp < m.timestamp then { m with id := t.next } else e) := by
  rw [latest, append, List.filter_append, List.filter_cons_of_pos hp, List.filter_nil, List.maxOn?_append,
    List.maxOn?_singleton]
  rw [← latest]
  cases t.latest p with
  | none => rfl
  | some e =>
    refine congrArg some ?_
    dsimp only
    by_cases hlt : e.timestamp < m.timestamp
    · rw [if_pos hlt]
      exact maxOn_eq_right (by simpa using hlt)
    · rw [if_neg hlt]
      exact maxOn_eq_left (by simpa using hlt)

end Lemmas

/-- A change of the rows that leaves the times and what is asked for changes the latest row. -/
theorem maxOn_map {g : Message → Message} {p : Message → Bool} (htime : ∀ r, (g r).timestamp = r.timestamp)
    (hp : ∀ r, p (g r) = p r) (rows : List Message) :
    ((rows.map g).filter p).maxOn? Message.timestamp
      = ((rows.filter p).maxOn? Message.timestamp).map g := by
  have hfilter : (rows.map g).filter p = (rows.filter p).map g := by
    rw [List.filter_map]
    exact congrArg (List.map g) (List.filter_congr fun r _ => hp r)
  rw [hfilter]
  induction rows.filter p with
  | nil => rfl
  | cons r rest ih =>
    rw [List.map_cons, List.maxOn?_cons, List.maxOn?_cons, ih]
    cases rest.maxOn? Message.timestamp with
    | none => rfl
    | some e =>
      refine congrArg some ?_
      dsimp only [Option.map_some, Option.elim]
      by_cases hle : e.timestamp ≤ r.timestamp
      · rw [maxOn_eq_left hle]
        exact maxOn_eq_left (by rw [htime, htime]; exact hle)
      · rw [maxOn_eq_right hle]
        exact maxOn_eq_right (by rw [htime, htime]; exact hle)

end Messages

/-! ## The other tables -/

/-- `Group`. -/
structure Group where
  id : Int
  name : Bytes
  creatorId : Int
  memberCount : Int
  deriving DecidableEq

/-- `GroupMember`. -/
structure GroupMember where
  groupId : Int
  userId : Int
  username : Bytes
  nickname : Option Bytes
  isAdmin : Bool
  deriving DecidableEq

/-- `User`. -/
structure User where
  id : Int
  username : Bytes
  email : Bytes
  isOnline : Bool
  deriving DecidableEq

/-- `Friend`. -/
structure Friend where
  userId : Int
  username : Bytes
  isOnline : Bool
  lastSeen : Int
  addedAt : Int
  deriving DecidableEq

/-- `RequestStatus`. -/
inductive RequestStatus where
  | PENDING
  | ACCEPTED
  | DECLINED
  deriving DecidableEq

/-- `FriendRequest`. -/
structure FriendRequest where
  fromUserId : Int
  toUserId : Int
  fromUsername : Bytes
  timestamp : Int
  status : RequestStatus
  deriving DecidableEq

/-- The tables, those other than `messages` by their keys. -/
structure Database where
  messages : Messages := ∅
  groups : UMap Int Group := ∅
  group_members : UMap (Int × Int) GroupMember := ∅
  users : UMap Int User := ∅
  friends : UMap Int Friend := ∅
  friend_requests : UMap (Int × Int) FriendRequest := ∅

/-- A transaction with an answer. -/
inductive Transaction : Type → Type 1 where
  | atomic {β : Type} (f : Database → β × Database) : Transaction β

/-- What a transaction does. -/
def Transaction.exec {β : Type} : Transaction β → Database → β × Database
  | .atomic f => f

/-- A function of the client: the transactions it makes, each depending on the answers before. -/
abbrev Dao (α : Type) : Type 1 := Program Transaction α

section Methods

variable {β : Type}

/-- A query. -/
def query (f : Database → β) : Dao β := Program.perform (.atomic fun db => (f db, db))

/-- A change. -/
def change (f : Database → Database) : Dao Unit := Program.perform (.atomic fun db => ((), f db))

/-- `MessageDao.findLatestMatchingMessage`. -/
def findLatestMatchingMessage (senderId recipientId : Int) (content : Bytes) : Dao (Option Message) :=
  query fun db => db.messages.latest (Messages.matching senderId recipientId content)

/-- `MessageDao.findLatestMatchingGroupMessage`. -/
def findLatestMatchingGroupMessage (senderId groupId : Int) (content : Bytes) : Dao (Option Message) :=
  query fun db => db.messages.latest (Messages.matching_group senderId groupId content)

/-- `MessageDao.insertMessage`. -/
def insertMessage (m : Message) : Dao Int := Program.perform <| .atomic fun db =>
  ((db.messages.insertMessage m).1, { db with messages := (db.messages.insertMessage m).2 })

/-- `MessageDao.updateMessage`. -/
def updateMessage (m : Message) : Dao Unit :=
  change fun db => { db with messages := db.messages.updateMessage m }

/-- `GroupDao.getGroup`. -/
def getGroup (groupId : Int) : Dao (Option Group) := query fun db => db.groups.find? groupId

/-- `GroupDao.insertGroup`. -/
def insertGroup (g : Group) : Dao Unit := change fun db => { db with groups := db.groups.set g.id g }

/-- `GroupMemberDao.getMember`. -/
def getMember (groupId userId : Int) : Dao (Option GroupMember) :=
  query fun db => db.group_members.find? (groupId, userId)

/-- `GroupMemberDao.insertMember`. -/
def insertMember (m : GroupMember) : Dao Unit :=
  change fun db => { db with group_members := db.group_members.set (m.groupId, m.userId) m }

/-- `GroupMemberDao.removeMember`. -/
def removeMember (groupId userId : Int) : Dao Unit :=
  change fun db => { db with group_members := db.group_members.erase (groupId, userId) }

/-- The members of a group, by their names. -/
def Database.members_of (db : Database) (groupId : Int) : List GroupMember :=
  ((db.group_members.toList.map Prod.snd).filter fun m => m.groupId = groupId).insertionSort fun m m' =>
    m.username ≤ m'.username

/-- `GroupMemberDao.getMembersList`. -/
def getMembersList (groupId : Int) : Dao (List GroupMember) := query fun db => db.members_of groupId

/-- `GroupMemberDao.updateMember`: the row with the keys of `m`, if there is one, becomes `m`. -/
def updateMember (m : GroupMember) : Dao Unit := change fun db =>
  { db with group_members := db.group_members.adjust (m.groupId, m.userId) fun _ => m }

/-- `FriendDao.getFriend`. -/
def getFriend (userId : Int) : Dao (Option Friend) := query fun db => db.friends.find? userId

/-- `UserDao.getUser`. -/
def getUser (userId : Int) : Dao (Option User) := query fun db => db.users.find? userId

/-- `UserDao.insertUser`. -/
def insertUser (u : User) : Dao Unit := change fun db => { db with users := db.users.set u.id u }

/-- `FriendDao.clearAll`. -/
def clearAll : Dao Unit := change fun db => { db with friends := ∅ }

/-- `FriendDao.insertFriends`. -/
def insertFriends (friends : List Friend) : Dao Unit :=
  change fun db => { db with friends := friends.foldl (fun t f => t.set f.userId f) db.friends }

/-- `FriendRequestDao.clearPendingFor`. -/
def clearPendingFor (userId : Int) : Dao Unit := change fun db =>
  { db with friend_requests := db.friend_requests.erase_if fun _ r =>
    r.toUserId = userId && r.status = .PENDING }

/-- `FriendRequestDao.insertRequest`; the pair of users is unique. -/
def insertRequest (r : FriendRequest) : Dao Unit := change fun db =>
  { db with friend_requests := db.friend_requests.set (r.fromUserId, r.toUserId) r }

/-- Run a function of the client by itself. -/
def Dao.run {α : Type} (p : Dao α) (db : Database) : α × Database := Program.run Transaction.exec p db

end Methods

/-! ## Runs -/

namespace Dao

variable {α β : Type} {db : Database}

@[simp] theorem run_pure (a : α) : Dao.run (pure a) db = (a, db) := rfl

@[simp] theorem run_bind (p : Dao α) (f : α → Dao β) :
    Dao.run (p >>= f) db = Dao.run (f (Dao.run p db).1) (Dao.run p db).2 :=
  Program.run_bind _ p f db

@[simp] theorem run_query (f : Database → β) : Dao.run (query f) db = (f db, db) := rfl

@[simp] theorem run_change (f : Database → Database) : Dao.run (change f) db = ((), f db) := rfl

/-- A loop makes its changes one after the other. -/
theorem run_forM {ι : Type} (xs : List ι) (f : ι → Dao Unit) (db : Database) :
    (Dao.run (xs.forM f) db).2 = xs.foldl (fun db x => (Dao.run (f x) db).2) db := by
  induction xs generalizing db with
  | nil => rfl
  | cons x xs ih =>
    have hcons : Dao.run ((x :: xs).forM f) db = Dao.run (xs.forM f) (Dao.run (f x) db).2 :=
      run_bind (f x) fun _ => xs.forM f
    rw [hcons, ih, List.foldl_cons]

end Dao

end ChatApp.Room
