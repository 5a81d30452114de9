/-
`FriendsRefresh.lean` -- what a list of friends leaves in the tables.

A reply to `GET_FRIENDS_LIST` starts two coroutines of `ui/viewmodel/FriendViewModel.kt` at once. One empties the
table of friends and fills it again, in two transactions; the other enters the requests, and asks before each whether
the user is a friend already. What it is told depends on when it asks: before the table is emptied, it sees the old
friends, and before it is filled, none.

If neither the old nor the new friends have asked, the order does not matter (`refreshed_iff`).
-/
import ChatApp.FriendsFragment

set_option autoImplicit false

namespace ChatApp.Room

open FriendViewModel FriendsFragment

/-! ## What should be left -/

/-- The pending requests to a user, by their keys. -/
def pending_requests (db : Database) (me : Int) (k : Int × Int) : Option FriendRequest :=
  (db.friend_requests.find? k).filter fun r => r.toUserId = me && r.status = .PENDING

/-- The request that a user makes by a numbered list; of two the last counts. -/
def last_request (me : Int) (entered : Nat → Int) (rs : List ((Int × Bytes) × Nat)) (uid : Int) :
    Option FriendRequest :=
  (rs.reverse.find? fun r => r.1.1 = uid).map fun r => ⟨r.1.1, me, r.1.2, entered r.2, .PENDING⟩

/-- The request that a user makes by the list, with the time at which it is entered. -/
def listed_request (me : Int) (entered : Nat → Int) (requests : List (Int × Bytes)) (uid : Int) :
    Option FriendRequest :=
  last_request me entered requests.zipIdx uid

/-- The tables hold what the list says: these friends, and the requests of those who are no friends. -/
structure Refreshed (me : Int) (entered : Nat → Int) (listed : List Friend) (requests : List (Int × Bytes))
    (db : Database) : Prop where
  friends : ∀ uid, db.friends.find? uid = (friends_table listed).find? uid
  pending : ∀ k, pending_requests db me k =
    if k.2 = me ∧ k.1 ∉ listed.map Friend.userId then listed_request me entered requests k.1 else none

/-! ## The requests by themselves -/

section Requests

variable {me : Int} {entered : Nat → Int} {db : Database}

/-- One request is entered, unless the user is a friend. -/
theorem addPendingFriendRequest_run (now uid : Int) (name : Bytes) :
    ((addPendingFriendRequest me now uid name).run db).2 =
      if (db.friends.find? uid).isSome then db
      else { db with friend_requests := db.friend_requests.set (uid, me) ⟨uid, me, name, now, .PENDING⟩ } := by
  rw [addPendingFriendRequest, Dao.run_bind, getFriend, Dao.run_query]
  split <;> rfl

theorem pending_requests_set (now uid : Int) (name : Bytes) (k : Int × Int) :
    pending_requests { db with
        friend_requests := db.friend_requests.set (uid, me) ⟨uid, me, name, now, .PENDING⟩ } me k =
      if k = (uid, me) then some ⟨uid, me, name, now, .PENDING⟩ else pending_requests db me k := by
  rw [pending_requests, UMap.find?_set]
  split
  · simp
  · rfl

theorem last_request_cons (r : (Int × Bytes) × Nat) (rs : List ((Int × Bytes) × Nat)) (uid : Int) :
    last_request me entered (r :: rs) uid = (last_request me entered rs uid).or
      (if r.1.1 = uid then some ⟨r.1.1, me, r.1.2, entered r.2, .PENDING⟩ else none) := by
  rw [last_request, List.reverse_cons, List.find?_append, Option.map_or, ← last_request, List.find?_singleton]
  by_cases huid : r.1.1 = uid
  · simp [huid]
  · simp [huid]

/-- **The requests that a list of them leaves**, while the table of friends stays. -/
theorem requests_entered (rs : List ((Int × Bytes) × Nat)) (db : Database) (k : Int × Int) :
    ((Dao.run (rs.forM fun r => addPendingFriendRequest me (entered r.2) r.1.1 r.1.2) db).2.friends = db.friends) ∧
    pending_requests (Dao.run (rs.forM fun r => addPendingFriendRequest me (entered r.2) r.1.1 r.1.2) db).2 me k =
      (if k.2 = me ∧ db.friends.find? k.1 = none then last_request me entered rs k.1 else none).or
        (pending_requests db me k) := by
  rw [Dao.run_forM]
  induction rs generalizing db with
  | nil =>
    refine ⟨rfl, ?_⟩
    split <;> rfl
  | cons r rs ih =>
    rw [List.foldl_cons, addPendingFriendRequest_run, last_request_cons]
    by_cases hfriend : (db.friends.find? r.1.1).isSome
    · -- a friend makes no request
      rw [if_pos hfriend]
      obtain ⟨hfriends, hpending⟩ := ih db
      refine ⟨hfriends, hpending.trans ?_⟩
      by_cases hk : k.2 = me ∧ db.friends.find? k.1 = none
      · have hother : r.1.1 ≠ k.1 := by
          rintro heq
          rw [heq, hk.2] at hfriend
          cases hfriend
        rw [if_pos hk, if_pos hk, if_neg hother, Option.or_none]
      · rw [if_neg hk, if_neg hk]
    · rw [if_neg hfriend]
      obtain ⟨hfriends, hpending⟩ := ih { db with
        friend_requests := db.friend_requests.set (r.1.1, me) ⟨r.1.1, me, r.1.2, entered r.2, .PENDING⟩ }
      refine ⟨hfriends, hpending.trans ?_⟩
      rw [pending_requests_set]
      dsimp only
      by_cases hkey : k = (r.1.1, me)
      · have hk : k.2 = me ∧ db.friends.find? k.1 = none := by
          rw [hkey]
          exact ⟨rfl, by simpa using hfriend⟩
        rw [if_pos hkey, if_pos hk, if_pos hk, if_pos (by rw [hkey]), Option.or_assoc]
        rfl
      · rw [if_neg hkey]
        by_cases hk : k.2 = me ∧ db.friends.find? k.1 = none
        · have hother : r.1.1 ≠ k.1 := fun heq => hkey (Prod.ext heq.symm hk.1)
          rw [if_pos hk, if_pos hk, if_neg hother, Option.or_none]
        · rw [if_neg hk, if_neg hk]

theorem clearPendingFor_pending (k : Int × Int) :
    pending_requests ((clearPendingFor me).run db).2 me k = none := by
  rw [clearPendingFor, Dao.run_change, pending_requests, UMap.find?_erase_if, Option.filter_filter]
  refine Option.filter_eq_none_iff.mpr fun r _ => ?_
  cases decide (r.toUserId = me) && decide (r.status = .PENDING) <;> simp

/-- The second coroutine by itself. -/
theorem replacePending_run (me : Int) (entered : Nat → Int) (requests : List (Int × Bytes)) (db : Database)
    (k : Int × Int) :
    ((replacePendingRequestsForCurrentUser me entered requests).run db).2.friends = db.friends ∧
    pending_requests ((replacePendingRequestsForCurrentUser me entered requests).run db).2 me k =
      if k.2 = me ∧ db.friends.find? k.1 = none then listed_request me entered requests k.1 else none := by
  rw [replacePendingRequestsForCurrentUser, Dao.run_bind]
  obtain ⟨hfriends, hpending⟩ := requests_entered requests.zipIdx ((clearPendingFor me).run db).2 k
  rw [clearPendingFor_pending, Option.or_none] at hpending
  exact ⟨hfriends, hpending⟩

end Requests

/-! ## Both at once -/

section Both

variable {me : Int} {entered : Nat → Int} {listed : List Friend} {requests : List (Int × Bytes)} {db : Database}

theorem friends_table_none_iff (uid : Int) :
    (friends_table listed).find? uid = none ↔ uid ∉ listed.map Friend.userId := by
  rw [find?_friends_table, List.find?_eq_none]
  simp

/-- One coroutine after the other leaves what it should. -/
theorem refreshed_in_turn : Refreshed me entered listed requests
    ((replacePendingRequestsForCurrentUser me entered requests).run ((replaceFriends listed).run db).2).2 := by
  have hrun := replacePending_run me entered requests ((replaceFriends listed).run db).2
  simp only [replaceFriends_run, friends_table_none_iff] at hrun
  rw [replaceFriends_run]
  exact ⟨fun uid => by rw [(hrun (0, 0)).1], fun k => (hrun k).2⟩

/-- Nobody who asks is a friend. -/
def NoFriends (requests : List (Int × Bytes)) (db : Database) : Prop := ∀ r ∈ requests, db.friends.find? r.1 = none

/-- A transaction of the first coroutine: it leaves those who ask no friends. -/
def Replaces (requests : List (Int × Bytes)) {β : Type} (o : Transaction β) : Prop :=
  OnFriends o ∧ ∀ db, NoFriends requests db → NoFriends requests (o.exec db).2

/-- A transaction of the second coroutine: it looks one of those who ask up, or changes requests. -/
def Requests (requests : List (Int × Bytes)) {β : Type} (o : Transaction β) : Prop :=
  OnRequests o ∨ ((∀ db, (o.exec db).2 = db) ∧ ∀ db db', NoFriends requests db → NoFriends requests db' →
    (o.exec db).1 = (o.exec db').1)

theorem replaceFriends_replaces (hnew : ∀ r ∈ requests, r.1 ∉ listed.map Friend.userId) :
    (replaceFriends listed).Always (Replaces requests) fun _ => True := by
  rw [replaceFriends, Program.always_bind]
  refine ⟨⟨⟨fun _ => ((), ∅), fun _ => rfl⟩, fun db h r _ => UMap.find?_empty _⟩, fun _ => ?_⟩
  split
  · refine ⟨⟨⟨fun t => ((), listed.foldl (fun t f => t.set f.userId f) t), fun _ => rfl⟩, fun db h r hr => ?_⟩,
      fun _ => trivial⟩
    -- whoever is entered has not asked
    have hset := UMap.find?_foldl_set Friend.userId id listed db.friends r.1
    have hnone : (listed.reverse.find? fun f => f.userId = r.1) = none := by
      have htable := (friends_table_none_iff r.1).mpr (hnew r hr)
      rwa [find?_friends_table] at htable
    rw [hnone, h r hr] at hset
    exact hset
  · exact trivial

theorem replacePending_requests (me : Int) (entered : Nat → Int) (requests : List (Int × Bytes)) :
    (replacePendingRequestsForCurrentUser me entered requests).Always (Requests requests) fun _ => True := by
  have hloop : ∀ rs : List ((Int × Bytes) × Nat), (∀ r ∈ rs, r.1 ∈ requests) →
      (rs.forM fun r => addPendingFriendRequest me (entered r.2) r.1.1 r.1.2).Always (Requests requests)
        fun _ => True := by
    intro rs
    induction rs with
    | nil => exact fun _ => trivial
    | cons r rs ih =>
      intro hsub
      have hcons : (r :: rs).forM (fun r => addPendingFriendRequest me (entered r.2) r.1.1 r.1.2) =
        addPendingFriendRequest me (entered r.2) r.1.1 r.1.2 >>= fun _ =>
          rs.forM fun r => addPendingFriendRequest me (entered r.2) r.1.1 r.1.2 := rfl
      have hr : r.1 ∈ requests := hsub r List.mem_cons_self
      rw [hcons, Program.always_bind, addPendingFriendRequest, Program.always_bind]
      refine ⟨.inr ⟨fun _ => rfl, fun db db' h h' => (h r.1 hr).trans (h' r.1 hr).symm⟩, fun friend => ?_⟩
      have hrest := ih fun x hx => hsub x (List.mem_cons_of_mem _ hx)
      cases friend with
      | some f => exact hrest
      | none =>
        exact ⟨.inl ⟨fun t => ((), t.set (r.1.1, me) ⟨r.1.1, me, r.1.2, entered r.2, .PENDING⟩), fun _ => rfl⟩,
          fun _ => hrest⟩
  rw [replacePendingRequestsForCurrentUser, Program.always_bind]
  exact ⟨.inl ⟨fun t => ((), t.erase_if fun _ r => r.toUserId = me && r.status = .PENDING), fun _ => rfl⟩,
    fun _ => hloop requests.zipIdx fun r hr => List.fst_mem_of_mem_zipIdx hr⟩

/-- The transactions of both commute as long as nobody who asks is a friend. -/
theorem commutes_of_strangers {β γ : Type} {o : Transaction β} {o' : Transaction γ} (ho : Replaces requests o)
    (ho' : Requests requests o') : Program.Commutes Transaction.exec (NoFriends requests) o o' := by
  rcases ho' with ho' | ⟨hstays, hanswers⟩
  · have hcomm := commutes_of_tables ho.1 ho'
    exact ⟨fun s _ => hcomm.left s trivial, fun s _ => hcomm.right s trivial, fun s _ => hcomm.state s trivial⟩
  · constructor
    · intro db _
      rw [hstays]
    · intro db h
      exact hanswers _ _ (ho.2 db h) h
    · intro db _
      rw [hstays, hstays]

/-- **When a refresh leaves what it should**, however its two coroutines run: exactly when nobody who asks is in the
list of friends, or was a friend on the phone before. -/
theorem refreshed_iff (me : Int) (entered : Nat → Int) (listed : List Friend) (requests : List (Int × Bytes))
    (db : Database) :
    (∀ turns, Refreshed me entered listed requests (Program.interleave Transaction.exec turns (replaceFriends listed)
      (replacePendingRequestsForCurrentUser me entered requests) db)) ↔
    ∀ r ∈ requests, r.1 ∉ listed.map Friend.userId ∧ db.friends.find? r.1 = none := by
  constructor
  · intro h r hr
    -- what should be left of the request
    obtain ⟨req, hreq⟩ : ∃ req, listed_request me entered requests r.1 = some req := by
      rw [← Option.isSome_iff_exists, listed_request, last_request, Option.isSome_map, List.find?_isSome]
      obtain ⟨i, hi, rfl⟩ := List.getElem_of_mem hr
      exact ⟨(requests[i], i), List.mem_reverse.mpr (List.mem_zipIdx_iff_getElem?.mpr (List.getElem?_eq_getElem hi)),
        decide_eq_true rfl⟩
    have hlisted : r.1 ∉ listed.map Friend.userId := by
      -- the requests are entered after the table has been emptied and before it is filled
      intro hmem
      have hfilled : listed ≠ [] := by
        rintro rfl
        cases hmem
      obtain ⟨n, hn⟩ := Program.exists_right_first (h := Transaction.exec) (insertFriends listed)
        (replacePendingRequestsForCurrentUser me entered requests) { db with friends := ∅ }
      have hrun := (replacePending_run me entered requests { db with friends := ∅ } (r.1, me)).2
      have hend := (h (true :: List.replicate n false)).pending (r.1, me)
      have hfirst : Program.interleave Transaction.exec (true :: List.replicate n false) (replaceFriends listed)
          (replacePendingRequestsForCurrentUser me entered requests) db =
          ((insertFriends listed).run ((replacePendingRequestsForCurrentUser me entered requests).run
            { db with friends := ∅ }).2).2 := by
        rw [replaceFriends, if_pos hfilled]
        exact hn
      rw [hfirst, if_neg (not_and_of_not_right _ (not_not.mpr hmem))] at hend
      rw [if_pos ⟨rfl, UMap.find?_empty _⟩, hreq] at hrun
      exact absurd (hrun.symm.trans hend) (by simp)
    refine ⟨hlisted, ?_⟩
    -- the requests are entered first
    by_contra hfriend
    obtain ⟨n, hn⟩ := Program.exists_right_first (h := Transaction.exec) (replaceFriends listed)
      (replacePendingRequestsForCurrentUser me entered requests) db
    have hrun := (replacePending_run me entered requests db (r.1, me)).2
    have hend := (h (List.replicate n false)).pending (r.1, me)
    have hlast := replaceFriends_run listed ((replacePendingRequestsForCurrentUser me entered requests).run db).2
    rw [Dao.run, Dao.run] at hlast
    rw [hn, hlast, if_pos ⟨rfl, hlisted⟩, hreq] at hend
    rw [if_neg (not_and_of_not_right _ hfriend)] at hrun
    exact absurd (hrun.symm.trans hend) (by simp)
  · intro h turns
    have hnew : ∀ r ∈ requests, r.1 ∉ listed.map Friend.userId := fun r hr => (h r hr).1
    have hkeeps : ∀ {γ : Type} (o : Transaction γ) db, Requests requests o → NoFriends requests db →
        NoFriends requests (o.exec db).2 := by
      rintro γ o db (⟨g, hg⟩ | ⟨hstays, -⟩) hdb
      · rw [hg]
        exact hdb
      · rw [hstays]
        exact hdb
    rw [Program.interleave_commutes (replaceFriends_replaces hnew) (replacePending_requests me entered requests)
      (fun o db ho hdb => ho.2 db hdb) hkeeps (fun _ _ => commutes_of_strangers) turns fun r hr => (h r hr).2]
    exact refreshed_in_turn

end Both

/-- **A request is lost**: user 2 was a friend, is none any more and has asked again; the requests are entered before
the table of friends is emptied. -/
theorem request_lost : ¬∀ me entered listed requests db turns, Refreshed me entered listed requests
    (Program.interleave Transaction.exec turns (replaceFriends listed)
      (replacePendingRequestsForCurrentUser me entered requests) db) := by
  intro claim
  have hpending := (claim 1 (fun _ => 2000) [] [(2, str "b")]
    { friends := (∅ : UMap Int Friend).set 2 ⟨2, str "b", false, 1000, 1000⟩ } [false, false]).pending (2, 1)
  exact absurd hpending (by decide)

end ChatApp.Room
