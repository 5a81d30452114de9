/-
`Friendships.lean` -- what each step does to friendships and requests.

A friendship is kept in `g_friends` and, with a database, in the table `friends`; a
request in `g_friend_requests` and in `friend_requests`. Only `FRIEND_REQUEST`,
`FRIEND_ACCEPT`, `FRIEND_DECLINE` and `UNFRIEND` change either, and `LOGIN` and
`GET_FRIENDS_LIST` copy requests from the database to memory. `FriendChange` says exactly
what each does to the four copies, so that a property of them is preserved by every
step when it is preserved by these changes.
-/
import ChatApp.Requester
import ChatApp.Sessions

set_option autoImplicit false

namespace ChatApp

open Prog PostgresPersistence handle_client

/-! ## The changes to the globals -/

section Graph

variable (a b x y : Int)

@[simp] theorem get_befriend (g : Friends) : ((befriend a b g).get x).get y =
    (decide ((x = a ∧ y = b) ∨ (x = b ∧ y = a)) || (g.get x).get y) := by
  unfold befriend
  by_cases hxa : x = a <;> by_cases hxb : x = b <;> by_cases hya : y = a <;>
    by_cases hyb : y = b <;> simp_all [UMap.get_update, UMap.get_set]

@[simp] theorem get_unfriend_pair (g : Friends) : ((unfriend_pair a b g).get x).get y =
    (!decide ((x = a ∧ y = b) ∨ (x = b ∧ y = a)) && (g.get x).get y) := by
  unfold unfriend_pair
  by_cases hxa : x = a <;> by_cases hxb : x = b <;> by_cases hya : y = a <;>
    by_cases hyb : y = b <;> simp_all [UMap.get_update, UMap.get_erase]

@[simp] theorem get_touch_pair (g : Friends) : (touch_pair a b g).get x = g.get x := by
  unfold touch_pair
  split <;> simp only [UMap.get_touch]

@[simp] theorem mem_forget (g : Pending) :
    y ∈ (forget a b g).get x ↔ y ∈ g.get x ∧ ¬(x = b ∧ y = a) := by
  unfold forget
  rw [UMap.get_update]
  split
  · next h => simp [h]
  · next h => simp [h]

@[simp] theorem mem_add_missing (vec froms : List Int) :
    y ∈ add_missing vec froms ↔ y ∈ vec ∨ y ∈ froms := by
  induction froms generalizing vec with
  | nil => simp [add_missing]
  | cons from_ froms ih =>
    rw [add_missing, List.foldl_cons]
    have hstep := ih (if from_ ∈ vec then vec else vec ++ [from_])
    rw [add_missing] at hstep
    rw [hstep]
    split
    · next h =>
      rw [List.mem_cons]
      constructor
      · exact fun hy => hy.imp_right .inr
      · rintro (hy | rfl | hy)
        · exact .inl hy
        · exact .inl h
        · exact .inr hy
    · rw [List.mem_append, List.mem_singleton, List.mem_cons, or_assoc]

theorem nodup_add_missing {vec : List Int} (froms : List Int) (h : vec.Nodup) :
    (add_missing vec froms).Nodup := by
  unfold add_missing
  induction froms generalizing vec with
  | nil => exact h
  | cons a froms ih =>
    rw [List.foldl_cons]
    refine ih ?_
    split
    · exact h
    · next ha => exact h.append (List.nodup_singleton a) (List.disjoint_singleton.mpr ha)

/-- What is added is at most all of it. -/
theorem length_add_missing_le (vec froms : List Int) :
    (add_missing vec froms).length ≤ vec.length + froms.length := by
  unfold add_missing
  induction froms generalizing vec with
  | nil => exact Nat.le_refl _
  | cons a froms ih =>
    rw [List.foldl_cons, List.length_cons]
    refine (ih _).trans ?_
    split
    · omega
    · rw [List.length_append, List.length_singleton]
      omega

end Graph

/-! ## The rows of pending requests -/

section Rows

variable {d d' : Tables} (a b x y : Int)

theorem isPending_iff : d.isPending a b = true ↔
    ∃ r ∈ d.friend_requests, r.from_user_id = a ∧ r.to_user_id = b ∧ r.status = .PENDING := by
  simp [Tables.isPending, and_assoc]

theorem isPending_of_same (h : d'.friend_requests = d.friend_requests) :
    d'.isPending a b = d.isPending a b := by
  rw [Tables.isPending, Tables.isPending, h]

theorem isPending_delete (h : d'.friend_requests = (delete_friend_request x y d).2) :
    d'.isPending a b = true ↔ d.isPending a b = true ∧ ¬(a = x ∧ b = y) := by
  rw [isPending_iff, isPending_iff, h, delete_friend_request]
  constructor
  · rintro ⟨r, hr, rfl, rfl, hstatus⟩
    obtain ⟨hr, hne⟩ := List.mem_filter.mp hr
    refine ⟨⟨r, hr, rfl, rfl, hstatus⟩, fun heq => ?_⟩
    simp [heq.1, heq.2] at hne
  · rintro ⟨⟨r, hr, rfl, rfl, hstatus⟩, hne⟩
    refine ⟨r, List.mem_filter.mpr ⟨hr, ?_⟩, rfl, rfl, hstatus⟩
    simpa [← not_and_or] using hne

theorem isPending_upsert (hok : (upsert_friend_request x y d).1 = some ())
    (h : d'.friend_requests = (upsert_friend_request x y d).2) :
    d'.isPending a b = true ↔ d.isPending a b = true ∨ (a = x ∧ b = y) := by
  rw [isPending_iff, isPending_iff, h]
  unfold upsert_friend_request at hok ⊢
  split at hok
  · cases hok
  next hxy =>
  rw [if_neg hxy]
  split at hok
  · next hany =>
    -- the row is there already, and becomes pending
    rw [if_pos hany]
    constructor
    · rintro ⟨r, hr, rfl, rfl, hstatus⟩
      obtain ⟨r₀, hr₀, rfl⟩ := List.mem_map.mp hr
      split at hstatus
      · next heq =>
        rw [if_pos heq]
        exact .inr (by simpa using heq)
      · next hne => exact .inl ⟨r₀, hr₀, by simp [hne], by simp [hne], hstatus⟩
    · rintro (⟨r, hr, rfl, rfl, hstatus⟩ | ⟨rfl, rfl⟩)
      · refine ⟨_, List.mem_map_of_mem hr, ?_⟩
        split <;> simp [hstatus]
      · obtain ⟨r, hr, heq⟩ := List.any_eq_true.mp hany
        refine ⟨_, List.mem_map_of_mem hr, ?_⟩
        rw [if_pos heq]
        simpa using heq
  · next hany =>
    rw [if_neg hany]
    split at hok
    · next husers =>
      rw [if_pos husers]
      constructor
      · rintro ⟨r, hr, rfl, rfl, hstatus⟩
        rcases List.mem_append.mp hr with hr | hr
        · exact .inl ⟨r, hr, rfl, rfl, hstatus⟩
        · rw [List.mem_singleton.mp hr]
          exact .inr ⟨rfl, rfl⟩
      · rintro (⟨r, hr, h⟩ | ⟨rfl, rfl⟩)
        · exact ⟨r, List.mem_append_left _ hr, h⟩
        · exact ⟨_, List.mem_append_right _ (List.mem_singleton.mpr rfl), rfl, rfl, rfl⟩
    · cases hok

end Rows

/-! ## The four copies -/

/-- `b` has a request of `a` in memory. -/
def ServerState.hasRequest (s : ServerState) (a b : Int) : Prop := a ∈ s.g_friend_requests.get b

/-- Friendships and requests are as they were, in memory and in the database. -/
structure FriendsSame (w w' : World) : Prop where
  friends : ∀ a b, w'.mem.isFriend a b = w.mem.isFriend a b
  requests : ∀ a b, w'.mem.hasRequest a b ↔ w.mem.hasRequest a b
  edges : w'.db.tables.friends = w.db.tables.friends
  rows : w'.db.tables.friend_requests = w.db.tables.friend_requests

/-- `me` has asked `x`: memory has the request, and the database its row. -/
structure Requested (pg : Bool) (me x : Int) (w w' : World) : Prop where
  distinct : x ≠ me
  friends : ∀ a b, w'.mem.isFriend a b = w.mem.isFriend a b
  strangers : w.mem.isFriend me x = false ∧ w.mem.isFriend x me = false
  requests : ∀ a b, w'.mem.hasRequest a b ↔ w.mem.hasRequest a b ∨ (a = me ∧ b = x)
  edges : w'.db.tables.friends = w.db.tables.friends
  inserted : pg = true → (upsert_friend_request me x w.db.tables).1 = some ()
  rows : w'.db.tables.friend_requests =
    if pg then (upsert_friend_request me x w.db.tables).2 else w.db.tables.friend_requests

/-- `me` has accepted `other`: both copies have the friendship, and the request of `other`
is gone from both -- but of a request the other way only memory's copy is. -/
structure Accepted (pg : Bool) (env : Env) (me other : Int) (w w' : World) : Prop where
  taken : pg = true → ((accept_friend_request other me).run env w).1 = true
  friends : ∀ a b, w'.mem.isFriend a b =
    (decide ((a = me ∧ b = other) ∨ (a = other ∧ b = me)) || w.mem.isFriend a b)
  requests : ∀ a b, w'.mem.hasRequest a b ↔
    w.mem.hasRequest a b ∧ ¬((a = other ∧ b = me) ∨ (a = me ∧ b = other))
  inserted : pg = true → (insert_pair other me w.db.tables).1 = some ()
  edges : w'.db.tables.friends =
    if pg then (insert_pair other me w.db.tables).2 else w.db.tables.friends
  rows : w'.db.tables.friend_requests =
    if pg then (delete_friend_request other me w.db.tables).2 else w.db.tables.friend_requests

/-- `me` has declined `other`. The row stays when it cannot be deleted. -/
structure Declined (pg : Bool) (env : Env) (me other : Int) (w w' : World) : Prop where
  friends : ∀ a b, w'.mem.isFriend a b = w.mem.isFriend a b
  requests : ∀ a b, w'.mem.hasRequest a b ↔ w.mem.hasRequest a b ∧ ¬(a = other ∧ b = me)
  edges : w'.db.tables.friends = w.db.tables.friends
  rows : w'.db.tables.friend_requests = if pg ∧ env.sql_fails w.ticks = false then
    (delete_friend_request other me w.db.tables).2 else w.db.tables.friend_requests

/-- `me` has ended the friendship with `other`, in memory. -/
structure Unfriended (me other : Int) (w w' : World) : Prop where
  friends : ∀ a b, w'.mem.isFriend a b =
    (!decide ((a = me ∧ b = other) ∨ (a = other ∧ b = me)) && w.mem.isFriend a b)
  requests : ∀ a b, w'.mem.hasRequest a b ↔
    w.mem.hasRequest a b ∧ ¬((a = other ∧ b = me) ∨ (a = me ∧ b = other))
  edges : w'.db.tables.friends = w.db.tables.friends
  rows : w'.db.tables.friend_requests = w.db.tables.friend_requests

/-- Requests to `me` that the database holds are now in memory as well. -/
structure Imported (pg : Bool) (me : Int) (w w' : World) : Prop where
  database : pg = true
  friends : ∀ a b, w'.mem.isFriend a b = w.mem.isFriend a b
  requests : ∃ froms : List Int, (∀ a ∈ froms, w.db.tables.isPending a me = true) ∧
    ∀ a b, w'.mem.hasRequest a b ↔ w.mem.hasRequest a b ∨ (a ∈ froms ∧ b = me)
  edges : w'.db.tables.friends = w.db.tables.friends
  rows : w'.db.tables.friend_requests = w.db.tables.friend_requests

/-- The fields the four copies are kept in. -/
abbrev friend_fields : List Field :=
  [.var .g_friends, .var .g_friend_requests, .table .friends, .table .friend_requests]

theorem friendsSame_of_frame {w w' : World} (h : ∀ x ∈ friend_fields, x.Same w w') :
    FriendsSame w w' where
  friends a b := congrArg (fun g : Friends => (g.get a).get b) (h (.var .g_friends) (by simp))
  requests a b := by
    have hr : w'.mem.g_friend_requests = w.mem.g_friend_requests :=
      h (.var .g_friend_requests) (by simp)
    rw [ServerState.hasRequest, ServerState.hasRequest, hr]
  edges := h (.table .friends) (by simp)
  rows := h (.table .friend_requests) (by simp)

theorem FriendsSame.trans {w w' w'' : World} (h : FriendsSame w w') (h' : FriendsSame w' w'') :
    FriendsSame w w'' :=
  ⟨fun a b => (h'.friends a b).trans (h.friends a b),
    fun a b => (h'.requests a b).trans (h.requests a b), h'.edges.trans h.edges,
    h'.rows.trans h.rows⟩

theorem Requested.trans {pg : Bool} {me x : Int} {w w' w'' : World}
    (h : Requested pg me x w w') (h' : FriendsSame w' w'') : Requested pg me x w w'' :=
  ⟨h.distinct, fun a b => (h'.friends a b).trans (h.friends a b), h.strangers,
    fun a b => (h'.requests a b).trans (h.requests a b), h'.edges.trans h.edges, h.inserted,
    h'.rows.trans h.rows⟩

theorem Imported.trans {pg : Bool} {me : Int} {w w' w'' : World} (h : Imported pg me w w')
    (h' : FriendsSame w' w'') : Imported pg me w w'' := by
  obtain ⟨froms, hfroms, hrequests⟩ := h.requests
  exact ⟨h.database, fun a b => (h'.friends a b).trans (h.friends a b),
    ⟨froms, hfroms, fun a b => (h'.requests a b).trans (hrequests a b)⟩, h'.edges.trans h.edges,
    h'.rows.trans h.rows⟩

theorem Imported.of_same {pg : Bool} {me : Int} {w w' w'' : World} (h : FriendsSame w w')
    (h' : Imported pg me w' w'') : Imported pg me w w'' := by
  obtain ⟨froms, hfroms, hrequests⟩ := h'.requests
  refine ⟨h'.database, fun a b => (h'.friends a b).trans (h.friends a b),
    ⟨froms, fun a ha => ?_, fun a b => ?_⟩, h'.edges.trans h.edges, h'.rows.trans h.rows⟩
  · have hpending := hfroms a ha
    rw [Tables.isPending, h.rows] at hpending
    exact hpending
  · rw [hrequests a b, h.requests a b]

/-- A lookup `g_friends[a]` changes nothing that is kept. -/
theorem friendsSame_touch {w w' : World} (hg : ∀ a, w'.mem.g_friends.get a = w.mem.g_friends.get a)
    (h : ∀ x ∈ [Field.var .g_friend_requests, .table .friends, .table .friend_requests],
      x.Same w w') : FriendsSame w w' where
  friends a b := congrArg (UMap.get · b) (hg a)
  requests a b := by
    have hr : w'.mem.g_friend_requests = w.mem.g_friend_requests :=
      h (.var .g_friend_requests) (by simp)
    rw [ServerState.hasRequest, ServerState.hasRequest, hr]
  edges := h (.table .friends) (by simp)
  rows := h (.table .friend_requests) (by simp)

theorem AnsweredFor.friendsSame {pg : Bool} {env : Env} {fd rid : Int} {c : Command} {w w' : World}
    (h : AnsweredFor pg env fd rid c w w') : FriendsSame w w' := by
  refine friendsSame_touch h.friends fun x hx => h.same x ?_
  simp only [List.mem_cons, List.not_mem_nil, or_false] at hx
  rcases hx with rfl | rfl | rfl <;> simp

/-! ## The cases that change them -/

section Cases

variable {pg : Bool} {env : Env} {w : World} (fd me : Int)

theorem send_friend_request_ensures (a b : Int) (htx : w.db.tx = none) :
    Ensures env w (send_friend_request a b) fun ok w' =>
      (ok = true ∧ (upsert_friend_request a b w.db.tables).1 = some () ∧
        w'.db.tables.friend_requests = (upsert_friend_request a b w.db.tables).2) ∨
      (ok = false ∧ w'.db.tables.friend_requests = w.db.tables.friend_requests) := by
  have hrefused : (upsert_friend_request a b w.db.tables).1 = none →
      (upsert_friend_request a b w.db.tables).2 = w.db.tables.friend_requests := by
    unfold upsert_friend_request
    split
    · exact fun _ => rfl
    split
    · exact fun h => (nomatch h)
    split
    · exact fun h => (nomatch h)
    · exact fun _ => rfl
  refine (logged_ensures a b htx hrefused).mono fun ok w' h => ?_
  obtain ⟨-, ⟨rfl, ⟨u, hq⟩, htables⟩ | ⟨rfl, htables, -⟩⟩ := h
  · exact .inl ⟨rfl, hq, by rw [htables]; rfl⟩
  · exact .inr ⟨rfl, by rw [htables]⟩

theorem store_request_db_ensures (x : Int) (htx : w.db.tx = none) :
    Ensures env w (store_request_db pg me x) fun r w' =>
      (r.isSome = true ∧ w'.db.tables.friend_requests = w.db.tables.friend_requests) ∨
      (r = none ∧ (pg = true → (upsert_friend_request me x w.db.tables).1 = some ()) ∧
        w'.db.tables.friend_requests = if pg then (upsert_friend_request me x w.db.tables).2
          else w.db.tables.friend_requests) := by
  cases pg with
  | false => exact .inr ⟨rfl, fun h => (nomatch h), rfl⟩
  | true =>
    refine Ensures.bind (R := fun _ w₁ => w₁.db = w.db) ?_ fun pending w₁ h₁ => ?_
    · exact ((select_of_none _ htx).bind fun _ _ h => ensures_pure h.1).lift _
    refine ensures_ite (fun _ => ensures_pure (.inl ⟨rfl, by rw [h₁]⟩)) fun _ => ?_
    refine (send_friend_request_ensures me x (by rw [h₁]; exact htx)).bind fun sent w₂ h₂ => ?_
    rw [h₁] at h₂
    rcases h₂ with ⟨rfl, hinserted, hrows⟩ | ⟨rfl, hrows⟩
    · exact ensures_pure (.inr ⟨rfl, fun _ => hinserted, hrows⟩)
    · exact ensures_pure (.inl ⟨rfl, hrows⟩)

theorem store_request_ensures (x : Int) (hx : x ≠ me) (htx : w.db.tx = none) :
    Ensures env w (store_request pg me x) fun _ w' =>
      FriendsSame w w' ∨ Requested pg me x w w' := by
  refine Ensures.locked (ensures_read (ensures_modify ?_))
  have htouch : ∀ a, (touch_pair me x w.mem.g_friends).get a = w.mem.g_friends.get a :=
    fun a => get_touch_pair ..
  refine ensures_ite (fun _ => ensures_pure (.inl ?_)) fun hstrangers => ?_
  · exact friendsSame_touch htouch (by simp [Field.Same, Var.get, Var.modify])
  refine (((store_request_db_ensures me x (by exact htx)).and (ensures_frame _)).lift _).bind
    fun refused w₁ h₁ => ?_
  obtain ⟨hdb, hframe⟩ := h₁
  have hfriends : ∀ a b, w₁.mem.isFriend a b = w.mem.isFriend a b := by
    intro a b
    have hg : w₁.mem.g_friends = touch_pair me x w.mem.g_friends :=
      hframe (.var .g_friends) (by simp)
    rw [ServerState.isFriend, hg, htouch]
    rfl
  have hrequests : w₁.mem.g_friend_requests = w.mem.g_friend_requests :=
    hframe (.var .g_friend_requests) (by simp)
  have hedges : w₁.db.tables.friends = w.db.tables.friends := hframe (.table .friends) (by simp)
  rcases hdb with ⟨hsome, hrows⟩ | ⟨rfl, hinserted, hrows⟩
  · refine ensures_ite (fun _ => ensures_pure (.inl ?_)) fun hnone => absurd hsome hnone
    refine ⟨hfriends, fun a b => ?_, hedges, hrows⟩
    rw [ServerState.hasRequest, hrequests]
    rfl
  · refine ensures_ite (fun h => absurd h Bool.false_ne_true) fun _ =>
      ensures_read (ensures_modify ?_)
    refine ensures_pure (.inr ⟨hx, hfriends, ?_, fun a b => ?_, hedges, hinserted, hrows⟩)
    · simpa using hstrangers
    · show a ∈ (w₁.mem.g_friend_requests.update x _).get b ↔ a ∈ w.mem.g_friend_requests.get b ∨ _
      rw [hrequests, UMap.get_update]
      split
      · next h => simp [h]
      · next h => simp [h]

theorem friend_request_ensures (target : Target) (htx : w.db.tx = none) :
    Ensures env w (friend_request pg fd me target) fun _ w' =>
      FriendsSame w w' ∨
        ∃ x, ((find_target target).run env w).1 = .ok x ∧ Requested pg me x w w' := by
  refine Ensures.bind (R := fun found w₁ => found = ((find_target target).run env w).1 ∧ w₁ = w)
    ?_ fun found w₁ h₁ => ?_
  · refine Ensures.lift ?_ _
    cases target <;> exact ⟨rfl, rfl⟩
  obtain ⟨hfound, rfl⟩ := h₁
  have hreply : ∀ {S : List Field} (w₁ : World) (type : MessageType) (e : Bytes) (h : .out ∈ S),
      Ensures env w₁ (reply fd type e (u32 me) h : Prog S Unit) fun _ w' => FriendsSame w₁ w' :=
    fun w₁ _ _ _ => ⟨fun _ _ => rfl, fun _ _ => Iff.rfl, rfl, rfl⟩
  cases found with
  | error e => exact (hreply _ _ _ _).bind fun _ w' h => ensures_pure (.inl h)
  | ok x =>
    suffices hbody : Ensures env w₁ _ fun (_ : Unit) w' =>
        FriendsSame w₁ w' ∨ Requested pg me x w₁ w' from
      hbody.bind fun _ w' h => ensures_pure (h.imp_right fun h => ⟨x, hfound.symm, h⟩)
    refine ensures_ite (fun _ => ?_) fun hx => ?_
    · exact (hreply _ _ _ _).mono fun _ w' h => .inl h
    refine ((store_request_ensures me x hx htx).lift _).bind fun refused w₂ h₂ => ?_
    -- what follows only sends
    have hrest : ∀ w', FriendsSame w₂ w' → FriendsSame w₁ w' ∨ Requested pg me x w₁ w' :=
      fun w' h => h₂.imp (FriendsSame.trans · h) (Requested.trans · h)
    refine ensures_ite (fun _ => ?_) fun _ => ?_
    · exact (hreply _ _ _ _).mono fun _ w' h => hrest w' h
    · refine ensures_part fun _ w₃ h₃ => ?_
      refine (hreply _ _ _ _).mono fun _ w' h => hrest w' (FriendsSame.trans ?_ h)
      refine friendsSame_of_frame fun y hy => h₃ y ?_
      rintro hout
      cases List.mem_singleton.mp hout
      exact absurd hy (by decide)

theorem accept_in_memory_ensures (other : Int) (ok : Bool) :
    Ensures env w (accept_in_memory fd me other ok) fun _ w' => w'.db = w.db ∧
      if ok then w'.mem.g_friends = befriend me other w.mem.g_friends ∧
        w'.mem.g_friend_requests = forget me other (forget other me w.mem.g_friend_requests)
      else w'.mem = w.mem := by
  cases ok with
  | false => exact ⟨rfl, rfl⟩
  | true => exact ⟨rfl, rfl, rfl⟩

theorem friend_accept_ensures (other : Int) (htx : w.db.tx = none) :
    Ensures env w (friend_accept pg fd me other) fun _ w' =>
      FriendsSame w w' ∨ Accepted pg env me other w w' := by
  suffices hbody : Ensures env w _ fun (_ : Unit) w' =>
      FriendsSame w w' ∨ Accepted pg env me other w w' from
    hbody.bind fun _ w' h => ensures_pure h
  refine Ensures.locked ?_
  -- what the change to the two maps means for those who read them
  have hfriends : ∀ (w' : World), w'.mem.g_friends = befriend me other w.mem.g_friends →
      ∀ a b, w'.mem.isFriend a b =
        (decide ((a = me ∧ b = other) ∨ (a = other ∧ b = me)) || w.mem.isFriend a b) := by
    intro w' h a b
    rw [ServerState.isFriend, h, get_befriend]
    rfl
  have hrequests : ∀ (w' : World), w'.mem.g_friend_requests =
      forget me other (forget other me w.mem.g_friend_requests) →
      ∀ a b, w'.mem.hasRequest a b ↔
        w.mem.hasRequest a b ∧ ¬((a = other ∧ b = me) ∨ (a = me ∧ b = other)) := by
    intro w' h a b
    rw [ServerState.hasRequest, h, mem_forget, mem_forget, ServerState.hasRequest]
    tauto
  cases pg with
  | false =>
    refine ((accept_in_memory_ensures fd me other true).lift (by decide)).mono
      fun _ w' h => .inr ?_
    obtain ⟨hdb, hg, hr⟩ := h
    exact ⟨fun h => absurd h Bool.false_ne_true, hfriends w' hg, hrequests w' hr,
      fun h => absurd h Bool.false_ne_true,
      by rw [hdb]; rfl, by rw [hdb]; rfl⟩
  | true =>
    refine ((((accept_friend_request_ensures other me htx).and (ensures_frame _)).and
      (Q := fun ok _ => ok = ((accept_friend_request other me).run env w).1) rfl).lift _).bind
      fun ok w₁ h₁ => ?_
    obtain ⟨⟨⟨-, hdb⟩, hframe⟩, hok⟩ := h₁
    have hg₁ : w₁.mem.g_friends = w.mem.g_friends := hframe (.var .g_friends) (by simp [all_tables])
    have hr₁ : w₁.mem.g_friend_requests = w.mem.g_friend_requests :=
      hframe (.var .g_friend_requests) (by simp [all_tables])
    refine ((accept_in_memory_ensures fd me other ok).lift _).mono fun _ w' h => ?_
    obtain ⟨hdb', hmem⟩ := h
    rcases hdb with ⟨rfl, hinserted, htables⟩ | ⟨rfl, htables, -⟩
    · obtain ⟨hg, hr⟩ := hmem
      rw [hg₁] at hg
      rw [hr₁] at hr
      refine .inr ⟨fun _ => hok.symm, hfriends w' hg, hrequests w' hr, fun _ => hinserted, ?_, ?_⟩
      · rw [hdb', htables]
        rfl
      · rw [hdb', htables]
        rfl
    · refine .inl ⟨fun a b => ?_, fun a b => ?_, ?_, ?_⟩
      · rw [ServerState.isFriend, show w'.mem = w₁.mem from hmem, hg₁]
        rfl
      · rw [ServerState.hasRequest, show w'.mem = w₁.mem from hmem, hr₁]
        rfl
      · rw [hdb', htables]
      · rw [hdb', htables]

theorem decline_friend_request_ensures (a b : Int) (htx : w.db.tx = none) :
    Ensures env w (decline_friend_request a b) fun _ w' => w'.db.tables.friend_requests =
      if env.sql_fails w.ticks = false then (delete_friend_request a b w.db.tables).2
        else w.db.tables.friend_requests := by
  refine (execute_of_none _ _ _ htx).bind fun r w₁ h₁ => ?_
  rcases h₁ with ⟨hfails, rfl, hdb⟩ | ⟨hfails, rfl, hdb⟩
  · exact ensures_pure (by rw [hdb, if_neg (by simp [hfails])])
  · refine ((log_activity_ensures _ _ (by rw [hdb])).lift _).bind fun _ w₂ h₂ => ensures_pure ?_
    rw [h₂, hdb, if_pos hfails]
    rfl

theorem friend_decline_ensures (other : Int) (htx : w.db.tx = none) :
    Ensures env w (friend_decline pg fd me other) fun _ w' => Declined pg env me other w w' := by
  suffices hbody : Ensures env w _ fun (_ : Unit) w' => Declined pg env me other w w' from
    hbody.bind fun _ w' h => ensures_pure h
  refine Ensures.locked (Ensures.bind (R := fun _ w₁ =>
    (∀ x ∈ [Field.var .g_friends, .var .g_friend_requests, .table .friends], x.Same w w₁) ∧
    w₁.db.tables.friend_requests = if pg ∧ env.sql_fails w.ticks = false then
      (delete_friend_request other me w.db.tables).2 else w.db.tables.friend_requests)
    (ensures_when (fun hpg => ?_) fun hpg => ?_) fun _ w₁ h₁ => ensures_modify ?_)
  · refine (((decline_friend_request_ensures other me htx).and (ensures_frame _)).lift _).bind
      fun _ w₁ h₁ => ensures_pure ⟨fun x hx => h₁.2 x ?_, ?_⟩
    · simp only [List.mem_cons, List.not_mem_nil, or_false] at hx
      rcases hx with rfl | rfl | rfl <;> simp
    · simp only [hpg, true_and]
      exact h₁.1
  · exact ⟨fun x _ => Field.Same.refl x w, by simp [hpg]⟩
  · obtain ⟨hframe, hrows⟩ := h₁
    have hg : w₁.mem.g_friends = w.mem.g_friends := hframe (.var .g_friends) (by simp)
    have hr : w₁.mem.g_friend_requests = w.mem.g_friend_requests :=
      hframe (.var .g_friend_requests) (by simp)
    refine ⟨fun a b => ?_, fun a b => ?_, hframe (.table .friends) (by simp), hrows⟩
    · show (w₁.mem.g_friends.get a).get b = _
      rw [hg]
      rfl
    · show a ∈ (forget other me w₁.mem.g_friend_requests).get b ↔ _
      rw [mem_forget, hr, ServerState.hasRequest]
      tauto

theorem unfriend_ensures (other : Int) :
    Ensures env w (unfriend fd me other) fun _ w' => Unfriended me other w w' := by
  refine ⟨fun a b => ?_, fun a b => ?_, rfl, rfl⟩
  · exact get_unfriend_pair me other a b w.mem.g_friends
  · show a ∈ (forget me other (forget other me w.mem.g_friend_requests)).get b ↔ _
    rw [mem_forget, mem_forget, ServerState.hasRequest]
    tauto

/-- A query answers from the tables as they are, or not at all. -/
theorem select_answer {S : List Field} {β : Type} (q : Tables → β) :
    Ensures env w (select q : Prog S (Option β)) fun r _ => r = none ∨ r = some (q w.db.tables) := by
  have h : ∀ fails, (Database.select q fails w.db).1 = none ∨
      (Database.select q fails w.db).1 = some (q w.db.tables) := by
    intro fails
    unfold Database.select
    split
    · exact .inl rfl
    split
    · exact .inl rfl
    · exact .inr rfl
  exact h _

theorem get_pending_requests_ensures (uid : Int) :
    Ensures env w (get_pending_requests uid) fun rows _ =>
      ∀ r ∈ rows, w.db.tables.isPending r.from_user_id uid = true := by
  refine (select_answer _).bind fun res w₁ hres => ensures_pure fun r hr => ?_
  rcases hres with rfl | rfl
  · exact absurd hr List.not_mem_nil
  · rw [Option.getD_some, Tables.pendingTo, List.mem_reverse, List.mem_filter] at hr
    exact List.any_eq_true.mpr ⟨r, hr.1, by simpa using hr.2⟩

/-- Adding requests that the database holds to those of `me` is an import. -/
theorem imported_of_update {w₁ : World} (froms : List Int) {f : List Int → List Int}
    (hsame : FriendsSame w w₁) (hfroms : ∀ a ∈ froms, w.db.tables.isPending a me = true)
    (hf : ∀ a, a ∈ f (w₁.mem.g_friend_requests.get me) ↔
      a ∈ w₁.mem.g_friend_requests.get me ∨ a ∈ froms) :
    Imported true me w { w₁ with
      mem := Var.modify .g_friend_requests (fun g => g.update me f) w₁.mem } := by
  refine ⟨rfl, hsame.friends, ⟨froms, hfroms, fun a b => ?_⟩, hsame.edges, hsame.rows⟩
  rw [← hsame.requests]
  show a ∈ (w₁.mem.g_friend_requests.update me f).get b ↔ a ∈ w₁.mem.g_friend_requests.get b ∨ _
  rw [UMap.get_update]
  split
  · next h => rw [hf a, h]; simp
  · next h => simp [h]

theorem login_pending_ensures (uid : Int) :
    Ensures env w (login_pending pg uid) fun _ w' => FriendsSame w w' ∨ Imported pg uid w w' := by
  cases pg with
  | false => exact .inl ⟨fun _ _ => rfl, fun _ _ => Iff.rfl, rfl, rfl⟩
  | true =>
    refine (((get_pending_requests_ensures uid).and (ensures_frame _)).lift _).bind
      fun rows w₁ h₁ => ?_
    have hsame : FriendsSame w w₁ := friendsSame_of_frame fun x _ => h₁.2 x (by simp)
    refine Ensures.bind (R := fun _ w' => FriendsSame w w' ∨ Imported true uid w w')
      (ensures_when (fun _ => .inr ?_) fun _ => .inl hsame) fun _ w' h => ensures_pure h
    refine imported_of_update uid (rows.map FriendRequestRow.from_user_id) hsame
      (fun a ha => ?_) fun a => mem_add_missing ..
    obtain ⟨r, hr, rfl⟩ := List.mem_map.mp ha
    exact h₁.1 r hr

theorem merge_pending_ensures (inMemory : List Int)
    (hmem : inMemory = w.mem.g_friend_requests.get me) :
    Ensures env w (merge_pending pg me inMemory) fun _ w' => FriendsSame w w' ∨ Imported pg me w w' := by
  cases pg with
  | false => exact .inl ⟨fun _ _ => rfl, fun _ _ => Iff.rfl, rfl, rfl⟩
  | true =>
    refine (((get_pending_requests_ensures me).and (ensures_frame _)).lift _).bind
      fun rows w₁ h₁ => ?_
    have hsame : FriendsSame w w₁ := friendsSame_of_frame fun x _ => h₁.2 x (by simp)
    have hr : w₁.mem.g_friend_requests = w.mem.g_friend_requests :=
      h₁.2 (.var .g_friend_requests) (by simp)
    refine Ensures.bind (R := fun _ w' => FriendsSame w w' ∨ Imported true me w w')
      (Ensures.locked (.inr ?_)) fun _ w' h => ensures_pure h
    refine imported_of_update me (rows.map FriendRequestRow.from_user_id) hsame
      (fun a ha => ?_) fun a => ?_
    · obtain ⟨r, hr, rfl⟩ := List.mem_map.mp ha
      exact h₁.1 r hr
    · rw [mem_add_missing, mem_add_missing, hmem, hr]
      tauto

theorem notify_ensures (uid : Int) (online : Bool) :
    Ensures env w (notify_friends_status_change uid online) fun _ w' =>
      ∀ a, w'.mem.g_friends.get a = w.mem.g_friends.get a := by
  refine Ensures.bind (R := fun _ w₁ => ∀ a, w₁.mem.g_friends.get a = w.mem.g_friends.get a)
    (Ensures.locked (ensures_modify (fun a => UMap.get_touch ..))) fun friends w₁ h₁ => ?_
  refine Prog.run_forM env w₁ (I := fun _ w₂ => ∀ a, w₂.mem.g_friends.get a = w.mem.g_friends.get a)
    h₁ fun done fid w₂ _ h₂ => ?_
  have hbody : Ensures env w₂ (find_fd fid >>= fun fd => Prog.when (fd ≠ -1)
      (reply fd (if online then .USER_ONLINE else .USER_OFFLINE)
        (serialize_kv [(str "userId", to_string uid)]) (u32 uid)) : Prog [.var .g_friends, .out] Unit)
      fun _ w' => w'.mem = w₂.mem := by
    refine Ensures.bind (R := fun _ w' => w'.mem = w₂.mem) (Ensures.locked rfl) fun fd w₃ h₃ => ?_
    exact ensures_when (fun _ => h₃) fun _ => h₃
  intro a
  rw [← h₂ a]
  exact congrArg (fun s : ServerState => s.g_friends.get a) hbody

theorem go_offline_friends : Ensures env w (go_offline me) fun _ w' => FriendsSame w w' := by
  refine Ensures.bind (R := fun _ w₁ => FriendsSame w w₁)
    (Ensures.locked (ensures_when (fun _ => ?_) fun _ => ?_)) fun _ w₁ h₁ => ?_
  · exact ⟨fun _ _ => rfl, fun _ _ => Iff.rfl, rfl, rfl⟩
  · exact ⟨fun _ _ => rfl, fun _ _ => Iff.rfl, rfl, rfl⟩
  · refine ensures_when (fun _ => ?_) fun _ => h₁
    refine ((notify_ensures me false).and (ensures_frame _)).lift _ |>.mono fun _ w' h => ?_
    exact h₁.trans (friendsSame_touch h.1 fun x hx => h.2 x (by
      simp only [List.mem_cons, List.not_mem_nil, or_false] at hx
      rcases hx with rfl | rfl | rfl <;> simp))

theorem end_connection_friends (fd : Int) : FriendsSame w (end_connection env fd w) := by
  have h : Ensures env w (cleanup fd (w.session fd)) fun _ w' => FriendsSame w w' := by
    refine ((go_offline_friends (w.session fd)).lift _).bind fun _ w₁ h₁ => ?_
    exact h₁.trans ⟨fun _ _ => rfl, fun _ _ => Iff.rfl, rfl, rfl⟩
  exact h

theorem get_friends_list_ensures :
    Ensures env w (get_friends_list pg fd me) fun _ w' => FriendsSame w w' ∨ Imported pg me w w' := by
  refine Ensures.bind (R := fun found w₁ => FriendsSame w w₁ ∧
    found.2 = w₁.mem.g_friend_requests.get me) (Ensures.locked (ensures_modify ?_))
    fun found w₁ h₁ => ?_
  · exact ⟨friendsSame_touch (fun a => UMap.get_touch ..) (by simp [Field.Same, Var.get, Var.modify]),
      rfl⟩
  obtain ⟨items, inMemory⟩ := found
  obtain ⟨hsame, hmem⟩ := h₁
  refine ((merge_pending_ensures me inMemory hmem).lift _).bind fun froms w₂ h₂ => ?_
  refine ensures_part fun requests w₃ h₃ => ?_
  have hlast : FriendsSame w₂ w₃ := friendsSame_of_frame fun x _ => h₃ x (by simp)
  refine Ensures.mono (R := fun _ w' => FriendsSame w₃ w')
    ⟨fun _ _ => rfl, fun _ _ => Iff.rfl, rfl, rfl⟩ fun _ w' h => ?_
  rcases h₂ with h₂ | h₂
  · exact .inl (hsame.trans (h₂.trans (hlast.trans h)))
  · exact .inr (Imported.of_same hsame (h₂.trans (hlast.trans h)))

theorem login_deliver_ensures (username : Bytes) (l : Login) :
    Ensures env w (login_deliver pg fd username l) fun _ w' => FriendsSame w w' := by
  have hvalues : Ensures env w (login_deliver pg fd username l) fun _ w' =>
      ∀ a, w'.mem.g_friends.get a = w.mem.g_friends.get a := by
    refine Ensures.bind (R := fun _ w₁ => w₁.mem = w.mem) rfl fun _ w₁ h₁ => ?_
    refine (notify_ensures l.uid true).bind fun _ w₂ h₂ => ?_
    refine ensures_part fun _ w₃ h₃ => ?_
    have hg : ∀ a, w₃.mem.g_friends.get a = w.mem.g_friends.get a := fun a =>
      (congrArg (UMap.get · a) (h₃ (.var .g_friends) (by simp))).trans
        ((h₂ a).trans (by rw [h₁]))
    refine Ensures.bind (R := fun _ w₄ => ∀ a, w₄.mem.g_friends.get a = w.mem.g_friends.get a)
      (ensures_when (fun _ => ?_) fun _ => hg) fun _ w₄ h₄ => ?_
    · refine ensures_part fun invites w₅ h₅ => ?_
      refine (ensures_frame _).lift (by simp) |>.mono fun _ w₆ h₆ => fun a => ?_
      exact (congrArg (UMap.get · a) ((h₅ (.var .g_friends) (by simp)).trans
        (h₆ (.var .g_friends) (by simp)))).trans (hg a)
    · exact Prog.run_forM env w₄
        (I := fun _ w₅ => ∀ a, w₅.mem.g_friends.get a = w.mem.g_friends.get a) h₄
        fun _ _ w₅ _ h₅ => h₅
  refine (hvalues.and (ensures_frame _)).mono fun _ w' h => friendsSame_touch h.1 fun x hx => h.2 x ?_
  simp only [List.mem_cons, List.not_mem_nil, or_false] at hx
  rcases hx with rfl | rfl | rfl <;> simp

theorem login_friends (payload : Bytes) :
    Ensures env w (login pg fd payload) fun _ w' =>
      FriendsSame w w' ∨ ∃ uid, Imported pg uid w w' := by
  have hsession : Ensures env w (login_session pg fd payload) fun _ w' =>
      FriendsSame w w' ∨ ∃ uid, Imported pg uid w w' := by
    refine Ensures.locked (ensures_read (ensures_ite (fun _ => ?_) fun _ => ?_))
    · exact .inl ⟨fun _ _ => rfl, fun _ _ => Iff.rfl, rfl, rfl⟩
    · refine ensures_set_user (ensures_modify (ensures_part fun _ w₁ h₁ => ?_))
      have hframe := friendsSame_of_frame fun x hx => h₁ x (by
        simp only [List.mem_cons, List.not_mem_nil, or_false] at hx
        rcases hx with rfl | rfl | rfl | rfl <;> simp)
      have hsame : FriendsSame w w₁ :=
        ⟨hframe.friends, hframe.requests, hframe.edges, hframe.rows⟩
      refine ((login_pending_ensures _).lift _).bind fun _ w₂ h₂ => ?_
      refine ensures_read (ensures_modify (ensures_pure ?_))
      have hlast : ∀ f, FriendsSame w₂
          { w₂ with mem := Var.modify .g_offline_messages f w₂.mem } :=
        fun f => ⟨fun _ _ => rfl, fun _ _ => Iff.rfl, rfl, rfl⟩
      rcases h₂ with h₂ | h₂
      · exact .inl (hsame.trans (h₂.trans (hlast _)))
      · exact .inr ⟨_, Imported.of_same hsame (h₂.trans (hlast _))⟩
  refine (hsession.lift _).bind fun r w₁ h₁ => ?_
  cases r with
  | none => exact ensures_pure h₁
  | some l =>
    refine ((login_deliver_ensures fd _ l).lift _).bind fun _ w₂ h₂ => ensures_pure ?_
    exact h₁.imp (FriendsSame.trans · h₂) fun ⟨uid, h⟩ => ⟨uid, h.trans h₂⟩

theorem register_friends (payload : Bytes) :
    Ensures env w (register pg fd payload) fun _ w' => FriendsSame w w' := by
  have hreply : ∀ {S : List Field} (w₁ : World) (e : Bytes) (h : .out ∈ S), Ensures env w₁
      (reply fd .ERROR e 0 h : Prog S Unit) fun _ w' => FriendsSame w₁ w' :=
    fun _ _ _ => ⟨fun _ _ => rfl, fun _ _ => Iff.rfl, rfl, rfl⟩
  suffices hbody : Ensures env w _ fun (_ : Unit) w' => FriendsSame w w' from
    hbody.bind fun _ w' h => ensures_pure h
  refine ensures_ite (fun _ => hreply _ _ _) fun _ => Ensures.locked (ensures_read ?_)
  refine ensures_ite (fun _ => hreply _ _ _) fun _ => ensures_part fun uid w₁ h₁ => ?_
  have hsame : FriendsSame w w₁ := friendsSame_of_frame fun x hx => h₁ x (by
    simp only [List.mem_cons, List.not_mem_nil, or_false] at hx
    rcases hx with rfl | rfl | rfl | rfl <;> simp)
  refine ensures_ite (fun _ => (hreply _ _ _).mono fun _ w' h => hsame.trans h) fun _ => ?_
  -- the new user's entries are created empty
  refine hsame.trans ⟨fun a b => ?_, fun a b => ?_, rfl, rfl⟩
  · exact congrArg (UMap.get · b) (UMap.get_touch w₁.mem.g_friends _ a)
  · show a ∈ (w₁.mem.g_friend_requests.touch _).get b ↔ _
    rw [UMap.get_touch]
    rfl

end Cases

/-! ## What each step does to them -/

/-- The commands that take a request back. -/
def Command.cancels : Command → Bool
  | .friend_decline _ | .unfriend _ => true
  | _ => false

/-- The event carries none of them. -/
def Event.Keeps (pg : Bool) (w : World) (e : Event) : Prop :=
  ∀ fd rid c, e.command pg w = some (fd, rid, c) → c.cancels = false

/-- What an event does to friendships and requests: one of six things. -/
inductive FriendChange (pg : Bool) (env : Env) (w : World) (e : Event) (w' : World) : Prop where
  | same (keeps : e.Keeps pg w) (change : FriendsSame w w')
  | requested (fd rid me x : Int) (target : Target) (opened : w.conns.find? fd = some me)
    (command : e.command pg w = some (fd, rid, .friend_request target))
    (found : ((find_target target).run env w).1 = .ok x) (change : Requested pg me x w w')
  | accepted (fd rid me other : Int) (opened : w.conns.find? fd = some me)
    (command : e.command pg w = some (fd, rid, .friend_accept other))
    (change : Accepted pg env me other w w')
  | declined (fd rid me other : Int) (opened : w.conns.find? fd = some me)
    (command : e.command pg w = some (fd, rid, .friend_decline other))
    (change : Declined pg env me other w w')
  | unfriended (fd rid me other : Int) (opened : w.conns.find? fd = some me)
    (command : e.command pg w = some (fd, rid, .unfriend other))
    (change : Unfriended me other w w')
  | imported (me : Int) (keeps : e.Keeps pg w) (change : Imported pg me w w')

section Steps

variable {pg : Bool} {env : Env} {w w' : World} {e : Event}

/-- **The effect of a step on friendships and requests.** -/
theorem Server.friendChange (htx : w.db.tx = none) (hs : Server.step pg env w e = some w') :
    FriendChange pg env w e w' := by
  cases Server.move_of_step pg env hs with
  | accepted fd valid unused => exact .same (fun _ _ _ h => (nomatch h)) ⟨fun _ _ => rfl, fun _ _ => Iff.rfl, rfl, rfl⟩
  | hungup fd me opened =>
    exact .same (fun _ _ _ h => (nomatch h)) (end_connection_friends fd)
  | refused fd me r opened invalid =>
    have hkeeps : Event.Keeps pg w (.request fd r) := fun _ _ _ h => by
      simp [Event.command, invalid] at h
    refine .same hkeeps (FriendsSame.trans ?_ (end_connection_friends fd))
    exact ⟨fun _ _ => rfl, fun _ _ => Iff.rfl, rfl, rfl⟩
  | performed fd me rid r c opened command =>
    have hnext : c ≠ .logout → finish env fd ((perform pg fd me rid c).run env w)
        = ((perform pg fd me rid c).run env w).2 := fun hc =>
      if_neg (by simp [perform_next pg env w fd me rid c hc])
    have hkeeps : c.cancels = false → Event.Keeps pg w (.request fd r) := by
      intro hc fd' rid' c' h
      cases command.symm.trans h
      exact hc
    cases c with
    | logout =>
      have hlogout : Ensures env w (logout fd me) fun _ w' => FriendsSame w w' :=
        (go_offline_friends me).bind fun _ w₁ h₁ =>
          h₁.trans ⟨fun _ _ => rfl, fun _ _ => Iff.rfl, rfl, rfl⟩
      refine .same (hkeeps rfl) ?_
      rw [perform, run_lift, finish]
      split
      · exact FriendsSame.trans hlogout (end_connection_friends fd)
      · exact hlogout
    | register payload =>
      rw [hnext (by simp), perform, run_lift]
      exact .same (hkeeps rfl) (register_friends fd payload)
    | login payload =>
      rw [hnext (by simp), perform, run_lift]
      have hlogin : Ensures env w (login pg fd payload) _ := login_friends fd payload
      rcases hlogin with h | ⟨uid, h⟩
      · exact .same (hkeeps rfl) h
      · exact .imported uid (hkeeps rfl) h
    | get_friends_list =>
      rw [hnext (by simp), perform, run_lift]
      have hlist : Ensures env w (get_friends_list pg fd me) _ := get_friends_list_ensures fd me
      rcases hlist with h | h
      · exact .same (hkeeps rfl) h
      · exact .imported me (hkeeps rfl) h
    | friend_request target =>
      rw [hnext (by simp), perform, run_lift]
      have hrequest : Ensures env w (friend_request pg fd me target) _ :=
        friend_request_ensures fd me target htx
      rcases hrequest with h | ⟨x, hfound, h⟩
      · exact .same (hkeeps rfl) h
      · exact .requested fd rid me x target opened command hfound h
    | friend_accept other =>
      rw [hnext (by simp), perform, run_lift]
      have haccept : Ensures env w (friend_accept pg fd me other) _ :=
        friend_accept_ensures fd me other htx
      rcases haccept with h | h
      · exact .same (hkeeps rfl) h
      · exact .accepted fd rid me other opened command h
    | friend_decline other =>
      rw [hnext (by simp), perform, run_lift]
      exact .declined fd rid me other opened command (friend_decline_ensures fd me other htx)
    | unfriend other =>
      rw [hnext (by simp), perform, run_lift]
      exact .unfriended fd rid me other opened command (unfriend_ensures fd me other)
    | search_user | get_all_users =>
      exact .same (hkeeps rfl) (AnsweredFor.friendsSame (perform_answered pg fd me rid rfl))
    | _ =>
      refine .same (hkeeps rfl) ?_
      rw [hnext (by simp)]
      refine friendsSame_of_frame fun x hx => perform_effect pg fd me rid _ htx ?_
      simp only [List.mem_cons, List.not_mem_nil, or_false] at hx
      rcases hx with rfl | rfl | rfl | rfl <;> simp [Command.effect, Command.writes]

/-- No request is in memory when the server starts. -/
theorem Booted.requests_empty (h : Booted pg env w) (a b : Int) : ¬w.mem.hasRequest a b := by
  obtain ⟨w₁, fresh, ⟨-, rfl⟩ | ⟨-, s, hload, rfl⟩⟩ := h.loaded
  · have hr : ((load_database.run env w₁).2).mem.g_friend_requests = w₁.mem.g_friend_requests :=
      run_frame env load_database w₁ (x := .var .g_friend_requests) (by decide)
    rw [ServerState.hasRequest, hr, fresh.mem]
    exact List.not_mem_nil
  · show a ∉ s.g_friend_requests.get b
    rw [(load_users_friendless hload).pending]
    exact List.not_mem_nil

end Steps

end ChatApp
