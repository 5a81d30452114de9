/-
`RequestLists.lean` -- a pending list has nobody twice, and never its own user.

`FRIEND_REQUEST` adds one requester to a list, in one critical section. `LOGIN` adds the rows of the
database, in the section that reads them. `GET_FRIENDS_LIST` reads the list in one section and the rows
after it, merges the two without the lock, and adds the result in a third step, when the list can be
another one. So what is known between the sections is known of the local variables: the handler
carries a list without its own user, and what it adds is checked once more against the list it finds.
The statement is about every interleaving, with a database and without.
-/
import ChatApp.Friendships
import ChatApp.Stranded

set_option autoImplicit false

namespace ChatApp

open Prog PostgresPersistence handle_client

/-! ## Sound lists -/

/-- Every pending list has nobody twice, and not the user it belongs to. -/
def ListsSound (g : Pending) : Prop := ∀ u, (g.get u).Nodup ∧ u ∉ g.get u

/-- Nobody has asked itself, in the rows of `friend_requests`: the `CHECK` of the table. -/
def NoSelfRows (d : Tables) : Prop := ∀ r ∈ d.friend_requests, r.from_user_id ≠ r.to_user_id

/-- The assignment keeps sound lists sound. -/
def KeepsLists (f : Pending → Pending) : Prop := ∀ g, ListsSound g → ListsSound (f g)

theorem keepsLists_add {uid : Int} {froms : List Int} (hfroms : uid ∉ froms) :
    KeepsLists fun g => g.update uid fun vec => add_missing vec froms := by
  intro g h u
  rw [UMap.get_update]
  split
  · next hu =>
    subst hu
    obtain ⟨hnodup, hself⟩ := h u
    refine ⟨nodup_add_missing froms hnodup, ?_⟩
    rw [mem_add_missing]
    exact not_or.mpr ⟨hself, hfroms⟩
  · exact h u

theorem keepsLists_forget (a b : Int) : KeepsLists (forget a b) := by
  intro g h u
  rw [forget, UMap.get_update]
  split
  · next hu =>
    subst hu
    obtain ⟨hnodup, hself⟩ := h u
    exact ⟨hnodup.filter _, fun hu => hself (List.mem_of_mem_filter hu)⟩
  · exact h u

theorem keepsLists_touch (a : Int) : KeepsLists fun g => g.touch a := by
  intro g h u
  rw [UMap.get_touch]
  exact h u

/-! ## What every operation keeps -/

/-- The database, with the tables an open transaction goes back to, has no row of a user who asked
itself. -/
structure RowsSound (d : Database) : Prop where
  rows : NoSelfRows d.tables
  snapshot : ∀ t, d.tx = some t → NoSelfRows t.snapshot

/-- The lists in memory are sound, and so is the database, if there is one. -/
structure RequestsSound (pg : Bool) (w : World) : Prop where
  lists : ListsSound w.mem.g_friend_requests
  rows : pg = true → RowsSound w.db

/-- The statement adds no row of a user who asks itself. -/
def KeepsRows {β : Type} (q : Statement .friend_requests β) : Prop :=
  ∀ d : Tables, NoSelfRows d → ∀ r ∈ (q d).2, r.from_user_id ≠ r.to_user_id

/-- The operation keeps the lists sound, whatever they are, and the rows. -/
def Op.keepsRequests {β : Type} : Op β → Prop
  | .modify .g_friend_requests f => KeepsLists f
  | .execute .friend_requests q => KeepsRows q
  | _ => True

section Rows

variable {β : Type} {d : Database}

theorem RowsSound.abort (h : RowsSound d) : RowsSound d.abort := by
  refine ⟨h.rows, fun t ht => ?_⟩
  obtain ⟨t', ht', rfl⟩ := Option.map_eq_some_iff.mp ht
  exact h.snapshot t' ht'

theorem RowsSound.exec (h : RowsSound d) (t : Table) (q : Statement t β) (fails : Bool)
    (ho : (Op.execute t q).keepsRequests) : RowsSound (Database.exec t q fails d).2 := by
  have hput : NoSelfRows (t.put (q d.tables).2 d.tables) := by
    cases t with
    | friend_requests => exact ho d.tables h.rows
    | _ => exact h.rows
  unfold Database.exec
  split
  · exact h
  split
  · exact h.abort
  have hwritten : RowsSound { d with tables := t.put (q d.tables).2 d.tables } := ⟨hput, h.snapshot⟩
  dsimp only
  split
  · exact hwritten
  · exact hwritten.abort

theorem RowsSound.select (h : RowsSound d) (q : Tables → β) (fails : Bool) :
    RowsSound (Database.select q fails d).2 := by
  unfold Database.select
  split
  · exact h
  split
  · exact h.abort
  · exact h

theorem RowsSound.begin (h : RowsSound d) (fails : Bool) : RowsSound (Database.begin fails d).2 := by
  unfold Database.begin
  split
  · exact h
  split
  · exact h
  · refine ⟨h.rows, fun t ht => ?_⟩
    rw [← Option.some.inj ht]
    exact h.rows

/-- Rolling back restores the rows of the snapshot. -/
theorem RowsSound.rollback (h : RowsSound d) (fails : Bool) : RowsSound (Database.rollback fails d).2 := by
  unfold Database.rollback
  split
  · next t ht => exact ⟨h.snapshot t ht, fun t' ht' => absurd ht' (by simp)⟩
  · exact h

theorem RowsSound.commit (h : RowsSound d) (fails : Bool) : RowsSound (Database.commit fails d).2 := by
  unfold Database.commit
  split
  · exact h.rollback fails
  · exact ⟨h.rows, fun t ht => absurd ht (by simp)⟩

end Rows

/-- **Every operation that keeps the requests** leaves them sound. -/
theorem Op.keepsRequests.exec {pg : Bool} {β : Type} {o : Op β} (ho : o.keepsRequests) (env : Env) {w : World}
    (hw : RequestsSound pg w) : RequestsSound pg (o.exec env w).2 := by
  cases o with
  | modify x f =>
    refine ⟨?_, hw.rows⟩
    cases x with
    | g_friend_requests => exact ho _ hw.lists
    | _ => exact hw.lists
  | execute t q => exact ⟨hw.lists, fun hpg => (hw.rows hpg).exec t q _ ho⟩
  | select q => exact ⟨hw.lists, fun hpg => (hw.rows hpg).select q _⟩
  | begin => exact ⟨hw.lists, fun hpg => (hw.rows hpg).begin _⟩
  | rollback => exact ⟨hw.lists, fun hpg => (hw.rows hpg).rollback _⟩
  | commit => exact ⟨hw.lists, fun hpg => (hw.rows hpg).commit _⟩
  | _ => exact ⟨hw.lists, hw.rows⟩

/-! ## The moves of the handlers -/

section Moves

variable {pg : Bool} {env : Env} {S T : List Field} {α β : Type} {C : Condition} {G : World → World → Prop}

/-- A query is one move, and its answer is about the state it was asked in. -/
theorem Prog.Moves.select_from {q : Tables → β} {f : Option β → Prog S α}
    (hG : ∀ w, C.Holds (select q >>= f) w → G w ((select q : Prog S (Option β)).run env w).2)
    (hf : ∀ w r, C.Holds (select q >>= f) w → r = none ∨ r = some (q w.db.tables) → (f r).Moves env C G) :
    (select q >>= f).Moves env C G := by
  refine .op _ _ (fun w hw => hG w hw) fun w hw => hf w _ hw ?_
  exact (select_answer q : Ensures env w (select q : Prog S (Option β)) _)

theorem moves_of_keeps {p : Prog S α} {R : α → Prop} (hp : p.Always Op.keepsRequests R) :
    p.Moves env C fun w w' => RequestsSound pg w → RequestsSound pg w' :=
  .of_always hp (fun _ => id) (fun _ _ _ h h' => h' ∘ h) fun _ _ ho hw => ho.exec env hw

theorem keeps_of_footprint (p : Prog S α) (hvar : .var .g_friend_requests ∉ S)
    (htable : .table .friend_requests ∉ S) : p.Always Op.keepsRequests fun _ => True := by
  refine always_of_footprint p fun {β} o ho => ?_
  cases o with
  | modify x f =>
    cases x with
    | g_friend_requests => exact absurd (ho _ (by simp [Op.writes])) hvar
    | _ => trivial
  | execute t q =>
    cases t with
    | friend_requests => exact absurd (ho _ (by simp [Op.writes])) htable
    | _ => trivial
  | _ => trivial

end Moves

section Handlers

variable {pg : Bool} {env : Env} {w : World} (fd me : Int)

/-- The rows that ask a user are of others. -/
theorem not_mem_pendingTo {d : Tables} (h : NoSelfRows d) (uid : Int) :
    uid ∉ (d.pendingTo uid).map FriendRequestRow.from_user_id := by
  intro huid
  obtain ⟨r, hr, hfrom⟩ := List.mem_map.mp huid
  rw [Tables.pendingTo, List.mem_reverse, List.mem_filter] at hr
  have hto : r.to_user_id = uid := by
    have hmatches := hr.2
    simp only [Bool.and_eq_true, decide_eq_true_eq] at hmatches
    exact hmatches.1
  exact h r hr.1 (hfrom.trans hto.symm)

/-- **`LOGIN`** adds what the database holds to the list it finds. -/
theorem login_pending_sound (uid : Int) (hw : RequestsSound pg w) :
    Ensures env w (login_pending pg uid) fun _ w' => RequestsSound pg w' := by
  cases pg with
  | false => exact hw
  | true =>
    have hrows : Ensures env w (get_pending_requests uid) fun rows w₁ => RequestsSound true w₁ ∧
        uid ∉ rows.map FriendRequestRow.from_user_id := by
      have hselect : Ensures env w (select fun d => d.pendingTo uid : Prog [] _) fun _ w₁ =>
          RequestsSound true w₁ := ⟨hw.lists, fun hpg => (hw.rows hpg).select _ _⟩
      refine (hselect.and (select_answer _)).bind fun res w₁ h₁ => ensures_pure ⟨h₁.1, ?_⟩
      rcases h₁.2 with rfl | rfl
      · exact List.not_mem_nil
      · exact not_mem_pendingTo (hw.rows rfl).rows uid
    refine (hrows.lift _).bind fun rows w₁ h₁ => ?_
    refine Ensures.bind (R := fun _ w' => RequestsSound true w') (ensures_when (fun _ => ?_) fun _ => h₁.1)
      fun _ w' h => ensures_pure h
    exact ⟨keepsLists_add h₁.2 _ h₁.1.lists, h₁.1.rows⟩

/-- A program of which every operation keeps the requests. -/
theorem ensures_of_keeps {S : List Field} {α : Type} {p : Prog S α} {R : α → Prop}
    (hp : p.Always Op.keepsRequests R) (hw : RequestsSound pg w) :
    Ensures env w p fun _ w' => RequestsSound pg w' :=
  hp.invariant (fun _ _ ho hw => ho.exec env hw) hw

theorem login_session_sound (payload : Bytes) (hw : RequestsSound pg w) :
    Ensures env w (login_session pg fd payload) fun _ w' => RequestsSound pg w' := by
  refine Ensures.locked (ensures_read (ensures_ite (fun _ => ?_) fun _ => ?_))
  · exact ensures_of_keeps (R := fun _ => True) (by simp [Op.keepsRequests]) hw
  refine ensures_set_user (ensures_modify ?_)
  have hmark : ∀ uid, (mark_online pg uid).Always Op.keepsRequests fun _ => True :=
    fun uid => keeps_of_footprint _ (by simp) (by simp)
  refine Ensures.bind (R := fun _ w₁ => RequestsSound pg w₁)
    ((ensures_of_keeps (hmark _) (by exact ⟨hw.lists, hw.rows⟩)).lift _) fun _ w₁ h₁ => ?_
  refine ((login_pending_sound _ h₁).lift _).bind fun _ w₂ h₂ => ?_
  exact ensures_read (ensures_modify (ensures_pure ⟨h₂.lists, h₂.rows⟩))

/-- The moves of a program keep the requests sound, while the others' do. -/
abbrev KeepsSound (pg : Bool) (env : Env) {S : List Field} {α : Type} (p : Prog S α) : Prop :=
  p.Moves env (.of (RequestsSound pg)) fun w w' => RequestsSound pg w → RequestsSound pg w'

theorem login_requests (payload : Bytes) : KeepsSound pg env (login pg fd payload) := by
  have hsession : (login_session pg fd payload).Guarded env (.of (RequestsSound pg))
      fun w w' => RequestsSound pg w → RequestsSound pg w' := by
    refine Guarded.locked ?_ fun w _ hw => ?_
    · simp [mark_online, update_user_online_status, log_activity, login_pending, get_pending_requests,
        Unlocked, Op.isLock, Op.isUnlock]
    · have hsound : Ensures env w (login_session pg fd payload) _ := login_session_sound fd payload hw
      rw [login_session, Ensures, run_locked] at hsound
      exact hsound
  refine (hsession.lift _).moves_bind fun session => ?_
  cases session with
  | none => exact .pure _
  | some l =>
    refine moves_of_keeps (R := fun _ => True) (Always.seq ((always_lift ..).mpr ?_) fun _ => trivial)
    exact keeps_of_footprint _ (by simp) (by simp)

/-- **The merge of `GET_FRIENDS_LIST`**: the list that was read has not the user itself, nor have the rows,
and so neither has what is added to the list of that moment. -/
theorem merge_pending_requests {inMemory : List Int} (hmem : me ∉ inMemory) :
    (merge_pending pg me inMemory).Guarded env (.of (RequestsSound pg))
      fun w w' => RequestsSound pg w → RequestsSound pg w' := by
  cases pg with
  | false => exact .pure inMemory
  | true =>
    have hmerge : merge_pending true me inMemory = select (fun d => d.pendingTo me) >>= fun res =>
        let froms := add_missing inMemory ((res.getD []).map FriendRequestRow.from_user_id)
        locked (modify .g_friend_requests fun g => g.update me fun memPend => add_missing memPend froms) >>=
          fun _ => pure froms := rfl
    have hunlocked : ∀ froms, (modify .g_friend_requests fun g => g.update me fun memPend =>
        add_missing memPend froms : Prog merge_writes Unit).Unlocked := by
      simp [Unlocked, Op.isLock, Op.isUnlock]
    constructor
    · rw [hmerge]
      refine Program.Closed.bind (closed_of_unlocked (p := select fun d => d.pendingTo me) ?_) fun res => ?_
      · simp [Unlocked, Op.isLock, Op.isUnlock]
      · exact (closed_locked (hunlocked _)).bind fun _ => rfl
    · rw [hmerge]
      refine Moves.select_from (fun w _ hw => ⟨hw.lists, fun hpg => (hw.rows hpg).select _ _⟩)
        fun w res (hw : RequestsSound true w) hres => ?_
      have hfroms : me ∉ add_missing inMemory ((res.getD []).map FriendRequestRow.from_user_id) := by
        rw [mem_add_missing]
        refine not_or.mpr ⟨hmem, ?_⟩
        rcases hres with rfl | rfl
        · exact List.not_mem_nil
        · exact not_mem_pendingTo (hw.rows rfl).rows me
      exact .locked_bind (hunlocked _) (fun w _ hw => ⟨keepsLists_add hfroms _ hw.lists, hw.rows⟩) fun _ => .pure _

theorem get_friends_list_requests : KeepsSound pg env (get_friends_list pg fd me) := by
  refine Moves.locked_from ?_ (fun w _ hw => ⟨hw.lists, hw.rows⟩) fun w (hw : RequestsSound pg w) => ?_
  · simp [Unlocked, Op.isLock, Op.isUnlock]
  have hmem : me ∉ w.mem.g_friend_requests.get me := (hw.lists me).2
  refine ((merge_pending_requests me hmem).lift _).moves_bind fun froms => ?_
  refine moves_of_keeps (R := fun _ => True) (Always.seq ((always_lift ..).mpr ?_) fun requests => ?_)
  · exact keeps_of_footprint _ (by simp) (by simp)
  · simp [andNext, Op.keepsRequests]

/-- The `CHECK` refuses a row of a user who asks itself. -/
theorem keepsRows_upsert (a b : Int) : KeepsRows (upsert_friend_request a b) := by
  intro d h
  unfold upsert_friend_request
  split
  · exact h
  next hab =>
  split
  · intro r hr
    obtain ⟨r', hr', rfl⟩ := List.mem_map.mp hr
    split <;> exact h r' hr'
  split
  · intro r hr
    rcases List.mem_append.mp hr with hr | hr
    · exact h r hr
    · rw [List.mem_singleton.mp hr]
      exact hab
  · exact h

/-- **`FRIEND_REQUEST`** does not store a request of a user to itself. -/
theorem friend_request_keeps (target : Target) :
    (friend_request pg fd me target).Always Op.keepsRequests fun _ => True := by
  have hfind : (find_target target).Always Op.keepsRequests fun _ => True :=
    keeps_of_footprint _ (by simp) (by simp)
  refine Always.seq ((always_lift ..).mpr hfind) fun found => ?_
  cases found with
  | error e => simp [andNext, Op.keepsRequests]
  | ok targetId =>
    refine Always.seq ((always_ite ..).mpr ⟨fun _ => by simp [Op.keepsRequests], fun hself => ?_⟩)
      fun _ => trivial
    have hstore : (store_request pg me targetId).Always Op.keepsRequests fun _ => True := by
      have hadd : KeepsLists fun g => g.update targetId fun vec => add_missing vec [me] :=
        keepsLists_add (by simpa using hself)
      simp [store_request, store_request_db, has_pending_request, send_friend_request, log_activity,
        Op.keepsRequests, hadd, keepsRows_upsert]
    have hnotify : (notify_target me targetId).Always Op.keepsRequests fun _ => True :=
      keeps_of_footprint _ (by simp) (by simp)
    refine Always.seq ((always_lift ..).mpr hstore) fun refused => (always_ite ..).mpr ⟨fun _ => ?_, fun _ => ?_⟩
    · simp [Op.keepsRequests]
    · exact Always.seq ((always_lift ..).mpr hnotify) fun _ => by simp [Op.keepsRequests]

theorem keepsRows_delete (a b : Int) : KeepsRows (delete_friend_request a b) :=
  fun _ h r hr => h r (List.mem_of_mem_filter hr)

/-- Accepting, declining and unfriending only take requests away. -/
theorem keepsLists_forget_pair (a b : Int) : KeepsLists fun g => forget a b (forget b a g) :=
  fun g hg => keepsLists_forget a b _ (keepsLists_forget b a g hg)

theorem friend_accept_keeps (other : Int) :
    (friend_accept pg fd me other).Always Op.keepsRequests fun _ => True := by
  simp [friend_accept, accept_friend_request, add_friend, log_activity, accept_in_memory, andNext,
    Op.keepsRequests, keepsLists_forget_pair, keepsRows_delete]

theorem friend_decline_keeps (other : Int) :
    (friend_decline pg fd me other).Always Op.keepsRequests fun _ => True := by
  simp [friend_decline, decline_friend_request, log_activity, andNext, Op.keepsRequests, keepsLists_forget,
    keepsRows_delete]

theorem unfriend_keeps (other : Int) : (unfriend fd me other).Always Op.keepsRequests fun _ => True := by
  simp [unfriend, andNext, Op.keepsRequests, keepsLists_forget_pair]

theorem register_keeps (payload : Bytes) : (register pg fd payload).Always Op.keepsRequests fun _ => True := by
  have hid : ∀ username password phone, (register_id pg username password phone).Always Op.keepsRequests
      fun _ => True := fun _ _ _ => keeps_of_footprint _ (by simp) (by simp)
  have huser : ∀ u, (register_user fd u).Always Op.keepsRequests fun _ => True := by
    simp [register_user, Op.keepsRequests, keepsLists_touch]
  refine Always.seq ((always_ite ..).mpr ⟨fun _ => by simp [Op.keepsRequests], fun _ => ?_⟩) fun _ => trivial
  refine Always.locked ?_ trivial trivial
  simp only [always_bind, always_ite, always_read, always_lift, always_reply]
  refine ⟨trivial, fun taken => ⟨fun _ => ⟨trivial, trivial⟩, fun _ => ?_⟩⟩
  exact (hid ..).mono fun uid _ => ⟨fun _ => ⟨trivial, trivial⟩, fun _ => huser _⟩

/-- The transaction of `CREATE_GROUP` goes back to sound rows, if it goes back. -/
theorem create_group_keeps (name : Option Bytes) (memberIds : List Int) :
    (handle_client.create_group pg fd me name memberIds).Always Op.keepsRequests fun _ => True := by
  have hname : (group_name name).Always Op.keepsRequests fun _ => True :=
    keeps_of_footprint _ (by simp) (by simp)
  have hrows : ∀ gid, (add_members me gid memberIds).Always Op.keepsRequests fun _ => True :=
    fun _ => keeps_of_footprint _ (by simp) (by simp)
  have hdb : ∀ n, (create_group_db me n memberIds).Always Op.keepsRequests fun _ => True := by
    intro n
    refine Always.seq ?_ fun gid => ?_
    · simp [PostgresPersistence.create_group, add_group_member, log_activity, Op.keepsRequests]
    · simp [hrows]
  have hmem : ∀ n, (create_group_mem me n memberIds).Always Op.keepsRequests fun _ => True :=
    fun _ => keeps_of_footprint _ (by simp) (by simp)
  have hannounce : ∀ n gid, (announce_group pg fd me n memberIds gid).Always Op.keepsRequests fun _ => True :=
    fun _ _ => keeps_of_footprint _ (by simp) (by simp)
  have hrest : ∀ n gid, (andNext (announce_group pg fd me n memberIds gid).lift :
      Prog create_group_writes Outcome).Always Op.keepsRequests fun _ => True :=
    fun n gid => Always.seq ((always_lift ..).mpr (hannounce n gid)) fun _ => trivial
  refine Always.seq ((always_lift ..).mpr hname) fun n => (always_ite ..).mpr ⟨fun _ => ?_, fun _ => ?_⟩
  · exact Always.seq ((always_lift ..).mpr (hdb n)) fun gid => hrest n _
  · exact Always.seq ((always_lift ..).mpr (hmem n)) fun gid => hrest n _

/-- **Every move of a handler** keeps the requests sound. -/
theorem perform_requests (rid : Int) (c : Command) : KeepsSound pg env (perform pg fd me rid c) := by
  have hquiet : ∀ {S : List Field} (p : Prog S Outcome), .var .g_friend_requests ∉ S →
      .table .friend_requests ∉ S → KeepsSound pg env p := fun p hvar htable =>
    moves_of_keeps (keeps_of_footprint p hvar htable)
  cases c with
  | register payload => exact (moves_of_keeps (register_keeps fd payload)).lift (by decide)
  | login payload => exact (login_requests fd payload).lift (by decide)
  | get_friends_list => exact (get_friends_list_requests fd me).lift (by decide)
  | friend_request target => exact (moves_of_keeps (friend_request_keeps fd me target)).lift (by decide)
  | friend_accept other => exact (moves_of_keeps (friend_accept_keeps fd me other)).lift (by decide)
  | friend_decline other => exact (moves_of_keeps (friend_decline_keeps fd me other)).lift (by decide)
  | unfriend other => exact (moves_of_keeps (unfriend_keeps fd me other)).lift (by decide)
  | create_group name memberIds => exact (moves_of_keeps (create_group_keeps fd me name memberIds)).lift (by decide)
  | _ => exact (hquiet _ (by simp) (by simp)).lift (by decide)

end Handlers

/-! ## Runs -/

/-- **A pending list has nobody twice, and never its own user**, in every state of every interleaving, with a
database whose rows obey the `CHECK` and without one. -/
theorem request_lists_sound {pg : Bool} {env₀ env : Env} {w₀ : World} {s : Concurrent}
    {tr : List (Taken Concurrent Concurrent.Event)} (booted : Booted pg env₀ w₀)
    (rows : pg = true → NoSelfRows w₀.db.tables)
    (run : Concurrent.Run pg env (fun _ _ => True) (.quiet w₀) tr s) (u : Int) :
    (s.world.mem.g_friend_requests.get u).Nodup ∧ u ∉ s.world.mem.g_friend_requests.get u := by
  have hstart : RequestsSound pg w₀ := by
    constructor
    · intro v
      have hempty : w₀.mem.g_friend_requests.get v = [] :=
        List.eq_nil_iff_forall_not_mem.mpr fun a => booted.requests_empty a v
      rw [hempty]
      exact ⟨List.nodup_nil, List.not_mem_nil⟩
    · intro hpg
      refine ⟨rows hpg, fun t ht => ?_⟩
      rw [booted.tx_none] at ht
      cases ht
  have hinvalid : ∀ fd, KeepsSound pg env (invalid_header fd) := fun fd =>
    moves_of_keeps (keeps_of_footprint _ (by simp) (by simp))
  have hcleanup : ∀ fd me, KeepsSound pg env (cleanup_handler fd me).prog := by
    intro fd me
    refine moves_of_keeps (R := fun _ => True) (Always.seq ((always_lift ..).mpr ?_) fun _ => trivial)
    exact keeps_of_footprint _ (by simp) (by simp)
  have hsound := (Concurrent.invariant_of_stages (K := fun h => KeepsSound pg env h.prog)
    (I := RequestsSound pg) (fun x fd r h _ hrequest => ?_) hcleanup (fun w fd hw => ⟨hw.lists, hw.rows⟩)
    (fun x i h _ hget hh hx => ?_) run hstart fun h hh => absurd hh List.not_mem_nil).1
  · exact hsound.lists u
  · rcases Concurrent.request_handler_eq pg hrequest with ⟨-, c, -, rfl⟩ | ⟨-, rfl⟩
    · exact perform_requests ..
    · exact (hinvalid fd).lift (by decide)
  · have hmove := hh.advance hx fun _ => id
    exact ⟨hmove.2, hmove.1 hx⟩

/-- User 2 lists its friends; before it has read the rows, user 1 asks it. The request is then in memory and among
the rows, and stands in the list once. -/
theorem request_lists_sound_asked : ∃ tr s,
    Concurrent.Run true Env.calm (fun _ _ => True) (.quiet loaded) tr s ∧
      s.world.mem.g_friend_requests.get 2 = [1] ∧
      (s.world.mem.g_friend_requests.get 2).Nodup ∧ 2 ∉ s.world.mem.g_friend_requests.get 2 := by
  have hrun : (Run.exec (Run.guard (Concurrent.step true Env.calm) fun _ _ => true) (.quiet loaded)
      (Concurrent.two_users ++ [.request 6 (.of .GET_FRIENDS_LIST ""), .advance 0,
        .request 5 (.of .FRIEND_REQUEST "targetUserId=2"), .advance 1, .advance 0, .advance 0])).map
          (fun s => s.world.mem.g_friend_requests.get 2) = some [1] := by decide
  obtain ⟨tr, s, run, hlist⟩ := Concurrent.run_of_exec hrun
  have run := run.mono (D := fun _ _ => True) fun _ _ _ => trivial
  exact ⟨tr, s, run, hlist, request_lists_sound booted_loaded (fun _ r hr => absurd hr List.not_mem_nil) run 2⟩

end ChatApp
