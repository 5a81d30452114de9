/-
`Anonymous.lean` -- the requests of a connection on which nobody has logged in.

No case of `handle_client` asks for a session. A connection that has none acts as the user 0: its direct messages are
delivered, and without a database it can found a group. What stands in its way are the tests that every user has to
pass. User 0 has no row, so the foreign keys refuse to store anything for it; it is an outsider to every group that it
was not put into. A command that meets such a test (`Command.unnoticed`) is answered on its own connection and leaves
everything as it was, and so does a run of them.
-/
import ChatApp.OutsiderRequests
import ChatApp.PresenceNotices
import ChatApp.Refusals
import ChatApp.SchemaKept

set_option autoImplicit false

namespace ChatApp

open Prog PostgresPersistence handle_client

/-! ## What others can notice -/

/-- Nobody but the connection `fd` can tell `w'` from `w`: friendships, pending requests, groups, queues and tables
are as they were, up to entries with the default value and the number of the next group, and what was sent went
to `fd`. -/
structure Unnoticed (fd : Int) (w w' : World) : Prop where
  friends : ∀ a b, w'.mem.isFriend a b = w.mem.isFriend a b
  requests : ∀ uid, w'.mem.g_friend_requests.get uid = w.mem.g_friend_requests.get uid
  groups : ∀ gid, w'.mem.g_groups.get gid = w.mem.g_groups.get gid
  offline : ∀ uid, w'.mem.g_offline_messages.get uid = w.mem.g_offline_messages.get uid
  tables : w.db.tables.groupsNext w'.db.tables
  sent : ∃ frames, w'.out = w.out ++ frames ∧ ∀ f ∈ frames, f.fd = fd

/-- The condition under which nobody notices a command of the user 0. A row of its own is refused by a foreign key. -/
def Command.unnoticed (pg : Bool) (env : Env) (fd : Int) (w : World) : Command → Prop
  | .register _ | .login _ => False
  -- without a database: the target is unknown or 0, or the request is refused
  | .friend_request target => pg = true ∨ ∀ x, ((find_target target).run env w).1 = .ok x →
    x = 0 ∨ (w.mem.isFriend 0 x || w.mem.isFriend x 0) = true ∨ w.mem.hasRequest 0 x
  -- nothing is asked for, but there may be nothing to change
  | .friend_accept other => pg = true ∨ (w.mem.isFriend 0 other = true ∧ w.mem.isFriend other 0 = true ∧
    ¬w.mem.hasRequest other 0 ∧ ¬w.mem.hasRequest 0 other)
  | .friend_decline other => ¬w.mem.hasRequest other 0
  | .unfriend other => w.mem.isFriend 0 other = false ∧ w.mem.isFriend other 0 = false ∧
    ¬w.mem.hasRequest other 0 ∧ ¬w.mem.hasRequest 0 other
  -- whoever the message is for, it is sent or queued
  | .direct_message recipientId _ => w.mem.g_online_clients.find? recipientId = some fd
  | .create_group .. => pg = true
  | .invite_to_group gid _ | .rename_group gid _ => w.mem.hasMember gid 0 = false
  -- no invite is asked for
  | .accept_group_invite gid => pg = true ∨ w.mem.g_groups.count gid = false
  -- only the target has to be a member
  | .set_group_nickname gid uid _ => w.mem.hasMember gid uid = false
  -- everybody may remove itself
  | .remove_from_group gid uid =>
    if pg then uid ≠ 0 ∨ env.sql_fails w.ticks = true
    else if uid = 0 then w.mem.g_groups.count gid = false else w.mem.hasAdmin gid 0 = false
  | .make_admin gid _ => pg = true ∨ w.mem.hasAdmin gid 0 = false
  -- a group without members goes when anybody leaves it
  | .leave_group gid => ∀ g, w.mem.g_groups.find? gid = some g →
    ¬(g.members.count 0 = true ∨ (g.members.empty = true ∧ g ≠ default))
  | .group_message gid _ => pg = true ∨ ∀ g, w.mem.g_groups.find? gid = some g → g.members.count 0 = true →
    ∀ uid ∈ g.members.keys, uid = 0
  | _ => True

section Rules

variable {fd : Int} {w w' w'' : World}

theorem Unnoticed.refl (fd : Int) (w : World) : Unnoticed fd w w :=
  ⟨fun _ _ => rfl, fun _ => rfl, fun _ => rfl, fun _ => rfl, ⟨_, le_rfl, rfl⟩,
    ⟨[], (List.append_nil _).symm, fun _ hf => absurd hf List.not_mem_nil⟩⟩

theorem Unnoticed.trans (h : Unnoticed fd w w') (h' : Unnoticed fd w' w'') : Unnoticed fd w w'' := by
  obtain ⟨n, hn, htables⟩ := h.tables
  obtain ⟨m, hm, htables'⟩ := h'.tables
  obtain ⟨s, hs, hown⟩ := h.sent
  obtain ⟨t, ht, hown'⟩ := h'.sent
  refine ⟨fun a b => (h'.friends a b).trans (h.friends a b), fun uid => (h'.requests uid).trans (h.requests uid),
    fun gid => (h'.groups gid).trans (h.groups gid), fun uid => (h'.offline uid).trans (h.offline uid),
    ⟨m, ?_, ?_⟩, ⟨s ++ t, ?_, ?_⟩⟩
  · rw [htables] at hm
    exact hn.trans hm
  · rw [htables', htables]
  · rw [ht, hs, List.append_assoc]
  · exact fun f hf => (List.mem_append.mp hf).elim (hown f) (hown' f)

/-- Tables that agree in every table are the same. -/
theorem Tables.eq_of_get {d d' : Tables} (h : ∀ t : Table, t.get d' = t.get d) : d' = d := by
  cases d
  cases d'
  congr 1
  exacts [h .users, h .friends, h .friend_requests, h .messages, h .groups, h .group_members, h .group_messages,
    h .group_invites]

/-- The fields of the globals that others read, and what was sent. -/
abbrev noticed_fields : List Field :=
  [.var .g_friends, .var .g_friend_requests, .var .g_groups, .var .g_offline_messages, .out]

theorem unnoticed_of_frame (h : ∀ x ∈ noticed_fields, x.Same w w') (htables : w'.db.tables = w.db.tables) :
    Unnoticed fd w w' where
  friends a b := congrArg (fun g : Friends => (g.get a).get b) (h (.var .g_friends) (by simp))
  requests uid := congrArg (UMap.get · uid) (h (.var .g_friend_requests) (by simp))
  groups gid := congrArg (UMap.get · gid) (h (.var .g_groups) (by simp))
  offline uid := congrArg (UMap.get · uid) (h (.var .g_offline_messages) (by simp))
  tables := ⟨_, le_rfl, htables⟩
  sent := ⟨[], Eq.trans (h .out (by simp)) (List.append_nil _).symm, fun _ hf => absurd hf List.not_mem_nil⟩

variable {env : Env} {w₁ : World} {S T : List Field} {α : Type}

/-- A part that writes none of these fields, and leaves the tables as they were. -/
theorem unnoticed_part {p : Prog S α} {R : α → World → Prop} (fd : Int) (hp : Ensures env w p R)
    (hS : ∀ x ∈ noticed_fields, x ∉ S) (htables : ∀ a w', R a w' → w'.db.tables = w.db.tables) :
    Ensures env w p fun a w' => Unnoticed fd w w' ∧ R a w' :=
  (hp.and (ensures_frame p)).mono fun a w' h =>
    ⟨unnoticed_of_frame (fun x hx => h.2 x (hS x hx)) (htables a w' h.1), h.1⟩

/-- A part that only reads. -/
theorem read_unnoticed (fd : Int) (p : Prog [] α) : Ensures env w p fun _ w' => Unnoticed fd w w' := by
  refine (ensures_frame p).mono fun _ w' h => unnoticed_of_frame (fun x _ => h x (by simp)) ?_
  exact Tables.eq_of_get fun t => h (.table t) (by simp)

theorem reply_unnoticed (type : MessageType) (payload : Bytes) (uid : UInt32) {h : .out ∈ S} :
    Ensures env w (reply fd type payload uid h : Prog S Unit) fun _ w' => Unnoticed fd w w' :=
  ⟨fun _ _ => rfl, fun _ => rfl, fun _ => rfl, fun _ => rfl, ⟨_, le_rfl, rfl⟩,
    ⟨_, rfl, fun _ hf => by rw [List.mem_singleton.mp hf]⟩⟩

theorem unnoticed_andNext {p : Prog S Unit} (hp : Ensures env w₁ p fun _ w' => Unnoticed fd w w') :
    Ensures env w₁ (andNext p) fun _ w' => Unnoticed fd w w' :=
  hp.bind fun _ _ h => ensures_pure h

/-- The answer to a request, on its own connection. -/
theorem Unnoticed.answer (h : Unnoticed fd w w₁) (type : MessageType) (payload : Bytes) (uid : UInt32)
    {o : .out ∈ S} : Ensures env w₁ (reply fd type payload uid o : Prog S Unit) fun _ w' => Unnoticed fd w w' :=
  (reply_unnoticed type payload uid).mono fun _ _ h' => h.trans h'

/-- A request whose test fails, and that has changed nothing, is answered with an error. -/
theorem refused_unnoticed {p : Prog S Bool} {text : Bytes} {uid : UInt32} {h : .out ∈ S} {rest : Prog S Unit}
    (hp : Ensures env w p fun ok w₁ => ok = false ∧ Unnoticed fd w w₁) :
    Ensures env w (p >>= fun ok => andNext (if !ok then reply fd .ERROR text uid h else rest))
      fun _ w' => Unnoticed fd w w' := by
  refine hp.bind fun ok w₁ h₁ => unnoticed_andNext ?_
  obtain ⟨rfl, hsame⟩ := h₁
  exact ensures_ite (fun _ => hsame.answer ..) fun hok => absurd rfl hok

end Rules

/-! ## Statements about the user 0 -/

section Nobody

variable {d : Tables}

theorem ne_zero_of_hasUser (hd : d.Valid) {uid : Int} (huid : d.hasUser uid = true) : uid ≠ 0 := by
  rintro rfl
  rw [hd.nobody] at huid
  cases huid

theorem isMember_nobody (hd : d.Valid) (gid : Int) : d.isMember gid 0 = false := by
  rw [Tables.isMember, List.any_eq_false]
  intro r hr hids
  have huid := ne_zero_of_hasUser hd (hd.members_refs r hr).2
  simp [huid] at hids

theorem isPending_nobody (hd : d.Valid) (a : Int) : d.isPending a 0 = false := by
  rw [Tables.isPending, List.any_eq_false]
  intro r hr hids
  have huid := ne_zero_of_hasUser hd (hd.requests_users r hr).2
  simp [huid] at hids

/-- No row of `friend_requests` is of the user 0, and none can be inserted. -/
theorem upsert_nobody (hd : d.Valid) (x : Int) : (upsert_friend_request 0 x d).1 = none ∧
    (upsert_friend_request 0 x d).2 = d.friend_requests := by
  have hany : (d.friend_requests.any fun r => r.from_user_id = 0 && r.to_user_id = x) = false := by
    rw [List.any_eq_false]
    intro r hr hids
    have huid := ne_zero_of_hasUser hd (hd.requests_users r hr).1
    simp [huid] at hids
  unfold upsert_friend_request
  split_ifs with hself hknown husers
  · exact ⟨rfl, rfl⟩
  · rw [hany] at hknown
    cases hknown
  · rw [hd.nobody] at husers
    cases husers
  · exact ⟨rfl, rfl⟩

theorem delete_friend_request_nobody (hd : d.Valid) (a : Int) :
    (delete_friend_request a 0 d).2 = d.friend_requests := by
  refine List.filter_eq_self.mpr fun r hr => ?_
  have huid := ne_zero_of_hasUser hd (hd.requests_users r hr).2
  simp [huid]

theorem insert_pair_nobody (hd : d.Valid) (a : Int) : (insert_pair a 0 d).1 = none := by
  have hends : (friendRow a 0).user_id_1 = 0 ∨ (friendRow a 0).user_id_2 = 0 := by
    unfold friendRow
    split
    · exact .inl rfl
    · exact .inr rfl
  have husers : (d.hasUser (friendRow a 0).user_id_1 && d.hasUser (friendRow a 0).user_id_2) = false := by
    rcases hends with h | h <;> simp [h, hd.nobody]
  unfold insert_pair insert_friend
  split_ifs with hlt hknown hrefs
  · -- a friendship that is there is one of two users
    have hrow := hd.friends_users _ (List.contains_iff_mem.mp hknown)
    rw [hrow.1, hrow.2] at husers
    cases husers
  · rw [husers] at hrefs
    cases hrefs
  · rfl
  · rfl

theorem insert_message_nobody (hd : d.Valid) (x : Int) (content : Bytes) (timestamp : Int) :
    (insert_message 0 x content timestamp d).2 = d.messages := by
  simp [insert_message, hd.nobody]

theorem delete_messages_nobody (hd : d.Valid) (other : Int) : (delete_messages 0 other d).2 = d.messages := by
  refine List.filter_eq_self.mpr fun r hr => ?_
  have hfrom := ne_zero_of_hasUser hd (hd.messages_users r hr).1
  have hto := ne_zero_of_hasUser hd (hd.messages_users r hr).2
  simp [MessageRow.between, hfrom, hto]

theorem delete_invite_nobody (hd : d.Valid) (gid : Int) : (delete_invite gid 0 d).2 = d.group_invites := by
  refine List.filter_eq_self.mpr fun r hr => ?_
  have hto := ne_zero_of_hasUser hd (hd.invites_refs r hr).2.2
  simp [hto]

end Nobody

section Statements

variable {env : Env} {w : World} {S : List Field}

/-- A statement that finds nothing to change, outside a transaction. -/
theorem execute_idle {t : Table} {β : Type} {q : Statement t β} {h : .table t ∈ S} (htx : w.db.tx = none)
    (hq : (q w.db.tables).2 = t.get w.db.tables) :
    Ensures env w (execute t q h : Prog S (Option β)) fun _ w' => w'.db = w.db := by
  refine (execute_of_none t q h htx).mono fun r w' hdone => ?_
  rcases hdone with ⟨-, -, hdb⟩ | ⟨-, -, hdb⟩
  · exact hdb
  · rw [hdb, hq, Table.put_get, ← htx]

theorem logged_idle {t : Table} {β : Type} {q : Statement t β} {h : .table t ∈ S}
    {hl : [.table .activity_logs] ⊆ S} (uid target : Int) (htx : w.db.tx = none)
    (hq : (q w.db.tables).2 = t.get w.db.tables) :
    Ensures env w (execute t q h >>= fun res => if res.isNone then pure false
      else (log_activity uid target).lift hl >>= fun _ => pure true : Prog S Bool)
      fun _ w' => w'.db = w.db := by
  refine (execute_idle htx hq).bind fun r w₁ h₁ => ensures_ite (fun _ => ensures_pure h₁) fun _ => ?_
  refine ((log_activity_ensures uid target (by rw [h₁, htx])).lift _).bind fun _ w₂ h₂ => ensures_pure ?_
  rw [h₂, h₁]

end Statements

/-! ## The friend graph -/

section Friends

variable {pg : Bool} {env : Env} {w : World} {fd : Int}

variable (w fd) in
/-- A read of the friend flags leaves them as they were. -/
theorem unnoticed_touch {f : Friends → Friends} (hf : ∀ a, (f w.mem.g_friends).get a = w.mem.g_friends.get a) :
    Unnoticed fd w { w with mem := Var.modify .g_friends f w.mem } :=
  { Unnoticed.refl fd w with friends := fun a b => congrArg (UMap.get · b) (hf a) }

/-- A request of the user 0 is refused: by the foreign key, or since memory has it. -/
theorem store_request_nobody {x : Int} (fd : Int) (hd : w.db.tables.Valid) (htx : w.db.tx = none)
    (hrefused : pg = true ∨ (w.mem.isFriend 0 x || w.mem.isFriend x 0) = true ∨ w.mem.hasRequest 0 x) :
    Ensures env w (store_request pg 0 x) fun refused w' => refused.isSome = true ∧ Unnoticed fd w w' := by
  refine Ensures.locked (ensures_read (ensures_modify ?_))
  have htouch := unnoticed_touch w fd (f := touch_pair 0 x) fun a => get_touch_pair ..
  refine ensures_ite (fun _ => ensures_pure ⟨rfl, htouch⟩) fun hstrangers => ?_
  -- with a database the row is refused, without one memory has the request already
  cases pg with
  | true =>
    have hstore : Ensures env { w with mem := Var.modify .g_friends (touch_pair 0 x) w.mem } (store_request_db true 0 x)
        fun refused w' => refused.isSome = true ∧ w'.db.tables = w.db.tables := by
      refine Ensures.bind (R := fun _ w₁ => w₁.db = w.db) ?_ fun pending w₁ h₁ => ?_
      · exact ((select_of_none _ (by exact htx)).bind fun _ _ h => ensures_pure h.1).lift _
      refine ensures_ite (fun _ => ensures_pure ⟨rfl, by rw [h₁]⟩) fun _ => ?_
      -- the statement comes after a query, and its row would name the user 0
      have hsend : Ensures env w₁ (send_friend_request 0 x) _ :=
        logged_refused 0 x (by rw [h₁, htx]) (.inr (upsert_nobody (by rw [h₁]; exact hd) x))
      refine hsend.bind fun sent w₂ h₂ => ensures_pure ?_
      obtain ⟨rfl, htables⟩ := h₂
      exact ⟨rfl, by rw [htables, h₁]⟩
    refine ((unnoticed_part fd hstore (by simp) fun _ _ h => h.2).lift _).bind fun refused w₁ h₁ => ?_
    exact ensures_ite (fun _ => ensures_pure ⟨h₁.2.1, htouch.trans h₁.1⟩) fun hnone => absurd h₁.2.1 hnone
  | false =>
    have hknown : w.mem.hasRequest 0 x :=
      (hrefused.resolve_left Bool.false_ne_true).resolve_left hstrangers
    refine Ensures.bind (R := fun refused w₁ => refused = none ∧
      w₁ = { w with mem := Var.modify .g_friends (touch_pair 0 x) w.mem }) ⟨rfl, rfl⟩ fun refused w₁ h₁ => ?_
    obtain ⟨rfl, rfl⟩ := h₁
    refine ensures_ite (fun h => absurd h Bool.false_ne_true) fun _ => ensures_read (ensures_modify (ensures_pure ?_))
    refine ⟨?_, { htouch with requests := fun uid => ?_ }⟩
    · have hmem : decide ((0 : Int) ∈ w.mem.g_friend_requests.get x) = true := decide_eq_true hknown
      exact congrArg Option.isSome (if_pos hmem)
    · show (w.mem.g_friend_requests.update x fun vec => add_missing vec [0]).get uid = _
      rw [UMap.get_update]
      split
      · next huid =>
        have hmem : (0 : Int) ∈ w.mem.g_friend_requests.get x := hknown
        simp [add_missing, huid, hmem]
      · rfl

theorem friend_request_unnoticed (target : Target) (hd : w.db.tables.Valid) (htx : w.db.tx = none)
    (hc : (Command.friend_request target).unnoticed pg env fd w) :
    Ensures env w (friend_request pg fd 0 target) fun _ w' => Unnoticed fd w w' := by
  refine Ensures.bind (R := fun found w₁ => found = ((find_target target).run env w).1 ∧ w₁ = w)
    ?_ fun found w₁ h₁ => ?_
  · refine Ensures.lift ?_ _
    cases target <;> exact ⟨rfl, rfl⟩
  obtain ⟨hfound, rfl⟩ := h₁
  have hstart := Unnoticed.refl fd w₁
  cases found with
  | error e => exact unnoticed_andNext (hstart.answer ..)
  | ok x =>
    refine unnoticed_andNext (ensures_ite (fun _ => hstart.answer ..) fun hx => ?_)
    have hrefused := hc.imp_right fun h => (h x hfound.symm).resolve_left hx
    refine ((store_request_nobody fd hd htx hrefused).lift _).bind fun refused w₂ h₂ => ?_
    exact ensures_ite (fun _ => h₂.2.answer ..) fun hnone => absurd h₂.1 hnone

/-- Nobody waits in a list that takes nothing back. -/
theorem get_forget_absent {a b : Int} {g : Pending} (h : a ∉ g.get b) (uid : Int) :
    (forget a b g).get uid = g.get uid := by
  rw [forget, UMap.get_update]
  split
  · next huid =>
    rw [huid]
    refine List.filter_eq_self.mpr fun x hx => ?_
    have hne : x ≠ a := fun heq => h (heq ▸ hx)
    simp [hne]
  · rfl

theorem get_forget_both {other : Int} {g : Pending} (h : other ∉ g.get 0) (h' : 0 ∉ g.get other) (uid : Int) :
    (forget 0 other (forget other 0 g)).get uid = g.get uid := by
  rw [get_forget_absent ?_ uid, get_forget_absent h uid]
  rwa [get_forget_absent h]

theorem friend_accept_unnoticed (other : Int) (hd : w.db.tables.Valid) (htx : w.db.tx = none)
    (hc : (Command.friend_accept other).unnoticed pg env fd w) :
    Ensures env w (friend_accept pg fd 0 other) fun _ w' => Unnoticed fd w w' := by
  refine unnoticed_andNext (Ensures.locked ?_)
  cases pg with
  | true =>
    -- the rows of the friendship would name the user 0, so the transaction is rolled back
    have haccept : Ensures env w (accept_friend_request other 0) fun ok w' =>
        ok = false ∧ w'.db.tables = w.db.tables := by
      refine (accept_friend_request_ensures other 0 htx).mono fun ok w' h => ?_
      obtain ⟨-, ⟨-, hinserted, -⟩ | ⟨hok, htables, -⟩⟩ := h
      · rw [insert_pair_nobody hd] at hinserted
        cases hinserted
      · exact ⟨hok, htables⟩
    refine ((unnoticed_part fd haccept (by simp [all_tables]) fun _ _ h => h.2).lift _).bind fun ok w₁ h₁ => ?_
    obtain ⟨hsame, rfl, -⟩ := h₁
    exact Ensures.lift (hsame.answer ..) _
  | false =>
    -- what is set is set already, and what is taken away is not there
    obtain ⟨hfriend, hfriend', hrequest, hrequest'⟩ := hc.resolve_left Bool.false_ne_true
    refine Ensures.lift (S := [.var .g_friends, .var .g_friend_requests, .out]) ?_ (by decide)
    refine ensures_modify (ensures_modify (Unnoticed.answer ?_ ..))
    refine { Unnoticed.refl fd w with friends := fun a b => ?_, requests := get_forget_both hrequest hrequest' }
    show ((befriend 0 other w.mem.g_friends).get a).get b = w.mem.isFriend a b
    rw [get_befriend]
    by_cases hpair : (a = 0 ∧ b = other) ∨ (a = other ∧ b = 0)
    · rcases hpair with ⟨rfl, rfl⟩ | ⟨rfl, rfl⟩
      · simp [hfriend]
      · simp [hfriend']
    · simp [hpair, ServerState.isFriend]

theorem friend_decline_unnoticed (other : Int) (hd : w.db.tables.Valid) (htx : w.db.tx = none)
    (hc : ¬w.mem.hasRequest other 0) :
    Ensures env w (friend_decline pg fd 0 other) fun _ w' => Unnoticed fd w w' := by
  refine unnoticed_andNext (Ensures.locked (Ensures.bind (R := fun _ w₁ => Unnoticed fd w w₁ ∧
    w₁.mem.g_friend_requests = w.mem.g_friend_requests) (ensures_when (fun _ => ?_) fun _ => ⟨.refl fd w, rfl⟩)
      fun _ w₁ h₁ => ensures_modify (Unnoticed.answer ?_ ..)))
  -- no row is addressed to the user 0, and memory has no request of the other
  · have hdecline : Ensures env w (decline_friend_request other 0) fun _ w₁ => w₁.db = w.db :=
      logged_idle 0 other htx (delete_friend_request_nobody hd other)
    have hquiet := unnoticed_part fd (hdecline.and (ensures_frame _)) (by simp) fun _ _ h => by rw [h.1]
    exact (hquiet.lift _).bind fun _ w₁ h => ensures_pure ⟨h.1, h.2.2 (.var .g_friend_requests) (by simp)⟩
  · obtain ⟨hsame, hrequests⟩ := h₁
    refine hsame.trans { Unnoticed.refl fd w₁ with requests := get_forget_absent ?_ }
    rw [hrequests]
    exact hc

variable (pg env) in
theorem unfriend_unnoticed (other : Int) (hc : (Command.unfriend other).unnoticed pg env fd w) :
    Ensures env w (unfriend fd 0 other) fun _ w' => Unnoticed fd w w' := by
  obtain ⟨hfriend, hfriend', hrequest, hrequest'⟩ := hc
  refine unnoticed_andNext (Ensures.locked (ensures_modify (ensures_modify (Unnoticed.answer ?_ ..))))
  refine { Unnoticed.refl fd w with friends := fun a b => ?_, requests := get_forget_both hrequest hrequest' }
  show ((unfriend_pair 0 other w.mem.g_friends).get a).get b = w.mem.isFriend a b
  rw [get_unfriend_pair]
  by_cases hpair : (a = 0 ∧ b = other) ∨ (a = other ∧ b = 0)
  · rcases hpair with ⟨rfl, rfl⟩ | ⟨rfl, rfl⟩
    · simp [hfriend]
    · simp [hfriend']
  · simp [hpair, ServerState.isFriend]

/-- Nothing is missing. -/
theorem add_missing_of_mem {vec froms : List Int} (h : ∀ a ∈ froms, a ∈ vec) : add_missing vec froms = vec := by
  unfold add_missing
  induction froms with
  | nil => rfl
  | cons a froms ih =>
    rw [List.foldl_cons, if_pos (h a List.mem_cons_self)]
    exact ih fun b hb => h b (List.mem_cons_of_mem a hb)

theorem merge_pending_unnoticed (fd : Int) (hd : w.db.tables.Valid) :
    Ensures env w (merge_pending pg 0 (w.mem.g_friend_requests.get 0)) fun _ w' => Unnoticed fd w w' := by
  cases pg with
  | false => exact Unnoticed.refl fd w
  | true =>
    refine (((get_pending_requests_ensures 0).and
      ((read_unnoticed fd _).and (ensures_frame _))).lift _).bind fun rows w₁ h₁ => ?_
    obtain ⟨hrows, hsame, hframe⟩ := h₁
    have hrequests : w₁.mem.g_friend_requests = w.mem.g_friend_requests := hframe (.var .g_friend_requests) (by simp)
    -- the database has no request to the user 0, so its list stays as it is
    have hnone : rows = [] := by
      refine List.eq_nil_iff_forall_not_mem.mpr fun r hr => ?_
      have hpending := hrows r hr
      rw [isPending_nobody hd] at hpending
      cases hpending
    refine Ensures.bind (R := fun _ w' => Unnoticed fd w w') (Ensures.locked ?_) fun _ w' h => ensures_pure h
    refine hsame.trans { Unnoticed.refl fd w₁ with requests := fun uid => ?_ }
    show (w₁.mem.g_friend_requests.update 0 _).get uid = _
    rw [UMap.get_update, hrequests, hnone]
    split
    · next huid =>
      rw [huid]
      exact add_missing_of_mem fun a ha => ha
    · rfl

theorem get_friends_list_unnoticed (hd : w.db.tables.Valid) :
    Ensures env w (get_friends_list pg fd 0) fun _ w' => Unnoticed fd w w' := by
  refine Ensures.bind (R := fun found w₁ => Unnoticed fd w w₁ ∧ w₁.db = w.db ∧
    found.2 = w₁.mem.g_friend_requests.get 0) (Ensures.locked (ensures_modify ?_)) fun found w₁ h₁ => ?_
  · exact ⟨unnoticed_touch w fd fun a => UMap.get_touch .., rfl, rfl⟩
  obtain ⟨items, inMemory⟩ := found
  obtain ⟨hsame, hdb, rfl⟩ := h₁
  refine ((merge_pending_unnoticed fd (by rw [hdb]; exact hd)).lift _).bind fun froms w₂ h₂ => ?_
  refine ((read_unnoticed fd _).lift _).bind fun requests w₃ h₃ => unnoticed_andNext (Unnoticed.answer ?_ ..)
  exact hsame.trans (h₂.trans h₃)

end Friends

/-! ## Messages -/

section Messages

variable {pg : Bool} {env : Env} {w : World} {fd : Int}

theorem direct_message_unnoticed (recipientId : Int) (message : Bytes) (hfd : fd ≠ -1) (hd : w.db.tables.Valid)
    (htx : w.db.tx = none) (honline : w.mem.g_online_clients.find? recipientId = some fd) :
    Ensures env w (direct_message pg fd 0 recipientId message) fun _ w' => Unnoticed fd w w' := by
  refine Ensures.bind (R := fun _ w₁ => Unnoticed fd w w₁ ∧ w₁.mem = w.mem ∧ w₁.db = w.db)
    ⟨unnoticed_of_frame (fun x hx => ?_) rfl, rfl, rfl⟩ fun ms w₁ h₁ => ?_
  · exact Op.exec_same env .now_ms (by simp [Op.writes]) w
  obtain ⟨hsame, hmem, hdb⟩ := h₁
  refine Ensures.bind (R := fun _ w₂ => Unnoticed fd w w₂ ∧ w₂.mem.g_online_clients = w.mem.g_online_clients)
    (ensures_when (fun _ => ?_) fun _ => ⟨hsame, by rw [hmem]⟩) fun _ w₂ h₂ => ?_
  -- the row of a sender that is no user is refused
  · have hsave : Ensures env w₁ (save_message 0 recipientId message (ms / 1000 * 1000)) fun _ w₂ => w₂.db = w₁.db :=
      (execute_idle (by rw [hdb, htx]) (insert_message_nobody (by rw [hdb]; exact hd) ..)).bind
        fun _ _ h => ensures_pure h
    have hquiet := unnoticed_part fd (hsave.and (ensures_frame _)) (by simp) fun _ _ h => by rw [h.1]
    refine (hquiet.lift _).bind fun _ w₂ h => ensures_pure ⟨hsame.trans h.1, ?_⟩
    rw [← hmem]
    exact h.2.2 (.var .g_online_clients) (by simp)
  · -- the recipient is listed with this connection
    obtain ⟨hsame, hclients⟩ := h₂
    have hfind : w₂.mem.online_fd recipientId = fd := by
      rw [ServerState.online_fd, hclients, honline]
      rfl
    have hdeliver : Ensures env w₂ (deliver (direct_message_frame 0 message (ms / 1000 * 1000)) recipientId)
        fun _ w₃ => Unnoticed fd w w₃ := by
      refine Ensures.bind (R := fun found w₃ => found = fd ∧ w₃ = w₂) (Ensures.locked ⟨hfind, rfl⟩)
        fun found w₃ h₃ => ?_
      obtain ⟨rfl, rfl⟩ := h₃
      exact ensures_ite (fun _ => hsame.answer ..) fun hnot => absurd hfd hnot
    exact (hdeliver.lift _).bind fun _ w₃ h₃ => unnoticed_andNext (h₃.answer ..)

theorem get_conversation_history_unnoticed (other limit : Int) :
    Ensures env w (get_conversation_history fd 0 other limit) fun _ w' => Unnoticed fd w w' :=
  ((read_unnoticed fd _).lift _).bind fun _ _ h => unnoticed_andNext (h.answer ..)

theorem get_group_history_unnoticed (gid limit : Int) :
    Ensures env w (get_group_history pg fd 0 gid limit) fun _ w' => Unnoticed fd w w' := by
  refine ((read_unnoticed fd _).lift _).bind fun member w₁ h₁ => unnoticed_andNext ?_
  refine ensures_ite (fun _ => h₁.answer ..) fun _ => ?_
  refine ensures_ite (fun _ => ?_) fun _ => h₁.answer (o := List.mem_cons_self) ..
  exact ((read_unnoticed fd _).lift _).bind fun messages w₂ h₂ => (h₁.trans h₂).answer ..

theorem delete_conversation_unnoticed (other : Int) (hd : w.db.tables.Valid) (htx : w.db.tx = none) :
    Ensures env w (handle_client.delete_conversation pg fd 0 other) fun _ w' => Unnoticed fd w w' := by
  have hanswer : ∀ (success : Bool) (w₁ : World), Unnoticed fd w w₁ → Ensures env w₁ (andNext (
      if success then reply fd .SUCCESS (str "Conversation deleted") (u32 0)
      else reply fd .ERROR (str "Failed to delete conversation") (u32 0)) : Prog [.table .messages, .out] Outcome)
      fun _ w' => Unnoticed fd w w' := fun success w₁ h₁ =>
    unnoticed_andNext (ensures_ite (fun _ => h₁.answer ..) fun _ => h₁.answer ..)
  refine ensures_ite (fun _ => ?_) fun _ => hanswer false w (.refl fd w)
  have hdelete : Ensures env w (PostgresPersistence.delete_conversation 0 other) fun _ w₁ => w₁.db = w.db :=
    (execute_idle htx (delete_messages_nobody hd other)).bind fun _ _ h => ensures_pure h
  have hquiet := unnoticed_part fd hdelete (by simp) fun _ _ h => by rw [h]
  exact (hquiet.lift _).bind fun success w₁ h₁ => hanswer success w₁ h₁.1

end Messages

/-! ## Groups -/

section Groups

variable {pg : Bool} {env : Env} {w : World} {fd : Int}

/-- A group needs a creator that the database knows. -/
theorem create_group_unnoticed (name : Option Bytes) (ids : List Int) (hd : w.db.tables.Valid) (htx : w.db.tx = none)
    (hpg : pg = true) : Ensures env w (handle_client.create_group pg fd 0 name ids) fun _ w' => Unnoticed fd w w' := by
  subst hpg
  refine (((read_unnoticed fd _).and (Q := fun _ w₁ => w₁.db = w.db) ?_).lift _).bind fun name w₁ h₁ => ?_
  · cases name <;> rfl
  obtain ⟨hfirst, hdb⟩ := h₁
  have hcreate : Ensures env w₁ (PostgresPersistence.create_group name 0) fun gid w₂ =>
      gid = none ∧ w₁.db.tables.groupsNext w₂.db.tables := by
    refine (create_group_ensures name 0 (by rw [hdb, htx])).mono fun gid w₂ h => ?_
    have hnobody : w₁.db.tables.hasUser 0 = false := by
      rw [hdb]
      exact hd.nobody
    obtain ⟨-, ⟨-, huser, -⟩ | ⟨hnext, hsome, -⟩⟩ := h
    · rw [hnobody] at huser
      cases huser
    · refine ⟨Option.eq_none_iff_forall_ne_some.mpr fun g hg => ?_, hnext⟩
      have huser := (hsome g hg).2
      rw [hnobody] at huser
      cases huser
  -- without an id there are no members to add; only the sequence has gone on
  have hdatabase : Ensures env w₁ (create_group_db 0 name ids) fun gid w₂ => gid = none ∧ Unnoticed fd w w₂ := by
    refine (hcreate.and (ensures_frame _)).bind fun gid w₂ h₂ => ?_
    obtain ⟨⟨rfl, hnext⟩, hframe⟩ := h₂
    refine ensures_pure ⟨rfl, hfirst.trans ?_⟩
    have hmaps : Unnoticed fd w₁ { w₂ with db := w₁.db } :=
      unnoticed_of_frame (fun x hx => ?_) rfl
    · exact { hmaps with tables := hnext }
    · have hx' := hframe x (by
        simp only [List.mem_cons, List.not_mem_nil, or_false] at hx
        rcases hx with rfl | rfl | rfl | rfl | rfl <;> simp [all_tables])
      simp only [List.mem_cons, List.not_mem_nil, or_false] at hx
      rcases hx with rfl | rfl | rfl | rfl | rfl <;> exact hx'
  refine (hdatabase.lift _).bind fun gid w₂ h₂ => ?_
  obtain ⟨rfl, hsame⟩ := h₂
  -- the answer is an error, and memory is not populated
  refine unnoticed_andNext (Ensures.lift ?_ _)
  exact ensures_ite (fun _ => hsame.answer ..) fun h => absurd rfl h

theorem invite_to_group_unnoticed (gid uid : Int) (hmember : w.mem.hasMember gid 0 = false) :
    Ensures env w (invite_to_group pg fd 0 gid uid) fun _ w' => Unnoticed fd w w' :=
  refused_unnoticed (Ensures.locked ⟨hmember, .refl fd w⟩)

theorem rename_group_unnoticed (gid : Int) (newName : Bytes) (hmember : w.mem.hasMember gid 0 = false) :
    Ensures env w (handle_client.rename_group pg fd 0 gid newName) fun _ w' => Unnoticed fd w w' := by
  refine refused_unnoticed (Ensures.locked (ensures_read ?_))
  rw [hmember]
  exact ⟨rfl, .refl fd w⟩

theorem set_group_nickname_unnoticed (gid uid : Int) (nick : Bytes) (htarget : w.mem.hasMember gid uid = false) :
    Ensures env w (handle_client.set_group_nickname pg fd 0 gid uid nick) fun _ w' => Unnoticed fd w w' := by
  refine refused_unnoticed (Ensures.locked (ensures_read ?_))
  rw [htarget]
  exact ⟨rfl, .refl fd w⟩

/-- A change to a group that is not there. -/
theorem adjust_absent {gid : Int} {g : Groups} (F : Group → Group) (h : g.count gid = false) : g.adjust gid F = g := by
  have hfind : g.find? gid = none := by simpa [UMap.count] using h
  rw [UMap.adjust, hfind]

theorem accept_group_invite_unnoticed (gid : Int) (hd : w.db.tables.Valid) (htx : w.db.tx = none)
    (hc : pg = true ∨ w.mem.g_groups.count gid = false) :
    Ensures env w (accept_group_invite pg fd 0 gid) fun _ w' => Unnoticed fd w w' := by
  refine refused_unnoticed (Ensures.lift ?_ _)
  cases pg with
  | true =>
    have hadd : Ensures env w (add_group_member gid 0) _ := logged_refused 0 0 htx
      (.inr (insert_group_member_refused (isMember_nobody hd gid) (by simp [hd.nobody])))
    refine ((unnoticed_part fd hadd (by simp) fun _ _ h => h.2).lift _).bind fun ok w₁ h₁ => ?_
    obtain ⟨hsame, rfl, -⟩ := h₁
    exact ⟨rfl, hsame⟩
  | false =>
    have hunknown := hc.resolve_left Bool.false_ne_true
    refine Ensures.locked (ensures_read (ensures_modify (ensures_pure ⟨hunknown, ?_⟩)))
    refine { Unnoticed.refl fd w with groups := fun g => ?_ }
    exact congrArg (UMap.get · g) (adjust_absent _ hunknown)

theorem decline_group_invite_unnoticed (gid : Int) (hd : w.db.tables.Valid) (htx : w.db.tx = none) :
    Ensures env w (decline_group_invite pg fd 0 gid) fun _ w' => Unnoticed fd w w' := by
  refine Ensures.bind (R := fun _ w₁ => Unnoticed fd w w₁) (ensures_when (fun _ => ?_) fun _ => .refl fd w)
    fun _ w₁ h₁ => unnoticed_andNext (h₁.answer ..)
  have hdelete : Ensures env w (delete_group_invite gid 0) fun _ w₁ => w₁.db = w.db :=
    (execute_idle htx (delete_invite_nobody hd gid)).bind fun _ _ h => ensures_pure h
  have hquiet := unnoticed_part fd hdelete (by simp) fun _ _ h => by rw [h]
  exact (hquiet.lift _).bind fun _ w₁ h => ensures_pure h.1

/-- A query about the user 0 that is answered with `false`, or fails. -/
theorem select_unnoticed {q : Tables → Bool} (fd : Int) (htx : w.db.tx = none) (hq : q w.db.tables = false) :
    Ensures env w (select q >>= fun res => pure (res.getD false) : Prog [] Bool) fun ok w₁ =>
      ok = false ∧ Unnoticed fd w w₁ :=
  (unnoticed_part fd (select_refused htx hq) (by simp) fun _ _ h => by rw [h.2]).mono fun _ _ h => ⟨h.2.1, h.1⟩

theorem remove_from_group_unnoticed (gid uid : Int) (hd : w.db.tables.Valid) (htx : w.db.tx = none)
    (hc : (Command.remove_from_group gid uid).unnoticed pg env fd w) :
    Ensures env w (remove_from_group pg fd 0 gid uid) fun _ w' => Unnoticed fd w w' := by
  cases pg with
  | true =>
    by_cases huid : uid = 0
    · -- the statement fails
      have hfails : env.sql_fails w.ticks = true := hc.resolve_left (not_not.mpr huid)
      have hremove : Ensures env w (remove_group_member gid uid) _ := logged_refused uid 0 htx (.inl hfails)
      have hpersist : Ensures env w (persist_removal true gid uid) fun ok w₁ => ok = false ∧ Unnoticed fd w w₁ := by
        refine ((unnoticed_part fd hremove (by simp) fun _ _ h => h.2).lift _).bind fun ok w₁ h₁ => ?_
        obtain ⟨hsame, rfl, -⟩ := h₁
        exact ⟨rfl, hsame⟩
      refine ((may_remove_self huid).lift _).bind fun ok w₁ h₁ => unnoticed_andNext ?_
      obtain ⟨rfl, rfl⟩ := h₁
      refine ensures_ite (fun h => absurd h (by simp)) fun _ => ?_
      refine (hpersist.lift _).bind fun ok w₂ h₂ => ?_
      obtain ⟨rfl, hsame⟩ := h₂
      exact ensures_ite (fun _ => hsame.answer ..) fun hok => absurd rfl hok
    -- without a row the user 0 is no admin
    · refine refused_unnoticed (Ensures.lift ?_ _)
      rw [may_remove, if_pos rfl, if_neg huid]
      exact select_unnoticed fd htx (isAdmin_of_not_member (isMember_nobody hd gid))
  | false =>
    refine refused_unnoticed (Ensures.lift (Ensures.locked ?_) _)
    refine ⟨?_, .refl fd w⟩
    show (if uid = 0 then w.mem.g_groups.count gid else w.mem.hasAdmin gid 0) = false
    change if uid = 0 then w.mem.g_groups.count gid = false else w.mem.hasAdmin gid 0 = false at hc
    split
    · next huid => rwa [if_pos huid] at hc
    · next huid => rwa [if_neg huid] at hc

theorem make_admin_unnoticed (gid uid : Int) (hd : w.db.tables.Valid) (htx : w.db.tx = none)
    (hc : pg = true ∨ w.mem.hasAdmin gid 0 = false) :
    Ensures env w (make_admin pg fd 0 gid uid) fun _ w' => Unnoticed fd w w' := by
  refine refused_unnoticed (Ensures.lift ?_ _)
  cases pg with
  | true => exact select_unnoticed fd htx (isAdmin_of_not_member (isMember_nobody hd gid))
  | false => exact Ensures.locked ⟨hc.resolve_left Bool.false_ne_true, .refl fd w⟩

variable (pg env) in
/-- Leaving is not refused, but there is nothing to take away. -/
theorem leave_group_unnoticed (gid : Int) (hd : w.db.tables.Valid) (htx : w.db.tx = none)
    (hc : (Command.leave_group gid).unnoticed pg env fd w) :
    Ensures env w (leave_group pg fd 0 gid) fun _ w' => Unnoticed fd w w' := by
  -- by the condition the entry in memory is not changed, or is as good as none
  have hgroups : ∀ g, (leave gid 0 w.mem.g_groups).get g = w.mem.g_groups.get g := by
    cases hfind : w.mem.g_groups.find? gid with
    | none =>
      intro g
      rw [leave, hfind]
    | some grp => exact (get_leave_iff 0 gid hfind).mpr (hc grp hfind)
  refine Ensures.bind (R := fun _ w₁ => Unnoticed fd w w₁ ∧ w₁.db = w.db)
    (Ensures.locked (ensures_read (ensures_modify (ensures_read (ensures_pure ?_))))) fun r w₁ h₁ => ?_
  · exact ⟨{ Unnoticed.refl fd w with groups := hgroups }, rfl⟩
  obtain ⟨hsame, hdb⟩ := h₁
  have hanswer : ∀ (persisted : Bool) (text : Bytes) (w₂ : World), Unnoticed fd w w₂ → Ensures env w₂ (andNext (
      if !persisted then reply fd .ERROR (str "Leave failed (db)") (u32 0)
      else reply fd .SUCCESS text (u32 0)) : Prog leave_writes Outcome) fun _ w' => Unnoticed fd w w' :=
    fun persisted text w₂ h₂ => unnoticed_andNext (ensures_ite (fun _ => h₂.answer ..) fun _ => h₂.answer ..)
  refine ensures_ite (fun _ => ?_) fun _ => hanswer true _ w₁ hsame
  -- and the database has no row to delete
  have hremove : Ensures env w₁ (remove_group_member gid 0) fun _ w₂ => w₂.db = w₁.db :=
    logged_idle 0 0 (by rw [hdb, htx]) (delete_absent (isMember_nobody (by rw [hdb]; exact hd) gid))
  have hquiet := unnoticed_part fd hremove (by simp) fun _ _ h => by rw [h]
  exact (hquiet.lift _).bind fun persisted w₂ h₂ => hanswer persisted _ w₂ (hsame.trans h₂.1)

/-- A message is not for those who are in the group alone, nor is it from those who are not. -/
theorem group_message_unnoticed (gid : Int) (message : Bytes) (hd : w.db.tables.Valid) (htx : w.db.tx = none)
    (hc : (Command.group_message gid message).unnoticed pg env fd w) :
    Ensures env w (group_message pg fd 0 gid message) fun _ w' => Unnoticed fd w w' := by
  have hrecipients : Ensures env w (recipients pg 0 gid) fun r w₁ =>
      (r = none ∨ (pg = false ∧ r = some [])) ∧ Unnoticed fd w w₁ := by
    cases pg with
    | true =>
      -- the database has no row of the user 0
      have hmember : Ensures env w (is_group_member gid 0) fun ok w₁ => ok = false ∧ Unnoticed fd w w₁ :=
        select_unnoticed fd htx (isMember_nobody hd gid)
      refine hmember.bind fun ok w₁ h₁ => ?_
      obtain ⟨rfl, hsame⟩ := h₁
      exact ⟨.inl rfl, hsame⟩
    | false =>
      -- in memory it is no member, or the only one
      have hothers := hc.resolve_left Bool.false_ne_true
      have hvalue : ∀ r, r = (if w.mem.hasMember gid 0 then
          (w.mem.g_groups.find? gid).map fun g => g.members.keys.filter (· ≠ 0) else none) →
            r = none ∨ (false = false ∧ r = some []) := by
        rintro _ rfl
        split
        · next hmember =>
          obtain ⟨g, hfind, hcount⟩ := (Option.any_eq_true _ _).mp hmember
          have hnobody : g.members.keys.filter (· ≠ 0) = [] :=
            List.filter_eq_nil_iff.mpr fun uid huid => by simp [hothers g hfind hcount uid huid]
          exact .inr ⟨rfl, by rw [hfind, Option.map_some, hnobody]⟩
        · exact .inl rfl
      exact Ensures.locked ⟨hvalue _ rfl, .refl fd w⟩
  refine (hrecipients.lift _).bind fun r w₁ h₁ => ?_
  obtain ⟨rfl | ⟨rfl, rfl⟩, hsame⟩ := h₁
  · exact unnoticed_andNext (hsame.answer (S := group_message_writes) ..)
  · -- nobody else is in the group
    have hticked : Ensures env w₁ (now_ms : Prog group_message_writes Int) fun _ w₂ => Unnoticed fd w₁ w₂ :=
      unnoticed_of_frame (fun x hx => Op.exec_same env .now_ms (by simp [Op.writes]) w₁) rfl
    exact hticked.bind fun ts_ms w₂ h₂ => unnoticed_andNext ((hsame.trans h₂).answer (S := group_message_writes) ..)

end Groups

/-! ## Every request -/

section Requests

variable {pg : Bool} {env : Env} {w w' : World} {fd rid : Int}

/-- The three cases that answer for the requester of the header only read. -/
theorem AnsweredFor.unnoticed {c : Command} (h : AnsweredFor pg env fd rid c w w') : Unnoticed fd w w' := by
  have htables : w'.db.tables = w.db.tables := Tables.eq_of_get fun t => h.same (.table t) (by simp)
  have hsame : Unnoticed fd { w with mem := { w.mem with g_friends := w'.mem.g_friends }, out := w'.out } w' :=
    unnoticed_of_frame (fun x hx => ?_) htables
  · obtain ⟨f, hout, hfd, -⟩ := h.replied
    refine { hsame with friends := fun a b => congrArg (UMap.get · b) (h.friends a), sent := ⟨[f], hout, ?_⟩ }
    intro f' hf'
    rw [List.mem_singleton.mp hf', hfd]
  · simp only [List.mem_cons, List.not_mem_nil, or_false] at hx
    rcases hx with rfl | rfl | rfl | rfl | rfl
    · rfl
    · exact h.same (.var .g_friend_requests) (by simp)
    · exact h.same (.var .g_groups) (by simp)
    · exact h.same (.var .g_offline_messages) (by simp)
    · rfl

/-- The user 0 was not online. -/
theorem end_connection_nobody (hsession : w.session fd = 0) (env : Env) : Unnoticed fd w (end_connection env fd w) := by
  have hcleanup : Ensures env w (cleanup fd 0) fun _ w' => Unnoticed fd w w' :=
    unnoticed_of_frame (fun x hx => by
      simp only [List.mem_cons, List.not_mem_nil, or_false] at hx
      rcases hx with rfl | rfl | rfl | rfl | rfl <;> rfl) rfl
  rw [end_connection, hsession]
  exact hcleanup

/-- **Nobody notices a command of the user 0** that meets the condition. -/
theorem perform_unnoticed {c : Command} (hfd : fd ≠ -1) (hd : w.db.tables.Valid) (htx : w.db.tx = none)
    (hanswers : c.forRequester = false) (hc : c.unnoticed pg env fd w) :
    Ensures env w (perform pg fd 0 rid c) fun _ w' => Unnoticed fd w w' := by
  have hstart := Unnoticed.refl fd w
  cases c with
  -- the two requests that log somebody in
  | register | login => exact hc.elim
  -- these answer for the requester of the header: `AnsweredFor.unnoticed`
  | search_user | get_all_users | get_user_groups => cases hanswers
  | heartbeat | unknown => exact Ensures.lift (unnoticed_andNext (hstart.answer ..)) (by decide)
  | logout =>
    have hlogout : Ensures env w (logout fd 0) fun _ w' => Unnoticed fd w w' :=
      hstart.answer (S := logout_writes) (o := by decide) .SUCCESS [] (u32 0)
    exact hlogout.lift (by decide)
  | get_friends_list => exact (get_friends_list_unnoticed hd).lift (by decide)
  | friend_request target => exact (friend_request_unnoticed target hd htx hc).lift (by decide)
  | friend_accept other => exact (friend_accept_unnoticed other hd htx hc).lift (by decide)
  | friend_decline other => exact (friend_decline_unnoticed other hd htx hc).lift (by decide)
  | unfriend other => exact (unfriend_unnoticed pg env other hc).lift (by decide)
  | direct_message recipientId message =>
    exact (direct_message_unnoticed recipientId message hfd hd htx hc).lift (by decide)
  | get_conversation_history other limit => exact (get_conversation_history_unnoticed other limit).lift (by decide)
  | get_group_history gid limit => exact (get_group_history_unnoticed gid limit).lift (by decide)
  | delete_conversation other => exact (delete_conversation_unnoticed other hd htx).lift (by decide)
  | create_group name ids => exact (create_group_unnoticed name ids hd htx hc).lift (by decide)
  | invite_to_group gid uid => exact (invite_to_group_unnoticed gid uid hc).lift (by decide)
  | accept_group_invite gid => exact (accept_group_invite_unnoticed gid hd htx hc).lift (by decide)
  | decline_group_invite gid => exact (decline_group_invite_unnoticed gid hd htx).lift (by decide)
  | rename_group gid newName => exact (rename_group_unnoticed gid newName hc).lift (by decide)
  | set_group_nickname gid uid nick => exact (set_group_nickname_unnoticed gid uid nick hc).lift (by decide)
  | remove_from_group gid uid => exact (remove_from_group_unnoticed gid uid hd htx hc).lift (by decide)
  | make_admin gid uid => exact (make_admin_unnoticed gid uid hd htx hc).lift (by decide)
  | leave_group gid => exact (leave_group_unnoticed pg env gid hd htx hc).lift (by decide)
  | group_message gid message => exact (group_message_unnoticed gid message hd htx hc).lift (by decide)

/-- The event is a frame on `fd` whose command, if it has one, meets the condition. -/
def Event.unnoticed (pg : Bool) (env : Env) (fd : Int) (w : World) (e : Event) : Prop :=
  (∃ r, e = .request fd r) ∧ ∀ rid c, e.command pg w = some (fd, rid, c) → c.unnoticed pg env fd w

/-- One frame: nobody notices it, and nobody has logged in on the connection after it. -/
theorem Server.step_unnoticed {e : Event} (hfd : fd ≠ -1) (hd : w.db.tables.Valid) (htx : w.db.tx = none)
    (hsession : w.session fd = 0) (hs : Server.step pg env w e = some w') (he : e.unnoticed pg env fd w) :
    Unnoticed fd w w' ∧ w'.session fd = 0 := by
  obtain ⟨⟨r, rfl⟩, hc⟩ := he
  -- a connection that is closed has no session either
  have hclosed : ∀ w₁ : World, (end_connection env fd w₁).session fd = 0 := by
    intro w₁
    rw [World.session, (end_connection_sessions env w₁ fd).conns, UMap.get_erase, if_pos rfl]
    rfl
  cases Server.move_of_step pg env hs with
  | refused _ me _ opened invalid =>
    have hanswer : Ensures env w (invalid_header fd) fun _ w₁ => Unnoticed fd w w₁ :=
      ((Unnoticed.refl fd w).answer ..).bind fun _ _ h => ensures_pure h
    have hended := end_connection_nobody (w := ((invalid_header fd).run env w).2) hsession env
    exact ⟨Unnoticed.trans hanswer hended, hclosed _⟩
  | performed _ me rid _ c opened command =>
    -- the handler reads the user of the connection, which is 0
    obtain rfl : me = 0 := by
      rw [← hsession, World.session, UMap.get_of_find? opened]
    have hmeets := hc rid c command
    by_cases hanswers : c.forRequester = true
    · have hanswered := @perform_answered pg env w fd 0 rid _ hanswers
      refine ⟨hanswered.unnoticed, ?_⟩
      rw [World.session, show World.conns _ = w.conns from hanswered.same .conns (by simp)]
      exact hsession
    · have hperform : Ensures env w (perform pg fd 0 rid c) fun _ w₁ => Unnoticed fd w w₁ :=
        perform_unnoticed hfd hd htx (by simpa using hanswers) hmeets
      have hconns : World.session ((perform pg fd 0 rid c).run env w).2 fd = 0 := by
        have hsame : Field.conns.Same w ((perform pg fd 0 rid c).run env w).2 := by
          refine perform_frame pg env fd 0 rid c w ?_
          cases c with
          | register | login => exact hmeets.elim
          | _ => simp [Command.writes, all_tables]
        rw [World.session, show World.conns _ = w.conns from hsame]
        exact hsession
      unfold finish
      split
      · exact ⟨Unnoticed.trans hperform (end_connection_nobody hconns env), hclosed _⟩
      · exact ⟨hperform, hconns⟩

/-- **Nobody notices a connection on which nobody has logged in**, as long as its requests meet the condition: after
any sequence of them, in any reachable state, with a database or without, everything is as it was for everybody else. -/
theorem nobody_notices {tr : List (Taken World Event)} (reach : Reachable pg env w) (opened : w.conns.find? fd = some 0)
    (run : Server.Run pg env (Event.unnoticed pg env fd) w tr w') : Unnoticed fd w w' := by
  have hfd : fd ≠ -1 := by
    have := reach.open_nonneg opened
    omega
  suffices hall : Reachable pg env w' ∧ Unnoticed fd w w' ∧ w'.session fd = 0 from hall.2.1
  refine run.invariant (I := fun x => Reachable pg env x ∧ Unnoticed fd w x ∧ x.session fd = 0)
    ⟨reach, .refl fd w, UMap.get_of_find? opened⟩ fun x e y hx he hs => ?_
  obtain ⟨hreach, hsame, hsession⟩ := hx
  obtain ⟨hstep, hsession'⟩ := Server.step_unnoticed hfd hreach.tables_valid hreach.tx_none hsession hs he
  obtain ⟨w₀, tr₀, booted, run₀⟩ := hreach
  exact ⟨⟨w₀, _, booted, run₀.snoc trivial hs⟩, hsame.trans hstep, hsession'⟩

end Requests

/-! ## A third connection -/

/-- Users 1 and 2 are there, and nobody has logged in on connection 7. -/
def third_connection : List Event := two_users ++ [.accept 7]

/-- The command of a frame does not depend on the state. -/
theorem command_of_decode {pg : Bool} {w : World} {fd fd' rid : Int} {r : Request} {c c' : Command}
    (hc : decode pg r.header.type r.payload = .ok c) (h : Event.command pg w (.request fd r) = some (fd', rid, c')) :
    c' = c := by
  rw [Event.command, hc] at h
  split at h
  · cases h
    rfl
  · cases h

/-- Connection 7 asks user 1 for friendship and founds a group, in vain. -/
theorem nobody_notices_asking : ∃ (w w' : World) (tr : List (Taken World Event)), Reachable true Env.calm w ∧
    w.conns.find? 7 = some 0 ∧ Unnoticed 7 w w' ∧
    tr.map Taken.event = [.send 7 .FRIEND_REQUEST "targetUserId=1", .send 7 .CREATE_GROUP "name=g&members=1"] := by
  have hexec : (Run.exec (Server.step true Env.calm) loaded third_connection).map (fun w =>
      (decide (w.conns.find? 7 = some 0), (Run.exec (Server.step true Env.calm) w
        [.send 7 .FRIEND_REQUEST "targetUserId=1", .send 7 .CREATE_GROUP "name=g&members=1"]).isSome))
          = some (true, true) := by decide
  obtain ⟨w, reach, hw⟩ := reachable_of_exec (World.new_fresh Tables.empty_valid) rfl hexec
  obtain ⟨hopen, hsome⟩ := Prod.mk.inj hw
  obtain ⟨w', hw'⟩ := Option.isSome_iff_exists.mp hsome
  obtain ⟨tr, run, hevents⟩ := Run.of_exec hw'
  refine ⟨w, w', tr, reach, of_decide_eq_true hopen,
    nobody_notices reach (of_decide_eq_true hopen) (run.recorded.mono fun x e hx => ?_), hevents⟩
  obtain ⟨-, y, hy⟩ := hx
  have he : e ∈ tr.map Taken.event := List.mem_map.mpr ⟨_, hy, rfl⟩
  rw [hevents] at he
  simp only [List.mem_cons, List.not_mem_nil, or_false] at he
  rcases he with rfl | rfl
  · refine ⟨⟨_, rfl⟩, fun rid c hcommand => ?_⟩
    rw [command_of_decode (c := .friend_request (.id 1)) (by decide) hcommand]
    exact .inl rfl
  · refine ⟨⟨_, rfl⟩, fun rid c hcommand => ?_⟩
    rw [command_of_decode (c := .create_group (some (str "g")) [1]) (by decide) hcommand]
    rfl

/-- **Somebody may notice**: a direct message from connection 7 is delivered to user 1. -/
theorem somebody_notices : ¬∀ pg env w tr w' fd, Reachable pg env w → w.conns.find? fd = some 0 →
    Server.Run pg env (fun x e => (∃ r, e = .request fd r) ∧ ∀ rid payload,
      e.command pg x ≠ some (fd, rid, .register payload) ∧ e.command pg x ≠ some (fd, rid, .login payload)) w tr w' →
    Unnoticed fd w w' := by
  intro claim
  have hexec : (Run.exec (Server.step false Env.calm) (World.new Tables.empty) third_connection).map (fun w =>
      (decide (w.conns.find? 7 = some 0), (Server.step false Env.calm w
        (.send 7 .DIRECT_MESSAGE "recipientId=1&message=hi")).map fun w' =>
          (w'.out.drop w.out.length).map Frame.fd)) = some (true, some [5, 7]) := by decide
  obtain ⟨w, reach, hw⟩ := reachable_of_exec (World.new_fresh Tables.empty_valid) rfl hexec
  obtain ⟨hopen, hsent⟩ := Prod.mk.inj hw
  obtain ⟨w', hs, hfds⟩ := Option.map_eq_some_iff.mp hsent
  have hsame := claim false Env.calm w _ w' 7 reach (of_decide_eq_true hopen) (.snoc (.nil w) ⟨⟨_, rfl⟩, ?_⟩ hs)
  · obtain ⟨frames, hout, hown⟩ := hsame.sent
    rw [hout, List.drop_left] at hfds
    obtain ⟨f, hf, hfd⟩ := List.mem_map.mp (hfds ▸ List.mem_cons_self : (5 : Int) ∈ frames.map Frame.fd)
    have := hown f hf
    omega
  · intro rid payload
    constructor <;>
    · intro hcommand
      have hc := command_of_decode (c := .direct_message 1 (str "hi")) (by decide) hcommand
      cases hc

end ChatApp
