/-
`Ownership.lean` -- whose rows they are.

Who makes a statement is among its parameters. So the rows between two users change only by frames that arrive in a
session of theirs, and there is no row that nobody has asked for: a message is stored for a `DIRECT_MESSAGE` of its
sender, a friendship for a `FRIEND_ACCEPT` of one of the two. The announcements of the server itself have user 0 for
their sender, which is no user, and are never stored.
-/
import ChatApp.Answers
import ChatApp.FriendSymmetry
import ChatApp.SchemaKept

set_option autoImplicit false

namespace ChatApp

open Prog PostgresPersistence handle_client

/-! ## Rows between two users -/

/-- The rows that concern the two users and nobody else. -/
structure RowsBetween where
  friends : List FriendRow
  friend_requests : List FriendRequestRow
  messages : List MessageRow

/-- `x` and `y` are `a` and `b`, in either order. -/
def is_pair (a b x y : Int) : Bool := (x = a && y = b) || (x = b && y = a)

/-- Their friendship, their requests and their conversation. -/
def Tables.between (a b : Int) (d : Tables) : RowsBetween where
  friends := d.friends.filter fun r => is_pair a b r.user_id_1 r.user_id_2
  friend_requests := d.friend_requests.filter fun r => is_pair a b r.from_user_id r.to_user_id
  messages := d.messages.filter fun r => is_pair a b r.from_user_id r.to_user_id

section Between

variable {a b me : Int} {d : Tables}

theorem is_pair_first {y : Int} (ha : me ≠ a) (hb : me ≠ b) : is_pair a b me y = false := by
  simp [is_pair, ha, hb]

theorem is_pair_second {x : Int} (ha : me ≠ a) (hb : me ≠ b) : is_pair a b x me = false := by
  simp [is_pair, ha, hb]

/-- A row of somebody else is left out. -/
theorem filter_snoc {ρ : Type} {p : ρ → Bool} (rows : List ρ) {row : ρ} (h : p row = false) :
    (rows ++ [row]).filter p = rows.filter p := by
  rw [List.filter_append, List.filter_cons_of_neg (by simp [h]), List.filter_nil, List.append_nil]

/-- Rows of somebody else are deleted. -/
theorem filter_deleted {ρ : Type} {p q : ρ → Bool} (rows : List ρ) (h : ∀ r, p r = true → q r = true) :
    (rows.filter q).filter p = rows.filter p := by
  rw [List.filter_filter]
  refine List.filter_congr fun r _ => ?_
  cases hp : p r with
  | false => simp
  | true => simp [h r hp]

theorem is_pair_insert_friend {other : Int} (ha : me ≠ a) (hb : me ≠ b) :
    is_pair a b (if other > me then me else other) (if other > me then other else me) = false := by
  split
  · exact is_pair_first ha hb
  · exact is_pair_second ha hb

theorem insert_friend_between {x y : Int} (h : is_pair a b x y = false) : ((insert_friend x y d).2).filter
    (fun r => is_pair a b r.user_id_1 r.user_id_2) = d.friends.filter fun r => is_pair a b r.user_id_1 r.user_id_2 := by
  -- refused for the order of the ends, the row is there, a new row, or refused for a user
  rw [insert_friend]
  split_ifs
  · rfl
  · exact filter_snoc d.friends h
  · rfl
  · rfl

theorem upsert_between {x y : Int} (h : is_pair a b x y = false) : ((upsert_friend_request x y d).2).filter
    (fun r => is_pair a b r.from_user_id r.to_user_id) =
      d.friend_requests.filter fun r => is_pair a b r.from_user_id r.to_user_id := by
  rw [upsert_friend_request]
  split_ifs
  · rfl
  · -- the row that becomes pending again is none of theirs
    show (d.friend_requests.map _).filter _ = _
    induction d.friend_requests with
    | nil => rfl
    | cons r rows ih =>
      rw [List.map_cons]
      by_cases hr : (r.from_user_id = x && r.to_user_id = y) = true
      · have hpair : r.from_user_id = x ∧ r.to_user_id = y := by simpa using hr
        rw [if_pos hr, List.filter_cons_of_neg (by simp [hpair.1, hpair.2, h]),
          List.filter_cons_of_neg (by simp [hpair.1, hpair.2, h])]
        exact ih
      · rw [if_neg hr, List.filter_cons, List.filter_cons, ih]
  · exact filter_snoc d.friend_requests h
  · rfl

theorem insert_message_between {x y : Int} (h : is_pair a b x y = false) (content : Bytes) (timestamp : Int) :
    ((insert_message x y content timestamp d).2).filter (fun r => is_pair a b r.from_user_id r.to_user_id) =
      d.messages.filter fun r => is_pair a b r.from_user_id r.to_user_id := by
  rw [insert_message]
  split_ifs
  · exact filter_snoc d.messages h
  · rfl

/-- **A statement of a third user leaves them alone.** -/
theorem Issues.between_same {c : Command} {β : Type} {t : Table} {q : Statement t β} (h : Issues me c t q)
    (ha : me ≠ a) (hb : me ≠ b) (d : Tables) : (t.put (q d).2 d).between a b = d.between a b := by
  cases h with
  | befriended other =>
    exact congrArg (fun rows => { d.between a b with friends := rows })
      (insert_friend_between (is_pair_insert_friend ha hb))
  | requested target x =>
    exact congrArg (fun rows => { d.between a b with friend_requests := rows }) (upsert_between (is_pair_first ha hb))
  -- the deleted row is addressed to the third user
  | accepted other | declined other =>
    refine congrArg (fun rows => { d.between a b with friend_requests := rows }) (filter_deleted _ fun r hr => ?_)
    by_contra hdeleted
    have hto : r.to_user_id = me := by
      simp only [Bool.not_eq_true', Bool.not_eq_false, Bool.and_eq_true, decide_eq_true_eq] at hdeleted
      exact hdeleted.2
    rw [hto, is_pair_second ha hb] at hr
    cases hr
  | stored recipientId message timestamp =>
    exact congrArg (fun rows => { d.between a b with messages := rows })
      (insert_message_between (is_pair_first ha hb) _ _)
  -- the deleted messages are of the third user or to it
  | deleted other =>
    refine congrArg (fun rows => { d.between a b with messages := rows }) (filter_deleted _ fun r hr => ?_)
    by_contra hdeleted
    have hends : r.from_user_id = me ∨ r.to_user_id = me := by
      simp only [MessageRow.between, Bool.not_eq_true', Bool.not_eq_false, Bool.or_eq_true, Bool.and_eq_true,
        decide_eq_true_eq] at hdeleted
      exact hdeleted.imp And.left And.right
    rcases hends with h | h
    · rw [h, is_pair_first ha hb] at hr
      cases hr
    · rw [h, is_pair_second ha hb] at hr
      cases hr
  | _ => rfl

end Between

/-- Rolling back restores the rows as they were. -/
theorem transactional_rows {T : Tables → Prop} (h : ∀ now before, T before → T (Database.restore now before)) :
    Transactional T fun _ _ => True where
  refl _ := trivial
  trans _ _ := trivial
  restore hbefore _ := h _ _ hbefore

namespace Concurrent

section Run

variable {pg : Bool} {env₀ env : Env} {C : Concurrent → Concurrent.Event → Prop} {w₀ : World} {s : Concurrent}
  {tr : List (Taken Concurrent Concurrent.Event)} {a b : Int}

/-- **What is stored between two users changes only by their own frames**: in every run in which no frame arrives in a
session of theirs, in every interleaving and whatever fails, their friendship, their requests and their conversation
are in the tables as they were. -/
theorem rows_between_kept (booted : Booted pg env₀ w₀) (run : Run pg env (fun s e => ∀ fd r, e = .request fd r →
      s.world.session fd ≠ a ∧ s.world.session fd ≠ b) (quiet w₀) tr s) :
    s.world.db.tables.between a b = w₀.db.tables.between a b := by
  have hrule : Transactional (fun d => d.between a b = w₀.db.tables.between a b) fun _ _ => True :=
    transactional_rows fun now before h => h
  refine (holds_of_statements hrule run (holds_of_none rfl booted.tx_none) ?_).now
  rintro β t q ⟨x, hx, fd, r, c, he, _, hissues⟩ d hd
  have hsession := run.meets_of_mem hx fd r he
  exact ⟨(hissues.between_same hsession.1 hsession.2 d).trans hd, trivial⟩

end Run

/-- No frame arrives in a session of `a` or of `b`. -/
def apart (a b : Int) (s : Concurrent) : Event → Bool
  | .request fd _ => s.world.session fd ≠ a && s.world.session fd ≠ b
  | _ => true

/-- Users 1 and 2 are friends and have spoken. -/
def befriended_rows : Tables where
  users := ⟨[⟨1, str "a", [], [], false⟩, ⟨2, str "b", [], [], false⟩], 3⟩
  friends := [⟨1, 2⟩]
  friend_requests := []
  messages := [⟨2, 1, str "hi", 0⟩]
  groups := ⟨[], 1⟩
  group_members := []
  group_messages := []
  group_invites := []

theorem befriended_rows_valid : befriended_rows.Valid := by
  constructor <;> decide

/-- A third user asks the one for friendship, and writes to the other. -/
theorem rows_between_kept_third : ∃ s : Concurrent, (s.world.db.tables.messages.length,
    s.world.db.tables.friend_requests.length) = (2, 1) ∧
      s.world.db.tables.between 1 2 = ⟨[⟨1, 2⟩], [], [⟨2, 1, str "hi", 0⟩]⟩ := by
  have hbooted : Booted true Env.calm (load_database.run Env.calm (World.new befriended_rows)).2 :=
    ⟨_, World.new_fresh befriended_rows_valid, rfl⟩
  have hexec : (ChatApp.Run.exec (ChatApp.Run.guard (step true Env.calm) (apart 1 2))
      (quiet (load_database.run Env.calm (World.new befriended_rows)).2) (.accept 7 ::
        served 7 .REGISTER "username=c&password=x" 2 ++ served 7 .FRIEND_REQUEST "targetUserId=2" 4 ++
          served 7 .DIRECT_MESSAGE "recipientId=1&message=ho" 2)).map (fun s =>
            (s.world.db.tables.messages.length, s.world.db.tables.friend_requests.length)) = some (2, 1) := by decide
  obtain ⟨tr, s, run, hs⟩ := run_of_exec hexec
  refine ⟨s, hs, rows_between_kept (a := 1) (b := 2) hbooted (run.mono fun x e hapart fd r he => ?_)⟩
  subst he
  simpa [apart] using hapart

end Concurrent

/-! ## Rows that somebody asked for -/

/-- The same of valid tables. -/
theorem transactional_valid_rows {T : Tables → Prop}
    (h : ∀ now before, T before → T (Database.restore now before)) :
    Transactional (fun d => d.Valid ∧ T d) Tables.Follows where
  refl hd := follows_self hd.1
  trans := transactional_schema.trans
  restore hbefore hnow := ⟨transactional_schema.restore hbefore.1 hnow, h _ _ hbefore.2⟩

/-- User 0 has no row, and an announcement is refused. -/
theorem announcement_refused {d : Tables} (hd : d.Valid) (gid : Int) (text : Bytes) (timestamp : Int) :
    (insert_group_message gid 0 text timestamp d).2 = d.group_messages := by
  simp [insert_group_message, hd.nobody]

namespace Threads

/-- A frame of the run asks for the command in the session `me`. -/
def AskedFor (pg : Bool) (tr : List (Taken Threads Concurrent.Event)) (me : Int) (c : Command) : Prop :=
  ∃ n fd, FrameAt pg tr n fd me c

/-- The user whom the target of the `n`th step's frame names: by its id, or by the name that memory has for it at a turn
of the frame's handler. -/
def Named (tr : List (Taken Threads Concurrent.Event)) (fd : Int) (n : Nat) : Target → Int → Prop
  | .id uid, x => x = uid
  | .username name, x => ∃ m w w' u, During tr fd n m ∧ TurnAt tr m fd w w' ∧
    w.mem.g_users_by_id.find? x = some u ∧ u.username = name
  | .missing, _ => False

/-- At a turn of the handler of the `n`th step's frame the group gets its number, and the row that has `me` for its
creator. -/
def Founded (tr : List (Taken Threads Concurrent.Event)) (fd : Int) (n : Nat) (me gid : Int) : Prop :=
  ∃ m w w', During tr fd n m ∧ TurnAt tr m fd w w' ∧ w.db.tables.groups.next = gid ∧
    ∃ g ∈ w'.db.tables.groups.rows, g.id = gid ∧ g.creator_id = me

/-- Somebody has asked for the membership: the creator of the group, who lists its members in the frame that founds it,
somebody who invites the user, or the user. -/
def MembershipAsked (pg : Bool) (tr : List (Taken Threads Concurrent.Event)) (gid uid : Int) : Prop :=
  (∃ n fd me name ids, FrameAt pg tr n fd me (.create_group name ids) ∧ Founded tr fd n me gid ∧
    (uid = me ∨ uid ∈ ids)) ∨
    (∃ me, AskedFor pg tr me (.invite_to_group gid uid)) ∨ AskedFor pg tr uid (.accept_group_invite gid)

/-- Every row was there at the start, or has been asked for: by the sender for a message and for a friend request,
and by one of the two for a friendship. -/
structure RowsAskedFor (pg : Bool) (tr : List (Taken Threads Concurrent.Event)) (start d : Tables) : Prop where
  messages : ∀ r ∈ d.messages, r ∈ start.messages ∨ ∃ message,
    AskedFor pg tr r.from_user_id (.direct_message r.to_user_id message) ∧ r.content = escape_string message
  group_messages : ∀ r ∈ d.group_messages, r ∈ start.group_messages ∨ ∃ message,
    AskedFor pg tr r.user_id (.group_message r.group_id message) ∧ r.content = escape_string message
  friend_requests : ∀ r ∈ d.friend_requests,
    (r.from_user_id, r.to_user_id) ∈ start.friend_requests.map (fun r => (r.from_user_id, r.to_user_id)) ∨
      ∃ n fd target, FrameAt pg tr n fd r.from_user_id (.friend_request target) ∧ Named tr fd n target r.to_user_id
  friends : ∀ r ∈ d.friends, r ∈ start.friends ∨ AskedFor pg tr r.user_id_1 (.friend_accept r.user_id_2) ∨
    AskedFor pg tr r.user_id_2 (.friend_accept r.user_id_1)
  members : ∀ r ∈ d.group_members,
    start.isMember r.group_id r.user_id = true ∨ MembershipAsked pg tr r.group_id r.user_id

section Rows

variable {pg : Bool} {env : Env} {tr : List (Taken Threads Concurrent.Event)} {start d : Tables} {me fd : Int} {n : Nat}
  {c : Command}

/-- A membership that was asked for. -/
theorem RowsAskedFor.enrol (h : RowsAskedFor pg tr start d) {gid uid : Int} (hasked : MembershipAsked pg tr gid uid) :
    RowsAskedFor pg tr start { d with group_members := (insert_group_member gid uid d).2 } := by
  refine { h with members := ?_ }
  show ∀ r ∈ (insert_group_member gid uid d).2, _
  rw [insert_group_member]
  split_ifs
  · exact h.members
  · exact forall_mem_snoc h.members (.inr hasked)
  · exact h.members

/-- An update that leaves group and user of a row alone. -/
theorem RowsAskedFor.update (h : RowsAskedFor pg tr start d) (gid uid : Int) {f : GroupMemberRow → GroupMemberRow}
    (hf : ∀ r, ((f r).group_id, (f r).user_id) = (r.group_id, r.user_id)) :
    RowsAskedFor pg tr start { d with group_members := (update_group_member gid uid f d).2 } := by
  refine { h with members := ?_ }
  exact forall_updated (fun r : GroupMemberRow => (r.group_id, r.user_id))
    (P := fun k => start.isMember k.1 k.2 = true ∨ MembershipAsked pg tr k.1 k.2) hf h.members

/-- A friendship that one of the two has accepted. -/
theorem RowsAskedFor.befriend (h : RowsAskedFor pg tr start d) {x y : Int}
    (hasked : AskedFor pg tr x (.friend_accept y) ∨ AskedFor pg tr y (.friend_accept x)) :
    RowsAskedFor pg tr start { d with friends := (insert_friend x y d).2 } := by
  refine { h with friends := ?_ }
  show ∀ r ∈ (insert_friend x y d).2, _
  rw [insert_friend]
  split_ifs
  · exact h.friends
  · exact forall_mem_snoc h.friends (.inr hasked)
  · exact h.friends
  · exact h.friends

/-- A request to the user whom its target names. -/
theorem RowsAskedFor.request (h : RowsAskedFor pg tr start d) {target : Target} {x : Int}
    (hframe : FrameAt pg tr n fd me (.friend_request target)) (hnamed : Named tr fd n target x) :
    RowsAskedFor pg tr start { d with friend_requests := (upsert_friend_request me x d).2 } := by
  refine { h with friend_requests := ?_ }
  show ∀ r ∈ (upsert_friend_request me x d).2, _
  rw [upsert_friend_request]
  split_ifs
  · exact h.friend_requests
  · -- the row that becomes pending again has the ends it had
    show ∀ r ∈ d.friend_requests.map _, _
    exact forall_updated (fun r : FriendRequestRow => (r.from_user_id, r.to_user_id))
      (u := fun r => { r with status := .PENDING })
      (P := fun k => k ∈ start.friend_requests.map (fun r => (r.from_user_id, r.to_user_id)) ∨
        ∃ n fd target, FrameAt pg tr n fd k.1 (.friend_request target) ∧ Named tr fd n target k.2)
      (fun _ => rfl) h.friend_requests
  · exact forall_mem_snoc h.friend_requests (.inr ⟨n, fd, target, hframe, hnamed⟩)
  · exact h.friend_requests

/-- An announcement is refused. -/
theorem RowsAskedFor.announce (h : RowsAskedFor pg tr start d) (hvalid : d.Valid) (gid : Int) (text : Bytes)
    (timestamp : Int) :
    RowsAskedFor pg tr start { d with group_messages := (insert_group_message gid 0 text timestamp d).2 } := by
  rw [announcement_refused hvalid]
  exact h

/-- What is to hold of the tables at any time. -/
abbrev Sound (pg : Bool) (tr : List (Taken Threads Concurrent.Event)) (start d : Tables) : Prop :=
  d.Valid ∧ RowsAskedFor pg tr start d

/-- A statement of a command keeps it if it adds only rows that were asked for. -/
theorem keeps_of_issues {β : Type} {t : Table} {q : Statement t β} (hissues : Issues me c t q)
    (hrows : ∀ d, d.Valid → RowsAskedFor pg tr start d → RowsAskedFor pg tr start (t.put (q d).2 d)) :
    q.Keeps (Sound pg tr start) Tables.Follows := fun d hd =>
  ⟨⟨(hissues.lawful d hd.1).valid, hrows d hd.1 hd.2⟩, hissues.lawful d hd.1⟩

/-- **A statement that was asked for adds only rows that were asked for.** Whom a `FRIEND_REQUEST` asks and which group
a `CREATE_GROUP` fills is not in the frame. -/
theorem RowsAskedFor.step (h : RowsAskedFor pg tr start d) (hvalid : d.Valid) {β : Type} {t : Table}
    {q : Statement t β} (hissues : Issues me c t q) (hasked : AskedFor pg tr me c)
    (hrequest : ∀ target, c ≠ .friend_request target) (hcreate : ∀ name ids, c ≠ .create_group name ids) :
    RowsAskedFor pg tr start (t.put (q d).2 d) := by
  cases hissues with
  | stored recipientId message timestamp =>
    refine { h with messages := ?_ }
    show ∀ r ∈ (insert_message me recipientId (escape_string message) timestamp d).2, _
    rw [insert_message]
    split_ifs
    · exact forall_mem_snoc h.messages (.inr ⟨message, hasked, rfl⟩)
    · exact h.messages
  -- fewer rows, of which nothing is to be said
  | deleted other =>
    exact { h with messages := fun r hr => h.messages r (List.mem_filter.mp hr).1 }
  | spoken gid message timestamp =>
    refine { h with group_messages := ?_ }
    show ∀ r ∈ (insert_group_message gid me (escape_string message) timestamp d).2, _
    rw [insert_group_message]
    split_ifs
    · exact forall_mem_snoc h.group_messages (.inr ⟨message, hasked, rfl⟩)
    · exact h.group_messages
  | announced _ gid text timestamp => exact h.announce hvalid gid text timestamp
  -- these two go by an answer, and are not settled by the frame alone
  | requested target x => exact absurd rfl (hrequest target)
  | accepted other | declined other =>
    exact { h with friend_requests := fun r hr => h.friend_requests r (List.mem_filter.mp hr).1 }
  | befriended other =>
    refine h.befriend ?_
    split
    · exact .inl hasked
    · exact .inr hasked
  | founded name memberIds | populated name memberIds | crowned_founder name memberIds =>
    exact absurd rfl (hcreate name memberIds)
  | invited gid uid => exact h.enrol (.inr (.inl ⟨me, hasked⟩))
  | joined gid => exact h.enrol (.inr (.inr hasked))
  -- an update keeps the group and the member of the row
  | nicknamed gid uid nick => exact h.update gid uid fun _ => rfl
  | crowned gid uid => exact h.update gid uid fun _ => rfl
  | removed gid uid | left gid =>
    exact { h with members := fun r hr => h.members r (List.mem_filter.mp hr).1 }
  | _ => exact { h with }

end Rows

/-! ### Two handlers that go by an answer -/

section Handlers

variable {pg : Bool} {env : Env} {tr : List (Taken Threads Concurrent.Event)} {start : Tables} {me fd : Int} {n : Nat}
  {I : World → Prop}

variable (me) in
/-- The statements that go with any command. -/
theorem plain_keeps {β : Type} {t : Table} {q : Statement t β} (h : Issues me .heartbeat t q) :
    q.Keeps (Sound pg tr start) Tables.Follows :=
  keeps_of_issues h fun d hd hrows => by
    cases h with
    | logged | altered => exact { hrows with }
    | announced _ gid text timestamp => exact hrows.announce hd gid text timestamp

variable (me) in
theorem plain_respects {S : List Field} {α : Type} {p : Prog S α} {R : α → Prop}
    (hp : p.Always (Op.issued me .heartbeat) R) :
    p.Always (Op.respects (Sound pg tr start) Tables.Follows) R := by
  refine hp.weaken fun {β} o ho => ?_
  cases o with
  | execute t q => exact plain_keeps me ho
  | _ => trivial

/-- A user that is looked up by its name has the name then. -/
theorem find_target_named (target : Target) {Q : {β : Type} → Op β → Prop} (hlock : Q .lock) (hunlock : Q .unlock)
    (hread : ∀ {β : Type} (f : ServerState → β), Q (.read f)) :
    (find_target target).AlwaysOn (Answers env tr I fd n) Q fun found =>
      ∀ x, found = .ok x → Named tr fd n target x := by
  -- only a name is looked up, and the answer is of the time of the look-up
  cases target with
  | id uid => exact alwaysOn_pure fun x hx => (Except.ok.inj hx).symm
  | missing => exact alwaysOn_pure fun x hx => by cases hx
  | username name =>
    refine AlwaysOn.locked (alwaysOn_perform (hread _) fun found hfound => ?_) hlock hunlock
    rintro x rfl
    obtain ⟨m, w, hduring, hturn, -, hanswer⟩ := hfound
    dsimp only [Op.exec] at hanswer
    split at hanswer
    · next e he =>
      cases Except.ok.inj hanswer
      have hmem : (e.1, e.2) ∈ w.mem.g_users_by_id.toList := List.mem_of_find?_eq_some he
      exact ⟨m, w, _, e.2, hduring, hturn, (UMap.mem_toList ..).mp hmem, by simpa using List.find?_some he⟩
    · cases hanswer

/-- **A `FRIEND_REQUEST`** stores a request to the user that it has found. -/
theorem friend_request_asked {target : Target} (hframe : FrameAt pg tr n fd me (.friend_request target)) :
    (friend_request pg fd me target).AlwaysOn (Answers env tr I fd n) (Op.respects (Sound pg tr start) Tables.Follows)
      fun _ => True := by
  refine AlwaysOn.seq ((alwaysOn_lift ..).mpr (find_target_named target trivial trivial fun _ => trivial))
    fun found hnamed => ?_
  cases found with
  | error e => exact Always.on (by simp [andNext, Op.respects])
  | ok x =>
    -- the row goes to the user that was found
    have hupsert : (upsert_friend_request me x).Keeps (Sound pg tr start) Tables.Follows :=
      keeps_of_issues (Issues.requested target x) fun _ _ h => h.request hframe (hnamed x rfl)
    have hlog : ∀ uid x, (insert_activity_log uid x).Keeps (Sound pg tr start) Tables.Follows := fun uid x =>
      plain_keeps me (.logged _ uid x)
    have hstore : (store_request_db pg me x).Always (Op.respects (Sound pg tr start) Tables.Follows) fun _ => True := by
      simp [store_request_db, has_pending_request, send_friend_request, log_activity, Op.respects, hupsert, hlog]
    refine Always.on (Always.seq ((always_ite ..).mpr ⟨fun _ => by simp [Op.respects], fun _ => ?_⟩) fun _ => trivial)
    refine Always.seq ((always_lift ..).mpr (Always.locked ?_ trivial trivial)) fun refused => ?_
    · refine Always.seq (by simp [Op.respects]) fun friends => Always.seq (by simp [Op.respects]) fun _ => ?_
      refine (always_ite ..).mpr ⟨fun _ => trivial, fun _ => Always.seq ((always_lift ..).mpr hstore) fun refused => ?_⟩
      simp [Op.respects]
    · simp [notify_target, Op.respects]

/-- The answer of the statement that enters a group: the sequence's next number, and the row is there. -/
theorem founded_of_answer {name : Bytes} {gid : Int} {w : World}
    (h : ((Op.execute .groups (insert_group name me)).exec env w).1 = some gid) : w.db.tables.groups.next = gid ∧
      ∃ g ∈ ((Op.execute .groups (insert_group name me)).exec env w).2.db.tables.groups.rows,
        g.id = gid ∧ g.creator_id = me := by
  change (Database.exec .groups (insert_group name me) _ w.db).1 = some gid at h
  show _ ∧ ∃ g ∈ (Database.exec .groups (insert_group name me) _ w.db).2.tables.groups.rows, _
  unfold Database.exec at h ⊢
  split at h
  -- in an aborted transaction, or when the statement fails, there is no answer
  · cases h
  split at h
  · cases h
  next haborted hfails =>
  rw [if_neg haborted, if_neg hfails]
  by_cases hcreator : w.db.tables.hasUser me = true
  · have hq : insert_group name me w.db.tables = (some w.db.tables.groups.next,
        ⟨w.db.tables.groups.rows ++ [⟨w.db.tables.groups.next, name, me⟩], w.db.tables.groups.next + 1⟩) := by
      simp only [insert_group, if_pos hcreator]
    rw [hq] at h ⊢
    cases Option.some.inj h
    exact ⟨rfl, _, List.mem_append_right _ (List.mem_singleton_self _), rfl, rfl⟩
  · have hq : (insert_group name me w.db.tables).1 = none := by
      simp only [insert_group, if_neg hcreator]
    dsimp only at h
    rw [hq] at h
    cases h

/-- A member that a `CREATE_GROUP` adds to the group that it has founded. -/
theorem enrol_keeps {name : Option Bytes} {ids : List Int} {gid uid : Int}
    (hframe : FrameAt pg tr n fd me (.create_group name ids)) (hfounded : Founded tr fd n me gid)
    (hlisted : uid = me ∨ uid ∈ ids) :
    (add_group_member gid uid).Always (Op.respects (Sound pg tr start) Tables.Follows) fun _ => True := by
  have hmember : (insert_group_member gid uid).Keeps (Sound pg tr start) Tables.Follows :=
    keeps_of_issues (Issues.populated name ids gid uid hlisted) fun d _ h =>
      h.enrol (.inl ⟨n, fd, me, name, ids, hframe, hfounded, hlisted⟩)
  have hlog : ∀ uid x, (insert_activity_log uid x).Keeps (Sound pg tr start) Tables.Follows := fun uid x =>
    plain_keeps me (.logged _ uid x)
  simp [add_group_member, log_activity, Op.respects, hmember, hlog]

/-- The database part of a `CREATE_GROUP`: the group that it returns is the one that it has founded. -/
theorem create_group_db_asked {name : Option Bytes} {ids : List Int} (groupName : Bytes)
    (hframe : FrameAt pg tr n fd me (.create_group name ids)) :
    (create_group_db me groupName ids).AlwaysOn (Answers env tr I fd n) (Op.respects (Sound pg tr start) Tables.Follows)
      fun _ => True := by
  have hinsert : (insert_group (escape_string groupName) me).Keeps (Sound pg tr start) Tables.Follows :=
    keeps_of_issues (Issues.founded name ids groupName) fun d _ h => { h with }
  have hlog : ∀ uid x, (insert_activity_log uid x).Keeps (Sound pg tr start) Tables.Follows := fun uid x =>
    plain_keeps me (.logged _ uid x)
  have hcreate : (PostgresPersistence.create_group groupName me).AlwaysOn (Answers env tr I fd n)
      (Op.respects (Sound pg tr start) Tables.Follows) fun r => ∀ gid, r = some gid → Founded tr fd n me gid := by
    refine AlwaysOn.seq (alwaysOn_perform (R := fun _ => True) trivial fun _ _ => trivial) fun begun _ => ?_
    refine .ite (fun _ => alwaysOn_pure fun gid h => by cases h) fun _ => ?_
    refine AlwaysOn.seq (alwaysOn_perform (R := fun r => ∀ gid, r = some gid → Founded tr fd n me gid) hinsert ?_)
      fun inserted hfounded => ?_
    -- the answer of the statement is the number of the row it has entered
    · rintro r ⟨m, w, hduring, hturn, -, hanswer⟩ gid rfl
      obtain ⟨hnext, hrow⟩ := founded_of_answer hanswer
      exact ⟨m, w, _, hduring, hturn, hnext, hrow⟩
    cases inserted with
    | none => exact .ite (fun _ => Always.on (by simp [Op.respects])) fun h => absurd rfl h
    | some gid =>
      have hgid := hfounded gid rfl
      refine .ite (fun h => by cases h) fun _ => Always.on ?_
      refine Always.seq ((always_lift ..).mpr (enrol_keeps hframe hgid (.inl rfl))) fun added => ?_
      simp [Op.respects, log_activity, hlog, hgid]
  -- what follows is about the group with that number
  refine AlwaysOn.seq hcreate fun r hfounded => Always.on (Always.seq ?_ fun _ => trivial)
  refine (always_when ..).mpr ⟨fun hsome => (always_lift ..).mpr ?_, trivial⟩
  obtain ⟨gid, rfl⟩ := Option.isSome_iff_exists.mp hsome
  have hgid := hfounded gid rfl
  have halter : alter_group_members.Keeps (Sound pg tr start) Tables.Follows := plain_keeps me (.altered _)
  have hcrown : (update_group_member gid me fun r => { r with is_admin := some true }).Keeps (Sound pg tr start)
      Tables.Follows := keeps_of_issues (Issues.crowned_founder name ids gid) fun d _ h => h.update gid me fun _ => rfl
  refine Always.seq ((always_lift ..).mpr (by simp [set_group_admin, Op.respects, halter, hcrown])) fun _ => ?_
  refine (always_forM ..).mpr ⟨fun uid huid => ?_, trivial⟩
  exact Always.seq (enrol_keeps hframe hgid (.inr huid)) fun _ => trivial

/-- **A `CREATE_GROUP`** fills the group that it has founded. -/
theorem create_group_asked {name : Option Bytes} {ids : List Int}
    (hframe : FrameAt pg tr n fd me (.create_group name ids)) :
    (create_group pg fd me name ids).AlwaysOn (Answers env tr I fd n) (Op.respects (Sound pg tr start) Tables.Follows)
      fun _ => True := by
  -- the announcement stores nothing: its author is the user 0
  have hrest : ∀ groupName gid, (announce_group pg fd me groupName ids gid).Always
      (Op.respects (Sound pg tr start) Tables.Follows) fun _ => True := by
    refine fun groupName gid => (always_ite ..).mpr ⟨fun _ => by simp [Op.respects], fun _ => ?_⟩
    refine Always.seq ((always_lift ..).mpr (respects_of_footprint _ (by simp))) fun _ =>
      Always.seq (by simp [Op.respects]) fun _ => ?_
    exact Always.seq (plain_respects me (announce_issued pg _ _)) fun _ => trivial
  refine AlwaysOn.seq (Always.on ((always_lift ..).mpr (respects_of_footprint _ (by simp)))) fun groupName _ => ?_
  refine .ite (fun _ => ?_) fun _ => ?_
  · refine AlwaysOn.seq ((alwaysOn_lift ..).mpr (create_group_db_asked groupName hframe)) fun gid _ => ?_
    exact Always.on (Always.seq ((always_lift ..).mpr (hrest groupName _)) fun _ => trivial)
  · refine Always.on (Always.seq ((always_lift ..).mpr (respects_of_footprint _ (by simp))) fun gid => ?_)
    exact Always.seq ((always_lift ..).mpr (hrest groupName _)) fun _ => trivial

/-- The handler of a frame of the run. -/
theorem perform_asked {c : Command} (rid : Int) (hframe : FrameAt pg tr n fd me c) :
    (perform pg fd me rid c).AlwaysOn (Answers env tr I fd n) (Op.respects (Sound pg tr start) Tables.Follows)
      fun _ => True := by
  -- only these two depend on what they are answered
  by_cases hspecial : (∃ target, c = .friend_request target) ∨ ∃ name ids, c = .create_group name ids
  · rw [perform.eq_def]
    rcases hspecial with ⟨target, rfl⟩ | ⟨name, ids, rfl⟩
    · exact (alwaysOn_lift ..).mpr (friend_request_asked hframe)
    · exact (alwaysOn_lift ..).mpr (create_group_asked hframe)
  · obtain ⟨hrequest, hcreate⟩ := not_or.mp hspecial
    refine Always.on ((perform_issued pg fd me rid c).weaken fun {β} o ho => ?_)
    cases o with
    | execute t q =>
      refine keeps_of_issues ho fun d hd h => h.step hd ho ⟨n, fd, hframe⟩ (fun target h => hrequest ⟨target, h⟩) ?_
      exact fun name ids h => hcreate ⟨name, ids, h⟩
    | _ => trivial

end Handlers

/-! ### Runs -/

/-- **Nothing is stored that nobody has asked for**, wherever the operations of one handler fall among those of another
and whatever fails. In particular no announcement of the server is ever stored. -/
theorem rows_asked_for {pg : Bool} {env₀ env : Env} {C : Threads → Concurrent.Event → Prop} {w₀ : World} {s : Threads}
    {tr : List (Taken Threads Concurrent.Event)} (booted : Booted pg env₀ w₀) (run : Run pg env C (quiet w₀) tr s) :
    RowsAskedFor pg tr w₀.db.tables s.world.db.tables := by
  have hrule : Transactional (Sound pg tr w₀.db.tables) Tables.Follows :=
    transactional_valid_rows fun now before h => { h with }
  have hvalid : w₀.db.tables.Valid := (booted.holds transactional_schema fun _ h => h).now
  have hstart : RowsAskedFor pg tr w₀.db.tables w₀.db.tables :=
    ⟨fun _ hr => .inl hr, fun _ hr => .inl hr, fun r hr => .inl (List.mem_map.mpr ⟨r, hr, rfl⟩), fun _ hr => .inl hr,
      fun r hr => .inl (List.any_eq_true.mpr ⟨r, hr, by simp⟩)⟩
  have hholds : s.world.db.Holds (Sound pg tr w₀.db.tables) Tables.Follows :=
    invariant_of_answers (I := fun w => w.db.Holds (Sound pg tr w₀.db.tables) Tables.Follows) run
      (holds_of_none ⟨hvalid, hstart⟩ booted.tx_none) (fun _ _ _ rid _ hframe => perform_asked rid hframe)
      (fun fd => respects_of_footprint _ (by simp)) (fun fd me => respects_of_footprint _ (by simp))
      (fun o w ho hw => ho.exec hrule env hw) fun _ _ hw => hw
  exact hholds.now.2

/-- While user 1 founds a group with user 2 in it, user 2 asks user 1, by its name, for friendship. -/
theorem rows_asked_for_founded : ∃ tr, ∃ s : Threads,
    (s.world.db.tables.group_members.map fun r => (r.group_id, r.user_id),
      s.world.db.tables.friend_requests.map fun r => (r.from_user_id, r.to_user_id)) = ([(1, 1), (1, 2)], [(2, 1)]) ∧
    RowsAskedFor true tr loaded.db.tables s.world.db.tables := by
  have hexec : (ChatApp.Run.exec (step true Env.calm) (quiet loaded) (two_users ++
      Concurrent.served 5 .CREATE_GROUP "name=g&members=2" 3 ++ .request 6 (.of .FRIEND_REQUEST "username=a") ::
        List.replicate 8 (.advance 1) ++ List.replicate 6 (.advance 0))).map (fun s =>
          (s.world.db.tables.group_members.map fun r => (r.group_id, r.user_id),
            s.world.db.tables.friend_requests.map fun r => (r.from_user_id, r.to_user_id))) =
              some ([(1, 1), (1, 2)], [(2, 1)]) := by decide
  obtain ⟨s, hs, hrows⟩ := Option.map_eq_some_iff.mp hexec
  obtain ⟨tr, run, -⟩ := ChatApp.Run.of_exec hs
  exact ⟨tr, s, hrows, rows_asked_for booted_loaded run⟩

end Threads

/-! ## Friendships in memory -/

/-- What a command of the session `me` does to `g_friends`. -/
inductive GraphWrite (me : Int) (c : Command) : (Friends → Friends) → Prop where
  | looked_up (x : Int) : GraphWrite me c fun g => g.touch x
  | compared (x : Int) : GraphWrite me c (touch_pair me x)
  | befriended (other : Int) (accepts : c = .friend_accept other) : GraphWrite me c (befriend me other)
  | ended (other : Int) (ends : c = .unfriend other) : GraphWrite me c (unfriend_pair me other)

/-- The operation keeps a property of the graph. -/
@[simp] def Op.keepsGraph (P : Friends → Prop) {β : Type} : Op β → Prop
  | .modify .g_friends f => ∀ g, P g → P (f g)
  | _ => True

theorem Op.keepsGraph.exec {P : Friends → Prop} {β : Type} {o : Op β} (ho : o.keepsGraph P) (env : Env) {w : World}
    (hw : P w.mem.g_friends) : P (o.exec env w).2.mem.g_friends := by
  cases o with
  | modify x f =>
    cases x with
    | g_friends => exact ho _ hw
    | _ => exact hw
  | _ => exact hw

/-- The operation does nothing else to `g_friends`. -/
@[simp] def Op.onGraph (me : Int) (c : Command) {β : Type} : Op β → Prop
  | .modify .g_friends f => GraphWrite me c f
  | _ => True

section OnGraph

variable {me : Int} {c : Command} {S : List Field} {α : Type}

@[simp] theorem graphWrite_touch (x : Int) : GraphWrite me c fun g => g.touch x := .looked_up x

theorem onGraph_of_footprint (p : Prog S α) (hS : .var .g_friends ∉ S) :
    p.Always (Op.onGraph me c) fun _ => True := by
  refine always_of_footprint p fun o ho => ?_
  cases o with
  | modify x f =>
    cases x with
    | g_friends => exact absurd (ho _ (by simp [Op.writes])) hS
    | _ => trivial
  | _ => trivial

theorem onGraph_part {T : List Field} (p : Prog S α) (h : S ⊆ T) (hS : .var .g_friends ∉ S) :
    (p.lift h).Always (Op.onGraph me c) fun _ => True :=
  (always_lift p h).mpr (onGraph_of_footprint p hS)

theorem notify_onGraph (uid : Int) (online : Bool) :
    (notify_friends_status_change uid online).Always (Op.onGraph me c) fun _ => True := by
  simp [notify_friends_status_change, find_fd, Op.onGraph]

theorem accept_in_memory_onGraph (fd other : Int) (ok : Bool) :
    (accept_in_memory fd me other ok).Always (Op.onGraph me (.friend_accept other)) fun _ => True := by
  refine (always_ite ..).mpr ⟨fun _ => by simp [Op.onGraph], fun _ => ?_⟩
  refine Always.seq (by simp [Op.onGraph]) fun _ => ?_
  exact Always.seq ((always_modify ..).mpr ⟨.befriended other rfl, trivial⟩) fun _ => by simp [Op.onGraph]

/-- **Every write to the graph is one of these.** -/
theorem perform_onGraph (pg : Bool) (fd me rid : Int) (c : Command) :
    (perform pg fd me rid c).Always (Op.onGraph me c) fun _ => True := by
  cases c with
  | register payload =>
    rw [perform, always_lift]
    refine Always.seq ((always_ite ..).mpr ⟨fun _ => by simp [Op.onGraph], fun _ => ?_⟩) fun _ => trivial
    refine Always.locked (Always.seq (by simp [Op.onGraph]) fun taken => ?_) trivial trivial
    refine (always_ite ..).mpr ⟨fun _ => by simp [Op.onGraph], fun _ => ?_⟩
    refine Always.seq (onGraph_part _ _ (by simp)) fun uid => ?_
    simp [register_user, Op.onGraph]
  -- whoever logs in is only looked up with its friends
  | login payload =>
    rw [perform, always_lift]
    refine Always.seq (onGraph_part _ _ (by simp)) fun session => ?_
    cases session with
    | none => trivial
    | some l =>
      refine Always.seq ((always_lift ..).mpr ?_) fun _ => trivial
      refine Always.seq (by simp [Op.onGraph]) fun _ => Always.seq (notify_onGraph l.uid true) fun _ => ?_
      refine Always.seq (onGraph_part _ _ (by simp)) fun _ => ?_
      simp [get_pending_group_invites, send_pending_invite, Op.onGraph]
  | logout => simp [perform, logout, go_offline, notify_onGraph, Op.onGraph]
  | search_user payload => simp [perform, search_user, andNext, Op.onGraph]
  | get_all_users => simp [perform, get_all_users, andNext, Op.onGraph]
  | get_friends_list =>
    rw [perform, always_lift]
    refine Always.seq (by simp [Op.onGraph]) fun found => ?_
    refine Always.seq (onGraph_part _ _ (by simp)) fun froms => Always.seq (onGraph_part _ _ (by simp)) fun items => ?_
    simp [andNext, Op.onGraph]
  -- the two are compared, which makes entries of `operator[]`
  | friend_request target =>
    rw [perform, always_lift]
    refine Always.seq (onGraph_part _ _ (by simp)) fun found => ?_
    cases found with
    | error e => simp [andNext, Op.onGraph]
    | ok x =>
      refine Always.seq ((always_ite ..).mpr ⟨fun _ => by simp [Op.onGraph], fun _ => ?_⟩) fun _ => trivial
      refine Always.seq ((always_lift ..).mpr (Always.locked ?_ trivial trivial)) fun refused => ?_
      · refine Always.seq (by simp [Op.onGraph]) fun already => ?_
        refine Always.seq ((always_modify ..).mpr ⟨.compared x, trivial⟩) fun _ => ?_
        refine (always_ite ..).mpr ⟨fun _ => trivial, fun _ => ?_⟩
        refine Always.seq (onGraph_part _ _ (by simp)) fun refused => ?_
        simp [Op.onGraph]
      · refine (always_ite ..).mpr ⟨fun _ => by simp [Op.onGraph], fun _ => ?_⟩
        exact Always.seq (onGraph_part _ _ (by simp)) fun _ => by simp [Op.onGraph]
  -- with a database and without: both go on to memory
  | friend_accept other =>
    rw [perform, always_lift]
    refine Always.seq (Always.locked ((always_ite ..).mpr ⟨fun _ => ?_, fun _ => ?_⟩) trivial trivial) fun _ => trivial
    · refine Always.seq (onGraph_part _ _ (by simp [all_tables])) fun ok => ?_
      exact (always_lift ..).mpr (accept_in_memory_onGraph fd other ok)
    · refine Always.seq (always_pure true |>.mpr trivial) fun ok => ?_
      exact (always_lift ..).mpr (accept_in_memory_onGraph fd other ok)
  | unfriend other =>
    rw [perform, always_lift]
    refine Always.seq (Always.locked ?_ trivial trivial) fun _ => trivial
    exact Always.seq ((always_modify ..).mpr ⟨.ended other rfl, trivial⟩) fun _ => by simp [Op.onGraph]
  | _ => rw [perform]; exact onGraph_part _ _ (by simp [all_tables])

theorem cleanup_onGraph (fd : Int) : (cleanup fd me).Always (Op.onGraph me c) fun _ => True := by
  simp [cleanup, go_offline, notify_onGraph, Op.onGraph]

/-- What all these writes keep. -/
theorem Prog.Always.keepsGraph {P : Friends → Prop} {p : Prog S α} (hp : p.Always (Op.onGraph me c) fun _ => True)
    (hP : ∀ f g, GraphWrite me c f → P g → P (f g)) : p.Always (Op.keepsGraph P) fun _ => True := by
  refine hp.weaken fun o ho => ?_
  cases o with
  | modify x f =>
    cases x with
    | g_friends => exact fun g => hP f g ho
    | _ => trivial
  | _ => trivial

end OnGraph

namespace Concurrent

/-- A frame of the run asks for the command in the session `me`. -/
def AskedFor (pg : Bool) (tr : List (Taken Concurrent Concurrent.Event)) (me : Int) (c : Command) : Prop :=
  ∃ x ∈ tr, ∃ fd r, x.event = .request fd r ∧ decode pg r.header.type r.payload = .ok c ∧
    x.before.world.session fd = me

section Run

variable {pg : Bool} {env : Env} {C : Concurrent → Concurrent.Event → Prop} {w₀ : World} {s : Concurrent}
  {tr : List (Taken Concurrent Concurrent.Event)} {a b : Int}

/-- One of the two has sent the command, which names the other. -/
def EitherAsked (pg : Bool) (tr : List (Taken Concurrent Concurrent.Event)) (command : Int → Command) (a b : Int) :
    Prop :=
  AskedFor pg tr a (command b) ∨ AskedFor pg tr b (command a)

/-- A friendship there is was there, or one of the two has accepted; and one that was there is there, or one of the
two has ended it. -/
structure FriendshipAskedFor (pg : Bool) (tr : List (Taken Concurrent Concurrent.Event)) (a b : Int)
    (before after : Bool) : Prop where
  begun : after = true → before = true ∨ EitherAsked pg tr .friend_accept a b
  ended : before = true → after = true ∨ EitherAsked pg tr .unfriend a b

/-- A write to the graph by a command that was asked for. -/
theorem FriendshipAskedFor.write {before : Bool} {me : Int} {c : Command} {f : Friends → Friends} {g : Friends}
    (h : FriendshipAskedFor pg tr a b before ((g.get a).get b)) (hf : GraphWrite me c f)
    (hasked : ∀ other, c = .friend_accept other ∨ c = .unfriend other → AskedFor pg tr me c) :
    FriendshipAskedFor pg tr a b before (((f g).get a).get b) := by
  cases hf with
  | looked_up x => rwa [UMap.get_touch]
  | compared x => rwa [get_touch_pair]
  | befriended other accepts =>
    have hasked := hasked other (.inl accepts)
    subst accepts
    rw [get_befriend]
    by_cases hpair : (a = me ∧ b = other) ∨ (a = other ∧ b = me)
    · have heither : EitherAsked pg tr .friend_accept a b := by
        rcases hpair with ⟨rfl, rfl⟩ | ⟨rfl, rfl⟩
        · exact .inl hasked
        · exact .inr hasked
      rw [decide_eq_true hpair, Bool.true_or]
      exact ⟨fun _ => .inr heither, fun _ => .inl rfl⟩
    -- a friendship of others
    · rwa [decide_eq_false hpair, Bool.false_or]
  | ended other ends =>
    have hasked := hasked other (.inr ends)
    subst ends
    rw [get_unfriend_pair]
    by_cases hpair : (a = me ∧ b = other) ∨ (a = other ∧ b = me)
    · have heither : EitherAsked pg tr .unfriend a b := by
        rcases hpair with ⟨rfl, rfl⟩ | ⟨rfl, rfl⟩
        · exact .inl hasked
        · exact .inr hasked
      rw [decide_eq_true hpair, Bool.not_true, Bool.false_and]
      exact ⟨fun hfalse => Bool.noConfusion hfalse, fun _ => .inr heither⟩
    · rwa [decide_eq_false hpair, Bool.not_false, Bool.true_and]

/-- **Friendships in memory begin with a `FRIEND_ACCEPT` and end with an `UNFRIEND` of one of the two**, in every
interleaving, whatever fails, with a database or without: nobody else begins or ends them. -/
theorem friendship_asked_for (run : Run pg env C (quiet w₀) tr s) :
    FriendshipAskedFor pg tr a b (w₀.mem.isFriend a b) (s.world.mem.isFriend a b) := by
  let P : Friends → Prop := fun g => FriendshipAskedFor pg tr a b (w₀.mem.isFriend a b) ((g.get a).get b)
  have hstart : P w₀.mem.g_friends := ⟨.inl, .inl⟩
  -- the end of a connection, and a frame that is refused, neither begin nor end a friendship
  have hquiet : ∀ me f g, GraphWrite me .logout f → P g → P (f g) := fun me f g hf hg =>
    hg.write hf fun other h => by rcases h with h | h <;> cases h
  refine invariant_of_requests (Q := Op.keepsGraph P) (I := fun w => P w.mem.g_friends) run hstart
    (fun x hx fd r c rid he hc => ?_) (fun fd => ?_) (fun fd me => (cleanup_onGraph fd).keepsGraph (hquiet me))
    (fun o w ho hw => ho.exec env hw) fun _ _ hw => hw
  · exact (perform_onGraph pg fd _ rid c).keepsGraph fun f g hf hg => hg.write hf fun _ _ => ⟨x, hx, fd, r, he, hc, rfl⟩
  · exact (onGraph_of_footprint _ (by simp)).keepsGraph (hquiet 0)

end Run

/-- User 1 accepts what nobody has asked for, while user 2 is served another frame. -/
theorem friendship_asked_for_accepted : ∃ tr, ∃ s : Concurrent, s.world.mem.isFriend 1 2 = true ∧
    FriendshipAskedFor false tr 1 2 ((World.new Tables.empty).mem.isFriend 1 2) (s.world.mem.isFriend 1 2) := by
  have hexec : (ChatApp.Run.exec (ChatApp.Run.guard (step false Env.calm) fun _ _ => true)
      (quiet (World.new Tables.empty)) (two_users ++ [.request 5 (.of .FRIEND_ACCEPT "userId=2"),
        .request 6 (.of .GET_FRIENDS_LIST ""), .advance 1, .advance 0])).map
          (fun s => s.world.mem.isFriend 1 2) = some true := by decide
  obtain ⟨tr, s, run, hs⟩ := run_of_exec hexec
  exact ⟨tr, s, hs, friendship_asked_for run⟩

end Concurrent

end ChatApp
