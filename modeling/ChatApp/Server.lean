/-
`Server.lean` -- the server over time: `main`, and the runs of its connections.

`main` loads the users (and, from the database, their friends and groups) and then
accepts connections; `boot` is the first part. An `Event` is what the
network does next: a connection is accepted, a frame arrives on one, or one is
closed by its peer. `step` is what the server does with it, one handler body at a
time. A fault has no successor: the process is gone.
-/
import ChatApp.HandleClient
import ChatApp.Runs

set_option autoImplicit false

namespace ChatApp

open Prog PostgresPersistence handle_client

/-! ## The constraints of the schema -/

/-- What the schema guarantees of the tables: keys and `UNIQUE` columns, foreign keys,
`CHECK`s, and serial ids that count up from 1. -/
structure Tables.Valid (d : Tables) : Prop where
  users_key : (d.users.rows.map UserRow.id).Nodup
  users_name : (d.users.rows.map UserRow.username).Nodup
  users_serial : 0 < d.users.next ∧ ∀ r ∈ d.users.rows, 0 < r.id ∧ r.id < d.users.next
  friends_unique : d.friends.Nodup
  friends_order : ∀ r ∈ d.friends, r.user_id_1 < r.user_id_2
  friends_users : ∀ r ∈ d.friends, d.hasUser r.user_id_1 ∧ d.hasUser r.user_id_2
  requests_unique : (d.friend_requests.map fun r => (r.from_user_id, r.to_user_id)).Nodup
  requests_users : ∀ r ∈ d.friend_requests, d.hasUser r.from_user_id ∧ d.hasUser r.to_user_id
  messages_users : ∀ r ∈ d.messages, d.hasUser r.from_user_id ∧ d.hasUser r.to_user_id
  groups_key : (d.groups.rows.map GroupRow.id).Nodup
  groups_serial : 0 < d.groups.next ∧ ∀ r ∈ d.groups.rows, 0 < r.id ∧ r.id < d.groups.next
  groups_users : ∀ r ∈ d.groups.rows, d.hasUser r.creator_id
  members_unique : (d.group_members.map fun r => (r.group_id, r.user_id)).Nodup
  members_refs : ∀ r ∈ d.group_members, d.hasGroup r.group_id ∧ d.hasUser r.user_id
  group_messages_refs : ∀ r ∈ d.group_messages, d.hasGroup r.group_id ∧ d.hasUser r.user_id
  invites_refs : ∀ r ∈ d.group_invites,
    d.hasGroup r.group_id ∧ d.hasUser r.from_user_id ∧ d.hasUser r.to_user_id

/-! ## `main` up to `accept` -/

/-- One line of the users file. -/
def load_line (s : ServerState × Int) (line : Bytes) : Except Fault (ServerState × Int) := do
  let fields := getlines 9 line
  let id ← stoi (fields.getD 0 [])
  let u : User := ⟨id, fields.getD 1 [], fields.getD 2 [], fields.getD 3 []⟩
  pure ({ s.1 with
    g_users_by_name := s.1.g_users_by_name.set u.username u
    g_users_by_id := s.1.g_users_by_id.set u.id u
    g_friends := s.1.g_friends.touch u.id
    g_friend_requests := s.1.g_friend_requests.touch u.id }, max s.2 u.id)

/-- `persistence::load_users`, as `main` calls it. -/
def load_users (users_file : Bytes) : Except Fault ServerState := do
  let (s, max_id) ← (getlines 10 users_file).foldlM load_line (ServerState.initial, 0)
  pure { s with g_next_user_id := succ_int max_id }

/-- `SELECT ... FROM users ORDER BY username`. -/
def Tables.allUsers (d : Tables) : List UserRow :=
  d.users.rows.insertionSort fun a b => bytes_le a.username b.username

/-- The columns of a row that `main` keeps. -/
def UserRow.toUser (r : UserRow) : User := ⟨r.id, r.username, r.password_hash, r.phone⟩

/-- What loading a user writes. -/
abbrev load_user_writes : List Field :=
  [.var .g_users_by_id, .var .g_users_by_name, .var .g_friends]

/-- The body of the first loop of `main`. -/
def load_user (user : UserRow) : Prog load_user_writes Unit := do
  modify .g_users_by_id fun m => m.set user.id user.toUser
  modify .g_users_by_name fun m => m.set user.username user.toUser
  let friends ← select fun d => d.friendsOf user.id
  (friends.getD []).forM fun f =>
    modify .g_friends fun g => g.update user.id fun m => m.set f.id true

/-- What loading a group writes. -/
abbrev load_group_writes : List Field := [.var .g_groups, .var .g_next_group_id]

/-- A group as `main` builds it: every member has an admin entry, of either value. -/
def loaded_group (g : GroupRow) (members : List (Int × Bool)) : Group where
  id := g.id
  name := g.name
  ownerId := g.creator_id
  members := members.foldl (fun m e => m.set e.1 true) ∅
  admins := members.foldl (fun m e => m.set e.1 e.2) ∅
  member_nicknames := ∅

/-- The body of the second loop, for one group of one user. -/
def load_group (g : GroupRow) : Prog load_group_writes Unit := locked do
  let known ← read fun s => s.g_groups.count g.id
  when (!known) do
    let members ← (get_group_members g.id).lift
    let flags ← (members.mapM fun m => is_group_admin g.id m.id).lift
    modify .g_groups fun m =>
      m.set g.id (loaded_group g ((members.map UserRow.id).zip flags))
    modify .g_next_group_id fun n => if n ≤ g.id then succ_int g.id else n

/-- What loading from the database writes. -/
abbrev load_writes : List Field :=
  .var .g_next_user_id :: load_user_writes ++ load_group_writes

/-- `main` with a database. -/
def load_database : Prog load_writes Unit := do
  let all_users ← select Tables.allUsers
  ((all_users.getD []).forM load_user).lift
  modify .g_next_user_id fun _ => succ_int (((all_users.getD []).map UserRow.id).foldl max 0)
  ((all_users.getD []).forM fun user => do
    let groups ← (PostgresPersistence.get_user_groups user.id).lift
    groups.forM load_group).lift

/-- The world a process starts in: the globals as initialised, no connection, nothing
sent, and no transaction open on the fresh database connection, whose tables obey
the schema. -/
structure World.Fresh (w : World) : Prop where
  mem : w.mem = ServerState.initial
  conns : w.conns = ∅
  out : w.out = []
  tx : w.db.tx = none
  tables : w.db.tables.Valid

section Server

variable (pg : Bool) (env : Env)

/-- `main` up to the accept loop; `pg` says that it reached the database. -/
def boot (w : World) : Except Fault World :=
  if pg then pure ((load_database.run env w).2)
  else do
    let s ← load_users w.users_file
    pure { w with mem := s }

/-- `w` is a state in which the server starts to accept connections. -/
def Booted (w : World) : Prop := ∃ w₀, World.Fresh w₀ ∧ boot pg env w₀ = .ok w

/-! ## Events -/

/-- What the network does next. -/
inductive Event where
  /-- `accept` returns a descriptor, which is not one in use. -/
  | accept (fd : Int)
  /-- A whole frame has arrived. -/
  | request (fd : Int) (r : Request)
  /-- `recv` returns 0 or an error: the peer is gone. -/
  | hangup (fd : Int)

/-- What the server does with an event; `none` when the event is not possible or the
process does not survive it. -/
def Server.step (w : World) : Event → Option World
  | .accept fd =>
    if 0 ≤ fd ∧ w.conns.count fd = false then some { w with conns := w.conns.set fd 0 } else none
  | .request fd r => if w.conns.count fd then (handle_request pg env w fd r).toOption else none
  | .hangup fd => if w.conns.count fd then some (end_connection env fd w) else none

/-- A run of the server. -/
abbrev Server.Run (C : World → Event → Prop) : World → List (Taken World Event) → World → Prop :=
  ChatApp.Run (Server.step pg env) C

/-- `w` can be reached from a state in which the server starts. -/
def Reachable (w : World) : Prop :=
  ∃ w₀ tr, Booted pg env w₀ ∧ Server.Run pg env (fun _ _ => True) w₀ tr w

/-! ## What a step can do -/

/-- The command an event carries, with its connection and the requester it names. -/
def Event.command (w : World) : Event → Option (Int × Int × Command)
  | .request fd r =>
    if r.header.valid then
      (decode pg r.header.type r.payload).toOption.map fun c =>
        (fd, requester_id r.header (w.session fd), c)
    else none
  | _ => none

/-- The user whose credentials a `LOGIN` has. -/
def loginUser (w : World) (payload : Bytes) : Option User :=
  (w.mem.g_users_by_name.find? (field payload "username")).filter fun u =>
    u.password_hash = field payload "password"

/-- The three things that happen to a connection. -/
inductive Server.Move (w : World) : Event → World → Prop where
  | accepted (fd : Int) (valid : 0 ≤ fd) (unused : w.conns.find? fd = none) :
    Move w (.accept fd) { w with conns := w.conns.set fd 0 }
  | performed (fd me rid : Int) (r : Request) (c : Command) (opened : w.conns.find? fd = some me)
    (command : Event.command pg w (.request fd r) = some (fd, rid, c)) :
    Move w (.request fd r) (finish env fd ((perform pg fd me rid c).run env w))
  | refused (fd me : Int) (r : Request) (opened : w.conns.find? fd = some me)
    (invalid : r.header.valid = false) :
    Move w (.request fd r) (end_connection env fd ((invalid_header fd).run env w).2)
  | hungup (fd me : Int) (opened : w.conns.find? fd = some me) :
    Move w (.hangup fd) (end_connection env fd w)

/-- **A step is one of these moves.** -/
theorem Server.move_of_step {w w' : World} {e : Event} (h : Server.step pg env w e = some w') :
    Server.Move pg env w e w' := by
  cases e with
  | accept fd =>
    rw [Server.step] at h
    split at h
    · next hfd =>
      cases Option.some.inj h
      refine .accepted fd hfd.1 ?_
      simpa [UMap.count] using hfd.2
    · exact absurd h (by simp)
  | hangup fd =>
    rw [Server.step] at h
    split at h
    · next hfd =>
      cases Option.some.inj h
      obtain ⟨me, hme⟩ := (UMap.count_iff _ _).mp hfd
      exact .hungup fd me hme
    · exact absurd h (by simp)
  | request fd r =>
    rw [Server.step] at h
    split at h
    · next hfd =>
      obtain ⟨me, hme⟩ := (UMap.count_iff _ _).mp hfd
      have hsession : w.session fd = me := UMap.get_of_find? hme
      cases hv : r.header.valid with
      | false =>
        rw [handle_request_invalid hv] at h
        cases Option.some.inj h
        exact .refused fd me r hme hv
      | true =>
        cases hc : decode pg r.header.type r.payload with
        | error e =>
          rw [handle_request_fault hv hc] at h
          cases h
        | ok c =>
          rw [handle_request_ok hv hc, hsession] at h
          cases Option.some.inj h
          refine .performed fd me _ r c hme ?_
          simp [Event.command, hv, hc, hsession, Except.toOption]
    · exact absurd h (by simp)

end Server

/-! ## Concrete runs

What the examples of the later modules start from: a process on an empty users file, or on given
tables, in an environment where nothing fails. -/

/-- The database of a new installation. -/
def Tables.empty : Tables := ⟨⟨[], 1⟩, [], [], [], ⟨[], 1⟩, [], [], []⟩

theorem Tables.empty_valid : Tables.empty.Valid := by
  constructor <;> simp [Tables.empty]

/-- A process that has just started. -/
def World.new (d : Tables) : World := ⟨ServerState.initial, ⟨d, none⟩, [], ∅, [], 0⟩

theorem World.new_fresh {d : Tables} (h : d.Valid) : (World.new d).Fresh := ⟨rfl, rfl, rfl, rfl, h⟩

/-- Nothing fails, and the clock stands still. -/
def Env.calm : Env := ⟨fun _ => false, fun _ => false, fun _ => 0⟩

theorem Env.calm_sqlSucceeds : Env.calm.SqlSucceeds := fun _ => rfl

/-- A frame with a valid header that names no user. -/
def Request.of (type : MessageType) (payload : String) : Request :=
  ⟨⟨MAGIC, VERSION, type.toByte, 0, 0, 0⟩, str payload⟩

/-- Such a frame arrives on `fd`. -/
def Event.send (fd : Int) (type : MessageType) (payload : String) : Event :=
  .request fd (.of type payload)

theorem booted_new {d : Tables} (h : d.Valid) : Booted false Env.calm (World.new d) :=
  ⟨_, World.new_fresh h, rfl⟩

/-- A process that has just started on an empty database. -/
def loaded : World := (load_database.run Env.calm (World.new Tables.empty)).2

theorem booted_loaded : Booted true Env.calm loaded :=
  ⟨_, World.new_fresh Tables.empty_valid, rfl⟩

/-- Users 1 and 2 register, on connections 5 and 6. -/
def two_users : List Event :=
  [.accept 5, .send 5 .REGISTER "username=a&password=x", .accept 6,
    .send 6 .REGISTER "username=b&password=x"]

/-- A list of events that can be executed under a condition is a run under it, and what a
projection of the last state evaluates to holds of that state. -/
theorem run_of_exec {pg : Bool} {env : Env} {C : World → Event → Bool} {w₀ : World}
    {es : List Event} {α : Type} {f : World → α} {a : α}
    (h : (Run.exec (Run.guard (Server.step pg env) C) w₀ es).map f = some a) :
    ∃ tr w, Server.Run pg env (fun w e => C w e = true) w₀ tr w ∧ f w = a := by
  obtain ⟨w, hexec, hf⟩ := Option.map_eq_some_iff.mp h
  obtain ⟨tr, hrun, -⟩ := Run.of_exec hexec
  exact ⟨tr, w, Run.of_guard hrun, hf⟩

/-- A state that a list of events leads to is reachable, and what a projection of the
last state evaluates to holds of it. -/
theorem reachable_of_exec {pg : Bool} {env : Env} {w₀ w : World} {es : List Event} {α : Type}
    {f : World → α} {a : α} (fresh : World.Fresh w₀) (boots : boot pg env w₀ = .ok w)
    (h : (Run.exec (Server.step pg env) w es).map f = some a) :
    ∃ w', Reachable pg env w' ∧ f w' = a := by
  obtain ⟨w', hexec, hf⟩ := Option.map_eq_some_iff.mp h
  obtain ⟨tr, hrun, -⟩ := Run.of_exec hexec
  exact ⟨w', ⟨w, tr, ⟨w₀, fresh, boots⟩, hrun⟩, hf⟩

end ChatApp
