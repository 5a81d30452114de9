/-
`Sessions.lean` -- who is logged in where: `g_online_clients` against the sessions of
the open connections.

Three kinds of event change either: a connection opens, a `REGISTER` or `LOGIN` is
granted, a connection ends. `SessionChange` says exactly what each does, for every
command of the `switch` at once.

The map is sound (an entry names an open connection of that user) as long as nobody
logs in on a connection that the map still lists under another user: the old entry
is left behind. It is complete (whoever is logged in is listed) as long as a
session ends only when it is its user's last, for the entry that ending removes may be
another connection's.
-/
import ChatApp.Transactions

set_option autoImplicit false

namespace ChatApp

open Prog PostgresPersistence handle_client

/-! ## Granted logins -/

section Grants

variable (pg : Bool) (env : Env) (w : World)

/-- The id a `REGISTER` would get: the next of the counter, or of the database's
sequence, where the insertion can also fail. -/
def NewId (username : Bytes) (uid : Int) : Prop :=
  if pg then
    env.sql_fails w.ticks = false ∧
      (∀ r ∈ w.db.tables.users.rows, r.username ≠ escape_string username) ∧
      uid = w.db.tables.users.next
  else uid = w.mem.g_next_user_id

/-- A command is a `REGISTER` or a `LOGIN` that succeeds, for the user `uid`. -/
def Grants : Command → Int → Prop
  | .login payload, uid =>
    ∃ u, w.mem.g_users_by_name.find? (field payload "username") = some u ∧
      u.password_hash = field payload "password" ∧ u.id = uid
  | .register payload, uid =>
    field payload "username" ≠ [] ∧ field payload "password" ≠ [] ∧
      w.mem.g_users_by_name.count (field payload "username") = false ∧
      NewId pg env w (field payload "username") uid
  | _, _ => False

end Grants

/-! ## What each command does to the sessions -/

/-- The sessions, the online map and the `users` rows are as they were. -/
structure SessionsSame (w w' : World) : Prop where
  conns : w'.conns = w.conns
  online : w'.mem.g_online_clients = w.mem.g_online_clients
  rows : w'.db.tables.users.rows = w.db.tables.users.rows
  next : w.db.tables.users.next ≤ w'.db.tables.users.next

/-- The row of a user who has just logged in. -/
def UserRow.markOnline (uid : Int) (r : UserRow) : UserRow :=
  if r.id = uid then { r with is_online := true } else r

@[simp] theorem UserRow.markOnline_id (uid : Int) (r : UserRow) : (r.markOnline uid).id = r.id := by
  unfold markOnline
  split <;> rfl

/-- The `users` rows once `uid` is logged in: marked, and possibly with a new one, which
has taken the next number. -/
def UsersMarked (uid : Int) (w w' : World) : Prop :=
  w.db.tables.users.next ≤ w'.db.tables.users.next ∧
    ∃ new : List UserRow, (∀ r ∈ new, r.id = uid ∧ uid = w.db.tables.users.next) ∧
      w'.db.tables.users.rows = (w.db.tables.users.rows ++ new).map (UserRow.markOnline uid)

/-- The connection `fd` is now logged in as `uid`. -/
structure SessionsGranted (pg : Bool) (env : Env) (fd uid : Int) (w w' : World) : Prop where
  conns : w'.conns = w.conns.set fd uid
  online : w'.mem.g_online_clients = w.mem.g_online_clients.set uid fd
  users : pg = true → env.SqlSucceeds → UsersMarked uid w w'

/-- The session `me` of `fd` is over: its user, unless it is user 0, is off the map. -/
structure SessionsEnded (fd me : Int) (w w' : World) : Prop where
  conns : w'.conns = w.conns.erase fd
  online : ∀ u, w'.mem.g_online_clients.find? u =
    if me ≠ 0 ∧ u = me then none else w.mem.g_online_clients.find? u
  rows : w'.db.tables.users.rows = w.db.tables.users.rows
  next : w'.db.tables.users.next = w.db.tables.users.next

/-- What a program keeps out of the sessions follows from its footprint. -/
theorem sessionsSame_of_frame {w w' : World}
    (h : ∀ x ∈ [Field.conns, .var .g_online_clients, .table .users], x.Same w w') :
    SessionsSame w w' := by
  have husers : w'.db.tables.users = w.db.tables.users := h (.table .users) (by simp)
  exact ⟨h .conns (by simp), h (.var .g_online_clients) (by simp), by rw [husers],
    by rw [husers]⟩

section Commands

variable {pg : Bool} {env : Env} {w : World} (fd : Int) (payload : Bytes)

theorem SessionsSame.trans {w w' w'' : World} (h : SessionsSame w w') (h' : SessionsSame w' w'') :
    SessionsSame w w'' :=
  ⟨h'.conns.trans h.conns, h'.online.trans h.online, h'.rows.trans h.rows, h.next.trans h'.next⟩

theorem SessionsGranted.trans {uid : Int} {w w' w'' : World}
    (h : SessionsGranted pg env fd uid w w') (h' : SessionsSame w' w'') :
    SessionsGranted pg env fd uid w w'' := by
  refine ⟨h'.conns.trans h.conns, h'.online.trans h.online, fun hpg hs => ?_⟩
  obtain ⟨hnext, new, hnew, hrows⟩ := h.users hpg hs
  exact ⟨hnext.trans h'.next, new, hnew, h'.rows.trans hrows⟩

theorem update_user_online_status_ensures (uid : Int) (hs : env.SqlSucceeds)
    (htx : w.db.tx = none) :
    Ensures env w (update_user_online_status uid true) fun _ w' =>
      w'.db.tables.users =
        ⟨w.db.tables.users.rows.map (UserRow.markOnline uid), w.db.tables.users.next⟩ := by
  refine (execute_of_none _ _ _ htx).bind fun r w₁ h₁ => ?_
  rcases h₁ with ⟨hfails, -, -⟩ | ⟨-, rfl, hdb⟩
  · exact absurd hfails (by simp [hs w.ticks])
  · have htx₁ : w₁.db.tx = none := by rw [hdb]
    refine ((log_activity_ensures _ _ htx₁).lift _).bind fun _ w₂ h₂ => ensures_pure ?_
    rw [h₂, hdb]
    rfl

theorem usersMarked_of_update {uid : Int} {w w' : World} (h : w'.db.tables.users =
      ⟨w.db.tables.users.rows.map (UserRow.markOnline uid), w.db.tables.users.next⟩) :
    UsersMarked uid w w' := by
  refine ⟨by rw [h], [], fun r hr => absurd hr List.not_mem_nil, ?_⟩
  rw [h, List.append_nil]

theorem mark_online_ensures (uid : Int) (htx : w.db.tx = none) :
    Ensures env w (mark_online pg uid) fun _ w' =>
      pg = true → env.SqlSucceeds → UsersMarked uid w w' := by
  refine ensures_imp fun hpg => ensures_imp fun hs =>
    ensures_when (fun _ => ?_) fun h => absurd hpg (by simp [h])
  exact (update_user_online_status_ensures uid hs htx).bind
    fun _ _ h => ensures_pure (usersMarked_of_update h)

theorem login_session_ensures (htx : w.db.tx = none) :
    Ensures env w (login_session pg fd payload) fun r w' =>
      (r = none ∧ (∀ uid, ¬Grants pg env w (.login payload) uid) ∧ SessionsSame w w') ∨
        ∃ l, r = some l ∧ Grants pg env w (.login payload) l.uid ∧
          SessionsGranted pg env fd l.uid w w' := by
  refine Ensures.locked (ensures_read (ensures_ite (fun hrefused => ?_) fun hgranted => ?_))
  · refine Ensures.bind (R := fun _ w' => SessionsSame w w') ?_ fun _ w' hsame => ?_
    · exact ⟨rfl, rfl, rfl, le_rfl⟩
    · refine ensures_pure (.inl ⟨rfl, ?_, hsame⟩)
      rintro uid ⟨u, hu, hpassword, -⟩
      exact hrefused (by rw [hu, Option.map_some, hpassword])
  · obtain ⟨u, hu, hpassword⟩ := Option.map_eq_some_iff.mp (not_not.mp hgranted)
    rw [hu]
    refine ensures_set_user (ensures_modify ?_)
    refine (((mark_online_ensures u.id (by exact htx)).and (ensures_frame _)).lift _).bind
      fun _ w₁ h₁ => ?_
    refine ensures_part fun pendingRequests w₂ h₂ => ?_
    refine ensures_read (ensures_modify (ensures_pure (.inr ⟨_, rfl, ⟨u, hu, hpassword, rfl⟩, ?_⟩)))
    have hgrant : SessionsGranted pg env fd u.id w w₁ :=
      ⟨h₁.2 .conns (by simp), h₁.2 (.var .g_online_clients) (by simp), h₁.1⟩
    have hsame : SessionsSame w₁ w₂ := sessionsSame_of_frame fun x hx => h₂ x (by
      simp only [List.mem_cons, List.not_mem_nil, or_false] at hx
      rcases hx with rfl | rfl | rfl <;> simp)
    exact hgrant.trans fd ⟨hsame.conns, hsame.online, hsame.rows, hsame.next⟩

theorem login_ensures (htx : w.db.tx = none) :
    Ensures env w (login pg fd payload) fun r w' => r = .next ∧
      (((∀ uid, ¬Grants pg env w (.login payload) uid) ∧ SessionsSame w w') ∨
        ∃ uid, Grants pg env w (.login payload) uid ∧ SessionsGranted pg env fd uid w w') := by
  refine ((login_session_ensures fd payload htx).lift _).bind fun r w₁ h₁ => ?_
  rcases h₁ with ⟨rfl, hno, hsame⟩ | ⟨l, rfl, hgrants, hgranted⟩
  · exact ensures_pure ⟨rfl, .inl ⟨hno, hsame⟩⟩
  · refine ensures_part fun _ w₂ h₂ => ensures_pure ⟨rfl, .inr ⟨l.uid, hgrants, ?_⟩⟩
    refine hgranted.trans fd (sessionsSame_of_frame fun x hx => h₂ x ?_)
    simp only [List.mem_cons, List.not_mem_nil, or_false] at hx
    rcases hx with rfl | rfl | rfl <;> simp

/-- What `create_user` answers: the next number of the sequence, if the row went in. -/
theorem create_user_ensures (username password phone : Bytes) (htx : w.db.tx = none) :
    Ensures env w (create_user username password phone) fun r w' => w'.db.tx = none ∧
      ((∃ row : UserRow, r = some row.id ∧ NewId true env w username row.id ∧
          w'.db.tables.users = ⟨w.db.tables.users.rows ++ [row], w.db.tables.users.next + 1⟩) ∨
        (r = none ∧ (∀ uid, ¬NewId true env w username uid) ∧
          w'.db.tables.users.rows = w.db.tables.users.rows ∧
          w.db.tables.users.next ≤ w'.db.tables.users.next)) := by
  refine (execute_of_none _ _ _ htx).bind fun r w₁ h₁ => ?_
  rcases h₁ with ⟨hfails, rfl, hdb⟩ | ⟨hfails, rfl, hdb⟩
  · refine ensures_pure ⟨by rw [hdb]; exact htx, .inr ⟨rfl, fun uid hnew => ?_, by rw [hdb],
      by rw [hdb]⟩⟩
    exact absurd hnew.1 (by simp [hfails])
  · unfold insert_user at hdb ⊢
    split
    · next htaken =>
      simp only [htaken, if_true] at hdb
      refine ensures_pure ⟨by rw [hdb], .inr ⟨rfl, fun uid hnew => ?_, by rw [hdb]; rfl, ?_⟩⟩
      · obtain ⟨row, hrow, hname⟩ := List.any_eq_true.mp htaken
        exact hnew.2.1 row hrow (by simpa using hname)
      · rw [hdb]
        show w.db.tables.users.next ≤ w.db.tables.users.next + 1
        omega
    · next hfree =>
      simp only [hfree] at hdb
      refine ((log_activity_ensures _ _ (by rw [hdb])).lift _).bind fun _ w₂ h₂ => ensures_pure ?_
      rw [h₂, hdb]
      refine ⟨rfl, .inl ⟨_, rfl, ⟨hfails, fun row hrow hname => hfree ?_, rfl⟩, rfl⟩⟩
      exact List.any_eq_true.mpr ⟨row, hrow, by simpa using hname⟩

theorem register_id_ensures (username password phone : Bytes) (htx : w.db.tx = none) :
    Ensures env w (register_id pg username password phone) fun r w' =>
      (∃ uid, r = some uid ∧ NewId pg env w username uid ∧
          (pg = true → env.SqlSucceeds → UsersMarked uid w w')) ∨
        (r = none ∧ (∀ uid, ¬NewId pg env w username uid) ∧
          w'.db.tables.users.rows = w.db.tables.users.rows ∧
          w.db.tables.users.next ≤ w'.db.tables.users.next) := by
  unfold register_id
  cases pg with
  | false => exact .inl ⟨_, rfl, rfl, fun h => absurd h (by simp)⟩
  | true =>
    refine ((create_user_ensures username password phone htx).lift _).bind fun r w₁ h₁ => ?_
    obtain ⟨htx₁, ⟨row, rfl, hnew, husers⟩ | ⟨rfl, hno, hrows⟩⟩ := h₁
    · refine Ensures.bind (R := fun _ w₂ => env.SqlSucceeds → w₂.db.tables.users =
        ⟨w₁.db.tables.users.rows.map (UserRow.markOnline row.id), w₁.db.tables.users.next⟩) ?_
        fun _ w₂ h₂ => ensures_pure (.inl ⟨row.id, rfl, hnew, fun _ hs => ?_⟩)
      · refine ensures_imp fun hs => ensures_when (fun _ => ?_) fun h => absurd h (by simp)
        exact ((update_user_online_status_ensures row.id hs htx₁).lift _).bind
          fun _ _ h => ensures_pure h
      · have h₂ := h₂ hs
        rw [husers] at h₂
        refine ⟨by rw [h₂]; show _ ≤ w.db.tables.users.next + 1; omega, [row], ?_, by rw [h₂]⟩
        intro r hr
        rw [List.mem_singleton.mp hr]
        exact ⟨rfl, hnew.2.2⟩
    · exact ensures_pure (.inr ⟨rfl, hno, hrows⟩)

variable (env w) in
theorem register_user_ensures (u : User) :
    Ensures env w (register_user fd u) fun _ w' =>
      w'.conns = w.conns.set fd u.id ∧
        w'.mem.g_online_clients = w.mem.g_online_clients.set u.id fd ∧ w'.db = w.db :=
  ⟨rfl, rfl, rfl⟩

theorem register_ensures (htx : w.db.tx = none) :
    Ensures env w (register pg fd payload) fun r w' => r = .next ∧
      (((∀ uid, ¬Grants pg env w (.register payload) uid) ∧ SessionsSame w w') ∨
        ∃ uid, Grants pg env w (.register payload) uid ∧ SessionsGranted pg env fd uid w w') := by
  have hreply : ∀ {S : List Field} (w₁ : World) (e : Bytes) (h : .out ∈ S), Ensures env w₁
      (reply fd .ERROR e 0 h : Prog S Unit) fun _ w' => SessionsSame w₁ w' :=
    fun w₁ e h => ⟨rfl, rfl, rfl, le_rfl⟩
  suffices hbody : Ensures env w _ fun (_ : Unit) w' =>
      ((∀ uid, ¬Grants pg env w (.register payload) uid) ∧ SessionsSame w w') ∨
        ∃ uid, Grants pg env w (.register payload) uid ∧ SessionsGranted pg env fd uid w w' from
    hbody.bind fun _ w' h => ensures_pure ⟨rfl, h⟩
  refine ensures_ite (fun hmissing => ?_) fun hfields => Ensures.locked (ensures_read ?_)
  · refine (hreply _ _ _).mono fun _ w' hsame => .inl ⟨?_, hsame⟩
    rintro uid ⟨hname, hpassword, -, -⟩
    exact hmissing.elim hname hpassword
  refine ensures_ite (fun htaken => ?_) fun hfree => ?_
  · refine (hreply _ _ _).mono fun _ w' hsame => .inl ⟨?_, hsame⟩
    rintro uid ⟨-, -, hcount, -⟩
    exact absurd htaken (by simp [hcount])
  obtain ⟨hname, hpassword⟩ := not_or.mp hfields
  refine (((register_id_ensures _ _ _ htx).and (ensures_frame _)).lift _).bind fun r w₁ h₁ => ?_
  obtain ⟨hr, hframe⟩ := h₁
  have hconns : w₁.conns = w.conns := hframe .conns (by simp)
  have honline : w₁.mem.g_online_clients = w.mem.g_online_clients :=
    hframe (.var .g_online_clients) (by simp)
  rcases hr with ⟨uid, rfl, hnew, husers⟩ | ⟨rfl, hno, hrows, hnext⟩
  · refine .inr ⟨uid, ⟨hname, hpassword, by simpa using hfree, hnew⟩, ?_⟩
    obtain ⟨hconns', honline', hdb⟩ := register_user_ensures env w₁ fd
      ⟨uid, field payload "username", field payload "password", field payload "phone"⟩
    exact ⟨hconns'.trans (by rw [hconns]), honline'.trans (by rw [honline]), husers⟩
  · refine .inl ⟨?_, SessionsSame.trans ⟨hconns, honline, hrows, hnext⟩ (hreply _ _ _)⟩
    rintro uid ⟨-, -, -, hnew⟩
    exact hno uid hnew

theorem go_offline_ensures (me : Int) :
    Ensures env w (go_offline me) fun _ w' => w'.conns = w.conns ∧
      (∀ u, w'.mem.g_online_clients.find? u =
        if me ≠ 0 ∧ u = me then none else w.mem.g_online_clients.find? u) ∧
      w'.db.tables.users = w.db.tables.users := by
  refine Ensures.bind (R := fun _ w₁ => w₁.conns = w.conns ∧
      (∀ u, w₁.mem.g_online_clients.find? u =
        if me ≠ 0 ∧ u = me then none else w.mem.g_online_clients.find? u) ∧
      w₁.db.tables.users = w.db.tables.users) ?_ fun _ w₁ h₁ => ?_
  · refine Ensures.locked ?_
    rw [Ensures, run_when]
    by_cases hme : me = 0
    · simp [hme]
    · simp [hme, Var.modify]
  · rw [Ensures, run_when]
    split
    · rw [run_lift]
      have hframe : Ensures env w₁ (notify_friends_status_change me false) _ := ensures_frame _
      refine ⟨Eq.trans (hframe .conns (by simp)) h₁.1, fun u => ?_,
        Eq.trans (hframe (.table .users) (by simp)) h₁.2.2⟩
      rw [← h₁.2.1 u]
      exact congrArg (UMap.find? · u) (hframe (.var .g_online_clients) (by simp))
    · exact h₁

variable (env w) in
theorem end_connection_sessions :
    SessionsEnded fd (w.session fd) w (end_connection env fd w) := by
  have h : Ensures env w (cleanup fd (w.session fd)) fun _ w' =>
      SessionsEnded fd (w.session fd) w w' := by
    refine ((go_offline_ensures (w.session fd)).lift _).bind fun _ w₁ h₁ => ?_
    obtain ⟨hconns, honline, husers⟩ := h₁
    exact ⟨by rw [← hconns]; rfl, honline, congrArg Serial.rows husers, congrArg Serial.next husers⟩
  exact h

/-- `LOGOUT` and the cleanup block after it do to the sessions what the block does. -/
theorem logout_sessions (me : Int) (hme : w.conns.find? fd = some me) :
    SessionsEnded fd me w (finish env fd ((logout fd me).run env w)) := by
  have h : Ensures env w (logout fd me) fun r w' => r = .cleanup ∧ w'.conns = w.conns ∧
      (∀ u, w'.mem.g_online_clients.find? u =
        if me ≠ 0 ∧ u = me then none else w.mem.g_online_clients.find? u) ∧
      w'.db.tables.users = w.db.tables.users := by
    refine (go_offline_ensures me).bind fun _ w₁ h₁ => ?_
    exact ⟨rfl, h₁⟩
  obtain ⟨hr, hconns, honline, husers⟩ := h
  rw [finish, if_pos hr]
  have hend := end_connection_sessions env ((logout fd me).run env w).2 fd
  have hsession : World.session ((logout fd me).run env w).2 fd = me := by
    rw [World.session, hconns]
    exact UMap.get_of_find? hme
  rw [hsession] at hend
  refine ⟨by rw [hend.conns, hconns], fun u => ?_, by rw [hend.rows, husers],
    by rw [hend.next, husers]⟩
  rw [hend.online, honline]
  split <;> rfl

end Commands

/-! ## What each step does to the sessions -/

/-- The connection an event ends: the peer is gone, the header is not valid, or it is a
`LOGOUT`. -/
def Event.ends (pg : Bool) (w : World) (e : Event) : Option Int :=
  match e with
  | .accept _ => none
  | .hangup fd => some fd
  | .request fd r =>
    if r.header.valid = false then some fd
    else if (e.command pg w).map (fun c => c.2.2) = some .logout then some fd else none

/-- What an event does to the sessions: one of four things. -/
inductive SessionChange (pg : Bool) (env : Env) (w : World) (e : Event) (w' : World) : Prop where
  | opened (fd : Int) (unused : w.conns.find? fd = none) (conns : w'.conns = w.conns.set fd 0)
    (online : w'.mem.g_online_clients = w.mem.g_online_clients) (db : w'.db = w.db)
  | granted (fd rid uid me : Int) (c : Command) (opened : w.conns.find? fd = some me)
    (command : e.command pg w = some (fd, rid, c)) (grants : Grants pg env w c uid)
    (change : SessionsGranted pg env fd uid w w')
  | ended (fd me : Int) (opened : w.conns.find? fd = some me) (ends : e.ends pg w = some fd)
    (change : SessionsEnded fd me w w')
  | same (change : SessionsSame w w')

section Steps

variable {pg : Bool} {env : Env} {w w' : World} {e : Event}

variable (pg env) in
/-- A command logs its connection in, ends it, or leaves the sessions alone. -/
theorem perform_sessions (fd me rid : Int) (c : Command) (htx : w.db.tx = none)
    (hme : w.conns.find? fd = some me) :
    (∃ uid, Grants pg env w c uid ∧
        SessionsGranted pg env fd uid w (finish env fd ((perform pg fd me rid c).run env w))) ∨
      (c = .logout ∧ SessionsEnded fd me w (finish env fd ((perform pg fd me rid c).run env w))) ∨
        SessionsSame w (finish env fd ((perform pg fd me rid c).run env w)) := by
  have hnext : ∀ res : Outcome × World, res.1 = .next → finish env fd res = res.2 :=
    fun res hres => if_neg (by simp [hres])
  cases c with
  | login payload =>
    rw [perform, run_lift]
    obtain ⟨hres, h | h⟩ := login_ensures fd payload htx
    · rw [hnext _ hres]
      exact .inr (.inr h.2)
    · rw [hnext _ hres]
      exact .inl h
  | register payload =>
    rw [perform, run_lift]
    obtain ⟨hres, h | h⟩ := register_ensures fd payload htx
    · rw [hnext _ hres]
      exact .inr (.inr h.2)
    · rw [hnext _ hres]
      exact .inl h
  | logout =>
    rw [perform, run_lift]
    exact .inr (.inl ⟨rfl, logout_sessions fd me hme⟩)
  | _ =>
    refine .inr (.inr ?_)
    rw [hnext _ (perform_next pg env w fd me rid _ (by simp))]
    refine sessionsSame_of_frame fun x hx => perform_effect pg fd me rid _ htx ?_
    simp only [List.mem_cons, List.not_mem_nil, or_false] at hx
    rcases hx with rfl | rfl | rfl <;> simp [Command.effect, Command.writes]

/-- **The effect of a step on the sessions.** -/
theorem Server.sessionChange (htx : w.db.tx = none) (hs : Server.step pg env w e = some w') :
    SessionChange pg env w e w' := by
  cases Server.move_of_step pg env hs with
  | accepted fd valid unused => exact .opened fd unused rfl rfl rfl
  | hungup fd me opened =>
    have hend := end_connection_sessions env w fd
    rw [World.session, UMap.get_of_find? opened] at hend
    exact .ended fd me opened rfl hend
  | refused fd me r opened invalid =>
    have hsame : SessionsSame w ((invalid_header fd).run env w).2 := ⟨rfl, rfl, rfl, le_rfl⟩
    have hsession : World.session ((invalid_header fd).run env w).2 fd = me := by
      rw [World.session, hsame.conns]
      exact UMap.get_of_find? opened
    have hend := end_connection_sessions env ((invalid_header fd).run env w).2 fd
    rw [hsession] at hend
    refine .ended fd me opened (by simp [Event.ends, invalid]) ⟨?_, ?_, ?_, ?_⟩
    · rw [hend.conns, hsame.conns]
    · rw [← hsame.online]
      exact hend.online
    · rw [hend.rows, hsame.rows]
    · exact hend.next
  | performed fd me rid r c opened command =>
    rcases perform_sessions pg env fd me rid c htx opened with
      ⟨uid, hgrants, h⟩ | ⟨rfl, h⟩ | h
    · exact .granted fd rid uid me c opened command hgrants h
    · refine .ended fd me opened ?_ h
      have hvalid : r.header.valid = true := by
        by_contra hv
        simp [Event.command, hv] at command
      simp [Event.ends, hvalid, command]
    · exact .same h

end Steps

end ChatApp
