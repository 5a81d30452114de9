/-
`Accounts.lean` -- what the moves of the handlers do to the accounts and to the sessions.

`REGISTER` is one critical section: it refuses, or it enters one new user and logs the connection in as
it (`Entered`). `LOGIN` changes a session in one critical section and no account. No other operation of
any handler writes the user tables, the counter or the users file, and none writes a session except
that a handler closes its own connection. So a handler at work is in one of three stages, and
`Turn` says what its next turn does.
-/
import ChatApp.Sessions
import ChatApp.Stranded

set_option autoImplicit false

namespace ChatApp

open Prog PostgresPersistence handle_client

/-! ## What is stored about the accounts -/

/-- Where the accounts and the sessions are stored. -/
abbrev account_fields : List Field :=
  [.var .g_users_by_name, .var .g_users_by_id, .var .g_next_user_id, .users_file, .conns]

/-- The user tables, the counter and the users file are as they were. -/
structure AccountsSame (w w' : World) : Prop where
  by_name : w'.mem.g_users_by_name = w.mem.g_users_by_name
  by_id : w'.mem.g_users_by_id = w.mem.g_users_by_id
  next : w'.mem.g_next_user_id = w.mem.g_next_user_id
  file : w'.users_file = w.users_file

/-- A frame of type `SUCCESS` was sent to `fd`, and nothing else. -/
def Succeeded (fd : Int) (w w' : World) : Prop :=
  ∃ f : Frame, w'.out = w.out ++ [f] ∧ f.fd = fd ∧ f.type = .SUCCESS

/-- The user `u`, whose name was free, was entered into the tables under its name and its id, and the
connection `fd` is logged in as it. -/
structure Entered (pg : Bool) (env : Env) (fd : Int) (payload : Bytes) (u : User) (w w' : World) : Prop where
  username : u.username = field payload "username"
  password : u.password_hash = field payload "password"
  phone : u.phone = field payload "phone"
  given : field payload "username" ≠ [] ∧ field payload "password" ≠ []
  free : w.mem.g_users_by_name.find? u.username = none
  id : NewId pg env w u.username u.id
  by_name : w'.mem.g_users_by_name = w.mem.g_users_by_name.set u.username u
  by_id : w'.mem.g_users_by_id = w.mem.g_users_by_id.set u.id u
  next : pg = false → w'.mem.g_next_user_id = succ_int w.mem.g_next_user_id
  file : pg = false → w'.users_file = save_users w.mem.g_users_by_name
  session : w'.conns = w.conns.set fd u.id
  succeeded : Succeeded fd w w'

/-- A `REGISTER` was refused. -/
structure Denied (fd : Int) (w w' : World) : Prop where
  accounts : AccountsSame w w'
  conns : w'.conns = w.conns
  fails : ¬Succeeded fd w w'

section Register

variable {pg : Bool} {env : Env} {w w' : World} (fd : Int) (payload : Bytes)

theorem AccountsSame.refl (w : World) : AccountsSame w w := ⟨rfl, rfl, rfl, rfl⟩

theorem AccountsSame.trans {w'' : World} (h : AccountsSame w w') (h' : AccountsSame w' w'') :
    AccountsSame w w'' :=
  ⟨h'.by_name.trans h.by_name, h'.by_id.trans h.by_id, h'.next.trans h.next, h'.file.trans h.file⟩

/-- A refusal sends an `ERROR`, and nothing else. -/
theorem denied_reply {w₁ : World} {S : List Field} (text : Bytes) (h : .out ∈ S)
    (hsame : AccountsSame w w₁) (hconns : w₁.conns = w.conns) (hout : w₁.out = w.out) :
    Ensures env w₁ (reply fd .ERROR text 0 h : Prog S Unit) fun _ w' => Denied fd w w' := by
  refine ⟨⟨hsame.by_name, hsame.by_id, hsame.next, hsame.file⟩, hconns, ?_⟩
  rintro ⟨f, hsent, -, htype⟩
  have hframes : w₁.out ++ [_] = w.out ++ [f] := hsent
  rw [hout] at hframes
  have hframe := List.singleton_inj.mp (List.append_cancel_left hframes)
  rw [← hframe] at htype
  cases htype

/-- The counter after an id was taken: the second assignment of `REGISTER` does nothing more. -/
theorem counter_after (n : Int) : (if succ_int n ≤ n then succ_int n else succ_int n) = succ_int n := by
  split <;> rfl

/-- With a database, taking an id writes the database only. -/
theorem register_id_frame (username password phone : Bytes) :
    Ensures env w (register_id true username password phone) fun _ w' =>
      AccountsSame w w' ∧ w'.conns = w.conns ∧ w'.out = w.out := by
  have hsame : ∀ {S : List Field} {α : Type} {w₁ : World} (p : Prog S α),
      (∀ x ∈ [Field.var .g_users_by_name, .var .g_users_by_id, .var .g_next_user_id, .users_file, .conns,
        .out], x ∉ S) → Ensures env w₁ p fun _ w' =>
        AccountsSame w₁ w' ∧ w'.conns = w₁.conns ∧ w'.out = w₁.out := fun p hS =>
    (ensures_frame p).mono fun _ _ h => ⟨⟨h (.var .g_users_by_name) (hS _ (by simp)),
      h (.var .g_users_by_id) (hS _ (by simp)), h (.var .g_next_user_id) (hS _ (by simp)),
      h .users_file (hS _ (by simp))⟩, h .conns (hS _ (by simp)), h .out (hS _ (by simp))⟩
  refine ((hsame (create_user username password phone) (by simp)).lift _).bind fun uid w₁ h₁ => ?_
  refine Ensures.bind (R := fun _ w' => AccountsSame w₁ w' ∧ w'.conns = w₁.conns ∧ w'.out = w₁.out)
    (ensures_when (fun _ => ?_) fun _ => ⟨.refl w₁, rfl, rfl⟩) fun _ w₂ h₂ => ensures_pure ?_
  · exact ((hsame (update_user_online_status _ true) (by simp)).lift _).bind fun _ _ h => ensures_pure h
  · exact ⟨h₁.1.trans h₂.1, h₂.2.1.trans h₁.2.1, h₂.2.2.trans h₁.2.2⟩

/-- **`REGISTER`** refuses, or enters one new user. -/
theorem register_accounts : Ensures env w (register pg fd payload) fun r w' => r = .next ∧
    (Denied fd w w' ∨ ∃ u, Entered pg env fd payload u w w') := by
  suffices hbody : Ensures env w _ fun (_ : Unit) w' =>
      Denied fd w w' ∨ ∃ u, Entered pg env fd payload u w w' from
    hbody.bind fun _ w' h => ensures_pure ⟨rfl, h⟩
  have hdenied : ∀ {S : List Field} (text : Bytes) (h : .out ∈ S), Ensures env w
      (reply fd .ERROR text 0 h : Prog S Unit) fun _ w' =>
        Denied fd w w' ∨ ∃ u, Entered pg env fd payload u w w' :=
    fun text h => (denied_reply fd text h (.refl w) rfl rfl).mono fun _ _ => .inl
  refine ensures_ite (fun _ => hdenied _ _) fun hfields => Ensures.locked (ensures_read ?_)
  refine ensures_ite (fun _ => hdenied _ _) fun hfree => ?_
  have hfree : w.mem.g_users_by_name.find? (field payload "username") = none := by
    simpa [UMap.count] using hfree
  cases pg with
  | false =>
    -- the counter, and the users saved before the new one is among them
    refine .inr ⟨⟨w.mem.g_next_user_id, field payload "username", field payload "password",
      field payload "phone"⟩, ?_⟩
    exact ⟨rfl, rfl, rfl, not_or.mp hfields, hfree, rfl, rfl, rfl, fun _ => counter_after _, fun _ => rfl, rfl, _,
      rfl, rfl, rfl⟩
  | true =>
    refine (((register_id_new _ _ _).and (register_id_frame _ _ _)).lift _).bind fun r w₁ h₁ => ?_
    obtain ⟨⟨-, -, hnew⟩, hsame, hconns, hout⟩ := h₁
    refine ensures_ite (fun _ => (denied_reply fd _ _ hsame hconns hout).mono fun _ _ => .inl) fun hsome => ?_
    obtain ⟨uid, rfl⟩ := Option.ne_none_iff_exists'.mp (by simpa using hsome)
    refine .inr ⟨⟨uid, field payload "username", field payload "password", field payload "phone"⟩, ?_⟩
    have hid := (hnew uid rfl).1
    refine ⟨rfl, rfl, rfl, not_or.mp hfields, hfree, hid, ?_, ?_, fun h => Bool.noConfusion h,
      fun h => Bool.noConfusion h, ?_, ?_⟩
    · exact congrArg (UMap.set · _ _) hsame.by_name
    · exact congrArg (UMap.set · _ _) hsame.by_id
    · exact congrArg (UMap.set · _ _) hconns
    · exact ⟨_, congrArg (· ++ _) hout, rfl, rfl⟩

/-- **`LOGIN`** changes no account; if the password is the one stored for the name, the connection is logged
in as that user. -/
theorem login_accounts : Ensures env w (login_session pg fd payload) fun _ w' => AccountsSame w w' ∧
    (w'.conns = w.conns ∨ ∃ u, w.mem.g_users_by_name.find? (field payload "username") = some u ∧
      u.password_hash = field payload "password" ∧ w'.conns = w.conns.set fd u.id) := by
  refine Ensures.locked (ensures_read (ensures_ite (fun _ => ?_) fun hgranted => ?_))
  · exact ⟨⟨rfl, rfl, rfl, rfl⟩, .inl rfl⟩
  · obtain ⟨u, hu, hpassword⟩ := Option.map_eq_some_iff.mp (not_not.mp hgranted)
    rw [hu]
    refine ensures_set_user (ensures_modify (ensures_part fun _ w₁ h₁ => ?_))
    refine ensures_part fun _ w₂ h₂ => ensures_read (ensures_modify (ensures_pure ?_))
    have hmark : ∀ x ∈ account_fields, x ∉ [Field.table .users, .table .activity_logs] := by decide
    have hpending : ∀ x ∈ account_fields, x ∉ [Field.var .g_friend_requests] := by decide
    have hframe := fun x hx => (h₁ x (hmark x hx)).trans (h₂ x (hpending x hx))
    refine ⟨⟨hframe (.var .g_users_by_name) (by simp), hframe (.var .g_users_by_id) (by simp),
      hframe (.var .g_next_user_id) (by simp), hframe .users_file (by simp)⟩, .inr ⟨u, rfl, hpassword, ?_⟩⟩
    exact hframe .conns (by simp)

end Register

/-! ## The other operations -/

/-- The operation writes nothing about an account, and no session but by closing `fd`. -/
def Op.keepsAccounts (fd : Int) {β : Type} : Op β → Prop
  | .modify .g_users_by_name _ | .modify .g_users_by_id _ | .modify .g_next_user_id _ => False
  | .write_file _ | .set_user _ _ => False
  | .close fd' => fd' = fd
  | _ => True

/-- The accounts are as they were, and so are the sessions, unless `fd` was closed. -/
structure AccountsKept (fd : Int) (w w' : World) : Prop where
  accounts : AccountsSame w w'
  others : ∀ fd' ≠ fd, w'.conns.find? fd' = w.conns.find? fd'
  own : w'.conns.find? fd = w.conns.find? fd ∨ w'.conns.find? fd = none

section Kept

variable {pg : Bool} {env : Env} {fd : Int} {w w' w'' : World} {S : List Field} {α : Type}

theorem AccountsKept.refl (w : World) : AccountsKept fd w w := ⟨.refl w, fun _ _ => rfl, .inl rfl⟩

theorem AccountsKept.trans (h : AccountsKept fd w w') (h' : AccountsKept fd w' w'') :
    AccountsKept fd w w'' := by
  refine ⟨h.accounts.trans h'.accounts, fun fd' hfd => (h'.others fd' hfd).trans (h.others fd' hfd), ?_⟩
  rcases h'.own with hsame | hnone
  · rw [hsame]
    exact h.own
  · exact .inr hnone

theorem Op.keepsAccounts.exec {β : Type} {o : Op β} (ho : o.keepsAccounts fd) (env : Env) (w : World) :
    AccountsKept fd w (o.exec env w).2 := by
  have hsame : ∀ {w' : World}, AccountsSame w w' → w'.conns = w.conns → AccountsKept fd w w' :=
    fun haccounts hconns => ⟨haccounts, fun _ _ => by rw [hconns], .inl (by rw [hconns])⟩
  cases o with
  | modify x f =>
    cases x with
    | g_users_by_name | g_users_by_id | g_next_user_id => exact ho.elim
    | _ => exact hsame ⟨rfl, rfl, rfl, rfl⟩ rfl
  | write_file contents => exact ho.elim
  | set_user fd' uid => exact ho.elim
  | close fd' =>
    cases (show fd' = fd from ho)
    refine ⟨⟨rfl, rfl, rfl, rfl⟩, fun fd' hfd => ?_, .inr ?_⟩
    · exact (UMap.find?_erase ..).trans (if_neg hfd)
    · exact (UMap.find?_erase ..).trans (if_pos rfl)
  | _ => exact hsame ⟨rfl, rfl, rfl, rfl⟩ rfl

theorem keepsAccounts_of_footprint (p : Prog S α) (hS : ∀ x ∈ account_fields, x ∉ S) :
    p.Always (Op.keepsAccounts fd) fun _ => True := by
  refine always_of_footprint p fun {β} o ho => ?_
  have hno : ∀ x ∈ account_fields, x ∉ o.writes := fun x hx hw => hS x hx (ho x hw)
  cases o with
  | modify x f =>
    cases x with
    | g_users_by_name => exact hno (.var .g_users_by_name) (by simp) (by simp [Op.writes])
    | g_users_by_id => exact hno (.var .g_users_by_id) (by simp) (by simp [Op.writes])
    | g_next_user_id => exact hno (.var .g_next_user_id) (by simp) (by simp [Op.writes])
    | _ => trivial
  | write_file contents => exact hno .users_file (by simp) (by simp [Op.writes])
  | set_user fd' uid | close fd' => exact (hno .conns (by simp) (by simp [Op.writes])).elim
  | _ => trivial

/-- Every case but `REGISTER` and `LOGIN` keeps the accounts. -/
theorem perform_keeps (me rid : Int) {c : Command} (hregister : ∀ payload, c ≠ .register payload)
    (hlogin : ∀ payload, c ≠ .login payload) :
    (perform pg fd me rid c).Always (Op.keepsAccounts fd) fun _ => True := by
  cases c with
  | register payload => exact absurd rfl (hregister payload)
  | login payload => exact absurd rfl (hlogin payload)
  | _ =>
    rw [perform, always_lift]
    exact keepsAccounts_of_footprint _ (by simp [all_tables])

theorem cleanup_keeps (me : Int) :
    (cleanup_handler fd me).prog.Always (Op.keepsAccounts fd) fun _ => True := by
  have hoffline : (go_offline me).Always (Op.keepsAccounts fd) fun _ => True :=
    keepsAccounts_of_footprint _ (by simp)
  have hclose : (close fd : Prog [.conns] Unit).Always (Op.keepsAccounts fd) fun _ => True :=
    (always_close ..).mpr ⟨rfl, trivial⟩
  refine Always.seq ((always_lift ..).mpr ?_) fun _ => trivial
  exact Always.seq ((always_lift ..).mpr hoffline) fun _ => hclose

end Kept

/-! ## Handlers at work -/

/-- How far a handler is: before the section of `REGISTER` or of `LOGIN`, or in code that keeps the
accounts. -/
inductive Stage (pg : Bool) (h : Handler) : Prop where
  | registering (me rid : Int) (payload : Bytes)
    (prog : h.prog = perform pg h.fd me rid (.register payload))
  | logging_in (me rid : Int) (payload : Bytes)
    (prog : h.prog = perform pg h.fd me rid (.login payload))
  | keeping (prog : h.prog.Always (Op.keepsAccounts h.fd) fun _ => True)

section Turns

variable {pg : Bool} {env : Env} {w : World} {fd : Int}

theorem stage_of_perform (fd me rid : Int) (c : Command) : Stage pg ⟨fd, perform pg fd me rid c⟩ := by
  by_cases hregister : ∃ payload, c = .register payload
  · obtain ⟨payload, rfl⟩ := hregister
    exact .registering me rid payload rfl
  by_cases hlogin : ∃ payload, c = .login payload
  · obtain ⟨payload, rfl⟩ := hlogin
    exact .logging_in me rid payload rfl
  exact .keeping (perform_keeps me rid (fun payload h => hregister ⟨payload, h⟩)
    fun payload h => hlogin ⟨payload, h⟩)

theorem stage_of_cleanup (fd me : Int) : Stage pg (cleanup_handler fd me) :=
  .keeping (cleanup_keeps me)

/-- A handler that has just started. -/
theorem stage_of_request {r : Request} {h : Handler} (hrequest : request_handler pg w fd r = some h) :
    Stage pg h := by
  rcases Concurrent.request_handler_eq pg hrequest with ⟨-, c, -, rfl⟩ | ⟨-, rfl⟩
  · exact stage_of_perform ..
  · have hkeeps : (invalid_header fd).Always (Op.keepsAccounts fd) fun _ => True :=
      keepsAccounts_of_footprint _ (by simp)
    refine .keeping ?_
    rw [always_lift]
    exact hkeeps

/-- **The turn of a `REGISTER`** is all of it. -/
theorem register_turn (me rid : Int) (payload : Bytes) :
    ((perform pg fd me rid (.register payload)).advance env w).1 = pure .next ∧
      (Denied fd w ((perform pg fd me rid (.register payload)).advance env w).2 ∨
        ∃ u, Entered pg env fd payload u w ((perform pg fd me rid (.register payload)).advance env w).2) := by
  have hend : ((perform pg fd me rid (.register payload)).advance env w).1 = pure .next := by
    rw [perform, advance_lift]
    by_cases hmissing : field payload "username" = [] ∨ field payload "password" = []
    · rw [register, andNext, if_pos hmissing]
      rfl
    · rw [register, andNext, if_neg hmissing, advance_locked]
      · rfl
      · simp [register_id, create_user, update_user_online_status, log_activity, register_user,
          Unlocked, Op.isLock, Op.isUnlock]
  have hrun := run_advance env (perform pg fd me rid (.register payload)) w
  have haccounts : Ensures env w (perform pg fd me rid (.register payload)) _ :=
    (register_accounts fd payload).lift (by decide)
  rw [hend, run_pure] at hrun
  rw [Ensures, ← hrun] at haccounts
  exact ⟨hend, haccounts.2⟩

/-- The section of a `LOGIN` is one turn, whatever is done with what it collects. -/
theorem login_section {S : List Field} (h : login_writes ⊆ S) (payload : Bytes)
    (deliver : Option Login → Prog S Outcome) :
    ((login_session pg fd payload).lift h >>= deliver).advance env w
      = (deliver ((login_session pg fd payload).run env w).1, ((login_session pg fd payload).run env w).2) := by
  refine (advance_locked_lift ?_ _ deliver w).trans ?_
  · simp [mark_online, update_user_online_status, log_activity, login_pending, get_pending_requests,
      Unlocked, Op.isLock, Op.isUnlock]
  · rw [login_session, run_locked]

/-- **The first turn of a `LOGIN`** is its section; what follows keeps the accounts. -/
theorem login_turn (me rid : Int) (payload : Bytes) :
    ((perform pg fd me rid (.login payload)).advance env w).1.Always (Op.keepsAccounts fd) (fun _ => True) ∧
      AccountsSame w ((perform pg fd me rid (.login payload)).advance env w).2 ∧
      (((perform pg fd me rid (.login payload)).advance env w).2.conns = w.conns ∨
        ∃ u, w.mem.g_users_by_name.find? (field payload "username") = some u ∧
          u.password_hash = field payload "password" ∧
          ((perform pg fd me rid (.login payload)).advance env w).2.conns = w.conns.set fd u.id) := by
  obtain ⟨haccounts, hconns⟩ : Ensures env w (login_session pg fd payload) _ := login_accounts fd payload
  rw [perform, advance_lift, login, login_section]
  refine ⟨?_, haccounts, hconns⟩
  rw [always_lift]
  cases ((login_session pg fd payload).run env w).1 with
  | none => trivial
  | some l =>
    refine Always.seq ?_ fun _ => trivial
    rw [always_lift]
    exact keepsAccounts_of_footprint _ (by simp)

/-- A turn of a handler that keeps the accounts. -/
theorem keeping_turn {p : Prog all_fields Outcome} (hp : p.Always (Op.keepsAccounts fd) fun _ => True) :
    (p.advance env w).1.Always (Op.keepsAccounts fd) (fun _ => True) ∧
      AccountsKept fd w (p.advance env w).2 :=
  hp.advance (I := AccountsKept fd w) (fun _ w' ho hw' => hw'.trans (ho.exec env w')) (.refl w)

/-- **A turn** leaves the accounts alone, or it is the turn of a `REGISTER` that enters a user. The
handler is in one of the three stages again. -/
theorem Stage.turn {h : Handler} (hh : Stage pg h) (env : Env) (w : World) :
    Stage pg ⟨h.fd, (h.prog.advance env w).1⟩ ∧ (AccountsSame w (h.prog.advance env w).2 ∨
      ∃ me rid payload u, h.prog = perform pg h.fd me rid (.register payload) ∧
        Entered pg env h.fd payload u w (h.prog.advance env w).2) := by
  cases hh with
  | registering me rid payload hprog =>
    rw [hprog]
    obtain ⟨hend, hdenied | ⟨u, hentered⟩⟩ := @register_turn pg env w h.fd me rid payload
    · rw [hend]
      exact ⟨.keeping trivial, .inl hdenied.accounts⟩
    · rw [hend]
      exact ⟨.keeping trivial, .inr ⟨me, rid, payload, u, rfl, hentered⟩⟩
  | logging_in me rid payload hprog =>
    rw [hprog]
    obtain ⟨hkeeps, hsame, -⟩ := @login_turn pg env w h.fd me rid payload
    exact ⟨.keeping hkeeps, .inl hsame⟩
  | keeping hkeeps =>
    obtain ⟨hrest, hkept⟩ := @keeping_turn env w h.fd h.prog hkeeps
    exact ⟨.keeping hrest, .inl hkept.accounts⟩

/-- **A step of the server** leaves the accounts alone, or it is the turn of a `REGISTER` that enters a
user. -/
theorem stages_step {env : Env} {x y : Concurrent} {e : Concurrent.Event}
    (hs : Concurrent.step pg env x e = some y) (hstages : ∀ h ∈ x.handlers, Stage pg h) :
    (∀ h ∈ y.handlers, Stage pg h) ∧ (AccountsSame x.world y.world ∨
      ∃ i fd me rid payload u, e = .advance i ∧
        x.handlers[i]? = some ⟨fd, perform pg fd me rid (.register payload)⟩ ∧
        Entered pg env fd payload u x.world y.world) := by
  have hturn : ∀ (i : Nat) h, x.handlers[i]? = some h → _ := fun i h hget =>
    (hstages h (List.mem_of_getElem? hget)).turn env x.world
  constructor
  · refine Concurrent.stages_of_step hs (fun fd r h _ => stage_of_request) stage_of_cleanup
      (fun i h _ hget => (hturn i h hget).1) hstages
  · cases Concurrent.move_of_step pg env hs with
    | accepted fd => exact .inl ⟨rfl, rfl, rfl, rfl⟩
    | started | hungup | finished => exact .inl (.refl _)
    | turned i h hget =>
      refine (hturn i h hget).2.imp_right fun ⟨me, rid, payload, u, hprog, hentered⟩ => ?_
      refine ⟨i, h.fd, me, rid, payload, u, rfl, ?_, hentered⟩
      rw [hget, ← hprog]

end Turns

end ChatApp
