/-
`Authentication.lean` -- whose session a connection has, and why.

A session starts in the critical section of a `REGISTER` or of a `LOGIN`, and in no other place. Between the
frame and that section other handlers may run, but the connection stays open and takes no second
frame (`Single`), so the section belongs to a frame of the same connection. Records of the user tables are
only ever added, and stay as they are while every registration gets an id that nobody has.
-/
import ChatApp.Durable
import ChatApp.Faults

set_option autoImplicit false

namespace ChatApp

open Prog PostgresPersistence handle_client

/-! ## The past of a connection -/

namespace Concurrent

/-- The event opens the connection. -/
def Event.opens (fd : Int) : Concurrent.Event → Bool
  | .accept fd' => fd' = fd
  | _ => false

/-- The transitions since the connection was opened. -/
def since (fd : Int) (tr : List (Taken Concurrent Concurrent.Event)) : List (Taken Concurrent Concurrent.Event) :=
  (tr.reverse.takeWhile fun t => !t.event.opens fd).reverse

/-- A frame of this type has arrived on the connection. -/
def Asked (fd : Int) (type : MessageType) (r : Request) (tr : List (Taken Concurrent Concurrent.Event)) : Prop :=
  r.header.valid = true ∧ MessageType.ofByte r.header.type = some type ∧
    ∃ t ∈ since fd tr, t.event = .request fd r

/-- The transition is the turn of a `REGISTER` of the connection that enters the user `u`, whose name was
free. -/
def Creates (pg : Bool) (fd : Int) (payload : Bytes) (u : User) (t : Taken Concurrent Concurrent.Event) : Prop :=
  ∃ i me rid, t.event = .advance i ∧
    t.before.handlers[i]? = some ⟨fd, perform pg fd me rid (.register payload)⟩ ∧
    t.before.world.mem.g_users_by_name.find? u.username = none ∧
    t.after.world.mem.g_users_by_name.find? u.username = some u

/-- `u` is an account: it was loaded when the server started, or was created since. -/
def Account (pg : Bool) (w₀ : World) (tr : List (Taken Concurrent Concurrent.Event)) (u : User) : Prop :=
  w₀.mem.g_users_by_name.find? u.username = some u ∨ ∃ fd payload, ∃ t ∈ tr, Creates pg fd payload u t

/-- The connection has presented the name and the password of `u`, in a `REGISTER` that created `u`, or in a
`LOGIN`, where `u` is an account. -/
def Authenticated (pg : Bool) (w₀ : World) (tr : List (Taken Concurrent Concurrent.Event)) (fd : Int)
    (u : User) : Prop :=
  ∃ r : Request, u.username = field r.payload "username" ∧ u.password_hash = field r.payload "password" ∧
    ((Asked fd .REGISTER r tr ∧ ∃ t ∈ since fd tr, Creates pg fd r.payload u t) ∨
      (Asked fd .LOGIN r tr ∧ Account pg w₀ tr u))

/-- The condition on a step: a `REGISTER` that is granted gets an id that nobody has. -/
def FreshIds (pg : Bool) (env : Env) (s : Concurrent) (e : Concurrent.Event) : Prop :=
  ∀ i fd me rid payload id, e = .advance i →
    s.handlers[i]? = some ⟨fd, perform pg fd me rid (.register payload)⟩ →
    Grants pg env s.world (.register payload) id → s.world.mem.g_users_by_id.find? id = none

/-- Whoever was in one of the user tables is still there, under the same name and password. -/
def CredentialsKept (t : Taken Concurrent Concurrent.Event) : Prop :=
  (∀ n u, t.before.world.mem.g_users_by_name.find? n = some u →
    t.after.world.mem.g_users_by_name.find? n = some u) ∧
  ∀ i u, t.before.world.mem.g_users_by_id.find? i = some u →
    t.after.world.mem.g_users_by_id.find? i = some u

section Since

variable {pg : Bool} {w₀ : World} {fd : Int} {type : MessageType} {r : Request} {u : User}
  {past : List (Taken Concurrent Concurrent.Event)} {t : Taken Concurrent Concurrent.Event}

theorem since_snoc (h : t.event.opens fd = false) : since fd (past ++ [t]) = since fd past ++ [t] := by
  rw [since, List.reverse_concat, List.takeWhile_cons, if_pos (by rw [h]; rfl), List.reverse_cons]
  rfl

theorem mem_since (h : t.event.opens fd = false) : t ∈ since fd (past ++ [t]) := by
  rw [since_snoc h]
  exact List.mem_append_right _ List.mem_cons_self

theorem Asked.snoc (h : Asked fd type r past) (ht : t.event.opens fd = false) :
    Asked fd type r (past ++ [t]) := by
  obtain ⟨hvalid, htype, t', ht', he⟩ := h
  refine ⟨hvalid, htype, t', ?_, he⟩
  rw [since_snoc ht]
  exact List.mem_append_left _ ht'

theorem Account.snoc (h : Account pg w₀ past u) : Account pg w₀ (past ++ [t]) u := by
  rcases h with h | ⟨fd, payload, t', ht', hcreates⟩
  · exact .inl h
  · exact .inr ⟨fd, payload, t', List.mem_append_left _ ht', hcreates⟩

theorem Authenticated.snoc (h : Authenticated pg w₀ past fd u) (ht : t.event.opens fd = false) :
    Authenticated pg w₀ (past ++ [t]) fd u := by
  obtain ⟨r, hname, hpassword, ⟨hasked, t', ht', hcreates⟩ | ⟨hasked, haccount⟩⟩ := h
  · refine ⟨r, hname, hpassword, .inl ⟨hasked.snoc ht, t', ?_, hcreates⟩⟩
    rw [since_snoc ht]
    exact List.mem_append_left _ ht'
  · exact ⟨r, hname, hpassword, .inr ⟨hasked.snoc ht, haccount.snoc⟩⟩

end Since

end Concurrent

/-! ## Users under their names -/

/-- Every user of the table is under its own name. -/
def Named (m : UMap Bytes User) : Prop := ∀ n u, m.find? n = some u → u.username = n

/-- The operation enters users under their own names. -/
def Op.names {β : Type} : Op β → Prop
  | .modify .g_users_by_name f => ∀ m, Named m → Named (f m)
  | _ => True

theorem Named.set {m : UMap Bytes User} (h : Named m) (u : User) : Named (m.set u.username u) := by
  intro n v hv
  rw [UMap.find?_set] at hv
  split at hv
  · next hn => rw [← Option.some.inj hv, hn]
  · exact h n v hv

theorem Op.names.exec {β : Type} {o : Op β} (ho : o.names) {env : Env} {w : World}
    (hw : Named w.mem.g_users_by_name) : Named (o.exec env w).2.mem.g_users_by_name := by
  cases o with
  | modify x f =>
    cases x with
    | g_users_by_name => exact ho _ hw
    | _ => exact hw
  | _ => exact hw

theorem load_user_names (user : UserRow) : (load_user user).Always Op.names fun _ => True := by
  simp only [load_user, always_bind, always_modify, always_select]
  refine ⟨trivial, fun m hm => hm.set user.toUser, trivial, fun _ => (always_forM ..).mpr ⟨fun _ _ => ?_, trivial⟩⟩
  exact ⟨trivial, fun _ => trivial⟩

theorem load_database_names : load_database.Always Op.names fun _ => True := by
  simp only [load_database, always_bind, always_modify, always_select, always_lift]
  refine ⟨trivial, fun all_users => (always_forM ..).mpr ⟨fun user _ => load_user_names user, trivial, ?_⟩⟩
  refine (always_forM ..).mpr ⟨fun user _ => ?_, trivial⟩
  simp only [always_bind, always_lift, PostgresPersistence.get_user_groups, always_select, always_pure]
  refine ⟨trivial, fun groups => (always_forM ..).mpr ⟨fun g _ => ?_, trivial⟩⟩
  refine always_of_footprint (load_group g) fun {β} o ho => ?_
  cases o with
  | modify x f =>
    cases x with
    | g_users_by_name => simp [Op.writes] at ho
    | _ => trivial
  | _ => trivial

/-- The server starts with users under their own names. -/
theorem Booted.named {pg : Bool} {env : Env} {w : World} (booted : Booted pg env w) :
    Named w.mem.g_users_by_name := by
  cases pg with
  | false => exact fun n u hu => (name_of_loaded (boot_loads booted) hu).1
  | true =>
    obtain ⟨w₀, fresh, hboot⟩ := booted
    cases hboot
    refine load_database_names.invariant (I := fun w => Named w.mem.g_users_by_name)
      (fun o w ho hw => ho.exec hw) ?_
    rw [fresh.mem]
    exact fun n u hu => by simp [ServerState.initial] at hu

/-! ## Frames and handlers -/

/-- Only a `REGISTER` is performed as one, on its own payload, and so for `LOGIN`. -/
theorem decode_sign_in {pg : Bool} {type : UInt8} {payload payload' : Bytes} {c : Command}
    (h : decode pg type payload = .ok c) :
    (c = .register payload' → MessageType.ofByte type = some .REGISTER ∧ payload' = payload) ∧
      (c = .login payload' → MessageType.ofByte type = some .LOGIN ∧ payload' = payload) := by
  unfold decode at h
  cases htype : MessageType.ofByte type with
  | none =>
    rw [htype] at h
    cases h
    exact ⟨fun hc => Command.noConfusion hc, fun hc => Command.noConfusion hc⟩
  | some t =>
    rw [htype] at h
    cases t with
    | REGISTER | LOGIN =>
      cases h
      simp [eq_comm]
    | GET_CONVERSATION_HISTORY =>
      constructor
      all_goals
        rintro rfl
        cases pg <;> simp [bind_ok_iff, map_ok_iff, throw_ok_iff] at h
    | _ =>
      constructor
      all_goals
        rintro rfl
        simp [bind_ok_iff, map_ok_iff, pure_ok_iff] at h

namespace Concurrent

/-- What is known of a handler at work: it is about to perform a sign-in that a frame of its connection
asked for, and the connection is still open; or it keeps the accounts. -/
inductive Tracked (pg : Bool) (past : List (Taken Concurrent Concurrent.Event)) (w : World) (h : Handler) :
    Prop where
  | registering (me rid : Int) (r : Request) (prog : h.prog = perform pg h.fd me rid (.register r.payload))
    (asked : Asked h.fd .REGISTER r past) (opened : w.conns.count h.fd = true)
  | logging_in (me rid : Int) (r : Request) (prog : h.prog = perform pg h.fd me rid (.login r.payload))
    (asked : Asked h.fd .LOGIN r past) (opened : w.conns.count h.fd = true)
  | keeping (prog : h.prog.Always (Op.keepsAccounts h.fd) fun _ => True)

section Steps

variable {pg : Bool} {env : Env} {past : List (Taken Concurrent Concurrent.Event)} {w w' : World}
  {s s' : Concurrent} {e : Concurrent.Event} {i : Nat} {h h' : Handler}

/-- What is known of a handler stays known while its connection is not closed. -/
theorem Tracked.snoc {t : Taken Concurrent Concurrent.Event} (hh : Tracked pg past w h)
    (ht : w.conns.count h.fd = true → t.event.opens h.fd = false ∧ w'.conns.count h.fd = true) :
    Tracked pg (past ++ [t]) w' h := by
  cases hh with
  | registering me rid r hprog hasked hopened =>
    exact .registering me rid r hprog (hasked.snoc (ht hopened).1) (ht hopened).2
  | logging_in me rid r hprog hasked hopened =>
    exact .logging_in me rid r hprog (hasked.snoc (ht hopened).1) (ht hopened).2
  | keeping hprog => exact .keeping hprog

/-! ## Turns -/

theorem Tracked.stage (hh : Tracked pg past w h) : Stage pg h := by
  cases hh with
  | registering me rid r hprog => exact .registering me rid r.payload hprog
  | logging_in me rid r hprog => exact .logging_in me rid r.payload hprog
  | keeping hprog => exact .keeping hprog

/-- A turn starts a session: that of the user who is entered, or of the one whose password was given. -/
def Starts (pg : Bool) (env : Env) (past : List (Taken Concurrent Concurrent.Event)) (w w' : World)
    (h : Handler) : Prop :=
  (∃ me rid r u, h.prog = perform pg h.fd me rid (.register r.payload) ∧ Asked h.fd .REGISTER r past ∧
    Entered pg env h.fd r.payload u w w') ∨
  ∃ r u, Asked h.fd .LOGIN r past ∧ w.mem.g_users_by_name.find? (field r.payload "username") = some u ∧
    u.password_hash = field r.payload "password" ∧ w'.session h.fd = u.id

/-- **A turn** leaves the sessions of the other connections alone, and its own unless it ends it or
starts one. -/
theorem Tracked.turn (hh : Tracked pg past w h) (env : Env) :
    (h.prog.advance env w).1.Always (Op.keepsAccounts h.fd) (fun _ => True) ∧
      (∀ fd ≠ h.fd, (h.prog.advance env w).2.conns.find? fd = w.conns.find? fd) ∧
      ((h.prog.advance env w).2.session h.fd = w.session h.fd ∨ (h.prog.advance env w).2.session h.fd = 0 ∨
        Starts pg env past w (h.prog.advance env w).2 h) := by
  have hset : ∀ {w' : World} {id : Int}, w'.conns = w.conns.set h.fd id →
      (∀ fd ≠ h.fd, w'.conns.find? fd = w.conns.find? fd) ∧ w'.session h.fd = id := by
    intro w' id hconns
    refine ⟨fun fd hfd => ?_, ?_⟩
    · rw [hconns, UMap.find?_set, if_neg hfd]
    · rw [World.session, hconns, UMap.get_set, if_pos rfl]
  cases hh with
  | registering me rid r hprog hasked =>
    have hturn := @register_turn pg env w h.fd me rid r.payload
    rw [← hprog] at hturn
    obtain ⟨hend, hdenied | ⟨u, hentered⟩⟩ := hturn
    · refine ⟨by rw [hend]; trivial, fun fd _ => by rw [hdenied.conns], .inl ?_⟩
      rw [World.session, World.session, hdenied.conns]
    · refine ⟨by rw [hend]; trivial, (hset hentered.session).1, .inr (.inr (.inl ?_))⟩
      exact ⟨me, rid, r, u, hprog, hasked, hentered⟩
  | logging_in me rid r hprog hasked =>
    have hturn := @login_turn pg env w h.fd me rid r.payload
    rw [← hprog] at hturn
    obtain ⟨hrest, -, hconns | ⟨u, hu, hpassword, hconns⟩⟩ := hturn
    · refine ⟨hrest, fun fd _ => by rw [hconns], .inl ?_⟩
      rw [World.session, World.session, hconns]
    · refine ⟨hrest, (hset hconns).1, .inr (.inr (.inr ?_))⟩
      exact ⟨r, u, hasked, hu, hpassword, (hset hconns).2⟩
  | keeping hprog =>
    obtain ⟨hrest, hkept⟩ := @keeping_turn env w h.fd h.prog hprog
    refine ⟨hrest, hkept.others, ?_⟩
    rcases hkept.own with hown | hown
    · exact .inl (by rw [World.session, World.session, UMap.get, UMap.get, hown])
    · exact .inr (.inl (by rw [World.session, UMap.get, hown]; rfl))

/-- A handler that has just started: its frame is on record. -/
theorem tracked_request {fd : Int} {r : Request} (hopened : w.conns.count fd = true)
    (hrequest : request_handler pg w fd r = some h) (hpast : ∃ t ∈ since fd past, t.event = .request fd r) :
    Tracked pg past w h := by
  rcases request_handler_eq pg hrequest with ⟨hvalid, c, hdecode, rfl⟩ | ⟨-, rfl⟩
  · by_cases hregister : ∃ payload, c = .register payload
    · obtain ⟨payload, rfl⟩ := hregister
      obtain ⟨htype, rfl⟩ := (decode_sign_in hdecode).1 rfl
      exact .registering (w.session fd) (w.session fd) r rfl ⟨hvalid, htype, hpast⟩ hopened
    by_cases hlogin : ∃ payload, c = .login payload
    · obtain ⟨payload, rfl⟩ := hlogin
      obtain ⟨htype, rfl⟩ := (decode_sign_in hdecode).2 rfl
      exact .logging_in (w.session fd) (w.session fd) r rfl ⟨hvalid, htype, hpast⟩ hopened
    exact .keeping (perform_keeps _ _ (fun payload hc => hregister ⟨payload, hc⟩)
      fun payload hc => hlogin ⟨payload, hc⟩)
  · refine .keeping ?_
    rw [always_lift]
    exact keepsAccounts_of_footprint _ (by simp)

/-- **The handlers stay tracked.** -/
theorem tracked_step (htracked : ∀ h ∈ s.handlers, Tracked pg past s.world h) (hsingle : s.Single)
    (hs : step pg env s e = some s') :
    ∀ h ∈ s'.handlers, Tracked pg (past ++ [⟨s, e, s'⟩]) s'.world h := by
  -- the connections and the handlers that an event other than `accept` leaves alone
  have hold : ∀ h ∈ s.handlers, (∀ fd, e ≠ .accept fd) →
      s'.world.conns.find? h.fd = s.world.conns.find? h.fd →
        Tracked pg (past ++ [⟨s, e, s'⟩]) s'.world h := by
    intro h hh he hconns
    refine (htracked h hh).snoc fun hopened => ⟨?_, ?_⟩
    · cases e with
      | accept fd => exact absurd rfl (he fd)
      | _ => rfl
    · rw [UMap.count, hconns]
      exact hopened
  cases move_of_step pg env hs with
  | accepted fd hvalid hunused =>
    intro h hh
    refine (htracked h hh).snoc fun hopened => ?_
    have hfd : fd ≠ h.fd := by
      rintro rfl
      rw [UMap.count, hunused] at hopened
      cases hopened
    refine ⟨decide_eq_false hfd, ?_⟩
    rw [UMap.count, UMap.find?_set, if_neg hfd.symm]
    exact hopened
  | started fd r h hopened hidle hrequest =>
    intro h' hh'
    rcases List.mem_append.mp hh' with hh' | hh'
    · exact hold h' hh' (by simp) rfl
    · rw [List.mem_singleton.mp hh']
      exact tracked_request hopened hrequest ⟨_, mem_since rfl, rfl⟩
  | hungup fd hopened hidle =>
    intro h' hh'
    rcases List.mem_append.mp hh' with hh' | hh'
    · exact hold h' hh' (by simp) rfl
    · rw [List.mem_singleton.mp hh']
      exact .keeping (cleanup_keeps _)
  | finished i h out hget =>
    intro h' hh'
    rcases hsingle.others hget hh' with hh' | ⟨hh', -⟩
    · cases out with
      | next => cases hh'
      | cleanup =>
        rw [List.mem_singleton.mp hh']
        exact .keeping (cleanup_keeps _)
    · exact hold h' hh' (by simp) rfl
  | turned i h hget =>
    obtain ⟨hrest, hconns, -⟩ := (htracked h (List.mem_of_getElem? hget)).turn env
    intro h' hh'
    rcases hsingle.others hget hh' with hh' | ⟨hh', hother⟩
    · rw [List.mem_singleton.mp hh']
      exact .keeping hrest
    · exact hold h' hh' (by simp) (hconns h'.fd hother)

/-! ## The invariant -/

variable {w₀ : World}

/-- What a run keeps: every handler is tracked, every session authenticated, and whoever is in the table is an
account, under its own name. -/
structure SignedIn (pg : Bool) (w₀ : World) (past : List (Taken Concurrent Concurrent.Event)) (s : Concurrent) :
    Prop where
  tracked : ∀ h ∈ s.handlers, Tracked pg past s.world h
  single : s.Single
  sessions : ∀ fd, s.world.session fd ≠ 0 →
    ∃ u : User, u.id = s.world.session fd ∧ Authenticated pg w₀ past fd u
  named : Named s.world.mem.g_users_by_name
  accounts : ∀ u, s.world.mem.g_users_by_name.find? u.username = some u → Account pg w₀ past u

theorem accounts_step (h : SignedIn pg w₀ past s) (hs : step pg env s e = some s') :
    Named s'.world.mem.g_users_by_name ∧
      ∀ u, s'.world.mem.g_users_by_name.find? u.username = some u → Account pg w₀ (past ++ [⟨s, e, s'⟩]) u := by
  rcases (stages_step hs fun h' hh' => (h.tracked h' hh').stage).2 with
    hsame | ⟨i, fd, me, rid, payload, u, he, hget, hentered⟩
  · rw [hsame.by_name]
    exact ⟨h.named, fun u hu => (h.accounts u hu).snoc⟩
  · rw [hentered.by_name]
    constructor
    · exact h.named.set u
    · intro v hv
      rw [UMap.find?_set] at hv
      split at hv
      · next hn =>
        cases Option.some.inj hv
        refine .inr ⟨fd, payload, _, List.mem_append_right _ List.mem_cons_self, i, me, rid, he, hget,
          hentered.free, ?_⟩
        rw [hentered.by_name, UMap.find?_set, if_pos rfl]
      · exact (h.accounts v hv).snoc

/-- A session that a turn starts is authenticated. -/
theorem authenticated_of_starts (h : SignedIn pg w₀ past s) {h₁ : Handler} (hget : s.handlers[i]? = some h₁)
    (hstarts : Starts pg env past s.world s'.world h₁) : ∃ u : User, u.id = s'.world.session h₁.fd ∧
      Authenticated pg w₀ (past ++ [⟨s, .advance i, s'⟩]) h₁.fd u := by
  rcases hstarts with ⟨me, rid, r, u, hprog, hasked, hentered⟩ | ⟨r, u, hasked, hu, hpassword, hsession⟩
  · refine ⟨u, ?_, r, hentered.username, hentered.password, .inl ⟨hasked.snoc rfl, ?_⟩⟩
    · rw [World.session, hentered.session, UMap.get_set, if_pos rfl]
    · refine ⟨_, mem_since rfl, i, me, rid, rfl, ?_, hentered.free, ?_⟩
      · rw [hget, ← hprog]
      · rw [hentered.by_name, UMap.find?_set, if_pos rfl]
  · have hname := h.named _ u hu
    refine ⟨u, hsession.symm, r, hname, hpassword, .inr ⟨hasked.snoc rfl, ?_⟩⟩
    exact (h.accounts u (by rw [hname]; exact hu)).snoc

theorem sessions_step (h : SignedIn pg w₀ past s) (hs : step pg env s e = some s') (fd : Int)
    (hsession : s'.world.session fd ≠ 0) :
    ∃ u : User, u.id = s'.world.session fd ∧ Authenticated pg w₀ (past ++ [⟨s, e, s'⟩]) fd u := by
  -- a session that was there before
  have hold : e.opens fd = false → s'.world.session fd = s.world.session fd →
      ∃ u : User, u.id = s'.world.session fd ∧ Authenticated pg w₀ (past ++ [⟨s, e, s'⟩]) fd u := by
    intro he hsame
    rw [hsame] at hsession ⊢
    obtain ⟨u, hu, hauthenticated⟩ := h.sessions fd hsession
    exact ⟨u, hu, hauthenticated.snoc he⟩
  cases move_of_step pg env hs with
  | accepted fd' =>
    rw [World.session, UMap.get_set] at hsession
    by_cases hfd : fd = fd'
    · exact absurd (if_pos hfd) hsession
    · refine hold (decide_eq_false (Ne.symm hfd)) ?_
      rw [World.session, UMap.get_set, if_neg hfd]
      rfl
  | started | hungup | finished => exact hold rfl rfl
  | turned i h₁ hget =>
    obtain ⟨-, hothers, hown⟩ := (h.tracked h₁ (List.mem_of_getElem? hget)).turn env
    by_cases hfd : fd = h₁.fd
    · rw [hfd] at hsession hold ⊢
      rcases hown with hsame | hnone | hstarts
      · exact hold rfl hsame
      · exact absurd hnone hsession
      · exact authenticated_of_starts h hget hstarts
    · exact hold rfl (congrArg (Option.getD · 0) (hothers fd hfd))

/-- **The step lemma.** -/
theorem SignedIn.step (h : SignedIn pg w₀ past s) (hs : step pg env s e = some s') :
    SignedIn pg w₀ (past ++ [⟨s, e, s'⟩]) s' where
  tracked := tracked_step h.tracked h.single hs
  single := h.single.step hs
  sessions := sessions_step h hs
  named := (accounts_step h hs).1
  accounts := (accounts_step h hs).2

/-- A step in which a registration gets a fresh id keeps the records. -/
theorem credentials_step (h : SignedIn pg w₀ past s) (hfresh : FreshIds pg env s e)
    (hs : Concurrent.step pg env s e = some s') : CredentialsKept ⟨s, e, s'⟩ := by
  rcases (stages_step hs fun h' hh' => (h.tracked h' hh').stage).2 with
    hsame | ⟨i, fd, me, rid, payload, u, he, hget, hentered⟩
  · constructor
    · intro n u hu
      rw [hsame.by_name]
      exact hu
    · intro i u hu
      rw [hsame.by_id]
      exact hu
  · have hfree := hfresh i fd me rid payload u.id he hget ⟨hentered.given.1, hentered.given.2, by
      rw [UMap.count, ← hentered.username, hentered.free]
      rfl, hentered.username ▸ hentered.id⟩
    constructor
    · intro n v hv
      have hn : n ≠ u.username := by
        rintro rfl
        rw [hentered.free] at hv
        cases hv
      rw [hentered.by_name, UMap.find?_set, if_neg hn]
      exact hv
    · intro j v hv
      have hj : j ≠ u.id := by
        rintro rfl
        rw [hfree] at hv
        cases hv
      rw [hentered.by_id, UMap.find?_set, if_neg hj]
      exact hv

end Steps

/-! ## Runs -/

section Runs

variable {pg : Bool} {env₀ env : Env} {w₀ : World} {s s' : Concurrent}
  {tr : List (Taken Concurrent Concurrent.Event)}

/-- **Sessions are authenticated, and credentials stay**, in every state of every interleaving in which a
`REGISTER` that is granted gets an id that nobody has. -/
theorem authentication_sound (booted : Booted pg env₀ w₀) (run : Run pg env (FreshIds pg env) (.quiet w₀) tr s) :
    (∀ fd, s.world.session fd ≠ 0 →
      ∃ u : User, u.id = s.world.session fd ∧ Authenticated pg w₀ tr fd u) ∧
    ∀ t ∈ tr, CredentialsKept t := by
  suffices h : SignedIn pg w₀ tr s ∧ ∀ t ∈ tr, CredentialsKept t from ⟨h.1.sessions, h.2⟩
  refine run.history (I := fun past x => SignedIn pg w₀ past x ∧ ∀ t ∈ past, CredentialsKept t)
    ⟨⟨fun h hh => absurd hh List.not_mem_nil, List.nodup_nil, fun fd hfd => ?_, booted.named, fun u => .inl⟩,
      fun t ht => absurd ht List.not_mem_nil⟩ ?_
  · -- no connection is open yet
    have hclosed : (quiet w₀).world.session fd = 0 := by
      rw [World.session, quiet, booted.conns_empty.1]
      rfl
    exact absurd hclosed hfd
  · rintro past x e y ⟨hsigned, hkept⟩ hfresh hs
    refine ⟨hsigned.step hs, fun t ht => ?_⟩
    rcases List.mem_append.mp ht with ht | ht
    · exact hkept t ht
    · rw [List.mem_singleton.mp ht]
      exact credentials_step hsigned hfresh hs

/-- What no transition of a run changes, the run does not change. -/
theorem credentials_kept {C : Concurrent → Concurrent.Event → Prop} (run : Run pg env C s tr s')
    (hkept : ∀ t ∈ tr, CredentialsKept t) {i : Int} {u : User}
    (hu : s.world.mem.g_users_by_id.find? i = some u) : s'.world.mem.g_users_by_id.find? i = some u := by
  induction run with
  | nil => exact hu
  | snoc run meets steps ih =>
    have hlast := hkept _ (List.mem_append_right _ List.mem_cons_self)
    exact hlast.2 i u (ih fun t ht => hkept t (List.mem_append_left _ ht))

end Runs

/-- Two users register, and the sessions are theirs. -/
theorem authentication_sound_two : ∃ tr s,
    Run false Env.calm (FreshIds false Env.calm) (.quiet (World.new Tables.empty)) tr s ∧
      (s.world.session 5 = 1 ∧ s.world.session 6 = 2) ∧
      (∀ fd, s.world.session fd ≠ 0 →
        ∃ u : User, u.id = s.world.session fd ∧ Authenticated false (World.new Tables.empty) tr fd u) ∧
      ∀ t ∈ tr, CredentialsKept t := by
  have hrun : (ChatApp.Run.exec (ChatApp.Run.guard (step false Env.calm) fun s _ =>
      !s.world.mem.g_users_by_id.count s.world.mem.g_next_user_id) (.quiet (World.new Tables.empty)) two_users).map
        (fun s => decide (s.world.session 5 = 1 ∧ s.world.session 6 = 2)) = some true := by decide
  obtain ⟨tr, s, run, hsessions⟩ := run_of_exec hrun
  have run : Run false Env.calm (FreshIds false Env.calm) (.quiet (World.new Tables.empty)) tr s := by
    refine run.mono fun x e hguard i fd me rid payload id _ _ hgrants => ?_
    have hid : id = x.world.mem.g_next_user_id := hgrants.2.2.2
    rw [hid]
    simpa [UMap.count] using hguard
  exact ⟨tr, s, run, of_decide_eq_true hsessions, authentication_sound (booted_new Tables.empty_valid) run⟩

/-! ## An id given out twice -/

/-- The users file of a server whose counter is about to overflow. -/
def full_file : World :=
  { World.new Tables.empty with users_file := str "2147483647\ta\tx\t\n-2147483648\tb\ty\t\n" }

theorem full_file_fresh : full_file.Fresh := by
  have hfresh := World.new_fresh Tables.empty_valid
  exact ⟨hfresh.mem, hfresh.conns, hfresh.out, hfresh.tx, hfresh.tables⟩

/-- **The record of another user is replaced**: the next id after the largest `int` is that of user `b`. -/
theorem authentication_not_sound : ¬∀ (env : Env) (w₀ : World) (s : Concurrent)
    (tr : List (Taken Concurrent Concurrent.Event)), Booted false env w₀ →
    (∀ n n' u u', w₀.mem.g_users_by_name.find? n = some u → w₀.mem.g_users_by_name.find? n' = some u' →
      u.id = u'.id → n = n') →
    Run false env (fun _ _ => True) (.quiet w₀) tr s →
    (∀ fd, s.world.session fd ≠ 0 →
      ∃ u : User, u.id = s.world.session fd ∧ Authenticated false w₀ tr fd u) ∧
    ∀ t ∈ tr, CredentialsKept t := by
  intro claim
  have hrun : ((boot false Env.calm full_file).toOption.bind fun w₀ =>
      (ChatApp.Run.exec (ChatApp.Run.guard (step false Env.calm) fun _ _ => true) (.quiet w₀)
        (.accept 5 :: served 5 .REGISTER "username=c&password=z" 2)).map fun s =>
          decide (w₀.mem.g_users_by_name.toList.map (fun e => (e.1, e.2.id)) =
              [(str "b", -2147483648), (str "a", 2147483647)] ∧
            w₀.mem.g_users_by_id.find? (-2147483648) = some ⟨-2147483648, str "b", str "y", []⟩ ∧
            s.world.mem.g_users_by_id.find? (-2147483648) = some ⟨-2147483648, str "c", str "z", []⟩)) =
      some true := by decide
  obtain ⟨w₀, hboot, hexec⟩ := Option.bind_eq_some_iff.mp hrun
  have booted : Booted false Env.calm w₀ := by
    refine ⟨full_file, full_file_fresh, ?_⟩
    cases hload : boot false Env.calm full_file with
    | error e =>
      rw [hload] at hboot
      cases hboot
    | ok w =>
      rw [hload] at hboot
      rw [Option.some.inj hboot]
  obtain ⟨tr, s, run, hafter⟩ := run_of_exec hexec
  obtain ⟨hloaded, hbefore, hreplaced⟩ := of_decide_eq_true hafter
  have run := run.mono (D := fun _ _ => True) fun _ _ _ => trivial
  have hid : ∀ n u, w₀.mem.g_users_by_name.find? n = some u →
      (n = str "b" ∧ u.id = -2147483648) ∨ (n = str "a" ∧ u.id = 2147483647) := by
    intro n u hu
    have hmem := List.mem_map_of_mem (f := fun e : Bytes × User => (e.1, e.2.id)) ((UMap.mem_toList ..).mpr hu)
    rw [hloaded] at hmem
    simpa using hmem
  have hkept := (claim Env.calm w₀ s tr booted ?_ run).2
  · have hsame := credentials_kept run hkept hbefore
    rw [hreplaced] at hsame
    exact absurd (congrArg User.username (Option.some.inj hsame)) (by decide)
  · intro n n' u u' hu hu' huid
    have := hid n u hu
    have := hid n' u' hu'
    grind

end Concurrent

end ChatApp
