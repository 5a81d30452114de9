/-
`Presence.lean` -- when the online map can be trusted.

`g_online_clients` is what every delivery looks its user up in. It is sound when each
entry names an open connection of the user it is filed under, and complete when
everybody who is logged in has an entry. The database's `is_online` is a second copy
of the same fact. None of the three holds in every run; each theorem here says in
which runs it does.
-/
import ChatApp.Sessions

set_option autoImplicit false

namespace ChatApp

open Prog PostgresPersistence handle_client

/-! ## Soundness -/

/-- Every entry of the map is an open connection logged in as the entry's user. -/
def OnlineSound (w : World) : Prop :=
  ∀ u fd, w.mem.g_online_clients.find? u = some fd → w.conns.find? fd = some u

/-- Whatever is delivered to a user goes to a connection of that user. -/
def DeliveriesAddressed (w : World) : Prop :=
  ∀ env m u, ∃ sent, ((deliver m u).run env w).2.out = w.out ++ sent ∧
    ∀ f ∈ sent, w.conns.find? f.fd = some u

/-- Nobody becomes user 0, and nobody logs in on a connection that the map lists under
the user it was logged in as before. -/
def CleanLogin (pg : Bool) (env : Env) (w : World) (e : Event) : Prop :=
  ∀ fd rid c uid, e.command pg w = some (fd, rid, c) → Grants pg env w c uid →
    uid ≠ 0 ∧ (w.session fd = uid ∨ w.mem.g_online_clients.find? (w.session fd) ≠ some fd)

/-- In a sound state every delivery is addressed. -/
theorem OnlineSound.addressed {w : World} (h : OnlineSound w) : DeliveriesAddressed w := by
  intro env m u
  simp only [deliver, find_fd, run_bind, run_locked, run_read, run_ite, run_lift]
  by_cases hfd : w.mem.online_fd u = -1
  · refine ⟨[], ?_, fun f hf => absurd hf List.not_mem_nil⟩
    rw [if_neg (not_not.mpr hfd), List.append_nil]
    exact run_frame env (enqueue_offline u m) w (x := .out) (by simp)
  · rw [if_pos hfd]
    refine ⟨[⟨w.mem.online_fd u, m.type, m.payload, m.fromUserId, !env.send_fails w.ticks⟩], rfl,
      fun f hf => ?_⟩
    rw [List.mem_singleton.mp hf]
    refine h u _ ?_
    cases hu : w.mem.g_online_clients.find? u with
    | none => exact absurd (by rw [ServerState.online_fd, hu]; rfl) hfd
    | some fd => rw [ServerState.online_fd, hu]; rfl

section Sound

variable {pg : Bool} {env : Env} {w w' : World} {e : Event}

/-- The map is sound and has no entry for user 0. -/
structure SoundMap (w : World) : Prop where
  sound : OnlineSound w
  zero : w.mem.g_online_clients.find? 0 = none

theorem soundMap_step (hI : SoundMap w) (htx : w.db.tx = none) (hC : CleanLogin pg env w e)
    (hs : Server.step pg env w e = some w') : SoundMap w' := by
  cases Server.sessionChange htx hs with
  | opened fd unused conns online db =>
    refine ⟨fun u fd' hu => ?_, by rw [online]; exact hI.zero⟩
    rw [online] at hu
    have hfd' := hI.sound u fd' hu
    rw [conns, UMap.find?_set, if_neg, hfd']
    rintro rfl
    rw [unused] at hfd'
    cases hfd'
  | granted fd rid uid me c opened command grants change =>
    obtain ⟨huid, hold⟩ := hC fd rid c uid command grants
    rw [World.session, UMap.get_of_find? opened] at hold
    refine ⟨fun u fd' hu => ?_, ?_⟩
    · rw [change.online, UMap.find?_set] at hu
      rw [change.conns, UMap.find?_set]
      split at hu
      · next h =>
        cases hu
        rw [if_pos rfl, h]
      · next h =>
        have hfd' := hI.sound u fd' hu
        -- the entry of another user names another connection
        rw [if_neg, hfd']
        rintro rfl
        cases opened.symm.trans hfd'
        exact hold.elim h fun hne => hne hu
    · rw [change.online, UMap.find?_set, if_neg (Ne.symm huid)]
      exact hI.zero
  | ended fd me opened ends change =>
    refine ⟨fun u fd' hu => ?_, ?_⟩
    · rw [change.online] at hu
      split at hu
      · cases hu
      · next h =>
        have hfd' := hI.sound u fd' hu
        rw [change.conns, UMap.find?_erase, if_neg, hfd']
        rintro rfl
        cases opened.symm.trans hfd'
        -- the connection's own entry is gone, and user 0 has none
        have hme : me = 0 := by
          by_contra hme
          exact h ⟨hme, rfl⟩
        rw [hme, hI.zero] at hu
        cases hu
    · rw [change.online]
      split
      · rfl
      · exact hI.zero
  | same change =>
    refine ⟨fun u fd' hu => ?_, by rw [change.online]; exact hI.zero⟩
    rw [change.online] at hu
    rw [change.conns]
    exact hI.sound u fd' hu

/-- **The online map is sound** in every run in which nobody logs in on a connection that
the map still lists under another user. -/
theorem online_sound {w₀ : World} {tr : List (Taken World Event)} (booted : Booted pg env w₀)
    (run : Server.Run pg env (CleanLogin pg env) w₀ tr w) :
    OnlineSound w ∧ DeliveriesAddressed w := by
  have hI : SoundMap w ∧ w.db.tx = none := by
    refine booted.invariant run ?_ fun x e y hx htx hC hs => soundMap_step hx htx hC hs
    constructor
    · intro u fd hu
      rw [booted.online_empty, UMap.find?_empty] at hu
      cases hu
    · rw [booted.online_empty, UMap.find?_empty]
  exact ⟨hI.1.sound, hI.1.sound.addressed⟩

end Sound

/-- A connection that has just been accepted. -/
def accepted : World := { World.new Tables.empty with conns := (∅ : UMap Int Int).set 5 0 }

/-- A `REGISTER` on that connection. -/
def registration (username : String) : Event :=
  .send 5 .REGISTER ("username=" ++ username ++ "&password=x")

/-- The connection is logged in as user 1. -/
def registered : World := (Server.step false Env.calm accepted (registration "a")).getD accepted

theorem online_sound_registered : OnlineSound registered ∧ DeliveriesAddressed registered := by
  have hclean : CleanLogin false Env.calm accepted (registration "a") := by
    intro fd rid c uid hcommand hgrants
    have hc : (registration "a").command false accepted
        = some (5, 0, .register (str "username=a&password=x")) := by decide
    cases hcommand.symm.trans hc
    obtain ⟨-, -, -, hnew⟩ := hgrants
    have huid : uid = 1 := hnew
    refine ⟨by omega, .inr (by decide)⟩
  have hopen : CleanLogin false Env.calm (World.new Tables.empty) (.accept 5) :=
    fun _ _ _ _ h => nomatch h
  exact online_sound (booted_new Tables.empty_valid) (.snoc (.snoc (.nil _) hopen rfl) hclean rfl)

/-- **It is not sound in every run**: a connection that registers a second user keeps the
first one's entry. -/
theorem online_not_sound : ¬∀ pg env w, Reachable pg env w → OnlineSound w := by
  intro claim
  have hrun : (Run.exec (Server.step false Env.calm) (World.new Tables.empty)
      [.accept 5, registration "a", registration "b"]).map
        (fun w => (w.mem.g_online_clients.find? 1, w.conns.find? 5)) = some (some 5, some 2) := by
    decide
  obtain ⟨w, hreach, hw⟩ := reachable_of_exec (World.new_fresh Tables.empty_valid) rfl hrun
  obtain ⟨honline, hconns⟩ := Prod.mk.inj hw
  have hsound := claim false Env.calm w hreach 1 5 honline
  rw [hconns] at hsound
  exact absurd hsound (by decide)

/-! ## Completeness -/

/-- Whoever is logged in on an open connection has an entry in the map. -/
def PresenceComplete (w : World) : Prop :=
  ∀ fd u, w.conns.find? fd = some u → u ≠ 0 → ∃ fd', w.mem.g_online_clients.find? u = some fd'

/-- `users.is_online` is set exactly for the users who are logged in on an open
connection. -/
def FlagsExact (w : World) : Prop :=
  ∀ r ∈ w.db.tables.users.rows, r.is_online = true ↔ ∃ fd, w.conns.find? fd = some r.id

/-- Another connection than `fd` is logged in as `u`. -/
def Elsewhere (w : World) (fd u : Int) : Prop := ∃ fd', fd' ≠ fd ∧ w.conns.find? fd' = some u

/-- A session ends only when it is its user's last; with a database no user's session
ends, and a connection changes its user only when the old one is logged in elsewhere. -/
def KeepsPresence (pg : Bool) (env : Env) (w : World) (e : Event) : Prop :=
  (∀ fd, e.ends pg w = some fd →
    w.session fd = 0 ∨ (pg = false ∧ ¬Elsewhere w fd (w.session fd))) ∧
  (pg = true → ∀ fd rid c uid, e.command pg w = some (fd, rid, c) → Grants pg env w c uid →
    w.session fd = 0 ∨ w.session fd = uid ∨ Elsewhere w fd (w.session fd))

section Complete

variable {pg : Bool} {env : Env} {w w' : World} {e : Event}

theorem presenceComplete_step (hI : PresenceComplete w) (htx : w.db.tx = none)
    (hC : KeepsPresence pg env w e) (hs : Server.step pg env w e = some w') :
    PresenceComplete w' := by
  intro fd u hfd hu
  cases Server.sessionChange htx hs with
  | opened fd₀ unused conns online db =>
    rw [conns, UMap.find?_set] at hfd
    rw [online]
    split at hfd
    · cases hfd
      exact absurd rfl hu
    · exact hI fd u hfd hu
  | granted fd₀ rid uid me c opened command grants change =>
    rw [change.conns, UMap.find?_set] at hfd
    rw [change.online, UMap.find?_set]
    by_cases hnew : u = uid
    · exact ⟨fd₀, if_pos hnew⟩
    · rw [if_neg hnew]
      split at hfd
      · cases hfd
        exact absurd rfl hnew
      · exact hI fd u hfd hu
  | ended fd₀ me opened ends change =>
    rw [change.conns, UMap.find?_erase] at hfd
    rw [change.online]
    split at hfd
    · cases hfd
    · next hne =>
      rw [if_neg]
      · exact hI fd u hfd hu
      · -- `u` is still logged in on `fd`, so `fd₀` was not its last session
        rintro ⟨hme, rfl⟩
        have hsession : w.session fd₀ = u := UMap.get_of_find? opened
        rcases hC.1 fd₀ ends with h0 | ⟨-, hlast⟩
        · exact hme (hsession ▸ h0)
        · exact hlast ⟨fd, hne, hsession ▸ hfd⟩
  | same change =>
    rw [change.conns] at hfd
    rw [change.online]
    exact hI fd u hfd hu

/-- The flags are exact, and ids and the sequence that numbers them are positive. -/
structure FlagsSound (w : World) : Prop where
  exact_ : FlagsExact w
  positive : 0 < w.db.tables.users.next ∧ ∀ r ∈ w.db.tables.users.rows, 0 < r.id

/-- A login keeps the flags exact, if the connection had no session, one of this user, or not the last one. -/
theorem flagsSound_granted {fd₀ uid me : Int} (hI : FlagsSound w) (hsql : env.SqlSucceeds)
    (opened : w.conns.find? fd₀ = some me) (change : SessionsGranted true env fd₀ uid w w')
    (hmove : w.session fd₀ = 0 ∨ w.session fd₀ = uid ∨ Elsewhere w fd₀ (w.session fd₀)) : FlagsSound w' := by
  obtain ⟨hnext, new, hnew, hrows⟩ := change.users rfl hsql
  have hid : ∀ r ∈ w.db.tables.users.rows ++ new, 0 < r.id := by
    intro r hr
    rcases List.mem_append.mp hr with hold | hr
    · exact hI.positive.2 r hold
    · obtain ⟨hru, hun⟩ := hnew r hr
      rw [hru, hun]
      exact hI.positive.1
  refine ⟨fun r hr => ?_, hI.positive.1.trans_le hnext, fun r hr => ?_⟩
  · rw [hrows] at hr
    obtain ⟨r₀, hr₀, rfl⟩ := List.mem_map.mp hr
    rw [UserRow.markOnline_id, change.conns]
    by_cases huid : r₀.id = uid
    · -- the user who has just logged in
      refine iff_of_true ?_ ⟨fd₀, by rw [UMap.find?_set, if_pos rfl, huid]⟩
      rw [UserRow.markOnline, if_pos huid]
    · have hold : r₀ ∈ w.db.tables.users.rows := by
        rcases List.mem_append.mp hr₀ with hold | hr
        · exact hold
        · exact absurd (hnew r₀ hr).1 huid
      have hsession : w.session fd₀ = me := UMap.get_of_find? opened
      rw [hsession] at hmove
      rw [UserRow.markOnline, if_neg huid, hI.exact_ r₀ hold]
      constructor
      · rintro ⟨fd, hfd⟩
        by_cases hfd₀ : fd = fd₀
        · -- the connection changes its user, who is logged in elsewhere
          rw [hfd₀, opened] at hfd
          have hme : me = r₀.id := Option.some.inj hfd
          rw [hme] at hmove
          rcases hmove with h0 | h | ⟨fd', hne, hfd'⟩
          · have hpos := hI.positive.2 r₀ hold
            omega
          · exact absurd h huid
          · exact ⟨fd', by rw [UMap.find?_set, if_neg hne, hfd']⟩
        · exact ⟨fd, by rw [UMap.find?_set, if_neg hfd₀, hfd]⟩
      · rintro ⟨fd, hfd⟩
        rw [UMap.find?_set] at hfd
        split at hfd
        · exact absurd (Option.some.inj hfd).symm huid
        · exact ⟨fd, hfd⟩
  · rw [hrows] at hr
    obtain ⟨r₀, hr₀, rfl⟩ := List.mem_map.mp hr
    rw [UserRow.markOnline_id]
    exact hid r₀ hr₀

theorem flagsSound_step (hI : FlagsSound w) (htx : w.db.tx = none) (hsql : env.SqlSucceeds)
    (hC : KeepsPresence true env w e) (hs : Server.step true env w e = some w') :
    FlagsSound w' := by
  cases Server.sessionChange htx hs with
  | opened fd₀ unused conns online db =>
    refine ⟨fun r hr => ?_, by rw [db]; exact hI.positive⟩
    rw [db] at hr
    rw [hI.exact_ r hr, conns]
    refine exists_congr fun fd => ?_
    rw [UMap.find?_set]
    split
    · next h =>
      have hpos := hI.positive.2 r hr
      rw [h, unused]
      constructor
      · exact fun h => absurd h (by simp)
      · intro h0
        have h0 := Option.some.inj h0
        omega
    · rfl
  | granted fd₀ rid uid me c opened command grants change =>
    exact flagsSound_granted hI hsql opened change (hC.2 rfl fd₀ rid c uid command grants)
  | ended fd₀ me opened ends change =>
    have hsession : w.session fd₀ = me := UMap.get_of_find? opened
    have hme : me = 0 := by
      rcases hC.1 fd₀ ends with h0 | ⟨hfile, -⟩
      · exact hsession ▸ h0
      · cases hfile
    refine ⟨fun r hr => ?_, by rw [change.next, change.rows]; exact hI.positive⟩
    rw [change.rows] at hr
    rw [hI.exact_ r hr, change.conns]
    refine exists_congr fun fd => ?_
    rw [UMap.find?_erase]
    split
    · next h =>
      have hpos := hI.positive.2 r hr
      rw [h, opened, hme]
      constructor
      · intro h0
        have h0 := Option.some.inj h0
        omega
      · exact fun h => absurd h (by simp)
    · rfl
  | same change =>
    refine ⟨fun r hr => ?_, hI.positive.1.trans_le change.next,
      by rw [change.rows]; exact hI.positive.2⟩
    rw [change.rows] at hr
    rw [hI.exact_ r hr, change.conns]

/-- `main` does not touch the `users` table, which obeys the schema. -/
theorem Booted.users_positive {w₀ : World} (h : Booted pg env w₀) :
    0 < w₀.db.tables.users.next ∧ ∀ r ∈ w₀.db.tables.users.rows, 0 < r.id := by
  obtain ⟨w₁, fresh, hsame⟩ := h.frame (x := .table .users) (by decide) fun _ _ _ _ => rfl
  have husers : w₀.db.tables.users = w₁.db.tables.users := hsame
  rw [husers]
  exact ⟨fresh.tables.users_serial.1, fun r hr => (fresh.tables.users_serial.2 r hr).1⟩

/-- **Presence is complete** in every run in which sessions only end when they are their
user's last; and with a database whose statements succeed, and whose users start
offline, the flags are exact in every run in which no user's session ends. -/
theorem presence_complete {w₀ : World} {tr : List (Taken World Event)} (booted : Booted pg env w₀)
    (run : Server.Run pg env (KeepsPresence pg env) w₀ tr w) :
    PresenceComplete w ∧
      (pg = true → env.SqlSucceeds → (∀ r ∈ w₀.db.tables.users.rows, r.is_online = false) →
        FlagsExact w) := by
  constructor
  · have hI : PresenceComplete w ∧ w.db.tx = none := by
      refine booted.invariant run (fun fd u hfd => ?_)
        fun x e y hx htx hC hs => presenceComplete_step hx htx hC hs
      rw [booted.conns_empty.1, UMap.find?_empty] at hfd
      cases hfd
    exact hI.1
  · rintro rfl hsql hoffline
    have hI : FlagsSound w ∧ w.db.tx = none := by
      refine booted.invariant run ⟨fun r hr => ?_, booted.users_positive⟩
        fun x e y hx htx hC hs => flagsSound_step hx htx hsql hC hs
      rw [hoffline r hr]
      refine iff_of_false (by simp) ?_
      rintro ⟨fd, hfd⟩
      rw [booted.conns_empty.1, UMap.find?_empty] at hfd
      cases hfd
    exact hI.1.exact_

end Complete

/-- A process on an empty database has accepted a connection, -/
def loaded_accepted : World := { loaded with conns := loaded.conns.set 5 0 }

/-- and the connection registers. -/
def loaded_registered : World :=
  (Server.step true Env.calm loaded_accepted (registration "a")).getD loaded_accepted

theorem presence_complete_registered :
    PresenceComplete loaded_registered ∧ FlagsExact loaded_registered := by
  have hopen : KeepsPresence true Env.calm loaded (.accept 5) :=
    ⟨fun _ h => (nomatch h), fun _ _ _ _ _ h => (nomatch h)⟩
  have hregister : KeepsPresence true Env.calm loaded_accepted (registration "a") := by
    constructor
    · intro fd hends
      have hnone : (registration "a").ends true loaded_accepted = none := by decide
      rw [hnone] at hends
      cases hends
    · intro _ fd rid c uid hcommand _
      have hc : (registration "a").command true loaded_accepted
          = some (5, 0, .register (str "username=a&password=x")) := by decide
      cases hcommand.symm.trans hc
      exact .inl (by decide)
  obtain ⟨hcomplete, hflags⟩ := presence_complete booted_loaded
    (.snoc (.snoc (.nil _) hopen rfl) hregister (u := loaded_registered) rfl)
  exact ⟨hcomplete, hflags rfl Env.calm_sqlSucceeds fun r hr => nomatch hr⟩

/-- A `LOGIN` of the user that `registration username` creates. -/
def logging_in (fd : Int) (username : String) : Event :=
  .send fd .LOGIN ("username=" ++ username ++ "&password=x")

/-- **Presence is not complete in every run, nor are the flags exact**: of two
connections of one user, one is closed; and the only connection of a user is closed. -/
theorem presence_not_complete :
    (¬∀ pg env w, Reachable pg env w → PresenceComplete w) ∧
      ¬∀ env w, env.SqlSucceeds → Reachable true env w → FlagsExact w := by
  constructor
  · intro claim
    have hrun : (Run.exec (Server.step false Env.calm) (World.new Tables.empty)
        [.accept 5, registration "a", .accept 6, logging_in 6 "a", .hangup 5]).map
          (fun w => (w.conns.find? 6, w.mem.g_online_clients.find? 1)) = some (some 1, none) := by
      decide
    obtain ⟨w, hreach, hw⟩ := reachable_of_exec (World.new_fresh Tables.empty_valid) rfl hrun
    obtain ⟨hconns, honline⟩ := Prod.mk.inj hw
    obtain ⟨fd, hfd⟩ := claim false Env.calm w hreach 6 1 hconns (by decide)
    rw [honline] at hfd
    cases hfd
  · intro claim
    have hrun : (Run.exec (Server.step true Env.calm) loaded
        [.accept 5, registration "a", .hangup 5]).map
          (fun w => (w.db.tables.users.rows.map UserRow.is_online, w.conns.toList))
        = some ([true], []) := by
      decide
    obtain ⟨w, hreach, hw⟩ := reachable_of_exec (World.new_fresh Tables.empty_valid) rfl hrun
    obtain ⟨hrows, hconns⟩ := Prod.mk.inj hw
    obtain ⟨r, hr, honline⟩ : ∃ r ∈ w.db.tables.users.rows, r.is_online = true := by
      rw [← List.mem_map, hrows]
      exact List.mem_singleton.mpr rfl
    obtain ⟨fd, hfd⟩ := (claim Env.calm w Env.calm_sqlSucceeds hreach r hr).mp honline
    rw [← UMap.mem_toList, hconns] at hfd
    cases hfd

end ChatApp
