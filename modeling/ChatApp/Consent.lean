/-
`Consent.lean` -- a friendship has a request behind it.

`FRIEND_ACCEPT` makes two users friends without looking for a request; that there was
one is the client's word. Here the history of a run is compared with its state: who is
whose friend, and which requests are pending, in memory and in the database. With clients that
only accept what is pending, every friendship was asked for by one side and accepted by
the other.
-/
import ChatApp.Friendships

set_option autoImplicit false

namespace ChatApp

open Prog PostgresPersistence handle_client

/-! ## The history of a friendship -/

section History

variable (pg : Bool) (env : Env) (w₀ : World)

/-- In this transition the user `x` sent the command `c`. -/
def Did (t : Taken World Event) (x : Int) (c : Command) : Prop :=
  ∃ fd rid, t.event.command pg t.before = some (fd, rid, c) ∧ t.before.session fd = x

/-- `a` asked `b`, and the server took the request. -/
def Asks (t : Taken World Event) (a b : Int) : Prop :=
  (∃ target, Did pg t a (.friend_request target) ∧
    ((find_target target).run env t.before).1 = .ok b) ∧ t.after.mem.hasRequest a b

/-- A request of `a` to `b` was taken back: `b` declined it, or either ended it by
`UNFRIEND`. -/
def Cancels (t : Taken World Event) (a b : Int) : Prop :=
  Did pg t b (.friend_decline a) ∨ Did pg t b (.unfriend a) ∨ Did pg t a (.unfriend b)

/-- A request of `a` to `b`, made in the past or found in the database at the start, has
not been taken back since. -/
def StillAsked (past : List (Taken World Event)) (a b : Int) : Prop :=
  (pg = true ∧ w₀.db.tables.isPending a b = true ∧ ∀ t ∈ past, ¬Cancels pg t a b) ∨
    ∃ before t after, past = before ++ t :: after ∧ Asks pg env t a b ∧
      ∀ t' ∈ after, ¬Cancels pg t' a b

/-- One of the two accepted a request of the other that had not been taken back. -/
def Consented (past : List (Taken World Event)) (a b : Int) : Prop :=
  ∃ before t after x y, past = before ++ t :: after ∧
    ((x = a ∧ y = b) ∨ (x = b ∧ y = a)) ∧ Did pg t x (.friend_accept y) ∧
    StillAsked pg env w₀ before y x

end History

/-- Whether `me` can accept `other` without making friends of users who have not both agreed:
the request is there, they are friends already, or the database refuses. -/
def mayAccept (pg : Bool) (env : Env) (w : World) (me other : Int) : Bool :=
  decide (other ∈ w.mem.g_friend_requests.get me) || w.mem.isFriend me other ||
    pg && (w.db.tables.isPending other me || !((accept_friend_request other me).run env w).1)

/-- The condition on a step: only what is pending is accepted, and, with a database, a
request that is taken back is deleted there as well. -/
def keepsConsent (pg : Bool) (env : Env) (w : World) (e : Event) : Bool :=
  match e.command pg w with
  | some (fd, _, .friend_accept other) => mayAccept pg env w (w.session fd) other
  | some (fd, _, .friend_decline other) =>
    !pg || !w.db.tables.isPending other (w.session fd) || !env.sql_fails w.ticks
  | some (fd, _, .unfriend other) =>
    !pg || !(w.db.tables.isPending other (w.session fd) ||
      w.db.tables.isPending (w.session fd) other)
  | _ => true

/-! ## What the history says of the state -/

/-- Friendships have been consented to, and requests are still asked; and nobody is
friends with themself. -/
structure ConsentInv (pg : Bool) (env : Env) (w₀ : World) (past : List (Taken World Event))
    (w : World) : Prop where
  tx : w.db.tx = none
  friends : ∀ a b, w.mem.isFriend a b = true → Consented pg env w₀ past a b
  requests : ∀ a b, w.mem.hasRequest a b → StillAsked pg env w₀ past a b
  rows : pg = true → ∀ a b, w.db.tables.isPending a b = true → StillAsked pg env w₀ past a b
  selfRequest : pg = false → ∀ a, ¬w.mem.hasRequest a a
  selfFriend : ∀ a, w.mem.isFriend a a = false

section Steps

variable {pg : Bool} {env : Env} {w₀ w w' : World} {e : Event} {past : List (Taken World Event)}

theorem Consented.symm {a b : Int} (h : Consented pg env w₀ past a b) :
    Consented pg env w₀ past b a := by
  obtain ⟨before, t, after, x, y, hpast, hxy, h⟩ := h
  exact ⟨before, t, after, x, y, hpast, hxy.symm, h⟩

/-- What happened stays in the past. -/
theorem Consented.snoc {a b : Int} (h : Consented pg env w₀ past a b) (t : Taken World Event) :
    Consented pg env w₀ (past ++ [t]) a b := by
  obtain ⟨before, t', after, x, y, rfl, h⟩ := h
  exact ⟨before, t', after ++ [t], x, y, by simp, h⟩

/-- A request stays asked until it is taken back. -/
theorem StillAsked.snoc {a b : Int} {t : Taken World Event} (h : StillAsked pg env w₀ past a b)
    (ht : ¬Cancels pg t a b) : StillAsked pg env w₀ (past ++ [t]) a b := by
  rcases h with ⟨hpg, hrow, hpast⟩ | ⟨before, t', after, rfl, hasks, hafter⟩
  · refine .inl ⟨hpg, hrow, fun t' ht' => ?_⟩
    rcases List.mem_append.mp ht' with ht' | ht'
    · exact hpast t' ht'
    · rw [List.mem_singleton.mp ht']
      exact ht
  · refine .inr ⟨before, t', after ++ [t], by simp, hasks, fun t'' ht'' => ?_⟩
    rcases List.mem_append.mp ht'' with ht'' | ht''
    · exact hafter t'' ht''
    · rw [List.mem_singleton.mp ht'']
      exact ht

/-- A step that carries no cancelling command cancels nothing. -/
theorem not_cancels_of_keeps (h : e.Keeps pg w) (a b : Int) : ¬Cancels pg ⟨w, e, w'⟩ a b := by
  rintro (⟨fd, rid, hc, -⟩ | ⟨fd, rid, hc, -⟩ | ⟨fd, rid, hc, -⟩)
  · exact absurd (h fd rid _ hc) (by simp [Command.cancels])
  · exact absurd (h fd rid _ hc) (by simp [Command.cancels])
  · exact absurd (h fd rid _ hc) (by simp [Command.cancels])

/-- A command cancels the requests it names and no others. -/
theorem not_cancels_of_command {fd rid me : Int} {c : Command}
    (command : e.command pg w = some (fd, rid, c)) (session : w.session fd = me) (a b : Int)
    (hdecline : c = .friend_decline a → me ≠ b)
    (hunfriend : ∀ x, c = .unfriend x → ¬((a = x ∧ b = me) ∨ (a = me ∧ b = x))) :
    ¬Cancels pg ⟨w, e, w'⟩ a b := by
  rintro (⟨fd', rid', hc, hs⟩ | ⟨fd', rid', hc, hs⟩ | ⟨fd', rid', hc, hs⟩)
  · cases command.symm.trans hc
    exact hdecline rfl (session.symm.trans hs)
  · cases command.symm.trans hc
    exact hunfriend a rfl (.inl ⟨rfl, hs.symm.trans session⟩)
  · cases command.symm.trans hc
    exact hunfriend b rfl (.inr ⟨hs.symm.trans session, rfl⟩)

/-- A step that changes neither friendships nor requests keeps the invariant. -/
theorem consentInv_same (hI : ConsentInv pg env w₀ past w) (htx : w'.db.tx = none)
    (keeps : e.Keeps pg w) (change : FriendsSame w w') :
    ConsentInv pg env w₀ (past ++ [⟨w, e, w'⟩]) w' where
  tx := htx
  friends a b h := (hI.friends a b (by rw [← change.friends]; exact h)).snoc _
  requests a b h := (hI.requests a b ((change.requests a b).mp h)).snoc
    (not_cancels_of_keeps keeps a b)
  rows hpg a b h := by
    rw [isPending_of_same a b change.rows] at h
    exact (hI.rows hpg a b h).snoc (not_cancels_of_keeps keeps a b)
  selfRequest hpg a h := hI.selfRequest hpg a ((change.requests a a).mp h)
  selfFriend a := by rw [change.friends]; exact hI.selfFriend a

theorem consentInv_imported {me : Int} (hI : ConsentInv pg env w₀ past w) (htx : w'.db.tx = none)
    (keeps : e.Keeps pg w) (change : Imported pg me w w') :
    ConsentInv pg env w₀ (past ++ [⟨w, e, w'⟩]) w' := by
  obtain ⟨hpg, hfriends, ⟨froms, hfroms, hrequests⟩, hedges, hrows⟩ := change
  refine ⟨htx, fun a b h => ?_, fun a b h => ?_, fun hpg a b h => ?_, fun h => ?_, fun a => ?_⟩
  · exact (hI.friends a b (by rw [← hfriends]; exact h)).snoc _
  · refine StillAsked.snoc ?_ (not_cancels_of_keeps keeps a b)
    rcases (hrequests a b).mp h with h | ⟨ha, rfl⟩
    · exact hI.requests a b h
    · exact hI.rows hpg a b (hfroms a ha)
  · rw [isPending_of_same a b hrows] at h
    exact (hI.rows hpg a b h).snoc (not_cancels_of_keeps keeps a b)
  · rw [hpg] at h
    cases h
  · rw [hfriends]
    exact hI.selfFriend a

theorem consentInv_requested {fd rid me x : Int} {target : Target}
    (hI : ConsentInv pg env w₀ past w) (htx : w'.db.tx = none)
    (command : e.command pg w = some (fd, rid, .friend_request target))
    (session : w.session fd = me) (found : ((find_target target).run env w).1 = .ok x)
    (change : Requested pg me x w w') : ConsentInv pg env w₀ (past ++ [⟨w, e, w'⟩]) w' := by
  have hcancels : ∀ a b, ¬Cancels pg ⟨w, e, w'⟩ a b := fun a b =>
    not_cancels_of_command command session a b (fun h => (nomatch h)) fun _ h => (nomatch h)
  have hnew : StillAsked pg env w₀ (past ++ [⟨w, e, w'⟩]) me x := by
    refine .inr ⟨past, _, [], rfl, ⟨⟨target, ⟨fd, rid, command, session⟩, found⟩, ?_⟩, ?_⟩
    · exact (change.requests me x).mpr (.inr ⟨rfl, rfl⟩)
    · exact fun t ht => absurd ht List.not_mem_nil
  refine ⟨htx, fun a b h => ?_, fun a b h => ?_, fun hpg a b h => ?_, fun hpg a h => ?_,
    fun a => ?_⟩
  · exact (hI.friends a b (by rw [← change.friends]; exact h)).snoc _
  · rcases (change.requests a b).mp h with h | ⟨rfl, rfl⟩
    · exact (hI.requests a b h).snoc (hcancels a b)
    · exact hnew
  · have hrows := change.rows
    rw [if_pos hpg] at hrows
    rcases (isPending_upsert a b me x (change.inserted hpg) hrows).mp h with h | ⟨rfl, rfl⟩
    · exact (hI.rows hpg a b h).snoc (hcancels a b)
    · exact hnew
  · rcases (change.requests a a).mp h with h | ⟨rfl, rfl⟩
    · exact hI.selfRequest hpg a h
    · exact change.distinct rfl
  · rw [change.friends]
    exact hI.selfFriend a

theorem consentInv_accepted {fd rid me other : Int} (hI : ConsentInv pg env w₀ past w)
    (htx : w'.db.tx = none) (hC : keepsConsent pg env w e = true)
    (command : e.command pg w = some (fd, rid, .friend_accept other))
    (session : w.session fd = me) (change : Accepted pg env me other w w') :
    ConsentInv pg env w₀ (past ++ [⟨w, e, w'⟩]) w' := by
  have hcancels : ∀ a b, ¬Cancels pg ⟨w, e, w'⟩ a b := fun a b =>
    not_cancels_of_command command session a b (fun h => (nomatch h)) fun _ h => (nomatch h)
  have hmay : mayAccept pg env w me other = true := by
    rw [keepsConsent, command] at hC
    rw [← session]
    exact hC
  -- the request is there, or they are friends already
  have hnew : Consented pg env w₀ (past ++ [⟨w, e, w'⟩]) me other := by
    have haccept : StillAsked pg env w₀ past other me →
        Consented pg env w₀ (past ++ [⟨w, e, w'⟩]) me other := fun h =>
      ⟨past, _, [], me, other, rfl, .inl ⟨rfl, rfl⟩, ⟨fd, rid, command, session⟩, h⟩
    simp only [mayAccept, Bool.or_eq_true, Bool.and_eq_true, decide_eq_true_eq,
      Bool.not_eq_true'] at hmay
    rcases hmay with (h | h) | ⟨hpg, h | h⟩
    · exact haccept (hI.requests other me h)
    · exact (hI.friends me other h).snoc _
    · exact haccept (hI.rows hpg other me h)
    · exact absurd (change.taken hpg) (by simp [h])
  refine ⟨htx, fun a b h => ?_, fun a b h => ?_, fun hpg a b h => ?_, fun hpg a h => ?_,
    fun a => ?_⟩
  · rw [change.friends, Bool.or_eq_true, decide_eq_true_eq] at h
    rcases h with (⟨rfl, rfl⟩ | ⟨rfl, rfl⟩) | h
    · exact hnew
    · exact hnew.symm
    · exact (hI.friends a b h).snoc _
  · exact (hI.requests a b ((change.requests a b).mp h).1).snoc (hcancels a b)
  · have hrows := change.rows
    rw [if_pos hpg] at hrows
    exact (hI.rows hpg a b ((isPending_delete a b _ _ hrows).mp h).1).snoc (hcancels a b)
  · exact hI.selfRequest hpg a ((change.requests a a).mp h).1
  · rw [change.friends, hI.selfFriend, Bool.or_false, decide_eq_false_iff_not]
    have hself : other ≠ me := by
      rintro rfl
      cases pg with
      | true =>
        -- `friends` refuses the row
        have hrow := change.inserted rfl
        simp [insert_pair, insert_friend, friendRow] at hrow
      | false =>
        rw [mayAccept, hI.selfFriend, Bool.false_and, Bool.or_false, Bool.or_false,
          decide_eq_true_eq] at hmay
        exact hI.selfRequest rfl other hmay
    rintro (⟨rfl, h⟩ | ⟨rfl, h⟩)
    · exact hself h.symm
    · exact hself h

theorem consentInv_declined {fd rid me other : Int} (hI : ConsentInv pg env w₀ past w)
    (htx : w'.db.tx = none) (hC : keepsConsent pg env w e = true)
    (command : e.command pg w = some (fd, rid, .friend_decline other))
    (session : w.session fd = me) (change : Declined pg env me other w w') :
    ConsentInv pg env w₀ (past ++ [⟨w, e, w'⟩]) w' := by
  have hcancels : ∀ a b, ¬(a = other ∧ b = me) → ¬Cancels pg ⟨w, e, w'⟩ a b := by
    intro a b hne
    refine not_cancels_of_command command session a b (fun h hb => hne ?_) fun _ h => (nomatch h)
    cases h
    exact ⟨rfl, hb.symm⟩
  refine ⟨htx, fun a b h => ?_, fun a b h => ?_, fun hpg a b h => ?_, fun hpg a h => ?_,
    fun a => ?_⟩
  · exact (hI.friends a b (by rw [← change.friends]; exact h)).snoc _
  · obtain ⟨h, hne⟩ := (change.requests a b).mp h
    exact (hI.requests a b h).snoc (hcancels a b hne)
  · have hkeep : w.db.tables.isPending a b = true ∧ ¬(a = other ∧ b = me) := by
      have hrows := change.rows
      split at hrows
      · exact (isPending_delete a b _ _ hrows).mp h
      · next hfails =>
        -- the row could not be deleted, and was not there
        rw [isPending_of_same a b hrows] at h
        refine ⟨h, ?_⟩
        rintro ⟨rfl, rfl⟩
        rw [keepsConsent, command] at hC
        simp only [session, h, hpg, Bool.not_true, Bool.false_or, Bool.not_eq_true'] at hC
        exact hfails ⟨hpg, hC⟩
    exact (hI.rows hpg a b hkeep.1).snoc (hcancels a b hkeep.2)
  · exact hI.selfRequest hpg a ((change.requests a a).mp h).1
  · rw [change.friends]
    exact hI.selfFriend a

theorem consentInv_unfriended {fd rid me other : Int} (hI : ConsentInv pg env w₀ past w)
    (htx : w'.db.tx = none) (hC : keepsConsent pg env w e = true)
    (command : e.command pg w = some (fd, rid, .unfriend other))
    (session : w.session fd = me) (change : Unfriended me other w w') :
    ConsentInv pg env w₀ (past ++ [⟨w, e, w'⟩]) w' := by
  have hcancels : ∀ a b, ¬((a = other ∧ b = me) ∨ (a = me ∧ b = other)) →
      ¬Cancels pg ⟨w, e, w'⟩ a b := by
    intro a b hne
    refine not_cancels_of_command command session a b (fun h => (nomatch h)) fun x h => ?_
    cases h
    exact hne
  refine ⟨htx, fun a b h => ?_, fun a b h => ?_, fun hpg a b h => ?_, fun hpg a h => ?_,
    fun a => ?_⟩
  · rw [change.friends, Bool.and_eq_true] at h
    exact (hI.friends a b h.2).snoc _
  · obtain ⟨h, hne⟩ := (change.requests a b).mp h
    exact (hI.requests a b h).snoc (hcancels a b hne)
  · -- the rows of the two stay, but none of them is pending
    rw [isPending_of_same a b change.rows] at h
    refine (hI.rows hpg a b h).snoc (hcancels a b ?_)
    rw [keepsConsent, command] at hC
    simp only [session, hpg, Bool.not_true, Bool.false_or, Bool.not_eq_true',
      Bool.or_eq_false_iff] at hC
    rintro (⟨rfl, rfl⟩ | ⟨rfl, rfl⟩)
    · exact absurd h (by simp [hC.1])
    · exact absurd h (by simp [hC.2])
  · exact hI.selfRequest hpg a ((change.requests a a).mp h).1
  · rw [change.friends, hI.selfFriend, Bool.and_false]

theorem consentInv_step (hI : ConsentInv pg env w₀ past w) (hC : keepsConsent pg env w e = true)
    (hs : Server.step pg env w e = some w') : ConsentInv pg env w₀ (past ++ [⟨w, e, w'⟩]) w' := by
  have htx := Server.step_tx hI.tx hs
  have hsession : ∀ {fd me}, w.conns.find? fd = some me → w.session fd = me :=
    fun h => UMap.get_of_find? h
  cases Server.friendChange hI.tx hs with
  | same keeps change => exact consentInv_same hI htx keeps change
  | imported me keeps change => exact consentInv_imported hI htx keeps change
  | requested fd rid me x target opened command found change =>
    exact consentInv_requested hI htx command (hsession opened) found change
  | accepted fd rid me other opened command change =>
    exact consentInv_accepted hI htx hC command (hsession opened) change
  | declined fd rid me other opened command change =>
    exact consentInv_declined hI htx hC command (hsession opened) change
  | unfriended fd rid me other opened command change =>
    exact consentInv_unfriended hI htx hC command (hsession opened) change

/-- **Friendship needs the consent of both sides** in every run in which only what is
pending is accepted, and what is taken back is gone from the database too. -/
theorem friendship_consented {tr : List (Taken World Event)} (booted : Booted pg env w₀)
    (strangers : ∀ a b, w₀.mem.isFriend a b = false)
    (run : Server.Run pg env (fun w e => keepsConsent pg env w e = true) w₀ tr w) :
    (∀ a b, w.mem.isFriend a b = true → Consented pg env w₀ tr a b) ∧
      ∀ a, w.mem.isFriend a a = false := by
  have hstart : ConsentInv pg env w₀ [] w₀ := by
    refine ⟨booted.tx_none, fun a b h => ?_, fun a b h => ?_, fun hpg a b h => ?_, fun _ a h => ?_,
      fun a => strangers a a⟩
    · exact absurd h (by simp [strangers a b])
    · exact absurd h (booted.requests_empty a b)
    · exact .inl ⟨hpg, h, fun t ht => absurd ht List.not_mem_nil⟩
    · exact absurd h (booted.requests_empty a a)
  have hI : ConsentInv pg env w₀ tr w :=
    run.history hstart fun past x e y hx hC hs => consentInv_step hx hC hs
  exact ⟨hI.friends, hI.selfFriend⟩

end Steps

/-- User 1 asks user 2, who accepts. -/
theorem friendship_consented_accepted : ∃ tr w,
    Server.Run false Env.calm (fun w e => keepsConsent false Env.calm w e = true)
      (World.new Tables.empty) tr w ∧ w.mem.isFriend 1 2 = true ∧
      Consented false Env.calm (World.new Tables.empty) tr 1 2 := by
  have hrun : (Run.exec (Run.guard (Server.step false Env.calm) (keepsConsent false Env.calm))
      (World.new Tables.empty) (two_users ++ [.send 5 .FRIEND_REQUEST "targetUserId=2",
        .send 6 .FRIEND_ACCEPT "userId=1"])).map (fun w => w.mem.isFriend 1 2) = some true := by
    decide
  obtain ⟨tr, w, run, hfriends⟩ := run_of_exec hrun
  obtain ⟨hconsented, -⟩ :=
    friendship_consented (booted_new Tables.empty_valid) (fun _ _ => rfl) run
  exact ⟨tr, w, run, hfriends, hconsented 1 2 hfriends⟩

/-- **A friendship can come about without consent**: a user accepts itself, whom nobody
asked. -/
theorem friendship_not_consented : ¬∀ pg env w₀ tr w, Booted pg env w₀ →
    (∀ a b, w₀.mem.isFriend a b = false) → Server.Run pg env (fun _ _ => True) w₀ tr w →
    (∀ a b, w.mem.isFriend a b = true → Consented pg env w₀ tr a b) ∧
      ∀ a, w.mem.isFriend a a = false := by
  intro claim
  have hrun : (Run.exec (Run.guard (Server.step false Env.calm) fun _ _ => true)
      (World.new Tables.empty) [.accept 5, .send 5 .REGISTER "username=a&password=x",
        .send 5 .FRIEND_ACCEPT "userId=1"]).map (fun w => w.mem.isFriend 1 1) = some true := by
    decide
  obtain ⟨tr, w, run, hself⟩ := run_of_exec hrun
  obtain ⟨-, hnone⟩ := claim false Env.calm _ tr w (booted_new Tables.empty_valid)
    (fun _ _ => rfl) (run.mono fun _ _ _ => trivial)
  rw [hnone 1] at hself
  cases hself

end ChatApp
