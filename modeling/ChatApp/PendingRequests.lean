/-
`PendingRequests.lean` -- friends have no pending request between them.

Memory keeps this by itself: a request is refused between friends, and accepting one
forgets the requests in both directions. The database forgets only the one that was
accepted. When both users had asked, the other row stays pending, and the next
`LOGIN` or `GET_FRIENDS_LIST` brings it back into memory.
-/
import ChatApp.Friendships

set_option autoImplicit false

namespace ChatApp

open Prog PostgresPersistence handle_client

/-- Nobody has a request of a friend. -/
def RequestsOfStrangers (w : World) : Prop :=
  ∀ a b, w.mem.isFriend a b = true → ¬w.mem.hasRequest a b ∧ ¬w.mem.hasRequest b a

/-- No pending row is between friends. -/
def RowsOfStrangers (w : World) : Prop :=
  ∀ a b, w.mem.isFriend a b = true →
    w.db.tables.isPending a b = false ∧ w.db.tables.isPending b a = false

/-- The condition on a step: with a database, nobody accepts a user it has a pending request
to itself, unless the database refuses. -/
def keepsStrangers (pg : Bool) (env : Env) (w : World) (e : Event) : Bool :=
  match e.command pg w with
  | some (fd, _, .friend_accept other) =>
    !pg || !w.db.tables.isPending (w.session fd) other ||
      !((accept_friend_request other (w.session fd)).run env w).1
  | _ => true

section Steps

variable {pg : Bool} {env : Env} {w w' : World} {e : Event}

/-- Neither memory nor, if there is one, the database has a request between friends. -/
structure StrangersInv (pg : Bool) (w : World) : Prop where
  tx : w.db.tx = none
  requests : RequestsOfStrangers w
  rows : pg = true → RowsOfStrangers w

theorem strangersInv_requested {me x : Int} (hI : StrangersInv pg w) (htx : w'.db.tx = none)
    (change : Requested pg me x w w') : StrangersInv pg w' := by
  have hnew : ∀ a b, w.mem.isFriend a b = true → ¬(a = me ∧ b = x) ∧ ¬(b = me ∧ a = x) := by
    intro a b h
    constructor
    · rintro ⟨rfl, rfl⟩
      rw [change.strangers.1] at h
      cases h
    · rintro ⟨rfl, rfl⟩
      rw [change.strangers.2] at h
      cases h
  refine ⟨htx, fun a b h => ?_, fun hpg a b h => ?_⟩
  · rw [change.friends] at h
    obtain ⟨hab, hba⟩ := hI.requests a b h
    obtain ⟨hne, hne'⟩ := hnew a b h
    rw [change.requests, change.requests]
    exact ⟨not_or.mpr ⟨hab, hne⟩, not_or.mpr ⟨hba, hne'⟩⟩
  · rw [change.friends] at h
    obtain ⟨hab, hba⟩ := hI.rows hpg a b h
    obtain ⟨hne, hne'⟩ := hnew a b h
    have hrows := change.rows
    rw [if_pos hpg] at hrows
    have hinserted := change.inserted hpg
    rw [← Bool.not_eq_true, ← Bool.not_eq_true, isPending_upsert a b me x hinserted hrows,
      isPending_upsert b a me x hinserted hrows, hab, hba]
    exact ⟨not_or.mpr ⟨by simp, hne⟩, not_or.mpr ⟨by simp, hne'⟩⟩

theorem strangersInv_accepted {fd rid me other : Int} (hI : StrangersInv pg w)
    (htx : w'.db.tx = none) (hC : keepsStrangers pg env w e = true)
    (command : e.command pg w = some (fd, rid, .friend_accept other))
    (session : w.session fd = me) (change : Accepted pg env me other w w') :
    StrangersInv pg w' := by
  refine ⟨htx, fun a b h => ?_, fun hpg a b h => ?_⟩
  · rw [change.requests, change.requests]
    rw [change.friends, Bool.or_eq_true, decide_eq_true_eq] at h
    rcases h with h | h
    · exact ⟨fun h' => h'.2 h.symm, fun h' => h'.2 (h.imp And.symm And.symm)⟩
    · obtain ⟨hab, hba⟩ := hI.requests a b h
      exact ⟨fun h' => hab h'.1, fun h' => hba h'.1⟩
  · have hrows := change.rows
    rw [if_pos hpg] at hrows
    rw [← Bool.not_eq_true, ← Bool.not_eq_true, isPending_delete a b _ _ hrows,
      isPending_delete b a _ _ hrows]
    -- the row the other way is the one the condition is about
    have hother : w.db.tables.isPending me other = false := by
      rw [keepsStrangers, command] at hC
      simpa [session, hpg, change.taken hpg] using hC
    rw [change.friends, Bool.or_eq_true, decide_eq_true_eq] at h
    rcases h with (⟨rfl, rfl⟩ | ⟨rfl, rfl⟩) | h
    · simp [hother]
    · simp [hother]
    · obtain ⟨hab, hba⟩ := hI.rows hpg a b h
      simp [hab, hba]

theorem strangersInv_step (hI : StrangersInv pg w) (hC : keepsStrangers pg env w e = true)
    (hs : Server.step pg env w e = some w') : StrangersInv pg w' := by
  have htx := Server.step_tx hI.tx hs
  have hrowsSame : (∀ a b, w'.mem.isFriend a b = true → w.mem.isFriend a b = true) →
      w'.db.tables.friend_requests = w.db.tables.friend_requests → pg = true →
      RowsOfStrangers w' := by
    intro hfriends hrows hpg a b h
    rw [isPending_of_same a b hrows, isPending_of_same b a hrows]
    exact hI.rows hpg a b (hfriends a b h)
  cases Server.friendChange hI.tx hs with
  | same keeps change =>
    refine ⟨htx, fun a b h => ?_, hrowsSame (fun a b h => ?_) change.rows⟩
    · rw [change.friends] at h
      rw [change.requests, change.requests]
      exact hI.requests a b h
    · rw [← change.friends]
      exact h
  | imported me keeps change =>
    obtain ⟨hpg, hfriends, ⟨froms, hfroms, hrequests⟩, -, hrows⟩ := change
    refine ⟨htx, fun a b h => ?_, hrowsSame (fun a b h => by rw [← hfriends]; exact h) hrows⟩
    rw [hfriends] at h
    obtain ⟨hab, hba⟩ := hI.requests a b h
    obtain ⟨hrow, hrow'⟩ := hI.rows hpg a b h
    rw [hrequests, hrequests]
    constructor
    · rintro (h' | ⟨ha, rfl⟩)
      · exact hab h'
      · rw [hfroms a ha] at hrow
        cases hrow
    · rintro (h' | ⟨hb, rfl⟩)
      · exact hba h'
      · rw [hfroms b hb] at hrow'
        cases hrow'
  | requested fd rid me x target opened command found change =>
    exact strangersInv_requested hI htx change
  | accepted fd rid me other opened command change =>
    exact strangersInv_accepted hI htx hC command (UMap.get_of_find? opened) change
  | declined fd rid me other opened command change =>
    refine ⟨htx, fun a b h => ?_, fun hpg a b h => ?_⟩
    · rw [change.friends] at h
      obtain ⟨hab, hba⟩ := hI.requests a b h
      rw [change.requests, change.requests]
      exact ⟨fun h' => hab h'.1, fun h' => hba h'.1⟩
    · rw [change.friends] at h
      obtain ⟨hab, hba⟩ := hI.rows hpg a b h
      have hrows := change.rows
      split at hrows
      · rw [← Bool.not_eq_true, ← Bool.not_eq_true, isPending_delete a b _ _ hrows,
          isPending_delete b a _ _ hrows]
        simp [hab, hba]
      · rw [isPending_of_same a b hrows, isPending_of_same b a hrows]
        exact ⟨hab, hba⟩
  | unfriended fd rid me other opened command change =>
    have hfriends : ∀ a b, w'.mem.isFriend a b = true → w.mem.isFriend a b = true := by
      intro a b h
      rw [change.friends, Bool.and_eq_true] at h
      exact h.2
    refine ⟨htx, fun a b h => ?_, hrowsSame hfriends change.rows⟩
    obtain ⟨hab, hba⟩ := hI.requests a b (hfriends a b h)
    rw [change.requests, change.requests]
    exact ⟨fun h' => hab h'.1, fun h' => hba h'.1⟩

/-- **Friends have no pending request between them**: always without a database; with one,
in every run in which nobody accepts a user it has a pending request to itself, if the
database starts with none between friends. -/
theorem requests_of_strangers {w₀ : World} {tr : List (Taken World Event)}
    (booted : Booted pg env w₀) (start : pg = true → RowsOfStrangers w₀)
    (run : Server.Run pg env (fun w e => keepsStrangers pg env w e = true) w₀ tr w) :
    RequestsOfStrangers w := by
  have hstart : StrangersInv pg w₀ := by
    refine ⟨booted.tx_none, fun a b _ => ?_, start⟩
    exact ⟨booted.requests_empty a b, booted.requests_empty b a⟩
  have hI : StrangersInv pg w :=
    run.invariant hstart fun x e y hx hC hs => strangersInv_step hx hC hs
  exact hI.requests

end Steps

/-- User 1 asks user 2, who accepts and then lists its friends. -/
theorem requests_of_strangers_accepted :
    ∃ w, Reachable true Env.calm w ∧ w.mem.isFriend 1 2 = true ∧ RequestsOfStrangers w := by
  have hrun : (Run.exec (Run.guard (Server.step true Env.calm) (keepsStrangers true Env.calm)) loaded
      (two_users ++ [.send 5 .FRIEND_REQUEST "targetUserId=2", .send 6 .FRIEND_ACCEPT "userId=1",
        .send 6 .GET_FRIENDS_LIST ""])).map (fun w => w.mem.isFriend 1 2) = some true := by decide
  obtain ⟨tr, w, run, hfriends⟩ := run_of_exec hrun
  refine ⟨w, ⟨loaded, tr, booted_loaded, run.mono fun _ _ _ => trivial⟩, hfriends, ?_⟩
  exact requests_of_strangers booted_loaded (fun _ a b h => absurd h (by
    rw [show loaded.mem.isFriend a b = false from rfl]; simp)) run

/-- **Friends can have a pending request between them**: both users have asked when
one of them accepts, and the other then lists its friends. -/
theorem requests_not_of_strangers :
    ¬∀ pg env w, env.SqlSucceeds → Reachable pg env w → RequestsOfStrangers w := by
  intro claim
  have hrun : (Run.exec (Server.step true Env.calm) loaded
      (two_users ++ [.send 5 .FRIEND_REQUEST "targetUserId=2",
        .send 6 .FRIEND_REQUEST "targetUserId=1", .send 5 .FRIEND_ACCEPT "userId=2",
        .send 6 .GET_FRIENDS_LIST ""])).map
        (fun w => (w.mem.isFriend 1 2, decide (1 ∈ w.mem.g_friend_requests.get 2)))
      = some (true, true) := by decide
  obtain ⟨w, hreach, hw⟩ := reachable_of_exec (World.new_fresh Tables.empty_valid) rfl hrun
  obtain ⟨hfriends, hrequest⟩ := Prod.mk.inj hw
  obtain ⟨hnone, -⟩ := claim true Env.calm w Env.calm_sqlSucceeds hreach 1 2 hfriends
  have hmem : 1 ∈ w.mem.g_friend_requests.get 2 := of_decide_eq_true hrequest
  exact hnone hmem

end ChatApp
