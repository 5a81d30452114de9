/-
`Restart.lean` -- what a restart does to the friend graph.

Memory keeps the graph as a symmetric map, the database as one row for each pair in
canonical order, and `main` rebuilds the first from the second. The two agree as long
as every change is made to both. `UNFRIEND` is the one that is not: it leaves the row
in place, and the friendship is back after the next restart.
-/
import ChatApp.Friendships

set_option autoImplicit false

namespace ChatApp

open Prog PostgresPersistence handle_client

/-! ## The graph in the database -/

/-- `friends` has the row of the pair. -/
def Tables.edge (d : Tables) (a b : Int) : Prop := ⟨a, b⟩ ∈ d.friends ∨ ⟨b, a⟩ ∈ d.friends

/-- Memory's graph is the database's, between users the database knows. -/
structure GraphAgrees (w : World) : Prop where
  friends : ∀ a b, w.mem.isFriend a b = true ↔ w.db.tables.edge a b
  users : ∀ a b, w.db.tables.edge a b → w.db.tables.hasUser a = true

/-- The process that is started on the tables this one leaves behind. -/
def World.restarted (w : World) : World :=
  ⟨ServerState.initial, ⟨w.db.tables, none⟩, w.users_file, ∅, [], 0⟩

/-- The condition on a step: nobody ends a friendship. -/
def keepsFriends (pg : Bool) (w : World) (e : Event) : Bool :=
  match e.command pg w with
  | some (fd, _, .unfriend other) => !w.mem.isFriend (w.session fd) other
  | _ => true

section Edges

variable {d d' : Tables} (a b x y : Int)

theorem Tables.edge_comm : d.edge a b ↔ d.edge b a := or_comm

theorem hasUser_iff : d.hasUser a = true ↔ ∃ r ∈ d.users.rows, r.id = a := by
  simp [Tables.hasUser]

theorem mem_insert_friend (hok : (insert_friend x y d).1 = some ())
    (h : d'.friends = (insert_friend x y d).2) :
    (∀ r, r ∈ d'.friends ↔ r ∈ d.friends ∨ r = ⟨x, y⟩) ∧
      (⟨x, y⟩ ∈ d.friends ∨ (d.hasUser x = true ∧ d.hasUser y = true)) := by
  unfold insert_friend at hok h
  split at hok
  · cases hok
  next horder =>
  rw [if_neg horder] at h
  split at hok
  · next hrow =>
    rw [if_pos hrow] at h
    have hmem : (⟨x, y⟩ : FriendRow) ∈ d.friends := List.contains_iff_mem.mp hrow
    refine ⟨fun r => ?_, .inl hmem⟩
    rw [h]
    exact ⟨.inl, fun hr => hr.elim id fun hr => hr ▸ hmem⟩
  · next hrow =>
    rw [if_neg hrow] at h
    split at hok
    · next husers =>
      rw [if_pos husers] at h
      refine ⟨fun r => ?_, .inr (by simpa using husers)⟩
      rw [h, List.mem_append, List.mem_singleton]
    · cases hok

/-- Inserting a pair adds its edge; that the users exist has been checked, now or
before. -/
theorem edge_insert_pair (hok : (insert_pair x y d).1 = some ())
    (h : d'.friends = (insert_pair x y d).2) :
    (d'.edge a b ↔ d.edge a b ∨ (a = x ∧ b = y) ∨ (a = y ∧ b = x)) ∧
      (d.edge x y ∨ (d.hasUser x = true ∧ d.hasUser y = true)) := by
  obtain ⟨hmem, husers⟩ := mem_insert_friend _ _ hok h
  unfold Tables.edge
  rw [hmem, hmem]
  unfold friendRow at husers ⊢
  split at husers
  · next hxy =>
    rw [if_pos hxy]
    refine ⟨?_, husers.imp .inr And.symm⟩
    simp only [FriendRow.mk.injEq]
    tauto
  · next hxy =>
    rw [if_neg hxy]
    refine ⟨?_, husers.imp_left .inl⟩
    simp only [FriendRow.mk.injEq]
    tauto

/-- The friends that a query finds are the edges. -/
theorem mem_friendsOf : (∃ f ∈ d.friendsOf a, f.id = b) ↔ d.edge a b ∧ d.hasUser b = true := by
  simp only [Tables.friendsOf, List.mem_insertionSort, List.mem_flatMap, List.mem_filter,
    List.mem_append, List.mem_map, decide_eq_true_eq, hasUser_iff, Tables.edge]
  constructor
  · rintro ⟨f, ⟨r, ⟨⟨row, hrow, rfl⟩ | ⟨row, hrow, rfl⟩, rfl⟩, hf, hid⟩, rfl⟩
    · rw [hid]
      exact ⟨.inl hrow, f, hf, hid⟩
    · rw [hid]
      exact ⟨.inr hrow, f, hf, hid⟩
  · rintro ⟨hrow | hrow, f, hf, rfl⟩
    · exact ⟨f, ⟨(a, f.id), ⟨.inl ⟨_, hrow, rfl⟩, rfl⟩, hf, rfl⟩, rfl⟩
    · exact ⟨f, ⟨(a, f.id), ⟨.inr ⟨_, hrow, rfl⟩, rfl⟩, hf, rfl⟩, rfl⟩

end Edges

/-! ## Loading -/

section Load

variable {env : Env} {w : World}

theorem load_user_friends (user : UserRow) (hs : env.SqlSucceeds) (htx : w.db.tx = none) :
    Ensures env w (load_user user) fun _ w' => w'.db = w.db ∧
      ∀ a b, w'.mem.isFriend a b = true ↔ w.mem.isFriend a b = true ∨
        (a = user.id ∧ ∃ f ∈ w.db.tables.friendsOf a, f.id = b) := by
  refine ensures_modify (ensures_modify ((select_ensures _ hs (by exact htx)).bind
    fun friends w₁ h₁ => ?_))
  obtain ⟨hmem, hdb, rfl⟩ := h₁
  have hloop : Ensures env w₁ ((w.db.tables.friendsOf user.id).forM fun f =>
      Prog.modify .g_friends fun g => g.update user.id fun m => m.set f.id true :
        Prog load_user_writes Unit) fun _ w' => w'.db = w.db ∧ ∀ a b,
      w'.mem.isFriend a b = true ↔ w.mem.isFriend a b = true ∨
        (a = user.id ∧ ∃ f ∈ w.db.tables.friendsOf user.id, f.id = b) := by
    refine Prog.run_forM env w₁ (I := fun (done : List UserRow) w' => w'.db = w.db ∧ ∀ a b,
      w'.mem.isFriend a b = true ↔ w.mem.isFriend a b = true ∨
        (a = user.id ∧ ∃ f ∈ done, f.id = b)) ⟨hdb, fun a b => ?_⟩
      fun done f w₂ _ h₂ => ?_
    · rw [hmem]
      simp [ServerState.isFriend, Var.modify]
    · refine ⟨h₂.1, fun a b => ?_⟩
      show ((w₂.mem.g_friends.update user.id fun m => m.set f.id true).get a).get b = true ↔ _
      rw [UMap.get_update]
      have h₂ := h₂.2 a b
      rw [ServerState.isFriend] at h₂
      by_cases ha : a = user.id
      · rw [if_pos ha, UMap.get_set, ← ha]
        by_cases hb : b = f.id
        · simp [hb]
        · rw [if_neg hb, h₂]
          simp [ha, Ne.symm hb]
      · rw [if_neg ha, h₂]
        simp [ha]
  refine hloop.mono fun _ w' h => ⟨h.1, fun a b => ?_⟩
  rw [h.2 a b]
  constructor
  · exact Or.imp_right fun h => ⟨h.1, h.1 ▸ h.2⟩
  · exact Or.imp_right fun h => ⟨h.1, h.1 ▸ h.2⟩

/-- Whoever is in the table is loaded. -/
theorem mem_allUsers (d : Tables) (r : UserRow) : r ∈ d.allUsers ↔ r ∈ d.users.rows :=
  List.mem_insertionSort _

theorem load_database_friends (hs : env.SqlSucceeds) (htx : w.db.tx = none)
    (hempty : ∀ a b, w.mem.isFriend a b = false) :
    Ensures env w load_database fun _ w' => ∀ a b, w'.mem.isFriend a b = true ↔
      w.db.tables.hasUser a = true ∧ w.db.tables.edge a b ∧ w.db.tables.hasUser b = true := by
  refine (select_ensures _ hs htx).bind fun all_users w₁ h₁ => ?_
  obtain ⟨hmem, hdb, rfl⟩ := h₁
  have husers : Ensures env w₁ (w.db.tables.allUsers.forM load_user) fun _ w' => w'.db = w.db ∧
      ∀ a b, w'.mem.isFriend a b = true ↔ w.mem.isFriend a b = true ∨
        ∃ u ∈ w.db.tables.allUsers, a = u.id ∧ ∃ f ∈ w.db.tables.friendsOf a, f.id = b := by
    refine Prog.run_forM env w₁ (I := fun (done : List UserRow) w' => w'.db = w.db ∧ ∀ a b,
      w'.mem.isFriend a b = true ↔ w.mem.isFriend a b = true ∨
        ∃ u ∈ done, a = u.id ∧ ∃ f ∈ w.db.tables.friendsOf a, f.id = b) ⟨hdb, fun a b => ?_⟩
      fun done u w₂ _ h₂ => ?_
    · rw [hmem]
      simp
    · have hload : Ensures env w₂ (load_user u) _ :=
        load_user_friends u hs (by rw [h₂.1]; exact htx)
      refine ⟨hload.1.trans h₂.1, fun a b => ?_⟩
      rw [hload.2 a b, h₂.2 a b, h₂.1]
      simp only [List.mem_append, List.mem_singleton]
      constructor
      · rintro ((h | ⟨v, hv, h⟩) | h)
        · exact .inl h
        · exact .inr ⟨v, .inl hv, h⟩
        · exact .inr ⟨u, .inr rfl, h⟩
      · rintro (h | ⟨v, hv | rfl, h⟩)
        · exact .inl (.inl h)
        · exact .inl (.inr ⟨v, hv, h⟩)
        · exact .inr h
  refine (husers.lift _).bind fun _ w₂ h₂ => ensures_modify ?_
  -- loading the groups leaves the graph alone
  refine ((ensures_frame _).lift _).mono fun _ w₃ h₃ a b => ?_
  have hg : w₃.mem.g_friends = w₂.mem.g_friends := h₃ (.var .g_friends) (by simp)
  rw [ServerState.isFriend, hg]
  refine (h₂.2 a b).trans ?_
  rw [hempty a b, mem_friendsOf, hasUser_iff a]
  constructor
  · rintro (h | ⟨u, hu, rfl, h⟩)
    · cases h
    · exact ⟨⟨u, (mem_allUsers _ u).mp hu, rfl⟩, h⟩
  · rintro ⟨⟨u, hu, rfl⟩, h⟩
    exact .inr ⟨u, (mem_allUsers _ u).mpr hu, rfl, h⟩

end Load

/-! ## Keeping the two in step -/

section Steps

variable {env : Env} {w w' : World} {e : Event}

/-- Users are added and never removed. -/
theorem Server.users_kept (hsql : env.SqlSucceeds) (htx : w.db.tx = none)
    (hs : Server.step true env w e = some w') {uid : Int}
    (h : w.db.tables.hasUser uid = true) : w'.db.tables.hasUser uid = true := by
  obtain ⟨r, hr, rfl⟩ := (hasUser_iff uid).mp h
  rw [hasUser_iff]
  cases Server.sessionChange htx hs with
  | opened fd unused conns online db => exact ⟨r, by rw [db]; exact hr, rfl⟩
  | ended fd me opened ends change => exact ⟨r, by rw [change.rows]; exact hr, rfl⟩
  | same change => exact ⟨r, by rw [change.rows]; exact hr, rfl⟩
  | granted fd rid uid me c opened command grants change =>
    obtain ⟨-, new, -, hrows⟩ := change.users rfl hsql
    refine ⟨r.markOnline uid, ?_, UserRow.markOnline_id uid r⟩
    rw [hrows]
    exact List.mem_map_of_mem (List.mem_append_left _ hr)

/-- A step that changes no friendship in either copy keeps them in step. -/
theorem graphAgrees_of_same (hI : GraphAgrees w)
    (husers : ∀ uid, w.db.tables.hasUser uid = true → w'.db.tables.hasUser uid = true)
    (hfriends : ∀ a b, w'.mem.isFriend a b = w.mem.isFriend a b)
    (hedges : w'.db.tables.friends = w.db.tables.friends) : GraphAgrees w' := by
  have hedge : ∀ a b, w'.db.tables.edge a b ↔ w.db.tables.edge a b := fun a b => by
    rw [Tables.edge, Tables.edge, hedges]
  refine ⟨fun a b => ?_, fun a b h => husers a (hI.users a b ((hedge a b).mp h))⟩
  rw [hfriends, hedge]
  exact hI.friends a b

theorem graphAgrees_step (hI : GraphAgrees w) (htx : w.db.tx = none) (hsql : env.SqlSucceeds)
    (hC : keepsFriends true w e = true) (hs : Server.step true env w e = some w') :
    GraphAgrees w' := by
  have husers : ∀ uid, w.db.tables.hasUser uid = true → w'.db.tables.hasUser uid = true :=
    fun uid => Server.users_kept hsql htx hs
  cases Server.friendChange htx hs with
  | same keeps change => exact graphAgrees_of_same hI husers change.friends change.edges
  | imported me keeps change => exact graphAgrees_of_same hI husers change.friends change.edges
  | requested fd rid me x target opened command found change =>
    exact graphAgrees_of_same hI husers change.friends change.edges
  | declined fd rid me other opened command change =>
    exact graphAgrees_of_same hI husers change.friends change.edges
  | accepted fd rid me other opened command change =>
    have hins := fun a b =>
      edge_insert_pair a b other me (change.inserted rfl) change.edges
    have hpair : w.db.tables.hasUser other = true ∧ w.db.tables.hasUser me = true :=
      (hins 0 0).2.elim (fun h => ⟨hI.users _ _ h, hI.users _ _ ((Tables.edge_comm ..).mp h)⟩) id
    refine ⟨fun a b => ?_, fun a b h => ?_⟩
    · rw [change.friends, Bool.or_eq_true, decide_eq_true_eq, (hins a b).1, hI.friends a b]
      tauto
    · rcases (hins a b).1.mp h with h | ⟨rfl, rfl⟩ | ⟨rfl, rfl⟩
      · exact husers a (hI.users a b h)
      · exact husers _ hpair.1
      · exact husers _ hpair.2
  | unfriended fd rid me other opened command change =>
    -- they were no friends, so nothing has changed in memory either
    have hsession : w.session fd = me := UMap.get_of_find? opened
    have hnone : w.mem.isFriend me other = false := by
      rw [keepsFriends, command] at hC
      simpa [hsession] using hC
    have hnone' : w.mem.isFriend other me = false := by
      rw [← Bool.not_eq_true, hI.friends, Tables.edge_comm, ← hI.friends, Bool.not_eq_true]
      exact hnone
    refine graphAgrees_of_same hI husers (fun a b => ?_) change.edges
    rw [change.friends]
    by_cases hpair : (a = me ∧ b = other) ∨ (a = other ∧ b = me)
    · rcases hpair with ⟨rfl, rfl⟩ | ⟨rfl, rfl⟩
      · rw [hnone, Bool.and_false]
      · rw [hnone', Bool.and_false]
    · simp [hpair]

/-- What `main` has loaded agrees with what it loaded it from. -/
theorem Booted.graphAgrees (h : Booted true env w) (hsql : env.SqlSucceeds) : GraphAgrees w := by
  obtain ⟨w₁, fresh, hboot⟩ := h
  cases hboot
  have hempty : ∀ a b, w₁.mem.isFriend a b = false := fun a b => by
    rw [fresh.mem]
    rfl
  have hload : Ensures env w₁ load_database _ := load_database_friends hsql fresh.tx hempty
  have hfriends : ((load_database.run env w₁).2).db.tables.friends = w₁.db.tables.friends :=
    run_frame env load_database w₁ (x := .table .friends) (by decide)
  have husers : ((load_database.run env w₁).2).db.tables.users = w₁.db.tables.users :=
    run_frame env load_database w₁ (x := .table .users) (by decide)
  have hedge : ∀ a b, ((load_database.run env w₁).2).db.tables.edge a b ↔
      w₁.db.tables.edge a b := fun a b => by
    rw [Tables.edge, Tables.edge, hfriends]
  have hknown : ∀ a b, w₁.db.tables.edge a b → w₁.db.tables.hasUser a = true := by
    rintro a b (hrow | hrow)
    · exact (fresh.tables.friends_users _ hrow).1
    · exact (fresh.tables.friends_users _ hrow).2
  refine ⟨fun a b => ?_, fun a b h => ?_⟩
  · rw [hedge]
    refine (hload a b).trans ⟨fun h => h.2.1, fun h => ⟨hknown a b h, h, ?_⟩⟩
    exact hknown b a ((Tables.edge_comm ..).mp h)
  · rw [Tables.hasUser, husers]
    exact hknown a b ((hedge a b).mp h)

/-- **A restart keeps the friend graph** in every run in which nobody ends a friendship. -/
theorem restart_keeps_friends {env' : Env} {w₀ : World} {tr : List (Taken World Event)}
    (booted : Booted true env w₀) (succeeds : env.SqlSucceeds) (succeeds' : env'.SqlSucceeds)
    (run : Server.Run true env (fun w e => keepsFriends true w e = true) w₀ tr w)
    (restarts : boot true env' w.restarted = .ok w') (a b : Int) :
    w'.mem.isFriend a b = w.mem.isFriend a b := by
  have hI : GraphAgrees w ∧ w.db.tx = none :=
    booted.invariant run (booted.graphAgrees succeeds) fun x e y hx htx hC hs =>
      graphAgrees_step hx htx succeeds hC hs
  cases restarts
  have hload : Ensures env' w.restarted load_database _ :=
    load_database_friends succeeds' rfl fun a b => rfl
  rw [Bool.eq_iff_iff, hI.1.friends a b]
  refine (hload a b).trans ⟨fun h => h.2.1, fun h => ⟨hI.1.users a b h, h, ?_⟩⟩
  exact hI.1.users b a ((Tables.edge_comm ..).mp h)

end Steps

/-- Users 1 and 2 become friends. -/
def befriended : List Event :=
  two_users ++ [.send 5 .FRIEND_REQUEST "targetUserId=2", .send 6 .FRIEND_ACCEPT "userId=1"]

theorem restart_keeps_friends_accepted :
    ∃ w w', Reachable true Env.calm w ∧ boot true Env.calm w.restarted = .ok w' ∧
      w.mem.isFriend 1 2 = true ∧ w'.mem.isFriend 1 2 = w.mem.isFriend 1 2 := by
  have hrun : (Run.exec (Run.guard (Server.step true Env.calm) (keepsFriends true)) loaded
      befriended).map (fun w => w.mem.isFriend 1 2) = some true := by decide
  obtain ⟨tr, w, run, hfriends⟩ := run_of_exec hrun
  refine ⟨w, _, ⟨loaded, tr, booted_loaded, run.mono fun _ _ _ => trivial⟩, rfl, hfriends, ?_⟩
  exact restart_keeps_friends booted_loaded Env.calm_sqlSucceeds Env.calm_sqlSucceeds run rfl 1 2

/-- **A restart can change the friend graph**: it brings back a friendship that was
ended. -/
theorem restart_changes_friends : ¬∀ env w₀ tr w w', Booted true env w₀ → env.SqlSucceeds →
    Server.Run true env (fun _ _ => True) w₀ tr w → boot true env w.restarted = .ok w' →
    ∀ a b, w'.mem.isFriend a b = w.mem.isFriend a b := by
  intro claim
  have hrun : (Run.exec (Run.guard (Server.step true Env.calm) fun _ _ => true) loaded
      (befriended ++ [.send 5 .UNFRIEND "userId=2"])).map (fun w => (w.mem.isFriend 1 2,
        (boot true Env.calm w.restarted).toOption.map fun w' => w'.mem.isFriend 1 2))
      = some (false, some true) := by decide
  obtain ⟨tr, w, run, hw⟩ := run_of_exec hrun
  obtain ⟨hended, hback⟩ := Prod.mk.inj hw
  obtain ⟨w', hboot, hfriends⟩ := Option.map_eq_some_iff.mp hback
  have hrestarts : boot true Env.calm w.restarted = .ok w' := by
    cases hb : boot true Env.calm w.restarted with
    | error e => rw [hb] at hboot; cases hboot
    | ok w'' => rw [hb] at hboot; exact congrArg _ (Option.some.inj hboot)
  have hsame := claim Env.calm loaded tr w w' booted_loaded Env.calm_sqlSucceeds
    (run.mono fun _ _ _ => trivial) hrestarts 1 2
  rw [hended, hfriends] at hsame
  cases hsame

end ChatApp
