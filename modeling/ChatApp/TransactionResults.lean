/-
`TransactionResults.lean` -- whether the two functions that open a transaction tell the truth.

`create_group` and `accept_friend_request` call `log_activity` inside their transaction, and
nobody looks at its result. An entry that cannot be inserted aborts the transaction all the same.
`accept_friend_request` then has a statement left, which fails and is noticed.
`create_group` has none: the next thing is the `COMMIT`, which rolls back and reports success.
-/
import ChatApp.Transactions
import ChatApp.Memberships

set_option autoImplicit false

namespace ChatApp

open Prog PostgresPersistence

/-! ## What the results promise -/

/-- The group's row was added for good, and its creator is a member. -/
structure GroupStored (d d' : Database) (gid : Int) (name : Bytes) (creator_id : Int) : Prop where
  committed : d'.tx = none
  group : d'.tables.groups.rows = d.tables.groups.rows ++ [⟨gid, escape_string name, creator_id⟩]
  member : d'.tables.isMember gid creator_id = true

/-- The friendship is in the database for good, and the request is not. -/
structure FriendStored (d : Database) (a b : Int) : Prop where
  committed : d.tx = none
  friend : friendRow a b ∈ d.tables.friends
  request : ∀ r ∈ d.tables.friend_requests, ¬(r.from_user_id = a ∧ r.to_user_id = b)

/-- The database is as before, but for the numbers a sequence has given out. -/
structure DatabaseKept (d d' : Database) : Prop where
  committed : d'.tx = none
  tables : d.tables.groupsNext d'.tables

/-- `create_group` tells the truth. -/
def CreateTruthful (env : Env) (w : World) (name : Bytes) (creator_id : Int) : Prop :=
  Ensures env w (create_group name creator_id) fun gid w' =>
    (∀ g, gid = some g → GroupStored w.db w'.db g name creator_id) ∧
      (gid = none → DatabaseKept w.db w'.db)

/-- `accept_friend_request` tells the truth. -/
def AcceptTruthful (env : Env) (w : World) (a b : Int) : Prop :=
  Ensures env w (accept_friend_request a b) fun ok w' =>
    (ok = true → FriendStored w'.db a b) ∧ (ok = false → DatabaseKept w.db w'.db)

/-- Of the statements of `create_group` (`BEGIN`, the group, the member, the log entry, `COMMIT`)
only the log entry fails. -/
def loseLog (env : Env) (w : World) (creator_id : Int) : Bool :=
  !env.sql_fails w.ticks && !env.sql_fails (w.ticks + 1) && w.db.tables.hasUser creator_id
    && !env.sql_fails (w.ticks + 2) && env.sql_fails (w.ticks + 3) && !env.sql_fails (w.ticks + 4)

/-- `create_group` returns no id: its creator is no user, or one of its statements fails, the first at
tick `n`. That the fourth fails, the log entry, it does not notice. -/
def createFails (env : Env) (d : Tables) (n : Nat) (creator_id : Int) : Bool :=
  !d.hasUser creator_id || [0, 1, 2, 4].any fun i => env.sql_fails (n + i)

/-! ## Statements, one tick each -/

section Ticks

variable {S : List Field} {β : Type} {env : Env} {w : World} {T snap : Tables}

theorem begin_tick (h : .tx ∈ S) (hdb : w.db = ⟨T, none⟩) :
    Ensures env w (begin h : Prog S Bool) fun ok w' => w'.ticks = w.ticks + 1 ∧
      ok = !env.sql_fails w.ticks ∧
        w'.db = if env.sql_fails w.ticks then ⟨T, none⟩ else ⟨T, some ⟨T, false⟩⟩ := by
  rw [Ensures, run_begin, World.mapDb, hdb]
  cases env.sql_fails w.ticks <;> exact ⟨rfl, rfl, rfl⟩

/-- A statement that the schema allows, in a transaction that is not aborted. -/
theorem execute_tick (t : Table) {q : Statement t β} (h : .table t ∈ S) {b : β}
    (hdb : w.db = ⟨T, some ⟨snap, false⟩⟩) (hq : (q T).1 = some b) :
    Ensures env w (execute t q h : Prog S (Option β)) fun r w' => w'.ticks = w.ticks + 1 ∧
      ((env.sql_fails w.ticks = true ∧ r = none ∧ w'.db = ⟨T, some ⟨snap, true⟩⟩) ∨
        (env.sql_fails w.ticks = false ∧ r = some b ∧
          w'.db = ⟨t.put (q T).2 T, some ⟨snap, false⟩⟩)) := by
  rw [Ensures, run_execute, World.mapDb, hdb]
  cases env.sql_fails w.ticks with
  | true => exact ⟨rfl, .inl ⟨rfl, rfl, rfl⟩⟩
  | false =>
    refine ⟨rfl, .inr ⟨rfl, ?_⟩⟩
    simp [Database.exec, Database.aborted, hq]

theorem commit_tick (h : all_tables ⊆ S) {ab : Bool} (hdb : w.db = ⟨T, some ⟨snap, ab⟩⟩) :
    Ensures env w (commit h : Prog S Bool) fun ok w' => w'.ticks = w.ticks + 1 ∧
      ok = !env.sql_fails w.ticks ∧ w'.db = if env.sql_fails w.ticks = true ∨ ab = true
        then ⟨Database.restore T snap, none⟩ else ⟨T, none⟩ := by
  rw [Ensures, run_commit, World.mapDb, hdb]
  cases env.sql_fails w.ticks <;> cases ab <;> exact ⟨rfl, rfl, rfl⟩

/-- A member's row and its log entry: an entry that fails aborts the transaction, and the caller is
told that all went well. -/
theorem add_group_member_tick (gid uid : Int) (hdb : w.db = ⟨T, some ⟨snap, false⟩⟩)
    (hins : (insert_group_member gid uid T).1 = some ()) (huser : T.hasUser uid = true) :
    Ensures env w (add_group_member gid uid) fun added w' =>
      (added = false ∧ env.sql_fails w.ticks = true ∧ w'.db = ⟨T, some ⟨snap, true⟩⟩) ∨
        (added = true ∧ env.sql_fails w.ticks = false ∧ w'.ticks = w.ticks + 2 ∧
          w'.db = ⟨{ T with group_members := (insert_group_member gid uid T).2 },
            some ⟨snap, env.sql_fails (w.ticks + 1)⟩⟩) := by
  refine (execute_tick _ _ hdb hins).bind fun r w₁ h₁ => ?_
  obtain ⟨htick₁, ⟨hfails, rfl, hdb₁⟩ | ⟨hinsert, rfl, hdb₁⟩⟩ := h₁
  · exact ensures_pure (.inl ⟨rfl, hfails, hdb₁⟩)
  -- the entry is one that the schema allows
  have hentry : (insert_activity_log uid 0
      (Table.group_members.put (insert_group_member gid uid T).2 T)).1 = some () := by
    have huser' : (Table.group_members.put (insert_group_member gid uid T).2 T).hasUser uid = true :=
      huser
    simp [insert_activity_log, huser']
  suffices hlog : Ensures env w₁ (log_activity uid 0) fun _ w₂ => w₂.ticks = w₁.ticks + 1 ∧
      w₂.db = ⟨{ T with group_members := (insert_group_member gid uid T).2 },
        some ⟨snap, env.sql_fails w₁.ticks⟩⟩ by
    refine (hlog.lift _).bind fun _ w₂ h₂ => ensures_pure (.inr ⟨rfl, hinsert, ?_, ?_⟩)
    · rw [h₂.1, htick₁]
    · rw [h₂.2, htick₁]
  refine (execute_tick _ _ hdb₁ hentry).bind fun r w₂ h₂ => ensures_pure ?_
  obtain ⟨htick₂, ⟨hfails, -, hdb₂⟩ | ⟨hworks, -, hdb₂⟩⟩ := h₂
  · exact ⟨htick₂, by rw [hdb₂, hfails]; rfl⟩
  · exact ⟨htick₂, by rw [hdb₂, hworks]; rfl⟩

end Ticks

section Create

variable {env : Env} {w : World} (name : Bytes) (creator_id : Int)

/-- A rollback leaves the number taken. -/
theorem groupsNext_restore (d : Tables) (m : List GroupMemberRow) :
    d.groupsNext (Database.restore { d.withGroupRow name creator_id with group_members := m } d) := by
  refine ⟨d.groups.next + 1, ?_, rfl⟩
  omega

/-- **What `create_group` returns, and what it leaves behind.** -/
theorem create_group_results (htx : w.db.tx = none) :
    Ensures env w (create_group name creator_id) fun gid w' => w'.db.tx = none ∧
      gid.isNone = createFails env w.db.tables w.ticks creator_id ∧
      ((loseLog env w creator_id = false ∧ gid = some w.db.tables.groups.next ∧
          w'.db.tables = w.db.tables.withGroup name creator_id ∧
          w.db.tables.hasUser creator_id = true) ∨
        (loseLog env w creator_id = false ∧ gid = none ∧ w.db.tables.groupsNext w'.db.tables) ∨
        (loseLog env w creator_id = true ∧ gid = some w.db.tables.groups.next ∧
          w.db.tables.groupsNext w'.db.tables)) := by
  have hdb : w.db = ⟨w.db.tables, none⟩ := by rw [← htx]
  refine (begin_tick _ hdb).bind fun begun w₁ h₁ => ?_
  obtain ⟨htick₁, rfl, hdb₁⟩ := h₁
  cases hbegin : env.sql_fails w.ticks with
  | true =>
    rw [hbegin, if_pos rfl] at hdb₁
    refine ensures_pure ⟨by rw [hdb₁], by simp [createFails, hbegin], .inr (.inl ⟨by simp [loseLog, hbegin], rfl, ?_⟩)⟩
    exact ⟨_, le_rfl, by rw [hdb₁]⟩
  | false =>
  rw [hbegin, if_neg Bool.false_ne_true] at hdb₁
  by_cases huser : w.db.tables.hasUser creator_id = true
  · -- the group's row
    have hgroup : (insert_group (escape_string name) creator_id w.db.tables).1
        = some w.db.tables.groups.next := by
      rw [insert_group, if_pos huser]
    refine (execute_tick _ _ hdb₁ hgroup).bind fun gid w₂ h₂ => ?_
    obtain ⟨htick₂, ⟨hfails, rfl, hdb₂⟩ | ⟨hinsert, rfl, hdb₂⟩⟩ := h₂
    · refine (rollback_ensures _ hdb₂).bind fun _ w₃ h₃ => ensures_pure ?_
      rw [htick₁] at hfails
      refine ⟨by rw [h₃], by simp [createFails, hfails], .inr (.inl ⟨by simp [loseLog, hfails], rfl, ?_⟩)⟩
      exact ⟨_, le_rfl, by rw [h₃]; rfl⟩
    replace hdb₂ : w₂.db = ⟨w.db.tables.withGroupRow name creator_id, some ⟨w.db.tables, false⟩⟩ := by
      rw [hdb₂, (insert_group_some hgroup).2.2]
      rfl
    -- the creator's row
    have hmember := @add_group_member_tick env w₂ _ _ w.db.tables.groups.next creator_id hdb₂
      (insert_creator_some huser) huser
    refine (hmember.lift _).bind fun added w₃ h₃ => ?_
    rw [htick₁] at hinsert
    rw [htick₂, htick₁] at h₃
    rcases h₃ with ⟨rfl, hfails, hdb₃⟩ | ⟨rfl, hmember, htick₃, hdb₃⟩
    · refine (rollback_ensures _ hdb₃).bind fun _ w₄ h₄ => ensures_pure ?_
      refine ⟨by rw [h₄], by simp [createFails, hfails], .inr (.inl ⟨by simp [loseLog, hfails], rfl, ?_⟩)⟩
      rw [h₄]
      exact groupsNext_restore name creator_id _ _
    -- the commit
    refine (commit_tick _ hdb₃).bind fun ok w₄ h₄ => ?_
    obtain ⟨-, rfl, hdb₄⟩ := h₄
    rw [htick₃] at hdb₄ ⊢
    have hnone : w₄.db.tx = none := by
      rw [hdb₄]
      split <;> rfl
    cases hcommit : env.sql_fails (w.ticks + 4) with
    | true =>
      rw [hcommit, if_pos (.inl rfl)] at hdb₄
      refine (rollback_of_none _ hnone).bind fun _ w₅ h₅ => ensures_pure ?_
      refine ⟨by rw [h₅, hnone], by simp [createFails, hcommit], .inr (.inl ⟨by simp [loseLog, hcommit], rfl, ?_⟩)⟩
      rw [h₅, hdb₄]
      exact groupsNext_restore name creator_id _ _
    | false =>
      refine ((log_activity_ensures _ _ hnone).lift _).bind fun _ w₅ h₅ => ensures_pure ?_
      refine ⟨by rw [h₅, hnone], by simp [createFails, hbegin, hinsert, huser, hmember, hcommit], ?_⟩
      rw [h₅, hdb₄, hcommit]
      cases hlog : env.sql_fails (w.ticks + 3) with
      | true =>
        -- the entry had aborted the transaction: nothing was committed
        refine .inr (.inr ⟨by simp [loseLog, hbegin, hinsert, huser, hmember, hlog, hcommit], rfl, ?_⟩)
        rw [if_pos (.inr rfl)]
        exact groupsNext_restore name creator_id _ _
      | false => exact .inl ⟨by simp [loseLog, hlog], rfl, rfl, huser⟩
  · have huser : w.db.tables.hasUser creator_id = false := by simpa using huser
    have hlose : loseLog env w creator_id = false := by simp [loseLog, huser]
    refine (execute_ensures _ _ _ hdb₁).bind fun gid w₂ h₂ => ?_
    rcases h₂ with ⟨gid, rfl, hq, -⟩ | ⟨rfl, -, x, hx, hdb₂⟩
    · exact absurd (insert_group_some hq).2.1 (by simp [huser])
    · refine (rollback_ensures _ hdb₂).bind fun _ w₃ h₃ => ensures_pure ?_
      refine ⟨by rw [h₃], by simp [createFails, huser], .inr (.inl ⟨hlose, rfl, ?_⟩)⟩
      rw [h₃]
      rcases hx with rfl | rfl
      · exact ⟨_, le_rfl, rfl⟩
      · refine ⟨_, ?_, rfl⟩
        show w.db.tables.groups.next ≤ (insert_group _ _ w.db.tables).2.next
        rw [insert_group_next]
        omega

/-- A new group has its creator. -/
theorem isMember_withGroup {d : Tables} (huser : d.hasUser creator_id = true) :
    (d.withGroup name creator_id).isMember d.groups.next creator_id = true := by
  have hrole := (@role_insert (d.withGroupRow name creator_id) (d.withGroup name creator_id)
    d.groups.next creator_id d.groups.next creator_id (insert_creator_some huser) rfl).1
  rw [Role.at_self] at hrole
  exact congrArg Role.member hrole

/-- `create_group` tells the truth, unless the log entry is all that fails. -/
theorem createTruthful_iff (htx : w.db.tx = none) :
    CreateTruthful env w name creator_id ↔ loseLog env w creator_id = false := by
  have hresults : Ensures env w (create_group name creator_id) _ :=
    create_group_results name creator_id htx
  obtain ⟨htx', -, ⟨hlog, hgid, htables, huser⟩ | ⟨hlog, hgid, hnext⟩ | ⟨hlog, hgid, n, -, htables⟩⟩ :=
    hresults
  · refine iff_of_true ⟨fun g hg => ?_, fun hnone => ?_⟩ hlog
    · obtain rfl := Option.some.inj (hgid.symm.trans hg)
      refine ⟨htx', ?_, ?_⟩
      · rw [htables]
        rfl
      · rw [htables]
        exact isMember_withGroup name creator_id huser
    · exact absurd (hgid.symm.trans hnone) (by simp)
  · refine iff_of_true ⟨fun g hg => ?_, fun _ => ⟨htx', hnext⟩⟩ hlog
    exact absurd (hgid.symm.trans hg) (by simp)
  · refine iff_of_false (fun htruth => ?_) (by simp [hlog])
    have hrows := (htruth.1 _ hgid).group
    rw [htables] at hrows
    simp at hrows

end Create

section Accept

variable {env : Env} {w : World} (a b : Int)

theorem mem_insert_pair {d : Tables} (hok : (insert_pair a b d).1 = some ()) :
    friendRow a b ∈ (insert_pair a b d).2 := by
  unfold insert_pair insert_friend at hok ⊢
  split at hok
  · cases hok
  · next horder =>
    rw [if_neg horder]
    split at hok
    · next hrow =>
      rw [if_pos hrow]
      simpa using hrow
    · next hrow =>
      rw [if_neg hrow]
      split at hok
      · next husers =>
        rw [if_pos husers]
        exact List.mem_append_right _ (List.mem_singleton.mpr rfl)
      · cases hok

/-- `accept_friend_request` always tells the truth: a statement follows the log entry. -/
theorem acceptTruthful (htx : w.db.tx = none) : AcceptTruthful env w a b := by
  refine (accept_friend_request_ensures a b htx).mono fun ok w' h => ?_
  obtain ⟨htx', ⟨rfl, hins, htables⟩ | ⟨rfl, htables, -⟩⟩ := h
  · refine ⟨fun _ => ⟨htx', ?_, fun r hr hids => ?_⟩, fun h => absurd h (by simp)⟩
    · rw [htables]
      exact mem_insert_pair a b hins
    · rw [htables] at hr
      have hkept := (List.mem_filter.mp hr).2
      simp [hids.1, hids.2] at hkept
  · exact ⟨fun h => absurd h (by simp), fun _ => ⟨htx', _, le_rfl, by rw [htables]⟩⟩

end Accept

/-! ## Both functions -/

/-- **The two functions tell the truth** about the database, for every state of it between two
requests and every pattern of failures, exactly when a failing log entry is not all that goes wrong in
`create_group`. -/
theorem transactions_truthful {env : Env} {w : World} (htx : w.db.tx = none) (name : Bytes)
    (creator_id a b : Int) :
    (CreateTruthful env w name creator_id ∧ AcceptTruthful env w a b)
      ↔ loseLog env w creator_id = false :=
  ⟨fun h => (createTruthful_iff name creator_id htx).mp h.1,
    fun h => ⟨(createTruthful_iff name creator_id htx).mpr h, acceptTruthful a b htx⟩⟩

/-- A database with one user. -/
def one_user : Tables := { Tables.empty with users := ⟨[⟨1, str "a", str "x", [], true⟩], 2⟩ }

theorem transactions_truthful_calm : CreateTruthful Env.calm (World.new one_user) (str "g") 1 ∧
    AcceptTruthful Env.calm (World.new one_user) 2 1 :=
  (transactions_truthful rfl (str "g") 1 2 1).mpr (by decide)

/-- **`create_group` can report a group that is not there**: with the table of the deployed schema the
log entry of the creator's membership fails. -/
theorem transactions_not_truthful : ¬∀ (env : Env) (w : World) name creator_id a b,
    w.db.tx = none → CreateTruthful env w name creator_id ∧ AcceptTruthful env w a b := by
  intro claim
  have htruth := (claim ⟨fun n => decide (n = 3), fun _ => false, fun _ => 0⟩ (World.new one_user)
    (str "g") 1 2 1 rfl).1
  have hresults : ((PostgresPersistence.create_group (str "g") 1).run
      ⟨fun n => decide (n = 3), fun _ => false, fun _ => 0⟩ (World.new one_user)).1 = some 1 := by
    decide
  have hrows := (htruth.1 1 hresults).group
  revert hrows
  decide

end ChatApp
