/-
`HistoryReplies.lean` -- which messages a history reply lists, and in which order.

`get_conversation` and `get_group_messages` ask for the newest messages with
`ORDER BY timestamp DESC LIMIT n` and turn the rows round "to get chronological
order". The cases `GET_CONVERSATION_HISTORY` and `GET_GROUP_HISTORY` then read
that list from its end, "to chronological order" once more, so that the entries
of the reply stand as the query gave them, newest first.

The choice is right all the same: the entries are the newest messages of the
conversation, each once. Their order is the chronological one exactly when they
all bear one time, which is a condition on what is stored.
-/
import Mathlib.Data.List.Sort
import ChatApp.Transactions

set_option autoImplicit false

namespace ChatApp

open Prog PostgresPersistence handle_client

/-! ## The newest of a list

A table read with `ORDER BY ... DESC LIMIT n`, for an arbitrary column. -/

section Newest

variable {α : Type} (ts : α → Int) (M : List α) (n : Nat)

/-- `L` is `n` newest rows of `M`, or all of them, each once: no row left out is newer than one listed. -/
structure Newest (L : List α) : Prop where
  length : L.length = min n M.length
  chosen : ∃ rest, (L ++ rest).Perm M ∧ ∀ x ∈ L, ∀ y ∈ rest, ts y ≤ ts x

/-- The times do not decrease along `L`. -/
def Chronological (L : List α) : Prop := L.Pairwise fun x y => ts x ≤ ts y

/-- The rows of `M` that no other is newer than. -/
def latest_of : List α := M.filter fun x => M.all fun y => ts y ≤ ts x

/-- The latest rows alone make up an answer of `n` rows. -/
def OneTime : Prop := min n M.length ≤ (latest_of ts M).length

instance : Decidable (OneTime ts M n) := inferInstanceAs (Decidable (_ ≤ _))

/-- What the query answers. -/
def order_by_desc_limit : List α := (M.insertionSort fun x y => ts y ≤ ts x).take n

theorem order_by_desc_limit_pairwise :
    (order_by_desc_limit ts M n).Pairwise fun x y => ts y ≤ ts x := by
  have : Std.Total fun x y : α => ts y ≤ ts x := ⟨fun x y => le_total (ts y) (ts x)⟩
  have : IsTrans α fun x y => ts y ≤ ts x := ⟨fun _ _ _ hxy hyz => le_trans hyz hxy⟩
  exact (List.pairwise_insertionSort _ M).sublist (List.take_sublist _ _)

/-- The query answers newest rows. -/
theorem newest_order_by_desc_limit : Newest ts M n (order_by_desc_limit ts M n) := by
  have : Std.Total fun x y : α => ts y ≤ ts x := ⟨fun x y => le_total (ts y) (ts x)⟩
  have : IsTrans α fun x y => ts y ≤ ts x := ⟨fun _ _ _ hxy hyz => le_trans hyz hxy⟩
  have hsorted := List.pairwise_insertionSort (fun x y => ts y ≤ ts x) M
  refine ⟨?_, (M.insertionSort fun x y => ts y ≤ ts x).drop n, ?_, ?_⟩
  · rw [order_by_desc_limit, List.length_take, List.length_insertionSort]
  · rw [order_by_desc_limit, List.take_append_drop]
    exact List.perm_insertionSort _ M
  · rw [← List.take_append_drop n (M.insertionSort _)] at hsorted
    exact (List.pairwise_append.mp hsorted).2.2

variable {ts M n} {L : List α}

/-- Where the newest rows all are latest rows, there are enough of these. -/
theorem Newest.oneTime (h : Newest ts M n L) (hlatest : ∀ x ∈ L, ∀ y ∈ M, ts y ≤ ts x) :
    OneTime ts M n := by
  obtain ⟨rest, hperm, -⟩ := h.chosen
  have hkept : L.filter (fun x => M.all fun y => ts y ≤ ts x) = L := by
    rw [List.filter_eq_self]
    intro x hx
    simpa using hlatest x hx
  have hcount := (hperm.filter fun x => M.all fun y => ts y ≤ ts x).length_eq
  rw [List.filter_append, hkept, List.length_append] at hcount
  rw [OneTime, latest_of, ← h.length]
  omega

/-- Where there are enough latest rows, the newest rows all are latest rows: one that is not would
have been left out for one that is. -/
theorem Newest.latest (h : Newest ts M n L) (hone : OneTime ts M n) :
    ∀ x ∈ L, ∀ y ∈ M, ts y ≤ ts x := by
  obtain ⟨rest, hperm, hrest⟩ := h.chosen
  by_contra hnot
  push Not at hnot
  obtain ⟨x, hx, y, hy, hnewer⟩ := hnot
  have hxM : x ∈ M := hperm.subset (List.mem_append_left _ hx)
  -- none of the rows left out is a latest one, as none is newer than `x`
  have hout : rest.filter (fun x => M.all fun y => ts y ≤ ts x) = [] := by
    rw [List.filter_eq_nil_iff]
    intro z hz hlatest
    have hzy : ts y ≤ ts z := by simpa using List.all_eq_true.mp hlatest y hy
    have hzx : ts z ≤ ts x := hrest x hx z hz
    omega
  have hcount := (hperm.filter fun x => M.all fun y => ts y ≤ ts x).length_eq
  rw [List.filter_append, hout, List.append_nil] at hcount
  have hfewer : (L.filter fun x => M.all fun y => ts y ≤ ts x).length < L.length := by
    refine List.length_filter_lt_length_iff_exists.mpr ⟨x, hx, ?_⟩
    simp only [List.all_eq_true, decide_eq_true_eq, not_forall]
    exact ⟨y, hy, by omega⟩
  rw [OneTime, latest_of, ← h.length, ← hcount] at hone
  omega

/-- A descending answer is chronological exactly when the latest rows alone make it up. -/
theorem Newest.chronological_iff (h : Newest ts M n L) (hdesc : L.Pairwise fun x y => ts y ≤ ts x) :
    Chronological ts L ↔ OneTime ts M n := by
  constructor
  · intro hchrono
    refine h.oneTime fun x hx y hy => ?_
    have hboth : L.Pairwise fun x y => ts x = ts y :=
      hchrono.imp₂ (fun _ _ => le_antisymm) hdesc
    have hequal : ∀ ⦃x⦄, x ∈ L → ∀ ⦃y⦄, y ∈ L → ts x = ts y :=
      hboth.forall_of_forall_of_flip (fun _ _ => rfl) (hboth.imp Eq.symm)
    obtain ⟨rest, hperm, hrest⟩ := h.chosen
    rcases List.mem_append.mp (hperm.symm.subset hy) with hy | hy
    · exact le_of_eq (hequal hy hx)
    · exact hrest x hx y hy
  · intro hone
    have hlatest := h.latest hone
    obtain ⟨rest, hperm, -⟩ := h.chosen
    refine List.pairwise_of_forall_mem_list fun x hx y hy => ?_
    exact hlatest y hy x (hperm.subset (List.mem_append_left _ hx))

end Newest

/-! ## The queries -/

section Queries

variable {S : List Field} {env : Env} {w : World} {β : Type}

/-- A query that the connection and the open transaction, if there is one, let through. -/
theorem select_answers (q : Tables → β) (hs : env.SqlSucceeds) (hopen : w.db.aborted = false) :
    Ensures env w (select q : Prog S (Option β)) fun r w' =>
      w'.db = w.db ∧ w'.out = w.out ∧ r = some (q w.db.tables) := by
  have hsel : Database.select q (env.sql_fails w.ticks) w.db = (some (q w.db.tables), w.db) := by
    rw [Database.select, if_neg (by simp [hopen]), if_neg (by simp [hs w.ticks])]
  rw [Ensures, run_select, World.mapDb, hsel]
  exact ⟨rfl, rfl, rfl⟩

/-- `get_conversation` answers the newest messages from the oldest to the newest. -/
theorem get_conversation_ensures (a b : Int) {n : Int} (hn : 0 ≤ n) (hs : env.SqlSucceeds)
    (hopen : w.db.aborted = false) :
    Ensures env w (get_conversation a b n) fun messages w' =>
      w'.out = w.out ∧ messages = (w.db.tables.conversation a b n.toNat).reverse := by
  refine Ensures.bind (select_answers _ hs hopen) ?_
  rintro _ w' ⟨-, hout, rfl⟩
  refine ensures_pure ⟨hout, ?_⟩
  rw [Option.getD_some, if_neg (by omega)]

/-- And so does `get_group_messages`. -/
theorem get_group_messages_ensures (gid : Int) {n : Int} (hn : 0 ≤ n) (hs : env.SqlSucceeds)
    (hopen : w.db.aborted = false) :
    Ensures env w (get_group_messages gid n) fun messages w' =>
      w'.out = w.out ∧ messages = (w.db.tables.groupMessages gid n.toNat).reverse := by
  refine Ensures.bind (select_answers _ hs hopen) ?_
  rintro _ w' ⟨-, hout, rfl⟩
  refine ensures_pure ⟨hout, ?_⟩
  rw [Option.getD_some, if_neg (by omega)]

end Queries

/-! ## The replies -/

section Replies

variable (env : Env) (w : World) (fd me rid : Int)

/-- A command is answered with `SUCCESS` and this payload, and with nothing else. -/
def Answered (c : Command) (payload : Bytes) : Prop :=
  ∃ sent, ((perform true fd me rid c).run env w).2.out
    = w.out ++ [⟨fd, .SUCCESS, payload, u32 me, sent⟩]

/-- The reply of `GET_CONVERSATION_HISTORY` whose entries 0, 1, ... are these messages. -/
def conversation_reply (entries : List MessageRow) : Bytes :=
  serialize_kv ((str "count", to_string entries.length)
    :: (entries.zipIdx.map fun m => message_item m.1 m.2).flatten)

/-- The reply of `GET_GROUP_HISTORY` whose entries 0, 1, ... are these messages. -/
def group_reply (gid : Int) (entries : List GroupMessageRow) : Bytes :=
  serialize_kv ((str "groupId", to_string gid) :: (str "count", to_string entries.length)
    :: (entries.zipIdx.map fun m => group_message_item m.1 m.2).flatten)

variable {env w}

theorem conversation_answered (other : Int) {n : Int} (hn : 0 ≤ n) (hs : env.SqlSucceeds)
    (hopen : w.db.aborted = false) :
    Answered env w fd me rid (.get_conversation_history other n)
      (conversation_reply (w.db.tables.conversation me other n.toNat)) := by
  obtain ⟨hout, hmessages⟩ : Ensures env w (get_conversation me other n) _ :=
    get_conversation_ensures me other hn hs hopen
  refine ⟨!env.send_fails ((get_conversation me other n).run env w).2.ticks, ?_⟩
  rw [perform, run_lift, get_conversation_history, run_bind, run_lift, andNext, run_bind, run_pure,
    ← hout, conversation_reply, hmessages, List.reverse_reverse, List.length_reverse]
  rfl

/-- The member rows let a member read the history. -/
theorem is_member_ensures (gid : Int) (hs : env.SqlSucceeds) (hopen : w.db.aborted = false) :
    Ensures env w (is_member true gid me) fun member w' =>
      w'.db = w.db ∧ w'.out = w.out ∧
        member = (w.db.tables.membersOf gid).any fun m => m.id = me := by
  refine Ensures.bind (R := fun members w' => w'.db = w.db ∧ w'.out = w.out ∧
    members = w.db.tables.membersOf gid) ?_ ?_
  · refine Ensures.bind (select_answers _ hs hopen) ?_
    rintro _ w' ⟨hdb, hout, rfl⟩
    exact ensures_pure ⟨hdb, hout, rfl⟩
  · rintro _ w' ⟨hdb, hout, rfl⟩
    exact ensures_pure ⟨hdb, hout, rfl⟩

theorem group_answered {gid : Int} {n : Int} (hn : 0 ≤ n) (hs : env.SqlSucceeds)
    (hopen : w.db.aborted = false)
    (hmember : ((w.db.tables.membersOf gid).any fun m => m.id = me) = true) :
    Answered env w fd me rid (.get_group_history gid n)
      (group_reply gid (w.db.tables.groupMessages gid n.toNat)) := by
  obtain ⟨hdb, hout, hmember'⟩ : Ensures env w (is_member true gid me) _ :=
    is_member_ensures me gid hs hopen
  generalize hw₁ : ((is_member true gid me).run env w).2 = w₁ at hdb hout
  have hopen₁ : w₁.db.aborted = false := by rw [hdb, hopen]
  obtain ⟨hout₁, hmessages⟩ : Ensures env w₁ (get_group_messages gid n) _ :=
    get_group_messages_ensures gid hn hs hopen₁
  refine ⟨!env.send_fails ((get_group_messages gid n).run env w₁).2.ticks, ?_⟩
  rw [hdb] at hmessages
  rw [perform, run_lift, get_group_history, run_bind, run_lift, hmember', hmember, hw₁, andNext,
    run_bind, run_pure, ← hout, ← hout₁, group_reply]
  simp only [Bool.not_true, Bool.false_eq_true, if_false, if_true, run_bind, run_lift, hmessages,
    List.reverse_reverse, List.length_reverse]
  rfl

end Replies

/-- **Which messages a history lists, and when in chronological order**: with any messages stored and any
limit, the entries of both replies are the newest messages of the conversation, each once. From the first
to the last their times do not decrease exactly when as many of the stored messages as are listed bear the
latest time. -/
theorem histories_chronological_iff (env : Env) (w : World) (fd me rid n : Int) (succeeds : env.SqlSucceeds)
    (answering : w.db.aborted = false) (limit : 0 ≤ n) :
    (∀ other,
      let stored := w.db.tables.messages.filter fun r => r.between me other
      let entries := w.db.tables.conversation me other n.toNat
      Answered env w fd me rid (.get_conversation_history other n) (conversation_reply entries) ∧
        Newest MessageRow.timestamp stored n.toNat entries ∧
        (Chronological MessageRow.timestamp entries ↔ OneTime MessageRow.timestamp stored n.toNat)) ∧
      ∀ gid, ((w.db.tables.membersOf gid).any fun m => m.id = me) = true →
        let stored := w.db.tables.group_messages.filter fun r => r.group_id = gid
        let entries := w.db.tables.groupMessages gid n.toNat
        Answered env w fd me rid (.get_group_history gid n) (group_reply gid entries) ∧
          Newest GroupMessageRow.timestamp stored n.toNat entries ∧
          (Chronological GroupMessageRow.timestamp entries ↔
            OneTime GroupMessageRow.timestamp stored n.toNat) := by
  constructor
  · intro other
    have hnewest := newest_order_by_desc_limit MessageRow.timestamp
      (w.db.tables.messages.filter fun r => r.between me other) n.toNat
    exact ⟨conversation_answered fd me rid other limit succeeds answering, hnewest,
      hnewest.chronological_iff (order_by_desc_limit_pairwise _ _ _)⟩
  · intro gid hmember
    have hnewest := newest_order_by_desc_limit GroupMessageRow.timestamp
      (w.db.tables.group_messages.filter fun r => r.group_id = gid) n.toNat
    exact ⟨group_answered fd me rid limit succeeds answering hmember, hnewest,
      hnewest.chronological_iff (order_by_desc_limit_pairwise _ _ _)⟩

/-- Two messages a second apart. -/
def two_messages : World :=
  World.new { Tables.empty with messages := [⟨1, 2, str "hi", 1000⟩, ⟨2, 1, str "hello", 2000⟩] }

/-- Two messages are listed, and the latest of them only is the latest. -/
theorem histories_chronological_two :
    (Answered Env.calm two_messages 5 1 1 (.get_conversation_history 2 50)
      (conversation_reply [⟨2, 1, str "hello", 2000⟩, ⟨1, 2, str "hi", 1000⟩])) ∧
      ¬OneTime MessageRow.timestamp two_messages.db.tables.messages 50 :=
  ⟨((histories_chronological_iff Env.calm two_messages 5 1 1 50 Env.calm_sqlSucceeds rfl (by decide)).1
    2).1, by decide⟩

/-- The reply to the first of two users lists the answer before the question. -/
theorem history_backwards :
    ¬∀ env w fd me rid other n, env.SqlSucceeds → w.db.aborted = false → 0 ≤ n →
      ∀ entries, Newest MessageRow.timestamp (w.db.tables.messages.filter fun r => r.between me other)
          n.toNat entries →
        Answered env w fd me rid (.get_conversation_history other n) (conversation_reply entries) →
        Chronological MessageRow.timestamp entries := by
  intro claim
  have hnewest := newest_order_by_desc_limit MessageRow.timestamp
    (two_messages.db.tables.messages.filter fun r => r.between 1 2) 50
  have hchrono := claim Env.calm two_messages 5 1 1 2 50 Env.calm_sqlSucceeds rfl (by decide) _ hnewest
    (conversation_answered 5 1 1 2 (by decide) Env.calm_sqlSucceeds rfl)
  rw [hnewest.chronological_iff (order_by_desc_limit_pairwise _ _ _)] at hchrono
  exact absurd hchrono (by decide)

end ChatApp
