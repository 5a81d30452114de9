/-
`ChatRepository.lean` -- what the client does with a message it received: `receiveMessage` and
`receiveHistoryMessage` of `data/repository/ChatRepository.kt`.

Both look up the latest stored row with the same text, compare its time with the time of the
message, and then insert the message, or mark the stored row, or do nothing. The look-up and the
change are two transactions. `settle` is the change as a function of the table, and each of the two
is the same function of what the look-up found.

A message that was received once is settled: whatever the look-up finds then, the change changes
nothing. That is what makes a second call harmless, even one whose look-up came before the first
call's change.
-/
import ChatApp.LocalDatabase

set_option autoImplicit false

namespace ChatApp.Room

/-! ## The time between two messages -/

/-- A `Long`. -/
def long (i : Int) : Int := Int.bmod i (2 ^ 64)

/-- `kotlin.math.abs` of a `Long`: the least one has no absolute value. -/
def abs_long (i : Int) : Int := if i < 0 then long (-i) else i

/-- `kotlin.math.abs(existing.timestamp - timestamp)`. -/
def diff (existing timestamp : Int) : Int := abs_long (long (existing - timestamp))

/-- `diff < 15000`. -/
def near (existing timestamp : Int) : Bool := diff existing timestamp < 15000

theorem diff_self (i : Int) : diff i i = 0 := by
  rw [diff, Int.sub_self]
  rfl

theorem near_self (i : Int) : near i i = true := by
  rw [near, diff_self]
  rfl

/-! ## The functions -/

/-- `existing.copy(isSent = true, isDelivered = true)`. -/
def Message.marked (m : Message) : Message := { m with isSent := true, isDelivered := true }

/-- What follows the look-up. -/
def dedupe (existing : Option Message) (message : Message) : Dao Unit :=
  match existing with
  | some existing =>
    if diff existing.timestamp message.timestamp < 15000 then
      if !existing.isDelivered || !existing.isSent then updateMessage existing.marked
      else pure ()
    else do
      let _ ← insertMessage message
      pure ()
  | none => do
    let _ ← insertMessage message
    pure ()

/-- A message that came from the server. -/
def received (senderId recipientId : Int) (groupId : Option Int) (content : Bytes) (timestamp : Int) : Message where
  senderId := senderId
  recipientId := recipientId
  groupId := groupId
  content := content
  timestamp := timestamp
  isSent := true
  isDelivered := true

/-- The group and the membership that a group message needs, where they are not there. -/
def ensure_membership (me groupId senderId : Int) : Dao Unit := do
  let existingGroup ← getGroup groupId
  if existingGroup.isNone then insertGroup ⟨groupId, str "Group " ++ to_string groupId, senderId, 1⟩
  let existingMember ← getMember groupId me
  if existingMember.isNone then insertMember ⟨groupId, me, str "Me", none, false⟩

/-- `receiveMessage`, where `me` is `networkManager.getUserId()`. -/
def receiveMessage (me senderId : Int) (content : Bytes) (timestamp : Int) (groupId recipientId : Option Int) :
    Dao Unit :=
  match groupId with
  | some groupId => do
    ensure_membership me groupId senderId
    let existing ← findLatestMatchingGroupMessage senderId groupId content
    dedupe existing (received senderId me (some groupId) content timestamp)
  | none => do
    let targetRecipient := recipientId.getD me
    let existing ← findLatestMatchingMessage senderId targetRecipient content
    dedupe existing (received senderId targetRecipient none content timestamp)

/-- `receiveHistoryMessage`. -/
def receiveHistoryMessage (senderId recipientId : Int) (content : Bytes) (timestamp : Int) : Dao Unit := do
  let existing ← findLatestMatchingMessage senderId recipientId content
  dedupe existing (received senderId recipientId none content timestamp)

/-! ## The change, as a function of the table -/

namespace Messages

/-- What `dedupe` does to the table. -/
def settle (existing : Option Message) (message : Message) (t : Messages) : Messages :=
  match existing with
  | some existing =>
    if near existing.timestamp message.timestamp then
      if !existing.isDelivered || !existing.isSent then t.updateMessage existing.marked else t
    else (t.insertMessage message).2
  | none => (t.insertMessage message).2

variable {t : Messages} {m e : Message} {p : Message → Bool}

/-- Marking a row changes that row and no other. -/
theorem updateMessage_marked (he : e ∈ t.rows) : (t.updateMessage e.marked).rows = replaced e.marked t.rows := by
  refine updateMessage_rows fun r hr hid => ?_
  rw [eq_of_id hr he hid]
  rfl

/-- Seen row by row: the row itself is marked. -/
theorem replaced_marked (he : e ∈ t.rows) :
    replaced e.marked t.rows = t.rows.map fun r => if r.id = e.id then r.marked else r := by
  refine List.map_congr_left fun r hr => ?_
  have hsame : e.marked.id = e.id := rfl
  rw [hsame]
  by_cases hid : r.id = e.id
  · rw [if_pos hid, if_pos hid, eq_of_id hr he hid]
  · rw [if_neg hid, if_neg hid]

/-- Whether a row matches does not depend on its flags. -/
def IgnoresFlags (p : Message → Bool) : Prop := ∀ r : Message, p r.marked = p r

/-- The latest row, after a row was marked. -/
theorem latest_marked (hp : IgnoresFlags p) (he : e ∈ t.rows) :
    (t.updateMessage e.marked).latest p
      = (t.latest p).map fun r => if r.id = e.id then r.marked else r := by
  rw [latest, updateMessage_marked he, replaced_marked he]
  refine maxOn_map (fun r => ?_) (fun r => ?_) t.rows
  · split <;> rfl
  · split
    · exact hp r
    · rfl

/-- Marking twice is marking once. -/
theorem updateMessage_twice (he : e ∈ t.rows) :
    (t.updateMessage e.marked).updateMessage e.marked = t.updateMessage e.marked := by
  have hagain : ∀ r ∈ (t.updateMessage e.marked).rows, r.id = e.marked.id → r = e.marked := by
    intro r hr hid
    rw [updateMessage_marked he] at hr
    obtain ⟨r₀, hr₀, rfl⟩ := List.mem_map.mp hr
    by_cases hid₀ : r₀.id = e.marked.id
    · rw [if_pos hid₀]
    · rw [if_neg hid₀] at hid
      exact absurd hid hid₀
  refine Messages.ext ?_ (by simp)
  rw [updateMessage_rows fun r hr hid => by rw [hagain r hr hid]]
  refine (List.map_congr_left fun r hr => ?_).trans (List.map_id _)
  by_cases hid : r.id = e.marked.id
  · rw [if_pos hid, hagain r hr hid]
    rfl
  · rw [if_neg hid]
    rfl

/-- A change is repeated: nothing happens. -/
theorem settle_late :
    settle (t.latest p) m (settle (t.latest p) m t) = settle (t.latest p) m t := by
  have hinsert : ((t.insertMessage m).2.insertMessage m).2 = (t.insertMessage m).2 :=
    insertMessage_stored stores_insertMessage
  cases hfound : t.latest p with
  | none => exact hinsert
  | some e =>
    rw [settle, settle]
    by_cases hnear : near e.timestamp m.timestamp = true
    · rw [if_pos hnear, if_pos hnear]
      by_cases hflags : (!e.isDelivered || !e.isSent) = true
      · rw [if_pos hflags, if_pos hflags]
        exact updateMessage_twice (latest_mem hfound).1
      · rw [if_neg hflags, if_neg hflags]
    · rw [if_neg hnear, if_neg hnear]
      exact hinsert

/-- **A message that was received is settled**: looked up again, it changes nothing. -/
theorem settle_again (hp : IgnoresFlags p) (hm : p { m with id := t.next } = true)
    (hsent : m.isSent = true) (hdelivered : m.isDelivered = true) :
    settle ((settle (t.latest p) m t).latest p) m (settle (t.latest p) m t) = settle (t.latest p) m t := by
  have hnothing : ∀ (t' : Messages) (r : Message), near r.timestamp m.timestamp = true →
      r.isSent = true → r.isDelivered = true → settle (some r) m t' = t' := by
    intro t' r hnear hs hd
    rw [settle, if_pos hnear, hs, hd]
    exact if_neg (by decide)
  -- an insert: the row found next is the new one, or one that is far, and then the index ignores the message
  have hinsert : (∀ r, t.latest p = some r → ¬near r.timestamp m.timestamp = true) →
      settle ((t.insertMessage m).2.latest p) m (t.insertMessage m).2 = (t.insertMessage m).2 := by
    intro hfar
    have hagain : ((t.insertMessage m).2.insertMessage m).2 = (t.insertMessage m).2 :=
      insertMessage_stored stores_insertMessage
    cases hstored : t.stores m with
    | true =>
      rw [insertMessage_stored hstored] at hagain ⊢
      cases hfound : t.latest p with
      | none => exact hagain
      | some r =>
        rw [settle, if_neg (hfar r hfound)]
        exact hagain
    | false =>
      rw [insertMessage_new hstored] at hagain ⊢
      rw [latest_append hstored hm]
      cases hfound : t.latest p with
      | none => exact hnothing _ _ (near_self _) hsent hdelivered
      | some r =>
        dsimp only
        by_cases hlt : r.timestamp < m.timestamp
        · rw [if_pos hlt]
          exact hnothing _ _ (near_self _) hsent hdelivered
        · rw [if_neg hlt, settle, if_neg (hfar r hfound)]
          exact hagain
  cases hfound : t.latest p with
  | none => exact hinsert fun r hr => by rw [hfound] at hr; cases hr
  | some e =>
    by_cases hnear : near e.timestamp m.timestamp = true
    · rw [settle, if_pos hnear]
      by_cases hflags : (!e.isDelivered || !e.isSent) = true
      · rw [if_pos hflags, latest_marked hp (latest_mem hfound).1, hfound, Option.map_some, if_pos rfl]
        exact hnothing _ _ hnear rfl rfl
      · rw [if_neg hflags, hfound, settle, if_pos hnear, if_neg hflags]
    · rw [settle, if_neg hnear]
      exact hinsert fun r hr => by rw [hfound] at hr; cases hr; exact hnear

end Messages

/-! ## The functions, run by themselves -/

section Run

variable {m : Message} {p : Message → Bool} {db : Database}

/-- A look-up and what follows it. -/
def settling (p : Message → Bool) (m : Message) : Dao Unit := do
  let existing ← query fun db => db.messages.latest p
  dedupe existing m

theorem dedupe_run (existing : Option Message) :
    ((dedupe existing m).run db).2 = { db with messages := db.messages.settle existing m } := by
  cases existing with
  | none => rfl
  | some e =>
    unfold dedupe Messages.settle near
    simp only [decide_eq_true_eq]
    split
    · split <;> rfl
    · rfl

theorem settling_run : ((settling p m).run db).2
    = { db with messages := db.messages.settle (db.messages.latest p) m } :=
  dedupe_run (db.messages.latest p)

/-- The transaction leaves `messages` alone. -/
def Transaction.elsewhere {β : Type} (o : Transaction β) : Prop := ∀ db, (o.exec db).2.messages = db.messages

/-- What a call of `receiveMessage` does before the look-up. -/
def before (me senderId : Int) (groupId : Option Int) : Dao Unit :=
  match groupId with
  | some groupId => ensure_membership me groupId senderId
  | none => pure ()

theorem before_elsewhere (me senderId : Int) (groupId : Option Int) :
    (before me senderId groupId).Always Transaction.elsewhere fun _ => True := by
  cases groupId with
  | none => trivial
  | some groupId =>
    have hmember : (do
        let existingMember ← getMember groupId me
        if existingMember.isNone then insertMember ⟨groupId, me, str "Me", none, false⟩ :
          Dao Unit).Always Transaction.elsewhere fun _ => True := by
      refine ⟨fun _ => rfl, fun existingMember => ?_⟩
      cases existingMember with
      | none => exact ⟨fun _ => rfl, fun _ => trivial⟩
      | some _ => trivial
    refine ⟨fun _ => rfl, fun existingGroup => ?_⟩
    cases existingGroup with
    | none => exact ⟨fun _ => rfl, fun _ => hmember⟩
    | some _ => exact hmember

end Run

section Receive

variable (me senderId : Int) (content : Bytes) (timestamp : Int) (groupId recipientId : Option Int)

/-- What the look-up of `receiveMessage` asks for. -/
def lookup : Message → Bool :=
  match groupId with
  | some groupId => Messages.matching_group senderId groupId content
  | none => Messages.matching senderId (recipientId.getD me) content

/-- The row that `receiveMessage` inserts, if it does. -/
def incoming : Message :=
  received senderId (if groupId.isSome then me else recipientId.getD me) groupId content timestamp

/-- The work on `messages` comes last. -/
theorem receiveMessage_eq : receiveMessage me senderId content timestamp groupId recipientId = (do
    before me senderId groupId
    settling (lookup me senderId content groupId recipientId)
      (incoming me senderId content timestamp groupId recipientId)) := by
  cases groupId with
  | none => rfl
  | some groupId => rfl

theorem lookup_ignores_flags : Messages.IgnoresFlags (lookup me senderId content groupId recipientId) := by
  intro r
  cases groupId with
  | none => rfl
  | some groupId => rfl

/-- The look-up would find the row that is inserted. -/
theorem lookup_incoming (id : Int) : lookup me senderId content groupId recipientId
    { incoming me senderId content timestamp groupId recipientId with id := id } = true := by
  cases groupId with
  | none => simp [lookup, incoming, received, Messages.matching]
  | some groupId => simp [lookup, incoming, received, Messages.matching_group]

/-- **One call**: the table is settled with what the look-up finds in it. -/
theorem receiveMessage_run (db : Database) :
    ((receiveMessage me senderId content timestamp groupId recipientId).run db).2.messages
      = db.messages.settle (db.messages.latest (lookup me senderId content groupId recipientId))
          (incoming me senderId content timestamp groupId recipientId) := by
  have hbefore : ((before me senderId groupId).run db).2.messages = db.messages :=
    ((before_elsewhere me senderId groupId).run (I := fun db' => db'.messages = db.messages)
      (fun o db' ho h => (ho db').trans h) rfl).2
  have hsettling : ∀ db' : Database, ((settling (lookup me senderId content groupId recipientId)
      (incoming me senderId content timestamp groupId recipientId)).run db').2.messages = _ := fun db' =>
    congrArg Database.messages settling_run
  rw [receiveMessage_eq, Dao.run, Program.run_bind]
  refine (hsettling ((before me senderId groupId).run db).2).trans ?_
  rw [hbefore]

end Receive

/-! ## Whether the message is there -/

namespace Messages

/-- The message is inserted: the row that was found is not near, and no row has the same indexed values. -/
def Admits (p : Message → Bool) (m : Message) (t : Messages) : Prop :=
  (∀ e, t.latest p = some e → near e.timestamp m.timestamp = false) ∧ t.stores m = false

variable {p : Message → Bool} {m : Message} {t : Messages}

/-- Which rows there are after a call, ids and flags aside. -/
theorem exists_settle {P : Message → Prop} (hid : ∀ r i, P { r with id := i } ↔ P r)
    (hflags : ∀ r : Message, P r.marked ↔ P r) :
    (∃ r ∈ (t.settle (t.latest p) m).rows, P r) ↔ (∃ r ∈ t.rows, P r) ∨ (t.Admits p m ∧ P m) := by
  have hinsert : (∀ e, t.latest p = some e → near e.timestamp m.timestamp = false) →
      ((∃ r ∈ (t.insertMessage m).2.rows, P r) ↔ (∃ r ∈ t.rows, P r) ∨ (t.Admits p m ∧ P m)) := by
    intro hfar
    cases hstored : t.stores m with
    | true =>
      rw [insertMessage_stored hstored, or_iff_left]
      intro h
      rw [h.1.2] at hstored
      cases hstored
    | false =>
      have hadmits : t.Admits p m := ⟨hfar, hstored⟩
      rw [insertMessage_new hstored, and_iff_right hadmits]
      constructor
      · rintro ⟨r, hr, hP⟩
        rcases List.mem_append.mp hr with hr | hr
        · exact .inl ⟨r, hr, hP⟩
        · rw [List.mem_singleton.mp hr, hid] at hP
          exact .inr hP
      · rintro (⟨r, hr, hP⟩ | hP)
        · exact ⟨r, List.mem_append_left _ hr, hP⟩
        · exact ⟨_, List.mem_append_right _ (List.mem_singleton_self _), (hid _ _).mpr hP⟩
  cases hfound : t.latest p with
  | none => exact hinsert fun e he => by rw [hfound] at he; cases he
  | some e =>
    by_cases hnear : near e.timestamp m.timestamp = true
    · have hrefused : ¬(t.Admits p m ∧ P m) := by
        intro h
        rw [h.1.1 e hfound] at hnear
        cases hnear
      rw [settle, if_pos hnear, or_iff_left hrefused]
      by_cases hflag : (!e.isDelivered || !e.isSent) = true
      · have he := (latest_mem hfound).1
        rw [if_pos hflag, updateMessage_marked he, replaced_marked he]
        constructor
        · rintro ⟨r, hr, hP⟩
          obtain ⟨r₀, hr₀, rfl⟩ := List.mem_map.mp hr
          refine ⟨r₀, hr₀, ?_⟩
          split at hP
          · exact (hflags r₀).mp hP
          · exact hP
        · rintro ⟨r, hr, hP⟩
          refine ⟨_, List.mem_map_of_mem hr, ?_⟩
          split
          · exact (hflags r).mpr hP
          · exact hP
      · rw [if_neg hflag]
    · rw [settle, if_neg hnear]
      exact hinsert fun e' he' => by rw [hfound] at he'; cases he'; exact Bool.not_eq_true _ ▸ hnear

end Messages

section Shown

variable (me senderId : Int) (content : Bytes) (timestamp : Int) (groupId : Option Int)

/-- The rows of the conversation a message belongs to, as `getConversationMessages` and
`getGroupMessages` select them. -/
def InConversation (r : Message) : Prop :=
  match groupId with
  | some groupId => r.groupId = some groupId
  | none => ((r.senderId = me ∧ r.recipientId = senderId) ∨ (r.senderId = senderId ∧ r.recipientId = me)) ∧
    r.groupId = none

/-- The conversation has a row with this sender and content of about that time. -/
def Shown (t : Messages) : Prop :=
  ∃ r ∈ t.rows, InConversation me senderId groupId r ∧ r.senderId = senderId ∧ r.content = content ∧
    |r.timestamp - timestamp| < 15000

/-- **When a received message shows up**: if its conversation shows it already, or if the latest row that
the look-up finds, in whatever conversation, is not near and no row, in whatever conversation, has the same
sender, recipient, time and content. -/
theorem shown_iff (db : Database) : Shown me senderId content timestamp groupId
    ((receiveMessage me senderId content timestamp groupId none).run db).2.messages ↔
      Shown me senderId content timestamp groupId db.messages ∨
      db.messages.Admits (lookup me senderId content groupId none)
        (incoming me senderId content timestamp groupId none) := by
  have hincoming : InConversation me senderId groupId (incoming me senderId content timestamp groupId none) := by
    cases groupId with
    | none => exact ⟨.inr ⟨rfl, rfl⟩, rfl⟩
    | some groupId => rfl
  have hclose : |timestamp - timestamp| < 15000 := by
    rw [Int.sub_self]
    decide
  rw [receiveMessage_run, Shown, Messages.exists_settle, and_iff_left]
  · rfl
  · exact ⟨hincoming, rfl, rfl, hclose⟩
  · intro r i
    cases groupId with
    | none => rfl
    | some groupId => rfl
  · intro r
    cases groupId with
    | none => rfl
    | some groupId => rfl

end Shown

/-- **A message may be dropped**: user 2 writes the same word to a group and to the user. -/
theorem direct_dropped : ¬∀ me senderId content timestamp groupId (db : Database),
    Shown me senderId content timestamp groupId
      ((receiveMessage me senderId content timestamp groupId none).run db).2.messages := by
  intro claim
  have hrows : ((receiveMessage 1 2 (str "ok") 1000500 none none).run
      ((receiveMessage 1 2 (str "ok") 1000000 (some 7) none).run {}).2).2.messages.rows
        = [{ received 2 1 (some 7) (str "ok") 1000000 with id := 1 }] := by decide
  obtain ⟨r, hr, hconversation, -⟩ := claim 1 2 (str "ok") 1000500 none
    ((receiveMessage 1 2 (str "ok") 1000000 (some 7) none).run {}).2
  rw [hrows, List.mem_singleton] at hr
  rw [hr] at hconversation
  cases hconversation.2

/-! ## Two calls -/

section Twice

variable {p : Message → Bool} {m : Message} {t : Messages}

/-- A call that has not looked up yet. -/
inductive Pending (p : Message → Bool) (m : Message) : Dao Unit → Prop
  | look : Pending p m (settling p m)
  | elsewhere {β : Type} (o : Transaction β) (k : β → Dao Unit) (aside : o.elsewhere)
    (rest : ∀ b, Pending p m (k b)) : Pending p m (.op o k)

theorem pending_of_before {q : Dao Unit} (hq : q.Always Transaction.elsewhere fun _ => True) :
    Pending p m (q >>= fun _ => settling p m) := by
  induction q with
  | pure a => exact .look
  | op o k ih => exact .elsewhere o _ hq.1 fun b => ih b (hq.2 b)

/-- What is left of a call while the table is `t`, as it was at the start. -/
def Early (p : Message → Bool) (m : Message) (t : Messages) (q : Dao Unit) : Prop :=
  Pending p m q ∨ q = dedupe (t.latest p) m

/-- What is left of a call once the table is settled. -/
def Late (p : Message → Bool) (m : Message) (t : Messages) (q : Dao Unit) : Prop :=
  Early p m t q ∨ q = dedupe ((t.settle (t.latest p) m).latest p) m ∨ q = pure ()

/-- After the look-up there is one transaction at most. -/
theorem dedupe_op {existing : Option Message} {β : Type} {o : Transaction β} {k : β → Dao Unit}
    (h : dedupe existing m = .op o k) :
    (∀ db, (o.exec db).2.messages = db.messages.settle existing m) ∧ ∀ b, k b = pure () := by
  cases existing with
  | none =>
    cases h
    exact ⟨fun _ => rfl, fun _ => rfl⟩
  | some e =>
    have hnear : near e.timestamp m.timestamp = decide (diff e.timestamp m.timestamp < 15000) := rfl
    unfold dedupe at h
    dsimp only at h
    by_cases hdiff : diff e.timestamp m.timestamp < 15000
    · rw [if_pos hdiff] at h
      by_cases hflags : (!e.isDelivered || !e.isSent) = true
      · rw [if_pos hflags] at h
        cases h
        refine ⟨fun db => ?_, fun _ => rfl⟩
        rw [Messages.settle, hnear, if_pos (decide_eq_true hdiff), if_pos hflags]
        rfl
      · rw [if_neg hflags] at h
        cases h
    · rw [if_neg hdiff] at h
      cases h
      refine ⟨fun db => ?_, fun _ => rfl⟩
      rw [Messages.settle, hnear, if_neg (by simpa using hdiff)]
      rfl

/-- An operation of a call that finds the table as it was: either it goes on as it was, or this was the
change. -/
theorem early_step {β : Type} {o : Transaction β} {k : β → Dao Unit} (h : Early p m t (.op o k))
    {db : Database} (hdb : db.messages = t) :
    ((o.exec db).2.messages = t ∧ Early p m t (k (o.exec db).1)) ∨
      ((o.exec db).2.messages = t.settle (t.latest p) m ∧ k (o.exec db).1 = pure ()) := by
  rcases h with hpending | hdedupe
  · left
    generalize hq : Program.op o k = q at hpending
    cases hpending with
    | look =>
      cases hq
      refine ⟨hdb, .inr ?_⟩
      rw [← hdb]
      rfl
    | elsewhere o' k' aside rest =>
      cases hq
      exact ⟨(aside db).trans hdb, .inl (rest _)⟩
  · right
    obtain ⟨hexec, hk⟩ := dedupe_op hdedupe.symm
    refine ⟨?_, hk _⟩
    rw [hexec db, hdb]

/-- An operation of a call that finds the table settled leaves it so. -/
theorem late_step (hp : Messages.IgnoresFlags p) (hm : ∀ id, p { m with id := id } = true)
    (hsent : m.isSent = true) (hdelivered : m.isDelivered = true)
    {β : Type} {o : Transaction β} {k : β → Dao Unit} (h : Late p m t (.op o k)) {db : Database}
    (hdb : db.messages = t.settle (t.latest p) m) :
    (o.exec db).2.messages = t.settle (t.latest p) m ∧ Late p m t (k (o.exec db).1) := by
  have hdone : ∀ existing, (t.settle (t.latest p) m).settle existing m = t.settle (t.latest p) m →
      Program.op o k = dedupe existing m →
      (o.exec db).2.messages = t.settle (t.latest p) m ∧ Late p m t (k (o.exec db).1) := by
    intro existing hsettled hq
    obtain ⟨hexec, hk⟩ := dedupe_op hq.symm
    refine ⟨?_, .inr (.inr (hk _))⟩
    rw [hexec db, hdb, hsettled]
  rcases h with (hpending | hq) | hq | hq
  · generalize hq : Program.op o k = q at hpending
    cases hpending with
    | look =>
      cases hq
      refine ⟨hdb, .inr (.inl ?_)⟩
      rw [← hdb]
      rfl
    | elsewhere o' k' aside rest =>
      cases hq
      exact ⟨(aside db).trans hdb, .inl (.inl (rest _))⟩
  · exact hdone _ Messages.settle_late hq
  · exact hdone _ (Messages.settle_again hp (hm _) hsent hdelivered) hq
  · cases hq

/-- **Two calls, in whatever order their transactions come**, leave the table as one call does. -/
theorem interleaved_calls (hp : Messages.IgnoresFlags p) (hm : ∀ id, p { m with id := id } = true)
    (hsent : m.isSent = true) (hdelivered : m.isDelivered = true) (turns : List Bool) {q q' : Dao Unit}
    (hq : Pending p m q) (hq' : Pending p m q') (db : Database) :
    (Program.interleave Transaction.exec turns q q' db).messages
      = db.messages.settle (db.messages.latest p) m := by
  have hlate : ∀ {q t}, Early p m t q → Late p m t q := fun h => .inl h
  refine Program.interleave_invariant (I := fun q q' (db' : Database) =>
    (db'.messages = db.messages ∧ Early p m db.messages q ∧ Early p m db.messages q') ∨
    (db'.messages = db.messages.settle (db.messages.latest p) m ∧ Late p m db.messages q ∧
      Late p m db.messages q'))
    (Q := fun db' => db'.messages = db.messages.settle (db.messages.latest p) m) turns
    (.inl ⟨rfl, .inl hq, .inl hq'⟩) ?left ?right ?done
  case left =>
    intro γ o k q db' hI
    rcases hI with ⟨hdb, hq, hq'⟩ | ⟨hdb, hq, hq'⟩
    · rcases early_step hq hdb with ⟨hsame, hearly⟩ | ⟨hsettled, hk⟩
      · exact .inl ⟨hsame, hearly, hq'⟩
      · exact .inr ⟨hsettled, .inr (.inr hk), hlate hq'⟩
    · obtain ⟨hsettled, hk⟩ := late_step hp hm hsent hdelivered hq hdb
      exact .inr ⟨hsettled, hk, hq'⟩
  case right =>
    intro γ o q k db' hI
    rcases hI with ⟨hdb, hq, hq'⟩ | ⟨hdb, hq, hq'⟩
    · rcases early_step hq' hdb with ⟨hsame, hearly⟩ | ⟨hsettled, hk⟩
      · exact .inl ⟨hsame, hq, hearly⟩
      · exact .inr ⟨hsettled, hlate hq, .inr (.inr hk)⟩
    · obtain ⟨hsettled, hk⟩ := late_step hp hm hsent hdelivered hq' hdb
      exact .inr ⟨hsettled, hq, hk⟩
  case done =>
    intro a b db' hI
    rcases hI with ⟨hdb, hq, -⟩ | ⟨hdb, -⟩
    · -- both returned and nobody changed anything: there was nothing to change
      rcases hq with hpending | hdedupe
      · generalize hpure : Program.pure a = q at hpending
        cases hpending with
        | look => cases hpure
        | elsewhere => cases hpure
      · have hrun : ((dedupe (db.messages.latest p) m).run db').2 = _ := dedupe_run _
        rw [← hdedupe] at hrun
        have hnothing := congrArg Database.messages hrun
        rw [hdb]
        exact hdb.symm.trans (hnothing.trans (by rw [hdb]))
    · exact hdb

end Twice

section Receive

variable (me senderId : Int) (content : Bytes) (timestamp : Int) (groupId recipientId : Option Int)

theorem receiveMessage_pending : Pending (lookup me senderId content groupId recipientId)
    (incoming me senderId content timestamp groupId recipientId)
    (receiveMessage me senderId content timestamp groupId recipientId) := by
  rw [receiveMessage_eq]
  exact pending_of_before (before_elsewhere me senderId groupId)

/-- **Receiving twice is receiving once**, however the transactions of the two calls interleave. -/
theorem received_twice (turns : List Bool) (db : Database) : Messages.SameRows
    (Program.interleave Transaction.exec turns
      (receiveMessage me senderId content timestamp groupId recipientId)
      (receiveMessage me senderId content timestamp groupId recipientId) db).messages
    ((receiveMessage me senderId content timestamp groupId recipientId).run db).2.messages := by
  have hpending := receiveMessage_pending me senderId content timestamp groupId recipientId
  rw [receiveMessage_run, interleaved_calls (lookup_ignores_flags me senderId content groupId recipientId)
    (lookup_incoming me senderId content timestamp groupId recipientId) rfl rfl turns hpending hpending db]
  exact List.Perm.refl _

end Receive

end ChatApp.Room
