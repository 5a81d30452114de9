/-
`LoadHistory.lean` -- what loading a history does to the messages that are stored already:
`handleConversationHistory` of `ui/activity/ChatActivity.kt`.

The handler launches one call of `receiveHistoryMessage` for each message of the reply, and the calls
come in any order. Each compares its message with the latest stored row of the same text only, so what
an earlier call inserted hides the rows behind it. `Admits` says of one message and one table that the
message is inserted; whether it still is after others were loaded is what the order decides.
-/
import ChatApp.ChatRepository
import ChatApp.Utils

set_option autoImplicit false

namespace ChatApp.Room

/-- One message of a history reply. -/
structure HistoryMessage where
  senderId : Int
  recipientId : Int
  content : Bytes
  timestamp : Int
  deriving DecidableEq

namespace HistoryMessage

variable (h : HistoryMessage)

/-- What the look-up for the message asks for. -/
def matching : Message → Bool := Messages.matching h.senderId h.recipientId h.content

/-- The row that is inserted for it. -/
def row : Message := received h.senderId h.recipientId none h.content h.timestamp

/-- The call that `handleConversationHistory` launches for it. -/
def receive : Dao Unit := receiveHistoryMessage h.senderId h.recipientId h.content h.timestamp

/-- Who wrote what to whom. -/
def text : Int × Int × Bytes := (h.senderId, h.recipientId, h.content)

end HistoryMessage

/-- The messages for which `handleConversationHistory` launches a call. -/
def handleConversationHistory (payload : Bytes) : List HistoryMessage :=
  let kv := pairs payload
  let count := ((kv.find? (str "count")).bind toIntOrNull).getD 0
  (List.range count.toNat).filterMap fun i => do
    let fromUserId ← (kv.find? (key "from" i)).bind toIntOrNull
    let toUserId ← (kv.find? (key "to" i)).bind toIntOrNull
    let content ← kv.find? (key "content" i)
    let timestamp ← (kv.find? (key "timestamp" i)).bind toLongOrNull
    return ⟨fromUserId, toUserId, content, timestamp⟩

/-- The calls one after the other, in the order of the list. -/
def loadHistory (history : List HistoryMessage) (db : Database) : Database :=
  history.foldl (fun db h => (h.receive.run db).2) db

namespace Messages

/-- What one call does to the table. -/
def load (t : Messages) (h : HistoryMessage) : Messages := t.settle (t.latest h.matching) h.row

/-- The message is inserted if it comes next. -/
abbrev Inserts (t : Messages) (h : HistoryMessage) : Prop := t.Admits h.matching h.row

end Messages

theorem receive_run (h : HistoryMessage) (db : Database) :
    (h.receive.run db).2.messages = db.messages.load h := by
  have hrun : ((settling h.matching h.row).run db).2 = _ := settling_run
  exact congrArg Database.messages hrun

theorem loadHistory_messages (history : List HistoryMessage) (db : Database) :
    (loadHistory history db).messages = history.foldl Messages.load db.messages := by
  induction history generalizing db with
  | nil => rfl
  | cons h rest ih =>
    rw [List.foldl_cons, ← receive_run]
    exact ih _

/-! ## What one call does -/

namespace Messages

variable {t t' : Messages} {h : HistoryMessage} {e : Message}

/-- The same rows with the same ids, up to the flags `isSent` and `isDelivered`. -/
def OnlyFlags (t t' : Messages) : Prop := t'.rows.map Message.marked = t.rows.map Message.marked

/-- A message that is not inserted marks the row that was found, or changes nothing. -/
theorem load_of_not_inserts (hno : ¬t.Inserts h) : t.load h = t ∨
    ∃ e, t.latest h.matching = some e ∧ near e.timestamp h.timestamp = true ∧
      t.load h = t.updateMessage e.marked := by
  have hinsert : (∀ e, t.latest h.matching = some e → near e.timestamp h.timestamp = false) →
      (t.insertMessage h.row).2 = t := by
    intro hfar
    refine insertMessage_stored ?_
    by_contra hstored
    exact hno ⟨hfar, Bool.not_eq_true _ ▸ hstored⟩
  rw [load]
  cases hfound : t.latest h.matching with
  | none => exact .inl (hinsert fun e he => by rw [hfound] at he; cases he)
  | some e =>
    rw [settle]
    by_cases hnear : near e.timestamp h.row.timestamp = true
    · rw [if_pos hnear]
      by_cases hflags : (!e.isDelivered || !e.isSent) = true
      · rw [if_pos hflags]
        exact .inr ⟨e, rfl, hnear, rfl⟩
      · rw [if_neg hflags]
        exact .inl rfl
    · rw [if_neg hnear]
      refine .inl (hinsert fun e' he' => ?_)
      rw [hfound] at he'
      cases he'
      exact Bool.not_eq_true _ ▸ hnear

/-- A message that is inserted is a row more. -/
theorem load_of_inserts (hyes : t.Inserts h) : t.load h = t.append h.row hyes.2 := by
  refine Eq.trans ?_ (insertMessage_new hyes.2)
  obtain ⟨hfar, -⟩ := hyes
  rw [load]
  cases hfound : t.latest h.matching with
  | none => rfl
  | some e => rw [settle, if_neg (by rw [hfar e hfound]; decide)]

theorem onlyFlags_of_not_inserts (hno : ¬t.Inserts h) : OnlyFlags t (t.load h) := by
  rcases load_of_not_inserts hno with heq | ⟨e, hfound, -, heq⟩
  · rw [heq]
    rfl
  · rw [heq, OnlyFlags, updateMessage_marked (latest_mem hfound).1, replaced_marked (latest_mem hfound).1,
      List.map_map]
    refine List.map_congr_left fun r _ => ?_
    rw [Function.comp_apply]
    split <;> rfl

theorem stores_of_onlyFlags (hflags : OnlyFlags t t') {m : Message} : t'.stores m = t.stores m := by
  have hstores : ∀ t : Messages, t.stores m
      = (t.rows.map Message.marked).any fun r => r.indexed = m.indexed := by
    intro t
    rw [List.any_map]
    rfl
  rw [hstores t', hstores t, hflags]

/-- Whether a message is inserted does not depend on the flags. -/
theorem inserts_of_onlyFlags (hflags : OnlyFlags t t') : t'.Inserts h ↔ t.Inserts h := by
  have hlatest : ∀ t : Messages, (t.latest h.matching).map Message.marked
      = ((t.rows.map Message.marked).filter h.matching).maxOn? Message.timestamp := fun t =>
    (maxOn_map (g := Message.marked) (fun _ => rfl) (fun _ => rfl) t.rows).symm
  have hsame : (t'.latest h.matching).map Message.marked = (t.latest h.matching).map Message.marked := by
    rw [hlatest, hlatest, hflags]
  have hfar : ∀ t : Messages, (∀ e, t.latest h.matching = some e → near e.timestamp h.row.timestamp = false) ↔
      ∀ e, (t.latest h.matching).map Message.marked = some e → near e.timestamp h.row.timestamp = false := by
    intro t
    constructor
    · intro hfar e he
      obtain ⟨e₀, he₀, rfl⟩ := Option.map_eq_some_iff.mp he
      exact hfar e₀ he₀
    · intro hfar e he
      exact hfar e.marked (by rw [he, Option.map_some])
  rw [Inserts, Inserts, Admits, Admits, hfar t', hfar t, hsame, stores_of_onlyFlags hflags]

end Messages

/-! ## Loading what is stored already -/

section Unduplicated

variable {t : Messages} {history : List HistoryMessage}

/-- Loading never removes a row. -/
theorem length_load (history : List HistoryMessage) (t : Messages) :
    t.rows.length ≤ (history.foldl Messages.load t).rows.length := by
  induction history generalizing t with
  | nil => exact Nat.le_refl _
  | cons h rest ih =>
    refine Nat.le_trans ?_ (ih _)
    by_cases hyes : t.Inserts h
    · rw [Messages.load_of_inserts hyes, Messages.append, List.length_append]
      omega
    · have hflags := congrArg List.length (Messages.onlyFlags_of_not_inserts hyes)
      rw [List.length_map, List.length_map] at hflags
      omega

theorem onlyFlags_load (hno : ∀ h ∈ history, ¬t.Inserts h) :
    Messages.OnlyFlags t (history.foldl Messages.load t) := by
  induction history generalizing t with
  | nil => rfl
  | cons h rest ih =>
    have hstep := Messages.onlyFlags_of_not_inserts (hno h List.mem_cons_self)
    refine (ih fun h' hh' hyes => ?_).trans hstep
    exact hno h' (List.mem_cons_of_mem h hh') ((Messages.inserts_of_onlyFlags hstep).mp hyes)

/-- The history of a conversation is stored: of each of its messages there is a copy of about that time. -/
def Stored (t : Messages) (history : List HistoryMessage) : Prop :=
  ∀ h ∈ history, ∃ r ∈ t.rows, r.groupId = none ∧ r.senderId = h.senderId ∧ r.recipientId = h.recipientId ∧
    r.content = h.content ∧ |r.timestamp - h.timestamp| < 15000

/-- **When loading a history changes nothing but flags**, in whatever order: if no message of it would be
inserted by itself. -/
theorem history_unduplicated_iff (db : Database) (history : List HistoryMessage) :
    (∀ history', history.Perm history' →
      Messages.OnlyFlags db.messages (loadHistory history' db).messages) ↔
    ∀ h ∈ history, ¬db.messages.Inserts h := by
  constructor
  · intro hall h hh hyes
    have hflags := hall _ (List.perm_cons_erase hh)
    rw [loadHistory_messages, List.foldl_cons, Messages.load_of_inserts hyes] at hflags
    have hlength := congrArg List.length hflags
    have hmore := length_load (history.erase h) (db.messages.append h.row hyes.2)
    rw [List.length_map, List.length_map] at hlength
    rw [hlength, Messages.append, List.length_append, List.length_singleton] at hmore
    omega
  · intro hno history' hperm
    rw [loadHistory_messages]
    exact onlyFlags_load fun h hh => hno h (hperm.mem_iff.mpr hh)

/-- **A stored message is duplicated**: the user wrote the same word twice, 100 seconds apart, and the
server's copy of the first is half a second away from the phone's. -/
theorem history_duplicated : ¬∀ (db : Database) history, Stored db.messages history →
    ∀ history', history.Perm history' →
      Messages.OnlyFlags db.messages (loadHistory history' db).messages := by
  intro claim
  have hstored : Stored (loadHistory [⟨1, 2, str "ok", 1000500⟩, ⟨1, 2, str "ok", 1100500⟩] {}).messages
      [⟨1, 2, str "ok", 1000000⟩] := by
    intro h hh
    rw [List.mem_singleton.mp hh]
    refine ⟨{ received 1 2 none (str "ok") 1000500 with id := 1 }, by decide, rfl, rfl, rfl, rfl, by decide⟩
  have hflags := claim _ _ hstored _ (List.Perm.refl _)
  have hlength := congrArg List.length hflags
  rw [List.length_map, List.length_map] at hlength
  revert hlength
  decide

end Unduplicated

/-! ## Rows without their ids -/

/-- The text of a row. -/
def Message.text (r : Message) : Int × Int × Bytes := (r.senderId, r.recipientId, r.content)

/-- A row up to its id. -/
def Message.anonymous (r : Message) : Message := { r with id := 0 }

theorem indexed_of_anonymous {r r' : Message} (h : r.anonymous = r'.anonymous) : r.indexed = r'.indexed := by
  have hindexed : r.anonymous.indexed = r'.anonymous.indexed := congrArg Message.indexed h
  exact hindexed

theorem matching_iff {h : HistoryMessage} {r : Message} : h.matching r = true ↔ r.text = h.text := by
  simp [HistoryMessage.matching, Messages.matching, Message.text, HistoryMessage.text, and_assoc]

theorem matching_of_text {x y : HistoryMessage} (h : x.text = y.text) : x.matching = y.matching := by
  funext r
  rw [Bool.eq_iff_iff, matching_iff, matching_iff, h]

theorem indexed_iff {r r' : Message} :
    r.indexed = r'.indexed ↔ r.text = r'.text ∧ r.timestamp = r'.timestamp := by
  simp only [Message.indexed, Message.text, Prod.mk.injEq]
  tauto

/-- A message is its text and its time. -/
theorem history_ext {x y : HistoryMessage} (htext : x.text = y.text) (htime : x.timestamp = y.timestamp) :
    x = y := by
  obtain ⟨sender, recipient, content, timestamp⟩ := x
  simp only [HistoryMessage.text, Prod.mk.injEq] at htext
  obtain ⟨rfl, rfl, rfl⟩ := htext
  rw [show timestamp = y.timestamp from htime]

theorem eq_of_row_indexed {x y : HistoryMessage} (h : x.row.indexed = y.row.indexed) : x = y := by
  obtain ⟨htext, htime⟩ := indexed_iff.mp h
  exact history_ext htext htime

namespace Messages

variable {t t' : Messages} {r e : Message}

/-- The table has this row, under some id. -/
def Has (t : Messages) (r : Message) : Prop := ∃ r' ∈ t.rows, r'.anonymous = r

theorem has_anonymous (hr : r ∈ t.rows) : t.Has r.anonymous := ⟨r, hr, rfl⟩

/-- Rows with the same indexed values are the same row. -/
theorem has_unique {r' : Message} (hr : t.Has r) (hr' : t.Has r') (h : r.indexed = r'.indexed) : r = r' := by
  obtain ⟨s, hs, rfl⟩ := hr
  obtain ⟨s', hs', rfl⟩ := hr'
  rw [eq_of_indexed hs hs' h]

theorem stores_iff_has {m : Message} : t.stores m = true ↔ ∃ r, t.Has r ∧ r.indexed = m.indexed := by
  rw [stores_iff]
  constructor
  · rintro ⟨r, hr, hindexed⟩
    exact ⟨_, has_anonymous hr, hindexed⟩
  · rintro ⟨r, ⟨r', hr', rfl⟩, hindexed⟩
    exact ⟨r', hr', hindexed⟩

theorem sameRows_iff : SameRows t t' ↔ ∀ r, t.Has r ↔ t'.Has r := by
  have hnodup : ∀ t : Messages, (t.rows.map Message.anonymous).Nodup := by
    intro t
    refine List.Nodup.of_map Message.indexed ?_
    rw [List.map_map]
    exact t.unique
  refine (List.perm_ext_iff_of_nodup (hnodup t) (hnodup t')).trans ?_
  refine forall_congr' fun r => ?_
  rw [List.mem_map, List.mem_map]
  rfl

theorem has_append {m : Message} (h : t.stores m = false) :
    (t.append m h).Has r ↔ t.Has r ∨ r = m.anonymous := by
  constructor
  · rintro ⟨r', hr', rfl⟩
    rcases List.mem_append.mp hr' with hr' | hr'
    · exact .inl ⟨r', hr', rfl⟩
    · rw [List.mem_singleton.mp hr']
      exact .inr rfl
  · rintro (⟨r', hr', rfl⟩ | rfl)
    · exact ⟨r', List.mem_append_left _ hr', rfl⟩
    · exact ⟨_, List.mem_append_right _ (List.mem_singleton_self _), rfl⟩

theorem has_marked (he : e ∈ t.rows) : (t.updateMessage e.marked).Has r ↔
    (t.Has r ∧ r ≠ e.anonymous) ∨ r = e.marked.anonymous := by
  rw [Has, updateMessage_marked he, replaced_marked he]
  constructor
  · rintro ⟨r', hr', rfl⟩
    obtain ⟨r₀, hr₀, rfl⟩ := List.mem_map.mp hr'
    by_cases hid : r₀.id = e.id
    · rw [if_pos hid, eq_of_id hr₀ he hid]
      exact .inr rfl
    · rw [if_neg hid]
      refine .inl ⟨⟨r₀, hr₀, rfl⟩, fun heq => hid ?_⟩
      rw [eq_of_indexed hr₀ he (indexed_of_anonymous heq)]
  · rintro (⟨⟨r₀, hr₀, rfl⟩, hne⟩ | rfl)
    · refine ⟨_, List.mem_map_of_mem hr₀, ?_⟩
      by_cases hid : r₀.id = e.id
      · rw [eq_of_id hr₀ he hid] at hne
        exact absurd rfl hne
      · rw [if_neg hid]
    · exact ⟨_, List.mem_map_of_mem he, by rw [if_pos rfl]⟩

end Messages

/-! ## What is left of a table -/

section Represents

variable {t s : Messages} {P : List HistoryMessage} {x y : HistoryMessage} {r e : Message}

/-- One of the messages is near the row `e`, which is the latest of its text. -/
def Touched (t : Messages) (P : List HistoryMessage) (e : Message) : Prop :=
  ∃ x ∈ P, t.latest x.matching = some e ∧ near e.timestamp x.timestamp = true

/-- The rows of `t` after the messages of `P` were loaded, if their order does not matter: each message
is inserted or not as if it came first, and each row is marked if a message finds it. -/
def After (t : Messages) (P : List HistoryMessage) (r : Message) : Prop :=
  (∃ e ∈ t.rows, (Touched t P e ∧ r = e.marked.anonymous) ∨ (¬Touched t P e ∧ r = e.anonymous)) ∨
    ∃ x ∈ P, t.Inserts x ∧ r = x.row

/-- `s` has those rows. -/
def Represents (t : Messages) (P : List HistoryMessage) (s : Messages) : Prop := ∀ r, s.Has r ↔ After t P r

/-- The message is inserted above the rows of its text. -/
def Rises (t : Messages) (y : HistoryMessage) : Prop :=
  t.Inserts y ∧ ∀ e, t.latest y.matching = some e → e.timestamp < y.timestamp

/-- Where a row comes from. -/
theorem after_cases (h : After t P r) :
    (∃ e ∈ t.rows, r.text = e.text ∧ r.timestamp = e.timestamp ∧
      (r = e.marked.anonymous ∨ r = e.anonymous)) ∨ ∃ x ∈ P, t.Inserts x ∧ r = x.row := by
  rcases h with ⟨e, he, ⟨-, rfl⟩ | ⟨-, rfl⟩⟩ | hx
  · exact .inl ⟨e, he, rfl, rfl, .inl rfl⟩
  · exact .inl ⟨e, he, rfl, rfl, .inr rfl⟩
  · exact .inr hx

/-- A row of `t` is still there, marked if a message finds it. -/
theorem row_after (hrep : Represents t P s) (he : e ∈ t.rows) :
    ∃ r ∈ s.rows, (Touched t P e ∧ r.anonymous = e.marked.anonymous) ∨
      (¬Touched t P e ∧ r.anonymous = e.anonymous) := by
  by_cases htouched : Touched t P e
  · obtain ⟨r, hr, hrow⟩ := (hrep _).mpr (.inl ⟨e, he, .inl ⟨htouched, rfl⟩⟩)
    exact ⟨r, hr, .inl ⟨htouched, hrow⟩⟩
  · obtain ⟨r, hr, hrow⟩ := (hrep _).mpr (.inl ⟨e, he, .inr ⟨htouched, rfl⟩⟩)
    exact ⟨r, hr, .inr ⟨htouched, hrow⟩⟩

theorem after_stores (hrep : Represents t P s) {m : Message} : s.stores m = true ↔
    t.stores m = true ∨ ∃ x ∈ P, t.Inserts x ∧ x.row.indexed = m.indexed := by
  rw [Messages.stores_iff_has]
  constructor
  · rintro ⟨r, hr, hindexed⟩
    rcases after_cases ((hrep r).mp hr) with ⟨e, he, htext, htime, -⟩ | ⟨x, hx, hyes, rfl⟩
    · have hsame : e.indexed = r.indexed := indexed_iff.mpr ⟨htext.symm, htime.symm⟩
      exact .inl (Messages.stores_iff.mpr ⟨e, he, hsame.trans hindexed⟩)
    · exact .inr ⟨x, hx, hyes, hindexed⟩
  · rintro (hstored | ⟨x, hx, hyes, hindexed⟩)
    · obtain ⟨e, he, hindexed⟩ := Messages.stores_iff.mp hstored
      by_cases htouched : Touched t P e
      · exact ⟨_, (hrep _).mpr (.inl ⟨e, he, .inl ⟨htouched, rfl⟩⟩), hindexed⟩
      · exact ⟨_, (hrep _).mpr (.inl ⟨e, he, .inr ⟨htouched, rfl⟩⟩), hindexed⟩
    · exact ⟨_, (hrep _).mpr (.inr ⟨x, hx, hyes, rfl⟩), hindexed⟩

/-- Once a message has risen, the latest row of its text is a message that has risen. -/
theorem latest_of_risen (hrep : Represents t P s) (hy : y ∈ P) (hrises : Rises t y) :
    ∃ y' ∈ P, y'.text = y.text ∧ Rises t y' ∧ ∃ z, s.latest y.matching = some z ∧ z.anonymous = y'.row := by
  obtain ⟨r, hr, hrow⟩ : s.Has y.row := (hrep _).mpr (.inr ⟨y, hy, hrises.1, rfl⟩)
  have hmatch : y.matching r = true := matching_iff.mpr (congrArg Message.text hrow)
  have htime : r.timestamp = y.timestamp := congrArg Message.timestamp hrow
  cases hfound : s.latest y.matching with
  | none => exact absurd hmatch (Messages.latest_none.mp hfound r hr)
  | some z =>
    obtain ⟨hz, hmatchz⟩ := Messages.latest_mem hfound
    have hle : r.timestamp ≤ z.timestamp := Messages.latest_le hfound hr hmatch
    rcases after_cases ((hrep _).mp (Messages.has_anonymous hz)) with ⟨e, he, htext, htimez, -⟩ | ⟨x, hx, hyes, hz'⟩
    · -- a row of `t` is not as late
      have hmatche : y.matching e = true := matching_iff.mpr (htext.symm.trans (matching_iff.mp hmatchz))
      cases hlatest : t.latest y.matching with
      | none => exact absurd hmatche (Messages.latest_none.mp hlatest e he)
      | some e' =>
        have hlt := hrises.2 e' hlatest
        have hle' := Messages.latest_le hlatest he hmatche
        have heq : z.timestamp = e.timestamp := htimez
        omega
    · have htext : x.text = y.text :=
        (congrArg Message.text hz').symm.trans (matching_iff.mp hmatchz)
      refine ⟨x, hx, htext, ⟨hyes, fun e he => ?_⟩, z, rfl, hz'⟩
      rw [matching_of_text htext] at he
      have hlt := hrises.2 e he
      have htimez : z.timestamp = x.timestamp := congrArg Message.timestamp hz'
      omega

/-- Until a message has risen, the latest row of a text is the one it was. -/
theorem latest_of_not_risen (hrep : Represents t P s) (hno : ∀ y ∈ P, y.text = x.text → ¬Rises t y) :
    (t.latest x.matching = none → s.latest x.matching = none) ∧
    ∀ e, t.latest x.matching = some e → ∃ z, s.latest x.matching = some z ∧
      ((Touched t P e ∧ z.anonymous = e.marked.anonymous) ∨ (¬Touched t P e ∧ z.anonymous = e.anonymous)) := by
  constructor
  · intro hnone
    cases hfound : s.latest x.matching with
    | none => rfl
    | some z =>
      obtain ⟨hz, hmatchz⟩ := Messages.latest_mem hfound
      rcases after_cases ((hrep _).mp (Messages.has_anonymous hz)) with ⟨e, he, htext, -, -⟩ | ⟨y, hy, hyes, hz'⟩
      · have hmatche : x.matching e = true := matching_iff.mpr (htext.symm.trans (matching_iff.mp hmatchz))
        exact absurd hmatche (Messages.latest_none.mp hnone e he)
      · have htext : y.text = x.text := (congrArg Message.text hz').symm.trans (matching_iff.mp hmatchz)
        refine absurd ⟨hyes, fun e he => ?_⟩ (hno y hy htext)
        rw [matching_of_text htext, hnone] at he
        cases he
  · intro e hlatest
    obtain ⟨he, hmatche⟩ := Messages.latest_mem hlatest
    -- the row `e` itself, marked or not
    obtain ⟨r, hr, hrow⟩ := row_after hrep he
    have hindexed : r.indexed = e.indexed := by
      rcases hrow with ⟨-, hrow⟩ | ⟨-, hrow⟩
      · have hmarked := indexed_of_anonymous hrow
        exact hmarked
      · exact indexed_of_anonymous hrow
    obtain ⟨htextr, htimer⟩ := indexed_iff.mp hindexed
    have hmatchr : x.matching r = true := matching_iff.mpr (htextr.trans (matching_iff.mp hmatche))
    cases hfound : s.latest x.matching with
    | none => exact absurd hmatchr (Messages.latest_none.mp hfound r hr)
    | some z =>
      obtain ⟨hz, hmatchz⟩ := Messages.latest_mem hfound
      have hle : r.timestamp ≤ z.timestamp := Messages.latest_le hfound hr hmatchr
      have htextz : z.text = e.text := (matching_iff.mp hmatchz).trans (matching_iff.mp hmatche).symm
      refine ⟨z, rfl, ?_⟩
      -- nothing of its text is later, so the latest row has its time
      have htime : z.timestamp ≤ e.timestamp := by
        rcases after_cases ((hrep _).mp (Messages.has_anonymous hz)) with ⟨e', he', htext, htime, -⟩ |
          ⟨y, hy, hyes, hz'⟩
        · have hmatche' : x.matching e' = true := matching_iff.mpr (htext.symm.trans (matching_iff.mp hmatchz))
          have hle' := Messages.latest_le hlatest he' hmatche'
          have heq : z.timestamp = e'.timestamp := htime
          omega
        · have htext : y.text = x.text := (congrArg Message.text hz').symm.trans (matching_iff.mp hmatchz)
          have heq : z.timestamp = y.timestamp := congrArg Message.timestamp hz'
          by_contra hlater
          refine hno y hy htext ⟨hyes, fun e' he' => ?_⟩
          rw [matching_of_text htext, hlatest] at he'
          cases he'
          omega
      have hsame : z = r := by
        refine Messages.eq_of_indexed hz hr (indexed_iff.mpr ⟨htextz.trans htextr.symm, ?_⟩)
        omega
      rw [hsame]
      exact hrow

/-- What `x` may do to the rows after it rises, `y` being loaded before it. -/
def Undisturbed (t : Messages) (history : List HistoryMessage) : Prop :=
  ∀ x ∈ history, ∀ y ∈ history, x.text = y.text → Rises t y →
    (t.Inserts x → x.timestamp ≠ y.timestamp → near y.timestamp x.timestamp = false) ∧
    ∀ e, t.latest x.matching = some e → near e.timestamp x.timestamp = true →
      (e.isSent = true ∧ e.isDelivered = true) ∧
      (t.stores x.row = false → near y.timestamp x.timestamp = true)

/-- A message that leaves the rows as they are. -/
theorem represents_stay (hrep : Represents t P s) (hload : s.load x = s) (hno : t.Inserts x → x ∈ P)
    (htouch : ∀ e, t.latest x.matching = some e → near e.timestamp x.timestamp = true →
      e.marked = e ∨ Touched t P e) : Represents t (x :: P) (s.load x) := by
  intro r
  rw [hload, hrep r]
  have htouched : ∀ e ∈ t.rows, e.marked = e ∨ (Touched t (x :: P) e ↔ Touched t P e) := by
    intro e _
    by_cases hfinds : t.latest x.matching = some e ∧ near e.timestamp x.timestamp = true
    · rcases htouch e hfinds.1 hfinds.2 with hmarked | htouched
      · exact .inl hmarked
      · refine .inr (iff_of_true ?_ htouched)
        exact ⟨x, List.mem_cons_self, hfinds⟩
    · refine .inr ⟨?_, ?_⟩
      · rintro ⟨x', hx', hx'finds⟩
        rcases List.mem_cons.mp hx' with rfl | hx'
        · exact absurd hx'finds hfinds
        · exact ⟨x', hx', hx'finds⟩
      · rintro ⟨x', hx', hx'finds⟩
        exact ⟨x', List.mem_cons_of_mem _ hx', hx'finds⟩
  refine or_congr (exists_congr fun e => and_congr_right fun he => ?_) ?_
  · rcases htouched e he with hmarked | hsame
    · rw [hmarked]
      tauto
    · rw [hsame]
  · constructor
    · rintro ⟨x', hx', hyes, rfl⟩
      exact ⟨x', List.mem_cons_of_mem _ hx', hyes, rfl⟩
    · rintro ⟨x', hx', hyes, rfl⟩
      rcases List.mem_cons.mp hx' with rfl | hx'
      · exact ⟨x', hno hyes, hyes, rfl⟩
      · exact ⟨x', hx', hyes, rfl⟩

/-- A message that is inserted, unless it is there. -/
theorem represents_insert (hrep : Represents t P s) (hyes : t.Inserts x)
    (hload : s.load x = (s.insertMessage x.row).2) : Represents t (x :: P) (s.load x) := by
  cases hstored : s.stores x.row with
  | true =>
    rw [Messages.insertMessage_stored hstored] at hload
    have hx : x ∈ P := by
      rcases (after_stores hrep).mp hstored with hstored | ⟨x', hx', -, hindexed⟩
      · rw [hyes.2] at hstored
        cases hstored
      · rw [← eq_of_row_indexed hindexed]
        exact hx'
    refine represents_stay hrep hload (fun _ => hx) fun e he hnear => ?_
    exact .inr ⟨x, hx, he, hnear⟩
  | false =>
    rw [Messages.insertMessage_new hstored] at hload
    intro r
    rw [hload, Messages.has_append hstored, hrep r]
    have htouched : ∀ e, Touched t (x :: P) e ↔ Touched t P e := by
      intro e
      constructor
      · rintro ⟨x', hx', he, hnear⟩
        rcases List.mem_cons.mp hx' with rfl | hx'
        · have hfar : near e.timestamp x'.timestamp = false := hyes.1 e he
          rw [hfar] at hnear
          cases hnear
        · exact ⟨x', hx', he, hnear⟩
      · rintro ⟨x', hx', hfinds⟩
        exact ⟨x', List.mem_cons_of_mem _ hx', hfinds⟩
    rw [After, After, or_assoc]
    refine or_congr (exists_congr fun e => by rw [htouched]) ?_
    constructor
    · rintro (⟨x', hx', hyes', rfl⟩ | rfl)
      · exact ⟨x', List.mem_cons_of_mem _ hx', hyes', rfl⟩
      · exact ⟨x, List.mem_cons_self, hyes, rfl⟩
    · rintro ⟨x', hx', hyes', rfl⟩
      rcases List.mem_cons.mp hx' with rfl | hx'
      · exact .inr rfl
      · exact .inl ⟨x', hx', hyes', rfl⟩

/-- A message that marks the row it finds for the first time. -/
theorem represents_mark (hrep : Represents t P s) {z : Message} (hfound : t.latest x.matching = some e)
    (hnear : near e.timestamp x.timestamp = true) (hnot : ¬Touched t P e) (hz : z ∈ s.rows)
    (hze : z.anonymous = e.anonymous) (hload : s.load x = s.updateMessage z.marked) :
    Represents t (x :: P) (s.load x) := by
  have hx : Touched t (x :: P) e := ⟨x, List.mem_cons_self, hfound, hnear⟩
  have he := (Messages.latest_mem hfound).1
  have hzmarked : z.marked.anonymous = e.marked.anonymous := congrArg Message.marked hze
  have hothers : ∀ e', e' ≠ e → (Touched t (x :: P) e' ↔ Touched t P e') := by
    intro e' hne
    constructor
    · rintro ⟨x', hx', he', hnear'⟩
      rcases List.mem_cons.mp hx' with rfl | hx'
      · rw [hfound] at he'
        cases he'
        exact absurd rfl hne
      · exact ⟨x', hx', he', hnear'⟩
    · rintro ⟨x', hx', hfinds⟩
      exact ⟨x', List.mem_cons_of_mem _ hx', hfinds⟩
  have hdiffers : ∀ e' ∈ t.rows, e' ≠ e → e'.indexed ≠ e.indexed := fun e' he' hne hindexed =>
    hne (Messages.eq_of_indexed he' he hindexed)
  intro r
  rw [hload, Messages.has_marked hz, hrep r, hze, hzmarked]
  constructor
  · rintro (⟨⟨e', he', hrow⟩ | ⟨x', hx', hyes, rfl⟩, hne⟩ | rfl)
    · refine .inl ⟨e', he', ?_⟩
      by_cases hsame : e' = e
      · rcases hrow with ⟨htouched, -⟩ | ⟨-, hrow⟩
        · exact absurd (hsame ▸ htouched) hnot
        · exact absurd (hsame ▸ hrow) hne
      · rw [hothers e' hsame]
        exact hrow
    · exact .inr ⟨x', List.mem_cons_of_mem _ hx', hyes, rfl⟩
    · exact .inl ⟨e, he, .inl ⟨hx, rfl⟩⟩
  · rintro (⟨e', he', hrow⟩ | ⟨x', hx', hyes, rfl⟩)
    · by_cases hsame : e' = e
      · rcases hrow with ⟨-, hrow⟩ | ⟨huntouched, -⟩
        · exact .inr (hsame ▸ hrow)
        · exact absurd (hsame ▸ hx) huntouched
      · rw [hothers e' hsame] at hrow
        refine .inl ⟨.inl ⟨e', he', hrow⟩, fun hre => hdiffers e' he' hsame ?_⟩
        rcases hrow with ⟨-, rfl⟩ | ⟨-, rfl⟩
        · have hmarked := indexed_of_anonymous hre
          exact hmarked
        · exact indexed_of_anonymous hre
    · rcases List.mem_cons.mp hx' with rfl | hx'
      · rw [show near e.timestamp x'.timestamp = false from hyes.1 e hfound] at hnear
        cases hnear
      · refine .inl ⟨.inr ⟨x', hx', hyes, rfl⟩, fun hre => ?_⟩
        have hstored : t.stores x'.row = true :=
          Messages.stores_iff.mpr ⟨e, he, (congrArg Message.indexed hre).symm⟩
        rw [hyes.2] at hstored
        cases hstored

/-- A message that is near a flagged row changes nothing. -/
theorem load_near {z : Message} (hfound : s.latest x.matching = some z)
    (hnear : near z.timestamp x.timestamp = true) (hflags : z.isSent = true ∧ z.isDelivered = true) :
    s.load x = s := by
  have hnear' : near z.timestamp x.row.timestamp = true := hnear
  rw [Messages.load, hfound, Messages.settle, if_pos hnear', hflags.1, hflags.2]
  exact if_neg (by decide)

/-- A message that is near an unflagged row marks it. -/
theorem load_unflagged {z : Message} (hfound : s.latest x.matching = some z)
    (hnear : near z.timestamp x.timestamp = true) (hflags : ¬(z.isSent = true ∧ z.isDelivered = true)) :
    s.load x = s.updateMessage z.marked := by
  have hnear' : near z.timestamp x.row.timestamp = true := hnear
  have hunset : (!z.isDelivered || !z.isSent) = true := by
    by_contra hset
    rw [Bool.not_eq_true, Bool.or_eq_false_iff, Bool.not_eq_false', Bool.not_eq_false'] at hset
    exact hflags ⟨hset.2, hset.1⟩
  rw [Messages.load, hfound, Messages.settle, if_pos hnear', if_pos hunset]

/-- A message that is near no row is inserted, unless it is there. -/
theorem load_far (hfar : ∀ z, s.latest x.matching = some z → near z.timestamp x.timestamp = false) :
    s.load x = (s.insertMessage x.row).2 := by
  rw [Messages.load]
  cases hfound : s.latest x.matching with
  | none => rfl
  | some z =>
    have hfar' : near z.timestamp x.row.timestamp = false := hfar z hfound
    rw [Messages.settle, if_neg (by rw [hfar']; decide)]

theorem marked_of_flags (h : e.isSent = true ∧ e.isDelivered = true) : e.marked = e := by
  cases e with
  | mk =>
    obtain ⟨hsent, hdelivered⟩ := h
    dsimp only at hsent hdelivered
    rw [hsent, hdelivered]
    rfl

/-- A message that is stored, or is near what it would find first. -/
theorem found_of_not_inserts (hno : ¬t.Inserts x) : t.stores x.row = true ∨
    (t.stores x.row = false ∧ ∃ e, t.latest x.matching = some e ∧ near e.timestamp x.timestamp = true) := by
  cases hstored : t.stores x.row with
  | true => exact .inl rfl
  | false =>
    right
    refine ⟨rfl, ?_⟩
    by_contra hfar
    refine hno ⟨fun e he => ?_, hstored⟩
    rw [← Bool.not_eq_true]
    exact fun hnear => hfar ⟨e, he, hnear⟩

/-- A call that finds a row that has risen. -/
theorem represents_risen {history : List HistoryMessage} {y₀ : HistoryMessage}
    (hundisturbed : Undisturbed t history)
    (hP : ∀ h ∈ P, h ∈ history) (hx : x ∈ history) (hrep : Represents t P s) (hy₀ : y₀ ∈ P)
    (htext₀ : y₀.text = x.text) (hrises₀ : Rises t y₀) : Represents t (x :: P) (s.load x) := by
  have hstay : t.stores x.row = true → s.stores x.row = true := fun hstored =>
    (after_stores hrep).mpr (.inl hstored)
  obtain ⟨y, hy, htext, hrises, z, hfound, hzy⟩ := latest_of_risen hrep hy₀ hrises₀
  rw [matching_of_text htext₀] at hfound
  have hztime : z.timestamp = y.timestamp := congrArg Message.timestamp hzy
  have hzflags : z.isSent = true ∧ z.isDelivered = true :=
    ⟨congrArg Message.isSent hzy, congrArg Message.isDelivered hzy⟩
  obtain ⟨hothers, hlow⟩ := hundisturbed x hx y (hP y hy) (htext.trans htext₀).symm hrises
  by_cases htime : x.timestamp = y.timestamp
  · have hxy : x = y := history_ext (htext.trans htext₀).symm htime
    subst hxy
    refine represents_stay hrep (load_near hfound ?_ hzflags) (fun _ => hy) fun e he hnear => ?_
    · rw [hztime]
      exact near_self _
    · exact .inr ⟨x, hy, he, hnear⟩
  · by_cases hyes : t.Inserts x
    · refine represents_insert hrep hyes (load_far fun z' hz' => ?_)
      rw [hfound] at hz'
      cases hz'
      rw [hztime]
      exact hothers hyes htime
    · have hload : s.load x = s := by
        by_cases hnear : near z.timestamp x.timestamp = true
        · exact load_near hfound hnear hzflags
        · rcases found_of_not_inserts hyes with hstored | ⟨hnew, e, he, hnear'⟩
          · rw [load_far fun z' hz' => by rw [hfound] at hz'; cases hz'; exact Bool.not_eq_true _ ▸ hnear]
            exact Messages.insertMessage_stored (hstay hstored)
          · rw [hztime] at hnear
            exact absurd ((hlow e he hnear').2 hnew) hnear
      refine represents_stay hrep hload (fun h => absurd h hyes) fun e he hnear => ?_
      exact .inl (marked_of_flags (hlow e he hnear).1)

/-- A call that finds none. -/
theorem represents_unfound (hrep : Represents t P s) (hlatest : t.latest x.matching = none)
    (hsnone : s.latest x.matching = none) : Represents t (x :: P) (s.load x) := by
  have hyes : t.Inserts x := by
    refine ⟨fun e he => (by rw [hlatest] at he; cases he), ?_⟩
    rw [← Bool.not_eq_true, Messages.stores_iff]
    rintro ⟨e, he, hindexed⟩
    exact Messages.latest_none.mp hlatest e he (matching_iff.mpr (indexed_iff.mp hindexed).1)
  refine represents_insert hrep hyes (load_far fun z hz => ?_)
  rw [hsnone] at hz
  cases hz

/-- A call that finds the row that it would have found first. -/
theorem represents_found {z : Message} (hrep : Represents t P s) (hlatest : t.latest x.matching = some e)
    (hfound : s.latest x.matching = some z) (hze : (Touched t P e ∧ z.anonymous = e.marked.anonymous) ∨
      (¬Touched t P e ∧ z.anonymous = e.anonymous)) : Represents t (x :: P) (s.load x) := by
  have hstay : t.stores x.row = true → s.stores x.row = true := fun hstored =>
    (after_stores hrep).mpr (.inl hstored)
  have hztime : z.timestamp = e.timestamp := by
    rcases hze with ⟨-, hze⟩ | ⟨-, hze⟩
    · exact (indexed_iff.mp (indexed_of_anonymous hze)).2
    · exact (indexed_iff.mp (indexed_of_anonymous hze)).2
  by_cases hnear : near e.timestamp x.timestamp = true
  · have hnearz : near z.timestamp x.timestamp = true := by rw [hztime]; exact hnear
    have hyes : ¬t.Inserts x := by
      intro h
      rw [show near e.timestamp x.timestamp = false from h.1 e hlatest] at hnear
      cases hnear
    by_cases hflags : z.isSent = true ∧ z.isDelivered = true
    · refine represents_stay hrep (load_near hfound hnearz hflags) (fun h => absurd h hyes) fun e' he' _ => ?_
      rw [hlatest] at he'
      cases he'
      rcases hze with ⟨htouched, -⟩ | ⟨-, hze⟩
      · exact .inr htouched
      · refine .inl (marked_of_flags ⟨?_, ?_⟩)
        · exact (congrArg Message.isSent hze).symm.trans hflags.1
        · exact (congrArg Message.isDelivered hze).symm.trans hflags.2
    · have hload : s.load x = s.updateMessage z.marked := load_unflagged hfound hnearz hflags
      rcases hze with ⟨-, hze⟩ | ⟨huntouched, hze⟩
      · exact absurd ⟨congrArg Message.isSent hze, congrArg Message.isDelivered hze⟩ hflags
      · exact represents_mark hrep hlatest hnear huntouched (Messages.latest_mem hfound).1 hze hload
  · have hfar : s.load x = (s.insertMessage x.row).2 := by
      refine load_far fun z' hz' => ?_
      rw [hfound] at hz'
      cases hz'
      rw [hztime]
      exact Bool.not_eq_true _ ▸ hnear
    by_cases hyes : t.Inserts x
    · exact represents_insert hrep hyes hfar
    · rcases found_of_not_inserts hyes with hstored | ⟨-, e', he', hnear'⟩
      · refine represents_stay hrep (hfar.trans (Messages.insertMessage_stored (hstay hstored)))
          (fun h => absurd h hyes) fun e' he' hnear' => ?_
        rw [hlatest] at he'
        cases he'
        exact absurd hnear' hnear
      · rw [hlatest] at he'
        cases he'
        exact absurd hnear' hnear

/-- **One call** of an undisturbed history. -/
theorem represents_load {history : List HistoryMessage} (hundisturbed : Undisturbed t history)
    (hP : ∀ h ∈ P, h ∈ history) (hx : x ∈ history) (hrep : Represents t P s) :
    Represents t (x :: P) (s.load x) := by
  by_cases hrisen : ∃ y ∈ P, y.text = x.text ∧ Rises t y
  · obtain ⟨y, hy, htext, hrises⟩ := hrisen
    exact represents_risen hundisturbed hP hx hrep hy htext hrises
  · have hno : ∀ y ∈ P, y.text = x.text → ¬Rises t y := fun y hy htext hrises => hrisen ⟨y, hy, htext, hrises⟩
    obtain ⟨hnone, hsome⟩ := latest_of_not_risen hrep hno
    cases hlatest : t.latest x.matching with
    | none => exact represents_unfound hrep hlatest (hnone hlatest)
    | some e =>
      obtain ⟨z, hfound, hze⟩ := hsome e hlatest
      exact represents_found hrep hlatest hfound hze

/-- **All calls** of an undisturbed history, in whatever order. -/
theorem represents_history {history : List HistoryMessage} (hundisturbed : Undisturbed t history)
    (calls : List HistoryMessage) (hcalls : ∀ h ∈ calls, h ∈ history) (hP : ∀ h ∈ P, h ∈ history)
    (hrep : Represents t P s) : Represents t (calls.reverse ++ P) (calls.foldl Messages.load s) := by
  induction calls generalizing s P with
  | nil => exact hrep
  | cons x rest ih =>
    have hx := hcalls x List.mem_cons_self
    have hstep := represents_load hundisturbed hP hx hrep
    rw [List.reverse_cons, List.append_assoc]
    refine ih (fun h hh => hcalls h (List.mem_cons_of_mem x hh)) (fun h hh => ?_) hstep
    rcases List.mem_cons.mp hh with rfl | hh
    · exact hx
    · exact hP h hh

theorem represents_nil : Represents t [] t := by
  intro r
  constructor
  · rintro ⟨e, he, rfl⟩
    refine .inl ⟨e, he, .inr ⟨?_, rfl⟩⟩
    rintro ⟨x, hx, -⟩
    cases hx
  · rintro (⟨e, he, ⟨⟨x, hx, -⟩, -⟩ | ⟨-, rfl⟩⟩ | ⟨x, hx, -⟩)
    · cases hx
    · exact Messages.has_anonymous he
    · cases hx

/-- What is left depends only on which messages were loaded. -/
theorem after_congr {Q : List HistoryMessage} (h : ∀ x, x ∈ P ↔ x ∈ Q) : After t P r ↔ After t Q r := by
  have htouched : ∀ e, Touched t P e ↔ Touched t Q e := fun e => exists_congr fun x => by rw [h x]
  refine or_congr (exists_congr fun e => by rw [htouched e]) (exists_congr fun x => by rw [h x])

theorem sameRows_of_represents {Q : List HistoryMessage} {s' : Messages} (hrep : Represents t P s)
    (hrep' : Represents t Q s') (h : ∀ x, x ∈ P ↔ x ∈ Q) : Messages.SameRows s s' := by
  refine Messages.sameRows_iff.mpr fun r => ?_
  rw [hrep r, hrep' r, after_congr h]

/-- A call that leaves the same rows changes nothing. -/
theorem load_eq_of_sameRows (hsame : Messages.SameRows s (s.load x)) : s.load x = s := by
  have hhas := Messages.sameRows_iff.mp hsame
  by_cases hyes : s.Inserts x
  · exfalso
    rw [Messages.load_of_inserts hyes] at hhas
    have hstored : s.stores x.row = true := Messages.stores_iff_has.mpr
      ⟨_, (hhas _).mpr ((Messages.has_append hyes.2).mpr (.inr rfl)), rfl⟩
    rw [hyes.2] at hstored
    cases hstored
  · rcases Messages.load_of_not_inserts hyes with hload | ⟨e, hfound, -, hload⟩
    · exact hload
    · have he := (Messages.latest_mem hfound).1
      -- the marked row was there before, so the row was marked
      have hmarked : s.Has e.marked.anonymous := by
        rw [hhas, hload]
        exact (Messages.has_marked he).mpr (.inr rfl)
      have heq : e.marked.anonymous = e.anonymous :=
        Messages.has_unique hmarked (Messages.has_anonymous he) rfl
      have hsent : e.isSent = true := (congrArg Message.isSent heq).symm
      have hdelivered : e.isDelivered = true := (congrArg Message.isDelivered heq).symm
      have hrow : e.marked = e := marked_of_flags ⟨hsent, hdelivered⟩
      rw [hload]
      refine Messages.ext ?_ (by simp)
      rw [Messages.updateMessage_marked he, hrow]
      refine (List.map_congr_left fun r hr => ?_).trans (List.map_id _)
      by_cases hid : r.id = e.id
      · rw [if_pos hid, Messages.eq_of_id hr he hid]
        rfl
      · rw [if_neg hid]
        rfl

/-- Messages that were loaded already change nothing when they are loaded again. -/
theorem load_again {history : List HistoryMessage} (hundisturbed : Undisturbed t history)
    (calls : List HistoryMessage) (hcalls : ∀ h ∈ calls, h ∈ history) (hdone : ∀ h ∈ calls, h ∈ P)
    (hP : ∀ h ∈ P, h ∈ history) (hrep : Represents t P s) : calls.foldl Messages.load s = s := by
  induction calls with
  | nil => rfl
  | cons x rest ih =>
    have hx := hcalls x List.mem_cons_self
    have hstep := represents_load hundisturbed hP hx hrep
    have hsame : Messages.SameRows s (s.load x) := by
      refine sameRows_of_represents hrep hstep fun h => ?_
      rw [List.mem_cons]
      constructor
      · exact .inr
      · rintro (rfl | hh)
        · exact hdone h List.mem_cons_self
        · exact hh
    rw [List.foldl_cons, load_eq_of_sameRows hsame]
    exact ih (fun h hh => hcalls h (List.mem_cons_of_mem x hh)) fun h hh => hdone h (List.mem_cons_of_mem x hh)

end Represents

/-! ## Whether the order matters -/

section Order

variable {t s : Messages} {history : List HistoryMessage} {x y : HistoryMessage} {e : Message}

/-- The calls for a history leave the same rows in any two orders, and a second time they change nothing. -/
def OrderFree (t : Messages) (history : List HistoryMessage) : Prop :=
  (∀ calls calls', history.Perm calls → history.Perm calls' →
    Messages.SameRows (calls.foldl Messages.load t) (calls'.foldl Messages.load t)) ∧
  ∀ calls calls', history.Perm calls → history.Perm calls' →
    calls'.foldl Messages.load (calls.foldl Messages.load t) = calls.foldl Messages.load t

theorem orderFree_of_undisturbed (hundisturbed : Undisturbed t history) : OrderFree t history := by
  have hload : ∀ calls, history.Perm calls →
      Represents t (calls.reverse ++ []) (calls.foldl Messages.load t) := fun calls hperm =>
    represents_history hundisturbed calls (fun h hh => hperm.mem_iff.mpr hh) (fun h hh => by cases hh)
      represents_nil
  constructor
  · intro calls calls' hperm hperm'
    refine sameRows_of_represents (hload calls hperm) (hload calls' hperm') fun h => ?_
    rw [List.append_nil, List.append_nil, List.mem_reverse, List.mem_reverse, ← hperm.mem_iff, hperm'.mem_iff]
  · intro calls calls' hperm hperm'
    refine load_again hundisturbed calls' (fun h hh => hperm'.mem_iff.mpr hh) (fun h hh => ?_) (fun h hh => ?_)
      (hload calls hperm)
    · rw [List.append_nil, List.mem_reverse]
      exact hperm.mem_iff.mp (hperm'.mem_iff.mpr hh)
    · rw [List.append_nil, List.mem_reverse] at hh
      exact hperm.mem_iff.mpr hh

/-- What is stored after a call. -/
theorem stores_load_iff {m : Message} : (s.load x).stores m = true ↔
    s.stores m = true ∨ (s.Inserts x ∧ x.row.indexed = m.indexed) := by
  by_cases hyes : s.Inserts x
  · rw [Messages.load_of_inserts hyes, and_iff_right hyes, Messages.stores_iff, Messages.stores_iff]
    constructor
    · rintro ⟨r, hr, hindexed⟩
      rcases List.mem_append.mp hr with hr | hr
      · exact .inl ⟨r, hr, hindexed⟩
      · rw [List.mem_singleton.mp hr] at hindexed
        exact .inr hindexed
    · rintro (⟨r, hr, hindexed⟩ | hindexed)
      · exact ⟨r, List.mem_append_left _ hr, hindexed⟩
      · exact ⟨_, List.mem_append_right _ (List.mem_singleton_self _), hindexed⟩
  · rw [Messages.stores_of_onlyFlags (Messages.onlyFlags_of_not_inserts hyes), or_iff_left]
    exact fun h => hyes h.1

/-- What is stored stays so. -/
theorem stores_history (calls : List HistoryMessage) {m : Message} (hstored : s.stores m = true) :
    (calls.foldl Messages.load s).stores m = true := by
  induction calls generalizing s with
  | nil => exact hstored
  | cons h rest ih => exact ih (stores_load_iff.mpr (.inl hstored))

/-- A message that is not inserted now, nor stored, is not stored after its copies and others were loaded. -/
theorem never_stored (hno : ¬s.Inserts x) (hnew : s.stores x.row = false) (copies others : List HistoryMessage)
    (hcopies : ∀ h ∈ copies, h = x) (hothers : ∀ h ∈ others, h ≠ x) :
    ((copies ++ others).foldl Messages.load s).stores x.row = false := by
  have hflags : Messages.OnlyFlags s (copies.foldl Messages.load s) :=
    onlyFlags_load fun h hh => hcopies h hh ▸ hno
  have hnew' : (copies.foldl Messages.load s).stores x.row = false := by
    rw [Messages.stores_of_onlyFlags hflags]
    exact hnew
  rw [List.foldl_append]
  generalize copies.foldl Messages.load s = s' at hnew'
  clear hflags
  induction others generalizing s' with
  | nil => exact hnew'
  | cons h rest ih =>
    refine ih (fun h' hh' => hothers h' (List.mem_cons_of_mem h hh')) _ ?_
    rw [← Bool.not_eq_true, stores_load_iff]
    rintro (hstored | ⟨-, hindexed⟩)
    · rw [hnew'] at hstored
      cases hstored
    · exact hothers h List.mem_cons_self (eq_of_row_indexed hindexed)

/-- The copies of a message can be loaded first. -/
theorem copies_first (history : List HistoryMessage) (x : HistoryMessage) :
    history.Perm (history.filter (· = x) ++ history.filter (· ≠ x)) := by
  refine (List.filter_append_perm (fun h => decide (h = x)) history).symm.trans ?_
  refine List.Perm.of_eq (congrArg (_ ++ ·) (List.filter_congr fun h _ => ?_))
  simp

theorem stores_of_sameRows {m : Message} (hsame : Messages.SameRows s t) (hstored : s.stores m = true) :
    t.stores m = true := by
  obtain ⟨r, hr, hindexed⟩ := Messages.stores_iff_has.mp hstored
  exact Messages.stores_iff_has.mpr ⟨r, (Messages.sameRows_iff.mp hsame r).mp hr, hindexed⟩

/-- After a message has risen, it is what the look-up finds. -/
theorem latest_of_rises (hrises : Rises t y) :
    ∃ z, (t.load y).latest y.matching = some z ∧ z.timestamp = y.timestamp := by
  have hmatch : y.matching { y.row with id := t.next } = true := matching_iff.mpr rfl
  rw [Messages.load_of_inserts hrises.1, Messages.latest_append hrises.1.2 hmatch]
  cases hlatest : t.latest y.matching with
  | none => exact ⟨_, rfl, rfl⟩
  | some e =>
    dsimp only
    have hlt : e.timestamp < y.row.timestamp := hrises.2 e hlatest
    rw [if_pos hlt]
    exact ⟨_, rfl, rfl⟩

/-- After `y` has risen, another message of its text is inserted if it is not stored and `y` is not near. -/
theorem inserts_after_rises (hrises : Rises t y) (htext : x.text = y.text) (hne : x ≠ y)
    (hnew : t.stores x.row = false) :
    (t.load y).stores x.row = false ∧ ((t.load y).Inserts x ↔ near y.timestamp x.timestamp = false) := by
  obtain ⟨z, hfound, hztime⟩ := latest_of_rises hrises
  rw [← matching_of_text htext] at hfound
  have hstored : (t.load y).stores x.row = false := by
    rw [← Bool.not_eq_true, stores_load_iff]
    rintro (hstored | ⟨-, hindexed⟩)
    · rw [hnew] at hstored
      cases hstored
    · exact hne (eq_of_row_indexed hindexed).symm
  refine ⟨hstored, ?_⟩
  rw [← hztime]
  constructor
  · intro hyes
    exact hyes.1 z hfound
  · intro hfar
    refine ⟨fun e he => ?_, hstored⟩
    rw [hfound] at he
    cases he
    exact hfar

/-- In a free order a message is stored in the end whichever comes first. -/
theorem orderFree_stores (hfree : OrderFree t history) (hx : x ∈ history) (hy : y ∈ history) (hne : x ≠ y)
    (hnew : t.stores x.row = false) : ((t.load y).Inserts x → t.Inserts x) ∧
      (t.Inserts x → (t.load y).stores x.row = false → (t.load y).Inserts x) := by
  have hcopies : ∀ h ∈ history.filter (· = x), h = x := fun h hh => by simpa using (List.mem_filter.mp hh).2
  have hothers : ∀ h ∈ history.filter (· ≠ x), h ≠ x := fun h hh => by simpa using (List.mem_filter.mp hh).2
  have hyothers : y ∈ history.filter (· ≠ x) := List.mem_filter.mpr ⟨hy, by simpa using hne.symm⟩
  -- `y` first, then the copies of `x`
  have hyfirst : history.Perm (y :: (history.filter (· = x) ++ (history.filter (· ≠ x)).erase y)) :=
    (copies_first history x).trans
      (((List.perm_cons_erase hyothers).append_left _).trans List.perm_middle)
  -- `y` first, then one `x`
  have hxmem : x ∈ history.erase y := (List.mem_erase_of_ne hne).mpr hx
  have hyx : history.Perm (y :: x :: (history.erase y).erase x) :=
    (List.perm_cons_erase hy).trans ((List.perm_cons_erase hxmem).cons y)
  constructor
  · intro hyes
    by_contra hno
    have hlast := never_stored hno hnew _ _ hcopies hothers
    have hstored : ((y :: x :: (history.erase y).erase x).foldl Messages.load t).stores x.row = true :=
      stores_history (s := (t.load y).load x) _ (stores_load_iff.mpr (.inr ⟨hyes, rfl⟩))
    rw [stores_of_sameRows (hfree.1 _ _ hyx (copies_first history x)) hstored] at hlast
    cases hlast
  · intro hyes hstill
    by_contra hno
    have hlast := never_stored hno hstill _ ((history.filter (· ≠ x)).erase y) hcopies fun h hh =>
      hothers h (List.mem_of_mem_erase hh)
    have hstored : ((x :: history.erase x).foldl Messages.load t).stores x.row = true :=
      stores_history (s := t.load x) _ (stores_load_iff.mpr (.inr ⟨hyes, rfl⟩))
    have hlast' := stores_of_sameRows (hfree.1 _ _ (List.perm_cons_erase hx) hyfirst) hstored
    rw [List.foldl_cons, hlast] at hlast'
    cases hlast'

/-- A marked row stays. -/
theorem has_marked_history (calls : List HistoryMessage) {r : Message} (hmarked : r.marked = r) (hr : s.Has r) :
    (calls.foldl Messages.load s).Has r := by
  induction calls generalizing s with
  | nil => exact hr
  | cons h rest ih =>
    refine ih ?_
    by_cases hyes : s.Inserts h
    · rw [Messages.load_of_inserts hyes]
      exact (Messages.has_append hyes.2).mpr (.inl hr)
    · rcases Messages.load_of_not_inserts hyes with hload | ⟨z, hfound, -, hload⟩
      · rw [hload]
        exact hr
      · rw [hload]
        refine (Messages.has_marked (Messages.latest_mem hfound).1).mpr ?_
        by_cases hrz : r = z.anonymous
        · right
          rw [← hmarked, hrz]
          rfl
        · exact .inl ⟨hr, hrz⟩

/-- A row with a later one of its text above it stays as it is. -/
theorem has_below_history (calls : List HistoryMessage) {r m : Message} (hr : s.Has r) (hm : s.stores m = true)
    (htext : m.text = r.text) (hlt : r.timestamp < m.timestamp) : (calls.foldl Messages.load s).Has r := by
  induction calls generalizing s with
  | nil => exact hr
  | cons h rest ih =>
    refine ih ?_ (stores_load_iff.mpr (.inl hm))
    by_cases hyes : s.Inserts h
    · rw [Messages.load_of_inserts hyes]
      exact (Messages.has_append hyes.2).mpr (.inl hr)
    · rcases Messages.load_of_not_inserts hyes with hload | ⟨z, hfound, -, hload⟩
      · rw [hload]
        exact hr
      · rw [hload]
        refine (Messages.has_marked (Messages.latest_mem hfound).1).mpr (.inl ⟨hr, ?_⟩)
        rintro rfl
        obtain ⟨w, hw, hindexed⟩ := Messages.stores_iff.mp hm
        obtain ⟨htextw, htimew⟩ := indexed_iff.mp hindexed
        have hmatch : h.matching w = true := by
          refine matching_iff.mpr ((htextw.trans htext).trans ?_)
          exact matching_iff.mp (Messages.latest_mem hfound).2
        have hle := Messages.latest_le hfound hw hmatch
        have hlt' : z.timestamp < m.timestamp := hlt
        omega

/-- The row that is found near is marked. -/
theorem has_load_near (hfound : s.latest x.matching = some e) (hnear : near e.timestamp x.timestamp = true) :
    (s.load x).Has e.marked.anonymous := by
  have he := (Messages.latest_mem hfound).1
  by_cases hflags : e.isSent = true ∧ e.isDelivered = true
  · rw [load_near hfound hnear hflags, marked_of_flags hflags]
    exact Messages.has_anonymous he
  · rw [load_unflagged hfound hnear hflags]
    exact (Messages.has_marked he).mpr (.inr rfl)

theorem undisturbed_of_orderFree (hfree : OrderFree t history) : Undisturbed t history := by
  intro x hx y hy htext hrises
  constructor
  · intro hyes htime
    have hne : x ≠ y := fun h => htime (congrArg HistoryMessage.timestamp h)
    obtain ⟨hnew, hiff⟩ := inserts_after_rises hrises htext hne hyes.2
    exact hiff.mp ((orderFree_stores hfree hx hy hne hyes.2).2 hyes hnew)
  · intro e hlatest hnear
    have hno : ¬t.Inserts x := by
      intro hyes
      rw [show near e.timestamp x.timestamp = false from hyes.1 e hlatest] at hnear
      cases hnear
    have hne : x ≠ y := by
      rintro rfl
      exact hno hrises.1
    constructor
    · have he := (Messages.latest_mem hlatest).1
      have hlt : e.timestamp < y.timestamp := hrises.2 e (by rw [← matching_of_text htext]; exact hlatest)
      have htexte : y.row.text = e.anonymous.text :=
        htext.symm.trans (matching_iff.mp (Messages.latest_mem hlatest).2).symm
      -- `y` first: the row stays as it is
      have hbelow : ((y :: history.erase y).foldl Messages.load t).Has e.anonymous := by
        refine has_below_history (s := t.load y) (m := y.row) _ ?_
          (stores_load_iff.mpr (.inr ⟨hrises.1, rfl⟩)) htexte hlt
        rw [Messages.load_of_inserts hrises.1]
        exact (Messages.has_append hrises.1.2).mpr (.inl (Messages.has_anonymous he))
      -- `x` first: the row is marked
      have hmarked : ((x :: history.erase x).foldl Messages.load t).Has e.marked.anonymous := by
        exact has_marked_history (s := t.load x) _ rfl (has_load_near hlatest hnear)
      have hsame := hfree.1 _ _ (List.perm_cons_erase hy) (List.perm_cons_erase hx)
      have heq : e.anonymous = e.marked.anonymous :=
        Messages.has_unique ((Messages.sameRows_iff.mp hsame _).mp hbelow) hmarked rfl
      exact ⟨congrArg Message.isSent heq, congrArg Message.isDelivered heq⟩
    · intro hnew
      obtain ⟨-, hiff⟩ := inserts_after_rises hrises htext hne hnew
      rw [← Bool.not_eq_false, ← hiff]
      exact fun hyes => hno ((orderFree_stores hfree hx hy hne hnew).1 hyes)

/-- **When the order of loading a history does not matter**, and loading it again changes nothing. -/
theorem history_order_iff (db : Database) (history : List HistoryMessage) :
    ((∀ calls calls', history.Perm calls → history.Perm calls' →
        Messages.SameRows (loadHistory calls db).messages (loadHistory calls' db).messages) ∧
      ∀ calls calls', history.Perm calls → history.Perm calls' →
        (loadHistory calls' (loadHistory calls db)).messages = (loadHistory calls db).messages) ↔
    Undisturbed db.messages history := by
  simp only [loadHistory_messages]
  exact ⟨undisturbed_of_orderFree, orderFree_of_undisturbed⟩

/-- One word three times, 14 seconds apart. -/
def repeated_word : Bytes :=
  str "count=3&from0=1&to0=2&content0=a&timestamp0=0&from1=1&to1=2&content1=a&timestamp1=14000"
    ++ str "&from2=1&to2=2&content2=a&timestamp2=28000"

set_option maxRecDepth 4000 in
/-- **The order matters**: if the second comes first it hides both others, else the first and the third are
inserted. -/
theorem history_order_matters : ¬∀ (db : Database) payload,
    (∀ calls calls', (handleConversationHistory payload).Perm calls →
        (handleConversationHistory payload).Perm calls' →
      Messages.SameRows (loadHistory calls db).messages (loadHistory calls' db).messages) ∧
    ∀ calls calls', (handleConversationHistory payload).Perm calls →
        (handleConversationHistory payload).Perm calls' →
      (loadHistory calls' (loadHistory calls db)).messages = (loadHistory calls db).messages := by
  intro claim
  have hhistory : handleConversationHistory repeated_word
      = [⟨1, 2, str "a", 0⟩, ⟨1, 2, str "a", 14000⟩, ⟨1, 2, str "a", 28000⟩] := by decide
  have hsame := (claim {} repeated_word).1 [⟨1, 2, str "a", 0⟩, ⟨1, 2, str "a", 14000⟩, ⟨1, 2, str "a", 28000⟩]
    [⟨1, 2, str "a", 14000⟩, ⟨1, 2, str "a", 0⟩, ⟨1, 2, str "a", 28000⟩]
    (by rw [hhistory]) (by rw [hhistory]; exact List.Perm.swap _ _ _)
  have hlength := hsame.length_eq
  revert hlength
  decide

end Order

end ChatApp.Room
