/-
`MessageStore.lean` -- all that the client does to its messages, in coroutines that take turns at any transaction.

`sendMessage`, `sendGroupMessage`, `markMessagesAsRead` and `deleteConversation` of `data/repository/ChatRepository.kt`
join the two functions that receive, and so does `sendMessage` of `ui/activity/GroupChatActivity.kt`, which enters its
row itself. What a coroutine of these has read is out of date when it writes: the row that a
receiving call marks was copied before, and other coroutines may have marked, read or deleted it since. `Later` says
what becomes of the table all the same. Rows keep what they say and whether they were sent and delivered, what is
deleted stays deleted, and a message of somebody else that was read stays read: the copy that is written back
is one of the user's own rows. And a row that comes in says what one of the calls brings.
-/
import ChatApp.LoadHistory
import ChatApp.RelyGuarantee

set_option autoImplicit false

namespace ChatApp.Room

/-! ## The other methods of `MessageDao` -/

namespace Messages

/-- Change the marks of the rows in `p`. -/
def mark (p : Message → Bool) (f : Message → Message) (hid : ∀ r, (f r).id = r.id)
    (hindexed : ∀ r, (f r).indexed = r.indexed) (t : Messages) : Messages where
  rows := t.rows.map fun r => if p r then f r else r
  next := t.next
  unique := by
    have hsame : ((t.rows.map fun r => if p r then f r else r).map Message.indexed) = t.rows.map Message.indexed := by
      rw [List.map_map]
      refine List.map_congr_left fun r _ => ?_
      rw [Function.comp_apply]
      split
      · exact hindexed r
      · rfl
    rw [hsame]
    exact t.unique
  ordered := by
    have hsame : ∀ r, (if p r then f r else r).id = r.id := fun r => by
      split
      · exact hid r
      · rfl
    refine List.pairwise_map.mpr (t.ordered.imp fun {a b} hab => ?_)
    rw [hsame, hsame]
    exact hab
  fresh := by
    intro r hr
    obtain ⟨r₀, hr₀, rfl⟩ := List.mem_map.mp hr
    have hlt := t.fresh r₀ hr₀
    split
    · rw [hid]
      exact hlt
    · exact hlt

/-- Delete the rows in `p`. -/
def delete (p : Message → Bool) (t : Messages) : Messages where
  rows := t.rows.filter fun r => !p r
  next := t.next
  unique := t.unique.sublist (List.filter_sublist.map _)
  ordered := t.ordered.sublist List.filter_sublist
  fresh := fun r hr => t.fresh r (List.mem_filter.mp hr).1

/-- A direct message between the two users, in either direction. -/
def between (currentUserId otherUserId : Int) (m : Message) : Bool :=
  ((m.senderId = currentUserId && m.recipientId = otherUserId) ||
    (m.senderId = otherUserId && m.recipientId = currentUserId)) && m.groupId = none

end Messages

namespace MessageDao

/-- `markMessagesAsRead`. It does not ask for the group. -/
def markMessagesAsRead (currentUserId otherUserId : Int) : Dao Unit := change fun db => { db with
  messages := db.messages.mark (fun m => m.recipientId = currentUserId && m.senderId = otherUserId)
    (fun m => { m with isRead := true }) (fun _ => rfl) fun _ => rfl }

/-- `markAsSent`. -/
def markAsSent (messageId : Int) : Dao Unit := change fun db => { db with
  messages := db.messages.mark (fun m => m.id = messageId) (fun m => { m with isSent := true }) (fun _ => rfl)
    fun _ => rfl }

/-- `deleteConversation`. -/
def deleteConversation (currentUserId otherUserId : Int) : Dao Unit := change fun db =>
  { db with messages := db.messages.delete (Messages.between currentUserId otherUserId) }

end MessageDao

/-! ## The other functions of `ChatRepository` that concern messages

`me` is `networkManager.getUserId()`, `now` the clock, and `sent` or `success` what the network manager answers. -/

/-- `sendMessage`. An insert that is ignored gives the id -1, which no row has. -/
def sendMessage (me recipientId : Int) (content : Bytes) (now : Int) (sent : Bool) : Dao Bool := do
  let messageId ← insertMessage { senderId := me, recipientId, content, timestamp := now }
  if sent then MessageDao.markAsSent messageId
  pure sent

/-- `sendGroupMessage`. -/
def sendGroupMessage (me groupId : Int) (content : Bytes) (now : Int) (sent : Bool) : Dao Bool := do
  let messageId ← insertMessage
    { senderId := me, recipientId := -1, groupId := some groupId, content, timestamp := now }
  if sent then MessageDao.markAsSent messageId
  pure sent

/-- The coroutine of `GroupChatActivity.sendMessage`: the row is entered after sending, with both marks or with none. -/
def GroupChatActivity.persist_sent (me groupId : Int) (content : Bytes) (now : Int) (sent : Bool) : Dao Unit := do
  let _ ← insertMessage {
    senderId := me, recipientId := -1, groupId := some groupId, content, timestamp := now
    isSent := sent, isDelivered := sent }
  pure ()

/-- `markMessagesAsRead`. -/
def markMessagesAsRead (me otherUserId : Int) : Dao Unit := MessageDao.markMessagesAsRead me otherUserId

/-- `deleteConversation`. -/
def deleteConversation (me otherUserId : Int) (success : Bool) : Dao Bool := do
  MessageDao.deleteConversation me otherUserId
  pure success

/-! ## What becomes of a table -/

/-- What a message says, its marks aside. -/
def Message.bare (m : Message) : Message := { m with isRead := false, isSent := false, isDelivered := false }

/-- And its id. -/
def Message.said (m : Message) : Message := { m.bare with id := 0 }

/-- `r'` is what became of the row `r`: marks are not lost, except that the user's own message may become unread. -/
structure Message.Later (me : Int) (r r' : Message) : Prop where
  bare : r'.bare = r.bare
  sent : r.isSent = true → r'.isSent = true
  delivered : r.isDelivered = true → r'.isDelivered = true
  read : r.senderId ≠ me → r.isRead = true → r'.isRead = true

/-- `t'` is what became of the table `t`: rows that say something in `S` were added, and rows changed and deleted. -/
structure Messages.Later (me : Int) (S : Message → Prop) (t t' : Messages) : Prop where
  next : t.next ≤ t'.next
  rows : ∀ r' ∈ t'.rows, r'.id < t.next → ∃ r ∈ t.rows, r.Later me r'
  new : ∀ r' ∈ t'.rows, t.next ≤ r'.id → S r'.said

/-- Whatever came from others is marked as sent and delivered. -/
def Messages.Settled (me : Int) (t : Messages) : Prop :=
  ∀ r ∈ t.rows, r.senderId ≠ me → r.isSent = true ∧ r.isDelivered = true

section Later

variable {me : Int} {S : Message → Prop} {r r' r'' : Message} {t t' t'' : Messages}

theorem Message.Later.refl (r : Message) : r.Later me r := ⟨rfl, fun h => h, fun h => h, fun _ h => h⟩

theorem Message.Later.senderId (h : r.Later me r') : r'.senderId = r.senderId := by
  have hsame := congrArg Message.senderId h.bare
  exact hsame

theorem Message.Later.id_eq (h : r.Later me r') : r'.id = r.id := by
  have hsame := congrArg Message.id h.bare
  exact hsame

theorem Message.Later.trans (h : r.Later me r') (h' : r'.Later me r'') : r.Later me r'' where
  bare := h'.bare.trans h.bare
  sent := h'.sent ∘ h.sent
  delivered := h'.delivered ∘ h.delivered
  read := fun hme hread => h'.read (by rwa [h.senderId]) (h.read hme hread)

theorem Message.Later.said (h : r.Later me r') : r'.said = r.said := by
  rw [Message.said, Message.said, h.bare]

/-- Nothing was added to a table that has no new ids. -/
theorem Messages.not_new (hr : r ∈ t.rows) (hnew : t.next ≤ r.id) : False :=
  absurd (t.fresh r hr) (not_lt.mpr hnew)

theorem Messages.Later.refl (t : Messages) : t.Later me S t :=
  ⟨le_rfl, fun r hr _ => ⟨r, hr, .refl r⟩, fun _ hr hnew => (not_new hr hnew).elim⟩

theorem Messages.Later.trans (h : t.Later me S t') (h' : t'.Later me S t'') : t.Later me S t'' := by
  refine ⟨h.next.trans h'.next, fun r'' hr'' hlt => ?_, fun r'' hr'' hnew => ?_⟩
  · obtain ⟨r', hr', hlater'⟩ := h'.rows r'' hr'' (hlt.trans_le h.next)
    obtain ⟨r, hr, hlater⟩ := h.rows r' hr' (by rwa [← hlater'.id_eq])
    exact ⟨r, hr, hlater.trans hlater'⟩
  · by_cases hlt : r''.id < t'.next
    · -- it was added on the way from `t` to `t'`
      obtain ⟨r', hr', hlater'⟩ := h'.rows r'' hr'' hlt
      rw [hlater'.said]
      exact h.new r' hr' (by rwa [← hlater'.id_eq])
    · exact h'.new r'' hr'' (not_lt.mp hlt)

end Later

/-! ## One transaction -/

/-- What every transaction promises of the table. -/
def Messages.Promise (me : Int) (S : Message → Prop) (t t' : Messages) : Prop :=
  t.Settled me → t'.Settled me ∧ t.Later me S t'

section Transactions

variable {me : Int} {S : Message → Prop} {t t' : Messages} {m e : Message}

theorem Messages.Promise.refl (t : Messages) : t.Promise me S t := fun h => ⟨h, .refl t⟩

/-- A row more: the user's own, or one that is marked. -/
theorem Messages.promise_insertMessage (hm : m.senderId ≠ me → m.isSent = true ∧ m.isDelivered = true)
    (hS : S m.said) : t.Promise me S (t.insertMessage m).2 := by
  intro hsettled
  cases hstored : t.stores m with
  | true =>
    rw [insertMessage_stored hstored]
    exact ⟨hsettled, .refl t⟩
  | false =>
    rw [insertMessage_new hstored]
    refine ⟨fun r hr hother => ?_, (Int.lt_succ t.next).le, fun r hr hlt => ?_, fun r hr hnew => ?_⟩
    · rcases List.mem_append.mp hr with hr | hr
      · exact hsettled r hr hother
      · rw [List.mem_singleton.mp hr] at hother ⊢
        exact hm hother
    · rcases List.mem_append.mp hr with hr | hr
      · exact ⟨r, hr, .refl r⟩
      · -- the new row has the next id
        rw [List.mem_singleton.mp hr] at hlt
        exact absurd hlt (lt_irrefl t.next)
    · rcases List.mem_append.mp hr with hr | hr
      · exact (not_new hr hnew).elim
      · rw [List.mem_singleton.mp hr]
        exact hS

/-- Marks are added. -/
theorem Messages.promise_mark {p : Message → Bool} {f : Message → Message} (hid : ∀ r, (f r).id = r.id)
    (hindexed : ∀ r, (f r).indexed = r.indexed) (hf : ∀ r : Message, r.Later me (f r)) :
    t.Promise me S (t.mark p f hid hindexed) := by
  intro hsettled
  have hlater : ∀ r : Message, r.Later me (if p r then f r else r) := fun r => by
    split
    · exact hf r
    · exact .refl r
  refine ⟨fun r' hr' hother => ?_, le_rfl, fun r' hr' _ => ?_, fun r' hr' hnew => ?_⟩
  · obtain ⟨r, hr, rfl⟩ := List.mem_map.mp hr'
    rw [(hlater r).senderId] at hother
    exact ⟨(hlater r).sent (hsettled r hr hother).1, (hlater r).delivered (hsettled r hr hother).2⟩
  · obtain ⟨r, hr, rfl⟩ := List.mem_map.mp hr'
    exact ⟨r, hr, hlater r⟩
  · exact (not_new hr' hnew).elim

/-- Rows are deleted. -/
theorem Messages.promise_delete (p : Message → Bool) : t.Promise me S (t.delete p) :=
  fun hsettled => ⟨fun r hr => hsettled r (List.mem_filter.mp hr).1, le_rfl,
    fun r hr _ => ⟨r, (List.mem_filter.mp hr).1, .refl r⟩,
    fun _ hr hnew => (not_new (List.mem_filter.mp hr).1 hnew).elim⟩

/-- `e` was copied from the table: a row with its id, if there still is one, says what `e` says. -/
structure Messages.Knows (t : Messages) (e : Message) : Prop where
  id_lt : e.id < t.next
  bare : ∀ r ∈ t.rows, r.id = e.id → r.bare = e.bare

theorem Messages.knows_of_mem (he : e ∈ t.rows) : t.Knows e :=
  ⟨t.fresh e he, fun _ hr hid => congrArg Message.bare (eq_of_id hr he hid)⟩

/-- A copy is a copy of what became of the row. -/
theorem Messages.Knows.later (h : t.Knows e) (hlater : t.Later me S t') : t'.Knows e := by
  refine ⟨h.id_lt.trans_le hlater.next, fun r' hr' hid => ?_⟩
  obtain ⟨r, hr, hlater'⟩ := hlater.rows r' hr' (by rw [hid]; exact h.id_lt)
  rw [hlater'.bare]
  exact h.bare r hr (hlater'.id_eq.symm.trans hid)

/-- **A copy of an own message is written back**, marked: whatever it says it said before. -/
theorem Messages.promise_updateMessage (hknows : t.Knows e) (hme : e.senderId = me) :
    t.Promise me S (t.updateMessage e.marked) := by
  intro hsettled
  have hrows : (t.updateMessage e.marked).rows = replaced e.marked t.rows := by
    refine updateMessage_rows fun r hr hid => ?_
    have hbare := hknows.bare r hr hid
    have hindexed := congrArg Message.indexed hbare
    exact hindexed
  have hlater : ∀ r ∈ t.rows, r.Later me (if r.id = e.marked.id then e.marked else r) := by
    intro r hr
    split
    · next hid =>
      have hbare := hknows.bare r hr hid
      have hsender := congrArg Message.senderId hbare
      exact ⟨hbare.symm, fun _ => rfl, fun _ => rfl, fun hother => absurd (hsender.trans hme) hother⟩
    · exact .refl r
  refine ⟨fun r' hr' hother => ?_, ?_, fun r' hr' _ => ?_, fun r' hr' hnew => ?_⟩
  · rw [hrows] at hr'
    obtain ⟨r, hr, rfl⟩ := List.mem_map.mp hr'
    have hr' := hlater r hr
    rw [hr'.senderId] at hother
    exact ⟨hr'.sent (hsettled r hr hother).1, hr'.delivered (hsettled r hr hother).2⟩
  · rw [updateMessage_next]
  · rw [hrows] at hr'
    obtain ⟨r, hr, rfl⟩ := List.mem_map.mp hr'
    exact ⟨r, hr, hlater r hr⟩
  · exact (not_new hr' (by rwa [updateMessage_next])).elim

end Transactions

/-! ## The coroutines -/

/-- What every transaction of the client promises of the database. -/
def Keeps (me : Int) (S : Message → Prop) (db db' : Database) : Prop := db.messages.Promise me S db'.messages

section Coroutines

variable {me : Int} {S : Message → Prop} {db : Database}

theorem keeps_refl (db : Database) : Keeps me S db db := .refl _

theorem keeps_trans (db db' db'' : Database) (h : Keeps me S db db') (h' : Keeps me S db' db'') :
    Keeps me S db db'' := by
  intro hsettled
  obtain ⟨hsettled', hlater⟩ := h hsettled
  obtain ⟨hsettled'', hlater'⟩ := h' hsettled'
  exact ⟨hsettled'', hlater.trans hlater'⟩

/-- The coroutine keeps the promise, and `Q` of its answer, from a settled table on. -/
def Obeys {α : Type} (me : Int) (S : Message → Prop) (Q : α → Database → Prop) (p : Dao α) (db : Database) : Prop :=
  p.Respects Transaction.exec (Keeps me S) Q db

/-- One transaction that asks nothing. -/
theorem obeys_transaction {β : Type} {o : Transaction β}
    (ho : ∀ db : Database, db.messages.Promise me S (o.exec db).2.messages) :
    Obeys me S (fun _ _ => True) (Program.perform o) db :=
  Program.respects_perform fun db' _ => ⟨ho db', fun _ _ => trivial⟩

theorem obeys_insertMessage {m : Message} (hm : m.senderId ≠ me → m.isSent = true ∧ m.isDelivered = true)
    (hS : S m.said) : Obeys me S (fun _ _ => True) (insertMessage m) db :=
  obeys_transaction fun _ => Messages.promise_insertMessage hm hS

theorem obeys_markAsSent (messageId : Int) : Obeys me S (fun _ _ => True) (MessageDao.markAsSent messageId) db :=
  obeys_transaction fun _ => Messages.promise_mark (f := fun m => { m with isSent := true }) (fun _ => rfl)
    (fun _ => rfl) fun _ => ⟨rfl, fun _ => rfl, fun h => h, fun _ h => h⟩

theorem obeys_markMessagesAsRead (otherUserId : Int) :
    Obeys me S (fun _ _ => True) (markMessagesAsRead me otherUserId) db :=
  obeys_transaction fun _ => Messages.promise_mark (f := fun m => { m with isRead := true }) (fun _ => rfl)
    (fun _ => rfl) fun _ => ⟨rfl, fun h => h, fun h => h, fun _ _ => rfl⟩

theorem obeys_pure {α : Type} (a : α) : Obeys me S (fun _ _ => True) (pure a : Dao α) db := fun _ _ => trivial

/-- One coroutine after another. -/
theorem obeys_bind {α β : Type} {Q : α → Database → Prop} {Q' : β → Database → Prop} {p : Dao β} {f : β → Dao α}
    (hp : Obeys me S Q' p db) (hf : ∀ b db', Keeps me S db db' → Q' b db' → Obeys me S Q (f b) db') :
    Obeys me S Q (p >>= f) db :=
  Program.Respects.bind keeps_refl keeps_trans hp hf

theorem obeys_send {m : Message} (hme : m.senderId = me) (hS : S m.said) (sent : Bool) :
    Obeys me S (fun _ _ => True) (do
    let messageId ← insertMessage m
    if sent then MessageDao.markAsSent messageId
    pure sent) db := by
  refine obeys_bind (obeys_insertMessage (fun hother => absurd hme hother) hS) fun messageId db' _ _ => ?_
  cases sent with
  | true => exact obeys_bind (obeys_markAsSent messageId) fun _ _ _ _ => obeys_pure _
  | false => exact obeys_pure _

theorem obeys_deleteConversation (otherUserId : Int) (success : Bool) :
    Obeys me S (fun _ _ => True) (deleteConversation me otherUserId success) db :=
  obeys_bind (obeys_transaction fun _ => Messages.promise_delete _) fun _ _ _ _ => obeys_pure _

/-- What the look-up of a settled table finds: a copy, of an own message or of one that is marked. -/
def Found (me : Int) (existing : Option Message) (db : Database) : Prop :=
  db.messages.Settled me ∧ ∀ e, existing = some e → db.messages.Knows e ∧
    (e.senderId ≠ me → e.isSent = true ∧ e.isDelivered = true)

theorem obeys_lookup (p : Message → Bool) (hs : db.messages.Settled me) :
    Obeys me S (Found me) (query fun db => db.messages.latest p) db := by
  refine Program.respects_perform fun db' hkeeps => ⟨.refl _, fun db'' hkeeps' => ?_⟩
  have hs' := (hkeeps hs).1
  obtain ⟨hs'', hlater⟩ := hkeeps' hs'
  refine ⟨hs'', fun e he => ?_⟩
  have hmem := (Messages.latest_mem he).1
  exact ⟨(Messages.knows_of_mem hmem).later hlater, hs' e hmem⟩

/-- What follows the look-up. -/
theorem obeys_dedupe {existing : Option Message} {m : Message} (hfound : Found me existing db)
    (hm : m.isSent = true ∧ m.isDelivered = true) (hS : S m.said) :
    Obeys me S (fun _ _ => True) (dedupe existing m) db := by
  have hinsert : Obeys me S (fun _ _ => True) (do let _ ← insertMessage m; pure () : Dao Unit) db :=
    obeys_bind (obeys_insertMessage (fun _ => hm) hS) fun _ _ _ _ => obeys_pure _
  cases existing with
  | none => exact hinsert
  | some e =>
    obtain ⟨hknows, hmarked⟩ := hfound.2 e rfl
    refine Program.respects_ite (fun _ => Program.respects_ite (fun hflags => ?_) fun _ => obeys_pure _)
      fun _ => hinsert
    have hme : e.senderId = me := by
      by_contra hother
      have hboth := hmarked hother
      simp [hboth.1, hboth.2] at hflags
    refine Program.respects_perform fun db' hkeeps => ⟨fun hs' => ?_, fun _ _ => trivial⟩
    exact Messages.promise_updateMessage (hknows.later (hkeeps hfound.1).2) hme hs'

theorem obeys_settling {p : Message → Bool} {m : Message} (hs : db.messages.Settled me)
    (hm : m.isSent = true ∧ m.isDelivered = true) (hS : S m.said) : Obeys me S (fun _ _ => True) (settling p m) db :=
  obeys_bind (obeys_lookup p hs) fun _ _ _ hfound => obeys_dedupe hfound hm hS

theorem obeys_elsewhere {p : Dao Unit} (hp : p.Always Transaction.elsewhere fun _ => True) :
    Obeys me S (fun _ _ => True) p db := by
  refine Program.respects_of_always hp fun o db ho => ?_
  rw [Keeps, ho db]
  exact .refl _

theorem obeys_receiveMessage (senderId : Int) (content : Bytes) (timestamp : Int) (groupId recipientId : Option Int)
    (hs : db.messages.Settled me) (hS : S (incoming me senderId content timestamp groupId recipientId).said) :
    Obeys me S (fun _ _ => True) (receiveMessage me senderId content timestamp groupId recipientId) db := by
  rw [receiveMessage_eq]
  exact obeys_bind (obeys_elsewhere (before_elsewhere me senderId groupId)) fun _ _ hkeeps _ =>
    obeys_settling (hkeeps hs).1 ⟨rfl, rfl⟩ hS

end Coroutines

/-! ## Runs -/

/-- What the client launches: a function of the repository, the insert of `GroupChatActivity`, or something that leaves
`messages` alone. -/
inductive Call where
  | sendMessage (recipientId : Int) (content : Bytes) (now : Int) (sent : Bool)
  | sendGroupMessage (groupId : Int) (content : Bytes) (now : Int) (sent : Bool)
  | sendInGroupChat (groupId : Int) (content : Bytes) (now : Int) (sent : Bool)
  | receiveMessage (senderId : Int) (content : Bytes) (timestamp : Int) (groupId recipientId : Option Int)
  | receiveHistoryMessage (h : HistoryMessage)
  | markMessagesAsRead (otherUserId : Int)
  | deleteConversation (otherUserId : Int) (success : Bool)
  | other (p : Dao Unit) (aside : p.Always Transaction.elsewhere fun _ => True)

/-- The coroutine of a call. -/
def Call.task (me : Int) : Call → Dao Unit
  | .sendMessage recipientId content now sent => do
    let _ ← ChatApp.Room.sendMessage me recipientId content now sent
    pure ()
  | .sendGroupMessage groupId content now sent => do
    let _ ← ChatApp.Room.sendGroupMessage me groupId content now sent
    pure ()
  | .sendInGroupChat groupId content now sent => GroupChatActivity.persist_sent me groupId content now sent
  | .receiveMessage senderId content timestamp groupId recipientId =>
    ChatApp.Room.receiveMessage me senderId content timestamp groupId recipientId
  | .receiveHistoryMessage h => h.receive
  | .markMessagesAsRead otherUserId => ChatApp.Room.markMessagesAsRead me otherUserId
  | .deleteConversation otherUserId success => do
    let _ ← ChatApp.Room.deleteConversation me otherUserId success
    pure ()
  | .other p _ => p

/-- The message that a call brings. -/
def Call.message (me : Int) : Call → Option Message
  | .sendMessage recipientId content now _ => some { senderId := me, recipientId, content, timestamp := now }
  | .sendGroupMessage groupId content now _ | .sendInGroupChat groupId content now _ =>
    some { senderId := me, recipientId := -1, groupId := some groupId, content, timestamp := now }
  | .receiveMessage senderId content timestamp groupId recipientId =>
    some (incoming me senderId content timestamp groupId recipientId)
  | .receiveHistoryMessage h => some h.row
  | _ => none

/-- **Every coroutine keeps the promise** where its message is one of those that may come in. -/
theorem Call.obeys {me : Int} {S : Message → Prop} {db : Database} (hs : db.messages.Settled me) (c : Call)
    (hS : ∀ m, c.message me = some m → S m.said) : Obeys me S (fun _ _ => True) (c.task me) db := by
  cases c with
  | sendMessage recipientId content now sent =>
    have hsend : Obeys me S _ (ChatApp.Room.sendMessage me recipientId content now sent) db :=
      obeys_send (m := { senderId := me, recipientId, content, timestamp := now }) rfl (hS _ rfl) sent
    exact obeys_bind hsend fun _ _ _ _ => obeys_pure _
  | sendGroupMessage groupId content now sent =>
    have hsend : Obeys me S _ (ChatApp.Room.sendGroupMessage me groupId content now sent) db :=
      obeys_send (m := { senderId := me, recipientId := -1, groupId := some groupId, content, timestamp := now }) rfl
        (hS _ rfl) sent
    exact obeys_bind hsend fun _ _ _ _ => obeys_pure _
  | sendInGroupChat groupId content now sent =>
    have hsaid := hS { senderId := me, recipientId := -1, groupId := some groupId, content, timestamp := now } rfl
    exact obeys_bind (obeys_insertMessage (fun hother => absurd rfl hother) hsaid) fun _ _ _ _ => obeys_pure _
  | receiveMessage => exact obeys_receiveMessage _ _ _ _ _ hs (hS _ rfl)
  | receiveHistoryMessage => exact obeys_settling hs ⟨rfl, rfl⟩ (hS _ rfl)
  | markMessagesAsRead => exact obeys_markMessagesAsRead _
  | deleteConversation => exact obeys_bind (obeys_deleteConversation _ _) fun _ _ _ _ => obeys_pure _
  | other _ aside => exact obeys_elsewhere aside

/-- The client: its coroutines, and its database. -/
abbrev Client : Type 1 := Tasks Transaction Database

/-- What happens: the user `me` makes a call, or a coroutine has a turn. -/
inductive Client.Event (me : Int) : Tasks.Event Transaction → Prop
  | call (c : Call) : Event me (.launch (c.task me))
  | turn (i : Nat) : Event me (.turn i)

/-- The user `me` makes calls, and they take turns in any order. -/
abbrev Client.Run (me : Int) : Client → List (Taken Client (Tasks.Event Transaction)) → Client → Prop :=
  ChatApp.Run (Tasks.step Transaction.exec) fun _ e => Client.Event me e

/-- A list of events that can be executed is a run. -/
theorem Client.run_of_exec {me : Int} {s t : Client} {es : List (Tasks.Event Transaction)}
    (hes : ∀ e ∈ es, Client.Event me e) (h : Run.exec (Tasks.step Transaction.exec) s es = some t) :
    ∃ tr, Client.Run me s tr t := by
  induction es generalizing s with
  | nil =>
    cases h
    exact ⟨[], .nil _⟩
  | cons e es ih =>
    obtain ⟨x, hx, hrest⟩ := Option.bind_eq_some_iff.mp h
    obtain ⟨tr, run⟩ := ih (fun e he => hes e (List.mem_cons_of_mem _ he)) hrest
    have hfirst : Client.Run me s [⟨s, e, x⟩] x := .snoc (.nil s) (hes e List.mem_cons_self) hx
    exact ⟨_, hfirst.trans run⟩

/-- One of the calls brings this message. -/
def Brought (me : Int) (tr : List (Taken Client (Tasks.Event Transaction))) (said : Message) : Prop :=
  ∃ x ∈ tr, ∃ c : Call, x.event = .launch (c.task me) ∧ ∃ m, c.message me = some m ∧ m.said = said

section Runs

variable {me : Int} {S : Message → Prop} {db : Database} {s t : Client}
  {tr tr' : List (Taken Client (Tasks.Event Transaction))} {said : Message}

theorem Brought.earlier (h : Brought me tr said) : Brought me (tr ++ tr') said := by
  obtain ⟨x, hx, hcall⟩ := h
  exact ⟨x, List.mem_append_left _ hx, hcall⟩

theorem Brought.later (h : Brought me tr' said) : Brought me (tr ++ tr') said := by
  obtain ⟨x, hx, hcall⟩ := h
  exact ⟨x, List.mem_append_right _ hx, hcall⟩

/-- From a settled table on the promise is kept. -/
theorem Client.Run.keeps (run : Client.Run me s tr t) (hS : ∀ said, Brought me tr said → S said)
    (hs : s.state.messages.Settled me) (hrespect : Tasks.Respect Transaction.exec (Keeps me S) s) :
    (t.state.messages.Settled me ∧ s.state.messages.Later me S t.state.messages) ∧
      Tasks.Respect Transaction.exec (Keeps me S) t := by
  have hrun := hrespect.run keeps_refl keeps_trans (fun x p hx hC => ?_) (ChatApp.Run.recorded run)
  · exact ⟨hrun.1 hs, hrun.2⟩
  · obtain ⟨hcall, y, hy⟩ := hC
    cases hcall with
    | call c => exact c.obeys (hx hs).1 fun m hm => hS _ ⟨_, hy, c, rfl, m, hm, rfl⟩

/-- A client that has just started has nothing to do. -/
theorem respect_start (db : Database) : Tasks.Respect Transaction.exec (Keeps me S) ⟨[], db⟩ :=
  fun _ hp => absurd hp List.not_mem_nil

/-- What becomes of the table between two moments of a run. -/
theorem Client.Run.later (settled : db.messages.Settled me) (run : Client.Run me ⟨[], db⟩ tr s)
    (run' : Client.Run me s tr' t) : s.state.messages.Later me (Brought me (tr ++ tr')) t.state.messages := by
  obtain ⟨⟨hs, -⟩, hrespect⟩ := Client.Run.keeps run (fun _ => Brought.earlier) settled (respect_start db)
  exact (Client.Run.keeps run' (fun _ => Brought.later) hs hrespect).1.2

/-- **What becomes of the messages between any two moments**, whatever the client does and however its coroutines take
turns: rows keep what they say, are sent and delivered once they were, and do not come back once they are deleted; a
message of somebody else is sent and delivered, and stays read once it was; and a row that comes in is what one of the
calls brings. -/
theorem messages_later (settled : db.messages.Settled me) (run : Client.Run me ⟨[], db⟩ tr s)
    (run' : Client.Run me s tr' t) :
    t.state.messages.Settled me ∧ s.state.messages.Later me (Brought me (tr ++ tr')) t.state.messages := by
  have hrun : Client.Run me ⟨[], db⟩ (tr ++ tr') t := ChatApp.Run.trans run run'
  have hkeeps := Client.Run.keeps (S := fun _ => True) hrun (fun _ _ => trivial) settled (respect_start db)
  exact ⟨hkeeps.1.1, Client.Run.later settled run run'⟩

end Runs

/-- User 1 writes to user 2, and an answer comes in before the message is marked as sent. -/
theorem messages_later_answer : ∃ s t : Client,
    s.state.messages.rows = [{ id := 1, senderId := 1, recipientId := 2, content := str "hi", timestamp := 1000000 }] ∧
    t.state.messages.rows = [
      { id := 1, senderId := 1, recipientId := 2, content := str "hi", timestamp := 1000000, isSent := true },
      { received 2 1 none (str "hello") 1001000 with id := 2 }] ∧
    ∃ tr, t.state.messages.Settled 1 ∧ s.state.messages.Later 1 (Brought 1 tr) t.state.messages := by
  let send := Call.sendMessage 2 (str "hi") 1000000 true
  let receive := Call.receiveMessage 2 (str "hello") 1001000 none none
  have hsend : ∀ e ∈ [Tasks.Event.launch (send.task 1), .turn 0], Client.Event 1 e := by
    rintro e (_ | ⟨_, _ | ⟨_, ⟨⟩⟩⟩)
    · exact .call send
    · exact .turn 0
  have hreceive : ∀ e ∈ [Tasks.Event.launch (receive.task 1), .turn 1, .turn 1, .turn 0], Client.Event 1 e := by
    rintro e (_ | ⟨_, _ | ⟨_, _ | ⟨_, _ | ⟨_, ⟨⟩⟩⟩⟩⟩)
    · exact .call receive
    · exact .turn 1
    · exact .turn 1
    · exact .turn 0
  obtain ⟨tr, run⟩ := Client.run_of_exec (s := ⟨[], {}⟩) hsend rfl
  have settled : (∅ : Messages).Settled 1 := fun r hr => absurd hr List.not_mem_nil
  refine ⟨_, _, ?_, ?_, _, messages_later settled run (Client.run_of_exec hreceive rfl).choose_spec⟩ <;> decide

end ChatApp.Room
