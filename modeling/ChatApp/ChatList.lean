/-
`ChatList.lean` -- the list of chats, and what it shows after whatever the client has done.

`getChatConversations` of `data/dao/ConversationDao.kt` lists a chat for each friend and each group with messages:
the text of the latest, its time, and for a friend whether anything is unread. Text and time come from two subqueries,
the conversation that opens from a third. That they agree holds of every database; that nothing appears again holds
of runs: what is shown later was there before, or came in since.
-/
import ChatApp.MessageStore

set_option autoImplicit false

namespace ChatApp.Room

/-! ## The queries -/

/-- `ChatConversation`. -/
structure ChatConversation where
  userId : Int
  username : Bytes
  lastMessage : Option Bytes
  lastMessageTime : Option Int
  hasUnread : Bool
  isOnline : Bool
  isGroup : Bool
  groupId : Option Int
  deriving DecidableEq

namespace Messages

/-- A message to the group. -/
def in_group (groupId : Int) (m : Message) : Bool := m.groupId = some groupId

/-- A direct message of the other user that is not read. -/
def unread (currentUserId otherUserId : Int) (m : Message) : Bool :=
  m.groupId = none && m.senderId = otherUserId && m.recipientId = currentUserId && !m.isRead

/-- `MAX(timestamp)` over the rows in `p`. -/
def max_timestamp (p : Message → Bool) (t : Messages) : Option Int := ((t.rows.filter p).map Message.timestamp).max?

/-- `SELECT * ... ORDER BY timestamp ASC` over the rows in `p`. -/
def ascending (p : Message → Bool) (t : Messages) : List Message :=
  (t.rows.filter p).insertionSort fun m m' => m.timestamp ≤ m'.timestamp

end Messages

namespace Database

/-- `MessageDao.getConversationMessages`. -/
def getConversationMessages (currentUserId otherUserId : Int) (db : Database) : List Message :=
  db.messages.ascending (Messages.between currentUserId otherUserId)

/-- `MessageDao.getGroupMessages`. -/
def getGroupMessages (groupId : Int) (db : Database) : List Message := db.messages.ascending (Messages.in_group groupId)

/-- What `getChatConversations` selects for a friend. -/
def direct_chat (currentUserId : Int) (db : Database) (f : Friend) : ChatConversation where
  userId := f.userId
  username := f.username
  lastMessage := (db.messages.latest (Messages.between f.userId currentUserId)).map Message.content
  lastMessageTime := db.messages.max_timestamp (Messages.between f.userId currentUserId)
  hasUnread := db.messages.rows.any (Messages.unread currentUserId f.userId)
  isOnline := f.isOnline
  isGroup := false
  groupId := none

/-- What `getChatConversations` selects for a group. -/
def group_chat (db : Database) (g : Group) : ChatConversation where
  userId := g.id
  username := g.name
  lastMessage := (db.messages.latest (Messages.in_group g.id)).map Message.content
  lastMessageTime := db.messages.max_timestamp (Messages.in_group g.id)
  hasUnread := false
  isOnline := false
  isGroup := true
  groupId := some g.id

end Database

/-- `ORDER BY lastMessageTime DESC` leaves `time` in front of `time'`. -/
def not_earlier : Option Int → Option Int → Bool
  | _, none => true
  | none, some _ => false
  | some time, some time' => time' ≤ time

/-- `ConversationDao.getChatConversations`. -/
def Database.getChatConversations (currentUserId : Int) (db : Database) : List ChatConversation :=
  let friends := (db.friends.toList.map Prod.snd).filter fun f =>
    db.messages.rows.any (Messages.between f.userId currentUserId)
  let groups := (db.groups.toList.map Prod.snd).filter fun g =>
    db.group_members.toList.any (fun gm => gm.2.groupId = g.id && gm.2.userId = currentUserId) &&
      db.messages.rows.any (Messages.in_group g.id)
  (friends.map (db.direct_chat currentUserId) ++ groups.map db.group_chat).insertionSort fun c c' =>
    not_earlier c.lastMessageTime c'.lastMessageTime

/-! ## The subqueries agree -/

section Agree

variable {t : Messages} {p : Message → Bool} {db : Database} {currentUserId : Int} {c : ChatConversation}

theorem Messages.mem_ascending {m : Message} : m ∈ t.ascending p ↔ m ∈ t.rows ∧ p m = true := by
  rw [ascending, (List.perm_insertionSort _ _).mem_iff, List.mem_filter]

theorem Messages.between_comm (a b : Int) : between a b = between b a := by
  funext m
  rw [between, between, Bool.or_comm]

/-- The chat shows the text and the time of one message of the conversation, and none of it is later. -/
def ChatConversation.Shows (c : ChatConversation) (conversation : List Message) : Prop :=
  ∃ m ∈ conversation, c.lastMessage = some m.content ∧ c.lastMessageTime = some m.timestamp ∧
    ∀ m' ∈ conversation, m'.timestamp ≤ m.timestamp

/-- The greatest time is that of the latest row. -/
theorem Messages.max_timestamp_latest {m : Message} (h : t.latest p = some m) :
    t.max_timestamp p = some m.timestamp := by
  rw [max_timestamp, List.max?_eq_some_iff]
  have hmem := latest_mem h
  refine ⟨List.mem_map.mpr ⟨m, List.mem_filter.mpr hmem, rfl⟩, fun time htime => ?_⟩
  obtain ⟨r, hr, rfl⟩ := List.mem_map.mp htime
  obtain ⟨hr, hp⟩ := List.mem_filter.mp hr
  exact latest_le h hr hp

/-- Where there is a row there is a latest one. -/
theorem Messages.exists_latest (h : t.rows.any p = true) : ∃ m, t.latest p = some m := by
  rw [← Option.isSome_iff_exists, ← Option.not_isNone, Bool.not_eq_true', ← Bool.not_eq_true, Option.isNone_iff_eq_none,
    latest_none]
  intro hnone
  obtain ⟨r, hr, hp⟩ := List.any_eq_true.mp h
  exact hnone r hr hp

/-- What is selected from the rows in `p` shows the conversation. -/
theorem ChatConversation.shows_of_latest (h : t.rows.any p = true)
    (htext : c.lastMessage = (t.latest p).map Message.content) (htime : c.lastMessageTime = t.max_timestamp p) :
    c.Shows (t.ascending p) := by
  obtain ⟨m, hm⟩ := Messages.exists_latest h
  have hmem := Messages.latest_mem hm
  refine ⟨m, Messages.mem_ascending.mpr hmem, ?_, ?_, fun m' hm' => ?_⟩
  · rw [htext, hm]
    rfl
  · rw [htime, Messages.max_timestamp_latest hm]
  · obtain ⟨hr, hp⟩ := Messages.mem_ascending.mp hm'
    exact Messages.latest_le hm hr hp

/-- Every chat is that of a friend or that of a group, and shows the conversation that opens. -/
theorem chats_show (h : c ∈ db.getChatConversations currentUserId) :
    (c.isGroup = false ∧ c.Shows (db.getConversationMessages currentUserId c.userId) ∧
      c.hasUnread = db.messages.rows.any (Messages.unread currentUserId c.userId)) ∨
    (c.isGroup = true ∧ c.Shows (db.getGroupMessages c.userId) ∧ c.hasUnread = false) := by
  rw [Database.getChatConversations, (List.perm_insertionSort _ _).mem_iff, List.mem_append] at h
  rcases h with h | h
  · obtain ⟨f, hf, rfl⟩ := List.mem_map.mp h
    have hany := (List.mem_filter.mp hf).2
    -- the subqueries name the friend first, the conversation the user
    have hshows : (db.direct_chat currentUserId f).Shows
        (db.messages.ascending (Messages.between f.userId currentUserId)) :=
      ChatConversation.shows_of_latest hany rfl rfl
    rw [Messages.between_comm] at hshows
    exact .inl ⟨rfl, hshows, rfl⟩
  · obtain ⟨g, hg, rfl⟩ := List.mem_map.mp h
    have hany := (List.mem_filter.mp hg).2
    rw [Bool.and_eq_true] at hany
    exact .inr ⟨rfl, ChatConversation.shows_of_latest hany.2 rfl rfl, rfl⟩

end Agree

/-! ## Over runs -/

section Runs

variable {me : Int} {db : Database} {s t : Client} {tr tr' : List (Taken Client (Tasks.Event Transaction))}
  {r r' : Message}

/-- What a query that does not ask for the marks selects is selected still. -/
theorem Message.Later.between_eq (h : r.Later me r') (a b : Int) :
    Messages.between a b r' = Messages.between a b r := by
  have hbare := congrArg (Messages.between a b) h.bare
  exact hbare

theorem Message.Later.in_group_eq (h : r.Later me r') (groupId : Int) :
    Messages.in_group groupId r' = Messages.in_group groupId r := by
  have hbare := congrArg (Messages.in_group groupId) h.bare
  exact hbare

/-- Somebody else's message that is unread was unread. -/
theorem Message.Later.unread {f : Int} (h : r.Later me r') (hf : f ≠ me) (hr : Messages.unread me f r' = true) :
    Messages.unread me f r = true := by
  have hgroup := congrArg Message.groupId h.bare
  have hsender := congrArg Message.senderId h.bare
  have hrecipient := congrArg Message.recipientId h.bare
  change r'.groupId = r.groupId at hgroup
  change r'.senderId = r.senderId at hsender
  change r'.recipientId = r.recipientId at hrecipient
  simp only [Messages.unread, Bool.and_eq_true, decide_eq_true_eq, Bool.not_eq_true'] at hr ⊢
  obtain ⟨⟨⟨hg, hs⟩, hto⟩, hread⟩ := hr
  refine ⟨⟨⟨hgroup ▸ hg, hsender ▸ hs⟩, hrecipient ▸ hto⟩, ?_⟩
  have hother : r.senderId ≠ me := by
    rw [← hsender, hs]
    exact hf
  exact Bool.eq_false_iff.mpr fun hwas => Bool.eq_false_iff.mp hread (h.read hother hwas)

/-- **What the list of chats shows later**, whatever the client does in between and however its coroutines take turns:
the message on display was in the conversation before or is what a call brings since, and the mark of unread messages
of a chat with another user appears only for one that was unread before or came in since. So a conversation that was
deleted stays away, and one that was read stays unmarked, until there is a new message. -/
theorem chats_later (settled : db.messages.Settled me) (run : Client.Run me ⟨[], db⟩ tr s)
    (run' : Client.Run me s tr' t) {c : ChatConversation} (hc : c ∈ t.state.getChatConversations me) :
    (∃ m, c.lastMessage = some m.content ∧ c.lastMessageTime = some m.timestamp ∧
      m ∈ (if c.isGroup then t.state.getGroupMessages c.userId else t.state.getConversationMessages me c.userId) ∧
      (s.state.messages.next ≤ m.id ∧ Brought me (tr ++ tr') m.said ∨ ∃ m₀, m₀.bare = m.bare ∧
        m₀ ∈ (if c.isGroup then s.state.getGroupMessages c.userId else s.state.getConversationMessages me c.userId))) ∧
    (c.hasUnread = true → c.userId ≠ me → s.state.messages.rows.any (Messages.unread me c.userId) = true ∨
      ∃ m ∈ t.state.messages.rows, s.state.messages.next ≤ m.id ∧ Brought me (tr ++ tr') m.said ∧
        Messages.unread me c.userId m = true) := by
  have hlater := Client.Run.later settled run run'
  -- a row of the conversation is new, or was in the conversation
  have hwas : ∀ m ∈ t.state.messages.rows, s.state.messages.next ≤ m.id ∧ Brought me (tr ++ tr') m.said ∨
      ∃ m₀ ∈ s.state.messages.rows, m₀.Later me m := fun m hm =>
    (le_or_gt s.state.messages.next m.id).imp (fun hnew => ⟨hnew, hlater.new m hm hnew⟩) (hlater.rows m hm)
  rcases chats_show hc with ⟨hdirect, ⟨m, hm, htext, htime, -⟩, hunread⟩ | ⟨hgroup, ⟨m, hm, htext, htime, -⟩, hunread⟩
  · rw [hdirect]
    refine ⟨⟨m, htext, htime, hm, ?_⟩, fun hmark hother => ?_⟩
    · obtain ⟨hrow, hbetween⟩ := Messages.mem_ascending.mp hm
      refine (hwas m hrow).imp_right fun ⟨m₀, hm₀, hl⟩ => ⟨m₀, hl.bare.symm, ?_⟩
      exact Messages.mem_ascending.mpr ⟨hm₀, by rw [← hl.between_eq]; exact hbetween⟩
    · rw [hunread] at hmark
      obtain ⟨m', hm', hmark⟩ := List.any_eq_true.mp hmark
      rcases hwas m' hm' with hnew | ⟨m₀, hm₀, hl⟩
      · exact .inr ⟨m', hm', hnew.1, hnew.2, hmark⟩
      · exact .inl (List.any_eq_true.mpr ⟨m₀, hm₀, hl.unread hother hmark⟩)
  · rw [hgroup]
    refine ⟨⟨m, htext, htime, hm, ?_⟩, fun hmark => ?_⟩
    · obtain ⟨hrow, hin⟩ := Messages.mem_ascending.mp hm
      refine (hwas m hrow).imp_right fun ⟨m₀, hm₀, hl⟩ => ⟨m₀, hl.bare.symm, ?_⟩
      exact Messages.mem_ascending.mpr ⟨hm₀, by rw [← hl.in_group_eq]; exact hin⟩
    · rw [hunread] at hmark
      cases hmark

end Runs

/-- User 2 is a friend of user 1 and writes, user 1 opens the chat, and user 2 writes again. -/
theorem chats_later_again : ∃ s t : Client,
    s.state.getChatConversations 1 = [⟨2, str "bob", some (str "hi"), some 1000000, false, true, false, none⟩] ∧
    t.state.getChatConversations 1 = [⟨2, str "bob", some (str "there?"), some 1020000, true, true, false, none⟩] ∧
    ∃ tr, ∃ m ∈ t.state.messages.rows, s.state.messages.next ≤ m.id ∧ Brought 1 tr m.said ∧
      Messages.unread 1 2 m = true := by
  let first := Call.receiveMessage 2 (str "hi") 1000000 none none
  let opened := Call.markMessagesAsRead 2
  let second := Call.receiveMessage 2 (str "there?") 1020000 none none
  let db : Database := { friends := (∅ : UMap Int Friend).set 2 ⟨2, str "bob", true, 0, 0⟩ }
  have hread : ∀ e ∈ [Tasks.Event.launch (first.task 1), .turn 0, .turn 0, .launch (opened.task 1), .turn 1],
      Client.Event 1 e := by
    rintro e (_ | ⟨_, _ | ⟨_, _ | ⟨_, _ | ⟨_, _ | ⟨_, ⟨⟩⟩⟩⟩⟩⟩)
    · exact .call first
    · exact .turn 0
    · exact .turn 0
    · exact .call opened
    · exact .turn 1
  have hagain : ∀ e ∈ [Tasks.Event.launch (second.task 1), .turn 2, .turn 2], Client.Event 1 e := by
    rintro e (_ | ⟨_, _ | ⟨_, _ | ⟨_, ⟨⟩⟩⟩⟩)
    · exact .call second
    · exact .turn 2
    · exact .turn 2
  have settled : db.messages.Settled 1 := fun r hr => absurd hr List.not_mem_nil
  obtain ⟨tr, run⟩ := Client.run_of_exec (s := ⟨[], db⟩) hread rfl
  refine ⟨_, _, ?_, ?_, _, Or.resolve_left ((chats_later settled run (Client.run_of_exec hagain rfl).choose_spec
    (c := ⟨2, str "bob", some (str "there?"), some 1020000, true, true, false, none⟩) ?_).2 rfl (by decide)) ?_⟩ <;>
  decide

end ChatApp.Room
