/-
`Timestamps.lean` -- the time with which the client stores a message, on each of the ways a message takes.

A direct message carries seconds when it is live and milliseconds in a history; a group message carries
milliseconds both times. The client guesses the unit by the size, at each place for itself: what is below
2000000000 are seconds. Only a direct history is taken as it is. So the guess is right for milliseconds of this
century, and for seconds up to the year 2033.
-/
import ChatApp.Forwarded
import ChatApp.HistoryReplies
import ChatApp.LoadHistory
import ChatApp.MainActivity
import ChatApp.SystemMessages

set_option autoImplicit false

namespace ChatApp.Room

/-- The call of `receiveMessage` that is launched. -/
def receive (me : Int) (m : Incoming) : Dao Unit := receiveMessage me m.senderId m.message m.tsMillis m.groupId none

/-! ## The three screens

Each takes a payload to the calls that it launches. `me` is the user, and `now` the clock, in seconds where
seconds are expected. -/

namespace ChatsFragment

/-- `handleGroupHistorySuccess`. -/
def handleGroupHistorySuccess (payload : Bytes) : List Incoming :=
  let kv := pairs payload
  let count := ((kv.find? (str "count")).bind toIntOrNull).getD 0
  let groupId := (kv.find? (str "groupId")).bind toIntOrNull
  (List.range count.toNat).filterMap fun i => do
    let fromUserId ← (kv.find? (key "from" i)).bind toIntOrNull
    let content ← kv.find? (key "content" i)
    let timestamp ← (kv.find? (key "timestamp" i)).bind toLongOrNull
    let gid ← groupId.or ((kv.find? (str "gid")).bind toIntOrNull)
    return ⟨fromUserId, content, to_millis timestamp, some gid⟩

/-- `onMessageReceived`. -/
def onMessageReceived (me now : Int) (messageType : MessageType) (payload : Bytes) : List (Dao Unit) :=
  match messageType with
  | .DIRECT_MESSAGE => (handleIncomingDirectMessage now payload).toList.map (receive me)
  | .GROUP_MESSAGE => (handleIncomingGroupMessage now payload).toList.map (receive me)
  | .SUCCESS =>
    (if (str "count=").isPrefixOf payload && contains payload "&from0=" && contains payload "&to0=" then
      (handleConversationHistory payload).map HistoryMessage.receive else []) ++
    (if contains payload "groupId=" && contains payload "from0=" then
      (handleGroupHistorySuccess payload).map (receive me) else [])
  | _ => []

end ChatsFragment

namespace ChatActivity

/-- `handleIncomingMessage`, while the chat with `friendId` is open. -/
def handleIncomingMessage (friendId now : Int) (payload : Bytes) : Option Incoming := do
  let kv := pairs payload
  let senderId ← (kv.find? (str "senderId")).bind toIntOrNull
  let message ← kv.find? (str "message")
  let timestamp := ((kv.find? (str "timestamp")).bind toLongOrNull).getD now
  guard (senderId = friendId)
  return ⟨senderId, message, to_millis timestamp, none⟩

/-- `onMessageReceived`, before the history was loaded. -/
def onMessageReceived (me friendId now : Int) (messageType : MessageType) (payload : Bytes) : List (Dao Unit) :=
  match messageType with
  | .DIRECT_MESSAGE => (handleIncomingMessage friendId now payload).toList.map (receive me)
  | .SUCCESS =>
    if (str "count=").isPrefixOf payload && contains payload "&from0=" && contains payload "&to0=" then
      (handleConversationHistory payload).map HistoryMessage.receive else []
  | _ => []

end ChatActivity

namespace GroupChatActivity

/-- What `handleIncomingMessage` persists. The clock is read in milliseconds. -/
def persisted (c : Chat) (now : Int) (payload : Bytes) : Option Incoming :=
  (incoming c now payload).map fun m => ⟨m.1, m.2.1, to_millis m.2.2, some c.groupId⟩

/-- The messages of a group history, if it is one of this group; `now` is the clock at each of them. -/
def historyMessages (c : Chat) (now : Nat → Int) (payload : Bytes) : List Incoming :=
  let kv := pairs payload
  if contains payload "groupId=" && contains payload "count=" && contains payload "from0=" &&
      contains payload "content0=" then
    if (kv.find? (str "groupId")).bind toIntOrNull = some c.groupId then
      let count := ((kv.find? (str "count")).bind toIntOrNull).getD 0
      (List.range count.toNat).filterMap fun i => do
        let fromId ← (kv.find? (key "from" i)).bind toIntOrNull
        let content ← kv.find? (key "content" i)
        let ts := ((kv.find? (key "timestamp" i)).bind toLongOrNull).getD (now i)
        return ⟨fromId, content, to_millis ts, some c.groupId⟩
    else []
  else []

/-- `onMessageReceived`, as far as messages are stored. -/
def onMessageReceived (c : Chat) (now : Nat → Int) (messageType : MessageType) (payload : Bytes) : List (Dao Unit) :=
  match messageType with
  | .GROUP_MESSAGE => (persisted c (now 0) payload).toList.map (receive c.myUserId)
  | .SUCCESS => (historyMessages c now payload).map (receive c.myUserId)
  | _ => []

end GroupChatActivity

/-! ## What is stored -/

/-- The times that a call stores, in a database without messages. -/
def stored_times (call : Dao Unit) : List Int := (call.run {}).2.messages.rows.map Message.timestamp

theorem stored_receive (me : Int) (m : Incoming) : stored_times (receive me m) = [m.tsMillis] := by
  have hrun := receiveMessage_run me m.senderId m.message m.tsMillis m.groupId none {}
  rw [stored_times, receive, hrun]
  rfl

theorem stored_history (h : HistoryMessage) : stored_times h.receive = [h.timestamp] := by
  rw [stored_times, receive_run]
  rfl

/-! ## Reading a history -/

section Histories

open handle_client

/-- A row as it can be stored: the columns have their widths, and a text that was parsed has no `&`. -/
structure SoundRow (r : MessageRow) : Prop where
  sender : Fits 32 r.from_user_id
  recipient : Fits 32 r.to_user_id
  content : 38 ∉ r.content
  timestamp : Fits 64 r.timestamp

/-- The same for a row of a group. -/
structure SoundGroupRow (r : GroupMessageRow) : Prop where
  sender : Fits 32 r.user_id
  content : 38 ∉ r.content
  timestamp : Fits 64 r.timestamp

/-- A history holds as many messages as an `int` can count, and no more. -/
theorem count_read {n : Nat} (hn : n < 2 ^ 31) : toIntOrNull (to_string (n : Int)) = some (n : Int) := by
  apply toNumberOrNull_to_string
  refine ⟨?_, ?_⟩ <;> omega

theorem conversation_reply_eq (entries : List MessageRow) : conversation_reply entries =
    serialize_kv ([(str "count", to_string entries.length)] ++
      numbered_items (entries.map Reply.message_fields)) := by
  rw [conversation_reply, numbered_items, List.zipIdx_map, List.map_map]
  rfl

theorem group_reply_eq (gid : Int) (entries : List GroupMessageRow) : group_reply gid entries =
    serialize_kv ([(str "groupId", to_string gid), (str "count", to_string entries.length)] ++
      numbered_items (entries.map Reply.group_message_fields)) := by
  rw [group_reply, numbered_items, List.zipIdx_map, List.map_map]
  rfl

theorem listable_message {r : MessageRow} (h : SoundRow r) : Listable (Reply.message_fields r) where
  worded := by simp only [Reply.message_fields, List.forall_mem_cons]; decide
  once := by simp only [Reply.message_fields, List.map_cons, List.map_nil]; decide
  plain := by
    have hnumber : ∀ i : Int, 38 ∉ to_string i := fun i => notMem_to_string (by decide)
    simp [Reply.message_fields, hnumber, h.content]

theorem listable_group_message {r : GroupMessageRow} (h : SoundGroupRow r) :
    Listable (Reply.group_message_fields r) where
  worded := by simp only [Reply.group_message_fields, List.forall_mem_cons]; decide
  once := by simp only [Reply.group_message_fields, List.map_cons, List.map_nil]; decide
  plain := by
    have hnumber : ∀ i : Int, 38 ∉ to_string i := fun i => notMem_to_string (by decide)
    simp [Reply.group_message_fields, hnumber, h.content]

/-- The heading of a group history. -/
theorem heading_group (gid : Int) (n : Nat) : Heading [(str "groupId", to_string gid), (str "count", to_string n)] where
  readable p hp := by
    simp only [List.mem_cons, List.not_mem_nil, or_false] at hp
    rcases hp with rfl | rfl
    · exact readable_number (by decide) gid
    · exact readable_number (by decide) n
  unnumbered p hp c hc := by
    have hdigits : isdigit 100 = false ∧ isdigit 116 = false := by decide
    simp only [List.mem_cons, List.not_mem_nil, or_false] at hp
    rcases hp with rfl | rfl
    · have hlast : c = 100 := (Option.some.inj hc).symm
      rw [hlast, hdigits.1]
    · have hlast : c = 116 := (Option.some.inj hc).symm
      rw [hlast, hdigits.2]
  once := by
    show [str "groupId", str "count"].Nodup
    decide

/-- A loop over the numbers of a list that reads each entry. -/
theorem entries_read {α β : Type} {f : Nat → Option β} {g : α → β} {xs : List α}
    (h : ∀ i x, xs[i]? = some x → f i = some (g x)) : (List.range xs.length).filterMap f = xs.map g := by
  rw [filterMap_range_of h]
  exact congrFun List.filterMap_eq_map' xs

/-- **A direct history is read as it was written.** -/
theorem conversation_read {entries : List MessageRow} (hsound : ∀ r ∈ entries, SoundRow r)
    (hcount : entries.length < 2 ^ 31) : handleConversationHistory (conversation_reply entries) =
      entries.map fun r => ⟨r.from_user_id, r.to_user_id, r.content, r.timestamp⟩ := by
  have hlist : ∀ fields ∈ entries.map Reply.message_fields, Listable fields :=
    List.forall_mem_map.mpr fun r hr => listable_message (hsound r hr)
  have hhead := find?_heading (heading_count entries.length) hlist List.mem_cons_self
  rw [conversation_reply_eq, handleConversationHistory]
  simp only [hhead, Option.bind_some, count_read hcount, Option.getD_some, Int.toNat_natCast]
  refine entries_read fun i r hr => ?_
  have hplace : (entries.map Reply.message_fields)[i]? = some (Reply.message_fields r) := by
    rw [List.getElem?_map, hr]
    rfl
  have hfield : ∀ f ∈ Reply.message_fields r, _ := fun f hf =>
    find?_numbered (heading_count entries.length) hlist hplace (show (f.1, f.2) ∈ Reply.message_fields r from hf)
  simp only [Reply.message_fields, List.forall_mem_cons] at hfield
  obtain ⟨hfrom, hto, hcontent, htime, -⟩ := hfield
  have hr := hsound r (List.mem_of_getElem? hr)
  have hsender : toIntOrNull (to_string r.from_user_id) = some r.from_user_id := toNumberOrNull_to_string hr.sender
  have hrecipient : toIntOrNull (to_string r.to_user_id) = some r.to_user_id := toNumberOrNull_to_string hr.recipient
  have hstamp : toLongOrNull (to_string r.timestamp) = some r.timestamp := toNumberOrNull_to_string hr.timestamp
  simp only [hfrom, hto, hcontent, htime, Option.bind_some, hsender, hrecipient, hstamp]
  rfl

section Group

variable (gid : Int) {entries : List GroupMessageRow}

theorem group_heads (hsound : ∀ r ∈ entries, SoundGroupRow r) :
    (pairs (group_reply gid entries)).find? (str "groupId") = some (to_string gid) ∧
      (pairs (group_reply gid entries)).find? (str "count") = some (to_string entries.length) := by
  have hlist : ∀ fields ∈ entries.map Reply.group_message_fields, Listable fields :=
    List.forall_mem_map.mpr fun r hr => listable_group_message (hsound r hr)
  rw [group_reply_eq]
  exact ⟨find?_heading (heading_group gid entries.length) hlist (by simp),
    find?_heading (heading_group gid entries.length) hlist (by simp)⟩

theorem group_fields (hsound : ∀ r ∈ entries, SoundGroupRow r) {i : Nat} {r : GroupMessageRow}
    (hr : entries[i]? = some r) :
    ((pairs (group_reply gid entries)).find? (key "from" i)).bind toIntOrNull = some r.user_id ∧
      (pairs (group_reply gid entries)).find? (key "content" i) = some r.content ∧
      ((pairs (group_reply gid entries)).find? (key "timestamp" i)).bind toLongOrNull = some r.timestamp := by
  have hlist : ∀ fields ∈ entries.map Reply.group_message_fields, Listable fields :=
    List.forall_mem_map.mpr fun r hr => listable_group_message (hsound r hr)
  have hplace : (entries.map Reply.group_message_fields)[i]? = some (Reply.group_message_fields r) := by
    rw [List.getElem?_map, hr]
    rfl
  have hfield : ∀ f ∈ Reply.group_message_fields r, _ := fun f hf =>
    find?_numbered (heading_group gid entries.length) hlist hplace
      (show (f.1, f.2) ∈ Reply.group_message_fields r from hf)
  simp only [Reply.group_message_fields, List.forall_mem_cons] at hfield
  obtain ⟨hfrom, hcontent, htime, -⟩ := hfield
  have hr := hsound r (List.mem_of_getElem? hr)
  rw [group_reply_eq, hfrom, hcontent, htime]
  exact ⟨toNumberOrNull_to_string hr.sender, rfl, toNumberOrNull_to_string hr.timestamp⟩

/-- **A group history is read as it was written**, up to the guess of the unit, by the list of chats. -/
theorem fragment_group_read (hsound : ∀ r ∈ entries, SoundGroupRow r) (hcount : entries.length < 2 ^ 31)
    (hgid : Fits 32 gid) : ChatsFragment.handleGroupHistorySuccess (group_reply gid entries) =
      entries.map fun r => ⟨r.user_id, r.content, to_millis r.timestamp, some gid⟩ := by
  obtain ⟨hgroup, hn⟩ := group_heads gid hsound
  have hgroup' : toIntOrNull (to_string gid) = some gid := toNumberOrNull_to_string hgid
  rw [ChatsFragment.handleGroupHistorySuccess]
  simp only [hgroup, hn, Option.bind_some, count_read hcount, Option.getD_some, Int.toNat_natCast, hgroup']
  refine entries_read fun i r hr => ?_
  obtain ⟨hfrom, hcontent, htime⟩ := group_fields gid hsound hr
  simp only [hfrom, hcontent, htime]
  rfl

theorem group_mentions (hne : entries ≠ []) :
    contains (group_reply gid entries) "groupId=" = true ∧ contains (group_reply gid entries) "count=" = true ∧
      contains (group_reply gid entries) "from0=" = true ∧ contains (group_reply gid entries) "content0=" = true := by
  obtain ⟨r, rest, rfl⟩ := List.exists_cons_of_ne_nil hne
  refine ⟨?_, ?_, ?_, ?_⟩ <;> rw [contains_iff, group_reply]
  · exact infix_of_item (k := str "groupId") List.mem_cons_self
  · exact infix_of_item (k := str "count") (List.mem_cons_of_mem _ List.mem_cons_self)
  · exact infix_of_item (k := key "from" 0) (v := to_string r.user_id) (by simp [group_message_item])
  · exact infix_of_item (k := key "content" 0) (v := r.content) (by simp [group_message_item])

/-- The same, by the screen of the group. -/
theorem activity_group_read (hsound : ∀ r ∈ entries, SoundGroupRow r) (hcount : entries.length < 2 ^ 31)
    (hne : entries ≠ []) (c : GroupChatActivity.Chat) (hgid : Fits 32 c.groupId) (now : Nat → Int) :
    GroupChatActivity.historyMessages c now (group_reply c.groupId entries) =
      entries.map fun r => ⟨r.user_id, r.content, to_millis r.timestamp, some c.groupId⟩ := by
  obtain ⟨hgroup, hn⟩ := group_heads c.groupId hsound
  obtain ⟨hgid', hcount', hfrom, hcontent⟩ := group_mentions c.groupId hne
  have hgroup' : toIntOrNull (to_string c.groupId) = some c.groupId := toNumberOrNull_to_string hgid
  rw [GroupChatActivity.historyMessages]
  simp only [hgid', hcount', hfrom, hcontent, hgroup, hn, Option.bind_some, count_read hcount, Option.getD_some,
    Int.toNat_natCast, hgroup', Bool.and_self, if_true]
  refine entries_read fun i r hr => ?_
  obtain ⟨hfrom, hcontent, htime⟩ := group_fields c.groupId hsound hr
  simp only [hfrom, hcontent, htime]
  rfl

end Group

/-! ## What is recognised -/

theorem amp_infix_of_item {first : Bytes × Bytes} {items : List (Bytes × Bytes)} {k v : Bytes}
    (h : (k, v) ∈ items) : 38 :: k ++ [61] <:+: serialize_kv (first :: items) := by
  have hpair : [38] ++ (k ++ 61 :: v) <:+: serialize_kv (first :: items) :=
    sep_infix_intercalate (List.mem_map.mpr ⟨(k, v), h, rfl⟩)
  refine List.IsInfix.trans ?_ hpair
  exact ⟨[], v, by simp⟩

/-- A direct history is recognised. -/
theorem conversation_recognised {entries : List MessageRow} (hne : entries ≠ []) :
    ((str "count=").isPrefixOf (conversation_reply entries) && contains (conversation_reply entries) "&from0=" &&
      contains (conversation_reply entries) "&to0=") = true := by
  obtain ⟨r, rest, rfl⟩ := List.exists_cons_of_ne_nil hne
  have hfrom : contains (conversation_reply (r :: rest)) "&from0=" = true := by
    rw [contains_iff, conversation_reply]
    exact amp_infix_of_item (k := key "from" 0) (v := to_string r.from_user_id) (by simp [message_item])
  have hto : contains (conversation_reply (r :: rest)) "&to0=" = true := by
    rw [contains_iff, conversation_reply]
    exact amp_infix_of_item (k := key "to" 0) (v := to_string r.to_user_id) (by simp [message_item])
  have hcount : (str "count=").isPrefixOf (conversation_reply (r :: rest)) = true := by
    rw [List.isPrefixOf_iff_prefix]
    exact ⟨_, rfl⟩
  rw [hfrom, hto, hcount]
  rfl

/-- A group history is not taken for one. -/
theorem group_not_recognised (gid : Int) (entries : List GroupMessageRow) :
    (str "count=").isPrefixOf (group_reply gid entries) = false := by
  obtain ⟨t, ht⟩ : ∃ t, group_reply gid entries = 103 :: t := ⟨_, rfl⟩
  rw [ht]
  rfl

end Histories

/-! ## The unit of a time

`sent` is the second at which the server handled a direct message, `ms` the millisecond of a group message. -/

section Units

/-- Milliseconds of this century are not taken for seconds. -/
theorem to_millis_of_millis {ms : Int} (h : 946684800000 ≤ ms) : to_millis ms = ms := by
  apply if_neg
  omega

/-- Seconds are scaled up to the threshold, and no further. -/
theorem to_millis_of_seconds {sent : Int} (h : 946684800 ≤ sent) :
    to_millis sent = if sent < 2000000000 then sent * 1000 else sent := by
  by_cases hlow : sent < 2000000000
  · rw [to_millis, if_pos hlow, if_pos hlow, Int.bmod_eq_of_le] <;> omega
  · rw [to_millis, if_neg hlow, if_neg hlow]

/-- So a direct message gets its millisecond exactly below the threshold. -/
theorem to_millis_seconds_iff {sent : Int} (h : 946684800 ≤ sent) :
    to_millis sent = sent * 1000 ↔ sent < 2000000000 := by
  rw [to_millis_of_seconds h]
  split
  · next hlow => exact iff_of_true rfl hlow
  · next hlow => exact iff_of_false (by omega) hlow

end Units

/-! ## Live messages -/

section Live

open handle_client

variable {sender gid : Int} {text : Bytes} (me now : Int)

theorem fragment_live {sent : Int} (htext : 38 ∉ text) (hsender : Fits 32 sender) (hsent : Fits 64 sent) :
    (ChatsFragment.onMessageReceived me now .DIRECT_MESSAGE
      (direct_message_frame sender text (sent * 1000)).payload).map stored_times = [[to_millis sent]] := by
  have hseconds : sent * 1000 / 1000 = sent := Int.mul_ediv_cancel _ (by decide)
  have hread : handleIncomingDirectMessage now (direct_message_frame sender text (sent * 1000)).payload = _ :=
    direct_frame_read htext hsender (hseconds.symm ▸ hsent)
  rw [ChatsFragment.onMessageReceived, hread, hseconds]
  exact congrArg (fun ts => [ts]) (stored_receive me _)

theorem activity_live {sent : Int} (htext : 38 ∉ text) (hsender : Fits 32 sender) (hsent : Fits 64 sent) :
    (ChatActivity.onMessageReceived me sender now .DIRECT_MESSAGE
      (direct_message_frame sender text (sent * 1000)).payload).map stored_times = [[to_millis sent]] := by
  have hseconds : sent * 1000 / 1000 = sent := Int.mul_ediv_cancel _ (by decide)
  have hfrom : toIntOrNull (to_string sender) = some sender := toNumberOrNull_to_string hsender
  have htime : toLongOrNull (to_string sent) = some sent := toNumberOrNull_to_string hsent
  have hread : ChatActivity.handleIncomingMessage sender now (direct_message_frame sender text (sent * 1000)).payload
      = some ⟨sender, text, to_millis sent, none⟩ := by
    obtain ⟨hfrom', hmessage, hstamp⟩ := direct_values htext sender sent
    rw [ChatActivity.handleIncomingMessage, direct_message_frame, hseconds]
    simp only [hfrom', hmessage, hstamp, Option.bind_some, hfrom, htime]
    simp [guard]
  rw [ChatActivity.onMessageReceived, hread]
  exact congrArg (fun ts => [ts]) (stored_receive me _)

theorem fragment_group_live {ms : Int} (htext : 38 ∉ text) (hgid : Fits 32 gid) (hsender : Fits 32 sender)
    (hms : Fits 64 ms) :
    (ChatsFragment.onMessageReceived me now .GROUP_MESSAGE
      (group_message_frame sender gid text ms).payload).map stored_times = [[to_millis ms]] := by
  rw [ChatsFragment.onMessageReceived, group_frame_read htext hgid hsender hms]
  exact congrArg (fun ts => [ts]) (stored_receive me _)

theorem activity_group_live {c : GroupChatActivity.Chat} {ms : Int} (clock : Nat → Int) (htext : 38 ∉ text)
    (hgid : Fits 32 c.groupId) (hsender : Fits 32 sender) (hms : Fits 64 ms) :
    (GroupChatActivity.onMessageReceived c clock .GROUP_MESSAGE
      (group_message_frame sender c.groupId text ms).payload).map stored_times = [[to_millis ms]] := by
  have htime : toLongOrNull (to_string ms) = some ms := toNumberOrNull_to_string hms
  rw [GroupChatActivity.onMessageReceived, GroupChatActivity.persisted, group_message_frame,
    GroupChatActivity.incoming_group_message (clock 0) ms htext hgid hsender, htime]
  exact congrArg (fun ts => [ts]) (stored_receive c.myUserId _)

end Live

/-! ## Messages of a history -/

section Old

open handle_client

/-- What the call for a place of a history stores. -/
theorem stored_at {α β : Type} {rows : List α} {read : α → β} {launch : β → Dao Unit} {time : β → Int} {i : Nat} {r : α}
    (h : ∀ m, stored_times (launch m) = [time m]) (hi : rows[i]? = some r) :
    (((rows.map read).map launch).map stored_times)[i]? = some [time (read r)] := by
  rw [List.getElem?_map, List.getElem?_map, List.getElem?_map, hi]
  exact congrArg some (h (read r))

section Direct

variable {entries : List MessageRow} {place : Nat} {r : MessageRow} (me now friendId : Int)
  (hsound : ∀ r ∈ entries, SoundRow r) (hcount : entries.length < 2 ^ 31) (hplace : entries[place]? = some r)
include hsound hcount hplace

/-- The call for a place of a direct history stores the time that stands there. -/
theorem conversation_stored :
    (((handleConversationHistory (conversation_reply entries)).map HistoryMessage.receive).map stored_times)[place]?
      = some [r.timestamp] := by
  rw [conversation_read hsound hcount]
  exact stored_at stored_history hplace

theorem fragment_history :
    ((ChatsFragment.onMessageReceived me now .SUCCESS (conversation_reply entries)).map stored_times)[place]?
      = some [r.timestamp] := by
  have hstored := conversation_stored hsound hcount hplace
  have hne : entries ≠ [] := List.ne_nil_of_mem (List.mem_of_getElem? hplace)
  rw [ChatsFragment.onMessageReceived, if_pos (conversation_recognised hne), List.map_append,
    List.getElem?_append_left]
  · exact hstored
  · exact (List.getElem?_eq_some_iff.mp hstored).1

theorem activity_history :
    ((ChatActivity.onMessageReceived me friendId now .SUCCESS (conversation_reply entries)).map stored_times)[place]?
      = some [r.timestamp] := by
  have hne : entries ≠ [] := List.ne_nil_of_mem (List.mem_of_getElem? hplace)
  rw [ChatActivity.onMessageReceived, if_pos (conversation_recognised hne)]
  exact conversation_stored hsound hcount hplace

end Direct

section Group

variable {entries : List GroupMessageRow} {place : Nat} {r : GroupMessageRow} {gid : Int}
  (hsound : ∀ r ∈ entries, SoundGroupRow r) (hcount : entries.length < 2 ^ 31) (hplace : entries[place]? = some r)
include hsound hcount hplace

theorem fragment_group_history (me now : Int) (hgid : Fits 32 gid) :
    ((ChatsFragment.onMessageReceived me now .SUCCESS (group_reply gid entries)).map stored_times)[place]?
      = some [to_millis r.timestamp] := by
  have hne : entries ≠ [] := List.ne_nil_of_mem (List.mem_of_getElem? hplace)
  obtain ⟨hgroup, -, hfrom, -⟩ := group_mentions gid hne
  rw [ChatsFragment.onMessageReceived, group_not_recognised, Bool.false_and, Bool.false_and, hgroup, hfrom,
    if_neg Bool.false_ne_true, Bool.and_self, if_pos (Eq.refl true), List.nil_append,
    fragment_group_read gid hsound hcount hgid]
  exact stored_at (stored_receive me) hplace

theorem activity_group_history (c : GroupChatActivity.Chat) (clock : Nat → Int) (hgid : Fits 32 c.groupId) :
    ((GroupChatActivity.onMessageReceived c clock .SUCCESS (group_reply c.groupId entries)).map stored_times)[place]?
      = some [to_millis r.timestamp] := by
  have hne : entries ≠ [] := List.ne_nil_of_mem (List.mem_of_getElem? hplace)
  rw [GroupChatActivity.onMessageReceived, activity_group_read hsound hcount hne c hgid clock]
  exact stored_at (stored_receive c.myUserId) hplace

end Group

end Old

/-! ## The paths compared -/

section Compared

open handle_client

/-- Every path of a direct message stores one time: live, on both screens, and from a history that has it at `place`.
`sent` is the second at which the server handled it. -/
def DirectAgrees (me now : Int) (sender : Int) (text : Bytes) (sent : Int) (entries : List MessageRow)
    (place : Nat) : Prop :=
  ∃ time,
    (ChatsFragment.onMessageReceived me now .DIRECT_MESSAGE
      (direct_message_frame sender text (sent * 1000)).payload).map stored_times = [[time]] ∧
    (ChatActivity.onMessageReceived me sender now .DIRECT_MESSAGE
      (direct_message_frame sender text (sent * 1000)).payload).map stored_times = [[time]] ∧
    ((ChatsFragment.onMessageReceived me now .SUCCESS (conversation_reply entries)).map stored_times)[place]?
      = some [time] ∧
    ((ChatActivity.onMessageReceived me sender now .SUCCESS (conversation_reply entries)).map stored_times)[place]?
      = some [time]

/-- Every path of a group message stores the millisecond `ms` with which it was sent. -/
def GroupAgrees (me now : Int) (c : GroupChatActivity.Chat) (clock : Nat → Int) (sender : Int) (text : Bytes) (ms : Int)
    (entries : List GroupMessageRow) (place : Nat) : Prop :=
  (ChatsFragment.onMessageReceived me now .GROUP_MESSAGE
    (group_message_frame sender c.groupId text ms).payload).map stored_times = [[ms]] ∧
  (GroupChatActivity.onMessageReceived c clock .GROUP_MESSAGE
    (group_message_frame sender c.groupId text ms).payload).map stored_times = [[ms]] ∧
  ((ChatsFragment.onMessageReceived me now .SUCCESS (group_reply c.groupId entries)).map stored_times)[place]?
    = some [ms] ∧
  ((GroupChatActivity.onMessageReceived c clock .SUCCESS (group_reply c.groupId entries)).map stored_times)[place]?
    = some [ms]

/-- The live paths scale the seconds, and the history has the millisecond. -/
theorem direct_agrees_iff (me now : Int) {sender recipient sent : Int} {text : Bytes} {entries : List MessageRow}
    {place : Nat} (hsent : 946684800 ≤ sent) (hsound : ∀ r ∈ entries, SoundRow r) (hcount : entries.length < 2 ^ 31)
    (hplace : entries[place]? = some ⟨sender, recipient, text, sent * 1000⟩) :
    DirectAgrees me now sender text sent entries place ↔ sent < 2000000000 := by
  have hrow : SoundRow ⟨sender, recipient, text, sent * 1000⟩ := hsound _ (List.mem_of_getElem? hplace)
  have hlong : Fits 64 sent := by
    obtain ⟨hlow, hhigh⟩ := hrow.timestamp
    constructor <;> simp only at hlow hhigh ⊢ <;> omega
  have hlive := fragment_live me now hrow.content hrow.sender hlong
  have hlive' := activity_live me now hrow.content hrow.sender hlong
  have hold := fragment_history me now hsound hcount hplace
  have hold' := activity_history me now sender hsound hcount hplace
  rw [← to_millis_seconds_iff hsent]
  unfold DirectAgrees
  constructor
  · rintro ⟨time, hfirst, -, hthird, -⟩
    rw [hlive] at hfirst
    rw [hold] at hthird
    have hfirst : to_millis sent = time := by simpa using hfirst
    have hthird : sent * 1000 = time := by simpa using hthird
    exact hfirst.trans hthird.symm
  · intro h
    rw [h] at hlive hlive'
    exact ⟨sent * 1000, hlive, hlive', hold, hold'⟩

/-- A group message keeps its millisecond. -/
theorem group_agrees (me now : Int) (c : GroupChatActivity.Chat) (clock : Nat → Int) {sender ms : Int} {text : Bytes}
    {entries : List GroupMessageRow} {place : Nat} (hms : 946684800000 ≤ ms) (hgid : Fits 32 c.groupId)
    (hsound : ∀ r ∈ entries, SoundGroupRow r) (hcount : entries.length < 2 ^ 31)
    (hplace : entries[place]? = some ⟨c.groupId, sender, text, ms⟩) :
    GroupAgrees me now c clock sender text ms entries place := by
  have hrow : SoundGroupRow ⟨c.groupId, sender, text, ms⟩ := hsound _ (List.mem_of_getElem? hplace)
  have hkeep : to_millis ms = ms := to_millis_of_millis hms
  have hlive := fragment_group_live me now hrow.content hgid hrow.sender hrow.timestamp
  have hlive' := activity_group_live clock hrow.content hgid hrow.sender hrow.timestamp
  have hold := fragment_group_history hsound hcount hplace me now hgid
  have hold' := activity_group_history hsound hcount hplace c clock hgid
  simp only [hkeep] at hlive hlive' hold hold'
  exact ⟨hlive, hlive', hold, hold'⟩

/-- **The paths agree** on every message of this century exactly if the seconds of the direct one are below the
threshold. -/
theorem timestamps_agree_iff (me now : Int) (c : GroupChatActivity.Chat) (clock : Nat → Int)
    {sender recipient sent groupSender ms : Int} {text groupText : Bytes} {entries : List MessageRow}
    {groupEntries : List GroupMessageRow} {place groupPlace : Nat} (hsent : 946684800 ≤ sent)
    (hms : 946684800000 ≤ ms) (hgid : Fits 32 c.groupId)
    (hsound : ∀ r ∈ entries, SoundRow r) (hcount : entries.length < 2 ^ 31)
    (hplace : entries[place]? = some ⟨sender, recipient, text, sent * 1000⟩)
    (hgroupSound : ∀ r ∈ groupEntries, SoundGroupRow r) (hgroupCount : groupEntries.length < 2 ^ 31)
    (hgroupPlace : groupEntries[groupPlace]? = some ⟨c.groupId, groupSender, groupText, ms⟩) :
    DirectAgrees me now sender text sent entries place ∧
      GroupAgrees me now c clock groupSender groupText ms groupEntries groupPlace ↔ sent < 2000000000 := by
  have hgroup := group_agrees me now c clock hms hgid hgroupSound hgroupCount hgroupPlace
  rw [direct_agrees_iff me now hsent hsound hcount hplace]
  exact and_iff_left hgroup

/-- A message of November 2023. -/
theorem timestamps_agree_2023 :
    DirectAgrees 1 0 2 (str "hi") 1700000000 [⟨2, 1, str "hi", 1700000000000⟩] 0 ∧
      GroupAgrees 1 0 ⟨7, 1, str "alice"⟩ (fun _ => 0) 2 (str "hi") 1700000000123
        [⟨7, 2, str "hi", 1700000000123⟩] 0 := by
  have hsound : ∀ r ∈ [(⟨2, 1, str "hi", 1700000000000⟩ : MessageRow)], SoundRow r := by
    simp only [List.forall_mem_singleton]
    exact ⟨by decide, by decide, by decide, by decide⟩
  have hgroupSound : ∀ r ∈ [(⟨7, 2, str "hi", 1700000000123⟩ : GroupMessageRow)], SoundGroupRow r := by
    simp only [List.forall_mem_singleton]
    exact ⟨by decide, by decide, by decide⟩
  exact (timestamps_agree_iff 1 0 ⟨7, 1, str "alice"⟩ (fun _ => 0) (by decide) (by decide) (by decide) hsound
    (by decide) rfl hgroupSound (by decide) rfl).mpr (by decide)

/-- At 03:33:20 on 18 May 2033, UTC, the same message has two times, some 63 years apart. -/
theorem timestamps_disagree_2033 : ¬DirectAgrees 1 0 2 (str "hi") 2000000000 [⟨2, 1, str "hi", 2000000000000⟩] 0 := by
  have hsound : ∀ r ∈ [(⟨2, 1, str "hi", 2000000000000⟩ : MessageRow)], SoundRow r := by
    simp only [List.forall_mem_singleton]
    exact ⟨by decide, by decide, by decide, by decide⟩
  have hplace : [(⟨2, 1, str "hi", 2000000000000⟩ : MessageRow)][0]? = some ⟨2, 1, str "hi", 2000000000 * 1000⟩ := rfl
  rw [direct_agrees_iff 1 0 (by decide) hsound (by decide) hplace]
  decide

end Compared

end ChatApp.Room
