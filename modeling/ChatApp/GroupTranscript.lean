/-
`GroupTranscript.lean` -- when the transcript of a group is what the store says.

An entry says who sent what and when; its line. An emission makes the lines those of its rows, and a message that is
sent or comes in adds one. The end of a look-up should change a name and no line. It writes to an index, though, and
after another emission the index may be the index of another message, or of none. `finds_placeholder` is the condition
under which a write changes no line, and it is exact (`step_lines_iff`).
-/
import ChatApp.GroupChatActivity

set_option autoImplicit false

namespace ChatApp.Room.GroupChatActivity

/-! ## Lines -/

/-- The sender, the text and the timestamp of an entry. -/
def line (m : GroupMessage) : Int × Bytes × Int := (m.senderId, m.message, m.timestamp)

/-- The sender, the text and the timestamp of a row. -/
def row_line (m : Message) : Int × Bytes × Int := (m.senderId, m.content, m.timestamp)

/-- The lines of the transcript. -/
def Screen.lines (s : Screen) : List (Int × Bytes × Int) := s.messagesList.map line

/-- The lines that an event adds at the end. -/
def appended (c : Chat) : Event → List (Int × Bytes × Int)
  | .sent message timestamp => [(c.myUserId, message, timestamp)]
  | .received payload now =>
    (incoming c now payload).toList.filter fun l => l.1 = 0 || l.1 ≠ c.myUserId
  | _ => []

/-- The lines that an event should leave. -/
def lines_after (c : Chat) (shown : List (Int × Bytes × Int)) : Event → List (Int × Bytes × Int)
  | .emission dbMessages => dbMessages.map row_line
  | e => shown ++ appended c e

/-- The look-up that ends, if one does, finds its message at its index: the same sender, text and timestamp. -/
def finds_placeholder (s : Screen) : Event → Bool
  | .resolved i _ => s.lookups[i]?.all fun l => s.messagesList[l.index]?.map line = some (line l.placeholder)
  | _ => true

section Lines

variable {c : Chat} {s t : Screen} {e : Event}

theorem lines_after_of (shown : List (Int × Bytes × Int)) (he : e.emits = false) :
    lines_after c shown e = shown ++ appended c e := by
  cases e with
  | emission => cases he
  | _ => rfl

theorem appended_of (he : e.completes = true) : appended c e = [] := by
  cases e with
  | resolved => rfl
  | failed => rfl
  | _ => cases he

@[simp] theorem lines_add (m : GroupMessage) : (s.add m).lines = s.lines ++ [line m] := by
  rw [Screen.lines, Screen.add, List.map_append]
  rfl

@[simp] theorem lines_add_placeholder (m : GroupMessage) : (s.add_placeholder m).lines = s.lines ++ [line m] := by
  rw [Screen.lines, Screen.add_placeholder, List.map_append]
  rfl

@[simp] theorem crashed_add (m : GroupMessage) : (s.add m).crashed = s.crashed := rfl

@[simp] theorem crashed_add_placeholder (m : GroupMessage) : (s.add_placeholder m).crashed = s.crashed := rfl

/-! ## One event -/

/-- A row becomes an entry that says the same, whoever sent it. -/
theorem show_row_lines (m : Message) :
    (show_row c s m).lines = s.lines ++ [row_line m] ∧ (show_row c s m).crashed = s.crashed := by
  unfold show_row
  by_cases hsystem : m.senderId = 0
  · rw [if_pos hsystem]
    exact ⟨lines_add _, rfl⟩
  · rw [if_neg hsystem]
    by_cases hmine : m.senderId = c.myUserId
    · rw [if_pos hmine]
      refine ⟨?_, rfl⟩
      rw [lines_add, line, own_entry, ← hmine]
      rfl
    · rw [if_neg hmine]
      exact ⟨lines_add_placeholder _, rfl⟩

/-- After an emission the lines are those of its rows. -/
theorem observe_lines (dbMessages : List Message) :
    (observe c dbMessages s).lines = dbMessages.map row_line ∧ (observe c dbMessages s).crashed = s.crashed := by
  have hrows : ∀ t : Screen, (dbMessages.foldl (show_row c) t).lines = t.lines ++ dbMessages.map row_line ∧
      (dbMessages.foldl (show_row c) t).crashed = t.crashed := by
    induction dbMessages with
    | nil => simp
    | cons m rest ih =>
      intro t
      obtain ⟨hlines, hcrashed⟩ := show_row_lines (c := c) (s := t) m
      obtain ⟨hrest, hcrashed'⟩ := ih (show_row c t m)
      rw [List.foldl_cons]
      refine ⟨?_, hcrashed'.trans hcrashed⟩
      rw [hrest, hlines, List.append_assoc]
      rfl
  exact hrows { s with messagesList := [] }

theorem sendMessage_lines (message : Bytes) (timestamp : Int) :
    (sendMessage c message timestamp s).lines = s.lines ++ appended c (.sent message timestamp) :=
  lines_add _

/-- A live message adds its line, unless it is an own one. -/
theorem handleIncomingMessage_lines (payload : Bytes) (now : Int) :
    (handleIncomingMessage c payload now s).lines = s.lines ++ appended c (.received payload now) ∧
      (handleIncomingMessage c payload now s).crashed = s.crashed := by
  unfold handleIncomingMessage appended
  dsimp only
  cases incoming c now payload with
  | none => exact ⟨(List.append_nil _).symm, rfl⟩
  | some l =>
    obtain ⟨senderId, message, timestamp⟩ := l
    dsimp only
    by_cases hsystem : senderId = 0
    · rw [if_pos hsystem]
      refine ⟨?_, rfl⟩
      simp [hsystem, line, system_entry]
    · rw [if_neg hsystem]
      by_cases hmine : senderId = c.myUserId
      · rw [if_neg (not_not.mpr hmine)]
        refine ⟨?_, rfl⟩
        simp [hsystem, ← hmine]
      · rw [if_pos hmine]
        refine ⟨?_, rfl⟩
        simp [hsystem, hmine, line, placeholder]

/-- **A write changes no line exactly if it finds its message.** Otherwise it puts the message over another one, or
the index is not in the list. -/
theorem write_back_lines_iff (l : Lookup) (name : Bytes) (hs : s.crashed = false) :
    ((write_back l name s).lines = s.lines ∧ (write_back l name s).crashed = false) ↔
      s.messagesList[l.index]?.map line = some (line l.placeholder) := by
  rw [write_back]
  by_cases hindex : l.index < s.messagesList.length
  · rw [if_pos hindex, List.getElem?_eq_getElem hindex, Option.map_some, Option.some_inj]
    -- the name is no part of the line
    have hline : line { l.placeholder with senderName := name } = line l.placeholder := rfl
    have hlength : l.index < (s.messagesList.map line).length := by rwa [List.length_map]
    rw [and_iff_left hs, Screen.lines, Screen.lines, List.map_set, hline]
    constructor
    · intro heq
      have hentry := congrArg (fun ls => ls[l.index]?) heq
      rw [List.getElem?_set_self hlength, List.getElem?_map, List.getElem?_eq_getElem hindex] at hentry
      exact (Option.some_inj.mp hentry).symm
    · intro hentry
      rw [← hentry, ← List.getElem_map line (h := hlength), List.set_getElem_self]
  · rw [if_neg hindex, List.getElem?_eq_none (not_lt.mp hindex)]
    simp

/-- **What one event leaves**: the lines it should leave, and the app running, exactly if a look-up that ends finds its
message. -/
theorem step_lines_iff (hs : s.crashed = false) (h : step c s e = some t) :
    (t.lines = lines_after c s.lines e ∧ t.crashed = false) ↔ finds_placeholder s e = true := by
  unfold step at h
  rw [if_neg (by rw [hs]; decide)] at h
  cases e with
  | emission dbMessages =>
    cases h
    obtain ⟨hlines, hcrashed⟩ := observe_lines (c := c) (s := s) dbMessages
    exact iff_of_true ⟨hlines, hcrashed.trans hs⟩ rfl
  | sent message timestamp =>
    cases h
    exact iff_of_true ⟨sendMessage_lines message timestamp, hs⟩ rfl
  | received payload now =>
    cases h
    obtain ⟨hlines, hcrashed⟩ := handleIncomingMessage_lines (c := c) (s := s) payload now
    exact iff_of_true ⟨hlines, hcrashed.trans hs⟩ rfl
  | resolved i seen =>
    obtain ⟨l, hl, rfl⟩ := Option.map_eq_some_iff.mp h
    rw [finds_placeholder, hl, Option.all_some, decide_eq_true_iff]
    rw [lines_after_of _ rfl, appended_of rfl, List.append_nil]
    exact write_back_lines_iff l _ hs
  | failed i =>
    obtain ⟨l, hl, rfl⟩ := Option.map_eq_some_iff.mp h
    rw [lines_after_of _ rfl, appended_of rfl, List.append_nil]
    exact iff_of_true ⟨rfl, hs⟩ rfl

end Lines

/-! ## Whole runs -/

/-- The transcript after these events matches the store. -/
structure TranscriptMatches (c : Chat) (events : List Event) (s : Screen) : Prop where
  /-- After an emission and look-ups that ended since, the lines are those of the rows. -/
  settled : ∀ past dbMessages rest, events = past ++ .emission dbMessages :: rest →
    (∀ e ∈ rest, e.completes = true) → s.lines = dbMessages.map row_line
  /-- After the last emission, whatever followed, the lines of the rows stand where the rows do, and behind them what
  was added since. -/
  rows : ∀ past dbMessages rest, events = past ++ .emission dbMessages :: rest →
    (∀ e ∈ rest, e.emits = false) → s.lines = dbMessages.map row_line ++ rest.flatMap (appended c)
  /-- No look-up wrote outside the list. -/
  inside : s.crashed = false

section Runs

variable {c : Chat} {tr : List (Taken Screen Event)} {s : Screen}

/-- The lines are those of the last emission and what was added since, in every run whose look-ups find their
messages. The induction is on the run: an emission starts afresh, and any other event adds to what is there. -/
theorem lines_of_run (run : Run (step c) (fun s e => finds_placeholder s e = true) {} tr s) :
    (∀ past dbMessages rest, tr.map Taken.event = past ++ .emission dbMessages :: rest →
      (∀ e ∈ rest, e.emits = false) → s.lines = dbMessages.map row_line ++ rest.flatMap (appended c)) ∧
    s.crashed = false := by
  refine run.history (I := fun tr s => (∀ past dbMessages rest,
    tr.map Taken.event = past ++ .emission dbMessages :: rest → (∀ e ∈ rest, e.emits = false) →
      s.lines = dbMessages.map row_line ++ rest.flatMap (appended c)) ∧ s.crashed = false) ?_ ?_
  · refine ⟨?_, rfl⟩
    intro past dbMessages rest hevents
    simp at hevents
  · intro tr s e t hI hfinds hstep
    obtain ⟨hrows, hs⟩ := hI
    obtain ⟨hlines, ht⟩ := (step_lines_iff hs hstep).mpr hfinds
    refine ⟨?_, ht⟩
    intro past dbMessages rest hevents hrest
    rw [List.map_append, List.map_singleton] at hevents
    rcases List.eq_nil_or_concat rest with rfl | ⟨rest, e', rfl⟩
    · -- the event is the emission
      obtain ⟨-, he⟩ := List.append_inj' hevents rfl
      cases he
      rw [hlines, List.flatMap_nil, List.append_nil]
      rfl
    · -- the event came after it
      rw [List.concat_eq_append, ← List.cons_append, ← List.append_assoc] at hevents
      obtain ⟨hpast, he⟩ := List.append_inj' hevents rfl
      cases he
      rw [List.concat_eq_append] at hrest ⊢
      have hold := hrows past dbMessages rest hpast fun x hx => hrest x (List.mem_append_left _ hx)
      rw [hlines, lines_after_of _ (hrest e (by simp)), hold, List.flatMap_append, List.append_assoc]
      simp

end Runs

/-- **The transcript matches the store** in every state of every run in which each look-up that ends finds its
message. -/
theorem transcript_matches (c : Chat) {tr : List (Taken Screen Event)} {s : Screen}
    (run : Run (step c) (fun s e => finds_placeholder s e = true) {} tr s) :
    TranscriptMatches c (tr.map Taken.event) s := by
  obtain ⟨hrows, hinside⟩ := lines_of_run run
  refine ⟨?_, hrows, hinside⟩
  intro past dbMessages rest hevents hrest
  have hemits : ∀ e ∈ rest, e.emits = false := by
    intro e he
    have hcompletes := hrest e he
    cases e with
    | emission => cases hcompletes
    | _ => rfl
  have hadded : rest.flatMap (appended c) = [] :=
    List.flatMap_eq_nil_iff.mpr fun e he => appended_of (hrest e he)
  rw [hrows past dbMessages rest hevents hemits, hadded, List.append_nil]

/-- A message is emitted, its sender's name is found, and a second message comes in and is named as well. -/
theorem transcript_matches_named : ∃ (tr : List (Taken Screen Event)) (s : Screen),
    tr.map Taken.event = [.emission [received 2 1 (some 7) (str "hi") 2000], .resolved 0 fun _ => {},
      .received (str "groupId=7&senderId=3&message=yo") 3000, .resolved 0 fun _ => {}] ∧
    s.lines = [(2, str "hi", 2000), (3, str "yo", 3000)] ∧ s.lookups = [] ∧
    TranscriptMatches ⟨7, 1, str "alice"⟩ (tr.map Taken.event) s := by
  obtain ⟨s, hexec, hlines, hlookups⟩ : ∃ s, Run.exec (Run.guard (step ⟨7, 1, str "alice"⟩) finds_placeholder) {}
      [.emission [received 2 1 (some 7) (str "hi") 2000], .resolved 0 fun _ => {},
        .received (str "groupId=7&senderId=3&message=yo") 3000, .resolved 0 fun _ => {}] = some s ∧
      s.lines = [(2, str "hi", 2000), (3, str "yo", 3000)] ∧ s.lookups = [] := ⟨_, rfl, by decide, rfl⟩
  obtain ⟨tr, run, hevents⟩ := Run.of_exec hexec
  exact ⟨tr, s, hevents, hlines, hlookups, transcript_matches _ run.of_guard⟩

/-- A message is on the screen and its sender's name is being looked up when an older one is stored before it: the
name arrives where the older message stands now, and the message stands there twice. When the list has become empty
instead, the app is gone. -/
theorem transcript_mixed_up : ∃ newer older : Message,
    (∃ (tr : List (Taken Screen Event)) (s : Screen),
      Run (step ⟨7, 1, str "alice"⟩) (fun _ _ => True) {} tr s ∧
      tr.map Taken.event = [.emission [newer], .emission [older, newer], .resolved 0 fun _ => {},
        .resolved 0 fun _ => {}] ∧
      s.lookups = [] ∧ s.lines = [newer, newer].map row_line ∧ row_line newer ≠ row_line older) ∧
    ∃ (tr : List (Taken Screen Event)) (s : Screen),
      Run (step ⟨7, 1, str "alice"⟩) (fun _ _ => True) {} tr s ∧
      tr.map Taken.event = [.emission [newer], .emission [], .resolved 0 fun _ => {}] ∧ s.crashed = true := by
  refine ⟨received 2 1 (some 7) (str "hi") 2000, received 1 (-1) (some 7) (str "old") 1000, ?_, ?_⟩
  · obtain ⟨s, hexec, hlookups, hlines⟩ : ∃ s, Run.exec (step ⟨7, 1, str "alice"⟩) {}
        [.emission [received 2 1 (some 7) (str "hi") 2000],
          .emission [received 1 (-1) (some 7) (str "old") 1000, received 2 1 (some 7) (str "hi") 2000],
          .resolved 0 fun _ => {}, .resolved 0 fun _ => {}] = some s ∧
        s.lookups = [] ∧ s.lines = [(2, str "hi", 2000), (2, str "hi", 2000)] := ⟨_, rfl, rfl, by decide⟩
    obtain ⟨tr, run, hevents⟩ := Run.of_exec hexec
    exact ⟨tr, s, run, hevents, hlookups, hlines, by decide⟩
  · obtain ⟨s, hexec, hcrashed⟩ : ∃ s, Run.exec (step ⟨7, 1, str "alice"⟩) {}
        [.emission [received 2 1 (some 7) (str "hi") 2000], .emission [], .resolved 0 fun _ => {}] = some s ∧
        s.crashed = true := ⟨_, rfl, rfl⟩
    obtain ⟨tr, run, hevents⟩ := Run.of_exec hexec
    exact ⟨tr, s, run, hevents, hcrashed⟩

end ChatApp.Room.GroupChatActivity
