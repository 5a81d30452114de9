/-
`Forwarded.lean` -- who a chat message is from, as the client that is forwarded it reads it.

A payload crosses three codecs: the server parses what the sender wrote, writes the sender, the text
and the time down as pairs, and the recipient's client parses these. A value that was parsed may hold a `=`,
but never a `&`, so it cannot bring pairs of its own along. Every chat message on the wire or in
a queue is the frame that its handler built, and `LOGIN` sends what is in the queue as it is.
-/
import ChatApp.Answers
import ChatApp.HandedOut
import ChatApp.NumberedItems

set_option autoImplicit false

namespace ChatApp

open Prog PostgresPersistence handle_client

/-! ## What the client reads -/

section Read

variable {me gid ts now : Int} {message : Bytes}

/-- **A direct message is read as it was written.** -/
theorem direct_frame_read (hmessage : 38 ∉ message) (hme : Fits 32 me) (hts : Fits 64 (ts / 1000)) :
    handleIncomingDirectMessage now (direct_message_frame me message ts).payload
      = some ⟨me, message, to_millis (ts / 1000), none⟩ := by
  have hsender : toIntOrNull (to_string me) = some me := toNumberOrNull_to_string hme
  have htime : toLongOrNull (to_string (ts / 1000)) = some (ts / 1000) := toNumberOrNull_to_string hts
  obtain ⟨hfrom, htext, hstamp⟩ := direct_values hmessage me (ts / 1000)
  rw [handleIncomingDirectMessage, direct_message_frame]
  simp only [hfrom, htext, hstamp, Option.bind_some, hsender, htime]
  rfl

/-- **A group message is read as it was written.** -/
theorem group_frame_read (hmessage : 38 ∉ message) (hgid : Fits 32 gid) (hme : Fits 32 me)
    (hts : Fits 64 ts) :
    handleIncomingGroupMessage now (group_message_frame me gid message ts).payload
      = some ⟨me, message, to_millis ts, some gid⟩ := by
  have hgroup : toIntOrNull (to_string gid) = some gid := toNumberOrNull_to_string hgid
  have hsender : toIntOrNull (to_string me) = some me := toNumberOrNull_to_string hme
  have htime : toLongOrNull (to_string ts) = some ts := toNumberOrNull_to_string hts
  obtain ⟨hto, hfrom, htext, hstamp⟩ := group_values hmessage gid me ts
  rw [handleIncomingGroupMessage, group_message_frame]
  simp only [hto, hfrom, htext, hstamp, group_values_fromUserId hmessage gid me ts, Option.bind_some, Option.bind_none,
    hgroup, hsender, htime]
  rfl

end Read

/-! ## Whose a message is -/

/-- The message is the frame of the text of this payload, in the session `me`; from the frame the client
reads that sender, that text and the time that the server wrote. -/
def DirectFrom (me : Int) (payload : Bytes) (m : PendingMsg) : Prop :=
  ∃ timestamp, m = direct_message_frame me (field payload "message") timestamp ∧
    (Fits 32 me → Fits 64 (timestamp / 1000) → ∀ now, handleIncomingDirectMessage now m.payload
      = some ⟨me, field payload "message", to_millis (timestamp / 1000), none⟩)

/-- The same for a group message, and the group that the payload names. -/
def GroupFrom (me : Int) (payload : Bytes) (m : PendingMsg) : Prop :=
  ∃ gid ts_ms, stoi (field payload "groupId") = .ok gid ∧
    m = group_message_frame me gid (field payload "message") ts_ms ∧
    (Fits 32 me → Fits 64 ts_ms → ∀ now, handleIncomingGroupMessage now m.payload
      = some ⟨me, field payload "message", to_millis ts_ms, some gid⟩)

/-- An announcement, or the notice to a member who was removed. -/
def SystemMessage (m : PendingMsg) : Prop := ∃ gid, m = removed_notice gid ∨ Announces gid m

/-- A chat message that is handed out for a frame in the session `me` is what the frame asks for: a
`DIRECT_MESSAGE` comes of one only, and what comes of a `GROUP_MESSAGE` is one. -/
structure Unforged (me : Int) (r : Request) (m : PendingMsg) : Prop where
  direct : m.type = .DIRECT_MESSAGE →
    MessageType.ofByte r.header.type = some .DIRECT_MESSAGE ∧ DirectFrom me r.payload m
  group : m.type = .GROUP_MESSAGE → MessageType.ofByte r.header.type = some .GROUP_MESSAGE →
    GroupFrom me r.payload m
  system : m.type = .GROUP_MESSAGE → MessageType.ofByte r.header.type ≠ some .GROUP_MESSAGE →
    SystemMessage m

/-- The command of a chat message. -/
theorem decode_chat {pg : Bool} {type : UInt8} {payload : Bytes} {c : Command}
    (h : decode pg type payload = .ok c) :
    (∀ recipientId message, c = .direct_message recipientId message →
      MessageType.ofByte type = some .DIRECT_MESSAGE ∧ message = field payload "message") ∧
    (MessageType.ofByte type = some .GROUP_MESSAGE →
      ∃ gid, stoi (field payload "groupId") = .ok gid ∧ c = .group_message gid (field payload "message")) ∧
    ∀ gid message, c = .group_message gid message → MessageType.ofByte type = some .GROUP_MESSAGE := by
  unfold decode at h
  cases htype : MessageType.ofByte type with
  | none =>
    rw [htype] at h
    cases h
    simp
  | some t =>
    rw [htype] at h
    cases t with
    -- its fields are read one by one, and depend on the persistence
    | GET_CONVERSATION_HISTORY =>
      refine ⟨?_, by simp, ?_⟩
      all_goals
        rintro _ _ rfl
        cases pg <;> simp [bind_ok_iff, map_ok_iff, throw_ok_iff] at h
    | DIRECT_MESSAGE =>
      obtain ⟨recipientId, -, hc⟩ := (bind_ok_iff ..).mp h
      cases hc
      simp
    | GROUP_MESSAGE =>
      obtain ⟨gid, hgid, hc⟩ := (bind_ok_iff ..).mp h
      cases hc
      simpa using hgid
    | _ =>
      refine ⟨?_, by simp, ?_⟩
      all_goals
        rintro _ _ rfl
        simp [bind_ok_iff, map_ok_iff, pure_ok_iff] at h

/-- **What a frame says to others is not forged.** -/
theorem unforged_of_speaks {pg : Bool} {r : Request} {c : Command} {me : Int} {m : PendingMsg}
    (h : decode pg r.header.type r.payload = .ok c) (hm : c.Speaks me m) : Unforged me r m := by
  obtain ⟨hdirect, hgroup, hgroup'⟩ := decode_chat h
  -- an announcement is no chat message
  have hsystem : (∀ gid message, c ≠ .group_message gid message) → m.type = .GROUP_MESSAGE →
      SystemMessage m → Unforged me r m := by
    refine fun hc hm hannounces => ⟨fun htype => ?_, fun _ htype => ?_, fun _ _ => hannounces⟩
    · rw [hm] at htype
      cases htype
    · obtain ⟨gid, -, hcommand⟩ := hgroup htype
      exact absurd hcommand (hc _ _)
  have hannounces : ∀ gid, Announces gid m → m.type = .GROUP_MESSAGE := by
    rintro gid ⟨text, ts_ms, rfl⟩
    rfl
  cases c with
  | direct_message recipientId message =>
    obtain ⟨timestamp, rfl⟩ := hm
    obtain ⟨htype, rfl⟩ := hdirect _ _ rfl
    refine ⟨fun _ => ⟨htype, timestamp, rfl, fun hme hts now => ?_⟩, fun hm => ?_, fun hm => ?_⟩
    · exact direct_frame_read (notMem_value _ _) hme hts
    · cases hm
    · cases hm
  | group_message gid message =>
    obtain ⟨ts_ms, rfl⟩ := hm
    have htype := hgroup' _ _ rfl
    obtain ⟨gid', hgid, hc⟩ := hgroup htype
    cases hc
    refine ⟨fun hm => ?_, fun _ _ => ⟨gid, ts_ms, hgid, rfl, fun hme hts now => ?_⟩, fun _ hne => ?_⟩
    · cases hm
    · exact group_frame_read (notMem_value _ _) (fits_of_stoi hgid) hme hts
    · exact absurd htype hne
  | create_group =>
    obtain ⟨gid, hm⟩ := hm
    exact hsystem (by simp) (hannounces gid hm) ⟨gid, .inr hm⟩
  | invite_to_group gid | rename_group gid | set_group_nickname gid | make_admin gid =>
    exact hsystem (by simp) (hannounces gid hm) ⟨gid, .inr hm⟩
  | remove_from_group gid =>
    refine hsystem (by simp) ?_ ⟨gid, hm⟩
    rcases hm with rfl | hm
    · rfl
    · exact hannounces gid hm
  | _ => exact hm.elim

/-- **What a frame makes the server hand out is not forged.** -/
theorem perform_unforged {pg : Bool} {r : Request} {c : Command} (fd me rid : Int)
    (h : decode pg r.header.type r.payload = .ok c) (hlogin : ∀ payload, c ≠ .login payload) :
    (perform pg fd me rid c).Always (Op.hands (Unforged me r)) fun _ => True := by
  refine perform_hands pg fd me rid hlogin (fun m hm hm' => ?_) fun m hm => unforged_of_speaks h hm
  exact ⟨fun htype => absurd htype hm, fun htype => absurd htype hm', fun htype => absurd htype hm'⟩

/-! ## Runs -/

namespace Concurrent

/-- A chat message was asked for in the run, and is not forged. -/
def Sourced (tr : List (Taken Concurrent Concurrent.Event)) (m : PendingMsg) : Prop :=
  m.type = .DIRECT_MESSAGE ∨ m.type = .GROUP_MESSAGE → ∃ t ∈ tr, ∃ fd r, t.event = .request fd r ∧
    r.header.valid = true ∧ Unforged (t.before.world.session fd) r m

section Run

variable {pg : Bool} {env : Env} {C : Concurrent → Concurrent.Event → Prop} {w₀ : World} {s : Concurrent}
  {tr : List (Taken Concurrent Concurrent.Event)}

theorem sourced_plain (m : PendingMsg) (hm : m.type ≠ .DIRECT_MESSAGE) (hm' : m.type ≠ .GROUP_MESSAGE) :
    Sourced tr m := fun h => absurd h (not_or.mpr ⟨hm, hm'⟩)

/-- **Every chat message of a run is asked for.** -/
theorem handed_sourced (booted : Booted pg env w₀) (run : Run pg env C (quiet w₀) tr s) :
    ∀ m, HandedOut s.world m → Sourced tr m := by
  refine handed_out_said booted run (fun m _ => sourced_plain m) fun t ht fd r c hevent hvalid hc => ?_
  refine ⟨fun reply _ _ => sourced_plain _ (by simp) (by simp), fun m hm _ => ?_⟩
  exact ⟨t, ht, fd, r, hevent, hvalid, unforged_of_speaks hc hm⟩

/-- **Sender and text cannot be forged.** What a frame makes the server hand out in the session `me`, on the
wire or in a queue, carries `me`, the text and the group of that frame and the time, and the client
reads these and nothing else; and no chat message is ever sent or waits that was not handed out so. -/
theorem senders_not_forged (booted : Booted pg env w₀) (run : Run pg env C (quiet w₀) tr s) :
    (∀ fd me rid r c, decode pg r.header.type r.payload = .ok c → (∀ payload, c ≠ .login payload) →
      (perform pg fd me rid c).Always (Op.hands (Unforged me r)) fun _ => True) ∧
    ∀ m, HandedOut s.world m → Sourced tr m :=
  ⟨fun fd me rid _ _ hc hlogin => perform_unforged fd me rid hc hlogin, handed_sourced booted run⟩

end Run

end Concurrent

/-! ## Operation by operation -/

namespace Threads

/-- A chat message was asked for in the run, and is not forged. -/
def Sourced (tr : List (Taken Threads Concurrent.Event)) (m : PendingMsg) : Prop :=
  m.type = .DIRECT_MESSAGE ∨ m.type = .GROUP_MESSAGE → ∃ x ∈ tr, ∃ fd r, x.event = .request fd r ∧
    r.header.valid = true ∧ Unforged (x.before.world.session fd) r m

section Run

variable {pg : Bool} {env : Env} {C : Threads → Concurrent.Event → Prop} {w₀ : World} {s : Threads}
  {tr : List (Taken Threads Concurrent.Event)} {P : PendingMsg → Prop}

/-- **A `LOGIN`** sends what it has read, which waited. -/
theorem login_emits {fd me rid : Int} {n : Nat} {payload : Bytes}
    (hother : ∀ m : PendingMsg, m.type ≠ .DIRECT_MESSAGE → m.type ≠ .GROUP_MESSAGE → P m) :
    (perform pg fd me rid (.login payload)).AlwaysOn (Answers env tr (fun w => ∀ m, HandedOut w m → P m) fd n)
      (Op.emits P) fun _ => True := by
  have hquiet : ∀ {S : List Field} {α : Type} (p : Prog S α), .out ∉ S → .var .g_offline_messages ∉ S →
      p.Always (Op.emits P) fun _ => True := fun p hout hqueue =>
    (hands_of_footprint p hout hqueue).weaken fun _ ho => ho.emits
  have hsession : (login_session pg fd payload).AlwaysOn
      (Answers env tr (fun w => ∀ m, HandedOut w m → P m) fd n) (Op.emits P)
      fun l => ∀ login, l = some login → ∀ m ∈ login.offlineMessages, P m := by
    refine AlwaysOn.locked (AlwaysOn.seq (Always.on (R := fun _ => True) (by simp)) fun user _ => ?_) trivial trivial
    refine .ite (fun _ => Always.on (by simp [hother])) fun _ => ?_
    refine AlwaysOn.seq (Always.on (R := fun _ => True) (by simp)) fun _ _ => ?_
    refine AlwaysOn.seq (Always.on (R := fun _ => True) (by simp)) fun _ _ => ?_
    refine AlwaysOn.seq (Always.on ((always_lift ..).mpr (hquiet _ (by simp) (by simp)))) fun _ _ => ?_
    refine AlwaysOn.seq (Always.on ((always_lift ..).mpr (hquiet _ (by simp) (by simp)))) fun _ _ => ?_
    -- the queue that is read holds what was handed out before
    refine AlwaysOn.seq (alwaysOn_perform (R := fun q => ∀ m ∈ q, P m) trivial ?_) fun q hq => ?_
    · rintro q ⟨m, w, -, -, hw, rfl⟩ x hx
      exact hw x (.inr ⟨_, hx⟩)
    · refine AlwaysOn.seq (alwaysOn_perform (R := fun _ => True) ?_ fun _ _ => trivial) fun _ _ => alwaysOn_pure ?_
      · intro q uid m hm
        rw [UMap.get_erase] at hm
        split at hm
        · cases hm
        · exact .inl hm
      · rintro login h m hm
        cases h
        exact hq m hm
  rw [perform]
  refine (alwaysOn_lift ..).mpr (AlwaysOn.seq ((alwaysOn_lift ..).mpr hsession) fun l hmessages => ?_)
  cases l with
  | none => exact alwaysOn_pure trivial
  | some l =>
    refine Always.on (Always.seq ((always_lift ..).mpr ?_) fun _ => trivial)
    refine (login_deliver_hands fd _ l (fun m _ => hother m) (fun _ _ _ => hother _ ?_ ?_) (hmessages l rfl)).weaken
      fun _ ho => ho.emits
    · simp
    · simp

/-- **Every chat message of a run is asked for**, whatever operations of others fall between. -/
theorem handed_sourced (booted : Booted pg env w₀) (run : Run pg env C (quiet w₀) tr s) :
    ∀ m, HandedOut s.world m → Sourced tr m := by
  have hplain : ∀ m : PendingMsg, m.type ≠ .DIRECT_MESSAGE → m.type ≠ .GROUP_MESSAGE → Sourced tr m :=
    fun m hm hm' h => absurd h (not_or.mpr ⟨hm, hm'⟩)
  refine invariant_of_answers (I := fun w => ∀ m, HandedOut w m → Sourced tr m) (Q := Op.emits (Sourced tr)) run ?_
    (fun n fd me rid c hframe => ?_) (fun fd => ?_) (fun fd me => ?_) (fun o w ho hw => ho.exec _ hw) fun _ _ hw => hw
  · -- nothing was sent before, and nothing waits
    rintro m (⟨f, hf, -⟩ | ⟨uid, hm⟩)
    · have hout : w₀.out = [] := booted.conns_empty.2
      rw [hout] at hf
      cases hf
    · rw [booted.offline_empty] at hm
      cases hm
  -- only a `LOGIN` hands out what it has read; the others say what is in their frame
  · by_cases hlogin : ∃ payload, c = .login payload
    · obtain ⟨payload, rfl⟩ := hlogin
      exact login_emits hplain
    · obtain ⟨x, r, hx, hevent, hvalid, hc, rfl⟩ := hframe
      refine Always.on ((perform_hands pg fd _ rid (fun payload h => hlogin ⟨payload, h⟩) hplain ?_).weaken
        fun _ ho => ho.emits)
      exact fun m hm _ => ⟨x, List.mem_of_getElem? hx, fd, r, hevent, hvalid, unforged_of_speaks hc hm⟩
  · simp [invalid_header, hplain]
  · simp [cleanup, go_offline, notify_friends_status_change, find_fd, hplain]

end Run

end Threads

namespace Concurrent

/-- User 1 writes to user 2 and tries to write as user 9. -/
def forged_message : List Event :=
  two_users ++ served 5 .DIRECT_MESSAGE "recipientId=2&message=a=b&senderId=9&timestamp=1" 3

/-- The message that arrives has been asked for by user 1. -/
theorem senders_not_forged_two : ∃ tr s, Run false Env.calm (fun _ _ => True)
    (quiet (World.new Tables.empty)) tr s ∧ (∃ f ∈ s.world.out, f.type = .DIRECT_MESSAGE) ∧
    ∀ m, HandedOut s.world m → Sourced tr m := by
  have hexec : (ChatApp.Run.exec (ChatApp.Run.guard (step false Env.calm) fun _ _ => true)
      (quiet (World.new Tables.empty)) forged_message).map
        (fun s => decide (∃ f ∈ s.world.out, f.type = .DIRECT_MESSAGE)) = some true := by decide
  obtain ⟨tr, s, run, hsent⟩ := run_of_exec hexec
  exact ⟨tr, s, run.mono fun _ _ _ => trivial, of_decide_eq_true hsent,
    (senders_not_forged (booted_new Tables.empty_valid) run).2⟩

end Concurrent

end ChatApp
