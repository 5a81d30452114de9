/-
`ReceiveLoop.lean` -- the inner loop of `SocketManager::receiveLoop`, at either width of `size_t`.

One iteration adds the size of the header and the length field as numbers of `w` bits. With 64 bits the sum is what
it should be. With 32 bits a length field that is large enough makes it wrap around to less than a header, and the
iteration hands out and removes that little, or nothing at all, from then on for ever.
-/
import ChatApp.Lossless

set_option autoImplicit false

namespace ChatApp.SocketManager

/-! ## Iterations -/

/-- The payload length that the header in front of the buffer gives. -/
def payloadLength (messageBuffer : Bytes) : Nat := (ntohl messageBuffer 6).toNat

/-- The size of the message, where a `size_t` has `w` bits. -/
def totalMessageSize (w : Nat) (messageBuffer : Bytes) : Nat := (HEADER_SIZE + payloadLength messageBuffer) % 2 ^ w

/-- One iteration: what goes to the callback and what is left in the buffer, or nothing when the loop stops. -/
def iteration (w : Nat) (messageBuffer : Bytes) : Option (Bytes × Bytes) :=
  if HEADER_SIZE ≤ messageBuffer.length ∧ totalMessageSize w messageBuffer ≤ messageBuffer.length then
    some (messageBuffer.take (totalMessageSize w messageBuffer), messageBuffer.drop (totalMessageSize w messageBuffer))
  else none

/-- The buffer after `n` iterations, if there are so many. -/
def iterated (w : Nat) : Nat → Bytes → Option Bytes
  | 0, messageBuffer => some messageBuffer
  | n + 1, messageBuffer => (iteration w messageBuffer).bind fun r => iterated w n r.2

/-- A header with as many bytes behind it as it says. -/
structure WholeFrame (frame : Bytes) : Prop where
  header : HEADER_SIZE ≤ frame.length
  length : frame.length = HEADER_SIZE + payloadLength frame

/-- What an iteration should do: a complete frame goes to the callback and leaves the buffer. -/
structure Handed (messageBuffer frame rest : Bytes) : Prop where
  whole : WholeFrame frame
  buffer : frame ++ rest = messageBuffer

/-- The loop makes progress: every iteration hands out a complete frame, of 32 bytes at least, or stops the loop,
and one does after at most as many iterations as headers fit into the buffer. -/
structure Progress (w : Nat) (messageBuffer : Bytes) : Prop where
  each : ∀ n buffer frame rest, iterated w n messageBuffer = some buffer → iteration w buffer = some (frame, rest) →
    Handed buffer frame rest ∧ rest.length + 32 ≤ buffer.length
  ends : ∃ n buffer, n ≤ messageBuffer.length / 32 ∧ iterated w n messageBuffer = some buffer ∧
    iteration w buffer = none

/-- Behind some complete frames there is a header whose length field leaves no room for a header in 32 bits. -/
def Wrapping (messageBuffer : Bytes) : Prop :=
  ∃ frames : List Bytes, ∃ rest, messageBuffer = frames.flatten ++ rest ∧ (∀ f ∈ frames, WholeFrame f) ∧
    HEADER_SIZE ≤ rest.length ∧ 2 ^ 32 - 32 ≤ payloadLength rest

section Iterations

variable {w : Nat} {messageBuffer frame rest : Bytes}

theorem payloadLength_append (h : HEADER_SIZE ≤ frame.length) (rest : Bytes) :
    payloadLength (frame ++ rest) = payloadLength frame := by
  rw [payloadLength, ntohl_append (Nat.le_trans (by decide) h) rest]
  rfl

theorem payloadLength_lt (messageBuffer : Bytes) : payloadLength messageBuffer < 2 ^ 32 := UInt32.toNat_lt _

theorem totalMessageSize_of_lt (hsum : HEADER_SIZE + payloadLength messageBuffer < 2 ^ w) :
    totalMessageSize w messageBuffer = HEADER_SIZE + payloadLength messageBuffer := Nat.mod_eq_of_lt hsum

/-- **An iteration whose sum does not wrap** hands out a complete frame. -/
theorem handed_of_iteration (hsum : HEADER_SIZE + payloadLength messageBuffer < 2 ^ w)
    (h : iteration w messageBuffer = some (frame, rest)) : Handed messageBuffer frame rest := by
  rw [iteration, totalMessageSize_of_lt hsum] at h
  split at h
  · next hcomplete =>
    obtain ⟨rfl, rfl⟩ := Prod.mk.inj (Option.some.inj h)
    have hbuffer := List.take_append_drop (HEADER_SIZE + payloadLength messageBuffer) messageBuffer
    have hlength : (messageBuffer.take (HEADER_SIZE + payloadLength messageBuffer)).length =
        HEADER_SIZE + payloadLength messageBuffer := by
      rw [List.length_take]
      omega
    have hsame : payloadLength (messageBuffer.take (HEADER_SIZE + payloadLength messageBuffer)) =
        payloadLength messageBuffer := by
      rw [← payloadLength_append (by omega) (messageBuffer.drop (HEADER_SIZE + payloadLength messageBuffer)), hbuffer]
    exact ⟨⟨by omega, by rw [hlength, hsame]⟩, hbuffer⟩
  · cases h

theorem Handed.removes (h : Handed messageBuffer frame rest) : rest.length + 32 ≤ messageBuffer.length := by
  have hheader := h.whole.header
  rw [HEADER_SIZE] at hheader
  rw [← h.buffer, List.length_append]
  omega

/-- A complete frame in front is handed out where the sum does not wrap. -/
theorem iteration_whole (hframe : WholeFrame frame) (hsum : frame.length < 2 ^ w) :
    iteration w (frame ++ rest) = some (frame, rest) := by
  have hlength := hframe.length
  have hheader := hframe.header
  have htotal : totalMessageSize w (frame ++ rest) = frame.length := by
    rw [totalMessageSize, payloadLength_append hheader, ← hlength]
    exact Nat.mod_eq_of_lt hsum
  rw [iteration, htotal, List.length_append, if_pos ⟨by omega, by omega⟩, List.take_left, List.drop_left]

/-- With a large length field the sum wraps, and the iteration removes less than a header. -/
theorem iteration_wraps (hheader : HEADER_SIZE ≤ messageBuffer.length)
    (hfield : 2 ^ 32 - 32 ≤ payloadLength messageBuffer) :
    ∃ frame rest, iteration 32 messageBuffer = some (frame, rest) ∧ messageBuffer.length < rest.length + 32 := by
  have hlt := payloadLength_lt messageBuffer
  rw [HEADER_SIZE] at hheader
  have htotal : totalMessageSize 32 messageBuffer < 32 := by
    rw [totalMessageSize, HEADER_SIZE]
    omega
  refine ⟨messageBuffer.take (totalMessageSize 32 messageBuffer),
    messageBuffer.drop (totalMessageSize 32 messageBuffer), if_pos ⟨hheader, by omega⟩, ?_⟩
  rw [List.length_drop]
  omega

theorem iterated_succ (h : iteration w messageBuffer = some (frame, rest)) (n : Nat) :
    iterated w (n + 1) messageBuffer = iterated w n rest := by
  rw [iterated, h]
  rfl

end Iterations

/-! ## Progress -/

section Progress

variable {w : Nat} {messageBuffer frame rest : Bytes}

/-- The sum wraps nowhere: there are bits enough, or no length field is too large. -/
def Safe (w : Nat) (messageBuffer : Bytes) : Prop := w = 64 ∨ ¬Wrapping messageBuffer

theorem Safe.sum (hw : w = 32 ∨ w = 64) (h : Safe w messageBuffer) (hheader : HEADER_SIZE ≤ messageBuffer.length) :
    HEADER_SIZE + payloadLength messageBuffer < 2 ^ w := by
  have hlt := payloadLength_lt messageBuffer
  have hwrapping : 2 ^ 32 - 32 ≤ payloadLength messageBuffer → Wrapping messageBuffer := fun hfield =>
    ⟨[], messageBuffer, rfl, fun _ hf => absurd hf List.not_mem_nil, hheader, hfield⟩
  rw [HEADER_SIZE]
  rcases h with rfl | h
  · omega
  · have hfield := mt hwrapping h
    rcases hw with rfl | rfl <;> omega

/-- What is left behind a frame is safe too. -/
theorem Safe.behind (h : Safe w messageBuffer) (handed : Handed messageBuffer frame rest) : Safe w rest := by
  refine h.imp_right fun h hwrapping => h ?_
  obtain ⟨frames, last, rfl, hframes, hlast⟩ := hwrapping
  refine ⟨frame :: frames, last, ?_, List.forall_mem_cons.mpr ⟨handed.whole, hframes⟩, hlast⟩
  rw [List.flatten_cons, List.append_assoc]
  exact handed.buffer.symm

theorem Safe.handed (hw : w = 32 ∨ w = 64) (h : Safe w messageBuffer)
    (hiteration : iteration w messageBuffer = some (frame, rest)) : Handed messageBuffer frame rest := by
  refine handed_of_iteration (h.sum hw ?_) hiteration
  rw [iteration] at hiteration
  split at hiteration
  · next hcomplete => exact hcomplete.1
  · cases hiteration

/-- After any number of iterations the buffer is safe. -/
theorem Safe.after (hw : w = 32 ∨ w = 64) (h : Safe w messageBuffer) {n : Nat} {buffer : Bytes}
    (hn : iterated w n messageBuffer = some buffer) : Safe w buffer := by
  induction n generalizing messageBuffer with
  | zero =>
    rw [← Option.some.inj hn]
    exact h
  | succ n ih =>
    obtain ⟨⟨frame, rest⟩, hiteration, hrest⟩ := Option.bind_eq_some_iff.mp hn
    exact ih (h.behind (h.handed hw hiteration)) hrest

/-- The loop ends, since the buffer gets shorter by a header at least. -/
theorem Safe.ends (hw : w = 32 ∨ w = 64) (h : Safe w messageBuffer) :
    ∃ n buffer, n ≤ messageBuffer.length / 32 ∧ iterated w n messageBuffer = some buffer ∧
      iteration w buffer = none := by
  -- the induction is on the size of the buffer
  induction hsize : messageBuffer.length using Nat.strong_induction_on generalizing messageBuffer with
  | h size ih =>
    cases hiteration : iteration w messageBuffer with
    | none => exact ⟨0, messageBuffer, Nat.zero_le _, rfl, hiteration⟩
    | some r =>
      obtain ⟨frame, rest⟩ := r
      have handed := h.handed hw hiteration
      have hremoves := handed.removes
      obtain ⟨n, buffer, hn, hrest, hstop⟩ := ih rest.length (by omega) (h.behind handed) rfl
      refine ⟨n + 1, buffer, by omega, ?_, hstop⟩
      rw [iterated_succ hiteration, hrest]

/-- **When the inner loop makes progress**: with 64 bits always, and with 32 exactly on buffers in which no header
behind complete frames has a length field of 2 ^ 32 - 32 or more. -/
theorem progress_iff (w : Nat) (hw : w = 32 ∨ w = 64) (messageBuffer : Bytes) :
    Progress w messageBuffer ↔ Safe w messageBuffer := by
  constructor
  · intro h
    by_contra hunsafe
    rw [Safe, not_or, not_not] at hunsafe
    obtain ⟨hbits, frames, last, rfl, hframes, hheader, hfield⟩ := hunsafe
    obtain rfl : w = 32 := hw.resolve_right hbits
    -- the iterations take the frames one by one, until a sum wraps
    have hreached : ∀ (fs : List Bytes) (buffer : Bytes), (∀ f ∈ fs, WholeFrame f) → buffer = fs.flatten ++ last →
        ∃ n b frame rest, iterated 32 n buffer = some b ∧ iteration 32 b = some (frame, rest) ∧
          b.length < rest.length + 32 := by
      intro fs
      induction fs with
      | nil =>
        intro buffer _ hbuffer
        rw [List.flatten_nil, List.nil_append] at hbuffer
        obtain ⟨frame, rest, hwraps, hshort⟩ := iteration_wraps hheader hfield
        exact ⟨0, buffer, frame, rest, rfl, hbuffer ▸ hwraps, hbuffer ▸ hshort⟩
      | cons f fs ih =>
        intro buffer hfs hbuffer
        have hwhole := hfs f List.mem_cons_self
        rw [List.flatten_cons, List.append_assoc] at hbuffer
        by_cases hsum : f.length < 2 ^ 32
        · obtain ⟨n, b, frame, rest, hn, hnext, hshort⟩ :=
            ih (fs.flatten ++ last) (fun f' hf' => hfs f' (List.mem_cons_of_mem _ hf')) rfl
          refine ⟨n + 1, b, frame, rest, ?_, hnext, hshort⟩
          rw [hbuffer, iterated_succ (iteration_whole hwhole hsum), hn]
        · -- the frame itself is too large
          have hlength := hwhole.length
          have hlong : HEADER_SIZE ≤ buffer.length := by
            rw [hbuffer, List.length_append]
            exact Nat.le_trans hwhole.header (Nat.le_add_right _ _)
          have hlarge : 2 ^ 32 - 32 ≤ payloadLength buffer := by
            rw [hbuffer, payloadLength_append hwhole.header]
            rw [HEADER_SIZE] at hlength
            omega
          obtain ⟨frame, rest, hwraps, hshort⟩ := iteration_wraps hlong hlarge
          exact ⟨0, buffer, frame, rest, rfl, hwraps, hshort⟩
    obtain ⟨n, b, frame, rest, hn, hnext, hshort⟩ := hreached frames _ hframes rfl
    have hremoves := (h.each n b frame rest hn hnext).2
    omega
  · intro h
    refine ⟨fun n buffer frame rest hn hnext => ?_, h.ends hw⟩
    have handed := (h.after hw hn).handed hw hnext
    exact ⟨handed, handed.removes⟩

/-- The loop over all iterations, where a `size_t` has 64 bits. -/
theorem processMessages_iteration (messageBuffer : Bytes) :
    processMessages messageBuffer = ((iteration 64 messageBuffer).map fun r =>
      (r.1 :: (processMessages r.2).1, (processMessages r.2).2)).getD ([], messageBuffer) := by
  have htotal : totalMessageSize 64 messageBuffer = HEADER_SIZE + (ntohl messageBuffer 6).toNat := by
    have hlt := payloadLength_lt messageBuffer
    refine totalMessageSize_of_lt ?_
    rw [HEADER_SIZE]
    omega
  rw [processMessages, iteration, htotal]
  by_cases hheader : HEADER_SIZE ≤ messageBuffer.length
  · rw [dif_pos hheader]
    dsimp only
    by_cases hcomplete : HEADER_SIZE + (ntohl messageBuffer 6).toNat ≤ messageBuffer.length
    · rw [if_pos hcomplete, if_pos ⟨hheader, hcomplete⟩]
      rfl
    · rw [if_neg hcomplete, if_neg (not_and_of_not_right _ hcomplete)]
      rfl
  · rw [dif_neg hheader, if_neg (not_and_of_not_left _ hheader)]
    rfl

end Progress

/-- A buffer with one frame in it, read with 32 bits. -/
theorem progress_one_frame : Progress 32 (write_header 0xF0 2 7 0 ++ str "ok") := by
  refine (progress_iff 32 (.inl rfl) _).mpr (.inr ?_)
  rintro ⟨frames, rest, hbuffer, hframes, hheader, hfield⟩
  -- behind the frame there is no room for a header, and the frame has a small length field
  cases frames with
  | nil =>
    rw [List.flatten_nil, List.nil_append] at hbuffer
    rw [← hbuffer] at hfield
    exact absurd hfield (by decide)
  | cons f frames =>
    have hf := hframes f List.mem_cons_self
    have hlength := congrArg List.length hbuffer
    have hsize : (write_header 0xF0 2 7 0 ++ str "ok").length = 34 := by decide
    have hheader' := hf.header
    rw [hsize, List.flatten_cons, List.length_append, List.length_append] at hlength
    rw [HEADER_SIZE] at hheader hheader'
    omega

/-- **No progress**: with 32 bits a header that announces 2 ^ 32 - 32 bytes is handed out empty. -/
theorem no_progress : ¬∀ w messageBuffer, w = 32 ∨ w = 64 → Progress w messageBuffer := by
  intro claim
  have hprogress := claim 32 (write_header 0x20 0xFFFFFFE0 7 0) (.inl rfl)
  have hheader : HEADER_SIZE ≤ (write_header 0x20 0xFFFFFFE0 7 0).length := by decide
  obtain ⟨frame, rest, hwraps, hshort⟩ := iteration_wraps hheader (by decide)
  have hremoves := (hprogress.each 0 _ frame rest rfl hwraps).2
  omega

end ChatApp.SocketManager
