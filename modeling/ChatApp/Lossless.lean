/-
`Lossless.lean` -- frames get through in both directions, however the bytes are cut.

Client and server encode the header separately, each with its own byte order helpers. Both encoders put the
length of the payload at offset 6, and both decoders find the whole frames of any prefix of the stream: the
server pulls a header and then a payload (`read_loop`), the client is pushed bytes and takes complete
messages out of its buffer (`receiveLoop`). The client reads the two halves of the timestamp in the wrong
order, which nothing on the way to the callback looks at.
-/
import ChatApp.ClientSocket
import ChatApp.Framing

set_option autoImplicit false

namespace ChatApp

open ProtocolHandler SocketManager Frames

/-! ## Headers -/

/-- The bytes of a header. -/
def header_bytes (type : UInt8) (length userId : UInt32) (ts : UInt64) : Bytes :=
  htonl MAGIC ++ [VERSION, type] ++ htonl length ++ htonl (ts >>> 32).toUInt32 ++ htonl ts.toUInt32
    ++ htonl userId ++ htonl 0 ++ List.replicate 6 0

section Headers

variable (type : UInt8) (length userId : UInt32) (ts : UInt64) (payload rest : Bytes)

/-- **The two encoders agree.** -/
theorem createMessage_eq : createMessage type payload userId ts
    = header_bytes type (UInt32.ofNat payload.length) userId ts ++ payload := rfl

theorem frame_eq (c : Call) :
    c.frame = header_bytes c.type (UInt32.ofNat c.payload.length) c.userId c.ts ++ c.payload := rfl

theorem length_header_bytes : (header_bytes type length userId ts).length = 32 := rfl

/-- The words of a header, in front of anything. -/
theorem header_words :
    ntohl (header_bytes type length userId ts ++ rest) 0 = MAGIC ∧
    ntohl (header_bytes type length userId ts ++ rest) 6 = length ∧
    ntohl (header_bytes type length userId ts ++ rest) 10 = (ts >>> 32).toUInt32 ∧
    ntohl (header_bytes type length userId ts ++ rest) 14 = ts.toUInt32 ∧
    ntohl (header_bytes type length userId ts ++ rest) 18 = userId ∧
    ntohl (header_bytes type length userId ts ++ rest) 22 = 0 :=
  ⟨ntohl_htonl _ rfl, ntohl_htonl _ rfl, ntohl_htonl _ rfl, ntohl_htonl _ rfl, ntohl_htonl _ rfl,
    ntohl_htonl _ rfl⟩

/-- The number with these halves. -/
theorem toNat_halves (high low : UInt32) :
    ((high.toUInt64 <<< 32) ||| low.toUInt64).toNat = high.toNat * 2 ^ 32 + low.toNat := by
  have hhigh := high.toNat_lt
  have hlow := low.toNat_lt
  have hsum := Nat.shiftLeft_add_eq_or_of_lt hlow high.toNat
  have hfits : high.toNat <<< 32 < 2 ^ 64 := by
    rw [Nat.shiftLeft_eq]
    omega
  have hshift : UInt64.toNat 32 % 64 = 32 := rfl
  simp only [UInt64.toNat_or, UInt64.toNat_shiftLeft, UInt32.toNat_toUInt64, hshift]
  rw [Nat.mod_eq_of_lt hfits, ← hsum, Nat.shiftLeft_eq]

/-- A word of 64 bits, from its halves. -/
theorem word_of_halves (ts : UInt64) :
    ((ts >>> 32).toUInt32.toUInt64 <<< 32) ||| ts.toUInt32.toUInt64 = ts := by
  refine UInt64.toNat_inj.mp ?_
  have hlt := ts.toNat_lt
  have hhigh : ts.toNat / 2 ^ 32 < 2 ^ 32 := by omega
  have hshift : UInt64.toNat 32 % 64 = 32 := rfl
  rw [toNat_halves]
  simp only [UInt64.toNat_toUInt32, UInt64.toNat_shiftRight, hshift, Nat.shiftRight_eq_div_pow]
  rw [Nat.mod_eq_of_lt hhigh]
  omega

/-- The server decodes what either encoder wrote. -/
theorem parse_header_bytes :
    parse_header (header_bytes type length userId ts) = (⟨MAGIC, VERSION, type, ts, userId, 0⟩, length) := by
  have hwords := header_words type length userId ts []
  rw [List.append_nil] at hwords
  obtain ⟨hmagic, hlength, hhigh, hlow, huser, hchecksum⟩ := hwords
  rw [parse_header, hmagic, hlength, hhigh, hlow, huser, hchecksum, word_of_halves]
  rfl

end Headers

/-! ## From the client to the server -/

/-- What the client sends for a call: the message that `createMessage` builds. -/
def Call.message (c : Call) : Bytes := createMessage c.type c.payload c.userId c.ts

/-- The frame that the server handles for it. -/
def Call.request (c : Call) : Request := ⟨⟨MAGIC, VERSION, c.type, c.ts, c.userId, 0⟩, c.payload⟩

/-- The frames up to the first one whose case goes to `cleanup`, and that one. -/
def through (leaves : Request → Bool) : List Request → List Request
  | [] => []
  | r :: rs => if leaves r then [r] else r :: through leaves rs

section Server

variable {c : Call} {calls : List Call} {s : Socket} {rest : Bytes}

theorem length_payload (hsize : c.payload.length < 2 ^ 32) :
    c.payload.length = (UInt32.ofNat c.payload.length).toNat := by
  rw [UInt32.toNat_ofNat', Nat.mod_eq_of_lt hsize]

theorem read_frame_message (hsize : c.payload.length < 2 ^ 32) (hs : s.incoming = c.message ++ rest) :
    ∃ s', s'.incoming = rest ∧ read_frame s = (.ok c.request, s') :=
  read_frame_whole hs (length_header_bytes ..) (parse_header_bytes ..) rfl (length_payload hsize)

/-- A part of a message is the end of the stream. -/
theorem read_frame_partial (hsize : ∀ c ∈ calls, c.payload.length < 2 ^ 32)
    (hpart : Partial Call.message calls s.incoming) : (read_frame s).1 = .error .closed := by
  rcases hpart with hempty | ⟨c, hc, hprefix, hshorter⟩
  · have hshort : s.incoming.length < 32 := by
      rw [hempty]
      decide
    rw [read_frame]
    exact congrArg Prod.fst (if_pos (recv_all_of_lt hshort))
  · exact read_frame_part hprefix hshorter (length_header_bytes ..) (parse_header_bytes ..) rfl
      (length_payload (hsize c hc))

/-- The loop over whole messages and a part of one. -/
theorem read_loop_stream (leaves : Request → Bool) (hsize : ∀ c ∈ calls, c.payload.length < 2 ^ 32)
    (hs : s.incoming = stream Call.message calls ++ rest)
    (hrest : ∀ s : Socket, s.incoming = rest → (read_frame s).1 = .error .closed) :
    read_loop leaves s = (through leaves (calls.map Call.request),
      if (calls.map Call.request).any leaves then .cleanup else .closed) := by
  induction calls generalizing s with
  | nil =>
    have hclosed := hrest s hs
    rw [read_loop]
    split
    · next ended hended =>
      rw [hclosed] at hended
      rw [← Except.error.inj hended]
      rfl
    · next r hr =>
      rw [hclosed] at hr
      cases hr
  | cons c calls ih =>
    rw [stream_cons, List.append_assoc] at hs
    obtain ⟨s', hs', hframe⟩ := read_frame_message (hsize c List.mem_cons_self) hs
    have htail := ih (fun c' hc' => hsize c' (List.mem_cons_of_mem _ hc')) hs'
    rw [read_loop]
    split
    · next ended hended =>
      rw [hframe] at hended
      cases hended
    · next r hr =>
      rw [hframe] at hr
      rw [← Except.ok.inj hr, hframe, htail, List.map_cons, through, List.any_cons]
      cases leaves c.request with
      | true => rfl
      | false => rfl

/-- **From client to server nothing is lost.** Whatever prefix of the client's messages arrives, in
whatever pieces, the server handles exactly the frames that are complete, up to one whose case ends the
connection; then it reports the end of the stream. It rejects no header. -/
theorem messages_read (sizes : ∀ c ∈ calls, c.payload.length < 2 ^ 32 - 32)
    (received : s.incoming <+: stream Call.message calls) (leaves : Request → Bool) :
    read_loop leaves s =
      (through leaves ((contained Call.message calls s.incoming.length).map Call.request),
        if ((contained Call.message calls s.incoming.length).map Call.request).any leaves
          then .cleanup else .closed) := by
  have hsize : ∀ c ∈ calls, c.payload.length < 2 ^ 32 := fun c hc => by
    have hc := sizes c hc
    omega
  obtain ⟨rest, hcut, hpart⟩ := cut received
  refine read_loop_stream leaves (fun c hc => hsize c ((contained_isPrefix calls _).subset hc)) hcut ?_
  intro s' hs'
  exact read_frame_partial hsize (hs' ▸ hpart)

end Server

/-- A heartbeat, and a direct message. -/
def two_calls : List Call :=
  [⟨0xFF, [], 7, 1700000000⟩, ⟨0x20, str "recipientId=2&message=hi", 7, 1700000000⟩]

/-- The connection ends within the second frame, which arrives in pieces of at most five bytes. -/
theorem messages_read_two :
    read_loop (fun _ => false) ⟨(stream Call.message two_calls).take 80, fun _ => 4, 0, Int.le_refl 0⟩
    = ([⟨⟨MAGIC, VERSION, 0xFF, 1700000000, 7, 0⟩, []⟩], .closed) :=
  (@messages_read two_calls _ (by decide) (List.take_prefix 80 _) _).trans rfl

/-! ## From the server to the client -/

/-- What a thread writes that makes these calls of `send_message` and whose writes succeed. -/
def written (calls : List Call) : Bytes :=
  ((Framing.send_messages true calls).run (Framing.socket none) []).2

/-- Type, payload and user id of a message that the callback was given, as `parseMessage` reads it. -/
def delivered (message : Bytes) : Option (UInt8 × Bytes × UInt32) :=
  (parseMessage message).map fun p => (p.1.type, p.2, p.1.userId)

section Client

variable {c : Call} {calls : List Call} {rest : Bytes}

theorem written_from (sent : Bool) (calls : List Call) (before : Bytes) :
    ((Framing.send_messages sent calls).run (Framing.socket none) before).2
      = before ++ stream Call.frame calls := by
  induction calls generalizing sent before with
  | nil => exact (List.append_nil before).symm
  | cons c calls ih =>
    rw [Framing.send_messages, Program.run_bind, ih, stream_cons, ← List.append_assoc]
    congr 1
    by_cases hc : c.payload = []
    · have hframe : c.frame = c.header := by rw [Call.frame, hc, List.append_nil]
      rw [hframe, send_message]
      simp [Program.run_bind, Program.run_perform, Framing.socket, hc]
    · rw [Call.frame, send_message]
      simp [Program.run_bind, Program.run_perform, Framing.socket, hc]

theorem written_eq (calls : List Call) : written calls = stream Call.frame calls := written_from true calls []

theorem length_frame (c : Call) : c.frame.length = 32 + c.payload.length := by
  rw [frame_eq, List.length_append, length_header_bytes]

/-- The length field of a frame, in front of anything. -/
theorem length_field (hsize : c.payload.length < 2 ^ 32) :
    HEADER_SIZE + (ntohl (c.frame ++ rest) 6).toNat = c.frame.length := by
  have hwords := (header_words c.type (UInt32.ofNat c.payload.length) c.userId c.ts (c.payload ++ rest)).2.1
  rw [frame_eq, List.append_assoc, hwords, ← length_payload hsize, List.length_append, length_header_bytes]
  rfl

/-- A complete message in front of the buffer is taken out. -/
theorem processMessages_whole (hsize : c.payload.length < 2 ^ 32) : processMessages (c.frame ++ rest)
    = (c.frame :: (processMessages rest).1, (processMessages rest).2) := by
  have hheader : HEADER_SIZE ≤ (c.frame ++ rest).length := by
    rw [List.length_append, length_frame, HEADER_SIZE]
    omega
  rw [processMessages, dif_pos hheader]
  simp only [length_field hsize]
  rw [if_pos (by rw [List.length_append]; omega), List.take_left, List.drop_left]

/-- A part of a message stays in the buffer. -/
theorem processMessages_part (hsize : ∀ c ∈ calls, c.payload.length < 2 ^ 32)
    (hpart : Partial Call.frame calls rest) : processMessages rest = ([], rest) := by
  rw [processMessages]
  by_cases hheader : HEADER_SIZE ≤ rest.length
  · rw [dif_pos hheader]
    rcases hpart with rfl | ⟨c, hc, hprefix, hshorter⟩
    · exact absurd hheader (by decide)
    · -- the length field is there
      obtain ⟨tail, htail⟩ := hprefix
      have hfield : ntohl (c.frame ++ []) 6 = ntohl rest 6 := by
        rw [List.append_nil, ← htail]
        exact ntohl_append (Nat.le_trans (by decide) hheader) tail
      have hlength := @length_field c [] (hsize c hc)
      rw [hfield] at hlength
      simp only [hlength]
      exact if_neg (by omega)
  · exact dif_neg hheader

/-- What `ntohll` makes of the time that an encoder wrote. -/
def swapped (ts : UInt64) : UInt64 := (ts.toUInt32.toUInt64 <<< 32) ||| (ts >>> 32).toUInt32.toUInt64

/-- **What `parseMessage` reads** is what `send_message` was given, but for the time. -/
theorem parse_frame (hsize : c.payload.length < 2 ^ 32 - 32) :
    parseMessage c.frame = some (⟨PROTOCOL_MAGIC, PROTOCOL_VERSION, c.type, UInt32.ofNat c.payload.length,
      swapped c.ts, c.userId, 0⟩, c.payload) := by
  have hlength := length_frame c
  obtain ⟨hmagic, hfield, hhigh, hlow, huser, hchecksum⟩ :=
    header_words c.type (UInt32.ofNat c.payload.length) c.userId c.ts c.payload
  rw [← frame_eq] at hmagic hfield hhigh hlow huser hchecksum
  have htime : ntohll c.frame 10 = swapped c.ts := by
    rw [ntohll, hhigh, hlow]
    rfl
  have hsum : (32 + UInt32.ofNat c.payload.length).toNat = c.frame.length := by
    rw [UInt32.toNat_add, ← length_payload (by omega), hlength]
    exact Nat.mod_eq_of_lt (by simp only [UInt32.reduceToNat]; omega)
  have hpayload : (if 0 < UInt32.ofNat c.payload.length then
      (c.frame.drop 32).take (UInt32.ofNat c.payload.length).toNat else []) = c.payload := by
    rw [← length_payload (by omega)]
    split
    · rw [frame_eq, List.drop_left' (length_header_bytes ..), List.take_length]
    · next hzero =>
      rw [UInt32.lt_iff_toNat_lt, ← length_payload (by omega)] at hzero
      exact (List.eq_nil_of_length_eq_zero (Nat.eq_zero_of_not_pos hzero)).symm
  rw [parseMessage, if_neg (by omega)]
  have hversion : c.frame.getD 4 0 = PROTOCOL_VERSION := rfl
  have htype : c.frame.getD 5 0 = c.type := rfl
  simp only [hmagic, hfield, htime, huser, hchecksum, hsum, hpayload, hversion, htype]
  rw [if_neg (by decide : ¬MAGIC ≠ PROTOCOL_MAGIC), if_neg (lt_irrefl _)]
  rfl

/-- Type, payload and user of a frame. -/
theorem delivered_frame (hsize : c.payload.length < 2 ^ 32 - 32) :
    delivered c.frame = some (c.type, c.payload, c.userId) := by
  rw [delivered, parse_frame hsize]
  rfl

/-- A receive loop whose calls of `recv` return something is pushed what they return. -/
theorem receiveLoop_eq {pieces : List Bytes} (hne : ∀ p ∈ pieces, p ≠ []) (st : List Bytes × Bytes) :
    receiveLoop st pieces = pieces.foldl (push processMessages) st := by
  induction pieces generalizing st with
  | nil => rfl
  | cons p pieces ih =>
    rw [receiveLoop, if_neg (hne p List.mem_cons_self), List.foldl_cons]
    exact ih (fun p' hp' => hne p' (List.mem_cons_of_mem _ hp')) _

/-- **From server to client nothing is lost.** Whatever prefix of the frames arrives, in whatever pieces,
the client delivers exactly the messages that are complete, once each and in order, and its buffer holds the
bytes of the incomplete one. -/
theorem frames_delivered (sizes : ∀ c ∈ calls, c.payload.length < 2 ^ 32 - 32) {pieces : List Bytes}
    (cuts : ∀ p ∈ pieces, 1 ≤ p.length ∧ p.length ≤ BUFFER_SIZE)
    (received : pieces.flatten <+: written calls) :
    (receiveLoop ([], []) pieces).1.map delivered
        = (contained Call.frame calls pieces.flatten.length).map (fun c => some (c.type, c.payload, c.userId)) ∧
      pieces.flatten = stream Call.frame (contained Call.frame calls pieces.flatten.length)
        ++ (receiveLoop ([], []) pieces).2 := by
  have hsize : ∀ c ∈ calls, c.payload.length < 2 ^ 32 := fun c hc => by
    have hc := sizes c hc
    omega
  have hnonempty : ∀ c ∈ calls, c.frame ≠ [] := fun c _ => by
    refine List.length_pos_iff.mp ?_
    rw [length_frame]
    omega
  rw [written_eq] at received
  obtain ⟨rest, hsplit, hfold⟩ := reassemble hnonempty
    (fun c hc _ => processMessages_whole (hsize c hc)) (fun _ => processMessages_part hsize) received
  rw [receiveLoop_eq (fun p hp => List.length_pos_iff.mp (cuts p hp).1), hfold]
  refine ⟨?_, hsplit⟩
  rw [List.map_map]
  refine List.map_congr_left fun c hc => ?_
  rw [Function.comp_apply, delivered_frame (sizes c ((contained_isPrefix calls _).subset hc))]

end Client

/-- The two frames up to byte 52, in three pieces. -/
def three_pieces : List Bytes :=
  [(written two_calls).take 10, ((written two_calls).drop 10).take 10, ((written two_calls).drop 20).take 32]

/-- The heartbeat is delivered, and 20 bytes of the next frame are kept. -/
theorem frames_delivered_two : (receiveLoop ([], []) three_pieces).1.map delivered = [some (0xFF, [], 7)] ∧
    three_pieces.flatten = (written two_calls).take 32 ++ (receiveLoop ([], []) three_pieces).2 := by
  have hframes := @frames_delivered two_calls (by decide) three_pieces (by decide) (by decide)
  have hcontained : contained Call.frame two_calls three_pieces.flatten.length = two_calls.take 1 := by decide
  rw [hcontained] at hframes
  exact hframes

end ChatApp
