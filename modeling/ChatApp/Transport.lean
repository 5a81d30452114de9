/-
`Transport.lean` -- a connection between a phone and the server, as bytes and as messages.

A phone writes what `createMessage` builds into its connection, and the server's handler reads a frame of it when one
is there; the server writes a frame with the two calls of `send_message`, and the phone's `receiveLoop` is pushed the
bytes as they come. The network cuts both streams wherever it likes. Nobody who uses a connection thinks of it so: for
the app and for the handlers it is two queues of messages. A `Transport` is either, and the streams carry what is in
the queues (`Carries`), up to the bytes of one frame that are still to be written.
-/
import ChatApp.Lossless

set_option autoImplicit false

namespace ChatApp

open Frames ProtocolHandler SocketManager

/-! ## The parts of a frame -/

/-- The header of a frame, and the payload unless it is empty. -/
def Call.parts (c : Call) : Bytes × Option Bytes := (c.header, if c.payload = [] then none else some c.payload)

/-- The buffers that a program hands to `send_all`, one after the other, as long as none fails. -/
def buffers {α : Type} : Program SendAll α → List Bytes
  | .pure _ => []
  | .op (.send_all buf) k => buf :: buffers (k true)

/-- The parts of a frame are what `send_message` writes. -/
theorem buffers_send_message (c : Call) : buffers (send_message c) = c.parts.1 :: c.parts.2.toList := by
  by_cases hc : c.payload = []
  · simp [send_message, buffers, Call.parts, hc, Program.perform, bind, Program.bind, pure]
  · simp [send_message, buffers, Call.parts, hc, Program.perform, bind, Program.bind, pure]

/-- Together they are the frame. -/
theorem Call.parts_append (c : Call) : c.parts.1 ++ c.parts.2.getD [] = c.frame := by
  by_cases hc : c.payload = []
  · simp [parts, hc, frame]
  · simp [parts, hc, frame]

/-! ## Transports -/

/-- What carries the messages of one connection. -/
structure Transport (L : Type) where
  /-- How the network cuts what it carries. -/
  Cut : Type
  /-- What the server writes at a time. -/
  Part : Type
  fresh : L
  /-- The phone sends. -/
  submit : Call → L → L
  /-- What `send_message` writes first, and what it writes then, if that is not all. -/
  parts : Call → Part × Option Part
  write : Part → L → L
  /-- The server reads a frame, if one is there. -/
  read : Cut → L → Option (Request × L)
  /-- The phone receives, if something is there. -/
  receive : Cut → L → Option L

/-- The streams of a connection, and the phone's receive loop: the messages that it has handed to the callback, and
its buffer. -/
structure Streams where
  up : Bytes := []
  down : Bytes := []
  loop : List Bytes × Bytes := ([], [])

/-- A connection that carries bytes. -/
def bytes : Transport Streams where
  Cut := Nat → Nat
  Part := Bytes
  fresh := {}
  submit c l := { l with up := l.up ++ c.message }
  parts := Call.parts
  write buf l := { l with down := l.down ++ buf }
  read cuts l :=
    match read_frame ⟨l.up, cuts, 0, Int.le_refl 0⟩ with
    | (.ok r, s) => some (r, { l with up := s.incoming })
    | (.error _, _) => none
  receive cuts l :=
    let r := Socket.recv BUFFER_SIZE ⟨l.down, cuts, 0, Int.le_refl 0⟩
    if r.1 = [] then none else some { l with down := r.2.incoming, loop := receiveLoop l.loop [r.1] }

/-- The queues of a connection, and what the phone has taken out of its own. -/
structure Queues where
  up : List Call := []
  down : List Call := []
  delivered : List Call := []

/-- A connection that carries messages. -/
def messages : Transport Queues where
  Cut := Unit
  Part := Call
  fresh := {}
  submit c l := { l with up := l.up ++ [c] }
  parts c := (c, none)
  write c l := { l with down := l.down ++ [c] }
  read _ l :=
    match l.up with
    | c :: up => some (c.request, { l with up })
    | [] => none
  receive _ l :=
    match l.down with
    | c :: down => some { l with down, delivered := l.delivered ++ [c] }
    | [] => none

/-! ## Bytes carry messages -/

/-- The payload is of a size that both ends can handle. -/
def Call.Small (c : Call) : Prop := c.payload.length < 2 ^ 32 - 32

instance (c : Call) : Decidable c.Small := inferInstanceAs (Decidable (c.payload.length < 2 ^ 32 - 32))

/-- What a message looks like when the callback is given it. -/
def Call.delivered (c : Call) : Option (UInt8 × Bytes × UInt32) := some (c.type, c.payload, c.userId)

/-- The streams hold what is in the queues, except for the bytes that are missing of the last frame, and the phone
has put aside a part of its next message. -/
structure Carries (missing : Bytes) (l : Streams) (q : Queues) : Prop where
  up : l.up = stream Call.message q.up
  down : l.loop.2 ++ l.down ++ missing = stream Call.frame q.down
  part : ∀ c later, q.down = c :: later → l.loop.2.length < c.frame.length
  delivered : l.loop.1.map ChatApp.delivered = q.delivered.map Call.delivered
  small_up : ∀ c ∈ q.up, c.Small
  small_down : ∀ c ∈ q.down, c.Small

section Carries

variable {missing : Bytes} {l l' : Streams} {q : Queues} {c : Call} {cuts : Nat → Nat} {r : Request}

theorem Call.Small.lt (h : c.Small) : c.payload.length < 2 ^ 32 := by
  rw [Call.Small] at h
  omega

theorem Call.Small.delivered_frame (h : c.Small) : ChatApp.delivered c.frame = c.delivered := by
  rw [Call.Small] at h
  rw [ChatApp.delivered_frame h, Call.delivered]

theorem carries_fresh : Carries [] bytes.fresh messages.fresh where
  up := rfl
  down := rfl
  part := fun _ _ h => by cases h
  delivered := rfl
  small_up := fun _ hc => absurd hc List.not_mem_nil
  small_down := fun _ hc => absurd hc List.not_mem_nil

theorem small_snoc {cs : List Call} (h : ∀ c ∈ cs, c.Small) (hc : c.Small) : ∀ c' ∈ cs ++ [c], c'.Small := by
  intro c' hc'
  rcases List.mem_append.mp hc' with hc' | hc'
  · exact h c' hc'
  · rw [List.mem_singleton.mp hc']
    exact hc

theorem stream_snoc (f : Call → Bytes) (cs : List Call) (c : Call) : stream f (cs ++ [c]) = stream f cs ++ f c := by
  rw [stream_append, stream_cons, stream_nil, List.append_nil]

theorem Carries.submit (h : Carries missing l q) (hc : c.Small) :
    Carries missing (bytes.submit c l) (messages.submit c q) where
  up := (congrArg (· ++ c.message) h.up).trans (stream_snoc ..).symm
  down := h.down
  part := h.part
  delivered := h.delivered
  small_up := small_snoc h.small_up hc
  small_down := h.small_down

/-- The server begins a frame. -/
theorem Carries.begin (h : Carries [] l q) (hc : c.Small) :
    Carries (c.parts.2.getD []) (bytes.write c.parts.1 l) (messages.write c q) where
  up := h.up
  down := by
    show l.loop.2 ++ (l.down ++ c.parts.1) ++ c.parts.2.getD [] = stream Call.frame (q.down ++ [c])
    have hdown := h.down
    rw [List.append_nil] at hdown
    rw [← List.append_assoc, hdown, List.append_assoc, Call.parts_append, stream_snoc]
  part := by
    intro c' later hdown
    cases hq : q.down with
    | cons c₀ rest =>
      -- the next message is the one that it was
      have hcons : q.down ++ [c] = c' :: later := hdown
      rw [hq, List.cons_append] at hcons
      rw [← (List.cons.inj hcons).1]
      exact h.part c₀ rest hq
    | nil =>
      have hnone := h.down
      rw [hq, stream_nil, List.append_nil, List.append_eq_nil_iff] at hnone
      show l.loop.2.length < c'.frame.length
      rw [hnone.1, length_frame, List.length_nil]
      omega
  delivered := h.delivered
  small_up := h.small_up
  small_down := small_snoc h.small_down hc

/-- The server writes what is missing. -/
theorem Carries.finish (h : Carries missing l q) : Carries [] (bytes.write missing l) q where
  up := h.up
  down := by
    show l.loop.2 ++ (l.down ++ missing) ++ [] = stream Call.frame q.down
    rw [List.append_nil, ← List.append_assoc]
    exact h.down
  part := h.part
  delivered := h.delivered
  small_up := h.small_up
  small_down := h.small_down

theorem Carries.read_up (h : Carries missing l q) {up : List Call} (hq : q.up = c :: up) :
    Carries missing { l with up := stream Call.message up } { q with up } where
  up := rfl
  down := h.down
  part := h.part
  delivered := h.delivered
  small_up := fun c' hc' => h.small_up c' (hq ▸ List.mem_cons_of_mem _ hc')
  small_down := h.small_down

/-- However it is cut, the next message can be read. -/
theorem read_next (cuts : Nat → Nat) {up : List Call} (hsmall : c.Small) (hup : l.up = stream Call.message (c :: up)) :
    bytes.read cuts l = some (c.request, { l with up := stream Call.message up }) := by
  obtain ⟨s', hs', hframe⟩ := read_frame_message (s := ⟨l.up, cuts, 0, Int.le_refl 0⟩) hsmall.lt
    (hup.trans stream_cons)
  simp only [bytes]
  rw [hframe, ← hs']

/-- **The server reads the next message.** -/
theorem Carries.read (h : Carries missing l q) (hread : bytes.read cuts l = some (r, l')) :
    ∃ q', messages.read () q = some (r, q') ∧ Carries missing l' q' := by
  have hup := h.up
  obtain ⟨up, down, delivered⟩ := q
  cases up with
  | nil =>
    -- nothing is there to be read
    have hnone : ∀ c ∈ ([] : List Call), c.payload.length < 2 ^ 32 := fun _ hc => absurd hc List.not_mem_nil
    have hclosed : (read_frame ⟨l.up, cuts, 0, Int.le_refl 0⟩).1 = .error .closed :=
      read_frame_partial hnone (.inl hup)
    simp only [bytes] at hread
    split at hread
    · next r' s hframe =>
      rw [hframe] at hclosed
      cases hclosed
    · cases hread
  | cons c up =>
    rw [read_next cuts (h.small_up c List.mem_cons_self) hup] at hread
    cases hread
    exact ⟨_, rfl, h.read_up rfl⟩

/-- Receive `n` messages. -/
def received (q : Queues) (n : Nat) : Queues :=
  { q with down := q.down.drop n, delivered := q.delivered ++ q.down.take n }

/-- **The phone receives the messages that the bytes complete.** -/
theorem Carries.pushed (h : Carries missing l q) {piece rest : Bytes} (hpiece : piece ≠ [])
    (hsplit : piece ++ rest = l.down) :
    ∃ n ≤ q.down.length,
      Carries missing { l with down := rest, loop := receiveLoop l.loop [piece] } (received q n) := by
  have hlt : ∀ c ∈ q.down, c.payload.length < 2 ^ 32 := fun c hc => (h.small_down c hc).lt
  -- the buffer and the new bytes are some whole frames and a part of one
  have hstream : l.loop.2 ++ piece ++ (rest ++ missing) = stream Call.frame q.down := by
    rw [← h.down, ← hsplit]
    simp only [List.append_assoc]
  obtain ⟨kept, hcut, hpart⟩ := cut ⟨rest ++ missing, hstream⟩
  obtain ⟨later, hlater⟩ : contained Call.frame q.down (l.loop.2 ++ piece).length <+: q.down := contained_isPrefix ..
  have hnext : ∀ c later', later = c :: later' → (l.loop.2 ++ piece).length < (stream Call.frame
      (contained Call.frame q.down (l.loop.2 ++ piece).length)).length + c.frame.length := fun c later' he =>
    contained_next (by rw [← he]; exact hlater)
  generalize contained Call.frame q.down (l.loop.2 ++ piece).length = new at hcut hlater hnext
  have hnew : ∀ c ∈ new, c ∈ q.down := fun c hc => hlater ▸ List.mem_append_left _ hc
  have hloop : receiveLoop l.loop [piece] = (l.loop.1 ++ new.map Call.frame, kept) := by
    have hdrain := drain_stream (fun c hc _ => processMessages_whole (hlt c hc)) hnew kept
    rw [processMessages_part hlt hpart, List.append_nil] at hdrain
    rw [receiveLoop, if_neg hpiece, receiveLoop, push, hcut, hdrain]
  have hreceived : received q new.length = { q with down := later, delivered := q.delivered ++ new } := by
    rw [received, ← hlater, List.drop_left, List.take_left]
  refine ⟨new.length, ?_, ?_⟩
  · rw [← hlater, List.length_append]
    exact Nat.le_add_right ..
  rw [hloop, hreceived]
  constructor
  · exact h.up
  · refine (List.append_right_inj (stream Call.frame new)).mp ?_
    rw [← stream_append, hlater, ← hstream, hcut, List.append_assoc kept, List.append_assoc]
  · intro c later' he
    have hlength := hnext c later' he
    rw [hcut, List.length_append] at hlength
    exact Nat.lt_of_add_lt_add_left hlength
  · have hframes : (new.map Call.frame).map ChatApp.delivered = new.map Call.delivered := by
      rw [List.map_map]
      refine List.map_congr_left fun c hc => ?_
      rw [Function.comp_apply]
      exact (h.small_down c (hnew c hc)).delivered_frame
    rw [List.map_append, List.map_append, h.delivered, hframes]
  · exact h.small_up
  · exact fun c hc => h.small_down c (hlater ▸ List.mem_append_right _ hc)

theorem Carries.receive (h : Carries missing l q) (hreceive : bytes.receive cuts l = some l') :
    ∃ n ≤ q.down.length, Carries missing l' (received q n) := by
  simp only [bytes] at hreceive
  split at hreceive
  · cases hreceive
  · next hpiece =>
    cases hreceive
    exact h.pushed hpiece (Socket.recv_append BUFFER_SIZE _)

/-- `recv` may return exactly the next `k` bytes. -/
theorem receive_exactly {k : Nat} (hpos : 0 < k) (hbuffer : k ≤ BUFFER_SIZE) (hk : k ≤ l.down.length) :
    bytes.receive (fun _ => k - 1) l
      = some { l with down := l.down.drop k, loop := receiveLoop l.loop [l.down.take k] } := by
  have hmin : min BUFFER_SIZE (k - 1 + 1) = k := by omega
  have hlength : (l.down.take k).length = k := List.length_take_of_le hk
  have hpiece : l.down.take k ≠ [] := List.length_pos_iff.mp (by omega)
  simp only [bytes, Socket.recv, hmin, hlength]
  exact if_neg hpiece

theorem length_stream_drop (cs : List Call) (n : Nat) :
    (stream Call.frame (cs.drop n)).length ≤ (stream Call.frame cs).length := by
  conv_rhs => rw [← List.take_append_drop n cs, stream_append, List.length_append]
  exact Nat.le_add_left ..

/-- The next bytes of the next message, as many as fit, are a part of it or complete it. -/
theorem Carries.receive_part (h : Carries [] l q) {later : List Call} (hq : q.down = c :: later) :
    ∃ cuts l', bytes.receive cuts l = some l' ∧
      ((Carries [] l' q ∧ l.loop.2.length < l'.loop.2.length) ∨ Carries [] l' (received q 1)) := by
  have hpart := h.part c later hq
  have htotal := congrArg List.length h.down
  rw [hq, stream_cons, List.append_nil, List.length_append, List.length_append] at htotal
  obtain ⟨k, hk⟩ : ∃ k, k = min BUFFER_SIZE (c.frame.length - l.loop.2.length) := ⟨_, rfl⟩
  have hpos : 0 < k := by
    rw [hk, BUFFER_SIZE]
    omega
  have hle : k ≤ l.down.length := by omega
  have hpiece : l.down.take k ≠ [] := List.length_pos_iff.mp (by rw [List.length_take_of_le hle]; exact hpos)
  obtain ⟨n, hn, hcarries⟩ := h.pushed hpiece (List.take_append_drop k l.down)
  refine ⟨_, _, receive_exactly hpos (by omega) hle, ?_⟩
  have hafter := congrArg List.length hcarries.down
  rw [List.append_nil, List.length_append, List.length_drop] at hafter
  match n with
  | 0 =>
    have hsame : received q 0 = q := by simp [received]
    rw [hsame] at hcarries hafter
    rw [hq, stream_cons, List.length_append] at hafter
    exact .inl ⟨hcarries, by omega⟩
  | 1 => exact .inr hcarries
  | n + 2 =>
    -- two messages are longer than what was received
    exfalso
    have hdown : (received q (n + 2)).down = later.drop (n + 1) := by
      rw [received, hq]
      rfl
    rw [hdown] at hafter
    cases later with
    | nil =>
      rw [hq] at hn
      simp at hn
    | cons c₂ later =>
      have hlength := length_stream_drop later n
      have hframe := length_frame c₂
      rw [stream_cons, List.length_append] at htotal
      rw [List.drop_succ_cons] at hafter
      omega

end Carries

end ChatApp
