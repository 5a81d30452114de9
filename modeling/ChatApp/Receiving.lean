/-
`Receiving.lean` -- `recv_all` and the read loop of `handle_client`.

`recv` hands over the bytes that have arrived in pieces of any size; `recv_all` calls it until it has what it
was asked for, and gives up when `recv` returns 0 or an error, with whatever it had. The loop reads a header,
decodes it, reads the payload, and goes to the `switch` with the frame.
-/
import ChatApp.Frames
import ChatApp.HandleClient
import Mathlib.Data.List.GetD

set_option autoImplicit false

namespace ChatApp

/-! ## Bytes in network order -/

/-- `ntohl` of the four bytes that `memcpy` takes from `buf` at `offset`. -/
def ntohl (buf : Bytes) (offset : Nat) : UInt32 :=
  UInt32.ofNat (2 ^ 24 * (buf.getD offset 0).toNat + 2 ^ 16 * (buf.getD (offset + 1) 0).toNat
    + 2 ^ 8 * (buf.getD (offset + 2) 0).toNat + (buf.getD (offset + 3) 0).toNat)

/-- What `htonl` wrote is read back. -/
theorem ntohl_htonl (n : UInt32) {buf : Bytes} {offset : Nat} (h : (buf.drop offset).take 4 = htonl n) :
    ntohl buf offset = n := by
  have hbyte : ∀ i < 4, buf.getD (offset + i) 0 = (htonl n).getD i 0 := by
    intro i hi
    rw [← h, List.getD_eq_getElem?_getD, List.getD_eq_getElem?_getD, List.getElem?_take_of_lt hi,
      List.getElem?_drop]
  have h₀ : buf.getD offset 0 = (n >>> 24).toUInt8 := hbyte 0 (by decide)
  have h₁ : buf.getD (offset + 1) 0 = (n >>> 16).toUInt8 := hbyte 1 (by decide)
  have h₂ : buf.getD (offset + 2) 0 = (n >>> 8).toUInt8 := hbyte 2 (by decide)
  have h₃ : buf.getD (offset + 3) 0 = n.toUInt8 := hbyte 3 (by decide)
  have hlt := n.toNat_lt
  rw [ntohl, h₀, h₁, h₂, h₃]
  refine UInt32.toNat_inj.mp ?_
  simp [Nat.shiftRight_eq_div_pow]
  omega

/-- A word is read from its four bytes. -/
theorem ntohl_append {buf : Bytes} {offset : Nat} (h : offset + 4 ≤ buf.length) (rest : Bytes) :
    ntohl (buf ++ rest) offset = ntohl buf offset := by
  have hbyte : ∀ i < 4, (buf ++ rest).getD (offset + i) 0 = buf.getD (offset + i) 0 :=
    fun i hi => List.getD_append _ _ _ _ (by omega)
  have h₀ : (buf ++ rest).getD offset 0 = buf.getD offset 0 := hbyte 0 (by decide)
  rw [ntohl, h₀, hbyte 1 (by decide), hbyte 2 (by decide), hbyte 3 (by decide)]
  rfl

/-! ## Sockets -/

/-- The receiving side of a connection: the bytes that arrive before it ends, the sizes in which
`recv` hands them over, and what `recv` returns from then on: 0, or -1 for an error. -/
structure Socket where
  incoming : Bytes
  cuts : Nat → Nat
  ending : Int
  no_data : ending ≤ 0

namespace Socket

/-- `::recv` of at most `len` bytes: at least one, unless the connection is over. -/
def recv (len : Nat) (s : Socket) : Bytes × Socket :=
  let piece := s.incoming.take (min len (s.cuts 0 + 1))
  (piece, { s with incoming := s.incoming.drop piece.length, cuts := fun i => s.cuts (i + 1) })

theorem recv_append (len : Nat) (s : Socket) : (s.recv len).1 ++ (s.recv len).2.incoming = s.incoming := by
  simp only [recv, List.length_take]
  rw [List.take_eq_take_min, List.take_append_drop]

theorem recv_length (len : Nat) (s : Socket) : (s.recv len).1.length ≤ len := by
  simp only [recv, List.length_take]
  omega

theorem recv_ne_nil {len : Nat} {s : Socket} (hlen : 0 < len) (h : s.incoming ≠ []) : (s.recv len).1 ≠ [] := by
  have hpos := List.length_pos_iff.mpr h
  refine List.length_pos_iff.mp ?_
  simp only [recv, List.length_take]
  omega

end Socket

/-! ## `network::recv_all` -/

/-- The loop of `recv_all`, which has `buf` so far: what it returns, and the buffer. -/
def recv_loop (len : Nat) (buf : Bytes) (s : Socket) : Int × Bytes × Socket :=
  if _h : buf.length < len then
    let r := s.recv (len - buf.length)
    if _hr : r.1 = [] then (s.ending, buf, r.2)
    else recv_loop len (buf ++ r.1) r.2
  else (buf.length, buf, s)
termination_by len - buf.length
decreasing_by
  have hpos : 0 < (s.recv (len - buf.length)).1.length := List.length_pos_iff.mpr _hr
  simp only [List.length_append]
  omega

/-- `network::recv_all`. -/
def recv_all (len : Nat) (s : Socket) : Int × Bytes × Socket := recv_loop len [] s

section RecvAll

variable {len : Nat} {buf : Bytes} {s : Socket}

/-- **`recv_all`** returns the bytes it was asked for when so many arrive, however they are cut; otherwise it
returns what `recv` returned at the end. -/
theorem recv_loop_spec (hbuf : buf.length ≤ len) :
    (len ≤ buf.length + s.incoming.length → ∃ s', s'.incoming = s.incoming.drop (len - buf.length) ∧
      recv_loop len buf s = ((len : Int), buf ++ s.incoming.take (len - buf.length), s')) ∧
    (buf.length + s.incoming.length < len → (recv_loop len buf s).1 ≤ 0) := by
  -- the induction is on the calls of `recv`
  fun_induction recv_loop len buf s with
  | case1 buf s hlt r hr =>
    have hempty : s.incoming = [] := by
      by_contra hne
      exact Socket.recv_ne_nil (by omega) hne hr
    refine ⟨fun henough => ?_, fun _ => s.no_data⟩
    rw [hempty, List.length_nil] at henough
    omega
  | case2 buf s hlt r hr ih =>
    have hsplit : r.1 ++ r.2.incoming = s.incoming := s.recv_append _
    have hlength : r.1.length ≤ len - buf.length := s.recv_length _
    have hrest := ih (by rw [List.length_append]; omega)
    rw [List.length_append, List.append_assoc] at hrest
    rw [← hsplit, List.length_append]
    constructor
    · intro henough
      obtain ⟨s', hs', hresult⟩ := hrest.1 (by omega)
      have hneed : len - buf.length - r.1.length = len - (buf.length + r.1.length) := by omega
      refine ⟨s', ?_, ?_⟩
      · rw [hs', List.drop_append, List.drop_eq_nil_of_le hlength, List.nil_append, hneed]
      · rw [hresult, List.take_append, List.take_of_length_le hlength, hneed]
    · intro hshort
      exact hrest.2 (by omega)
  | case3 buf s hge =>
    have hlen : buf.length = len := by omega
    refine ⟨fun _ => ⟨s, ?_, ?_⟩, fun hshort => ?_⟩
    · rw [hlen, Nat.sub_self, List.drop_zero]
    · rw [hlen, Nat.sub_self, List.take_zero, List.append_nil]
    · omega

theorem recv_all_append {rest : Bytes} (h : s.incoming = buf ++ rest) (hlen : buf.length = len) :
    ∃ s', s'.incoming = rest ∧ recv_all len s = ((len : Int), buf, s') := by
  have hle : len ≤ s.incoming.length := by rw [h, ← hlen, List.length_append]; omega
  have hspec := (@recv_loop_spec len [] s (Nat.zero_le len)).1 (by simpa using hle)
  rw [List.length_nil, Nat.sub_zero, List.nil_append, h, ← hlen, List.take_left, List.drop_left] at hspec
  rw [← hlen]
  exact hspec

theorem recv_all_of_lt (h : s.incoming.length < len) : (recv_all len s).1 ≤ 0 :=
  (@recv_loop_spec len [] s (Nat.zero_le len)).2 (by simpa using h)

theorem recv_loop_incoming (len : Nat) (buf : Bytes) (s : Socket) :
    (recv_loop len buf s).2.2.incoming.length ≤ s.incoming.length := by
  have hrecv : ∀ (n : Nat) (s : Socket), (s.recv n).2.incoming.length ≤ s.incoming.length := by
    intro n s
    have hsum := congrArg List.length (s.recv_append n)
    rw [List.length_append] at hsum
    omega
  fun_induction recv_loop len buf s with
  | case1 buf s hlt r hr => exact hrecv _ s
  | case2 buf s hlt r hr ih => exact ih.trans (hrecv _ s)
  | case3 buf s hge => exact le_rfl

end RecvAll

/-! ## The read loop -/

/-- The fields that `handle_client` takes from the 32 bytes of a header, and the length of the payload. -/
def parse_header (header_buf : Bytes) : Header × UInt32 :=
  ({ magic := ntohl header_buf 0
     version := header_buf.getD 4 0
     type := header_buf.getD 5 0
     timestamp := ((ntohl header_buf 10).toUInt64 <<< 32) ||| (ntohl header_buf 14).toUInt64
     userId := ntohl header_buf 18
     checksum := ntohl header_buf 22 }, ntohl header_buf 6)

/-- Why the loop is left: a header was rejected, the connection is over, or the case of a frame goes to
`cleanup`. -/
inductive Ended where
  | invalid_header
  | closed
  | cleanup
  deriving DecidableEq

/-- One turn of the loop, up to the `switch`. -/
def read_frame (s : Socket) : Except Ended Request × Socket :=
  let header := recv_all 32 s
  if header.1 ≤ 0 then (.error .closed, header.2.2)
  else
    let parsed := parse_header header.2.1
    if parsed.1.valid then
      if 0 < parsed.2 then
        let payload := recv_all parsed.2.toNat header.2.2
        if payload.1 ≤ 0 then (.error .closed, payload.2.2)
        else (.ok ⟨parsed.1, payload.2.1⟩, payload.2.2)
      else (.ok ⟨parsed.1, []⟩, header.2.2)
    else (.error .invalid_header, header.2.2)

section ReadFrame

variable {s : Socket} {r : Request} {h : Header} {payload : Bytes} {length : UInt32}

/-- A whole frame is read, and what follows it is left. -/
theorem read_frame_whole {header rest : Bytes} (hs : s.incoming = header ++ payload ++ rest)
    (hheader : header.length = 32) (hparse : parse_header header = (h, length)) (hvalid : h.valid = true)
    (hlength : payload.length = length.toNat) :
    ∃ s', s'.incoming = rest ∧ read_frame s = (.ok ⟨h, payload⟩, s') := by
  obtain ⟨s₁, hs₁, hrecv⟩ := recv_all_append (hs.trans (List.append_assoc ..)) hheader
  rw [read_frame, hrecv]
  simp only [hparse, hvalid, if_true]
  rw [if_neg (by decide)]
  by_cases hempty : payload = []
  · have hzero : ¬0 < length := by
      rw [UInt32.lt_iff_toNat_lt, ← hlength, hempty]
      decide
    rw [if_neg hzero, hempty]
    exact ⟨s₁, by rw [hs₁, hempty]; rfl, rfl⟩
  · have hpos : 0 < length := by
      rw [UInt32.lt_iff_toNat_lt, ← hlength]
      exact List.length_pos_iff.mpr hempty
    obtain ⟨s₂, hs₂, hrecv₂⟩ := recv_all_append hs₁ hlength
    rw [if_pos hpos, hrecv₂, if_neg (by rw [UInt32.lt_iff_toNat_lt] at hpos; simpa using hpos.ne')]
    exact ⟨s₂, hs₂, rfl⟩

/-- A part of a frame ends the loop. -/
theorem read_frame_part {header : Bytes} (hs : s.incoming <+: header ++ payload)
    (hpart : s.incoming.length < (header ++ payload).length) (hheader : header.length = 32)
    (hparse : parse_header header = (h, length)) (hvalid : h.valid = true)
    (hlength : payload.length = length.toNat) : (read_frame s).1 = .error .closed := by
  by_cases hshort : s.incoming.length < 32
  · rw [read_frame]
    exact congrArg Prod.fst (if_pos (recv_all_of_lt hshort))
  · -- the header is there, and a part of the payload
    obtain ⟨rest, hrest⟩ : header <+: s.incoming :=
      List.prefix_of_prefix_length_le (List.prefix_append _ _) hs (by omega)
    obtain ⟨s₁, hs₁, hrecv⟩ := recv_all_append hrest.symm hheader
    have hmissing : s₁.incoming.length < length.toNat := by
      rw [List.length_append, ← hrest, List.length_append] at hpart
      rw [hs₁, ← hlength]
      omega
    have hpos : 0 < length := by
      rw [UInt32.lt_iff_toNat_lt]
      exact Nat.lt_of_le_of_lt (Nat.zero_le _) hmissing
    rw [read_frame, hrecv]
    simp only [hparse, hvalid, if_true]
    rw [if_neg (by decide), if_pos hpos, if_pos (recv_all_of_lt hmissing)]

/-- A frame is read from the bytes that were there. -/
theorem read_frame_shorter (hr : (read_frame s).1 = .ok r) :
    (read_frame s).2.incoming.length < s.incoming.length := by
  by_cases hshort : s.incoming.length < 32
  · have hclosed : (read_frame s).1 = .error .closed := by
      rw [read_frame]
      exact congrArg Prod.fst (if_pos (recv_all_of_lt hshort))
    rw [hclosed] at hr
    cases hr
  · obtain ⟨s₁, hs₁, hrecv⟩ := @recv_all_append 32 (s.incoming.take 32) s (s.incoming.drop 32)
      (List.take_append_drop ..).symm (by rw [List.length_take]; omega)
    have hheader : s₁.incoming.length < s.incoming.length := by
      rw [hs₁, List.length_drop]
      omega
    -- reading a payload takes no bytes back
    have hpayload : ∀ n, (recv_all n s₁).2.2.incoming.length < s.incoming.length :=
      fun n => Nat.lt_of_le_of_lt (recv_loop_incoming n [] s₁) hheader
    rw [read_frame, hrecv]
    rcases parse_header (s.incoming.take 32) with ⟨h, length⟩
    simp only
    rw [if_neg (by decide)]
    split_ifs with hvalid hpos hfailed
    · exact hpayload _
    · exact hpayload _
    · exact hheader
    · exact hheader

end ReadFrame

/-- The frames that the loop hands to the `switch`, and why it ends; `leaves` says that the case of a frame
goes to `cleanup`. -/
def read_loop (leaves : Request → Bool) (s : Socket) : List Request × Ended :=
  match _h : (read_frame s).1 with
  | .error ended => ([], ended)
  | .ok r =>
    if leaves r then ([r], .cleanup)
    else
      let rest := read_loop leaves (read_frame s).2
      (r :: rest.1, rest.2)
termination_by s.incoming.length
decreasing_by exact read_frame_shorter _h

end ChatApp
