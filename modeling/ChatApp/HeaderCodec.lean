/-
`HeaderCodec.lean` -- the three codecs of the 32-byte header, against each other.

`createMessage` and `write_header` write the same bytes, and both decoders read six of the seven fields back. The
time is the seventh: `htonll` puts the high word first, the server reads it there, and `ntohll` takes the word that
comes first for the low one. So what `parseMessage` reads has its halves swapped (`swapped`).

The length is checked against a sum of 32 bits, and what a large length field makes of that is the second part.
-/
import ChatApp.Lossless

set_option autoImplicit false

namespace ChatApp

open ProtocolHandler

/-! ## The time -/

/-- Swapping the halves changes nothing exactly when they are the same. -/
theorem swapped_eq_iff (ts : UInt64) : swapped ts = ts ↔ (ts >>> 32).toUInt32 = ts.toUInt32 := by
  have hhigh := (ts >>> 32).toUInt32.toNat_lt
  have hlow := ts.toUInt32.toNat_lt
  have hts := toNat_halves (ts >>> 32).toUInt32 ts.toUInt32
  rw [word_of_halves] at hts
  rw [← UInt64.toNat_inj, ← UInt32.toNat_inj, swapped, toNat_halves, hts]
  omega

/-- What was written is read: by `parseMessage` of what either encoder wrote, and the time by the server. -/
structure HeaderReadBack (c : Call) : Prop where
  created : parseMessage (createMessage c.type c.payload c.userId c.ts) =
    some (⟨PROTOCOL_MAGIC, PROTOCOL_VERSION, c.type, UInt32.ofNat c.payload.length, c.ts, c.userId, 0⟩, c.payload)
  sent : parseMessage (write_header c.type (UInt32.ofNat c.payload.length) c.userId c.ts ++ c.payload) =
    some (⟨PROTOCOL_MAGIC, PROTOCOL_VERSION, c.type, UInt32.ofNat c.payload.length, c.ts, c.userId, 0⟩, c.payload)
  received : (parse_header ((createMessage c.type c.payload c.userId c.ts).take 32)).1.timestamp = c.ts

/-- **When a header is read back**: exactly when the halves of the time are the same. -/
theorem header_read_back_iff (c : Call) (hsize : c.payload.length < 2 ^ 32 - 32) :
    HeaderReadBack c ↔ (c.ts >>> 32).toUInt32 = c.ts.toUInt32 := by
  rw [← swapped_eq_iff]
  constructor
  · intro h
    have hsent := h.sent
    rw [show write_header c.type (UInt32.ofNat c.payload.length) c.userId c.ts ++ c.payload = c.frame from rfl,
      parse_frame hsize] at hsent
    injection hsent with hpair
    injection hpair with hheader
    injection hheader
  · intro htime
    have hframe := parse_frame hsize
    rw [htime] at hframe
    refine ⟨hframe, hframe, ?_⟩
    rw [createMessage_eq, List.take_left' (length_header_bytes ..), parse_header_bytes]

/-- A time whose halves are the same. -/
theorem header_read_back_even : HeaderReadBack ⟨0x20, str "hi", 7, 0x100000001⟩ :=
  (header_read_back_iff ⟨0x20, str "hi", 7, 0x100000001⟩ (by decide)).mpr (by decide)

/-- **Headers are not read back** at a time of the year 2023. -/
theorem header_time_swapped : ¬∀ c : Call, c.payload.length < 2 ^ 32 - 32 → HeaderReadBack c := by
  intro claim
  have hsent := (claim ⟨0x20, [], 7, 1700000000⟩ (by decide)).created
  have htime : (parseMessage (createMessage 0x20 [] 7 1700000000)).map (fun p => p.1.timestamp) ≠ some 1700000000 := by
    decide
  exact htime (congrArg (Option.map fun p => p.1.timestamp) hsent)

/-! ## The length -/

/-- What a parsed message says of its input: the payload is what stands behind the header, as long as the header says,
and all of it is there. -/
def ParsedInside (data : Bytes) : Prop :=
  ∀ header payload, parseMessage data = some (header, payload) →
    32 + header.length.toNat ≤ data.length ∧ payload = (data.drop 32).take header.length.toNat

/-- A header that is accepted, with a length field so large that 32 more wraps around, and fewer bytes behind it. -/
structure Outside (data : Bytes) : Prop where
  header : 32 ≤ data.length
  magic : ntohl data 0 = PROTOCOL_MAGIC
  version : data.getD 4 0 = PROTOCOL_VERSION
  field : 2 ^ 32 - 32 ≤ (ntohl data 6).toNat
  missing : data.length < 32 + (ntohl data 6).toNat

section Length

variable {data : Bytes}

/-- What a parsed message says of its header. -/
theorem of_parsed {header : ProtocolHeader} {payload : Bytes} (h : parseMessage data = some (header, payload)) :
    32 ≤ data.length ∧ ntohl data 0 = PROTOCOL_MAGIC ∧ data.getD 4 0 = PROTOCOL_VERSION ∧
      header.length = ntohl data 6 ∧ (32 + ntohl data 6).toNat ≤ data.length ∧
      payload = (data.drop 32).take (ntohl data 6).toNat := by
  rw [parseMessage] at h
  split at h
  · cases h
  · next hheader =>
    dsimp only at h
    split at h
    · cases h
    · next hmagic =>
      split at h
      · cases h
      · next hversion =>
        split at h
        · cases h
        · next hlength =>
          obtain ⟨rfl, rfl⟩ := Prod.mk.inj (Option.some.inj h)
          refine ⟨by omega, not_not.mp hmagic, not_not.mp hversion, rfl, by omega, ?_⟩
          split
          · rfl
          · next hzero =>
            have hnone : (ntohl data 6).toNat = 0 := by
              rw [UInt32.lt_iff_toNat_lt] at hzero
              exact Nat.eq_zero_of_not_pos hzero
            rw [hnone, List.take_zero]

/-- Such a header is parsed. -/
theorem Outside.parsed (h : Outside data) :
    ∃ header payload, parseMessage data = some (header, payload) ∧ header.length = ntohl data 6 := by
  have hlt := (ntohl data 6).toNat_lt
  have hfield := h.field
  have hsum : (32 + ntohl data 6).toNat = 32 + (ntohl data 6).toNat - 2 ^ 32 := by
    have hadd : (32 + ntohl data 6).toNat = (32 + (ntohl data 6).toNat) % 2 ^ 32 := UInt32.toNat_add _ _
    omega
  have hheader := h.header
  have hlength : ¬data.length < (32 + ntohl data 6).toNat := by
    rw [hsum]
    omega
  cases hparsed : parseMessage data with
  | some p =>
    obtain ⟨-, -, -, hfield', -, -⟩ := of_parsed hparsed
    exact ⟨p.1, p.2, rfl, hfield'⟩
  | none =>
    rw [parseMessage, if_neg (by omega)] at hparsed
    dsimp only at hparsed
    rw [if_neg (not_not.mpr h.magic), if_neg (not_not.mpr h.version), if_neg hlength] at hparsed
    cases hparsed

/-- **When a parsed message lies inside its input**: exactly when the sum of the length check does not wrap around on
a header with too few bytes behind it. -/
theorem parsed_inside_iff (data : Bytes) : ParsedInside data ↔ ¬Outside data := by
  constructor
  · intro h houtside
    obtain ⟨header, payload, hparsed, hlength⟩ := houtside.parsed
    have hinside := (h header payload hparsed).1
    have hmissing := houtside.missing
    rw [hlength] at hinside
    omega
  · intro h header payload hparsed
    obtain ⟨hheader, hmagic, hversion, hlength, hsum, hpayload⟩ := of_parsed hparsed
    rw [hlength]
    refine ⟨?_, hpayload⟩
    by_contra hmissing
    -- with a smaller length field the check would have failed
    refine h ⟨hheader, hmagic, hversion, ?_, by omega⟩
    by_contra hfield
    have hadd : (32 + ntohl data 6).toNat = (32 + (ntohl data 6).toNat) % 2 ^ 32 := UInt32.toNat_add _ _
    omega

end Length

/-- A header whose length field says that 2 ^ 32 - 32 bytes follow, and nothing behind it. -/
def endless_header : Bytes := write_header 0x20 0xFFFFFFE0 7 0

/-- **The payload lies outside**: the bare header is parsed. -/
theorem parsed_outside : ¬∀ data, ParsedInside data := by
  intro claim
  have houtside : Outside endless_header := ⟨by decide, by decide, by decide, by decide, by decide⟩
  obtain ⟨header, payload, hparsed, hlength⟩ := houtside.parsed
  have hinside := (claim endless_header header payload hparsed).1
  rw [hlength] at hinside
  exact absurd hinside (by decide)

end ChatApp
