/-
`Base64Decoding.lean` -- what `utils::base64_encode` returns can be decoded, and needs no more of the accumulator
than the accumulator keeps.

The decoder is that of RFC 4648, with the alphabet as its table has it: groups of four characters, at most the last
of which is filled up, and then with no bits left over that are not zero. The encoder is run beside one whose
accumulator is a natural number and loses nothing. They print the same: a bit position never exceeds 7 when
six bits are taken from it on, so that the lowest 13 bits are all that is ever read.
-/
import ChatApp.Base64

set_option autoImplicit false

namespace ChatApp

/-! ## Decoding -/

/-- The value of a character of the alphabet. -/
def b64_value (c : UInt8) : Option Nat :=
  if 65 ≤ c ∧ c ≤ 90 then some (c.toNat - 65)
  else if 97 ≤ c ∧ c ≤ 122 then some (c.toNat - 71)
  else if 48 ≤ c ∧ c ≤ 57 then some (c.toNat + 4)
  else if c = 43 then some 62
  else if c = 47 then some 63
  else none

/-- A last group that is filled up stands for one byte or for two. -/
def decode_last (a b c : UInt8) : Option Bytes := do
  let x ← b64_value a
  let y ← b64_value b
  if c = 61 then
    if y % 16 = 0 then some [.ofNat ((x * 64 + y) / 16)] else none
  else
    let z ← b64_value c
    let n := (x * 64 + y) * 64 + z
    if z % 4 = 0 then some [.ofNat (n / 1024), .ofNat (n / 4)] else none

/-- Decoding of base 64. -/
def rfc4648_decode : Bytes → Option Bytes
  | [] => some []
  | a :: b :: c :: d :: rest =>
    if d = 61 ∧ rest = [] then decode_last a b c
    else do
      let x ← b64_value a
      let y ← b64_value b
      let z ← b64_value c
      let w ← b64_value d
      let n := ((x * 64 + y) * 64 + z) * 64 + w
      let bytes ← rfc4648_decode rest
      some (.ofNat (n / 65536) :: .ofNat (n / 256) :: .ofNat n :: bytes)
  | _ => none

theorem b64_value_checked : ((List.range 64).all fun n =>
    b64_value (b64_char n) == some n && b64_char n != 61) = true := by
  decide

/-- The characters of the encoder are those of the table. -/
theorem b64_value_char (n : Nat) : b64_value (b64_char n) = some (n % 64) ∧ b64_char n ≠ 61 := by
  have hn : n % 64 ∈ List.range 64 := List.mem_range.mpr (Nat.mod_lt n (by decide))
  have hcheck := List.all_eq_true.mp b64_value_checked _ hn
  have hchar : b64_char (n % 64) = b64_char n := b64_char_congr (Nat.mod_mod n 64)
  rw [hchar, Bool.and_eq_true, beq_iff_eq, bne_iff_ne] at hcheck
  exact hcheck

theorem byte_of_digits {n : Nat} {a : UInt8} (h : n % 256 = a.toNat) : UInt8.ofNat n = a := by
  apply UInt8.toNat_inj.mp
  rw [UInt8.toNat_ofNat']
  exact h

/-- **Decoding undoes encoding.** -/
theorem rfc4648_decode_rfc4648 (s : Bytes) : rfc4648_decode (rfc4648 s) = some s := by
  induction s using rfc4648.induct with
  | case1 a b c rest ih =>
    have ha : a.toNat < 256 := a.toNat_lt
    have hb : b.toNat < 256 := b.toNat_lt
    have hc : c.toNat < 256 := c.toNat_lt
    rw [rfc4648]
    generalize hn : (a.toNat * 256 + b.toNat) * 256 + c.toNat = n
    have hlast : ¬(b64_char n = 61 ∧ rfc4648 rest = []) := fun h => (b64_value_char n).2 h.1
    have hdigits : ((n / 64 ^ 3 % 64 * 64 + n / 64 ^ 2 % 64) * 64 + n / 64 % 64) * 64 + n % 64 = n := by omega
    rw [rfc4648_decode, if_neg hlast, (b64_value_char _).1, (b64_value_char _).1, (b64_value_char _).1,
      (b64_value_char _).1, ih]
    simp only [Option.bind_eq_bind, Option.bind_some, hdigits]
    rw [byte_of_digits (a := a) (by omega), byte_of_digits (a := b) (by omega), byte_of_digits (a := c) (by omega)]
  | case2 a b =>
    have ha : a.toNat < 256 := a.toNat_lt
    have hb : b.toNat < 256 := b.toNat_lt
    rw [rfc4648]
    generalize hn : (a.toNat * 256 + b.toNat) * 256 = n
    have hzero : n / 64 % 64 % 4 = 0 := by omega
    rw [rfc4648_decode, if_pos ⟨rfl, rfl⟩, decode_last, (b64_value_char _).1, (b64_value_char _).1,
      (b64_value_char _).1]
    simp only [Option.bind_eq_bind, Option.bind_some]
    rw [if_neg (b64_value_char _).2, if_pos hzero, byte_of_digits (a := a) (by omega),
      byte_of_digits (a := b) (by omega)]
  | case3 a =>
    have ha : a.toNat < 256 := a.toNat_lt
    rw [rfc4648]
    generalize hn : a.toNat * 256 * 256 = n
    have hzero : n / 64 ^ 2 % 64 % 16 = 0 := by omega
    rw [rfc4648_decode, if_pos ⟨rfl, rfl⟩, decode_last, (b64_value_char _).1, (b64_value_char _).1]
    simp only [Option.bind_eq_bind, Option.bind_some]
    rw [if_pos trivial, if_pos hzero, byte_of_digits (a := a) (by omega)]
  | case4 => rfl

/-! ## An accumulator that loses nothing -/

/-- `base64_flush`, of a number. -/
def exact_flush (val : Nat) : Nat → Int → Bytes × Int
  | 0, valb => ([], valb)
  | n + 1, valb =>
    if 0 ≤ valb then
      let rest := exact_flush val n (valb - 6)
      (b64_char (val / 2 ^ valb.toNat) :: rest.1, rest.2)
    else ([], valb)

/-- `base64_byte`, of a number. -/
def exact_byte (st : Bytes × Nat × Int) (c : UInt8) : Bytes × Nat × Int :=
  let val := st.2.1 * 256 + c.toNat
  let valb := st.2.2 + 8
  let flushed := exact_flush val (valb.toNat + 1) valb
  (st.1 ++ flushed.1, val, flushed.2)

/-- `base64_encode`, with a number for the accumulator. -/
def exact_encode (input : Bytes) : Bytes :=
  let (out, val, valb) := input.foldl exact_byte ([], 0, -6)
  let out := if -6 < valb then out ++ [b64_char (val * 256 / 2 ^ (valb + 8).toNat)] else out
  out ++ List.replicate ((4 - out.length % 4) % 4) 61

/-- The two encoders, between two bytes: the same output, the same bit position, and in the accumulator what the
number is modulo `2 ^ 32`. -/
structure Agree (st : Bytes × BitVec 32 × Int) (exact : Bytes × Nat × Int) : Prop where
  out : st.1 = exact.1
  val : st.2.1.toNat = exact.2.1 % 2 ^ 32
  valb : st.2.2 = exact.2.2
  low : -6 ≤ st.2.2
  high : st.2.2 < 0

/-- Six bits that the accumulator has are those of the number. -/
theorem b64_char_mod {x y s : Nat} (hs : s + 6 ≤ 32) (h : x = y % 2 ^ 32) :
    b64_char (x / 2 ^ s) = b64_char (y / 2 ^ s) := by
  apply b64_char_congr
  have hpow : (2 : Nat) ^ 32 = 2 ^ s * 2 ^ (32 - s) := by
    rw [← Nat.pow_add]
    congr 1
    omega
  have hdvd : 64 ∣ 2 ^ (32 - s) := Nat.pow_dvd_pow 2 (show 6 ≤ 32 - s by omega)
  rw [h, hpow, Nat.mod_mul_right_div_self, Nat.mod_mod_of_dvd _ hdvd]

theorem flush_agree {val : BitVec 32} {exact : Nat} (hval : val.toNat = exact % 2 ^ 32) (n : Nat) (valb : Int)
    (hvalb : valb ≤ 26) : base64_flush val n valb = exact_flush exact n valb := by
  induction n generalizing valb with
  | zero => rfl
  | succ n ih =>
    rw [base64_flush, exact_flush]
    by_cases h0 : 0 ≤ valb
    · have hs : valb.toNat + 6 ≤ 32 := by omega
      rw [if_pos h0, if_pos h0, sextet_char val hs, b64_char_mod hs hval, ih (valb - 6) (by omega)]
    · rw [if_neg h0, if_neg h0]

/-- The inner loop ends below zero, and not by more than a step. -/
theorem flush_range (val : BitVec 32) (n : Nat) (valb : Int) (hn : valb < n) (hlow : -6 ≤ valb) :
    -6 ≤ (base64_flush val n valb).2 ∧ (base64_flush val n valb).2 < 0 := by
  induction n generalizing valb with
  | zero => exact ⟨hlow, hn⟩
  | succ n ih =>
    rw [base64_flush]
    by_cases h0 : 0 ≤ valb
    · rw [if_pos h0]
      exact ih (valb - 6) (by omega) (by omega)
    · rw [if_neg h0]
      exact ⟨hlow, Int.not_le.mp h0⟩

/-- A byte keeps them in agreement. -/
theorem Agree.byte {st : Bytes × BitVec 32 × Int} {exact : Bytes × Nat × Int} (h : Agree st exact) (c : UInt8) :
    Agree (base64_byte st c) (exact_byte exact c) := by
  have hval : (shift_in st.2.1 c).toNat = (exact.2.1 * 256 + c.toNat) % 2 ^ 32 := by
    rw [toNat_shift_in, h.val]
    omega
  have hlow := h.low
  have hhigh := h.high
  have hflush := flush_agree hval ((st.2.2 + 8).toNat + 1) (st.2.2 + 8) (by omega)
  have hrange := flush_range (shift_in st.2.1 c) ((st.2.2 + 8).toNat + 1) (st.2.2 + 8) (by omega) (by omega)
  refine ⟨?_, hval, ?_, hrange.1, hrange.2⟩
  · show st.1 ++ _ = exact.1 ++ _
    rw [h.out, ← h.valb]
    exact congrArg (fun flushed => exact.1 ++ flushed.1) hflush
  · show (base64_flush _ _ _).2 = (exact_flush _ _ _).2
    rw [← h.valb]
    exact congrArg Prod.snd hflush

/-- The loop, over any bytes. -/
theorem Agree.loop {st : Bytes × BitVec 32 × Int} {exact : Bytes × Nat × Int} (h : Agree st exact) (input : Bytes) :
    Agree (input.foldl base64_byte st) (input.foldl exact_byte exact) := by
  induction input generalizing st exact with
  | nil => exact h
  | cons c input ih => exact ih (h.byte c)

/-- What has run out of the accumulator is never asked for. -/
theorem base64_encode_exact (input : Bytes) : base64_encode input = exact_encode input := by
  have hstart : Agree ([], 0, -6) ([], 0, -6) := ⟨rfl, rfl, rfl, by decide, by decide⟩
  have h := hstart.loop input
  have hhigh := h.high
  have hlow := h.low
  have hval : ((input.foldl base64_byte ([], 0, -6)).2.1 <<< 8).toNat =
      (input.foldl exact_byte ([], 0, -6)).2.1 * 256 % 2 ^ 32 := by
    rw [BitVec.toNat_shiftLeft, Nat.shiftLeft_eq, h.val]
    omega
  have hs : ((input.foldl base64_byte ([], 0, -6)).2.2 + 8).toNat + 6 ≤ 32 := by omega
  rw [base64_encode, exact_encode]
  simp only []
  rw [sextet_char _ hs, b64_char_mod hs hval, h.out, h.valb]

/-- **`base64_encode` encodes in base 64**: its result is that of RFC 4648, is decoded to the input, and is the one
an accumulator without a width would give. -/
theorem base64_encode_correct (input : Bytes) :
    base64_encode input = rfc4648 input ∧ rfc4648_decode (base64_encode input) = some input ∧
      base64_encode input = exact_encode input := by
  refine ⟨base64_encode_eq input, ?_, base64_encode_exact input⟩
  rw [base64_encode_eq]
  exact rfc4648_decode_rfc4648 input

end ChatApp
