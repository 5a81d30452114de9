/-
`Base64.lean` -- `utils::base64_encode` is the encoding of RFC 4648.

The loop keeps the bytes read so far in an `int`, from which the high ones run out,
and prints six bits at a time as soon as it has them. At each print only the last
two bytes read matter, so that what ran out is never asked for. Three bytes make
four characters and leave the bit position where it was; one or two bytes at the
end are filled up with zero bits and the result with `=`.
-/
import Mathlib.Data.List.Basic
import ChatApp.Utils

set_option autoImplicit false

namespace ChatApp

/-! ## The encoding -/

/-- The character of six bits. -/
def b64_char (n : Nat) : UInt8 := b64_chars.getD (n % 64) 0

/-- Base 64: three bytes are a number of four digits. -/
def rfc4648 : Bytes → Bytes
  | a :: b :: c :: rest =>
    let n := (a.toNat * 256 + b.toNat) * 256 + c.toNat
    b64_char (n / 64 ^ 3) :: b64_char (n / 64 ^ 2) :: b64_char (n / 64) :: b64_char n :: rfc4648 rest
  | [a, b] =>
    let n := (a.toNat * 256 + b.toNat) * 256
    [b64_char (n / 64 ^ 3), b64_char (n / 64 ^ 2), b64_char (n / 64), 61]
  | [a] =>
    let n := a.toNat * 256 * 256
    [b64_char (n / 64 ^ 3), b64_char (n / 64 ^ 2), 61, 61]
  | [] => []

/-- Only six bits count. -/
theorem b64_char_congr {m n : Nat} (h : m % 64 = n % 64) : b64_char m = b64_char n := by
  rw [b64_char, b64_char, h]

theorem b64_char_mem (n : Nat) : b64_char n ∈ b64_chars := by
  have hlength : b64_chars.length = 64 := by decide
  have hn : n % 64 < b64_chars.length := by omega
  rw [b64_char, List.getD_eq_getElem?_getD, List.getElem?_eq_getElem hn]
  exact List.getElem_mem hn

/-- What is encoded stands in the alphabet, or fills up. -/
theorem mem_rfc4648 {s : Bytes} {b : UInt8} (h : b ∈ rfc4648 s) : b ∈ b64_chars ∨ b = 61 := by
  induction s using rfc4648.induct with
  | case1 a b c rest ih =>
    rw [rfc4648] at h
    simp only [List.mem_cons] at h
    rcases h with rfl | rfl | rfl | rfl | h
    · exact .inl (b64_char_mem _)
    · exact .inl (b64_char_mem _)
    · exact .inl (b64_char_mem _)
    · exact .inl (b64_char_mem _)
    · exact ih h
  | case2 a b =>
    rw [rfc4648] at h
    simp only [List.mem_cons, List.not_mem_nil, or_false] at h
    rcases h with rfl | rfl | rfl | rfl
    · exact .inl (b64_char_mem _)
    · exact .inl (b64_char_mem _)
    · exact .inl (b64_char_mem _)
    · exact .inr rfl
  | case3 a =>
    rw [rfc4648] at h
    simp only [List.mem_cons, List.not_mem_nil, or_false] at h
    rcases h with rfl | rfl | rfl | rfl
    · exact .inl (b64_char_mem _)
    · exact .inl (b64_char_mem _)
    · exact .inr rfl
    · exact .inr rfl
  | case4 =>
    cases h

theorem rfc4648_ne_nil {s : Bytes} (h : s ≠ []) : rfc4648 s ≠ [] := by
  cases s with
  | nil => exact absurd rfl h
  | cons a rest =>
    cases rest with
    | nil => exact List.cons_ne_nil _ _
    | cons b rest => cases rest <;> exact List.cons_ne_nil _ _

/-- No comma and no `&` comes out. -/
theorem notMem_rfc4648 (s : Bytes) : 44 ∉ rfc4648 s ∧ 38 ∉ rfc4648 s := by
  constructor <;> intro h <;> rcases mem_rfc4648 h with h | h
  · exact absurd h (by decide)
  · exact absurd h (by decide)
  · exact absurd h (by decide)
  · exact absurd h (by decide)

/-! ## The loop -/

section Loop

variable {out : Bytes} {val : BitVec 32}

/-- Six bits of the accumulator. -/
theorem sextet (x : BitVec 32) {s : Nat} (hs : s + 6 ≤ 32) :
    ((x.sshiftRight s) &&& 0x3F).toNat = x.toNat / 2 ^ s % 64 := by
  have hmask : (x.sshiftRight s) &&& 0x3F = (x >>> s) &&& 0x3F := by
    ext i hi
    simp only [BitVec.getElem_and, BitVec.getElem_sshiftRight, BitVec.getElem_ushiftRight]
    by_cases h6 : i < 6
    · have hsum : s + i < 32 := by omega
      simp [hsum]
    · have hbits : ∀ i, ∀ hi : i < 32, ¬i < 6 → (0x3F : BitVec 32)[i] = false := by decide
      have hzero : (0x3F : BitVec 32)[i] = false := hbits i hi h6
      rw [hzero, Bool.and_false, Bool.and_false]
  rw [hmask, BitVec.toNat_and, BitVec.toNat_ushiftRight, Nat.shiftRight_eq_div_pow]
  exact Nat.and_two_pow_sub_one_eq_mod (x.toNat / 2 ^ s) 6

/-- The accumulator after another byte. -/
def shift_in (val : BitVec 32) (c : UInt8) : BitVec 32 := (val <<< 8) + BitVec.ofNat 32 c.toNat

theorem toNat_shift_in (x : BitVec 32) (c : UInt8) :
    (shift_in x c).toNat = (x.toNat * 256 + c.toNat) % 2 ^ 32 := by
  have hc : c.toNat < 256 := c.toNat_lt
  rw [shift_in, BitVec.toNat_add, BitVec.toNat_shiftLeft, BitVec.toNat_ofNat, Nat.shiftLeft_eq]
  omega

/-- The character of six bits of the accumulator. -/
theorem sextet_char (x : BitVec 32) {s : Nat} (hs : s + 6 ≤ 32) :
    b64_chars.getD ((x.sshiftRight s) &&& 0x3F).toNat 0 = b64_char (x.toNat / 2 ^ s) := by
  rw [sextet x hs, b64_char]

theorem base64_first (a : UInt8) : base64_byte (out, val, -6) a =
    (out ++ [b64_char ((shift_in val a).toNat / 2 ^ 2)], shift_in val a, -4) := by
  rw [← sextet_char (shift_in val a) (by decide)]
  rfl

theorem base64_second (b : UInt8) : base64_byte (out, val, -4) b =
    (out ++ [b64_char ((shift_in val b).toNat / 2 ^ 4)], shift_in val b, -2) := by
  rw [← sextet_char (shift_in val b) (by decide)]
  rfl

theorem base64_third (c : UInt8) : base64_byte (out, val, -2) c =
    (out ++ [b64_char ((shift_in val c).toNat / 2 ^ 6), b64_char ((shift_in val c).toNat / 2 ^ 0)],
      shift_in val c, -6) := by
  rw [← sextet_char (shift_in val c) (by decide), ← sextet_char (shift_in val c) (by decide)]
  rfl

/-- What stands after the loop: the bits that are left, and the filling. -/
def base64_finish (st : Bytes × BitVec 32 × Int) : Bytes :=
  let out := if -6 < st.2.2 then
      st.1 ++ [b64_chars.getD (((st.2.1 <<< 8).sshiftRight (st.2.2 + 8).toNat) &&& 0x3F).toNat 0]
    else st.1
  out ++ List.replicate ((4 - out.length % 4) % 4) 61

/-- What fills up the last group. -/
def base64_fill (out : Bytes) : Bytes := out ++ List.replicate ((4 - out.length % 4) % 4) 61

/-- Where bits are left, another character is printed before the filling. -/
theorem base64_finish_one : base64_finish (out, val, -4) =
    base64_fill (out ++ [b64_char ((val <<< 8).toNat / 2 ^ 4)]) := by
  rw [← sextet_char (val <<< 8) (by decide)]
  rfl

theorem base64_finish_two : base64_finish (out, val, -2) =
    base64_fill (out ++ [b64_char ((val <<< 8).toNat / 2 ^ 6)]) := by
  rw [← sextet_char (val <<< 8) (by decide)]
  rfl

/-- From a bit position at the start of a group on, the loop prints the groups of the rest. -/
theorem base64_loop (s : Bytes) (out : Bytes) (val : BitVec 32) (hout : out.length % 4 = 0) :
    base64_finish (s.foldl base64_byte (out, val, -6)) = out ++ rfc4648 s := by
  induction s using rfc4648.induct generalizing out val with
  | case1 a b c rest ih =>
    have ha : a.toNat < 256 := a.toNat_lt
    have hb : b.toNat < 256 := b.toNat_lt
    have hc : c.toNat < 256 := c.toNat_lt
    have hchars : [b64_char ((shift_in val a).toNat / 2 ^ 2),
        b64_char ((shift_in (shift_in val a) b).toNat / 2 ^ 4),
        b64_char ((shift_in (shift_in (shift_in val a) b) c).toNat / 2 ^ 6),
        b64_char ((shift_in (shift_in (shift_in val a) b) c).toNat / 2 ^ 0)] =
        [b64_char (((a.toNat * 256 + b.toNat) * 256 + c.toNat) / 64 ^ 3),
          b64_char (((a.toNat * 256 + b.toNat) * 256 + c.toNat) / 64 ^ 2),
          b64_char (((a.toNat * 256 + b.toNat) * 256 + c.toNat) / 64),
          b64_char ((a.toNat * 256 + b.toNat) * 256 + c.toNat)] := by
      simp only [List.cons.injEq, and_true, toNat_shift_in]
      refine ⟨b64_char_congr ?_, b64_char_congr ?_, b64_char_congr ?_, b64_char_congr ?_⟩ <;> omega
    rw [List.foldl_cons, List.foldl_cons, List.foldl_cons, base64_first, base64_second, base64_third,
      ih _ _ (by simp; omega), rfc4648]
    simp only [List.append_assoc, List.cons_append, List.nil_append]
    exact congrArg (fun l => out ++ (l ++ rfc4648 rest)) hchars
  | case2 a b =>
    have ha : a.toNat < 256 := a.toNat_lt
    have hb : b.toNat < 256 := b.toNat_lt
    have hchars : [b64_char ((shift_in val a).toNat / 2 ^ 2),
        b64_char ((shift_in (shift_in val a) b).toNat / 2 ^ 4),
        b64_char ((shift_in (shift_in val a) b <<< 8).toNat / 2 ^ 6)] =
        [b64_char ((a.toNat * 256 + b.toNat) * 256 / 64 ^ 3),
          b64_char ((a.toNat * 256 + b.toNat) * 256 / 64 ^ 2),
          b64_char ((a.toNat * 256 + b.toNat) * 256 / 64)] := by
      simp only [List.cons.injEq, and_true, toNat_shift_in, BitVec.toNat_shiftLeft, Nat.shiftLeft_eq]
      refine ⟨b64_char_congr ?_, b64_char_congr ?_, b64_char_congr ?_⟩ <;> omega
    rw [List.foldl_cons, List.foldl_cons, List.foldl_nil, base64_first, base64_second,
      base64_finish_two, base64_fill]
    have hfill : (4 - (out ++ [b64_char ((shift_in val a).toNat / 2 ^ 2)] ++
        [b64_char ((shift_in (shift_in val a) b).toNat / 2 ^ 4)] ++
        [b64_char ((shift_in (shift_in val a) b <<< 8).toNat / 2 ^ 6)]).length % 4) % 4 = 1 := by
      simp only [List.length_append, List.length_singleton]
      omega
    rw [hfill, rfc4648]
    simp only [List.append_assoc, List.cons_append, List.nil_append]
    exact congrArg (fun l => out ++ (l ++ [61])) hchars
  | case3 a =>
    have ha : a.toNat < 256 := a.toNat_lt
    have hchars : [b64_char ((shift_in val a).toNat / 2 ^ 2),
        b64_char ((shift_in val a <<< 8).toNat / 2 ^ 4)] =
        [b64_char (a.toNat * 256 * 256 / 64 ^ 3), b64_char (a.toNat * 256 * 256 / 64 ^ 2)] := by
      simp only [List.cons.injEq, and_true, toNat_shift_in, BitVec.toNat_shiftLeft, Nat.shiftLeft_eq]
      refine ⟨b64_char_congr ?_, b64_char_congr ?_⟩ <;> omega
    have hfill : (4 - (out ++ [b64_char ((shift_in val a).toNat / 2 ^ 2)] ++
        [b64_char ((shift_in val a <<< 8).toNat / 2 ^ 4)]).length % 4) % 4 = 2 := by
      simp only [List.length_append, List.length_singleton]
      omega
    rw [List.foldl_cons, List.foldl_nil, base64_first, base64_finish_one, base64_fill, hfill, rfc4648]
    simp only [List.append_assoc, List.cons_append, List.nil_append]
    exact congrArg (fun l => out ++ (l ++ [61, 61])) hchars
  | case4 =>
    have hfill : (4 - out.length % 4) % 4 = 0 := by omega
    show out ++ List.replicate ((4 - out.length % 4) % 4) 61 = out ++ []
    rw [hfill]
    rfl

end Loop

/-- **The encoder is base 64.** -/
theorem base64_encode_eq (s : Bytes) : base64_encode s = rfc4648 s :=
  base64_loop s [] 0 rfl

end ChatApp
