/-
`UrlEncoder.lean` -- texts as a form sends them.

A text is a sequence of 16-bit units, of which two make one character beyond the first plane. A Java program hands it
to native code in modified UTF-8, unit by unit. `java.net.URLEncoder` writes it in plain characters only: a blank as
a plus, and each byte in UTF-8 of what is not unreserved as a percent sign and two digits. The two agree on the texts
of unreserved characters, and on no others.
-/
import Mathlib.Data.List.Basic

set_option autoImplicit false

namespace ChatApp

/-- A string of the Java virtual machine. -/
abbrev Text : Type := List UInt16

namespace Text

/-- Letters, digits, and the four other characters that a form leaves as they are. -/
def Unreserved (c : UInt16) : Prop :=
  (0x61 ≤ c ∧ c ≤ 0x7A) ∨ (0x41 ≤ c ∧ c ≤ 0x5A) ∨ (0x30 ≤ c ∧ c ≤ 0x39) ∨ c = 0x2D ∨ c = 0x5F ∨ c = 0x2E ∨ c = 0x2A

instance (c : UInt16) : Decidable (Unreserved c) := by
  unfold Unreserved
  infer_instance

/-- The first unit of a character beyond the first plane. -/
def High (c : UInt16) : Prop := 0xD800 ≤ c ∧ c ≤ 0xDBFF

/-- The second. -/
def Low (c : UInt16) : Prop := 0xDC00 ≤ c ∧ c ≤ 0xDFFF

instance (c : UInt16) : Decidable (High c) := inferInstanceAs (Decidable (_ ∧ _))

instance (c : UInt16) : Decidable (Low c) := inferInstanceAs (Decidable (_ ∧ _))

/-! ## UTF-8 -/

/-- A code point in UTF-8. -/
def utf8 (code : Nat) : List UInt8 :=
  if code < 0x80 then [.ofNat code]
  else if code < 0x800 then [.ofNat (0xC0 + code / 0x40), .ofNat (0x80 + code % 0x40)]
  else if code < 0x10000 then
    [.ofNat (0xE0 + code / 0x1000), .ofNat (0x80 + code / 0x40 % 0x40), .ofNat (0x80 + code % 0x40)]
  else [.ofNat (0xF0 + code / 0x40000), .ofNat (0x80 + code / 0x1000 % 0x40), .ofNat (0x80 + code / 0x40 % 0x40),
    .ofNat (0x80 + code % 0x40)]

/-- A unit in modified UTF-8, which has two bytes for 0. -/
def modified_unit (c : UInt16) : List UInt8 := if c = 0 then [0xC0, 0x80] else utf8 c.toNat

/-- The bytes of a text in native code: each half of a pair is written by itself. -/
def modified_utf8 (s : Text) : List UInt8 := s.flatMap modified_unit

end Text

/-! ## The encoder -/

namespace URLEncoder

open Text

/-- A digit of base 16. -/
def digit (n : Nat) : UInt8 := .ofNat (if n < 10 then 0x30 + n else 0x37 + n)

/-- A byte that is not written as it is. -/
def percent (b : UInt8) : List UInt8 := [0x25, digit (b.toNat / 16), digit (b.toNat % 16)]

/-- A unit by itself. Half a pair without the other one becomes a question mark. -/
def encode_unit (c : UInt16) : List UInt8 :=
  if Unreserved c then [c.toUInt8]
  else if c = 0x20 then [0x2B]
  else if High c ∨ Low c then percent 0x3F
  else (utf8 c.toNat).flatMap percent

/-- The code point of a pair. -/
def code_point (c d : UInt16) : Nat := 0x10000 + (c.toNat - 0xD800) * 0x400 + (d.toNat - 0xDC00)

/-- `URLEncoder.encode(s, "UTF-8")`. -/
def encode : Text → List UInt8
  | [] => []
  | [c] => encode_unit c
  | c :: d :: rest =>
    if High c ∧ Low d then (utf8 (code_point c d)).flatMap percent ++ encode rest
    else encode_unit c ++ encode (d :: rest)

example : encode [0x61, 0x20, 0x26, 0xE9, 0xD83D, 0xDE00, 0xDC00]
    = "a+%26%C3%A9%F0%9F%98%80%3F".toList.map fun c => .ofNat c.toNat := by decide

/-! ## What the encoder writes -/

/-- The bytes that the encoder writes: those of unreserved characters, and the two marks. -/
def Written (b : UInt8) : Prop := Unreserved b.toUInt16 ∨ b = 0x25 ∨ b = 0x2B

theorem digit_written {n : Nat} (h : n < 16) : Written (digit n) := by
  have hall : ∀ n < 16, Unreserved (digit n).toUInt16 := by decide
  exact .inl (hall n h)

theorem percent_written {b c : UInt8} (hc : c ∈ percent b) : Written c := by
  have hb := b.toNat_lt
  simp only [percent, List.mem_cons, List.not_mem_nil, or_false] at hc
  rcases hc with rfl | rfl | rfl
  · exact .inr (.inl rfl)
  · exact digit_written (by omega)
  · exact digit_written (by omega)

/-- An unreserved character is a byte. -/
theorem lt_of_unreserved {c : UInt16} (hc : Unreserved c) : 0 < c.toNat ∧ c.toNat < 0x80 := by
  simp only [Unreserved, UInt16.le_iff_toNat_le, ← UInt16.toNat_inj] at hc
  simp at hc
  omega

theorem toUInt16_toUInt8 {c : UInt16} (hc : c.toNat < 0x100) : c.toUInt8.toUInt16 = c := by
  rw [← UInt16.toNat_inj, UInt8.toNat_toUInt16, UInt16.toNat_toUInt8]
  omega

theorem encode_unit_written {c : UInt16} {b : UInt8} (hb : b ∈ encode_unit c) : Written b := by
  rw [encode_unit] at hb
  by_cases hc : Unreserved c
  · rw [if_pos hc, List.mem_singleton] at hb
    have hlt := (lt_of_unreserved hc).2
    rw [hb, Written, toUInt16_toUInt8 (by omega)]
    exact .inl hc
  rw [if_neg hc] at hb
  by_cases hblank : c = 0x20
  · rw [if_pos hblank, List.mem_singleton] at hb
    exact .inr (.inr hb)
  rw [if_neg hblank] at hb
  split at hb
  · exact percent_written hb
  · obtain ⟨b', -, hb⟩ := List.mem_flatMap.mp hb
    exact percent_written hb

/-- The encoder writes nothing else. -/
theorem encode_written (s : Text) {b : UInt8} (hb : b ∈ encode s) : Written b := by
  fun_induction encode s with
  | case1 => cases hb
  | case2 c => exact encode_unit_written hb
  | case3 c d rest hpair ih =>
    rcases List.mem_append.mp hb with hb | hb
    · obtain ⟨b', -, hb⟩ := List.mem_flatMap.mp hb
      exact percent_written hb
    · exact ih hb
  | case4 c d rest hpair ih =>
    rcases List.mem_append.mp hb with hb | hb
    · exact encode_unit_written hb
    · exact ih hb

/-- So nothing that it writes separates the parts of a form. -/
theorem separator_notMem_encode (s : Text) : 0x26 ∉ encode s := by
  intro hmem
  exact absurd (encode_written s hmem) (by simp only [Written]; decide)

theorem nul_notMem_encode (s : Text) : 0 ∉ encode s := by
  intro hmem
  exact absurd (encode_written s hmem) (by simp only [Written]; decide)

/-! ## What it leaves as it is -/

/-- The units whose bytes in modified UTF-8 the encoder could have written. -/
def Narrow (c : UInt16) : Prop := Unreserved c ∨ c = 0x25 ∨ c = 0x2B

theorem lt_of_written {b : UInt8} (hb : Written b) : b.toNat < 0x80 := by
  rcases hb with hb | rfl | rfl
  · have hlt := (lt_of_unreserved hb).2
    rwa [UInt8.toNat_toUInt16] at hlt
  · decide
  · decide

theorem narrow_of_written {c : UInt16} (h : ∀ b ∈ modified_unit c, Written b) : Narrow c := by
  have hc := c.toNat_lt
  rw [modified_unit] at h
  by_cases hzero : c = 0
  · -- two bytes, of which the first is too large
    rw [if_pos hzero] at h
    exact absurd (lt_of_written (h 0xC0 List.mem_cons_self)) (by decide)
  rw [if_neg hzero, utf8] at h
  by_cases hone : c.toNat < 0x80
  · rw [if_pos hone, List.forall_mem_singleton] at h
    have hbyte : (UInt8.ofNat c.toNat) = c.toUInt8 := rfl
    have hback := toUInt16_toUInt8 (c := c) (by omega)
    rw [hbyte, Written, hback] at h
    refine h.imp_right (Or.imp (fun h => ?_) fun h => ?_)
    · rw [← hback, h]
      rfl
    · rw [← hback, h]
      rfl
  -- the first byte of a longer sequence is too large as well
  rw [if_neg hone] at h
  by_cases htwo : c.toNat < 0x800
  · rw [if_pos htwo] at h
    have hlt := lt_of_written (h _ List.mem_cons_self)
    rw [UInt8.toNat_ofNat'] at hlt
    omega
  · rw [if_neg htwo, if_pos (by omega)] at h
    have hlt := lt_of_written (h _ List.mem_cons_self)
    rw [UInt8.toNat_ofNat'] at hlt
    omega

theorem not_high_of_narrow {c : UInt16} (hc : Narrow c) : ¬High c := by
  have hlt : c.toNat < 0x80 := by
    rcases hc with hc | rfl | rfl
    · exact (lt_of_unreserved hc).2
    · decide
    · decide
  rw [High, UInt16.le_iff_toNat_le]
  intro h
  have hhigh : UInt16.toNat 0xD800 = 0xD800 := rfl
  omega

/-- Such a unit is written as one byte, or as three. -/
theorem length_encode_unit {c : UInt16} (hc : Narrow c) :
    (encode_unit c).length = if Unreserved c then 1 else 3 := by
  by_cases hplain : Unreserved c
  · rw [encode_unit, if_pos hplain, if_pos hplain]
    rfl
  · rw [if_neg hplain]
    rcases hc with hc | rfl | rfl
    · exact absurd hc hplain
    · decide
    · decide

/-- What has only such units does not get shorter, and keeps its length only if all are unreserved. -/
theorem length_encode {s : Text} (hs : ∀ c ∈ s, Narrow c) :
    s.length ≤ (encode s).length ∧ ((encode s).length = s.length → ∀ c ∈ s, Unreserved c) := by
  fun_induction encode s with
  | case1 => exact ⟨Nat.le_refl 0, fun _ c hc => absurd hc List.not_mem_nil⟩
  | case2 c =>
    have hlength := length_encode_unit (hs c List.mem_cons_self)
    rw [hlength, List.length_singleton]
    split
    · next hc => exact ⟨Nat.le_refl 1, fun _ => List.forall_mem_singleton.mpr hc⟩
    · exact ⟨by omega, fun h => by omega⟩
  | case3 c d rest hpair ih => exact absurd hpair.1 (not_high_of_narrow (hs c List.mem_cons_self))
  | case4 c d rest hpair ih =>
    obtain ⟨hle, hall⟩ := ih fun x hx => hs x (List.mem_cons_of_mem c hx)
    have hlength := length_encode_unit (hs c List.mem_cons_self)
    rw [List.length_append, hlength, List.length_cons (a := c)]
    split
    · next hc => exact ⟨by omega, fun h => List.forall_mem_cons.mpr ⟨hc, hall (by omega)⟩⟩
    · exact ⟨by omega, fun h => by omega⟩

theorem encode_of_unreserved {s : Text} (hs : ∀ c ∈ s, Unreserved c) : encode s = modified_utf8 s := by
  have hunit : ∀ c, Unreserved c → encode_unit c = modified_unit c := by
    intro c hc
    obtain ⟨hpos, hlt⟩ := lt_of_unreserved hc
    have hne : c ≠ 0 := by
      rintro rfl
      exact absurd hpos (by decide)
    rw [encode_unit, if_pos hc, modified_unit, if_neg hne, utf8, if_pos hlt]
    rfl
  fun_induction encode s with
  | case1 => rfl
  | case2 c => rw [hunit c (hs c List.mem_cons_self), modified_utf8, List.flatMap_singleton]
  | case3 c d rest hpair ih =>
    exact absurd hpair.1 (not_high_of_narrow (.inl (hs c List.mem_cons_self)))
  | case4 c d rest hpair ih =>
    rw [ih fun x hx => hs x (List.mem_cons_of_mem c hx), hunit c (hs c List.mem_cons_self), modified_utf8,
      modified_utf8, List.flatMap_cons (x := c)]

theorem length_modified_utf8 {s : Text} (hs : ∀ c ∈ s, Narrow c) : (modified_utf8 s).length = s.length := by
  have hunit : ∀ c, Narrow c → (modified_unit c).length = 1 := by
    rintro c (hc | rfl | rfl)
    · obtain ⟨hpos, hlt⟩ := lt_of_unreserved hc
      have hne : c ≠ 0 := by
        rintro rfl
        exact absurd hpos (by decide)
      rw [modified_unit, if_neg hne, utf8, if_pos hlt]
      rfl
    · rfl
    · rfl
  induction s with
  | nil => rfl
  | cons c s ih =>
    rw [modified_utf8, List.flatMap_cons, List.length_append, hunit c (hs c List.mem_cons_self), List.length_cons,
      ← modified_utf8, ih fun x hx => hs x (List.mem_cons_of_mem c hx)]
    omega

/-- **The encoder leaves the texts of unreserved characters as they are**, and no others. -/
theorem encode_eq_iff (s : Text) : encode s = modified_utf8 s ↔ ∀ c ∈ s, Unreserved c := by
  refine ⟨fun h => ?_, encode_of_unreserved⟩
  have hnarrow : ∀ c ∈ s, Narrow c := fun c hc => narrow_of_written fun b hb =>
    encode_written s (h ▸ List.mem_flatMap.mpr ⟨c, hc, hb⟩)
  refine (length_encode hnarrow).2 ?_
  rw [h, length_modified_utf8 hnarrow]

/-- A text that is not empty is not written as nothing. -/
theorem encode_ne_nil {s : Text} (hs : s ≠ []) : encode s ≠ [] := by
  have hunit : ∀ c, encode_unit c ≠ [] := by
    intro c
    rw [encode_unit]
    split
    · simp
    split
    · simp
    split
    · simp [percent]
    · rw [utf8]
      split
      · simp [percent]
      split
      · simp [percent]
      split
      · simp [percent]
      · simp [percent]
  fun_cases encode s with
  | case1 => exact absurd rfl hs
  | case2 c => exact hunit c
  | case3 c d rest hpair =>
    have hlarge : 0x10000 ≤ code_point c d := by
      unfold code_point
      omega
    rw [utf8, if_neg (by omega), if_neg (by omega), if_neg (by omega)]
    simp [percent]
  | case4 c d rest hpair => simp [hunit c]

end URLEncoder

end ChatApp
