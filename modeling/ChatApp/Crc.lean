/-
`Crc.lean` -- the cyclic redundancy check as a shift register, and a table that
moves it several bits at a time.

The register is reflected: it is shifted to the right, and the lowest bit falls
out. Where what falls out, added to the next bit of the message, is a one, the
polynomial is added to the register.

A step is linear, and on a register whose low bits are zero it is a shift. So
`k` steps are a shift by `k`, and what the low `k` bits alone would become, which
there is a table of.
-/
import Mathlib.Data.List.Basic

set_option autoImplicit false

namespace Crc

variable {w k : Nat} (poly : BitVec w)

/-! ## 1. The register -/

/-- A step of the register on its own. -/
def step (r : BitVec w) : BitVec w := if r.getLsbD 0 then (r >>> 1) ^^^ poly else r >>> 1

/-- A step in which a bit of the message is taken in. -/
def feed (r : BitVec w) (bit : Bool) : BitVec w :=
  if r.getLsbD 0 ^^ bit then (r >>> 1) ^^^ poly else r >>> 1

def steps : Nat → BitVec w → BitVec w
  | 0, r => r
  | n + 1, r => step poly (steps n r)

/-- The bits of a word, the lowest first. -/
def bits (y : BitVec k) : List Bool := (List.range k).map y.getLsbD

/-- The bits of a message, the lowest of each byte first. -/
def message_bits (message : List UInt8) : List Bool := message.flatMap fun b => bits b.toBitVec

/-- The polynomial of CRC-32, reflected. -/
def polynomial32 : BitVec 32 := 0xEDB88320

/-- CRC-32: the register starts with ones, takes the message in bit by bit, and is complemented. -/
def crc32 (message : List UInt8) : BitVec 32 :=
  ~~~((message_bits message).foldl (feed polynomial32) (BitVec.allOnes 32))

/-! ## 2. Linearity -/

theorem step_xor (x y : BitVec w) : step poly (x ^^^ y) = step poly x ^^^ step poly y := by
  unfold step
  rw [BitVec.getLsbD_xor, BitVec.ushiftRight_xor_distrib]
  cases x.getLsbD 0 <;> cases y.getLsbD 0
  · rfl
  · exact BitVec.xor_assoc _ _ _
  · show x >>> 1 ^^^ y >>> 1 ^^^ poly = x >>> 1 ^^^ poly ^^^ y >>> 1
    rw [BitVec.xor_assoc, BitVec.xor_comm (y >>> 1), BitVec.xor_assoc]
  · -- the polynomial is added on both sides, and cancels
    show x >>> 1 ^^^ y >>> 1 = x >>> 1 ^^^ poly ^^^ (y >>> 1 ^^^ poly)
    rw [BitVec.xor_comm (y >>> 1) poly, BitVec.xor_assoc, ← BitVec.xor_assoc poly poly,
      BitVec.xor_self, BitVec.zero_xor]

theorem steps_xor (n : Nat) (x y : BitVec w) :
    steps poly n (x ^^^ y) = steps poly n x ^^^ steps poly n y := by
  induction n with
  | zero => rfl
  | succ n ih => rw [steps, ih, step_xor, steps, steps]

/-- As long as zeros fall out, the register is only shifted. -/
theorem steps_of_low_zero (n : Nat) (x : BitVec w) (hx : ∀ i, i < n → x.getLsbD i = false) :
    steps poly n x = x >>> n := by
  induction n with
  | zero => rw [steps, BitVec.ushiftRight_zero]
  | succ n ih =>
    have hout : (x >>> n).getLsbD 0 = false := by
      rw [BitVec.getLsbD_ushiftRight]
      exact hx n (Nat.lt_succ_self n)
    rw [steps, ih fun i hi => hx i (by omega), step, hout, if_neg Bool.false_ne_true, BitVec.shiftRight_add]

/-! ## 3. Several bits at a time -/

/-- The lowest `n` bits, in a register of the width `w`. -/
def low (w n : Nat) (y : BitVec k) : BitVec w := (y.setWidth n).setWidth w

theorem getLsbD_low {n : Nat} (y : BitVec k) (i : Nat) :
    (low w n y).getLsbD i = (decide (i < w) && (decide (i < n) && y.getLsbD i)) := by
  rw [low, BitVec.getLsbD_setWidth, BitVec.getLsbD_setWidth]

/-- A register is what is above its lowest `n` bits, and these. -/
theorem split_low (x : BitVec w) (n : Nat) : x = (x ^^^ low w n x) ^^^ low w n x := by
  rw [BitVec.xor_assoc, BitVec.xor_self, BitVec.xor_zero]

theorem getLsbD_above (x : BitVec w) {n i : Nat} (hi : i < n) : (x ^^^ low w n x).getLsbD i = false := by
  rw [BitVec.getLsbD_xor, getLsbD_low]
  by_cases hw : i < w
  · simp [hw, hi]
  · rw [BitVec.getLsbD_of_ge x i (by omega)]
    simp

theorem low_shift (y : BitVec k) (n : Nat) : low w n y >>> n = 0#w := by
  apply BitVec.eq_of_getLsbD_eq
  intro i hi
  have hge : ¬n + i < n := by omega
  rw [BitVec.getLsbD_ushiftRight, getLsbD_low, BitVec.getLsbD_zero]
  simp [hge]

/-- **The table.** So many steps are a shift, and what becomes of the bits that fall out. -/
theorem steps_eq (n : Nat) (x : BitVec w) :
    steps poly n x = (x >>> n) ^^^ steps poly n (low w n x) := by
  have habove : steps poly n (x ^^^ low w n x) = x >>> n := by
    rw [steps_of_low_zero poly n _ fun i hi => getLsbD_above x hi, BitVec.ushiftRight_xor_distrib, low_shift,
      BitVec.xor_zero]
  calc steps poly n x
      = steps poly n ((x ^^^ low w n x) ^^^ low w n x) := by rw [← split_low]
    _ = (x >>> n) ^^^ steps poly n (low w n x) := by rw [steps_xor, habove]

/-- A bit in a register. -/
def unit (w : Nat) (bit : Bool) : BitVec w := (BitVec.ofBool bit).setWidth w

theorem getLsbD_unit (bit : Bool) (i : Nat) : (unit w bit).getLsbD i = (decide (i < w) && (decide (i = 0) && bit)) := by
  rw [unit, BitVec.getLsbD_setWidth, BitVec.getLsbD_ofBool]

/-- A bit taken in is a bit added before the step. -/
theorem feed_eq (r : BitVec w) (bit : Bool) (hw : 0 < w) :
    feed poly r bit = step poly (r ^^^ unit w bit) := by
  have hbit : (unit w bit).getLsbD 0 = bit := by
    rw [getLsbD_unit]
    simp [hw]
  have hshift : unit w bit >>> 1 = 0#w := by
    apply BitVec.eq_of_getLsbD_eq
    intro i hi
    rw [BitVec.getLsbD_ushiftRight, getLsbD_unit, BitVec.getLsbD_zero]
    simp
  rw [feed, step, BitVec.getLsbD_xor, hbit, BitVec.ushiftRight_xor_distrib, hshift, BitVec.xor_zero]

/-- The next bit of a word stands alone above those before it. -/
theorem low_succ (y : BitVec k) {n : Nat} (hn : n < w) :
    low w (n + 1) y = low w n y ^^^ (unit w (y.getLsbD n) <<< n) := by
  apply BitVec.eq_of_getLsbD_eq
  intro i hi
  rw [BitVec.getLsbD_xor, getLsbD_low, getLsbD_low, BitVec.getLsbD_shiftLeft, getLsbD_unit]
  rcases Nat.lt_trichotomy i n with hlt | rfl | hgt
  · simp [hlt, Nat.lt_succ_of_lt hlt]
  · have hw : 0 < w := by omega
    simp [hi, hw]
  · have hge : ¬i < n + 1 := by omega
    have hge' : ¬i < n := by omega
    have hne : i - n ≠ 0 := by omega
    simp [hge, hge', hne]

/-- At its place, a bit is the one that falls out next. -/
theorem steps_unit (bit : Bool) {n : Nat} (hn : n < w) : steps poly n (unit w bit <<< n) = unit w bit := by
  have hlow : ∀ i, i < n → (unit w bit <<< n).getLsbD i = false := by
    intro i hi
    rw [BitVec.getLsbD_shiftLeft]
    simp [hi]
  rw [steps_of_low_zero poly n _ hlow]
  apply BitVec.eq_of_getLsbD_eq
  intro i hi
  rw [BitVec.getLsbD_ushiftRight, BitVec.getLsbD_shiftLeft, getLsbD_unit, getLsbD_unit, Nat.add_sub_cancel_left]
  by_cases h0 : i = 0
  · simp [h0, hn]
  · simp [h0]

/-- Bits taken in one after another are added first and stepped over then: what is added at the
place `n` falls out in step `n`. -/
theorem feed_range (y : BitVec k) (r : BitVec w) (n : Nat) (hn : n ≤ w) :
    ((List.range n).map y.getLsbD).foldl (feed poly) r = steps poly n (r ^^^ low w n y) := by
  induction n with
  | zero =>
    have hnone : low w 0 y = 0#w := by
      rw [← low_shift (w := w) y 0, BitVec.ushiftRight_zero]
    rw [hnone, BitVec.xor_zero]
    rfl
  | succ n ih =>
    rw [List.range_succ, List.map_append, List.foldl_append, ih (by omega)]
    show feed poly (steps poly n (r ^^^ low w n y)) (y.getLsbD n) = step poly (steps poly n (r ^^^ low w (n + 1) y))
    rw [feed_eq poly _ _ (by omega), low_succ y (by omega), ← BitVec.xor_assoc, steps_xor poly n (r ^^^ _),
      steps_unit poly _ (by omega)]

/-- A word of the message at a time. -/
theorem feed_bits (y : BitVec k) (r : BitVec w) (hk : k ≤ w) :
    (bits y).foldl (feed poly) r = (r >>> k) ^^^ steps poly k ((r.setWidth k ^^^ y).setWidth w) := by
  have hlow : low w k (r ^^^ y.setWidth w) = (r.setWidth k ^^^ y).setWidth w := by
    apply BitVec.eq_of_getLsbD_eq
    intro i hi
    rw [getLsbD_low, BitVec.getLsbD_setWidth, BitVec.getLsbD_xor, BitVec.getLsbD_xor, BitVec.getLsbD_setWidth,
      BitVec.getLsbD_setWidth]
    by_cases hik : i < k
    · simp [hi, hik]
    · simp [hik, BitVec.getLsbD_of_ge y i (by omega)]
  have hshift : y.setWidth w >>> k = 0#w := by
    have hself : low w k y = y.setWidth w := by rw [low, BitVec.setWidth_eq]
    rw [← hself, low_shift]
  rw [bits, feed_range poly y r k hk, low, BitVec.setWidth_eq, steps_eq, hlow, BitVec.ushiftRight_xor_distrib,
    hshift, BitVec.xor_zero]

end Crc
