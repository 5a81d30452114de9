/-
`Fips180.lean` -- SHA-256 as FIPS 180-4 defines it, over strings of bits.

The constants are not listed, but said to be what the standard says they are: the first 32 bits of the fractional
parts of the square and the cube roots of the first primes. The padding is defined on bits of any number, and
its count of zeros is the least that fits.

Beside the definitions stand the lemmas with which a program that works on bytes is compared with them: numbers
and their bits, bytes and their bits, and that a message can be read off its padding.
-/
import Mathlib.Data.List.GetD
import Mathlib.Data.Nat.Prime.Defs
import Mathlib.Tactic.Ring

set_option autoImplicit false

namespace Fips180

/-! ## 1. Bits of numbers -/

/-- The number whose bits are these, the highest first. -/
def value (bits : List Bool) : Nat := bits.foldl (fun n b => 2 * n + b.toNat) 0

/-- The lowest `w` bits of a number, the highest first. -/
def binary (w n : Nat) : List Bool := (List.range w).map fun i => n.testBit (w - 1 - i)

@[simp] theorem length_binary (w n : Nat) : (binary w n).length = w := by
  rw [binary, List.length_map, List.length_range]

/-- The higher bits, and the lower ones. -/
theorem binary_add (m k n : Nat) : binary (m + k) n = binary m (n / 2 ^ k) ++ binary k n := by
  apply List.ext_getElem
  · simp
  · intro i hi hi'
    have hlength : i < m + k := by simpa using hi
    by_cases h : i < m
    · have hplace : m + k - 1 - i = m - 1 - i + k := by omega
      rw [List.getElem_append_left (by simpa using h)]
      simp only [binary, List.getElem_map, List.getElem_range, Nat.testBit_div_two_pow, hplace]
    · have hplace : m + k - 1 - i = k - 1 - (i - m) := by omega
      rw [List.getElem_append_right (by simpa using h)]
      simp only [binary, List.getElem_map, List.getElem_range, List.length_map, List.length_range, hplace]

/-- What is above the bits does not matter. -/
theorem binary_mod (w n : Nat) : binary w (n % 2 ^ w) = binary w n := by
  apply List.map_congr_left
  intro i hi
  have hi : i < w := List.mem_range.mp hi
  have hplace : w - 1 - i < w := by omega
  rw [Nat.testBit_mod_two_pow, decide_eq_true hplace, Bool.true_and]

theorem foldl_value (bits : List Bool) (n : Nat) :
    bits.foldl (fun n b => 2 * n + b.toNat) n = n * 2 ^ bits.length + value bits := by
  induction bits generalizing n with
  | nil => simp [value]
  | cons b bits ih =>
    have hvalue : value (b :: bits) = b.toNat * 2 ^ bits.length + value bits := by
      show bits.foldl _ (2 * 0 + b.toNat) = _
      rw [ih, Nat.mul_zero, Nat.zero_add]
    rw [List.foldl_cons, ih, hvalue, List.length_cons, Nat.pow_succ]
    ring

theorem value_append (x y : List Bool) : value (x ++ y) = value x * 2 ^ y.length + value y := by
  rw [value, List.foldl_append, foldl_value]
  rfl

/-- The bits of a number have its value. -/
theorem value_binary (w n : Nat) : value (binary w n) = n % 2 ^ w := by
  induction w generalizing n with
  | zero => rw [Nat.pow_zero, Nat.mod_one]; rfl
  | succ w ih =>
    have hbit : value (binary 1 (n / 2 ^ w)) = n / 2 ^ w % 2 := by
      show 2 * 0 + ((n / 2 ^ w).testBit 0).toNat = _
      rw [Nat.testBit_zero, Nat.mul_zero, Nat.zero_add]
      rcases Nat.mod_two_eq_zero_or_one (n / 2 ^ w) with h | h <;> rw [h] <;> rfl
    have hmod : n % 2 ^ (w + 1) = n % 2 ^ w + 2 ^ w * (n / 2 ^ w % 2) := by
      rw [Nat.pow_succ, Nat.mod_mul]
    rw [Nat.add_comm w 1, binary_add, value_append, length_binary, hbit, ih, Nat.add_comm 1 w, hmod]
    ring

theorem binary_injective {w m n : Nat} (hm : m < 2 ^ w) (hn : n < 2 ^ w) (h : binary w m = binary w n) : m = n := by
  have hvalue := congrArg value h
  rwa [value_binary, value_binary, Nat.mod_eq_of_lt hm, Nat.mod_eq_of_lt hn] at hvalue

/-! ## 2. Bytes -/

/-- The bits of a byte string. -/
def octets (s : List UInt8) : List Bool := s.flatMap fun b => binary 8 b.toNat

theorem octets_cons (b : UInt8) (s : List UInt8) : octets (b :: s) = binary 8 b.toNat ++ octets s :=
  List.flatMap_cons

theorem octets_append (s t : List UInt8) : octets (s ++ t) = octets s ++ octets t := List.flatMap_append

theorem length_octets (s : List UInt8) : (octets s).length = 8 * s.length := by
  induction s with
  | nil => rfl
  | cons b s ih =>
    rw [octets_cons, List.length_append, length_binary, ih, List.length_cons]
    omega

theorem octets_injective {s t : List UInt8} (h : octets s = octets t) : s = t := by
  induction s generalizing t with
  | nil =>
    have hlength := congrArg List.length h
    rw [length_octets, length_octets] at hlength
    exact (List.length_eq_zero_iff.mp (by simpa using hlength.symm)).symm
  | cons b s ih =>
    cases t with
    | nil =>
      have hlength := congrArg List.length h
      rw [length_octets, length_octets] at hlength
      simp at hlength
    | cons c t =>
      rw [octets_cons, octets_cons] at h
      obtain ⟨hhead, htail⟩ := List.append_inj h (by rw [length_binary, length_binary])
      have hbyte : b.toNat = c.toNat := binary_injective b.toNat_lt c.toNat_lt hhead
      rw [UInt8.toNat_inj.mp hbyte, ih htail]

theorem octets_drop (s : List UInt8) (n : Nat) : (octets s).drop (8 * n) = octets (s.drop n) := by
  by_cases hn : n ≤ s.length
  · have hlength : (octets (s.take n)).length = 8 * n := by
      rw [length_octets, List.length_take, Nat.min_eq_left hn]
    calc (octets s).drop (8 * n)
        = (octets (s.take n) ++ octets (s.drop n)).drop (8 * n) := by rw [← octets_append, List.take_append_drop]
      _ = octets (s.drop n) := List.drop_left' hlength
  · have hlength : (octets s).length ≤ 8 * n := by
      rw [length_octets]
      omega
    rw [List.drop_of_length_le hlength, List.drop_of_length_le (Nat.le_of_not_le hn)]
    rfl

theorem octets_take (s : List UInt8) (n : Nat) : (octets s).take (8 * n) = octets (s.take n) := by
  by_cases hn : n ≤ s.length
  · have hlength : (octets (s.take n)).length = 8 * n := by
      rw [length_octets, List.length_take, Nat.min_eq_left hn]
    calc (octets s).take (8 * n)
        = (octets (s.take n) ++ octets (s.drop n)).take (8 * n) := by rw [← octets_append, List.take_append_drop]
      _ = octets (s.take n) := List.take_left' hlength
  · have hlength : (octets s).length ≤ 8 * n := by
      rw [length_octets]
      omega
    rw [List.take_of_length_le hlength, List.take_of_length_le (Nat.le_of_not_le hn)]

/-! ## 3. Padding -/

/-- A number of zeros that leaves 64 bits to the end of a block. -/
theorem zeros_exist (l : Nat) : ∃ k, (l + 1 + k) % 512 = 448 := ⟨(448 + 512 - (l + 1) % 512) % 512, by omega⟩

/-- The least such number. -/
def zeros (l : Nat) : Nat := Nat.find (zeros_exist l)

/-- The padded message: a one, the zeros, and the length in 64 bits. -/
def pad (M : List Bool) : List Bool :=
  M ++ true :: (List.replicate (zeros M.length) false ++ binary 64 M.length)

theorem length_pad (M : List Bool) : (pad M).length = M.length + 1 + zeros M.length + 64 := by
  rw [pad, List.length_append, List.length_cons, List.length_append, List.length_replicate, length_binary]
  omega

theorem zeros_eq {l k : Nat} (hk : (l + 1 + k) % 512 = 448) (hlt : k < 512) : zeros l = k := by
  apply (Nat.find_eq_iff (zeros_exist l)).mpr
  refine ⟨hk, fun n hn h => ?_⟩
  omega

/-- **A message can be read off its padding**: the length is in the last block, and the message at the front. -/
theorem pad_injective {M N : List Bool} (hM : M.length < 2 ^ 64) (hN : N.length < 2 ^ 64) (h : pad M = pad N) :
    M = N := by
  have hsplit : ∀ L : List Bool,
      pad L = (L ++ true :: List.replicate (zeros L.length) false) ++ binary 64 L.length := by
    intro L
    rw [pad, List.append_assoc]
    rfl
  have hlast := h
  rw [hsplit, hsplit] at hlast
  obtain ⟨-, hbits⟩ := List.append_inj' hlast (by rw [length_binary, length_binary])
  have hlength : M.length = N.length := binary_injective hM hN hbits
  exact (List.append_inj h hlength).1

/-! ## 4. Words and functions -/

abbrev Word : Type := BitVec 32

def ROTR (n : Nat) (x : Word) : Word := (x >>> n) ||| (x <<< (32 - n))

def SHR (n : Nat) (x : Word) : Word := x >>> n

def Ch (x y z : Word) : Word := (x &&& y) ^^^ (~~~x &&& z)

def Maj (x y z : Word) : Word := (x &&& y) ^^^ (x &&& z) ^^^ (y &&& z)

/-- The functions written with a capital sigma. -/
def Sum0 (x : Word) : Word := ROTR 2 x ^^^ ROTR 13 x ^^^ ROTR 22 x

def Sum1 (x : Word) : Word := ROTR 6 x ^^^ ROTR 11 x ^^^ ROTR 25 x

/-- Those written with a small one. -/
def sigma0 (x : Word) : Word := ROTR 7 x ^^^ ROTR 18 x ^^^ SHR 3 x

def sigma1 (x : Word) : Word := ROTR 17 x ^^^ ROTR 19 x ^^^ SHR 10 x

/-! ## 5. Constants -/

/-- The primes below 312, which are the first 64. -/
def primes : List Nat := (List.range 312).filter fun p => 2 ≤ p ∧ ∀ m < p, m ∣ p → m = 1

theorem mem_primes {p : Nat} : p ∈ primes ↔ p < 312 ∧ p.Prime := by
  rw [primes, List.mem_filter, List.mem_range, decide_eq_true_eq, Nat.prime_def_lt]

theorem primes_eq : primes =
    [2, 3, 5, 7, 11, 13, 17, 19, 23, 29, 31, 37, 41, 43, 47, 53, 59, 61, 67, 71, 73, 79, 83, 89, 97, 101,
    103, 107, 109, 113, 127, 131, 137, 139, 149, 151, 157, 163, 167, 173, 179, 181, 191, 193, 197, 199,
    211, 223, 227, 229, 233, 239, 241, 251, 257, 263, 269, 271, 277, 281, 283, 293, 307, 311] := by
  decide +kernel

/-- The integer part of a root. -/
def floor_root (k n : Nat) : Nat := Nat.findGreatest (fun r => r ^ k ≤ n) n

theorem floor_root_eq {k n r : Nat} (hk : k ≠ 0) (hle : r ^ k ≤ n) (hlt : n < (r + 1) ^ k) : floor_root k n = r := by
  apply Nat.findGreatest_eq_iff.mpr
  refine ⟨(Nat.le_self_pow hk r).trans hle, fun _ => hle, fun m hm _ hmk => ?_⟩
  have hpow : (r + 1) ^ k ≤ m ^ k := Nat.pow_le_pow_left hm k
  omega

/-- The first 32 bits of the fractional part of the `k`-th root of a number. -/
def root_fraction (k p : Nat) : Word := BitVec.ofNat 32 (floor_root k (p * 2 ^ (32 * k)))

/-- `K_t`, of the cube roots. -/
def K (t : Nat) : Word := root_fraction 3 (primes.getD t 0)

/-- The words of a hash value, and the working variables. -/
structure Hash where
  a : Word
  b : Word
  c : Word
  d : Word
  e : Word
  f : Word
  g : Word
  h : Word

/-- The initial hash value, of the square roots. -/
def initial : Hash :=
  let H (j : Nat) : Word := root_fraction 2 (primes.getD j 0)
  ⟨H 0, H 1, H 2, H 3, H 4, H 5, H 6, H 7⟩

/-! ## 6. The hash -/

/-- The message schedule of a block. -/
def W (M : Nat → Word) (t : Nat) : Word :=
  if t < 16 then M t else sigma1 (W M (t - 2)) + W M (t - 7) + sigma0 (W M (t - 15)) + W M (t - 16)

/-- The step `t` on the working variables. -/
def step (W : Nat → Word) (v : Hash) (t : Nat) : Hash :=
  let T1 := v.h + Sum1 v.e + Ch v.e v.f v.g + K t + W t
  let T2 := Sum0 v.a + Maj v.a v.b v.c
  ⟨T1 + T2, v.a, v.b, v.c, v.d + T1, v.e, v.f, v.g⟩

/-- The hash value after a block. -/
def compress (H : Hash) (M : Nat → Word) : Hash :=
  let v := (List.range 64).foldl (step (W M)) H
  ⟨H.a + v.a, H.b + v.b, H.c + v.c, H.d + v.d, H.e + v.e, H.f + v.f, H.g + v.g, H.h + v.h⟩

/-- The word `t` of the block `i` of a padded message. -/
def message_word (padded : List Bool) (i t : Nat) : Word :=
  BitVec.ofNat 32 (value ((padded.drop (512 * i + 32 * t)).take 32))

/-- All blocks in their order. -/
def hash (M : List Bool) : Hash :=
  (List.range ((pad M).length / 512)).foldl (fun H i => compress H (message_word (pad M) i)) initial

/-- The message digest, of 256 bits. -/
def digest (M : List Bool) : List Bool :=
  let H := hash M
  [H.a, H.b, H.c, H.d, H.e, H.f, H.g, H.h].flatMap fun w => binary 32 w.toNat

/-! ## 7. The hexadecimal form -/

/-- A digit, in lower case. -/
def digit (n : Nat) : UInt8 := if n < 10 then UInt8.ofNat (48 + n) else UInt8.ofNat (87 + n)

/-- Four bits make a digit, leading zeros included. -/
def hex : List Bool → List UInt8
  | a :: b :: c :: d :: bits => digit (value [a, b, c, d]) :: hex bits
  | _ => []

theorem hex_binary (n : Nat) (bits : List Bool) : hex (binary 4 n ++ bits) = digit (n % 16) :: hex bits := by
  have hvalue := value_binary 4 n
  exact congrArg (fun m => digit m :: hex bits) hvalue

end Fips180
