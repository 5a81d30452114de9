/-
`CryptoUtils.lean` -- `CryptoUtils::sha256` of `cpp/crypto_utils.cpp`, the hash under which the client sends a
password.

The words are `uint32_t` and the length is a `uint64_t`, as in the source. What is printed of the eight words
are lower-case hexadecimal digits.
-/
import ChatApp.Utils

set_option autoImplicit false

namespace ChatApp

namespace CryptoUtils

/-! ## Words -/

/-- `rotr`. -/
def rotr (x n : UInt32) : UInt32 := (x >>> n) ||| (x <<< (32 - n))

/-- The constants `K`. -/
def K : List UInt32 :=
  [0x428a2f98, 0x71374491, 0xb5c0fbcf, 0xe9b5dba5, 0x3956c25b, 0x59f111f1, 0x923f82a4, 0xab1c5ed5,
    0xd807aa98, 0x12835b01, 0x243185be, 0x550c7dc3, 0x72be5d74, 0x80deb1fe, 0x9bdc06a7, 0xc19bf174,
    0xe49b69c1, 0xefbe4786, 0x0fc19dc6, 0x240ca1cc, 0x2de92c6f, 0x4a7484aa, 0x5cb0a9dc, 0x76f988da,
    0x983e5152, 0xa831c66d, 0xb00327c8, 0xbf597fc7, 0xc6e00bf3, 0xd5a79147, 0x06ca6351, 0x14292967,
    0x27b70a85, 0x2e1b2138, 0x4d2c6dfc, 0x53380d13, 0x650a7354, 0x766a0abb, 0x81c2c92e, 0x92722c85,
    0xa2bfe8a1, 0xa81a664b, 0xc24b8b70, 0xc76c51a3, 0xd192e819, 0xd6990624, 0xf40e3585, 0x106aa070,
    0x19a4c116, 0x1e376c08, 0x2748774c, 0x34b0bcb5, 0x391c0cb3, 0x4ed8aa4a, 0x5b9cca4f, 0x682e6ff3,
    0x748f82ee, 0x78a5636f, 0x84c87814, 0x8cc70208, 0x90befffa, 0xa4506ceb, 0xbef9a3f7, 0xc67178f2]

/-- The hash values `H`, and the working variables `a` to `h`. -/
structure Words where
  a : UInt32
  b : UInt32
  c : UInt32
  d : UInt32
  e : UInt32
  f : UInt32
  g : UInt32
  h : UInt32
  deriving DecidableEq

/-- The initial hash values. -/
def initial : Words :=
  ⟨0x6a09e667, 0xbb67ae85, 0x3c6ef372, 0xa54ff53a, 0x510e527f, 0x9b05688c, 0x1f83d9ab, 0x5be0cd19⟩

/-! ## Padding -/

/-- `while ((padded.size() * 8) % 512 != 448) padded.push_back(char(0));`, which takes less than 64 steps. -/
def pad_zeros : Nat → Bytes → Bytes
  | 0, padded => padded
  | n + 1, padded => if padded.length * 8 % 512 = 448 then padded else pad_zeros n (padded ++ [0])

/-- The 64-bit length, the high byte first. -/
def length_bytes (bitlen : UInt64) : Bytes :=
  ([56, 48, 40, 32, 24, 16, 8, 0] : List UInt64).map fun i => ((bitlen >>> i) &&& 0xFF).toUInt8

/-- The padded message. -/
def pad (data : Bytes) : Bytes :=
  pad_zeros 64 (data ++ [0x80]) ++ length_bytes (UInt64.ofNat data.length * 8)

/-! ## One block -/

/-- The four bytes of a word of the block, the high byte first. -/
def word (block : Bytes) (t : Nat) : UInt32 :=
  ((block.getD (t * 4) 0).toUInt32 <<< 24) ||| ((block.getD (t * 4 + 1) 0).toUInt32 <<< 16) |||
    ((block.getD (t * 4 + 2) 0).toUInt32 <<< 8) ||| (block.getD (t * 4 + 3) 0).toUInt32

/-- `W[t]` of the words before it. -/
def next_word (W : List UInt32) (t : Nat) : UInt32 :=
  let w (i : Nat) : UInt32 := W.getD (t - i) 0
  let s0 := rotr (w 15) 7 ^^^ rotr (w 15) 18 ^^^ (w 15 >>> 3)
  let s1 := rotr (w 2) 17 ^^^ rotr (w 2) 19 ^^^ (w 2 >>> 10)
  w 16 + s0 + w 7 + s1

/-- The message schedule `W`. -/
def schedule (block : Bytes) : List UInt32 :=
  (List.range' 16 48).foldl (fun W t => W ++ [next_word W t]) ((List.range 16).map (word block))

/-- One round. -/
def round (v : Words) (k w : UInt32) : Words :=
  let S1 := rotr v.e 6 ^^^ rotr v.e 11 ^^^ rotr v.e 25
  let ch := (v.e &&& v.f) ^^^ ((~~~v.e) &&& v.g)
  let temp1 := v.h + S1 + ch + k + w
  let S0 := rotr v.a 2 ^^^ rotr v.a 13 ^^^ rotr v.a 22
  let maj := (v.a &&& v.b) ^^^ (v.a &&& v.c) ^^^ (v.b &&& v.c)
  let temp2 := S0 + maj
  ⟨temp1 + temp2, v.a, v.b, v.c, v.d + temp1, v.e, v.f, v.g⟩

/-- The hash values after a block. -/
def process (H : Words) (block : Bytes) : Words :=
  let v := (K.zip (schedule block)).foldl (fun v kw => round v kw.1 kw.2) H
  ⟨H.a + v.a, H.b + v.b, H.c + v.c, H.d + v.d, H.e + v.e, H.f + v.f, H.g + v.g, H.h + v.h⟩

/-! ## The hash -/

/-- A lower-case hexadecimal digit. -/
def hex_digit (n : UInt32) : UInt8 := (str "0123456789abcdef").getD n.toNat 48

/-- `std::hex << std::setfill('0') << std::setw(8)`. -/
def hex_word (w : UInt32) : Bytes :=
  ([28, 24, 20, 16, 12, 8, 4, 0] : List UInt32).map fun i => hex_digit ((w >>> i) &&& 0xF)

/-- `CryptoUtils::sha256`. -/
def sha256 (data : Bytes) : Bytes :=
  let padded := pad data
  let H := (List.range (padded.length * 8 / 512)).foldl
    (fun H chunk => process H ((padded.drop (chunk * 64)).take 64)) initial
  ([H.a, H.b, H.c, H.d, H.e, H.f, H.g, H.h].map hex_word).flatten

/-- Each word is printed with eight digits. -/
theorem length_sha256 (data : Bytes) : (sha256 data).length = 64 := by
  simp [sha256, hex_word]

/-- The hash is written with digits and the letters from `a` to `f`. -/
theorem mem_sha256 {data : Bytes} {b : UInt8} (h : b ∈ sha256 data) : b ∈ str "0123456789abcdef" := by
  obtain ⟨digits, hdigits, hb⟩ := List.mem_flatten.mp h
  obtain ⟨w, -, rfl⟩ := List.mem_map.mp hdigits
  obtain ⟨i, -, rfl⟩ := List.mem_map.mp hb
  rw [hex_digit, List.getD_eq_getElem?_getD]
  cases hdigit : (str "0123456789abcdef")[((w >>> i) &&& 0xF).toNat]? with
  | none => exact List.mem_cons_self
  | some d => exact List.mem_of_getElem? hdigit

end CryptoUtils

end ChatApp
