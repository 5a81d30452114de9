/-
`ClientMessages.lean` -- how the client reads the messages it is forwarded: the two
parsers of `ui/fragment/ChatsFragment.kt`.

The client splits a payload at every `&` and each part at its first `=`, and a map keeps the last value
of each key. That is what `parse_kv` does on the server, so pairs written with `serialize_kv`
are read back here too. Numbers are read more strictly than `std::stoi` reads them, but what
`std::to_string` prints of a number of the right width is accepted.

A string is its bytes, as the parsers of the payload see them; a digit is an ASCII digit.
-/
import ChatApp.Codecs

set_option autoImplicit false

namespace ChatApp

/-! ## Kotlin's strings -/

/-- `val parts = it.split("=", limit = 2)`, where it has two parts. -/
def pair_of (part : Bytes) : Option (Bytes × Bytes) :=
  if 61 ∈ part then some (part.takeWhile (· ≠ 61), (part.dropWhile (· ≠ 61)).drop 1) else none

/-- `payload.split("&").mapNotNull { .. }.toMap()`. -/
def pairs (payload : Bytes) : UMap Bytes Bytes :=
  ((payload.splitOn 38).filterMap pair_of).foldl (fun m p => m.set p.1 p.2) ∅

/-- The value fits a signed integer of that many bits. -/
def Fits (bits : Nat) (i : Int) : Prop := -2 ^ (bits - 1) ≤ i ∧ i < 2 ^ (bits - 1)

instance (bits : Nat) (i : Int) : Decidable (Fits bits i) := instDecidableAnd

/-- `toIntOrNull()` and `toLongOrNull()`: a sign or none, and digits to the end of the string, of a
value that fits. -/
def toNumberOrNull (bits : Nat) (s : Bytes) : Option Int :=
  let (neg, digits) := strtol_sign s
  let n : Int := (digits.foldl (fun n c => 10 * n + (c.toNat - 48)) 0 : Nat)
  let v := if neg then -n else n
  if digits ≠ [] ∧ digits.all isdigit = true ∧ Fits bits v then some v else none

/-- `toIntOrNull()`. -/
def toIntOrNull (s : Bytes) : Option Int := toNumberOrNull 32 s

/-- `toLongOrNull()`. -/
def toLongOrNull (s : Bytes) : Option Int := toNumberOrNull 64 s

/-! ## Incoming messages -/

/-- What is passed to `viewModel.receiveMessage`. -/
structure Incoming where
  senderId : Int
  message : Bytes
  tsMillis : Int
  groupId : Option Int
  deriving DecidableEq

/-- Seconds are turned into milliseconds; the product is a `Long`. -/
def to_millis (timestamp : Int) : Int :=
  if timestamp < 2000000000 then Int.bmod (timestamp * 1000) (2 ^ 64) else timestamp

/-- `handleIncomingDirectMessage`, where `now` is the clock in seconds. -/
def handleIncomingDirectMessage (now : Int) (payload : Bytes) : Option Incoming := do
  let kv := pairs payload
  let senderId ← (kv.find? (str "senderId")).bind toIntOrNull
  let message ← kv.find? (str "message")
  let timestamp := ((kv.find? (str "timestamp")).bind toLongOrNull).getD now
  return ⟨senderId, message, to_millis timestamp, none⟩

/-- `handleIncomingGroupMessage`. The sender may also be called `fromUserId`, which comes first. -/
def handleIncomingGroupMessage (now : Int) (payload : Bytes) : Option Incoming := do
  let kv := pairs payload
  let gid ← (kv.find? (str "groupId")).bind toIntOrNull
  let senderId ← ((kv.find? (str "fromUserId")).bind toIntOrNull).or
    ((kv.find? (str "senderId")).bind toIntOrNull)
  let message ← kv.find? (str "message")
  let timestamp := ((kv.find? (str "timestamp")).bind toLongOrNull).getD now
  return ⟨senderId, message, to_millis timestamp, some gid⟩

example : handleIncomingDirectMessage 5 (str "senderId=7&message=a=b&senderId=8")
    = some ⟨8, str "a=b", 5000, none⟩ := by decide

/-! ## Reading back what the server writes -/

/-- The parts of a payload are its pairs. -/
theorem splitOn_serialize {items : List (Bytes × Bytes)} (hne : items ≠ []) (h : ∀ p ∈ items, Readable p) :
    (serialize_kv items).splitOn 38 = items.map fun p => p.1 ++ 61 :: p.2 := by
  refine List.splitOn_intercalate 38 (fun l hl => ?_) (by simpa using hne)
  obtain ⟨p, hp, rfl⟩ := List.mem_map.mp hl
  obtain ⟨-, hkey, hvalue⟩ := h p hp
  simp [hkey, hvalue]

/-- **The client reads pairs back**, in order, so that the last of each key wins. -/
theorem pairs_serialize {items : List (Bytes × Bytes)} (hne : items ≠ [])
    (h : ∀ p ∈ items, Readable p) :
    pairs (serialize_kv items) = items.foldl (fun m p => m.set p.1 p.2) ∅ := by
  have hpair : ∀ p ∈ items, pair_of (p.1 ++ 61 :: p.2) = some p := by
    intro p hp
    have hkey : ∀ b ∈ p.1, decide (b ≠ 61) = true := fun b hb =>
      decide_eq_true fun heq => (h p hp).1 (heq ▸ hb)
    rw [pair_of, if_pos (by simp), List.takeWhile_append_of_pos hkey,
      List.takeWhile_cons_of_neg (by decide), List.append_nil, List.dropWhile_append_of_pos hkey,
      List.dropWhile_cons_of_neg (by decide)]
    rfl
  have hmap : (items.map fun p => p.1 ++ 61 :: p.2).filterMap pair_of = items := by
    rw [List.filterMap_map]
    refine (List.filterMap_congr fun p hp => ?_).trans List.filterMap_some
    rw [Function.comp_apply, hpair p hp]
  rw [pairs, splitOn_serialize hne h, hmap]

section Numbers

variable {bits : Nat} {i : Int}

/-- The digits of a number, with a sign or without. -/
theorem toNumberOrNull_digits (neg : Bool) (n : Nat) (s : Bytes)
    (hs : s = (Nat.toDigits 10 n).map fun c => UInt8.ofNat c.toNat) :
    toNumberOrNull bits (if neg then 45 :: s else s) =
      if Fits bits (if neg then -(n : Int) else n) then some (if neg then -(n : Int) else n) else none := by
  have hdigits : ∀ b ∈ s, isdigit b = true := fun b hb => isdigit_of_mem (hs ▸ hb)
  have hne : s ≠ [] := hs ▸ digits_ne_nil n
  have hvalue : s.foldl (fun n c => 10 * n + (c.toNat - 48)) 0 = n := hs ▸ digits_value n
  have hall : s.all isdigit = true := List.all_eq_true.mpr hdigits
  rw [toNumberOrNull, strtol_sign_digits neg hdigits hne]
  simp only [hvalue, ne_eq, hne, not_false_eq_true, hall, true_and]

/-- **A number is read** where it fits, and else nothing is. -/
theorem toNumberOrNull_to_string_eq (i : Int) :
    toNumberOrNull bits (to_string i) = if Fits bits i then some i else none := by
  unfold to_string
  by_cases hi : i < 0
  · have habs : -(i.natAbs : Int) = i := by omega
    have hread := @toNumberOrNull_digits bits true i.natAbs _ rfl
    rw [if_pos rfl, if_pos rfl, habs] at hread
    rw [if_pos hi]
    exact hread
  · have habs : (i.natAbs : Int) = i := by omega
    have hread := @toNumberOrNull_digits bits false i.natAbs _ rfl
    rw [if_neg Bool.false_ne_true, if_neg Bool.false_ne_true, habs] at hread
    rw [if_neg hi]
    exact hread

/-- **Numbers are read back.** -/
theorem toNumberOrNull_to_string (h : Fits bits i) : toNumberOrNull bits (to_string i) = some i := by
  rw [toNumberOrNull_to_string_eq, if_pos h]

/-- What `std::stoi` returns fits an `int`. -/
theorem fits_of_stoi {s : Bytes} (h : stoi s = .ok i) : Fits 32 i := by
  rw [stoi] at h
  generalize strtol_sign (s.dropWhile isspace) = p at h
  obtain ⟨neg, rest⟩ := p
  simp only at h
  generalize (if neg = true then _ else _ : Int) = v at h
  split at h
  · cases h
  split at h
  · cases h
  · next hfits =>
    cases h
    simp only [not_or, Int.not_lt] at hfits
    exact ⟨hfits.1, Int.not_le.mp hfits.2⟩

end Numbers

end ChatApp
