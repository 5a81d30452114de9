/-
`Utils.lean` -- `src/utils.cpp` and the parts of the C++ standard library the
handlers decode their payloads with.

A `std::string` is a byte string. Payloads are `key=value` pairs joined by `&`;
`parse_kv` and `serialize_kv` are the two directions. `std::stoi` is here because
it is the only call of a handler that can throw: `Fault` lists everything that can
leave `handle_client` other than by returning.
-/
import ChatApp.UnorderedMap
import Mathlib.Data.List.TakeWhile
import Mathlib.Data.Nat.Digits.Defs

set_option autoImplicit false

namespace ChatApp

/-! ## Byte strings -/

/-- `std::string`. -/
abbrev Bytes : Type := List UInt8

/-- The bytes of an ASCII literal of the source. -/
def str (s : String) : Bytes := s.toList.map fun c => UInt8.ofNat c.toNat

/-- `std::to_string`. -/
def to_string (i : Int) : Bytes :=
  let digits := (Nat.toDigits 10 i.natAbs).map fun c => UInt8.ofNat c.toNat
  if i < 0 then 45 :: digits else digits

/-- The byte of a digit, and the digit of the byte. -/
theorem digit_byte {c : Char} (h : c.isDigit = true) :
    48 ≤ UInt8.ofNat c.toNat ∧ UInt8.ofNat c.toNat ≤ 57 ∧
      Char.ofNat (UInt8.ofNat c.toNat).toNat = c := by
  simp only [Char.isDigit, Bool.and_eq_true, decide_eq_true_eq] at h
  have hlo : 48 ≤ c.toNat := h.1
  have hhi : c.toNat ≤ 57 := h.2
  have hnat : (UInt8.ofNat c.toNat).toNat = c.toNat := by
    rw [UInt8.toNat_ofNat']
    omega
  rw [UInt8.le_iff_toNat_le, UInt8.le_iff_toNat_le, hnat]
  exact ⟨hlo, hhi, Char.ofNat_toNat c⟩

theorem mem_digits {n : Nat} {b : UInt8}
    (h : b ∈ (Nat.toDigits 10 n).map fun c => UInt8.ofNat c.toNat) : 48 ≤ b ∧ b ≤ 57 := by
  obtain ⟨c, hc, rfl⟩ := List.mem_map.mp h
  have hbyte := digit_byte (Nat.isDigit_of_mem_toDigits (by decide) (by decide) hc)
  exact ⟨hbyte.1, hbyte.2.1⟩

/-- A number is printed with digits and a sign. -/
theorem mem_to_string {i : Int} {b : UInt8} (h : b ∈ to_string i) :
    b = 45 ∨ (48 ≤ b ∧ b ≤ 57) := by
  unfold to_string at h
  split at h
  · exact (List.mem_cons.mp h).imp_right mem_digits
  · exact .inr (mem_digits h)

theorem digits_injective {n m : Nat} (h : ((Nat.toDigits 10 n).map fun c => UInt8.ofNat c.toNat)
    = (Nat.toDigits 10 m).map fun c => UInt8.ofNat c.toNat) : n = m := by
  have hback : ∀ n : Nat, ((Nat.toDigits 10 n).map fun c => UInt8.ofNat c.toNat).map
      (fun b => Char.ofNat b.toNat) = Nat.toDigits 10 n := by
    intro n
    rw [List.map_map]
    refine (List.map_congr_left fun c hc => ?_).trans (List.map_id _)
    exact (digit_byte (Nat.isDigit_of_mem_toDigits (by decide) (by decide) hc)).2.2
  have hchars : Nat.toDigits 10 n = Nat.toDigits 10 m := by rw [← hback n, ← hback m, h]
  have hvalue := congrArg (fun cs => Nat.ofDigitChars 10 cs 0) hchars
  simpa using hvalue

/-- Two numbers that are printed alike are the same. -/
theorem to_string_injective {i j : Int} (h : to_string i = to_string j) : i = j := by
  have hsign : ∀ n m : Nat, 45 :: ((Nat.toDigits 10 n).map fun c => UInt8.ofNat c.toNat)
      ≠ (Nat.toDigits 10 m).map fun c => UInt8.ofNat c.toNat := by
    intro n m hnm
    have hmem : (45 : UInt8) ∈ (Nat.toDigits 10 m).map fun c => UInt8.ofNat c.toNat := by
      rw [← hnm]
      exact List.mem_cons_self
    exact absurd (mem_digits hmem).1 (by decide)
  unfold to_string at h
  by_cases hi : i < 0 <;> by_cases hj : j < 0
  · rw [if_pos hi, if_pos hj] at h
    have habs := digits_injective (List.cons_inj_right _ |>.mp h)
    omega
  · rw [if_pos hi, if_neg hj] at h
    exact absurd h (hsign _ _)
  · rw [if_neg hi, if_pos hj] at h
    exact absurd h.symm (hsign _ _)
  · rw [if_neg hi, if_neg hj] at h
    have habs := digits_injective h
    omega

/-- The `uint32_t` an `int` converts to. -/
def u32 (i : Int) : UInt32 := UInt32.ofInt i

/-- The `int` a `uint32_t` converts to. -/
def i32 (u : UInt32) : Int := Int.bmod u.toNat (2 ^ 32)

/-- `std::getline(iss, token, d)` repeated to the end of the stream: the pieces
between the delimiters. A delimiter that ends the input opens no further piece. -/
def getlines (d : UInt8) : Bytes → List Bytes
  | [] => []
  | c :: cs =>
    if c = d then [] :: getlines d cs
    else match getlines d cs with
      | [] => [[c]]
      | t :: ts => (c :: t) :: ts

/-- `std::transform` with `::tolower`. -/
def tolower (s : Bytes) : Bytes := s.map fun c => if 65 ≤ c ∧ c ≤ 90 then c + 32 else c

/-- `haystack.find(needle) != npos`. -/
def contains (haystack needle : Bytes) : Bool := haystack.tails.any fun t => needle.isPrefixOf t

/-! ## `std::stoi` -/

/-- What can end `handle_client` other than a `return`: the two exceptions of
`std::stoi` and a call through the null `g_pg_persistence`. -/
inductive Fault where
  | invalid_argument
  | out_of_range
  | null_pointer
  deriving DecidableEq, Repr

/-- `isspace` in the C locale. -/
def isspace (c : UInt8) : Bool := c = 32 || (9 ≤ c && c ≤ 13)

/-- `isdigit`. -/
def isdigit (c : UInt8) : Bool := 48 ≤ c && c ≤ 57

/-- The sign `strtol` consumes, and what follows it. -/
def strtol_sign : Bytes → Bool × Bytes
  | 45 :: s => (true, s)
  | 43 :: s => (false, s)
  | s => (false, s)

/-- `std::stoi`: leading white space, an optional sign, then as many digits as
there are. It throws when there is no digit and when the value does not fit an
`int`; what follows the digits is ignored. -/
def stoi (s : Bytes) : Except Fault Int :=
  let (neg, rest) := strtol_sign (s.dropWhile isspace)
  let digits := rest.takeWhile isdigit
  if digits = [] then throw .invalid_argument
  else
    let n : Int := (digits.foldl (fun n c => 10 * n + (c.toNat - 48)) 0 : Nat)
    let v := if neg then -n else n
    if v < -2 ^ 31 ∨ 2 ^ 31 ≤ v then throw .out_of_range else pure v

/-- `std::stoi` returns. -/
def parses (s : Bytes) : Bool := (stoi s).isOk

/-! ## `utils::parse_kv` and `utils::serialize_kv` -/

/-- `m[pair.substr(0, pos)] = pair.substr(pos + 1)` for the first `=` of `pair`; a
pair without one is skipped. -/
def parse_pair (m : UMap Bytes Bytes) (pair : Bytes) : UMap Bytes Bytes :=
  if 61 ∈ pair then
    m.set (pair.takeWhile (· ≠ 61)) ((pair.dropWhile (· ≠ 61)).drop 1)
  else m

/-- `utils::parse_kv`. -/
def parse_kv (s : Bytes) : UMap Bytes Bytes := (getlines 38 s).foldl parse_pair ∅

/-- `utils::serialize_kv`. -/
def serialize_kv (items : List (Bytes × Bytes)) : Bytes :=
  [38].intercalate (items.map fun p => p.1 ++ 61 :: p.2)

/-- `"name" + std::to_string(i)`, the key of the `i`-th item of a list. -/
def key (name : String) (i : Nat) : Bytes := str name ++ to_string i

/-- What stands before the first `&` is the first item. -/
theorem serialize_kv_head (k v : Bytes) (items : List (Bytes × Bytes)) (hk : 38 ∉ k) (hv : 38 ∉ v) :
    (serialize_kv ((k, v) :: items)).takeWhile (· ≠ 38) = k ++ 61 :: v := by
  have hitem : ∀ b ∈ k ++ 61 :: v, decide (b ≠ 38) = true := by
    intro b hb
    rw [decide_eq_true_eq]
    rintro rfl
    rcases List.mem_append.mp hb with hb | hb
    · exact hk hb
    · exact (List.mem_cons.mp hb).elim (by decide) hv
  cases items with
  | nil =>
    show ([38].intercalate [k ++ 61 :: v]).takeWhile _ = _
    rw [List.intercalate_singleton]
    exact List.takeWhile_eq_self_iff.mpr hitem
  | cons item items =>
    rw [serialize_kv, List.map_cons, List.map_cons, List.intercalate_cons_cons, List.append_assoc,
      List.takeWhile_append_of_pos hitem, List.cons_append, List.takeWhile_cons_of_neg (by decide)]
    exact List.append_nil _

/-! ## `utils::base64_encode` -/

/-- The alphabet. -/
def b64_chars : Bytes := str "ABCDEFGHIJKLMNOPQRSTUVWXYZabcdefghijklmnopqrstuvwxyz0123456789+/"

/-- The inner loop `while (valb >= 0)`. It runs at most `valb + 1` times, which is
the fuel `base64_byte` gives it. -/
def base64_flush (val : BitVec 32) : Nat → Int → Bytes × Int
  | 0, valb => ([], valb)
  | n + 1, valb =>
    if 0 ≤ valb then
      let rest := base64_flush val n (valb - 6)
      (b64_chars.getD ((val.sshiftRight valb.toNat) &&& 0x3F).toNat 0 :: rest.1, rest.2)
    else ([], valb)

/-- One byte of input: the output so far, the accumulator and its bit position. -/
def base64_byte (st : Bytes × BitVec 32 × Int) (c : UInt8) : Bytes × BitVec 32 × Int :=
  let val := (st.2.1 <<< 8) + BitVec.ofNat 32 c.toNat
  let valb := st.2.2 + 8
  let flushed := base64_flush val (valb.toNat + 1) valb
  (st.1 ++ flushed.1, val, flushed.2)

/-- `utils::base64_encode`. -/
def base64_encode (input : Bytes) : Bytes :=
  let (out, val, valb) := input.foldl base64_byte ([], 0, -6)
  let out := if -6 < valb then
      out ++ [b64_chars.getD (((val <<< 8).sshiftRight (valb + 8).toNat) &&& 0x3F).toNat 0]
    else out
  out ++ List.replicate ((4 - out.length % 4) % 4) 61

example : serialize_kv [(str "a", str "1"), (str "b", [])] = str "a=1&b=" := by decide

example : (parse_kv (str "a=1&b&c==&a=2")).toList
    = [(str "a", str "2"), (str "c", str "=")] := by decide

example : (stoi (str " -12x")).toOption = some (-12) := by decide

example : base64_encode (str "Man") = str "TWFu" ∧ base64_encode (str "Ma") = str "TWE=" := by
  decide

end ChatApp
