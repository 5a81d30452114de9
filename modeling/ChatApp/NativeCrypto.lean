/-
`NativeCrypto.lean` -- `nativeEncrypt` and `nativeDecrypt` of `cpp/native-lib.cpp`, with the members of
`CryptoUtils` they go through.

What is encrypted is added to two key streams: the bytes of the key, which repeat after 32, and those of the IV,
which repeat after 16 and are sent along in front. The members keep the key and the IV of the last call. A call
computes the key anew and draws another IV, also where it decrypts; then the IV that counts is the one that came
with the bytes.

A Java string arrives as the bytes before its first NUL, and so it leaves.
-/
import ChatApp.CryptoUtils

set_option autoImplicit false

namespace ChatApp

/-! ## `strtol` in base 16 -/

/-- The value of a hexadecimal digit of either case. -/
def xdigit (c : UInt8) : Option Nat :=
  if 48 ≤ c ∧ c ≤ 57 then some (c.toNat - 48)
  else if 97 ≤ c ∧ c ≤ 102 then some (c.toNat - 87)
  else if 65 ≤ c ∧ c ≤ 70 then some (c.toNat - 55)
  else none

/-- As many digits as there are. -/
def xdigits (n : Nat) : Bytes → Nat
  | [] => n
  | c :: s =>
    match xdigit c with
    | some d => xdigits (16 * n + d) s
    | none => n

/-- `0x`, where a digit follows. -/
def skip_0x : Bytes → Bytes
  | 48 :: x :: d :: s => if (x = 120 ∨ x = 88) ∧ (xdigit d).isSome then d :: s else 48 :: x :: d :: s
  | s => s

/-- `std::strtol(s, nullptr, 16)`, of a string too short to overflow. -/
def strtol16 (s : Bytes) : Int :=
  let (neg, rest) := strtol_sign (s.dropWhile isspace)
  let n : Int := xdigits 0 (skip_0x rest)
  if neg then -n else n

/-- `c_str()`. -/
def c_str (s : Bytes) : Bytes := s.takeWhile (· ≠ 0)

/-! ## `CryptoUtils` -/

/-- The members of `CryptoUtils`. -/
structure CryptoUtils where
  aesKey : Bytes
  iv : Bytes
  deriving DecidableEq

/-- What `generateRandomBytes` returns. -/
structure RandomBytes (length : Nat) where
  bytes : Bytes
  length_eq : bytes.length = length

namespace CryptoUtils

/-- `std::vector::resize`. -/
def resize (n : Nat) (v : Bytes) : Bytes := v.take n ++ List.replicate (n - v.length) 0

/-- `CryptoUtils::initializeKey`. -/
def initializeKey (self : CryptoUtils) (key : Bytes) (randomBytes : RandomBytes 16) : CryptoUtils :=
  let derivedKey := sha256 key
  { aesKey := (List.range 32).foldl (fun aesKey i =>
      if i * 2 < derivedKey.length then
        aesKey.set i (UInt8.ofInt (strtol16 ((derivedKey.drop (i * 2)).take 2)))
      else aesKey) (resize 32 self.aesKey)
    iv := randomBytes.bytes }

/-- `CryptoUtils::encryptAES`. -/
def encryptAES (self : CryptoUtils) (data key : Bytes) (randomBytes : RandomBytes 16) : Bytes × CryptoUtils :=
  let self := self.initializeKey key randomBytes
  (self.iv ++ (List.range data.length).map fun i =>
    let keyByte := self.aesKey.getD (i % self.aesKey.length) 0
    let ivByte := self.iv.getD (i % self.iv.length) 0
    data.getD i 0 ^^^ keyByte ^^^ ivByte, self)

/-- `CryptoUtils::decryptAES`. -/
def decryptAES (self : CryptoUtils) (encryptedData key : Bytes) (randomBytes : RandomBytes 16) :
    Bytes × CryptoUtils :=
  if encryptedData.length < 16 then ([], self)
  else
    let extractedIV := encryptedData.take 16
    let self := self.initializeKey key randomBytes
    ((List.range' 16 (encryptedData.length - 16)).map fun i =>
      let dataIdx := i - 16
      let keyByte := self.aesKey.getD (dataIdx % self.aesKey.length) 0
      let ivByte := extractedIV.getD (dataIdx % extractedIV.length) 0
      encryptedData.getD i 0 ^^^ keyByte ^^^ ivByte, self)

/-- `std::hex << std::setw(2) << std::setfill('0')`. -/
def hex_byte (b : UInt8) : Bytes := [hex_digit (b.toUInt32 >>> 4), hex_digit (b.toUInt32 &&& 0xF)]

/-- `hexStr.substr(i, 2)`, for `i` in steps of two. -/
def byte_strings : Bytes → List Bytes
  | a :: b :: s => [a, b] :: byte_strings s
  | [a] => [[a]]
  | [] => []

end CryptoUtils

open CryptoUtils

/-- `nativeEncrypt`, and `g_cryptoUtils` after it. -/
def nativeEncrypt (g_cryptoUtils : Option CryptoUtils) (data key : Bytes) (randomBytes : RandomBytes 16) :
    Option Bytes × Option CryptoUtils :=
  match g_cryptoUtils with
  | none => (none, none)
  | some self =>
    let (encrypted, self) := self.encryptAES (c_str data) (c_str key) randomBytes
    (some (c_str (encrypted.flatMap hex_byte)), some self)

/-- `nativeDecrypt`. -/
def nativeDecrypt (g_cryptoUtils : Option CryptoUtils) (encryptedHex key : Bytes) (randomBytes : RandomBytes 16) :
    Option Bytes × Option CryptoUtils :=
  match g_cryptoUtils with
  | none => (none, none)
  | some self =>
    let encrypted := (byte_strings (c_str encryptedHex)).map fun byteString => UInt8.ofInt (strtol16 byteString)
    let (decrypted, self) := self.decryptAES encrypted (c_str key) randomBytes
    (some (c_str decrypted), some self)

namespace CryptoUtils

/-! ## Key streams -/

/-- A stream of bytes is added. -/
def add_stream (stream : Nat → UInt8) (data : Bytes) : Bytes := data.mapIdx fun i b => b ^^^ stream i

/-- Adding a stream twice undoes it. -/
theorem add_stream_twice (stream : Nat → UInt8) (data : Bytes) :
    add_stream stream (add_stream stream data) = data := by
  apply List.ext_getElem
  · simp only [add_stream, List.length_mapIdx]
  · intro i hi hdata
    simp only [add_stream, List.getElem_mapIdx]
    rw [UInt8.xor_assoc, UInt8.xor_self, UInt8.xor_zero]

/-- The bytes are added at their places, wherever the loop counts them from. -/
theorem map_range'_eq (stream : Nat → UInt8) (data : Bytes) (start : Nat) :
    ((List.range' start (data.length - start)).map fun i => data.getD i 0 ^^^ stream (i - start)) =
      add_stream stream (data.drop start) := by
  apply List.ext_getElem
  · rw [add_stream, List.length_mapIdx, List.length_map, List.length_range', List.length_drop]
  · intro i hi hdrop
    have hlength : start + i < data.length := by
      rw [List.length_map, List.length_range'] at hi
      omega
    have hplace : start + 1 * i - start = i := by omega
    rw [List.getElem_map, List.getElem_range', hplace, Nat.one_mul, List.getD_eq_getElem?_getD,
      List.getElem?_eq_getElem hlength, Option.getD_some]
    simp only [add_stream, List.getElem_mapIdx, List.getElem_drop]

/-! ## The key -/

/-- A loop that sets one place after another. -/
theorem foldl_set {α : Type} (f : Nat → α) (l : List α) (n : Nat) (hn : n ≤ l.length) :
    (List.range n).foldl (fun l i => l.set i (f i)) l = (List.range n).map f ++ l.drop n := by
  induction n with
  | zero => rfl
  | succ n ih =>
    have hlength : ((List.range n).map f).length = n := by rw [List.length_map, List.length_range]
    have hdrop : l.drop n = l[n] :: l.drop (n + 1) := List.drop_eq_getElem_cons hn
    have hset : ((List.range n).map f ++ l[n] :: l.drop (n + 1)).set n (f n) =
        (List.range n).map f ++ f n :: l.drop (n + 1) := by
      rw [List.set_append_right _ _ (Nat.le_of_eq hlength), hlength, Nat.sub_self, List.set_cons_zero]
    rw [List.range_succ, List.foldl_append, ih (by omega), List.foldl_cons, List.foldl_nil, hdrop, hset,
      List.map_append, List.append_assoc]
    rfl

/-- The bytes whose digits are the hash. -/
def derived_key (key : Bytes) : Bytes :=
  (List.range 32).map fun i => UInt8.ofInt (strtol16 (((sha256 key).drop (i * 2)).take 2))

theorem length_resize (n : Nat) (v : Bytes) : (resize n v).length = n := by
  rw [resize, List.length_append, List.length_take, List.length_replicate]
  omega

/-- Nothing is left of the members there were. -/
theorem initializeKey_eq (self : CryptoUtils) (key : Bytes) (randomBytes : RandomBytes 16) :
    self.initializeKey key randomBytes = ⟨derived_key key, randomBytes.bytes⟩ := by
  have hall : ∀ (aesKey : Bytes) (i : Nat), i ∈ List.range 32 →
      (if i * 2 < (sha256 key).length then
        aesKey.set i (UInt8.ofInt (strtol16 (((sha256 key).drop (i * 2)).take 2))) else aesKey) =
      aesKey.set i (UInt8.ofInt (strtol16 (((sha256 key).drop (i * 2)).take 2))) := by
    intro aesKey i hi
    have hi : i < 32 := List.mem_range.mp hi
    rw [length_sha256, if_pos (by omega)]
  have hlength := length_resize 32 self.aesKey
  have hrest : (resize 32 self.aesKey).drop 32 = [] := List.drop_of_length_le (Nat.le_of_eq hlength)
  rw [initializeKey, List.foldl_ext _ _ _ hall, foldl_set _ _ _ (Nat.le_of_eq hlength.symm), hrest, List.append_nil]
  rfl

/-- What is added to a byte, by the key and the IV. -/
def key_stream (key iv : Bytes) (i : Nat) : UInt8 := (derived_key key).getD (i % 32) 0 ^^^ iv.getD (i % 16) 0

theorem length_derived_key (key : Bytes) : (derived_key key).length = 32 := by
  rw [derived_key, List.length_map, List.length_range]

theorem encryptAES_eq (self : CryptoUtils) (data key : Bytes) (randomBytes : RandomBytes 16) :
    (self.encryptAES data key randomBytes).1 =
      randomBytes.bytes ++ add_stream (key_stream key randomBytes.bytes) data := by
  have hloop := map_range'_eq (key_stream key randomBytes.bytes) data 0
  rw [Nat.sub_zero, List.drop_zero, ← List.range_eq_range'] at hloop
  rw [← hloop, encryptAES, initializeKey_eq]
  simp only [length_derived_key, randomBytes.length_eq, key_stream, UInt8.xor_assoc, Nat.sub_zero]

theorem decryptAES_eq (self : CryptoUtils) (encryptedData key : Bytes) (randomBytes : RandomBytes 16)
    (hlength : 16 ≤ encryptedData.length) : (self.decryptAES encryptedData key randomBytes).1 =
      add_stream (key_stream key (encryptedData.take 16)) (encryptedData.drop 16) := by
  have hiv : (encryptedData.take 16).length = 16 := by
    rw [List.length_take]
    omega
  rw [decryptAES, if_neg (by omega), initializeKey_eq, ← map_range'_eq]
  simp only [length_derived_key, hiv, key_stream, UInt8.xor_assoc]

/-- What was encrypted comes out, whatever the members were and whatever else was drawn. -/
theorem decryptAES_encryptAES (self self' : CryptoUtils) (data key : Bytes) (randomBytes other : RandomBytes 16) :
    (self'.decryptAES (self.encryptAES data key randomBytes).1 key other).1 = data := by
  have hiv : (randomBytes.bytes ++ add_stream (key_stream key randomBytes.bytes) data).take 16 = randomBytes.bytes :=
    List.take_left' randomBytes.length_eq
  have hdata : (randomBytes.bytes ++ add_stream (key_stream key randomBytes.bytes) data).drop 16 =
      add_stream (key_stream key randomBytes.bytes) data := List.drop_left' randomBytes.length_eq
  rw [encryptAES_eq, decryptAES_eq, hiv, hdata, add_stream_twice]
  rw [List.length_append, randomBytes.length_eq]
  exact Nat.le_add_right 16 _

/-- The IV in front of encrypted bytes. -/
def extracted_iv (encryptedData : Bytes) (hlength : 16 ≤ encryptedData.length) : RandomBytes 16 :=
  ⟨encryptedData.take 16, by rw [List.length_take]; omega⟩

/-- Any bytes that hold an IV are what their decryption is encrypted to under it. -/
theorem encryptAES_decryptAES (self self' : CryptoUtils) (encryptedData key : Bytes) (other : RandomBytes 16)
    (hlength : 16 ≤ encryptedData.length) :
    (self'.encryptAES (self.decryptAES encryptedData key other).1 key (extracted_iv encryptedData hlength)).1 =
      encryptedData := by
  rw [encryptAES_eq, decryptAES_eq _ _ _ _ hlength]
  show encryptedData.take 16 ++ _ = encryptedData
  rw [extracted_iv, add_stream_twice, List.take_append_drop]

/-! ## Digits -/

theorem hex_byte_checked : ((List.range 256).all fun n =>
    (UInt8.ofInt (strtol16 (hex_byte (UInt8.ofNat n))) == UInt8.ofNat n) && !(hex_byte (UInt8.ofNat n)).contains 0) =
      true := by
  decide +kernel

theorem hex_byte_spec (b : UInt8) : UInt8.ofInt (strtol16 (hex_byte b)) = b ∧ 0 ∉ hex_byte b := by
  have hb : b.toNat ∈ List.range 256 := List.mem_range.mpr b.toNat_lt
  have hcheck := List.all_eq_true.mp hex_byte_checked b.toNat hb
  rw [UInt8.ofNat_toNat, Bool.and_eq_true, Bool.not_eq_true', beq_iff_eq] at hcheck
  refine ⟨hcheck.1, fun hmem => ?_⟩
  rw [List.contains_iff_mem.mpr hmem] at hcheck
  cases hcheck.2

theorem c_str_of_notMem {s : Bytes} (h : 0 ∉ s) : c_str s = s := by
  rw [c_str, List.takeWhile_eq_self_iff]
  intro b hb
  rw [decide_eq_true_eq]
  rintro rfl
  exact h hb

/-- The digits are read in twos, as they were printed. -/
theorem byte_strings_hex (bytes : Bytes) : byte_strings (bytes.flatMap hex_byte) = bytes.map hex_byte := by
  induction bytes with
  | nil => rfl
  | cons b bytes ih =>
    rw [List.flatMap_cons, List.map_cons, ← ih]
    rfl

/-- What is printed of bytes is read back as them. -/
theorem hex_read_back (bytes : Bytes) :
    ((byte_strings (c_str (c_str (bytes.flatMap hex_byte)))).map fun s => UInt8.ofInt (strtol16 s)) = bytes := by
  have hnul : 0 ∉ bytes.flatMap hex_byte := by
    intro hmem
    obtain ⟨b, -, hb⟩ := List.mem_flatMap.mp hmem
    exact (hex_byte_spec b).2 hb
  rw [c_str_of_notMem hnul, c_str_of_notMem hnul, byte_strings_hex, List.map_map]
  calc bytes.map ((fun s => UInt8.ofInt (strtol16 s)) ∘ hex_byte)
      = bytes.map id := List.map_congr_left fun b _ => (hex_byte_spec b).1
    _ = bytes := List.map_id bytes

end CryptoUtils

theorem nativeEncrypt_some (self : CryptoUtils) (data key : Bytes) (randomBytes : RandomBytes 16) :
    (nativeEncrypt (some self) data key randomBytes).1 =
      some (c_str ((self.encryptAES (c_str data) (c_str key) randomBytes).1.flatMap hex_byte)) := rfl

theorem nativeDecrypt_some (self : CryptoUtils) (encryptedHex key : Bytes) (randomBytes : RandomBytes 16) :
    (nativeDecrypt (some self) encryptedHex key randomBytes).1 =
      some (c_str (self.decryptAES ((byte_strings (c_str encryptedHex)).map fun s => UInt8.ofInt (strtol16 s))
        (c_str key) randomBytes).1) := rfl

/-- **Decryption and encryption undo each other.** A text without NUL comes back through the native methods; and
encrypted bytes come back when what they are decrypted to is encrypted under the IV in front of them. -/
theorem nativeDecrypt_nativeEncrypt (self self' : CryptoUtils) (data key encrypted : Bytes)
    (randomBytes other : RandomBytes 16) (hdata : 0 ∉ data) (hlength : 16 ≤ encrypted.length) :
    (∃ encryptedHex, (nativeEncrypt (some self) data key randomBytes).1 = some encryptedHex ∧
      (nativeDecrypt (some self') encryptedHex key other).1 = some data) ∧
    (self'.encryptAES (self.decryptAES encrypted key other).1 key (extracted_iv encrypted hlength)).1 =
      encrypted := by
  refine ⟨⟨_, nativeEncrypt_some self data key randomBytes, ?_⟩,
    encryptAES_decryptAES self self' encrypted key other hlength⟩
  rw [nativeDecrypt_some, hex_read_back, decryptAES_encryptAES, c_str_of_notMem hdata, c_str_of_notMem hdata]

/-- A text of two bytes and an IV of sevens; and 17 encrypted bytes. -/
theorem nativeDecrypt_nativeEncrypt_hi :
    (∃ encryptedHex, (nativeEncrypt (some ⟨[], []⟩) (str "hi") (str "k") ⟨List.replicate 16 7, rfl⟩).1 =
        some encryptedHex ∧
      (nativeDecrypt (some ⟨[1], [2]⟩) encryptedHex (str "k") ⟨List.replicate 16 9, rfl⟩).1 = some (str "hi")) ∧
    (CryptoUtils.encryptAES ⟨[1], [2]⟩
      (CryptoUtils.decryptAES ⟨[], []⟩ (List.replicate 17 1) (str "k") ⟨List.replicate 16 9, rfl⟩).1 (str "k")
      (extracted_iv (List.replicate 17 1) (by decide))).1 = List.replicate 17 1 :=
  nativeDecrypt_nativeEncrypt ⟨[], []⟩ ⟨[1], [2]⟩ (str "hi") (str "k") (List.replicate 17 1)
    ⟨List.replicate 16 7, rfl⟩ ⟨List.replicate 16 9, rfl⟩ (by decide) (by decide)

end ChatApp
