/-
`Codecs.lean` -- the text formats, read back.

Two formats carry everything the server reads: pieces between delimiters (the lines of the users file and the
fields of a line) and `key=value` pairs joined by `&`. `getlines` recovers the pieces it was given as long
as none holds the delimiter, `std::stoi` recovers what `std::to_string` printed, and `parse_kv` recovers
the pairs of `serialize_kv`, the last of each key, whatever `=` the values hold. No value that `parse_kv`
extracts holds a `&`.
-/
import ChatApp.Utils

set_option autoImplicit false

namespace ChatApp

/-! ## Pieces between delimiters -/

section Getlines

variable {d : UInt8}

/-- A piece that ends with the delimiter. -/
theorem getlines_append {l : Bytes} (hl : d ∉ l) (rest : Bytes) :
    getlines d (l ++ d :: rest) = l :: getlines d rest := by
  induction l with
  | nil => rw [List.nil_append, getlines, if_pos rfl]
  | cons c l ih =>
    obtain ⟨hc, hl⟩ := List.ne_and_not_mem_of_not_mem_cons hl
    rw [List.cons_append, getlines, if_neg (Ne.symm hc), ih hl]

/-- A last piece, which the end of the input ends. -/
theorem getlines_last {l : Bytes} (hl : d ∉ l) (hne : l ≠ []) : getlines d l = [l] := by
  induction l with
  | nil => exact absurd rfl hne
  | cons c l ih =>
    obtain ⟨hc, hl⟩ := List.ne_and_not_mem_of_not_mem_cons hl
    rw [getlines, if_neg (Ne.symm hc)]
    by_cases hrest : l = []
    · rw [hrest]
      rfl
    · rw [ih hl hrest]

/-- Lines, each with its delimiter. -/
theorem getlines_lines {ls : List Bytes} (h : ∀ l ∈ ls, d ∉ l) :
    getlines d (ls.map fun l => l ++ [d]).flatten = ls := by
  induction ls with
  | nil => rfl
  | cons l ls ih =>
    have hl := h l List.mem_cons_self
    have hrest := ih fun l' hl' => h l' (List.mem_cons_of_mem _ hl')
    rw [List.map_cons, List.flatten_cons, List.append_assoc, List.singleton_append,
      getlines_append hl, hrest]

/-- Pieces with delimiters between them. -/
theorem getlines_intercalate {ls : List Bytes} (h : ∀ l ∈ ls, d ∉ l) (hne : ∀ l ∈ ls, l ≠ []) :
    getlines d ([d].intercalate ls) = ls := by
  induction ls with
  | nil => rfl
  | cons l ls ih =>
    have hl := h l List.mem_cons_self
    cases ls with
    | nil =>
      rw [List.intercalate_singleton]
      exact getlines_last hl (hne l List.mem_cons_self)
    | cons l' ls =>
      have hrest := ih (fun x hx => h x (List.mem_cons_of_mem _ hx))
        fun x hx => hne x (List.mem_cons_of_mem _ hx)
      rw [List.intercalate_cons_cons, List.append_assoc, List.singleton_append, getlines_append hl, hrest]

/-- No piece holds the delimiter. -/
theorem notMem_of_mem_getlines {s l : Bytes} (h : l ∈ getlines d s) : d ∉ l := by
  induction s generalizing l with
  | nil => cases h
  | cons c s ih =>
    rw [getlines] at h
    split at h
    · rcases List.mem_cons.mp h with rfl | h
      · exact List.not_mem_nil
      · exact ih h
    · next hc =>
      split at h
      · rw [List.mem_singleton.mp h]
        simpa using Ne.symm hc
      · next t ts hs =>
        rcases List.mem_cons.mp h with rfl | h
        · refine List.not_mem_cons_of_ne_of_not_mem (Ne.symm hc) (ih ?_)
          rw [hs]
          exact List.mem_cons_self
        · refine ih ?_
          rw [hs]
          exact List.mem_cons_of_mem _ h

end Getlines

/-! ## Numbers -/

/-- The value of a digit's byte. -/
theorem digit_value {c : Char} (hc : c.isDigit = true) : (UInt8.ofNat c.toNat).toNat = c.toNat := by
  have hlo := (digit_byte hc).2.2
  have hlt : c.toNat < 256 := by
    simp only [Char.isDigit, Bool.and_eq_true, decide_eq_true_eq] at hc
    have hhi : c.toNat ≤ 57 := hc.2
    omega
  rw [UInt8.toNat_ofNat']
  exact Nat.mod_eq_of_lt hlt

theorem digits_fold (cs : List Char) (n : Nat) (h : ∀ c ∈ cs, c.isDigit = true) :
    (cs.map fun c => UInt8.ofNat c.toNat).foldl (fun n c => 10 * n + (c.toNat - 48)) n
      = Nat.ofDigitChars 10 cs n := by
  induction cs generalizing n with
  | nil => rfl
  | cons c cs ih =>
    rw [List.map_cons, List.foldl_cons, digit_value (h c List.mem_cons_self),
      ih _ fun c' hc' => h c' (List.mem_cons_of_mem _ hc'), Nat.ofDigitChars_cons]
    rfl

/-- The digits that are printed are read back. -/
theorem digits_value (n : Nat) : ((Nat.toDigits 10 n).map fun c => UInt8.ofNat c.toNat).foldl
    (fun n c => 10 * n + (c.toNat - 48)) 0 = n := by
  rw [digits_fold _ _ fun c hc => Nat.isDigit_of_mem_toDigits (by decide) (by decide) hc]
  exact Nat.ofDigitChars_ten_toDigits

theorem digits_ne_nil (n : Nat) : (Nat.toDigits 10 n).map (fun c => UInt8.ofNat c.toNat) ≠ [] := by
  rw [Ne, List.map_eq_nil_iff]
  exact Nat.toDigits_ne_nil

theorem isdigit_of_mem {n : Nat} {b : UInt8}
    (h : b ∈ (Nat.toDigits 10 n).map fun c => UInt8.ofNat c.toNat) : isdigit b = true := by
  obtain ⟨hlo, hhi⟩ := mem_digits h
  simp [isdigit, hlo, hhi]

/-- A digit is neither white space nor a sign. -/
theorem digit_starts {c : UInt8} (h : isdigit c = true) : isspace c = false ∧ c ≠ 45 ∧ c ≠ 43 := by
  simp only [isdigit, Bool.and_eq_true, decide_eq_true_eq, UInt8.le_iff_toNat_le] at h
  have hlo : 48 ≤ c.toNat := h.1
  refine ⟨?_, fun hc => ?_, fun hc => ?_⟩
  · have hspace : c ≠ 32 := fun hc => absurd hlo (by rw [hc]; decide)
    have hhi : ¬c ≤ 13 := fun hc => absurd (hlo.trans (UInt8.le_iff_toNat_le.mp hc)) (by decide)
    simp [isspace, hspace, hhi]
  · rw [hc] at hlo
    exact absurd hlo (by decide)
  · rw [hc] at hlo
    exact absurd hlo (by decide)

/-- A minus sign is consumed, and a digit is not a sign. -/
theorem strtol_sign_digits (neg : Bool) {s : Bytes} (hdigits : ∀ b ∈ s, isdigit b = true) (hne : s ≠ []) :
    strtol_sign (if neg then 45 :: s else s) = (neg, s) := by
  cases neg with
  | true => rfl
  | false =>
    obtain ⟨c, cs, rfl⟩ := List.exists_cons_of_ne_nil hne
    obtain ⟨-, hminus, hplus⟩ := digit_starts (hdigits c List.mem_cons_self)
    rw [if_neg Bool.false_ne_true]
    unfold strtol_sign
    split
    · next h => exact absurd (List.cons.inj h).1 hminus
    · next h => exact absurd (List.cons.inj h).1 hplus
    · rfl

/-- The digits of a number, with a sign or without. -/
theorem stoi_digits (neg : Bool) (n : Nat) (s : Bytes)
    (hs : s = (Nat.toDigits 10 n).map fun c => UInt8.ofNat c.toNat) :
    stoi (if neg then 45 :: s else s) =
      if (if neg then -(n : Int) else n) < -2 ^ 31 ∨ 2 ^ 31 ≤ (if neg then -(n : Int) else n)
        then .error .out_of_range else .ok (if neg then -(n : Int) else n) := by
  have hdigits : ∀ b ∈ s, isdigit b = true := fun b hb => isdigit_of_mem (hs ▸ hb)
  have hne : s ≠ [] := hs ▸ digits_ne_nil n
  have htake : s.takeWhile isdigit = s := List.takeWhile_eq_self_iff.mpr hdigits
  have hvalue : s.foldl (fun n c => 10 * n + (c.toNat - 48)) 0 = n := hs ▸ digits_value n
  have hdrop : (if neg then 45 :: s else s).dropWhile isspace = if neg then 45 :: s else s := by
    cases neg with
    | true => rfl
    | false =>
      obtain ⟨c, cs, rfl⟩ := List.exists_cons_of_ne_nil hne
      have hspace := (digit_starts (hdigits c List.mem_cons_self)).1
      exact List.dropWhile_cons_of_neg (by simp [hspace])
  have hsign : strtol_sign ((if neg then 45 :: s else s).dropWhile isspace) = (neg, s) := by
    rw [hdrop, strtol_sign_digits neg hdigits hne]
  rw [stoi, hsign]
  simp only [htake, hne, hvalue, if_false]
  rfl

/-- **Numbers are read back** while they fit an `int`. -/
theorem stoi_to_string_eq (i : Int) :
    stoi (to_string i) = if i < -2 ^ 31 ∨ 2 ^ 31 ≤ i then .error .out_of_range else .ok i := by
  unfold to_string
  by_cases hi : i < 0
  · have habs : -(i.natAbs : Int) = i := by omega
    have h := stoi_digits true i.natAbs _ rfl
    simp only [if_true] at h
    rw [if_pos hi, h, habs]
  · have habs : (i.natAbs : Int) = i := by omega
    have h := stoi_digits false i.natAbs _ rfl
    simp only [Bool.false_eq_true, if_false] at h
    rw [if_neg hi, h, habs]

theorem stoi_to_string {i : Int} (hlo : -2 ^ 31 ≤ i) (hhi : i < 2 ^ 31) : stoi (to_string i) = .ok i := by
  rw [stoi_to_string_eq, if_neg (by omega)]

/-- What comes before the sign is not printed. -/
theorem notMem_to_string {i : Int} {b : UInt8} (h : b < 45) : b ∉ to_string i := by
  intro hb
  rcases mem_to_string hb with rfl | ⟨hlo, -⟩
  · exact absurd h (by decide)
  · rw [UInt8.le_iff_toNat_le] at hlo
    have hlt : b.toNat < 45 := UInt8.lt_iff_toNat_lt.mp h
    exact absurd (hlo.trans_lt hlt) (by decide)

theorem to_string_ne_nil (i : Int) : to_string i ≠ [] := by
  unfold to_string
  split
  · exact List.cons_ne_nil _ _
  · exact digits_ne_nil _

/-! ## `key=value` pairs -/

section Pairs

variable {k v : Bytes}

/-- A pair is split at its first `=`. -/
theorem parse_pair_item (m : UMap Bytes Bytes) (hk : 61 ∉ k) : parse_pair m (k ++ 61 :: v) = m.set k v := by
  have hkey : ∀ b ∈ k, decide (b ≠ 61) = true := fun b hb => decide_eq_true fun h => hk (h ▸ hb)
  have htake : (k ++ 61 :: v).takeWhile (· ≠ 61) = k := by
    rw [List.takeWhile_append_of_pos hkey, List.takeWhile_cons_of_neg (by decide), List.append_nil]
  have hdrop : (k ++ 61 :: v).dropWhile (· ≠ 61) = 61 :: v := by
    rw [List.dropWhile_append_of_pos hkey, List.dropWhile_cons_of_neg (by decide)]
  rw [parse_pair, if_pos (by simp), htake, hdrop]
  rfl

/-- A pair whose text can be read back: no delimiter in the key, no `&` in the value. -/
def Readable (p : Bytes × Bytes) : Prop := 61 ∉ p.1 ∧ 38 ∉ p.1 ∧ 38 ∉ p.2

/-- **Pairs are read back**, in order, so that the last of each key wins. -/
theorem parse_serialize {items : List (Bytes × Bytes)} (h : ∀ p ∈ items, Readable p) :
    parse_kv (serialize_kv items) = items.foldl (fun m p => m.set p.1 p.2) ∅ := by
  have hpieces : getlines 38 (serialize_kv items) = items.map fun p => p.1 ++ 61 :: p.2 := by
    refine getlines_intercalate (fun l hl => ?_) fun l hl => ?_
    · obtain ⟨p, hp, rfl⟩ := List.mem_map.mp hl
      obtain ⟨-, hkey, hvalue⟩ := h p hp
      simp [hkey, hvalue]
    · obtain ⟨p, -, rfl⟩ := List.mem_map.mp hl
      simp
  have hfold : ∀ (ps : List (Bytes × Bytes)) (m : UMap Bytes Bytes), (∀ p ∈ ps, Readable p) →
      (ps.map fun p => p.1 ++ 61 :: p.2).foldl parse_pair m = ps.foldl (fun m p => m.set p.1 p.2) m := by
    intro ps
    induction ps with
    | nil => intro m _; rfl
    | cons p ps ih =>
      intro m hps
      rw [List.map_cons, List.foldl_cons, List.foldl_cons, parse_pair_item m (hps p List.mem_cons_self).1]
      exact ih _ fun q hq => hps q (List.mem_cons_of_mem _ hq)
  rw [parse_kv, hpieces, hfold items ∅ h]

/-- **No value holds a `&`**, and no key a `&` or a `=`, whatever was parsed. -/
theorem readable_of_parse {s : Bytes} (h : (parse_kv s).find? k = some v) : Readable (k, v) := by
  suffices hall : ∀ (pieces : List Bytes) (m : UMap Bytes Bytes), (∀ l ∈ pieces, 38 ∉ l) →
      (∀ k v, m.find? k = some v → Readable (k, v)) →
      ∀ k v, (pieces.foldl parse_pair m).find? k = some v → Readable (k, v) from
    hall (getlines 38 s) ∅ (fun l hl => notMem_of_mem_getlines hl) (fun k v hkv => by simp at hkv) k v h
  intro pieces
  induction pieces with
  | nil => exact fun m _ hm => hm
  | cons l pieces ih =>
    intro m hpieces hm
    refine ih _ (fun l' hl' => hpieces l' (List.mem_cons_of_mem _ hl')) fun k v hkv => ?_
    have hl := hpieces l List.mem_cons_self
    rw [parse_pair] at hkv
    split at hkv
    · rw [UMap.find?_set] at hkv
      split at hkv
      · next hkey =>
        rw [hkey, ← Option.some.inj hkv]
        refine ⟨fun hmem => ?_, fun hmem => hl (List.takeWhile_subset _ hmem), fun hmem => hl ?_⟩
        · simpa using List.mem_takeWhile_imp hmem
        · exact List.dropWhile_subset _ (List.mem_of_mem_drop hmem)
      · exact hm k v hkv
    · exact hm k v hkv

/-- The value of a key holds no `&`. -/
theorem notMem_value (s k : Bytes) : 38 ∉ (parse_kv s).get k := by
  rw [UMap.get]
  cases h : (parse_kv s).find? k with
  | none => exact List.not_mem_nil
  | some v => exact (readable_of_parse h).2.2

theorem readable_text (h : 61 ∉ k ∧ 38 ∉ k) (hv : 38 ∉ v) : Readable (k, v) := ⟨h.1, h.2, hv⟩

/-- A number can be read back as a value. -/
theorem readable_number (h : 61 ∉ k ∧ 38 ∉ k) (i : Int) : Readable (k, to_string i) :=
  readable_text h (notMem_to_string (by decide))

variable {items : List (Bytes × Bytes)}

/-- What is read under a key is the value of its last pair. -/
theorem find?_parse_serialize (h : ∀ p ∈ items, Readable p) (k : Bytes) :
    (parse_kv (serialize_kv items)).find? k = (items.reverse.find? fun p => p.1 = k).map Prod.snd := by
  rw [parse_serialize h, UMap.find?_foldl_set, UMap.find?_empty, Option.or_none]

/-- Among pairs with different keys there is one last pair of a key. -/
theorem find?_reverse_of_nodup (hkeys : (items.map Prod.fst).Nodup) {p : Bytes × Bytes} (hp : p ∈ items) :
    (items.reverse.find? fun q => q.1 = p.1).map Prod.snd = some p.2 := by
  cases hlast : items.reverse.find? fun q => q.1 = p.1 with
  | none => exact absurd (decide_eq_true rfl) (List.find?_eq_none.mp hlast p (List.mem_reverse.mpr hp))
  | some q =>
    have hq : q ∈ items := List.mem_reverse.mp (List.mem_of_find?_eq_some hlast)
    have hkey : q.1 = p.1 := by simpa using List.find?_some hlast
    rw [List.inj_on_of_nodup_map hkeys hq hp hkey]
    rfl

/-- The entries of a map, in any order, are read back as the map. -/
theorem find?_parse_entries {s : Bytes} (hperm : items.Perm (parse_kv s).toList) (k : Bytes) :
    (parse_kv (serialize_kv items)).find? k = (parse_kv s).find? k := by
  have hmem : ∀ p, p ∈ items ↔ (parse_kv s).find? p.1 = some p.2 := fun p =>
    hperm.mem_iff.trans (UMap.mem_toList _ p.1 p.2)
  have hkeys : (items.map Prod.fst).Nodup :=
    (hperm.map Prod.fst).nodup_iff.mpr (UMap.keys_nodup _)
  have hread : ∀ p ∈ items, Readable p := fun p hp => readable_of_parse ((hmem p).mp hp)
  rw [find?_parse_serialize hread]
  cases hfound : (parse_kv s).find? k with
  | some v => exact find?_reverse_of_nodup hkeys ((hmem (k, v)).mpr hfound)
  | none =>
    rw [Option.map_eq_none_iff, List.find?_eq_none]
    intro p hp hpk
    have hp' := (hmem p).mp (List.mem_reverse.mp hp)
    rw [of_decide_eq_true hpk, hfound] at hp'
    cases hp'

/-- **The round trip of the text format.** Pairs without delimiters are read back, the last of each key; what is read
of any bytes can be written, in any order, and is read back. -/
theorem codec_round_trip (items : List (Bytes × Bytes)) (s : Bytes) :
    ((∀ p ∈ items, Readable p) → ∀ k,
      (parse_kv (serialize_kv items)).find? k = (items.reverse.find? fun p => p.1 = k).map Prod.snd) ∧
    (∀ k v, (parse_kv s).find? k = some v → Readable (k, v)) ∧
    ∀ entries, entries.Perm (parse_kv s).toList →
      ∀ k, (parse_kv (serialize_kv entries)).find? k = (parse_kv s).find? k :=
  ⟨find?_parse_serialize, fun _ _ => readable_of_parse, fun _ hperm => find?_parse_entries hperm⟩

end Pairs

end ChatApp
