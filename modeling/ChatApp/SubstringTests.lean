/-
`SubstringTests.lean` -- what `payload.contains("key=")` finds in a payload of pairs.

The client tells some payloads apart by substrings. Such a test looks for a key with its `=` behind it, but it
finds more than that key: any key that ends like it, such as `username=` for `name=`, and any text inside a
value. This is all that it finds, since the `&` between two pairs stops it.
-/
import ChatApp.GroupLists
import ChatApp.NumberedItems

set_option autoImplicit false

namespace ChatApp.Room

/-! ## Sublists and separators -/

section Infix

variable {α : Type} {p q k a b v : List α} {sep : α} {ls : List (List α)}

/-- What has no separator and stands at the start stands before the first separator. -/
theorem prefix_append_cons (h : sep ∉ p) : p <+: a ++ sep :: b ↔ p <+: a := by
  induction p generalizing a with
  | nil => simp
  | cons x p ih =>
    obtain ⟨hx, hp⟩ := not_or.mp (mt List.mem_cons.mpr h)
    cases a with
    | nil => simp [Ne.symm hx]
    | cons y a => rw [List.cons_append, List.cons_prefix_cons, List.cons_prefix_cons, ih hp]

/-- What has no separator stands on one side of it. -/
theorem infix_append_cons (h : sep ∉ p) : p <:+: a ++ sep :: b ↔ p <:+: a ∨ p <:+: b := by
  induction a with
  | nil =>
    have hstart : p <+: sep :: b ↔ p = [] := by
      rw [← List.nil_append (sep :: b), prefix_append_cons h, List.prefix_nil]
    rw [List.nil_append, List.infix_cons_iff, hstart, List.infix_nil]
  | cons x a ih =>
    rw [List.cons_append, List.infix_cons_iff, ih, ← List.cons_append, prefix_append_cons h,
      List.infix_cons_iff, or_assoc]

/-- What has no separator stands in one of the pieces that are joined. -/
theorem infix_intercalate_iff (hne : p ≠ []) (h : sep ∉ p) :
    p <:+: [sep].intercalate ls ↔ ∃ l ∈ ls, p <:+: l := by
  induction ls with
  | nil => simp [hne]
  | cons x xs ih =>
    cases xs with
    | nil => simp
    | cons y ys =>
      rw [List.intercalate_cons_cons, List.append_assoc, List.singleton_append, infix_append_cons h, ih]
      simp

/-- A key that ends at the first separator is the key that stands there. -/
theorem prefix_key (hq : sep ∉ q) (hk : sep ∉ k) : q ++ [sep] <+: k ++ sep :: v ↔ q = k := by
  induction q generalizing k with
  | nil =>
    cases k with
    | nil => simp
    | cons y k => simp [(List.ne_of_not_mem_cons hk)]
  | cons x q ih =>
    obtain ⟨hx, hq⟩ := not_or.mp (mt List.mem_cons.mpr hq)
    cases k with
    | nil => simp [Ne.symm hx]
    | cons y k =>
      rw [List.cons_append, List.cons_append, List.cons_prefix_cons, ih hq (List.not_mem_of_not_mem_cons hk),
        List.cons.injEq]

/-- **What a test finds in a pair**: the end of its key, or a text in its value. -/
theorem infix_pair (hq : sep ∉ q) (hk : sep ∉ k) :
    q ++ [sep] <:+: k ++ sep :: v ↔ q <:+ k ∨ q ++ [sep] <:+: v := by
  induction k with
  | nil =>
    have hstart : q ++ [sep] <+: sep :: v ↔ q = [] := prefix_key hq List.not_mem_nil
    rw [List.nil_append, List.infix_cons_iff, hstart, List.suffix_nil]
  | cons x k ih =>
    have hstart := prefix_key (v := v) hq hk
    rw [List.cons_append] at hstart
    rw [List.cons_append, List.infix_cons_iff, hstart, ih (List.not_mem_of_not_mem_cons hk),
      List.suffix_cons_iff, or_assoc]

end Infix

/-! ## Numbered keys -/

section Keys

variable {name name' : String} {i j : Nat} {q : Bytes}

/-- A key that does not end in a digit does not end a numbered key. -/
theorem not_suffix_key (hq : ∀ c ∈ q.getLast?, isdigit c = false) (hne : q ≠ []) : ¬q <:+ key name i := by
  rintro ⟨t, heq⟩
  obtain ⟨c, hlast, hdigit⟩ := key_ends name i
  rw [← heq, List.getLast?_append_of_ne_nil t hne] at hlast
  rw [hq c hlast] at hdigit
  cases hdigit

/-- A numbered key does not end one that does not end in a digit. -/
theorem not_key_suffix (hq : ∀ c ∈ q.getLast?, isdigit c = false) : ¬key name i <:+ q := by
  rintro ⟨t, rfl⟩
  obtain ⟨c, hlast, hdigit⟩ := key_ends name i
  have hne : key name i ≠ [] := List.append_ne_nil_of_right_ne_nil _ (to_string_ne_nil _)
  rw [List.getLast?_append_of_ne_nil t hne] at hq
  rw [hq c hlast] at hdigit
  cases hdigit

/-- A numbered key ends another when the names do so, and the numbers are the same. -/
theorem suffix_key (hname : Worded name) (hname' : Worded name') (hne : str name ≠ []) :
    key name i <:+ key name' j ↔ str name <:+ str name' ∧ i = j := by
  constructor
  · rintro ⟨t, heq⟩
    have hdigits : ∀ b ∈ (to_string (i : Int)).reverse, isdigit b = true := fun b hb =>
      isdigit_of_number (List.mem_reverse.mp hb)
    -- what is left of the keys without the digits at their ends
    have hstrip : (str name').reverse = (t ++ str name).reverse := by
      rw [← key_strip hname' j, ← heq, List.reverse_append, key, List.reverse_append, List.append_assoc,
        List.dropWhile_append_of_pos hdigits, List.reverse_append]
      cases hrev : (str name).reverse with
      | nil => exact absurd (List.reverse_eq_nil_iff.mp hrev) hne
      | cons c rest =>
        have hlast : c ∈ (str name).getLast? := by
          rw [← List.head?_reverse, hrev]
          exact rfl
        rw [List.cons_append, List.dropWhile_cons_of_neg (by rw [hname.ends c hlast]; decide)]
    have hsame : str name' = t ++ str name := List.reverse_injective hstrip
    rw [key, key, hsame, ← List.append_assoc] at heq
    have hnumber : (i : Int) = (j : Int) := to_string_injective (List.append_cancel_left heq)
    exact ⟨⟨t, hsame.symm⟩, by omega⟩
  · rintro ⟨⟨t, heq⟩, rfl⟩
    exact ⟨t, by rw [key, key, ← heq, List.append_assoc]⟩

end Keys

/-! ## Tests -/

section Tests

variable {test : String} {q : Bytes} {items : List (Bytes × Bytes)}

/-- A test that a client makes: a key with its `=`. -/
structure Tests (test : String) (q : Bytes) : Prop where
  text : str test = q ++ [61]
  plain : 61 ∉ q ∧ 38 ∉ q

/-- **What a test finds in a payload.** -/
theorem contains_serialize_kv (htest : Tests test q) (hkeys : ∀ p ∈ items, 61 ∉ p.1) :
    contains (serialize_kv items) test = true ↔
      (∃ p ∈ items, q <:+ p.1) ∨ ∃ p ∈ items, contains p.2 test = true := by
  have hsep : (38 : UInt8) ∉ q ++ [61] := by
    rw [List.mem_append, not_or]
    exact ⟨htest.plain.2, by decide⟩
  have hpair : ∀ p ∈ items, (q ++ [61] <:+: p.1 ++ 61 :: p.2 ↔ q <:+ p.1 ∨ contains p.2 test = true) := by
    intro p hp
    rw [infix_pair htest.plain.1 (hkeys p hp), contains_iff, htest.text]
  rw [contains_iff, htest.text, serialize_kv, infix_intercalate_iff (by simp) hsep, ← exists_or]
  simp only [List.mem_map, exists_exists_and_eq_and]
  refine exists_congr fun p => ?_
  rw [← and_or_left]
  exact and_congr_right fun hp => hpair p hp

/-- A text without `=` passes no test. -/
theorem contains_plain {text : Bytes} (htest : Tests test q) (h : 61 ∉ text) : ¬contains text test = true := by
  rw [contains_iff, htest.text]
  intro hfound
  exact h (hfound.subset (List.mem_append_right _ (List.mem_singleton_self _)))

end Tests

/-! ## Shapes of payloads -/

/-- A text that delimits nothing. -/
def Undelimited (s : Bytes) : Prop := 61 ∉ s ∧ 38 ∉ s

instance (s : Bytes) : Decidable (Undelimited s) := instDecidableAnd

theorem undelimited_number (i : Int) : Undelimited (to_string i) := by
  constructor
  · intro hmem
    rcases mem_to_string hmem with h | ⟨-, hhi⟩
    · exact absurd h (by decide)
    · exact absurd hhi (by decide)
  · exact notMem_to_string (by decide)

/-- What the items of a payload are made of: their keys, numbered from 0 or not numbered, and the texts among
their values. -/
structure Shape (items : List (Bytes × Bytes)) (plain numbered : List String) (texts : List Bytes) : Prop where
  keys : ∀ p ∈ items, (∃ n ∈ plain, p.1 = str n) ∨ ∃ n ∈ numbered, ∃ i, p.1 = key n i
  plain_keys : ∀ n ∈ plain, Undelimited (str n) ∧ ∃ p ∈ items, p.1 = str n
  numbered_keys : ∀ n ∈ numbered, Worded n ∧ ∃ p ∈ items, p.1 = key n 0
  values : ∀ p ∈ items, p.2 ∈ texts ∨ Undelimited p.2
  texts_written : ∀ t ∈ texts, ∃ p ∈ items, p.2 = t

namespace Shape

variable {items items' : List (Bytes × Bytes)} {plain plain' numbered numbered' : List String}
  {texts texts' : List Bytes} {name test : String}

/-- Fields that are not numbered. -/
theorem fields (fs : List (String × Bytes)) (names : List String) (hnames : fs.map Prod.fst = names)
    (hplain : ∀ n ∈ names, Undelimited (str n)) (hvalues : ∀ f ∈ fs, f.2 ∈ texts ∨ Undelimited f.2)
    (htexts : ∀ t ∈ texts, ∃ f ∈ fs, f.2 = t) :
    Shape (fs.map fun f => (str f.1, f.2)) names [] texts := by
  subst hnames
  constructor
  · intro p hp
    obtain ⟨f, hf, rfl⟩ := List.mem_map.mp hp
    exact .inl ⟨f.1, List.mem_map_of_mem hf, rfl⟩
  · intro n hn
    refine ⟨hplain n hn, ?_⟩
    obtain ⟨f, hf, rfl⟩ := List.mem_map.mp hn
    exact ⟨(str f.1, f.2), List.mem_map_of_mem hf, rfl⟩
  · exact fun _ hn => absurd hn List.not_mem_nil
  · intro p hp
    obtain ⟨f, hf, rfl⟩ := List.mem_map.mp hp
    exact hvalues f hf
  · intro t ht
    obtain ⟨f, hf, rfl⟩ := htexts t ht
    exact ⟨(str f.1, f.2), List.mem_map_of_mem hf, rfl⟩

/-- A list of things with the same fields each. -/
theorem list {ι : Type} (xs : List ι) (fs : ι → List (String × Bytes)) (names : List String) (ts : ι → List Bytes)
    (hnames : ∀ x, (fs x).map Prod.fst = names) (hworded : ∀ n ∈ names, Worded n)
    (hvalues : ∀ x, ∀ f ∈ fs x, f.2 ∈ ts x ∨ Undelimited f.2) (htexts : ∀ x, ∀ t ∈ ts x, ∃ f ∈ fs x, f.2 = t) :
    Shape (numbered_items (xs.map fs)) [] (if xs.isEmpty then [] else names) (xs.flatMap ts) := by
  have hmem : ∀ p, p ∈ numbered_items (xs.map fs) ↔ ∃ i x, xs[i]? = some x ∧ ∃ f ∈ fs x, p = (key f.1 i, f.2) := by
    intro p
    rw [mem_numbered_items]
    simp only [List.getElem?_map, Option.map_eq_some_iff, exists_exists_and_eq_and]
  constructor
  · intro p hp
    obtain ⟨i, x, hx, f, hf, rfl⟩ := (hmem p).mp hp
    refine .inr ⟨f.1, ?_, i, rfl⟩
    rw [if_neg (by simpa using List.ne_nil_of_mem (List.mem_of_getElem? hx)), ← hnames x]
    exact List.mem_map_of_mem hf
  · exact fun _ hn => absurd hn List.not_mem_nil
  · intro n hn
    cases xs with
    | nil => cases hn
    | cons x xs =>
      rw [if_neg (by simp)] at hn
      refine ⟨hworded n hn, ?_⟩
      rw [← hnames x] at hn
      obtain ⟨f, hf, rfl⟩ := List.mem_map.mp hn
      exact ⟨_, (hmem _).mpr ⟨0, x, rfl, f, hf, rfl⟩, rfl⟩
  · intro p hp
    obtain ⟨i, x, hx, f, hf, rfl⟩ := (hmem p).mp hp
    exact (hvalues x f hf).imp_left fun ht => List.mem_flatMap.mpr ⟨x, List.mem_of_getElem? hx, ht⟩
  · intro t ht
    obtain ⟨x, hx, ht⟩ := List.mem_flatMap.mp ht
    obtain ⟨f, hf, rfl⟩ := htexts x t ht
    obtain ⟨i, hi⟩ := List.mem_iff_getElem?.mp hx
    exact ⟨_, (hmem _).mpr ⟨i, x, hi, f, hf, rfl⟩, rfl⟩

/-- Two lists of items, one behind the other. -/
theorem append (h : Shape items plain numbered texts) (h' : Shape items' plain' numbered' texts') :
    Shape (items ++ items') (plain ++ plain') (numbered ++ numbered') (texts ++ texts') where
  keys p hp := by
    rcases List.mem_append.mp hp with hp | hp
    · refine (h.keys p hp).imp ?_ ?_
      · exact fun ⟨n, hn, hk⟩ => ⟨n, List.mem_append_left _ hn, hk⟩
      · exact fun ⟨n, hn, hk⟩ => ⟨n, List.mem_append_left _ hn, hk⟩
    · refine (h'.keys p hp).imp ?_ ?_
      · exact fun ⟨n, hn, hk⟩ => ⟨n, List.mem_append_right _ hn, hk⟩
      · exact fun ⟨n, hn, hk⟩ => ⟨n, List.mem_append_right _ hn, hk⟩
  plain_keys n hn := by
    rcases List.mem_append.mp hn with hn | hn
    · exact (h.plain_keys n hn).imp_right fun ⟨p, hp, hk⟩ => ⟨p, List.mem_append_left _ hp, hk⟩
    · exact (h'.plain_keys n hn).imp_right fun ⟨p, hp, hk⟩ => ⟨p, List.mem_append_right _ hp, hk⟩
  numbered_keys n hn := by
    rcases List.mem_append.mp hn with hn | hn
    · exact (h.numbered_keys n hn).imp_right fun ⟨p, hp, hk⟩ => ⟨p, List.mem_append_left _ hp, hk⟩
    · exact (h'.numbered_keys n hn).imp_right fun ⟨p, hp, hk⟩ => ⟨p, List.mem_append_right _ hp, hk⟩
  values p hp := by
    rcases List.mem_append.mp hp with hp | hp
    · exact (h.values p hp).imp_left (List.mem_append_left _)
    · exact (h'.values p hp).imp_left (List.mem_append_right _)
  texts_written t ht := by
    rcases List.mem_append.mp ht with ht | ht
    · obtain ⟨p, hp, hv⟩ := h.texts_written t ht
      exact ⟨p, List.mem_append_left _ hp, hv⟩
    · obtain ⟨p, hp, hv⟩ := h'.texts_written t ht
      exact ⟨p, List.mem_append_right _ hp, hv⟩

/-- Keys delimit nothing. -/
theorem undelimited_key (h : Shape items plain numbered texts) {p : Bytes × Bytes} (hp : p ∈ items) :
    Undelimited p.1 := by
  rcases h.keys p hp with ⟨n, hn, hk⟩ | ⟨n, hn, i, hk⟩
  · rw [hk]
    exact (h.plain_keys n hn).1
  · rw [hk]
    exact key_plain (h.numbered_keys n hn).1 i

/-- Among the values a test finds texts only. -/
theorem contains_values (h : Shape items plain numbered texts) {q : Bytes} (htest : Tests test q) :
    (∃ p ∈ items, contains p.2 test = true) ↔ ∃ t ∈ texts, contains t test = true := by
  constructor
  · rintro ⟨p, hp, hc⟩
    rcases h.values p hp with ht | hplain
    · exact ⟨p.2, ht, hc⟩
    · exact absurd hc (contains_plain htest hplain.1)
  · rintro ⟨t, ht, hc⟩
    obtain ⟨p, hp, rfl⟩ := h.texts_written t ht
    exact ⟨p, hp, hc⟩

/-- **A test for a key without a number** finds keys without numbers that end like it, and texts. -/
theorem contains_plain_key (h : Shape items plain numbered texts) (htest : Tests test (str name))
    (hname : Worded name) (hne : str name ≠ []) : contains (serialize_kv items) test = true ↔
      (∃ n ∈ plain, str name <:+ str n) ∨ ∃ t ∈ texts, contains t test = true := by
  rw [contains_serialize_kv htest fun p hp => (h.undelimited_key hp).1, h.contains_values htest]
  refine or_congr_left ⟨?_, ?_⟩
  · rintro ⟨p, hp, hsuffix⟩
    rcases h.keys p hp with ⟨n, hn, hk⟩ | ⟨n, -, i, hk⟩
    · exact ⟨n, hn, hk ▸ hsuffix⟩
    · exact absurd (hk ▸ hsuffix) (not_suffix_key hname.ends hne)
  · rintro ⟨n, hn, hsuffix⟩
    obtain ⟨-, p, hp, hk⟩ := h.plain_keys n hn
    exact ⟨p, hp, hk ▸ hsuffix⟩

/-- **A test for the first of numbered keys** finds numbered keys that end like it, and texts. -/
theorem contains_first_key (h : Shape items plain numbered texts) (htest : Tests test (key name 0))
    (hname : Worded name) (hne : str name ≠ []) (hplain : ∀ n ∈ plain, ∀ c ∈ (str n).getLast?, isdigit c = false) :
    contains (serialize_kv items) test = true ↔
      (∃ n ∈ numbered, str name <:+ str n) ∨ ∃ t ∈ texts, contains t test = true := by
  rw [contains_serialize_kv htest fun p hp => (h.undelimited_key hp).1, h.contains_values htest]
  refine or_congr_left ⟨?_, ?_⟩
  · rintro ⟨p, hp, hsuffix⟩
    rcases h.keys p hp with ⟨n, hn, hk⟩ | ⟨n, hn, i, hk⟩
    · exact absurd (hk ▸ hsuffix) (not_key_suffix (hplain n hn))
    · exact ⟨n, hn, ((suffix_key hname (h.numbered_keys n hn).1 hne).mp (hk ▸ hsuffix)).1⟩
  · rintro ⟨n, hn, hsuffix⟩
    obtain ⟨hworded, p, hp, hk⟩ := h.numbered_keys n hn
    exact ⟨p, hp, hk ▸ (suffix_key hname hworded hne).mpr ⟨hsuffix, rfl⟩⟩

/-- Where the texts have no `&`, the client reads all pairs back. -/
theorem readable (h : Shape items plain numbered texts) (hclean : ∀ t ∈ texts, 38 ∉ t) :
    ∀ p ∈ items, Readable p := by
  intro p hp
  obtain ⟨heq, hamp⟩ := h.undelimited_key hp
  refine ⟨heq, hamp, ?_⟩
  rcases h.values p hp with ht | hplain
  · exact hclean _ ht
  · exact hplain.2

/-- A key that the payload does not have is not read. -/
theorem absent (h : Shape items plain numbered texts) (hclean : ∀ t ∈ texts, 38 ∉ t) (hne : items ≠ [])
    (hname : Worded name) (hplain : ∀ n ∈ plain, str n ≠ str name) :
    (pairs (serialize_kv items)).find? (str name) = none := by
  refine find?_pairs_none (h.readable hclean) hne fun p hp hk => ?_
  rcases h.keys p hp with ⟨n, hn, heq⟩ | ⟨n, -, i, heq⟩
  · exact hplain n hn (heq.symm.trans hk)
  · exact key_ne hname.ends n i (hk.symm.trans heq)

/-- The same for a key with a number. -/
theorem absent_numbered (h : Shape items plain numbered texts) (hclean : ∀ t ∈ texts, 38 ∉ t) (hne : items ≠ [])
    (hname : Worded name) (hplain : ∀ n ∈ plain, ∀ c ∈ (str n).getLast?, isdigit c = false)
    (hnumbered : ∀ n ∈ numbered, str n ≠ str name) (i : Nat) :
    (pairs (serialize_kv items)).find? (key name i) = none := by
  refine find?_pairs_none (h.readable hclean) hne fun p hp hk => ?_
  rcases h.keys p hp with ⟨n, hn, heq⟩ | ⟨n, hn, j, heq⟩
  · exact key_ne (hplain n hn) name i (heq.symm.trans hk)
  · have hsame : key n j = key name i := heq.symm.trans hk
    exact hnumbered n hn (key_injective (h.numbered_keys n hn).1 hname hsame).1

end Shape

end ChatApp.Room
