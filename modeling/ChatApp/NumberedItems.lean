/-
`NumberedItems.lean` -- payloads that list things: fields like `groupId0`, `name0`,
`groupId1`, `name1`, which the client looks up one number after the other.

A number is printed behind the name of the field. Names that do not end in a digit
are told apart by what they are up to their number, and numbers by what follows, so
that no field of one thing is taken for another field or for a field of another
thing.
-/
import ChatApp.ClientMessages

set_option autoImplicit false

namespace ChatApp

/-! ## Numbered keys -/

/-- The name of a field that is numbered: it does not end in a digit, and delimits nothing. -/
structure Worded (name : String) : Prop where
  ends : ∀ c ∈ (str name).getLast?, isdigit c = false
  plain : 61 ∉ str name ∧ 38 ∉ str name

/-- A name like these is told by its characters. -/
instance (name : String) : Decidable (Worded name) :=
  decidable_of_iff (((str name).getLast?.all fun c => !isdigit c) = true ∧ 61 ∉ str name ∧ 38 ∉ str name)
    ⟨fun h => ⟨fun c hc => by simpa using (Option.all_eq_true _ _).mp h.1 c hc, h.2⟩,
      fun h => ⟨(Option.all_eq_true _ _).mpr fun c hc => by simpa using h.ends c hc, h.plain⟩⟩

section Keys

variable {name name' : String} {i j : Nat}

/-- The number of a key is printed in digits. -/
theorem isdigit_of_number {b : UInt8} (h : b ∈ to_string (i : Int)) : isdigit b = true := by
  rw [to_string, if_neg (by omega), Int.natAbs_natCast] at h
  exact isdigit_of_mem h

/-- Without its digits at the end, a numbered key is its name. -/
theorem key_strip (h : Worded name) (i : Nat) :
    (key name i).reverse.dropWhile isdigit = (str name).reverse := by
  have hdigits : ∀ b ∈ (to_string (i : Int)).reverse, isdigit b = true := fun b hb =>
    isdigit_of_number (List.mem_reverse.mp hb)
  rw [key, List.reverse_append, List.dropWhile_append_of_pos hdigits]
  cases hrev : (str name).reverse with
  | nil => rfl
  | cons c rest =>
    have hlast : c ∈ (str name).getLast? := by
      rw [← List.head?_reverse, hrev]
      exact rfl
    rw [List.dropWhile_cons_of_neg (by rw [h.ends c hlast]; decide)]

/-- Keys are told apart by names and numbers. -/
theorem key_injective (hname : Worded name) (hname' : Worded name') (h : key name i = key name' j) :
    str name = str name' ∧ i = j := by
  have hstrip : (str name).reverse = (str name').reverse := by
    rw [← key_strip hname i, ← key_strip hname' j, h]
  have hsame : str name = str name' := List.reverse_injective hstrip
  rw [key, key, hsame] at h
  have hnumber : (i : Int) = (j : Int) := to_string_injective (List.append_cancel_left h)
  exact ⟨hsame, by omega⟩

/-- A numbered key ends in a digit. -/
theorem key_ends (name : String) (i : Nat) : ∃ c, (key name i).getLast? = some c ∧ isdigit c = true := by
  have hne : to_string (i : Int) ≠ [] := to_string_ne_nil _
  refine ⟨(to_string (i : Int)).getLast hne, ?_, isdigit_of_number (List.getLast_mem hne)⟩
  rw [key, List.getLast?_append_of_ne_nil _ hne]
  exact List.getLast?_eq_some_getLast hne

/-- A key that does not end in a digit is no numbered one. -/
theorem key_ne {k : Bytes} (hk : ∀ c ∈ k.getLast?, isdigit c = false) (name : String) (i : Nat) :
    k ≠ key name i := by
  rintro rfl
  obtain ⟨c, hlast, hdigit⟩ := key_ends name i
  rw [hk c hlast] at hdigit
  cases hdigit

theorem key_plain (h : Worded name) (i : Nat) : 61 ∉ key name i ∧ 38 ∉ key name i := by
  constructor <;> intro hmem <;> rcases List.mem_append.mp hmem with hmem | hmem
  · exact h.plain.1 hmem
  · exact absurd (isdigit_of_number hmem) (by decide)
  · exact h.plain.2 hmem
  · exact absurd (isdigit_of_number hmem) (by decide)

end Keys

/-! ## Looking a key up -/

section Lookup

variable {items : List (Bytes × Bytes)} {k v : Bytes}

/-- A value that is the only one of its key is found. -/
theorem find?_pairs (hread : ∀ p ∈ items, Readable p) (hmem : (k, v) ∈ items)
    (hunique : ∀ p ∈ items, p.1 = k → p.2 = v) : (pairs (serialize_kv items)).find? k = some v := by
  rw [pairs_serialize (List.ne_nil_of_mem hmem) hread, UMap.find?_foldl_set]
  cases hlast : items.reverse.find? fun p => p.1 = k with
  | none => exact absurd (decide_eq_true rfl) (List.find?_eq_none.mp hlast (k, v) (List.mem_reverse.mpr hmem))
  | some p =>
    have hp : p ∈ items := List.mem_reverse.mp (List.mem_of_find?_eq_some hlast)
    have hpk : p.1 = k := by simpa using List.find?_some hlast
    exact congrArg some (hunique p hp hpk)

/-- Where each key stands once, every value is found. -/
theorem find?_pairs_of_nodup (hread : ∀ p ∈ items, Readable p) (honce : (items.map Prod.fst).Nodup) :
    ∀ p ∈ items, (pairs (serialize_kv items)).find? p.1 = some p.2 := fun _p hp =>
  find?_pairs hread hp fun _q hq hkey => congrArg Prod.snd (List.inj_on_of_nodup_map honce hq hp hkey)

/-- A key that no item has is not found. -/
theorem find?_pairs_none (hread : ∀ p ∈ items, Readable p) (hne : items ≠ []) (hno : ∀ p ∈ items, p.1 ≠ k) :
    (pairs (serialize_kv items)).find? k = none := by
  rw [pairs_serialize hne hread, UMap.find?_foldl_set]
  have hnone : (items.reverse.find? fun p => p.1 = k) = none := by
    rw [List.find?_eq_none]
    intro p hp
    simpa using hno p (List.mem_reverse.mp hp)
  rw [hnone]
  rfl

end Lookup

/-! ## Lists of things -/

/-- The fields of one thing: names that can be numbered, each once, and values without `&`. -/
structure Listable (fields : List (String × Bytes)) : Prop where
  worded : ∀ f ∈ fields, Worded f.1
  once : (fields.map fun f => str f.1).Nodup
  plain : ∀ f ∈ fields, 38 ∉ f.2

/-- The items of a thing. -/
def numbered (fields : List (String × Bytes)) (i : Nat) : List (Bytes × Bytes) :=
  fields.map fun f => (key f.1 i, f.2)

/-- The items of a list of things, numbered from 0. -/
def numbered_items (things : List (List (String × Bytes))) : List (Bytes × Bytes) :=
  (things.zipIdx.map fun t => numbered t.1 t.2).flatten

/-- The head of a listing payload: keys without numbers, each once. -/
structure Heading (head : List (Bytes × Bytes)) : Prop where
  readable : ∀ p ∈ head, Readable p
  unnumbered : ∀ p ∈ head, ∀ c ∈ p.1.getLast?, isdigit c = false
  once : (head.map Prod.fst).Nodup

section Lists

variable {head : List (Bytes × Bytes)} {things : List (List (String × Bytes))}

theorem mem_numbered_items {p : Bytes × Bytes} : p ∈ numbered_items things ↔
    ∃ i fields, things[i]? = some fields ∧ ∃ f ∈ fields, p = (key f.1 i, f.2) := by
  rw [numbered_items, List.mem_flatten]
  constructor
  · rintro ⟨_, hl, hp⟩
    obtain ⟨⟨fields, i⟩, ht, rfl⟩ := List.mem_map.mp hl
    obtain ⟨f, hf, rfl⟩ := List.mem_map.mp hp
    exact ⟨i, fields, List.mem_zipIdx_iff_getElem?.mp ht, f, hf, rfl⟩
  · rintro ⟨i, fields, hi, f, hf, rfl⟩
    refine ⟨numbered fields i, List.mem_map.mpr ⟨(fields, i), ?_, rfl⟩, List.mem_map.mpr ⟨f, hf, rfl⟩⟩
    exact List.mem_zipIdx_iff_getElem?.mpr hi

theorem readable_numbered (hthings : ∀ fields ∈ things, Listable fields) :
    ∀ p ∈ numbered_items things, Readable p := by
  intro p hp
  obtain ⟨i, fields, hi, f, hf, rfl⟩ := mem_numbered_items.mp hp
  have hlist := hthings fields (List.mem_of_getElem? hi)
  obtain ⟨heq, hamp⟩ := key_plain (hlist.worded f hf) i
  exact ⟨heq, hamp, hlist.plain f hf⟩

theorem readable_items (hhead : Heading head) (hthings : ∀ fields ∈ things, Listable fields) :
    ∀ p ∈ head ++ numbered_items things, Readable p := by
  intro p hp
  rcases List.mem_append.mp hp with hp | hp
  · exact hhead.readable p hp
  · exact readable_numbered hthings p hp

/-- A field of the heading is found. -/
theorem find?_heading (hhead : Heading head) (hthings : ∀ fields ∈ things, Listable fields) {k v : Bytes}
    (hmem : (k, v) ∈ head) : (pairs (serialize_kv (head ++ numbered_items things))).find? k = some v := by
  refine find?_pairs (readable_items hhead hthings) (List.mem_append_left _ hmem) fun p hp hpk => ?_
  rcases List.mem_append.mp hp with hp | hp
  · exact congrArg Prod.snd (List.inj_on_of_nodup_map hhead.once hp hmem hpk)
  · obtain ⟨i, fields, -, f, -, rfl⟩ := mem_numbered_items.mp hp
    exact absurd hpk.symm (key_ne (hhead.unnumbered _ hmem) f.1 i)

/-- A field of the `i`-th thing is found under its number, whatever else stands before and after the things
under other keys. -/
theorem find?_numbered_among (before after : List (Bytes × Bytes)) (hthings : ∀ fields ∈ things, Listable fields)
    {i : Nat} {fields : List (String × Bytes)} (hi : things[i]? = some fields) {name : String} {v : Bytes}
    (hmem : (name, v) ∈ fields) (hothers : ∀ p ∈ before ++ after, Readable p ∧ p.1 ≠ key name i) :
    (pairs (serialize_kv (before ++ numbered_items things ++ after))).find? (key name i) = some v := by
  have hitem : (key name i, v) ∈ numbered_items things :=
    mem_numbered_items.mpr ⟨i, fields, hi, (name, v), hmem, rfl⟩
  have hlist := hthings fields (List.mem_of_getElem? hi)
  -- a part of the payload is one of the others or belongs to a thing
  have hsplit : ∀ p ∈ before ++ numbered_items things ++ after, p ∈ before ++ after ∨ p ∈ numbered_items things := by
    intro p hp
    rw [List.mem_append, List.mem_append] at hp
    rw [List.mem_append]
    tauto
  refine find?_pairs (fun p hp => ?_) (List.mem_append_left _ (List.mem_append_right _ hitem)) fun p hp hpk => ?_
  · rcases hsplit p hp with hp | hp
    · exact (hothers p hp).1
    · exact readable_numbered hthings p hp
  · rcases hsplit p hp with hp | hp
    · exact absurd hpk (hothers p hp).2
    · obtain ⟨j, fields', hj, f, hf, rfl⟩ := mem_numbered_items.mp hp
      have hworded := (hthings fields' (List.mem_of_getElem? hj)).worded f hf
      obtain ⟨hname, rfl⟩ := key_injective hworded (hlist.worded _ hmem) hpk
      have hfields : fields' = fields := Option.some.inj (hj.symm.trans hi)
      subst hfields
      exact congrArg Prod.snd (List.inj_on_of_nodup_map hlist.once hf hmem hname)

/-- **A field of the `i`-th thing is found** under its number. -/
theorem find?_numbered (hhead : Heading head) (hthings : ∀ fields ∈ things, Listable fields) {i : Nat}
    {fields : List (String × Bytes)} (hi : things[i]? = some fields) {name : String} {v : Bytes}
    (hmem : (name, v) ∈ fields) :
    (pairs (serialize_kv (head ++ numbered_items things))).find? (key name i) = some v := by
  have hfound := find?_numbered_among head [] hthings hi hmem fun p hp => by
    rw [List.append_nil] at hp
    exact ⟨hhead.readable p hp, key_ne (hhead.unnumbered p hp) name i⟩
  rwa [List.append_nil] at hfound

/-- Fields of other names stand under other keys. -/
theorem numbered_others (hthings : ∀ fields ∈ things, Listable fields) {name : String} (hname : Worded name)
    (hno : ∀ fields ∈ things, ∀ f ∈ fields, str f.1 ≠ str name) (i : Nat) :
    ∀ p ∈ numbered_items things, Readable p ∧ p.1 ≠ key name i := by
  intro p hp
  refine ⟨readable_numbered hthings p hp, fun hpk => ?_⟩
  obtain ⟨j, fields, hj, f, hf, rfl⟩ := mem_numbered_items.mp hp
  have hmem := List.mem_of_getElem? hj
  obtain ⟨hsame, rfl⟩ := key_injective ((hthings fields hmem).worded f hf) hname hpk
  exact hno fields hmem f hf hsame

end Lists

/-- The heading of a list. -/
theorem heading_count (n : Nat) : Heading [(str "count", to_string n)] where
  readable p hp := by
    rw [List.mem_singleton.mp hp]
    exact readable_number (by decide) n
  unnumbered p hp c hc := by
    rw [List.mem_singleton.mp hp] at hc
    have hlast : c = 116 := (Option.some.inj hc).symm
    rw [hlast]
    decide
  once := List.nodup_singleton _

/-- A loop over the indices of a list. -/
theorem filterMap_range {α : Type} {n : Nat} {f : Nat → Option α} {xs : List α}
    (h : ∀ i < n, f i = xs[i]?) : (List.range n).filterMap f = xs.take n := by
  induction n with
  | zero => rfl
  | succ n ih =>
    rw [List.range_succ, List.filterMap_append, ih fun i hi => h i (by omega), List.take_add_one,
      List.filterMap_cons, h n (by omega)]
    cases xs[n]? <;> rfl

/-- A loop over the indices of a list that looks each entry up. -/
theorem filterMap_range_of {α β : Type} {f : Nat → Option β} {g : α → Option β} {xs : List α}
    (h : ∀ i x, xs[i]? = some x → f i = g x) : (List.range xs.length).filterMap f = xs.filterMap g := by
  have hall : (List.range xs.length).filterMap (fun i => xs[i]?) = xs.take xs.length := filterMap_range fun _ _ => rfl
  calc (List.range xs.length).filterMap f
      = (List.range xs.length).filterMap fun i => xs[i]?.bind g := by
        refine List.filterMap_congr fun i hi => ?_
        have hget := List.getElem?_eq_getElem (List.mem_range.mp hi)
        rw [hget, Option.bind_some]
        exact h i _ hget
    _ = ((List.range xs.length).filterMap fun i => xs[i]?).filterMap g := List.filterMap_filterMap.symm
    _ = xs.filterMap g := by rw [hall, List.take_length]

/-! ## Messages -/

section Messages

variable {text : Bytes} (htext : 38 ∉ text) (gid senderId timestamp : Int)
include htext

theorem readable_direct_message : ∀ p ∈ [(str "senderId", to_string senderId), (str "message", text),
    (str "timestamp", to_string timestamp)], Readable p := by
  intro p hp
  simp only [List.mem_cons, List.not_mem_nil, or_false] at hp
  rcases hp with rfl | rfl | rfl
  · exact readable_number (by decide) senderId
  · exact readable_text (by decide) htext
  · exact readable_number (by decide) timestamp

/-- The values of a direct message. -/
theorem direct_values :
    let kv := pairs (serialize_kv [(str "senderId", to_string senderId), (str "message", text),
      (str "timestamp", to_string timestamp)])
    kv.find? (str "senderId") = some (to_string senderId) ∧ kv.find? (str "message") = some text ∧
      kv.find? (str "timestamp") = some (to_string timestamp) := by
  intro kv
  have honce : [str "senderId", str "message", str "timestamp"].Nodup := by decide
  have hvalues := find?_pairs_of_nodup (readable_direct_message htext senderId timestamp) honce
  simp only [List.forall_mem_cons] at hvalues
  exact ⟨hvalues.1, hvalues.2.1, hvalues.2.2.1⟩

theorem readable_group_message : ∀ p ∈ [(str "groupId", to_string gid), (str "senderId", to_string senderId),
    (str "message", text), (str "timestamp", to_string timestamp)], Readable p := by
  intro p hp
  simp only [List.mem_cons, List.not_mem_nil, or_false] at hp
  rcases hp with rfl | rfl | rfl | rfl
  · exact readable_number (by decide) gid
  · exact readable_number (by decide) senderId
  · exact readable_text (by decide) htext
  · exact readable_number (by decide) timestamp

/-- The values of a group message. -/
theorem group_values :
    let kv := pairs (serialize_kv [(str "groupId", to_string gid), (str "senderId", to_string senderId),
      (str "message", text), (str "timestamp", to_string timestamp)])
    kv.find? (str "groupId") = some (to_string gid) ∧ kv.find? (str "senderId") = some (to_string senderId) ∧
      kv.find? (str "message") = some text ∧ kv.find? (str "timestamp") = some (to_string timestamp) := by
  intro kv
  have honce : [str "groupId", str "senderId", str "message", str "timestamp"].Nodup := by decide
  have hvalues := find?_pairs_of_nodup (readable_group_message htext gid senderId timestamp) honce
  simp only [List.forall_mem_cons] at hvalues
  exact ⟨hvalues.1, hvalues.2.1, hvalues.2.2.1, hvalues.2.2.2.1⟩

/-- A group message does not name its sender twice. -/
theorem group_values_fromUserId :
    (pairs (serialize_kv [(str "groupId", to_string gid), (str "senderId", to_string senderId),
      (str "message", text), (str "timestamp", to_string timestamp)])).find? (str "fromUserId") = none := by
  have hothers : ∀ k ∈ [str "groupId", str "senderId", str "message", str "timestamp"], k ≠ str "fromUserId" := by
    decide
  refine find?_pairs_none (readable_group_message htext gid senderId timestamp) (List.cons_ne_nil _ _) fun p hp => ?_
  exact hothers p.1 (List.mem_map_of_mem hp)

end Messages

end ChatApp
