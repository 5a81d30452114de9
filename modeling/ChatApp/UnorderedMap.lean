/-
`UnorderedMap.lean` -- `std::unordered_map`, on Mathlib's association lists.

An `AList` carries the proof that its keys are distinct, so a map with two entries
for one key cannot be built. The order of its entries stands for the container's
iteration order, which the standard leaves unspecified.

The one operation Mathlib has no counterpart of is C++'s `operator[]`: on a missing
key it inserts the default value and returns a reference to it. It is split here
into what it reads (`get`) and what it leaves behind (`touch`, `update`).
-/
import Mathlib.Data.List.AList

set_option autoImplicit false

namespace ChatApp

/-- `std::unordered_map<K, V>`. -/
def UMap (K V : Type) : Type := AList fun _ : K => V

namespace UMap

variable {K V : Type} [DecidableEq K]

/-! ## Operations -/

instance : EmptyCollection (UMap K V) := ⟨(∅ : AList fun _ : K => V)⟩

instance : Inhabited (UMap K V) := ⟨∅⟩

instance [DecidableEq V] : DecidableEq (UMap K V) :=
  inferInstanceAs (DecidableEq (AList fun _ : K => V))

/-- `m.find(k)`: the value stored under `k`, if there is one. -/
def find? (m : UMap K V) (k : K) : Option V := AList.lookup k m

/-- `m.count(k)`. -/
def count (m : UMap K V) (k : K) : Bool := (m.find? k).isSome

/-- `m[k] = v`. -/
def set (m : UMap K V) (k : K) (v : V) : UMap K V := AList.insert k v m

/-- `m.erase(k)`. -/
def erase (m : UMap K V) (k : K) : UMap K V := AList.erase k m

/-- The entries, in iteration order. -/
def toList (m : UMap K V) : List (K × V) := m.entries.map fun e => (e.1, e.2)

/-- The keys, in iteration order. -/
def keys (m : UMap K V) : List K := m.toList.map Prod.fst

/-- The value `m[k]` reads: the stored one, or the default. -/
def get [Inhabited V] (m : UMap K V) (k : K) : V := (m.find? k).getD default

/-- The map after `m[k]` was evaluated: a missing key now has the default value. -/
def touch [Inhabited V] (m : UMap K V) (k : K) : UMap K V :=
  if m.count k then m else m.set k default

/-- `m[k] = f(m[k])`, which is also what a mutation through the reference `m[k]`
leaves behind. -/
def update [Inhabited V] (m : UMap K V) (k : K) (f : V → V) : UMap K V := m.set k (f (m.get k))

/-- A mutation through the iterator `m.find(k)`, made only if it found the key. -/
def adjust (m : UMap K V) (k : K) (f : V → V) : UMap K V :=
  match m.find? k with
  | some v => m.set k (f v)
  | none => m

/-- `std::erase_if`: the entries of which `p` is true go. -/
def erase_if (m : UMap K V) (p : K → V → Bool) : UMap K V where
  entries := m.entries.filter fun e => !p e.1 e.2
  nodupKeys := List.NodupKeys.sublist List.filter_sublist m.nodupKeys

/-- `m.empty()`. -/
def empty (m : UMap K V) : Bool := m.toList.isEmpty

/-- `m.size()`. -/
def size (m : UMap K V) : Nat := m.entries.length

/-! ## Lookups after each operation -/

@[simp] theorem find?_empty (k : K) : (∅ : UMap K V).find? k = none := AList.lookup_empty k

@[simp] theorem find?_set (m : UMap K V) (k k' : K) (v : V) :
    (m.set k v).find? k' = if k' = k then some v else m.find? k' := by
  split
  · next h => rw [h]; exact AList.lookup_insert m
  · next h => exact AList.lookup_insert_ne h

@[simp] theorem find?_erase (m : UMap K V) (k k' : K) :
    (m.erase k).find? k' = if k' = k then none else m.find? k' := by
  split
  · next h => rw [h]; exact AList.lookup_erase k m
  · next h => exact AList.lookup_erase_ne h

@[simp] theorem find?_adjust (m : UMap K V) (k k' : K) (f : V → V) :
    (m.adjust k f).find? k' = if k' = k then (m.find? k).map f else m.find? k' := by
  unfold adjust
  split
  · next v hk => rw [find?_set, hk]; rfl
  · next hk =>
    split
    · next h => rw [h, hk]; rfl
    · rfl

/-- On a key that is there, `m[k] = f(m[k])` does what the iterator does. -/
theorem update_of_count [Inhabited V] {m : UMap K V} {k : K} (f : V → V) (h : m.count k = true) :
    m.update k f = m.adjust k f := by
  obtain ⟨v, hv⟩ := Option.isSome_iff_exists.mp h
  rw [update, adjust, get, hv]
  rfl

/-- Values entered one after the other: the last one of a key is found. -/
theorem find?_foldl_set {ι : Type} (key : ι → K) (value : ι → V) (xs : List ι) (m : UMap K V) (k : K) :
    (xs.foldl (fun m x => m.set (key x) (value x)) m).find? k =
      ((xs.reverse.find? fun x => key x = k).map value).or (m.find? k) := by
  induction xs generalizing m with
  | nil => rfl
  | cons x xs ih =>
    rw [List.foldl_cons, ih, find?_set, List.reverse_cons, List.find?_append, Option.map_or,
      Option.or_assoc]
    refine congrArg _ ?_
    by_cases hk : key x = k
    · simp [hk]
    · simp [hk, Ne.symm hk]

/-- Erasing a key that is not there changes nothing. -/
theorem erase_of_absent {m : UMap K V} {k : K} (h : m.find? k = none) : m.erase k = m :=
  AList.ext (List.kerase_of_notMem_keys (AList.lookup_eq_none.mp h))

omit [DecidableEq K] in
@[simp] theorem size_empty : (∅ : UMap K V).size = 0 := rfl

/-- A new key makes the map larger by one. -/
theorem size_set_of_absent {m : UMap K V} {k : K} (v : V) (h : m.find? k = none) :
    (m.set k v).size = m.size + 1 := by
  have herase : m.entries.kerase k = m.entries :=
    List.kerase_of_notMem_keys (AList.lookup_eq_none.mp h)
  have hentries : (m.set k v).entries = ⟨k, v⟩ :: m.entries := congrArg (List.cons _) herase
  rw [size, hentries, List.length_cons, size]

theorem count_iff (m : UMap K V) (k : K) : m.count k = true ↔ ∃ v, m.find? k = some v := by
  rw [count, Option.isSome_iff_exists]

theorem mem_toList (m : UMap K V) (k : K) (v : V) :
    (k, v) ∈ m.toList ↔ m.find? k = some v := by
  have hm : m.find? k = some v ↔ Sigma.mk k v ∈ m.entries := AList.mem_lookup_iff
  rw [hm, toList, List.mem_map]
  constructor
  · rintro ⟨⟨k', v'⟩, he, heq⟩
    obtain ⟨rfl, rfl⟩ := Prod.mk.injEq .. ▸ heq
    exact he
  · exact fun he => ⟨_, he, rfl⟩

@[simp] theorem find?_erase_if (m : UMap K V) (p : K → V → Bool) (k : K) :
    (m.erase_if p).find? k = (m.find? k).filter fun v => !p k v := by
  ext v
  rw [← mem_toList, Option.filter_eq_some_iff, ← mem_toList]
  simp only [toList, erase_if, List.mem_map, List.mem_filter, Prod.mk.injEq]
  constructor
  · rintro ⟨e, ⟨he, hp⟩, rfl, rfl⟩
    exact ⟨⟨e, he, rfl, rfl⟩, hp⟩
  · rintro ⟨⟨e, he, rfl, rfl⟩, hp⟩
    exact ⟨e, ⟨he, hp⟩, rfl, rfl⟩

theorem mem_keys (m : UMap K V) (k : K) : k ∈ m.keys ↔ ∃ v, m.find? k = some v := by
  simp only [keys, List.mem_map, Prod.exists, mem_toList, exists_and_right, exists_eq_right]

/-- A map is empty when no key is found in it. -/
theorem empty_iff (m : UMap K V) : m.empty = true ↔ ∀ k, m.find? k = none := by
  rw [empty, List.isEmpty_iff]
  constructor
  · intro h k
    by_contra hk
    obtain ⟨v, hv⟩ := Option.ne_none_iff_exists'.mp hk
    have hmem := (m.mem_toList k v).mpr hv
    rw [h] at hmem
    exact absurd hmem (List.not_mem_nil)
  · intro h
    refine List.eq_nil_iff_forall_not_mem.mpr fun e he => ?_
    have hv := (m.mem_toList e.1 e.2).mp he
    rw [h] at hv
    exact absurd hv (by simp)

omit [DecidableEq K] in
/-- An iteration visits each key once. -/
theorem keys_nodup (m : UMap K V) : m.keys.Nodup := by
  have h : m.keys = AList.keys m := by
    simp only [keys, toList, List.map_map, AList.keys, List.keys]
    rfl
  rw [h]
  exact AList.keys_nodup m

section Default

variable [Inhabited V]

@[simp] theorem get_empty (k : K) : (∅ : UMap K V).get k = default := rfl

@[simp] theorem get_set (m : UMap K V) (k k' : K) (v : V) :
    (m.set k v).get k' = if k' = k then v else m.get k' := by
  simp only [get, find?_set]
  split <;> rfl

@[simp] theorem get_erase (m : UMap K V) (k k' : K) :
    (m.erase k).get k' = if k' = k then default else m.get k' := by
  simp only [get, find?_erase]
  split <;> rfl

/-- `m[k]` changes no value that a later `m[k']` reads: it only adds defaults. -/
@[simp] theorem get_touch (m : UMap K V) (k k' : K) : (m.touch k).get k' = m.get k' := by
  unfold touch
  split
  · rfl
  · next h =>
    have hk : m.find? k = none := by simpa [count] using h
    rw [get_set]
    split
    · next he => rw [he, get, hk]; rfl
    · rfl

@[simp] theorem get_update (m : UMap K V) (k k' : K) (f : V → V) :
    (m.update k f).get k' = if k' = k then f (m.get k) else m.get k' := get_set ..

theorem find?_touch (m : UMap K V) (k k' : K) :
    (m.touch k).find? k' = if k' = k then some (m.get k) else m.find? k' := by
  unfold touch
  split
  · next h =>
    obtain ⟨v, hv⟩ := (m.count_iff k).mp h
    split
    · next he => rw [he, get, hv]; rfl
    · rfl
  · next h =>
    have hk : m.find? k = none := by simpa [count] using h
    rw [find?_set, get, hk]
    rfl

theorem get_of_find? {m : UMap K V} {k : K} {v : V} (h : m.find? k = some v) : m.get k = v := by
  rw [get, h]; rfl

end Default

end UMap

end ChatApp
