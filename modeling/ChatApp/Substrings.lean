/-
`Substrings.lean` -- cutting strings at delimiters, and what is found between two of them.

`split` and `delete` work from the left, as the string functions of most languages do: each occurrence of the delimiter
is looked for behind the one before. When a delimiter may overlap itself, an occurrence inside a longer text need not
be the one that is meant; `borders` are the overlaps that are possible.

`between_iff` is the result: what `between` reads behind one delimiter and before another is the text that was put
there exactly if neither delimiter stands where it should not.
-/
import Mathlib.Data.List.DropRight
import Mathlib.Data.List.Infix

set_option autoImplicit false

namespace ChatApp.Substrings

variable {α β : Type}

/-! ## The end of a delimiter -/

section Ends

variable {d a r : List α}

theorem not_infix_dropLast (hd : d ≠ []) : ¬d <:+: d.dropLast := by
  intro h
  have hle := h.length_le
  have hpos := List.length_pos_iff.mpr hd
  rw [List.length_dropLast] at hle
  omega

/-- A delimiter that starts before the end of what is before it is seen without its last character. -/
theorem prefix_append_dropLast (ha : a ≠ []) (h : d <+: a ++ d ++ r) : d <+: a ++ d.dropLast := by
  by_cases hd : d = []
  · rw [hd]
    exact List.nil_prefix
  have hsplit : a ++ d ++ r = a ++ d.dropLast ++ (d.getLast hd :: r) := by
    rw [List.append_assoc, List.append_assoc, ← List.singleton_append, ← List.append_assoc d.dropLast,
      List.dropLast_append_getLast]
  refine List.prefix_of_prefix_length_le h (hsplit ▸ List.prefix_append _ _) ?_
  have hpos := List.length_pos_iff.mpr ha
  rw [List.length_append, List.length_dropLast]
  omega

end Ends

/-! ## Blanks and case -/

/-- The string without the blanks at its ends. -/
def trim (blank : α → Bool) (s : List α) : List α := (s.dropWhile blank).rdropWhile blank

/-- Two strings whose characters are alike, one by one. -/
def equals (alike : α → α → Bool) : List α → List α → Bool
  | [], [] => true
  | x :: s, y :: t => alike x y && equals alike s t
  | _, _ => false

section Trim

variable {blank : α → Bool} {alike : α → α → Bool} {s t c : List α}

theorem equals_refl (h : ∀ x, alike x x = true) (s : List α) : equals alike s s = true := by
  induction s with
  | nil => rfl
  | cons x s ih => rw [equals, h x, ih]; rfl

/-- Strings that are equal in this sense have their blanks at the same places, and are as long. -/
theorem map_blank_of_equals (h : ∀ x y, alike x y = true → blank x = blank y) (heq : equals alike s t = true) :
    s.map blank = t.map blank := by
  fun_induction equals alike s t with
  | case1 => rfl
  | case2 x s y t ih =>
    obtain ⟨hxy, hrest⟩ := Bool.and_eq_true_iff.mp heq
    rw [List.map_cons, List.map_cons, h x y hxy, ih hrest]
  | case3 => cases heq

theorem length_eq_of_equals (heq : equals alike s t = true) : s.length = t.length := by
  fun_induction equals alike s t with
  | case1 => rfl
  | case2 x s y t ih =>
    rw [List.length_cons, List.length_cons, ih (Bool.and_eq_true_iff.mp heq).2]
  | case3 => cases heq

theorem length_trim_le : (trim blank s).length ≤ s.length :=
  (List.rdropWhile_prefix blank _).length_le.trans (List.dropWhile_suffix blank).length_le

/-- A string is trimmed if there is no blank at its ends. -/
theorem trim_eq_self_iff :
    trim blank s = s ↔ (s.map blank).head? ≠ some true ∧ (s.map blank).getLast? ≠ some true := by
  have hhead : s.dropWhile blank = s ↔ (s.map blank).head? ≠ some true := by
    cases s with
    | nil => simp
    | cons x s => rw [List.dropWhile_eq_self_iff]; simp
  have hlast : s.rdropWhile blank = s ↔ (s.map blank).getLast? ≠ some true := by
    rw [List.rdropWhile_eq_self_iff, List.getLast?_map]
    by_cases hs : s = []
    · simp [hs]
    · rw [List.getLast?_eq_some_getLast hs]
      simp [hs]
  rw [← hhead, ← hlast]
  constructor
  · intro h
    have hle : s.length ≤ (s.dropWhile blank).length := by
      have hlength := congrArg List.length h
      rw [trim] at hlength
      exact hlength ▸ (List.rdropWhile_prefix blank _).length_le
    have hdrop := (List.dropWhile_suffix blank).eq_of_length_le hle
    refine ⟨hdrop, ?_⟩
    rw [trim, hdrop] at h
    exact h
  · rintro ⟨hdrop, hrdrop⟩
    rw [trim, hdrop, hrdrop]

theorem trim_trim : trim blank (trim blank s) = trim blank s := by
  have hdrop : (trim blank s).dropWhile blank = trim blank s := by
    obtain ⟨rest, hrest⟩ := List.rdropWhile_prefix blank (s.dropWhile blank)
    rw [trim]
    cases htrim : (s.dropWhile blank).rdropWhile blank with
    | nil => rfl
    | cons x t =>
      rw [htrim] at hrest
      have hx := List.head?_dropWhile_not blank s
      rw [← hrest] at hx
      rw [List.dropWhile_cons_of_neg (by simpa using hx)]
  nth_rewrite 1 [trim]
  rw [hdrop, trim, List.rdropWhile_idempotent]

/-- **A name that equals what was trimmed is trimmed itself.** -/
theorem trim_of_equals (h : ∀ x y, alike x y = true → blank x = blank y)
    (heq : equals alike t (trim blank s) = true) : trim blank t = t := by
  rw [trim_eq_self_iff, map_blank_of_equals h heq, ← trim_eq_self_iff]
  exact trim_trim

/-- What stands before a trimmed string and does not start with a blank is not trimmed away. -/
theorem length_lt_trim_append (hc : ∃ x ∈ c.head?, blank x = false) (ht : trim blank t = t) :
    t.length < (trim blank (c ++ t)).length := by
  obtain ⟨x, hx, hblank⟩ := hc
  obtain ⟨c, rfl⟩ : ∃ c', c = x :: c' := ⟨_, List.eq_cons_of_mem_head? hx⟩
  have hdrop : (x :: c ++ t).dropWhile blank = x :: c ++ t :=
    List.dropWhile_cons_of_neg (by rw [hblank]; decide)
  rw [trim, hdrop]
  by_cases ht' : t = []
  · rw [ht', List.length_nil, List.length_pos_iff, ne_eq, List.rdropWhile_eq_nil_iff]
    intro hall
    have hx' := hall x (by simp)
    rw [hblank] at hx'
    cases hx'
  · have hlast := (trim_eq_self_iff.mp ht).2
    have hkeep : (x :: c ++ t).rdropWhile blank = x :: c ++ t := by
      rw [List.rdropWhile_eq_self_iff]
      intro _
      rw [List.getLast_append_of_ne_nil _ ht']
      rw [List.getLast?_map, List.getLast?_eq_some_getLast ht'] at hlast
      simpa using hlast
    rw [hkeep]
    simp only [List.length_append, List.length_cons]
    omega

end Trim

/-! ## Cutting -/

variable [DecidableEq α] [DecidableEq β]

/-- What stands before the first occurrence of `d`, and what stands behind it. -/
def cut (d : List α) : List α → Option (List α × List α)
  | [] => if d = [] then some ([], []) else none
  | x :: s => if d <+: x :: s then some ([], (x :: s).drop d.length) else (cut d s).map fun p => (x :: p.1, p.2)

/-- `split`, with at most that many cuts. -/
def split_within (d : List α) : ℕ → List α → List (List α)
  | 0, s => [s]
  | n + 1, s =>
    match cut d s with
    | none => [s]
    | some (p, q) => p :: split_within d n q

/-- The pieces between the occurrences of `d`. A string has no more cuts than characters. -/
def split (d s : List α) : List (List α) := split_within d s.length s

/-- The string without the occurrences of `d`. -/
def delete (d s : List α) : List α := (split d s).flatten

/-- The proper overlaps of `d` with itself. -/
def borders (d : List α) : List (List α) := d.tails.filter fun b => b ≠ [] ∧ b ≠ d ∧ b <+: d

section Cut

variable {d e s p q a r x b : List α}

theorem mem_borders : b ∈ borders d ↔ b <:+ d ∧ b ≠ [] ∧ b ≠ d ∧ b <+: d := by
  rw [borders, List.mem_filter, List.mem_tails, decide_eq_true_iff]

/-- An injective change of the alphabet changes the borders alike. -/
theorem exists_of_mem_borders_map {f : α → β} {b : List β} (hf : Function.Injective f)
    (h : b ∈ borders (d.map f)) : ∃ b₀ ∈ borders d, b = b₀.map f := by
  obtain ⟨hsuffix, hne, hproper, hprefix⟩ := mem_borders.mp h
  obtain ⟨b₀, hb₀, rfl⟩ := List.suffix_map_iff.mp hsuffix
  refine ⟨b₀, mem_borders.mpr ⟨hb₀, ?_, ?_, ?_⟩, rfl⟩
  · rintro rfl
    exact hne rfl
  · rintro rfl
    exact hproper rfl
  · exact (List.prefix_map_iff_of_injective hf).mp hprefix

theorem cut_eq_none_iff : cut d s = none ↔ ¬d <:+: s := by
  induction s with
  | nil => simp [cut]
  | cons x s ih =>
    rw [cut, List.infix_cons_iff, not_or, ← ih]
    by_cases h : d <+: x :: s
    · simp [h]
    · simp [h]

/-- The occurrence that `cut` finds is the first. -/
theorem cut_spec (hd : d ≠ []) (h : cut d s = some (p, q)) : s = p ++ d ++ q ∧ ¬d <:+: p ++ d.dropLast := by
  induction s generalizing p with
  | nil =>
    rw [cut, if_neg hd] at h
    cases h
  | cons x s ih =>
    rw [cut] at h
    by_cases hprefix : d <+: x :: s
    · rw [if_pos hprefix] at h
      cases h
      refine ⟨?_, not_infix_dropLast hd⟩
      obtain ⟨rest, hrest⟩ := hprefix
      rw [← hrest, List.drop_left, List.nil_append]
    · rw [if_neg hprefix] at h
      obtain ⟨⟨p', q'⟩, hcut, heq⟩ := Option.map_eq_some_iff.mp h
      cases heq
      obtain ⟨rfl, hfirst⟩ := ih hcut
      refine ⟨rfl, ?_⟩
      rw [List.cons_append, List.infix_cons_iff, not_or]
      refine ⟨fun h => hprefix (h.trans ?_), hfirst⟩
      refine List.cons_prefix_cons.mpr ⟨rfl, ?_⟩
      rw [List.append_assoc]
      exact (List.prefix_append_right_inj _).mpr ((List.dropLast_prefix d).trans (List.prefix_append _ _))

/-- A cut at an occurrence that is the first. -/
theorem cut_append (hd : d ≠ []) (h : ¬d <:+: a ++ d.dropLast) : cut d (a ++ d ++ r) = some (a, r) := by
  induction a with
  | nil =>
    obtain ⟨x, d', rfl⟩ := List.exists_cons_of_ne_nil hd
    have hprefix : x :: d' <+: x :: (d' ++ r) := List.prefix_append (x :: d') r
    rw [List.nil_append, List.cons_append, cut, if_pos hprefix]
    simp
  | cons x a ih =>
    rw [List.cons_append, List.infix_cons_iff, not_or] at h
    have hno : ¬d <+: x :: (a ++ d ++ r) := fun hprefix =>
      h.1 (prefix_append_dropLast (a := x :: a) (List.cons_ne_nil x a) hprefix)
    rw [List.cons_append, List.cons_append, cut, if_neg hno, ih h.2]
    rfl

/-- **Two occurrences.** The later one stands behind the earlier one, or they overlap. -/
theorem occurrences (h : p ++ d ++ q = a ++ d ++ r) (hlt : p.length < a.length) :
    (∃ w, a = p ++ d ++ w ∧ q = w ++ d ++ r) ∨ ∃ b ∈ borders d, ∃ c, d = b ++ c ∧ q = c ++ r := by
  -- what of `a` is behind `p`
  obtain ⟨w, rfl⟩ : p <+: a := by
    refine List.prefix_of_prefix_length_le (List.prefix_append p (d ++ q)) ?_ (Nat.le_of_lt hlt)
    rw [← List.append_assoc, h, List.append_assoc]
    exact List.prefix_append _ _
  have hw : w ≠ [] := by
    rintro rfl
    simp at hlt
  simp only [List.append_assoc, List.append_cancel_left_eq] at h
  rcases List.append_eq_append_iff.mp h with ⟨w', rfl, hq⟩ | ⟨b, hd, hbq⟩
  · exact .inl ⟨w', (List.append_assoc _ _ _).symm, hq ▸ (List.append_assoc _ _ _).symm⟩
  · by_cases hb : b = []
    · -- the later occurrence starts where the earlier one ends
      subst hb
      rw [List.append_nil] at hd
      subst hd
      exact .inl ⟨[], by simp, by simpa using hbq.symm⟩
    · right
      obtain ⟨c, hc⟩ : b <+: d := by
        have hprefix : b <+: d ++ r := hbq ▸ List.prefix_append _ _
        refine List.prefix_of_prefix_length_le hprefix (List.prefix_append _ _) ?_
        rw [hd, List.length_append]
        exact Nat.le_add_left _ _
      refine ⟨b, mem_borders.mpr ⟨⟨w, hd.symm⟩, hb, ?_, ⟨c, hc⟩⟩, c, hc.symm, ?_⟩
      · rintro rfl
        exact hw (by simpa using hd)
      · rw [← hc, List.append_assoc] at hbq
        exact (List.append_cancel_left hbq).symm

/-- The first occurrence comes before any other. -/
theorem length_le_of_cut (hd : d ≠ []) (h : cut d (a ++ d ++ r) = some (p, q)) : p.length ≤ a.length := by
  obtain ⟨heq, hfirst⟩ := cut_spec hd h
  by_contra hlt
  have hprefix : a ++ d <+: p ++ d.dropLast := by
    have hlater : a ++ d <+: p ++ d ++ q := heq ▸ List.prefix_append _ _
    refine List.prefix_of_prefix_length_le hlater ?_ ?_
    · rw [List.append_assoc]
      exact (List.prefix_append_right_inj _).mpr ((List.dropLast_prefix d).trans (List.prefix_append _ _))
    · have hpos := List.length_pos_iff.mpr hd
      rw [List.length_append, List.length_append, List.length_dropLast]
      omega
  exact hfirst ((List.suffix_append a d).isInfix.trans hprefix.isInfix)

end Cut

/-! ## Splitting and deleting -/

section Split

variable {d e s p q a r x : List α}

/-- More cuts than characters are not made. -/
theorem split_within_eq (hd : d ≠ []) {n m : ℕ} (hn : s.length ≤ n) (hm : s.length ≤ m) :
    split_within d n s = split_within d m s := by
  induction n generalizing s m with
  | zero =>
    obtain rfl := List.length_eq_zero_iff.mp (Nat.le_zero.mp hn)
    cases m with
    | zero => rfl
    | succ m => rw [split_within, split_within, cut, if_neg hd]
  | succ n ih =>
    cases m with
    | zero =>
      obtain rfl := List.length_eq_zero_iff.mp (Nat.le_zero.mp hm)
      rw [split_within, split_within, cut, if_neg hd]
    | succ m =>
      rw [split_within, split_within]
      cases hcut : cut d s with
      | none => rfl
      | some pq =>
        obtain ⟨p, q⟩ := pq
        obtain ⟨rfl, -⟩ := cut_spec hd hcut
        have hpos := List.length_pos_iff.mpr hd
        simp only [List.length_append] at hn hm
        exact congrArg (p :: ·) (ih (by omega) (by omega))

theorem split_of_absent (h : ¬d <:+: s) : split d s = [s] := by
  rw [split]
  cases s.length with
  | zero => rfl
  | succ n => rw [split_within, cut_eq_none_iff.mpr h]

theorem split_of_cut (hd : d ≠ []) (h : cut d s = some (p, q)) : split d s = p :: split d q := by
  obtain ⟨hs, -⟩ := cut_spec hd h
  have hpos := List.length_pos_iff.mpr hd
  have hlength : s.length = p.length + d.length + q.length := by
    rw [hs, List.length_append, List.length_append]
  obtain ⟨n, hn⟩ : ∃ n, s.length = n + 1 := ⟨s.length - 1, by omega⟩
  rw [split, hn, split_within, h]
  exact congrArg (p :: ·) (split_within_eq hd (by omega) le_rfl)

/-- A string has two pieces if there is one cut. -/
theorem split_eq_pair_iff (hd : d ≠ []) : split d s = [p, q] ↔ cut d s = some (p, q) ∧ ¬d <:+: q := by
  cases hcut : cut d s with
  | none => simp [split_of_absent (cut_eq_none_iff.mp hcut)]
  | some pq =>
    obtain ⟨p', q'⟩ := pq
    rw [split_of_cut hd hcut, List.cons_eq_cons, Option.some_inj, Prod.mk.injEq]
    by_cases hq : d <:+: q'
    · -- the rest is cut again
      obtain ⟨⟨p₂, q₂⟩, hcut₂⟩ := Option.ne_none_iff_exists'.mp (mt cut_eq_none_iff.mp (not_not.mpr hq))
      have hne : split d q' ≠ [q] := by
        rw [split_of_cut hd hcut₂]
        intro heq
        have hnil := (List.cons_eq_cons.mp heq).2
        rw [split] at hnil
        cases hlength : q₂.length with
        | zero => rw [hlength, split_within] at hnil; cases hnil
        | succ n => rw [hlength, split_within] at hnil; split at hnil <;> cases hnil
      refine iff_of_false (fun h => hne h.2) ?_
      rintro ⟨⟨-, rfl⟩, hno⟩
      exact hno hq
    · rw [split_of_absent hq, List.cons_eq_cons]
      constructor
      · rintro ⟨rfl, rfl, -⟩
        exact ⟨⟨rfl, rfl⟩, hq⟩
      · rintro ⟨⟨rfl, rfl⟩, -⟩
        exact ⟨rfl, rfl, rfl⟩

theorem delete_of_absent (h : ¬d <:+: s) : delete d s = s := by
  rw [delete, split_of_absent h, List.flatten_singleton]

theorem delete_of_cut (hd : d ≠ []) (h : cut d s = some (p, q)) : delete d s = p ++ delete d q := by
  rw [delete, split_of_cut hd h, List.flatten_cons]
  rfl

theorem length_delete_le (hd : d ≠ []) : (delete d s).length ≤ s.length := by
  induction hlength : s.length using Nat.strong_induction_on generalizing s with
  | _ n ih =>
    cases hcut : cut d s with
    | none => rw [delete_of_absent (cut_eq_none_iff.mp hcut), hlength]
    | some pq =>
      obtain ⟨p, q⟩ := pq
      obtain ⟨hs, -⟩ := cut_spec hd hcut
      have hpos := List.length_pos_iff.mpr hd
      rw [hs, List.length_append, List.length_append] at hlength
      have hrest := ih q.length (by omega) rfl
      rw [delete_of_cut hd hcut, List.length_append]
      omega

/-- **The delimiter at the end is deleted alone**, if there is no other. -/
theorem delete_at_end (he : e ≠ []) (hborders : borders e = []) (h : ¬e <:+: x) : delete e (x ++ e) = x := by
  have hfirst : ¬e <:+: x ++ e.dropLast := by
    rintro ⟨p, q, hpq⟩
    have heq : p ++ e ++ (q ++ [e.getLast he]) = x ++ e ++ [] := by
      rw [← List.append_assoc, hpq, List.append_nil, List.append_assoc, List.dropLast_append_getLast]
    have hlt : p.length < x.length := by
      have hlength := congrArg List.length heq
      have hpos := List.length_pos_iff.mpr he
      simp only [List.length_append, List.length_singleton, List.length_nil] at hlength
      omega
    rcases occurrences heq hlt with ⟨w, rfl, -⟩ | ⟨b, hb, -⟩
    · exact h ((List.suffix_append p e).isInfix.trans (List.prefix_append _ w).isInfix)
    · rw [hborders] at hb
      cases hb
  have hcut : cut e (x ++ e) = some (x, []) := by
    rw [← List.append_nil (x ++ e)]
    exact cut_append he hfirst
  rw [delete_of_cut he hcut, delete_of_absent (mt List.infix_nil.mp he), List.append_nil]

/-- **Two delimiters are deleted**, if there is one before that at the end. -/
theorem length_delete_two (he : e ≠ []) (h : e <:+: x) :
    (delete e (x ++ e)).length + 2 * e.length ≤ (x ++ e).length := by
  obtain ⟨u, v, rfl⟩ := h
  have hcut : cut e (u ++ e ++ (v ++ e)) ≠ none :=
    mt cut_eq_none_iff.mp (not_not.mpr ⟨u, v ++ e, rfl⟩)
  obtain ⟨⟨p, q⟩, hpq⟩ := Option.ne_none_iff_exists'.mp hcut
  obtain ⟨heq, -⟩ := cut_spec he hpq
  -- what is left contains the delimiter at the end
  have hq : e <:+: q := by
    have hle := length_le_of_cut he hpq
    have hsuffix : v ++ e <:+ q := by
      have hwhole : q <:+ u ++ e ++ (v ++ e) := heq ▸ List.suffix_append _ _
      refine List.suffix_of_suffix_length_le (List.suffix_append _ _) hwhole ?_
      have hlength := congrArg List.length heq
      simp only [List.length_append] at hlength ⊢
      omega
    exact (List.suffix_append v e).isInfix.trans hsuffix.isInfix
  obtain ⟨⟨p', q'⟩, hpq'⟩ := Option.ne_none_iff_exists'.mp (mt cut_eq_none_iff.mp (not_not.mpr hq))
  obtain ⟨heq', -⟩ := cut_spec he hpq'
  have hlength := congrArg List.length heq
  have hlength' := congrArg List.length heq'
  have hrest : (delete e q').length ≤ q'.length := length_delete_le he
  rw [List.append_assoc _ v e, delete_of_cut he hpq, delete_of_cut he hpq']
  simp only [List.length_append] at hlength hlength' ⊢
  omega

end Split

/-! ## Between two delimiters -/

section Between

variable (blank : α → Bool) (alike : α → α → Bool) {d e s t a n : List α}

/-- What stands behind `d` and before `e`, if `d` cuts the string once. -/
def between (d e s : List α) : Option (List α) :=
  match split d s with
  | [_, q] => some (trim blank (delete e q))
  | _ => none

theorem between_eq_some_iff (hd : d ≠ []) : between blank d e s = some n ↔
    ∃ p q, cut d s = some (p, q) ∧ ¬d <:+: q ∧ trim blank (delete e q) = n := by
  rw [between]
  split
  · next p q hsplit =>
    obtain ⟨hcut, hno⟩ := (split_eq_pair_iff hd).mp hsplit
    rw [Option.some_inj]
    constructor
    · exact fun h => ⟨p, q, hcut, hno, h⟩
    · rintro ⟨p', q', hcut', -, h⟩
      cases hcut.symm.trans hcut'
      exact h
  · next hpair =>
    refine iff_of_false (by simp) ?_
    rintro ⟨p, q, hcut, hno, -⟩
    exact hpair p q ((split_eq_pair_iff hd).mpr ⟨hcut, hno⟩)

variable (hrefl : ∀ x, alike x x = true) (hblank : ∀ x y, alike x y = true → blank x = blank y)
  (hd : d ≠ []) (he : e ≠ []) (hlength : d.length ≤ e.length) (hborders : ∀ b ∈ borders d, b.length = 1)
  (hend : borders e = []) (hword : ∃ x ∈ d.tail.head?, blank x = false)

include hd he hend in
/-- **The text between the delimiters is read**, where neither of them stands elsewhere. -/
theorem between_of_clear (hfirst : ¬d <:+: a ++ d.dropLast) (honly : ¬d <:+: t ++ e) (hclear : ¬e <:+: t)
    (htrim : trim blank t = t) : between blank d e (a ++ d ++ (t ++ e)) = some t := by
  refine (between_eq_some_iff blank hd).mpr ⟨a, t ++ e, cut_append hd hfirst, honly, ?_⟩
  rw [delete_at_end he hend hclear, htrim]

include hrefl hblank hd he hlength hborders hend hword in
/-- **Something like the text is read only there.** A delimiter that overlaps the one that is meant leaves too much
before the text, and a second closing delimiter takes too much away. -/
theorem between_iff : (∃ n, between blank d e (a ++ d ++ (t ++ e)) = some n ∧ equals alike t n = true) ↔
    ¬d <:+: a ++ d.dropLast ∧ ¬d <:+: t ++ e ∧ ¬e <:+: t ∧ trim blank t = t := by
  constructor
  · rintro ⟨n, hbetween, hequals⟩
    obtain ⟨p, q, hcut, hno, rfl⟩ := (between_eq_some_iff blank hd).mp hbetween
    obtain ⟨heq, hfirst⟩ := cut_spec hd hcut
    have htrim : trim blank t = t := trim_of_equals hblank hequals
    have hshort : t.length ≤ (delete e q).length := (length_eq_of_equals hequals).trans_le length_trim_le
    have hdlength := List.length_pos_iff.mpr hd
    have helength := List.length_pos_iff.mpr he
    -- a text that ends with a second closing delimiter is cut short
    have hsecond : ∀ x : List α, e <:+: x → x.length < t.length + e.length → q ≠ x ++ e := by
      rintro x hx hlt rfl
      have htwo := length_delete_two he hx
      rw [List.length_append] at htwo
      omega
    rcases Nat.lt_or_ge p.length a.length with hlt | hge
    · rcases occurrences heq.symm hlt with ⟨w, -, rfl⟩ | ⟨b, hb, c, hdc, rfl⟩
      · -- the delimiter that is meant is a second cut
        exact absurd ((List.suffix_append w d).isInfix.trans (List.prefix_append _ _).isInfix) hno
      · -- it overlaps the one that is found, and what is left of it stands before the text
        have htail : d.tail = c := by
          obtain ⟨x, rfl⟩ := List.length_eq_one_iff.mp (hborders b hb)
          rw [hdc]
          rfl
        have hclength : c.length + 1 = d.length := by
          rw [← htail, List.length_tail]
          omega
        rw [← List.append_assoc] at hno hshort hequals hsecond
        have hclear : ¬e <:+: c ++ t := by
          intro hx
          refine hsecond (c ++ t) hx ?_ rfl
          rw [List.length_append]
          omega
        rw [delete_at_end he hend hclear] at hequals
        have hlong := length_lt_trim_append (htail ▸ hword) htrim
        exact absurd (length_eq_of_equals hequals) (Nat.ne_of_lt hlong)
    · have hle : p.length ≤ a.length := length_le_of_cut hd hcut
      have hsides : p ++ (d ++ q) = a ++ (d ++ (t ++ e)) := by simpa only [List.append_assoc] using heq.symm
      obtain ⟨rfl, rest⟩ := List.append_inj hsides (Nat.le_antisymm hle hge)
      obtain rfl : q = t ++ e := List.append_cancel_left rest
      refine ⟨hfirst, hno, fun hx => hsecond t hx (by omega) rfl, htrim⟩
  · rintro ⟨hfirst, honly, hclear, htrim⟩
    exact ⟨t, between_of_clear blank hd he hend hfirst honly hclear htrim, equals_refl hrefl t⟩

end Between

end ChatApp.Substrings
