/-
`AnnouncedChanges.lean` -- when a system message changes what it announces, and nothing else.

The sentence is understood where the words around a name stand nowhere else (`Clear`), and the name is found where no
member before it has the same name but for case (`Finds`). Any other sentence should change nothing, and does so
where it is not understood as a removal or a promotion of somebody (`Harmless`).

The coroutine that stores the message may enter the phone's own row. It does not while that row is there.
-/
import ChatApp.SystemMessages

set_option autoImplicit false

namespace ChatApp.Room

open Substrings

/-! ## Words around a name -/

/-- What makes two words fit to stand around a name: they are ASCII; the first overlaps itself in one character at most
and goes on with a letter; the second does not overlap itself, and is not shorter. -/
structure Delimits (d e : String) : Prop where
  ascii : (str d ++ str e).all (· < 128) = true
  opening : 0 < (str d).length
  closing : 0 < (str e).length
  longer : (str d).length ≤ (str e).length
  overlaps : ∀ b ∈ borders (str d), b.length = 1
  alone : borders (str e) = []
  letter : ∃ x ∈ (str d).tail.head?, 97 ≤ x ∧ x ≤ 122

theorem Delimits.ascii_of_mem {d e : String} (h : Delimits d e) {x : UInt8} (hx : x ∈ str d ∨ x ∈ str e) : x < 128 :=
  of_decide_eq_true (List.all_eq_true.mp h.ascii x (List.mem_append.mpr hx))

theorem removed_delimits : Delimits " removed " " from the group" where
  ascii := by decide
  opening := by decide
  closing := by decide
  longer := by decide
  overlaps := by decide
  alone := by decide
  letter := ⟨114, by decide⟩

theorem made_delimits : Delimits " made " " an admin" where
  ascii := by decide
  opening := by decide
  closing := by decide
  longer := by decide
  overlaps := by decide
  alone := by decide
  letter := ⟨109, by decide⟩

section Words

variable {α : Type} (K : Strings α)

/-- A name between the words `d` and `e` is read as it is: behind the actor's name the first word does not stand
earlier, it does not stand again, the second word is not in the name, and the name has no blanks at its ends. -/
structure Clear (d e : String) (actor name : Bytes) : Prop where
  first : ¬K.word d <:+: K.read actor ++ (K.word d).dropLast
  once : ¬K.word d <:+: K.read name ++ K.word e
  closing : ¬K.word e <:+: K.read name
  trimmed : trim K.isWhitespace (K.read name) = K.read name

namespace Strings

variable {K} {d e : String} {actor name : Bytes}

/-- ASCII in the middle of bytes is read by itself. -/
theorem read_append {l : Bytes} (hne : l ≠ []) (hascii : ∀ x ∈ l, x < 128) (a b : Bytes) :
    K.read (a ++ l ++ b) = K.read a ++ l.map K.ascii ++ K.read b := by
  induction l generalizing a with
  | nil => exact absurd rfl hne
  | cons x l ih =>
    have hx := K.read_ascii a x (l ++ b) (hascii x List.mem_cons_self)
    rw [List.append_assoc, List.cons_append, hx]
    by_cases hl : l = []
    · rw [hl]
      simp
    · have hrest := ih hl (fun y hy => hascii y (List.mem_cons_of_mem _ hy)) []
      rw [K.read_nil, List.nil_append, List.nil_append] at hrest
      rw [hrest]
      simp

/-- The characters of a sentence. -/
theorem read_sentence (h : Delimits d e) :
    K.read (actor ++ str d ++ name ++ str e) = K.read actor ++ K.word d ++ (K.read name ++ K.word e) := by
  have hd := read_append (K := K) (List.length_pos_iff.mp h.opening) (fun _ hx => h.ascii_of_mem (.inl hx)) actor
    (name ++ str e)
  have he := read_append (K := K) (List.length_pos_iff.mp h.closing) (fun _ hx => h.ascii_of_mem (.inr hx)) name []
  rw [K.read_nil, List.append_nil, List.append_nil] at he
  rw [List.append_assoc, hd, he]
  rfl

section Delimited

variable (h : Delimits d e)

include h

theorem word_ne_nil : K.word d ≠ [] := mt List.map_eq_nil_iff.mp (List.length_pos_iff.mp h.opening)

theorem closing_ne_nil : K.word e ≠ [] := mt List.map_eq_nil_iff.mp (List.length_pos_iff.mp h.closing)

/-- Both words stand in the sentence. -/
theorem words_in_sentence : K.word d <:+: K.read (actor ++ str d ++ name ++ str e) ∧
    K.word e <:+: K.read (actor ++ str d ++ name ++ str e) := by
  rw [read_sentence h]
  refine ⟨⟨K.read actor, K.read name ++ K.word e, rfl⟩, ⟨K.read actor ++ K.word d ++ K.read name, [], ?_⟩⟩
  simp only [List.append_assoc, List.append_nil]

variable [DecidableEq α]

theorem closing_borders : borders (K.word e) = [] := by
  refine List.eq_nil_iff_forall_not_mem.mpr fun b hb => ?_
  obtain ⟨b₀, hb₀, -⟩ := exists_of_mem_borders_map K.ascii_injective hb
  rw [h.alone] at hb₀
  cases hb₀

/-- **A clear name is read.** -/
theorem between_of_clear (hclear : Clear K d e actor name) :
    between K.isWhitespace (K.word d) (K.word e) (K.read (actor ++ str d ++ name ++ str e))
      = some (K.read name) := by
  rw [read_sentence h]
  exact Substrings.between_of_clear _ (word_ne_nil h) (closing_ne_nil h) (closing_borders h) hclear.first hclear.once
    hclear.closing hclear.trimmed

/-- **Something like the name is read only if it is clear.** -/
theorem between_iff_clear :
    (∃ n, between K.isWhitespace (K.word d) (K.word e) (K.read (actor ++ str d ++ name ++ str e)) = some n ∧
      equals K.alike (K.read name) n = true) ↔ Clear K d e actor name := by
  have hlength : (K.word d).length ≤ (K.word e).length := by
    rw [word, word, List.length_map, List.length_map]
    exact h.longer
  have hoverlaps : ∀ b ∈ borders (K.word d), b.length = 1 := by
    intro b hb
    obtain ⟨b₀, hb₀, rfl⟩ := exists_of_mem_borders_map K.ascii_injective hb
    rw [List.length_map]
    exact h.overlaps b₀ hb₀
  have hletter : ∃ x ∈ (K.word d).tail.head?, K.isWhitespace x = false := by
    obtain ⟨x, hx, hlo, hhi⟩ := h.letter
    refine ⟨K.ascii x, ?_, K.ascii_letter x hlo hhi⟩
    rw [word, ← List.map_tail, List.head?_map]
    exact Option.mem_map_of_mem _ hx
  rw [read_sentence h, between_iff _ _ K.alike_refl K.alike_blank (word_ne_nil h) (closing_ne_nil h) hlength
    hoverlaps (closing_borders h) hletter]
  constructor
  · rintro ⟨hfirst, honce, hclosing, htrimmed⟩
    exact ⟨hfirst, honce, hclosing, htrimmed⟩
  · rintro ⟨hfirst, honce, hclosing, htrimmed⟩
    exact ⟨hfirst, honce, hclosing, htrimmed⟩

end Delimited

end Strings

end Words

/-! ## The members before and after -/

/-- The same rows, under the same keys. -/
def SameMembers (t t' : UMap (Int × Int) GroupMember) : Prop := ∀ k, t.find? k = t'.find? k

/-- The rows stand under their keys. -/
def Keyed (t : UMap (Int × Int) GroupMember) : Prop := ∀ k m, t.find? k = some m → k = (m.groupId, m.userId)

/-- The table of these rows. -/
def table_of (rows : List GroupMember) : UMap (Int × Int) GroupMember :=
  rows.foldl (fun t m => t.set (m.groupId, m.userId) m) ∅

theorem keyed_table_of (rows : List GroupMember) : Keyed (table_of rows) := by
  intro k m h
  have hset := UMap.find?_foldl_set (fun m : GroupMember => (m.groupId, m.userId)) id rows ∅ k
  rw [Option.map_id, UMap.find?_empty, Option.or_none] at hset
  have hfind : rows.reverse.find? (fun m : GroupMember => (m.groupId, m.userId) = k) = some m := hset.symm.trans h
  have hkey := List.find?_some hfind
  rw [decide_eq_true_iff] at hkey
  exact hkey.symm

/-- No two members of the group have one name. -/
def DistinctNames (groupId : Int) (db : Database) : Prop :=
  ∀ m ∈ db.members_of groupId, ∀ m' ∈ db.members_of groupId, m.username = m'.username → m = m'

instance (groupId : Int) (db : Database) : Decidable (DistinctNames groupId db) :=
  inferInstanceAs (Decidable (∀ m ∈ db.members_of groupId, ∀ m' ∈ db.members_of groupId,
    m.username = m'.username → m = m'))

section Members

variable {α : Type} (K : Strings α) (groupId : Int) (db : Database)

/-- No member that comes before the target has its name but for case. -/
def Finds (target : GroupMember) : Prop := ∀ m ∈ db.members_of groupId, m ≠ target →
  m.username ≤ target.username → equals K.alike (K.read m.username) (K.read target.username) = false

instance (target : GroupMember) : Decidable (Finds K groupId db target) :=
  inferInstanceAs (Decidable (∀ m ∈ db.members_of groupId, m ≠ target → m.username ≤ target.username →
    equals K.alike (K.read m.username) (K.read target.username) = false))

/-- A reading that changes no row: nobody is removed, and who is promoted is an admin. -/
def Harmless : Reading α → Prop
  | .removal name => K.find (db.members_of groupId) name = none
  | .promotion name => ∀ m, K.find (db.members_of groupId) name = some m → m.isAdmin = true
  | .nothing => True

/-- The rows after a text was read so. -/
def members_after : Reading α → UMap (Int × Int) GroupMember
  | .removal name =>
    match K.find (db.members_of groupId) name with
    | some m => db.group_members.erase (groupId, m.userId)
    | none => db.group_members
  | .promotion name =>
    match K.find (db.members_of groupId) name with
    | some m => db.group_members.adjust (m.groupId, m.userId) fun _ => { m with isAdmin := true }
    | none => db.group_members
  | .nothing => db.group_members

variable {K groupId db} {m target : GroupMember} {name : List α} {r : Reading α}

theorem mem_members_of (hkeyed : Keyed db.group_members) :
    m ∈ db.members_of groupId ↔ db.group_members.find? (groupId, m.userId) = some m := by
  rw [Database.members_of, List.mem_insertionSort, List.mem_filter, decide_eq_true_iff, List.mem_map]
  constructor
  · rintro ⟨⟨⟨k, m⟩, hmem, rfl⟩, rfl⟩
    have hfind := (UMap.mem_toList _ _ _).mp hmem
    rw [hkeyed k m hfind] at hfind
    exact hfind
  · intro hfind
    refine ⟨⟨_, (UMap.mem_toList _ _ _).mpr hfind, rfl⟩, ?_⟩
    exact (Prod.mk.inj (hkeyed _ _ hfind)).1.symm

/-- **Who is found** is the first in the order whose name equals the name that is looked for. -/
theorem find_eq_some_iff (hnames : DistinctNames groupId db) (hmem : target ∈ db.members_of groupId) :
    K.find (db.members_of groupId) name = some target ↔ equals K.alike (K.read target.username) name = true ∧
      ∀ m ∈ db.members_of groupId, m ≠ target → m.username ≤ target.username →
        equals K.alike (K.read m.username) name = false := by
  have hsorted : (db.members_of groupId).Pairwise fun m m' => m.username ≤ m'.username := by
    rw [Database.members_of]
    have htotal : Std.Total fun m m' : GroupMember => m.username ≤ m'.username :=
      ⟨fun m m' => List.le_total m.username m'.username⟩
    have htrans : IsTrans GroupMember fun m m' => m.username ≤ m'.username :=
      ⟨fun _ _ _ h h' => List.le_trans h h'⟩
    exact List.pairwise_insertionSort _ _
  rw [Strings.find, List.find?_eq_some_iff_append]
  refine and_congr_right fun _ => ?_
  constructor
  · rintro ⟨before, after, hlist, hbefore⟩ m hm hne hle
    rw [hlist] at hm hsorted
    rcases List.mem_append.mp hm with hm | hm
    · simpa using hbefore m hm
    · -- a member behind the target has a later name, and no equal one
      have hm := (List.mem_cons.mp hm).resolve_left hne
      have hge := List.rel_of_pairwise_cons (List.pairwise_append.mp hsorted).2.1 hm
      refine absurd (hnames m ?_ target hmem (List.le_antisymm hle hge)) hne
      rw [hlist]
      exact List.mem_append_right _ (List.mem_cons_of_mem _ hm)
  · intro h
    obtain ⟨before, after, hlist, hnot⟩ := List.eq_append_cons_of_mem hmem
    refine ⟨before, after, hlist, fun m hm => ?_⟩
    have hle : m.username ≤ target.username := by
      rw [hlist] at hsorted
      exact (List.pairwise_append.mp hsorted).2.2 m hm target List.mem_cons_self
    have hmem' : m ∈ db.members_of groupId := hlist ▸ List.mem_append_left _ hm
    rw [h m hmem' (fun heq => hnot (heq ▸ hm)) hle]
    rfl

/-- Whoever is found stands under his key. -/
theorem find?_of_find (hkeyed : Keyed db.group_members) (h : K.find (db.members_of groupId) name = some m) :
    db.group_members.find? (groupId, m.userId) = some m ∧ m.groupId = groupId := by
  have hfind := (mem_members_of hkeyed).mp (List.mem_of_find?_eq_some h)
  exact ⟨hfind, (Prod.mk.inj (hkeyed _ _ hfind)).1.symm⟩

/-- **The rows stay** exactly after a harmless reading. -/
theorem unchanged_iff (hkeyed : Keyed db.group_members) :
    SameMembers (members_after K groupId db r) db.group_members ↔ Harmless K groupId db r := by
  cases r with
  | nothing => exact iff_of_true (fun _ => rfl) trivial
  | removal name =>
    rw [members_after, Harmless]
    cases hfind : K.find (db.members_of groupId) name with
    | none => exact iff_of_true (fun _ => rfl) rfl
    | some m =>
      refine iff_of_false (fun hsame => ?_) (by simp)
      have hrow := hsame (groupId, m.userId)
      rw [UMap.find?_erase, if_pos rfl, (find?_of_find hkeyed hfind).1] at hrow
      cases hrow
  | promotion name =>
    rw [members_after, Harmless]
    cases hfind : K.find (db.members_of groupId) name with
    | none => exact iff_of_true (fun _ => rfl) (by simp)
    | some m =>
      obtain ⟨hrow, hgroup⟩ := find?_of_find hkeyed hfind
      dsimp only
      constructor
      · rintro hsame m' ⟨⟩
        have hchanged := hsame (groupId, m.userId)
        rw [hgroup, UMap.find?_adjust, if_pos rfl, hrow] at hchanged
        have hadmin := congrArg GroupMember.isAdmin (Option.some.inj hchanged)
        exact hadmin.symm
      · intro hadmin k
        have hsame : { m with isAdmin := true } = m := by rw [← hadmin m rfl]
        rw [UMap.find?_adjust, hsame, hgroup, hrow]
        split
        · next hk => rw [hk, hrow]; rfl
        · rfl

/-- A row is deleted exactly if it is found by the name that is removed. -/
theorem absent_iff (hkeyed : Keyed db.group_members)
    (hrow : db.group_members.find? (groupId, target.userId) = some target) :
    (members_after K groupId db r).find? (groupId, target.userId) = none ↔
      ∃ name, r = .removal name ∧ K.find (db.members_of groupId) name = some target := by
  cases r with
  | nothing => simp [members_after, hrow]
  | removal name =>
    rw [members_after]
    cases hfind : K.find (db.members_of groupId) name with
    | none => simp [hrow, hfind]
    | some m =>
      dsimp only
      rw [UMap.find?_erase]
      by_cases hid : target.userId = m.userId
      · -- under one key stands one row
        have heq : m = target := by
          have hrow' := (find?_of_find hkeyed hfind).1
          rw [← hid, hrow] at hrow'
          exact (Option.some.inj hrow').symm
        subst heq
        rw [if_pos rfl]
        exact iff_of_true rfl ⟨name, rfl, hfind⟩
      · have hkey : (groupId, target.userId) ≠ (groupId, m.userId) := fun heq => hid (Prod.mk.inj heq).2
        rw [if_neg hkey, hrow]
        refine iff_of_false (by simp) ?_
        rintro ⟨name', heq, hfind'⟩
        cases heq
        rw [hfind] at hfind'
        cases hfind'
        exact hid rfl
  | promotion name =>
    rw [members_after]
    refine iff_of_false ?_ (by simp)
    split
    · rw [UMap.find?_adjust]
      split
      · next heq => rw [← heq, hrow]; simp
      · rw [hrow]; simp
    · rw [hrow]; simp

/-- The row of a member who is not promoted stays as it is, if it stays. -/
theorem find?_of_not_promoted (hkeyed : Keyed db.group_members)
    (hrow : db.group_members.find? (groupId, target.userId) = some target)
    (hnot : ¬∃ name, r = .promotion name ∧ K.find (db.members_of groupId) name = some target) {row : GroupMember}
    (h : (members_after K groupId db r).find? (groupId, target.userId) = some row) : row = target := by
  cases r with
  | nothing =>
    rw [members_after, hrow] at h
    exact (Option.some.inj h).symm
  | removal name =>
    rw [members_after] at h
    split at h
    · rw [UMap.find?_erase, hrow] at h
      split at h
      · cases h
      · exact (Option.some.inj h).symm
    · rw [hrow] at h
      exact (Option.some.inj h).symm
  | promotion name =>
    rw [members_after] at h
    split at h
    · next m hfind =>
      obtain ⟨hrow', hgroup⟩ := find?_of_find hkeyed hfind
      rw [UMap.find?_adjust, hgroup, hrow] at h
      split at h
      · next hkey =>
        rw [← hkey, hrow] at hrow'
        exact absurd ⟨name, rfl, Option.some.inj hrow' ▸ hfind⟩ hnot
      · exact (Option.some.inj h).symm
    · rw [hrow] at h
      exact (Option.some.inj h).symm

/-- **Exactly the target's row is deleted** if it is found by the name that is removed. -/
theorem removed_iff (hkeyed : Keyed db.group_members)
    (hrow : db.group_members.find? (groupId, target.userId) = some target) :
    SameMembers (members_after K groupId db r) (db.group_members.erase (groupId, target.userId)) ↔
      ∃ name, r = .removal name ∧ K.find (db.members_of groupId) name = some target := by
  rw [← absent_iff hkeyed hrow]
  constructor
  · intro hsame
    rw [hsame, UMap.find?_erase, if_pos rfl]
  · intro habsent
    obtain ⟨name, rfl, hfind⟩ := (absent_iff hkeyed hrow).mp habsent
    rw [members_after, hfind]
    exact fun _ => rfl

/-- **Exactly the target's flag is set** if the target is found by the name that is promoted, or is an admin and
nothing changes. -/
theorem promoted_iff (hkeyed : Keyed db.group_members)
    (hrow : db.group_members.find? (groupId, target.userId) = some target) :
    SameMembers (members_after K groupId db r)
        (db.group_members.set (groupId, target.userId) { target with isAdmin := true }) ↔
      (∃ name, r = .promotion name ∧ K.find (db.members_of groupId) name = some target) ∨
        (target.isAdmin = true ∧ Harmless K groupId db r) := by
  have hgroup : target.groupId = groupId := (Prod.mk.inj (hkeyed _ _ hrow)).1.symm
  by_cases hpromoted : ∃ name, r = .promotion name ∧ K.find (db.members_of groupId) name = some target
  · refine iff_of_true (fun k => ?_) (.inl hpromoted)
    obtain ⟨name, rfl, hfind⟩ := hpromoted
    rw [members_after, hfind]
    dsimp only
    rw [hgroup, UMap.find?_adjust, UMap.find?_set, hrow]
    rfl
  · rw [or_iff_right hpromoted]
    have hset : target.isAdmin = true → ∀ k, (db.group_members.set (groupId, target.userId)
        { target with isAdmin := true }).find? k = db.group_members.find? k := by
      intro hadmin k
      have hsame : { target with isAdmin := true } = target := by rw [← hadmin]
      rw [UMap.find?_set, hsame]
      split
      · next hk => rw [hk, hrow]
      · rfl
    constructor
    · intro hsame
      -- the target's row is as it was, so the target was an admin, and then no row has changed
      have htarget := hsame (groupId, target.userId)
      rw [UMap.find?_set, if_pos rfl] at htarget
      have hadmin : target.isAdmin = true :=
        (congrArg GroupMember.isAdmin (find?_of_not_promoted hkeyed hrow hpromoted htarget)).symm
      refine ⟨hadmin, (unchanged_iff hkeyed).mp fun k => ?_⟩
      rw [hsame, hset hadmin]
    · rintro ⟨hadmin, hharmless⟩ k
      rw [(unchanged_iff hkeyed).mpr hharmless, hset hadmin]

end Members

/-! ## The two coroutines -/

/-- A transaction on the table of members, which enters no row under a new key. -/
def OnMembers {β : Type} (o : Transaction β) : Prop :=
  ∃ g : UMap (Int × Int) GroupMember → β × UMap (Int × Int) GroupMember,
    (∀ db, o.exec db = ((g db.group_members).1, { db with group_members := (g db.group_members).2 })) ∧
    ∀ t k, t.find? k = none → (g t).2.find? k = none

/-- From here on the program leaves the members alone while that row is there. -/
def Quiet (own : Int × Int) {β : Type} : Dao β → Prop
  | .pure _ => True
  | .op o k => ∀ db : Database, db.group_members.count own = true →
    (o.exec db).2.group_members = db.group_members ∧ Quiet own (k (o.exec db).1)

section Coroutines

variable {β γ : Type} {own : Int × Int} {p : Dao β} {q : Dao γ} {db db' : Database}

theorem quiet_bind {f : β → Dao γ} (hp : Quiet own p) (hf : ∀ b, Quiet own (f b)) : Quiet own (p >>= f) := by
  show Quiet own (Program.bind p f)
  induction p with
  | pure b => exact hf b
  | op o k ih => exact fun db hown => ⟨(hp db hown).1, ih _ (hp db hown).2⟩

/-- A program that has nothing to do with the members is quiet. -/
theorem quiet_of_always (hp : p.Always (fun o => ∀ db, (o.exec db).2.group_members = db.group_members)
    fun _ => True) : Quiet own p := by
  induction p with
  | pure b => trivial
  | op o k ih => exact fun db _ => ⟨hp.1 db, ih _ (hp.2 _)⟩

/-- While the row is there, a quiet program leaves the members alone. -/
theorem run_of_quiet (hp : Quiet own p) (hown : db.group_members.count own = true) :
    (p.run db).2.group_members = db.group_members := by
  induction p generalizing db with
  | pure b => rfl
  | op o k ih =>
    obtain ⟨hsame, hrest⟩ := hp db hown
    exact (ih _ hrest (by rw [hsame]; exact hown)).trans hsame

/-- A program on the members depends on no other table. -/
theorem run_on_members (hq : q.Always OnMembers fun _ => True) (h : db.group_members = db'.group_members) :
    (q.run db).2.group_members = (q.run db').2.group_members := by
  induction q generalizing db db' with
  | pure b => exact h
  | op o k ih =>
    obtain ⟨g, hg, -⟩ := hq.1
    have hexec : Dao.run (Program.op o k) db = Dao.run (k (o.exec db).1) (o.exec db).2 := rfl
    have hexec' : Dao.run (Program.op o k) db' = Dao.run (k (o.exec db').1) (o.exec db').2 := rfl
    have hanswer : (o.exec db).1 = (o.exec db').1 := by rw [hg, hg, h]
    rw [hexec, hexec', hanswer]
    exact ih _ (hq.2 _) (by rw [hg, hg, h])

/-- A row that is missing stays so. -/
theorem find?_of_absent {k : Int × Int} (hq : q.Always OnMembers fun _ => True)
    (h : db.group_members.find? k = none) : (q.run db).2.group_members.find? k = none := by
  refine (hq.run (I := fun db : Database => db.group_members.find? k = none) (fun o db ho h => ?_) h).2
  obtain ⟨g, hg, hnone⟩ := ho
  rw [hg]
  exact hnone _ k h

/-- **In whatever order**: next to a program that is quiet, a program on the members leaves what it leaves by itself,
if the row that keeps the other quiet is among that. -/
theorem interleave_quiet (hp : Quiet own p) (hq : q.Always OnMembers fun _ => True)
    (hown : (q.run db).2.group_members.count own = true) (turns : List Bool) :
    (Program.interleave Transaction.exec turns p q db).group_members = (q.run db).2.group_members := by
  refine Program.interleave_invariant (I := fun p' q' db' => Quiet own p' ∧ q'.Always OnMembers (fun _ => True) ∧
      (Dao.run q' db').2.group_members = (q.run db).2.group_members)
    (Q := fun db' => db'.group_members = (q.run db).2.group_members) turns ⟨hp, hq, rfl⟩ ?left ?right ?done
  case left =>
    rintro δ o k q' db' ⟨hquiet, halways, hrun⟩
    -- the row is there now, since it is there in the end
    have hthere : db'.group_members.count own = true := by
      rw [← hrun] at hown
      by_contra habsent
      have hnone := find?_of_absent halways (Option.not_isSome_iff_eq_none.mp habsent)
      rw [UMap.count, hnone] at hown
      cases hown
    obtain ⟨hsame, hrest⟩ := hquiet db' hthere
    exact ⟨hrest, halways, (run_on_members halways hsame).trans hrun⟩
  case right =>
    rintro δ o p' k db' ⟨hquiet, halways, hrun⟩
    exact ⟨hquiet, halways.2 _, hrun⟩
  case done =>
    rintro a b db' ⟨-, -, hrun⟩
    exact hrun

end Coroutines

/-- The transactions of a message that is stored leave the members alone. -/
theorem settling_members (p : Message → Bool) (m : Message) :
    (settling p m).Always (fun o => ∀ db, (o.exec db).2.group_members = db.group_members) fun _ => True := by
  refine ⟨fun _ => rfl, fun existing => ?_⟩
  show Program.Always _ (dedupe existing m) _
  cases existing with
  | none => exact ⟨fun _ => rfl, fun _ => trivial⟩
  | some e =>
    unfold dedupe
    dsimp only
    split
    · split
      · exact ⟨fun _ => rfl, fun _ => trivial⟩
      · trivial
    · exact ⟨fun _ => rfl, fun _ => trivial⟩

section Receive

variable (me senderId : Int) (content : Bytes) (timestamp groupId : Int)

/-- **Storing a message is quiet** while the phone's user is a member. -/
theorem receiveMessage_quiet :
    Quiet (groupId, me) (receiveMessage me senderId content timestamp (some groupId) none) := by
  rw [receiveMessage_eq]
  refine quiet_bind ?_ fun _ => quiet_of_always (settling_members _ _)
  -- the second query finds the row
  have hmember : Quiet (groupId, me) (do
      let existingMember ← getMember groupId me
      if existingMember.isNone then insertMember ⟨groupId, me, str "Me", none, false⟩ : Dao Unit) := by
    intro db hown
    refine ⟨rfl, ?_⟩
    obtain ⟨m, hm⟩ := (UMap.count_iff _ _).mp hown
    have hanswer : (Transaction.exec (.atomic fun db : Database => (db.group_members.find? (groupId, me), db))
        db).1 = some m := hm
    rw [hanswer]
    trivial
  intro db _
  refine ⟨rfl, ?_⟩
  generalize (Transaction.exec _ db).1 = existingGroup
  cases existingGroup with
  | none => exact fun db _ => ⟨rfl, hmember⟩
  | some _ => exact hmember

/-- Once a message is stored, the phone's user is a member. -/
theorem receiveMessage_own (db : Database) :
    ((receiveMessage me senderId content timestamp (some groupId) none).run db).2.group_members.count
      (groupId, me) = true := by
  have hmember : ∀ db : Database, (Dao.run (do
      let existingMember ← getMember groupId me
      if existingMember.isNone then insertMember ⟨groupId, me, str "Me", none, false⟩ : Dao Unit)
        db).2.group_members.count (groupId, me) = true := by
    intro db
    rw [Dao.run_bind, getMember, Dao.run_query]
    cases hfind : db.group_members.find? (groupId, me) with
    | none =>
      show ((db.group_members.set (groupId, me) _).find? (groupId, me)).isSome = true
      rw [UMap.find?_set, if_pos rfl]
      rfl
    | some m =>
      show (db.group_members.find? (groupId, me)).isSome = true
      rw [hfind]
      rfl
  have hbefore : ((before me senderId (some groupId)).run db).2.group_members.count (groupId, me) = true := by
    rw [before, ensure_membership, Dao.run_bind, getGroup, Dao.run_query]
    cases db.groups.find? groupId with
    | none => exact hmember _
    | some _ => exact hmember _
  rw [receiveMessage_eq, Dao.run_bind]
  exact ((settling_members _ _).run (I := fun db : Database => db.group_members.count (groupId, me) = true)
    (fun o db ho h => by rw [ho]; exact h) hbefore).2

end Receive

namespace GroupChatActivity

section Started

variable {α : Type} [DecidableEq α] {K : Strings α} {c : Chat} {me now ts_ms : Int} {text : Bytes}

/-- Reading a sentence is a program on the members. -/
theorem update_members_always (groupId : Int) (message : Bytes) :
    (update_members K groupId message).Always OnMembers fun _ => True := by
  have hquery : OnMembers (.atomic fun db : Database => (db.members_of groupId, db)) :=
    ⟨fun t => (({ group_members := t } : Database).members_of groupId, t), fun _ => rfl, fun _ _ h => h⟩
  unfold update_members
  cases K.reading (K.read message) with
  | nothing => trivial
  | removal name =>
    refine ⟨hquery, fun members => ?_⟩
    show Program.Always _ (match K.find members name with
      | some member => removeMember groupId member.userId
      | none => pure ()) _
    cases K.find members name with
    | none => trivial
    | some m =>
      refine ⟨⟨fun t => ((), t.erase (groupId, m.userId)), fun _ => rfl, fun t k h => ?_⟩, fun _ => trivial⟩
      rw [UMap.find?_erase, h, ite_self]
  | promotion name =>
    refine ⟨hquery, fun members => ?_⟩
    show Program.Always _ (match K.find members name with
      | some member => updateMember { member with isAdmin := true }
      | none => pure ()) _
    cases K.find members name with
    | none => trivial
    | some m =>
      refine ⟨⟨fun t => ((), t.adjust (m.groupId, m.userId) fun _ => { m with isAdmin := true }), fun _ => rfl,
        fun t k h => ?_⟩, fun _ => trivial⟩
      rw [UMap.find?_adjust]
      split
      · next hk => rw [← hk, h]; rfl
      · exact h

/-- What reading a sentence does by itself. -/
theorem update_members_run (groupId : Int) (message : Bytes) (db : Database) :
    ((update_members K groupId message).run db).2.group_members =
      members_after K groupId db (K.reading (K.read message)) := by
  unfold update_members
  cases K.reading (K.read message) with
  | nothing => rfl
  | removal name =>
    rw [members_after]
    dsimp only
    rw [Dao.run_bind, getMembersList, Dao.run_query]
    dsimp only
    cases K.find (db.members_of groupId) name with
    | none => rfl
    | some m => rfl
  | promotion name =>
    rw [members_after]
    dsimp only
    rw [Dao.run_bind, getMembersList, Dao.run_query]
    dsimp only
    cases K.find (db.members_of groupId) name with
    | none => rfl
    | some m => rfl

/-- **A sentence arrives as it was written**, and starts both coroutines. -/
theorem started_sentence (hgroup : Fits 32 c.groupId) (htext : 38 ∉ text) : ∃ tsMillis,
    started K c me now (system_message c.groupId text ts_ms).payload =
      (receiveMessage me 0 text tsMillis (some c.groupId) none, update_members K c.groupId text) := by
  have hzero : str "0" = to_string 0 := by decide
  have hsender : Fits 32 0 := by decide
  rw [started, system_message, hzero, incoming_group_message now ts_ms htext hgroup hsender]
  exact ⟨_, rfl⟩

end Started

/-! ## What a sentence changes -/

section Announced

variable {α : Type} [DecidableEq α] (K : Strings α) (groupId : Int) (db : Database) (actor : Bytes)

/-- The sentence is understood: the names in it are clear, and the target is found. A sentence that should change
nothing is harmless; so may be a promotion of an admin. -/
def Understood : Announcement → Prop
  | .removed target => Clear K " removed " " from the group" actor target.username ∧ Finds K groupId db target
  | .promoted target =>
    (¬(K.word " removed " <:+: K.read ((Announcement.promoted target).text actor) ∧
        K.word " from the group" <:+: K.read ((Announcement.promoted target).text actor)) ∧
      Clear K " made " " an admin" actor target.username ∧ Finds K groupId db target) ∨
    (target.isAdmin = true ∧ Harmless K groupId db (K.reading (K.read ((Announcement.promoted target).text actor))))
  | announcement => Harmless K groupId db (K.reading (K.read (announcement.text actor)))

/-- It is not the phone's user who is removed. -/
def Spares (me : Int) : Announcement → Prop
  | .removed target => target.userId ≠ me
  | _ => True

variable {K groupId db actor} {target : GroupMember} {announcement : Announcement}

/-- The target of a sentence is found behind the words `d` and before the words `e` exactly if its name is clear and no
name before it in the order is the same but for case. -/
theorem found_iff {d e : String} (h : Delimits d e) (hkeyed : Keyed db.group_members)
    (hnames : DistinctNames groupId db) (hrow : db.group_members.find? (groupId, target.userId) = some target) :
    (∃ name, between K.isWhitespace (K.word d) (K.word e) (K.read (actor ++ str d ++ target.username ++ str e))
        = some name ∧ K.find (db.members_of groupId) name = some target) ↔
      Clear K d e actor target.username ∧ Finds K groupId db target := by
  have hmem : target ∈ db.members_of groupId := (mem_members_of hkeyed).mpr hrow
  constructor
  · rintro ⟨name, hbetween, hfind⟩
    obtain ⟨hequals, hbefore⟩ := (find_eq_some_iff hnames hmem).mp hfind
    have hclear : Clear K d e actor target.username := (Strings.between_iff_clear h).mp ⟨name, hbetween, hequals⟩
    have hname : K.read target.username = name :=
      Option.some.inj ((Strings.between_of_clear h hclear).symm.trans hbetween)
    subst hname
    exact ⟨hclear, hbefore⟩
  · rintro ⟨hclear, hbefore⟩
    exact ⟨_, Strings.between_of_clear h hclear,
      (find_eq_some_iff hnames hmem).mpr ⟨equals_refl K.alike_refl _, hbefore⟩⟩

/-- What a text with both words of a removal is read as. -/
theorem reading_removal_iff {s name : List α}
    (hwords : K.word " removed " <:+: s ∧ K.word " from the group" <:+: s) :
    K.reading s = .removal name ↔
      between K.isWhitespace (K.word " removed ") (K.word " from the group") s = some name := by
  rw [Strings.reading, if_pos hwords]
  cases between K.isWhitespace (K.word " removed ") (K.word " from the group") s with
  | none => simp
  | some name' => simp

/-- What a text with both words of a promotion is read as. -/
theorem reading_promotion_iff {s name : List α} (hwords : K.word " made " <:+: s ∧ K.word " an admin" <:+: s) :
    K.reading s = .promotion name ↔
      ¬(K.word " removed " <:+: s ∧ K.word " from the group" <:+: s) ∧
        between K.isWhitespace (K.word " made ") (K.word " an admin") s = some name := by
  rw [Strings.reading]
  by_cases hremoval : K.word " removed " <:+: s ∧ K.word " from the group" <:+: s
  · rw [if_pos hremoval]
    cases between K.isWhitespace (K.word " removed ") (K.word " from the group") s with
    | none => simp [hremoval]
    | some name' => simp [hremoval]
  · rw [if_neg hremoval, if_pos hwords, and_iff_right hremoval]
    cases between K.isWhitespace (K.word " made ") (K.word " an admin") s with
    | none => simp
    | some name' => simp

/-- **What a sentence changes by itself** is what it announces exactly if it is understood. -/
theorem understood_iff (hkeyed : Keyed db.group_members) (hnames : DistinctNames groupId db)
    (habout : announcement.About groupId db.group_members) :
    SameMembers (members_after K groupId db (K.reading (K.read (announcement.text actor))))
        (announcement.done groupId db.group_members) ↔ Understood K groupId db actor announcement := by
  cases announcement with
  | removed target =>
    have hread : ∀ name, K.reading (K.read ((Announcement.removed target).text actor)) = .removal name ↔ _ :=
      fun name => reading_removal_iff (Strings.words_in_sentence removed_delimits)
    refine (removed_iff hkeyed habout).trans ?_
    simp only [hread]
    exact found_iff removed_delimits hkeyed hnames habout
  | promoted target =>
    have hread : ∀ name, K.reading (K.read ((Announcement.promoted target).text actor)) = .promotion name ↔ _ :=
      fun name => reading_promotion_iff (Strings.words_in_sentence made_delimits)
    refine (promoted_iff hkeyed habout).trans (or_congr ?_ Iff.rfl)
    simp only [hread, and_assoc, exists_and_left]
    exact and_congr_right fun _ => found_iff made_delimits hkeyed hnames habout
  | _ => exact unchanged_iff hkeyed

/-- Whether the phone's user should be a member afterwards. -/
theorem count_done {me : Int} (habout : announcement.About groupId db.group_members) :
    (announcement.done groupId db.group_members).count (groupId, me) = true ↔
      db.group_members.count (groupId, me) = true ∧ Spares me announcement := by
  cases announcement with
  | removed target =>
    rw [Announcement.done, UMap.count, UMap.find?_erase, Spares, UMap.count]
    by_cases hid : target.userId = me
    · rw [hid, if_pos rfl]
      simp
    · have hkey : (groupId, me) ≠ (groupId, target.userId) := fun heq => hid (Prod.mk.inj heq).2.symm
      rw [if_neg hkey, and_iff_left hid]
  | promoted target =>
    have hrow : db.group_members.find? (groupId, target.userId) = some target := habout
    have hspares : Spares me (.promoted target) := trivial
    rw [and_iff_left hspares, Announcement.done, UMap.count, UMap.find?_set, UMap.count]
    split
    · next hkey =>
      rw [hkey, hrow]
      rfl
    · rfl
  | _ => exact (and_iff_left trivial).symm

end Announced

/-- **A system message changes exactly what it announces**, however the two coroutines that it starts interleave, if
and only if the phone's user is a member and is not the one removed, and the sentence is understood. -/
theorem announced_exactly_iff {α : Type} [DecidableEq α] (K : Strings α) (c : Chat) (me now ts_ms : Int)
    (db : Database) (actor : Bytes) (announcement : Announcement) (hgroup : Fits 32 c.groupId)
    (htext : 38 ∉ announcement.text actor) (hkeyed : Keyed db.group_members) (hnames : DistinctNames c.groupId db)
    (habout : announcement.About c.groupId db.group_members) :
    (∀ turns, SameMembers (Program.interleave Transaction.exec turns
        (started K c me now (system_message c.groupId (announcement.text actor) ts_ms).payload).1
        (started K c me now (system_message c.groupId (announcement.text actor) ts_ms).payload).2 db).group_members
      (announcement.done c.groupId db.group_members)) ↔
    (db.group_members.count (c.groupId, me) = true ∧ Spares me announcement) ∧
      Understood K c.groupId db actor announcement := by
  obtain ⟨tsMillis, hstarted⟩ : ∃ tsMillis,
      started K c me now (system_message c.groupId (announcement.text actor) ts_ms).payload =
        (receiveMessage me 0 (announcement.text actor) tsMillis (some c.groupId) none,
          update_members K c.groupId (announcement.text actor)) := started_sentence hgroup htext
  rw [hstarted, ← count_done habout, ← understood_iff hkeyed hnames habout]
  have hquiet := receiveMessage_quiet me 0 (announcement.text actor) tsMillis c.groupId
  have halways := update_members_always (K := K) c.groupId (announcement.text actor)
  have hrun := update_members_run (K := K) c.groupId (announcement.text actor) db
  constructor
  · intro h
    -- where the message is stored last, the phone's user is a member in the end
    have hmember : (announcement.done c.groupId db.group_members).count (c.groupId, me) = true := by
      obtain ⟨n, hn⟩ := Program.exists_right_first
        (receiveMessage me 0 (announcement.text actor) tsMillis (some c.groupId) none)
        (update_members K c.groupId (announcement.text actor)) db
      have hsame := h (List.replicate n false) (c.groupId, me)
      rw [hn] at hsame
      rw [UMap.count, ← hsame]
      exact receiveMessage_own me 0 _ tsMillis c.groupId _
    refine ⟨hmember, fun k => ?_⟩
    -- where it is stored first, that changes nothing
    have hown := ((count_done habout).mp hmember).1
    have hfirst := h [] k
    rw [← hfirst, ← hrun]
    exact congrArg (UMap.find? · k) (run_on_members halways (run_of_quiet hquiet hown)).symm
  · rintro ⟨hmember, hsame⟩ turns k
    rw [← hrun] at hsame
    have hown : ((update_members K c.groupId (announcement.text actor)).run db).2.group_members.count
        (c.groupId, me) = true := by
      rw [UMap.count, hsame]
      exact hmember
    rw [interleave_quiet hquiet halways hown turns]
    exact hsame k

/-- Carol is a member and is removed, and nobody else. -/
theorem announced_exactly_carol :
    (table_of [⟨7, 1, str "alice", none, true⟩, ⟨7, 3, str "carol", none, false⟩]).count (7, 3) = true ∧
    ∀ turns, SameMembers (Program.interleave Transaction.exec turns
      (started Strings.plain ⟨7, 1, str "alice"⟩ 1 0
        (system_message 7 ((Announcement.removed ⟨7, 3, str "carol", none, false⟩).text (str "alice")) 5000).payload).1
      (started Strings.plain ⟨7, 1, str "alice"⟩ 1 0
        (system_message 7 ((Announcement.removed ⟨7, 3, str "carol", none, false⟩).text (str "alice")) 5000).payload).2
      { group_members := table_of [⟨7, 1, str "alice", none, true⟩, ⟨7, 3, str "carol", none,
        false⟩] }).group_members
    ((table_of [⟨7, 1, str "alice", none, true⟩, ⟨7, 3, str "carol", none, false⟩]).erase (7, 3)) := by
  refine ⟨rfl, (announced_exactly_iff Strings.plain ⟨7, 1, str "alice"⟩ 1 0 5000
    { group_members := table_of [⟨7, 1, str "alice", none, true⟩, ⟨7, 3, str "carol", none, false⟩] } (str "alice")
    (.removed ⟨7, 3, str "carol", none, false⟩) (by decide) (by decide) (keyed_table_of _) (by decide) rfl).mpr
    ⟨⟨rfl, ?_⟩, ⟨by decide, by decide, by decide, by decide⟩, by decide⟩⟩
  exact (by decide : (3 : Int) ≠ 1)

/-- Bob and bob are members. The server, for which the names differ, removes bob, and the phone Bob. In a second group
a user whose name ends like a removal removes his nickname; the phone removes a third member, whose name is what stands
between. -/
theorem sentences_misread :
    (∃ db : Database, Keyed db.group_members ∧ DistinctNames 7 db ∧
      db.group_members.find? (7, 4) = some ⟨7, 4, str "bob", none, false⟩ ∧
      ∃ turns, (Program.interleave Transaction.exec turns
        (started Strings.plain ⟨7, 1, str "alice"⟩ 1 0 (system_message 7 ((Announcement.removed
          ⟨7, 4, str "bob", none, false⟩).text (str "alice")) 5000).payload).1
        (started Strings.plain ⟨7, 1, str "alice"⟩ 1 0 (system_message 7 ((Announcement.removed
          ⟨7, 4, str "bob", none, false⟩).text (str "alice")) 5000).payload).2 db).group_members.toList.map Prod.fst
        = [(7, 4), (7, 1)]) ∧
    ∃ db : Database, Keyed db.group_members ∧ DistinctNames 7 db ∧ db.group_members.count (7, 3) = true ∧
      ∃ turns, (Program.interleave Transaction.exec turns
        (started Strings.plain ⟨7, 1, str "alice"⟩ 1 0 (system_message 7 ((Announcement.nickname 2 2 []
          []).text (str "x from the group")) 5000).payload).1
        (started Strings.plain ⟨7, 1, str "alice"⟩ 1 0 (system_message 7 ((Announcement.nickname 2 2 []
          []).text (str "x from the group")) 5000).payload).2 db).group_members.count (7, 3) = false := by
  constructor
  · refine ⟨⟨∅, ∅, table_of [⟨7, 1, str "alice", none, true⟩, ⟨7, 3, str "Bob", none, false⟩,
      ⟨7, 4, str "bob", none, false⟩], ∅, ∅, ∅⟩, keyed_table_of _, by decide, rfl, [], ?_⟩
    decide
  · refine ⟨⟨∅, ∅, table_of [⟨7, 1, str "alice", none, true⟩, ⟨7, 2, str "x from the group", none, false⟩,
      ⟨7, 3, str "their nickname", none, false⟩], ∅, ∅, ∅⟩, keyed_table_of _, by decide, rfl, [], ?_⟩
    decide

end GroupChatActivity

end ChatApp.Room
