/-
`GroupListReply.lean` -- what a `GET_USER_GROUPS` reply tells the phone of the
members of the groups.

The server writes the ids, the nicknames, the usernames and the admin flags of the
members of a group into four rows of texts with commas between them, and the client
aligns them by index. The rows are built in two ways. The ids are joined; to the
others a comma is added only if something stands before it, so that empty nicknames
at the start leave no trace and all the later ones move up. A comma in a username
makes two entries of one.

The texts that carry the nicknames are base 64, which has neither commas nor `&`.
-/
import Mathlib.Data.Int.Interval
import ChatApp.Base64
import ChatApp.GroupSync
import ChatApp.Replies

set_option autoImplicit false

namespace ChatApp

open Prog PostgresPersistence handle_client Room

/-! ## Rows of texts -/

section Csv

variable {ts : List Bytes}

theorem csv_push_ne {csv : Bytes} (h : csv ≠ []) (t : Bytes) : csv_push csv t = csv ++ 44 :: t := by
  rw [csv_push, if_neg h, List.append_assoc, List.singleton_append]

/-- Behind what stands there each text gets its comma. -/
theorem foldl_csv_push {csv : Bytes} (h : csv ≠ []) (ts : List Bytes) :
    ts.foldl csv_push csv = [44].intercalate (csv :: ts) := by
  induction ts generalizing csv with
  | nil => exact (List.intercalate_singleton ..).symm
  | cons t ts ih =>
    rw [List.foldl_cons, csv_push_ne h, ih (by simp [h])]
    cases ts with
    | nil => simp [List.intercalate_cons_cons]
    | cons t' ts => simp [List.intercalate_cons_cons]

/-- Empty texts at the start leave no trace. -/
theorem csv_eq (ts : List Bytes) :
    ts.foldl csv_push [] = [44].intercalate (ts.dropWhile fun t => t = []) := by
  induction ts with
  | nil => rfl
  | cons t ts ih =>
    rw [List.foldl_cons]
    by_cases ht : t = []
    · rw [List.dropWhile_cons_of_pos (by simpa using ht), ← ih, ht]
      rfl
    · rw [List.dropWhile_cons_of_neg (by simpa using ht)]
      exact foldl_csv_push ht ts

/-- Joined texts without commas are split again, if the first is not empty. -/
theorem csv_split_intercalate {t : Bytes} (ht : t ≠ []) (hts : ∀ x ∈ t :: ts, 44 ∉ x) :
    csv_split ([44].intercalate (t :: ts)) = t :: ts := by
  have hne : [44].intercalate (t :: ts) ≠ [] := by
    cases ts with
    | nil => simpa [List.intercalate_singleton] using ht
    | cons t' ts => simp [List.intercalate_cons_cons]
  rw [csv_split, if_neg hne]
  exact List.splitOn_intercalate 44 hts (List.cons_ne_nil _ _)

/-- **What is read back** of texts without commas: all from the first that is not empty. -/
theorem csv_split_csv (hts : ∀ t ∈ ts, 44 ∉ t) :
    csv_split (ts.foldl csv_push []) = ts.dropWhile fun t => t = [] := by
  rw [csv_eq]
  cases hdrop : ts.dropWhile fun t => t = [] with
  | nil => rfl
  | cons t rest =>
    have hhead := List.head?_dropWhile_not (fun t : Bytes => t = []) ts
    rw [hdrop] at hhead
    have hmem : ∀ x ∈ t :: rest, 44 ∉ x := fun x hx =>
      hts x ((List.dropWhile_sublist _).subset (hdrop ▸ hx))
    exact csv_split_intercalate (by simpa using hhead) hmem

/-- Nothing is dropped where no text, or at least not the first, is empty. -/
theorem dropWhile_empty {t : Bytes} (ht : t ≠ []) :
    ((t :: ts).dropWhile fun t => t = []) = t :: ts :=
  List.dropWhile_cons_of_neg (by simpa using ht)

theorem intercalate_eq_csv (h : ∀ t ∈ ts, t ≠ []) : [44].intercalate ts = ts.foldl csv_push [] := by
  rw [csv_eq]
  cases ts with
  | nil => rfl
  | cons t ts => rw [dropWhile_empty (h t List.mem_cons_self)]

/-- No piece has a comma, whatever was joined. -/
theorem notMem_csv_split {csv t : Bytes} (h : t ∈ csv_split csv) : 44 ∉ t := by
  have hsplit : ∀ (csv t : Bytes), t ∈ csv.splitOn 44 → 44 ∉ t := by
    intro csv
    induction csv with
    | nil =>
      intro t ht
      rw [List.splitOn_nil, List.mem_singleton] at ht
      rw [ht]
      exact List.not_mem_nil
    | cons c csv ih =>
      intro t ht
      rw [List.splitOn, List.splitOnP_cons_eq_if_modifyHead] at ht
      split at ht
      · rcases List.mem_cons.mp ht with rfl | ht
        · exact List.not_mem_nil
        · exact ih t ht
      · next hc =>
        cases hpieces : csv.splitOnP (· == 44) with
        | nil => exact absurd hpieces (List.splitOnP_ne_nil _ _)
        | cons piece pieces =>
          rw [hpieces, List.modifyHead_cons] at ht
          rcases List.mem_cons.mp ht with rfl | ht
          · refine List.not_mem_cons_of_ne_of_not_mem (Ne.symm (by simpa using hc)) (ih piece ?_)
            rw [List.splitOn, hpieces]
            exact List.mem_cons_self
          · refine ih t ?_
            rw [List.splitOn, hpieces]
            exact List.mem_cons_of_mem _ ht
  rw [csv_split] at h
  split at h
  · cases h
  · exact hsplit csv t h

/-- What stands in a row stands in one of its texts, or is a comma. -/
theorem mem_csv {b : UInt8} (h : b ∈ ts.foldl csv_push []) : b = 44 ∨ ∃ t ∈ ts, b ∈ t := by
  have hpush : ∀ csv : Bytes, b ∈ ts.foldl csv_push csv → b ∈ csv ∨ b = 44 ∨ ∃ t ∈ ts, b ∈ t := by
    clear h
    induction ts with
    | nil => exact fun _ h => .inl h
    | cons t ts ih =>
      intro csv h
      rcases ih _ h with h | rfl | ⟨t', ht', hb⟩
      · rw [csv_push] at h
        rcases List.mem_append.mp h with h | h
        · split at h
          · cases h
          · rcases List.mem_append.mp h with h | h
            · exact .inl h
            · exact .inr (.inl (List.mem_singleton.mp h))
        · exact .inr (.inr ⟨t, List.mem_cons_self, h⟩)
      · exact .inr (.inl rfl)
      · exact .inr (.inr ⟨t', List.mem_cons_of_mem _ ht', hb⟩)
  exact (hpush [] h).resolve_left List.not_mem_nil

theorem amp_notMem_csv (h : ∀ t ∈ ts, 38 ∉ t) : 38 ∉ ts.foldl csv_push [] := by
  intro hmem
  rcases mem_csv hmem with hcomma | ⟨t, ht, hmem⟩
  · exact absurd hcomma (by decide)
  · exact h t ht hmem

end Csv

/-! ## What the server tells -/

/-- A member of a group, as the server knows it. -/
structure ToldMember where
  uid : Int
  username : Bytes
  nickname : Bytes
  isAdmin : Bool
  deriving DecidableEq

/-- A group with its members. -/
structure ToldGroup where
  gid : Int
  name : Bytes
  members : List ToldMember
  deriving DecidableEq

/-- The rows of the server for a group. -/
def ToldGroup.entry (g : ToldGroup) : GroupEntry where
  gid := g.gid
  name := g.name
  members := [44].intercalate (g.members.map fun m => to_string m.uid)
  nicks := (g.members.map fun m => encode_nick m.nickname).foldl csv_push []
  names := (g.members.map ToldMember.username).foldl csv_push []
  admins := (g.members.map fun m => flag m.isAdmin).foldl csv_push []

/-- What the tables tell of one group. -/
def Tables.told_group (d : Tables) (g : GroupRow) : ToldGroup :=
  ⟨g.id, g.name, (d.membersOf g.id).map fun u =>
    ⟨u.id, u.username, (d.nicknamesOf g.id).get u.id, d.isAdmin g.id u.id⟩⟩

/-- The groups of a user by the tables. -/
def Tables.told (d : Tables) (me : Int) : List ToldGroup := (d.groupsOf me).map d.told_group

section Reply

variable {env : Env} {w : World}

/-- Nothing was written. -/
def Untouched (w w' : World) : Prop := w'.db = w.db ∧ w'.out = w.out

/-- A query in an answering database, as the code reads its result. -/
theorem query_ensures {β : Type} (q : Tables → β) (default : β) (hs : env.SqlSucceeds) {w₁ : World}
    (hopen : w.db.aborted = false) (h₁ : Untouched w w₁) :
    Ensures env w₁ (do let res ← select q; pure (res.getD default) : Prog [] β) fun b w' =>
      b = q w.db.tables ∧ Untouched w w' := by
  refine Ensures.bind (select_answers q hs (by rw [h₁.1, hopen])) ?_
  rintro _ w' ⟨hdb, hout, rfl⟩
  refine ensures_pure ⟨?_, hdb.trans h₁.1, hout.trans h₁.2⟩
  rw [Option.getD_some, h₁.1]

theorem group_item_db_ensures (hs : env.SqlSucceeds) (hopen : w.db.aborted = false) (g : GroupRow) (i : Nat)
    {w₁ : World} (h₁ : Untouched w w₁) :
    Ensures env w₁ (group_item_db g i) fun items w' =>
      items = entry_items (w.db.tables.told_group g).entry i ∧ Untouched w w' := by
  refine Ensures.bind (query_ensures (fun d => d.membersOf g.id) [] hs hopen h₁) ?_
  rintro _ w₂ ⟨rfl, h₂⟩
  refine Ensures.bind (query_ensures (fun d => d.nicknamesOf g.id) ∅ hs hopen h₂) ?_
  rintro _ w₃ ⟨rfl, h₃⟩
  have hadmins := mapM_ensures (I := Untouched w) (g := fun m : UserRow => w.db.tables.isAdmin g.id m.id)
    (fun m w' h' => query_ensures (fun d => d.isAdmin g.id m.id) false hs hopen h')
    (w.db.tables.membersOf g.id) w₃ h₃
  refine Ensures.bind hadmins ?_
  rintro _ w₄ ⟨rfl, h₄⟩
  refine ensures_pure ⟨?_, h₄⟩
  rw [entry_items, ToldGroup.entry, Tables.told_group]
  simp only [List.map_map]
  rfl

/-- The loop over the groups, with a database. -/
def user_group_items (rid : Int) : Prog [] (List (List (Bytes × Bytes))) := do
  let groups ← PostgresPersistence.get_user_groups rid
  groups.zipIdx.mapM fun g => group_item_db g.1 g.2

/-- **The reply**: the groups of the requester, each with the rows of its members. -/
theorem user_groups_answered (fd me rid : Int) (hs : env.SqlSucceeds) (hopen : w.db.aborted = false) :
    Answered env w fd me rid .get_user_groups (group_list ((w.db.tables.told rid).map ToldGroup.entry)) := by
  have hitems : Ensures env w (user_group_items rid)
      fun items w' => items = (w.db.tables.groupsOf rid).zipIdx.map
        (fun g => entry_items (w.db.tables.told_group g.1).entry g.2) ∧ Untouched w w' := by
    refine Ensures.bind (query_ensures (fun d => d.groupsOf rid) [] hs hopen ⟨rfl, rfl⟩) ?_
    rintro _ w₁ ⟨rfl, h₁⟩
    exact mapM_ensures (I := Untouched w)
      (g := fun g : GroupRow × Nat => entry_items (w.db.tables.told_group g.1).entry g.2)
      (fun g w' h' => group_item_db_ensures hs hopen g.1 g.2 h') _ w₁ h₁
  obtain ⟨hlist, -, hout⟩ := hitems
  refine ⟨!env.send_fails ((user_group_items rid).run env w).2.ticks, ?_⟩
  have hcase : handle_client.get_user_groups true fd me rid =
      ((user_group_items rid).lift (by decide) >>= fun items => andNext (reply fd .SUCCESS
        (serialize_kv ((str "count", to_string items.length) :: items.flatten)) (u32 me))) := rfl
  rw [perform, run_lift, hcase, run_bind, run_lift, hlist, andNext, run_bind, run_pure, ← hout, group_list,
    Tables.told]
  simp only [List.length_map, List.length_zipIdx, List.zipIdx_map, List.map_map]
  rfl

end Reply

/-! ## What the client reads -/

/-- Groups as the server can tell them to their member `me`: serial ids, each once, `me` among the members,
and names without `&`. -/
structure Told (me : Int) (gs : List ToldGroup) : Prop where
  gids : (gs.map ToldGroup.gid).Nodup
  gid : ∀ g ∈ gs, 0 < g.gid ∧ Fits 32 g.gid
  uids : ∀ g ∈ gs, (g.members.map ToldMember.uid).Nodup
  uid : ∀ g ∈ gs, ∀ m ∈ g.members, 0 < m.uid ∧ Fits 32 m.uid
  me : ∀ g ∈ gs, ∃ m ∈ g.members, m.uid = me
  text : ∀ g ∈ gs, 38 ∉ g.name ∧ ∀ m ∈ g.members, 38 ∉ m.username

/-- A group as the client reads it. -/
def ToldGroup.read (g : ToldGroup) : ListedGroup where
  gid := g.gid
  gname := g.name
  memberIds := g.members.map ToldMember.uid
  serverMemberCount := some g.members.length
  memberNicks := (g.members.map fun m => encode_nick m.nickname).dropWhile fun t => t = []
  memberNames := csv_split ((g.members.map ToldMember.username).foldl csv_push [])
  memberAdmins := g.members.map fun m => flag m.isAdmin

section Read

variable {me : Int} {gs : List ToldGroup} {g : ToldGroup}

/-- Different positive `int`s are as many as an `int` can count. -/
theorem fits_length {ids : List Int} (hids : ids.Nodup) (h : ∀ i ∈ ids, 0 < i ∧ Fits 32 i) :
    Fits 32 ids.length := by
  have hsub : ids.toFinset ⊆ Finset.Ioo (0 : Int) (2 ^ 31) := by
    intro i hi
    obtain ⟨hpos, hfits⟩ := h i (List.mem_toFinset.mp hi)
    exact Finset.mem_Ioo.mpr ⟨hpos, hfits.2⟩
  have hcard := Finset.card_le_card hsub
  rw [List.toFinset_card_of_nodup hids, Int.card_Ioo] at hcard
  simp only [Fits]
  omega

/-- Between the texts that are joined there is a comma each. -/
theorem count_intercalate {t : Bytes} {ts : List Bytes} (h : ∀ x ∈ t :: ts, 44 ∉ x) :
    ([44].intercalate (t :: ts)).count 44 = ts.length := by
  induction ts generalizing t with
  | nil =>
    rw [List.intercalate_singleton]
    exact List.count_eq_zero.mpr (h t List.mem_cons_self)
  | cons t' ts ih =>
    rw [List.intercalate_cons_cons, List.count_append, List.count_append,
      List.count_eq_zero.mpr (h t List.mem_cons_self), ih fun x hx => h x (List.mem_cons_of_mem _ hx)]
    simp
    omega

theorem comma_notMem_encode_nick (nick : Bytes) : 44 ∉ encode_nick nick ∧ 38 ∉ encode_nick nick := by
  rw [encode_nick]
  split
  · exact ⟨List.not_mem_nil, List.not_mem_nil⟩
  · rw [base64_encode_eq]
    exact notMem_rfc4648 nick

/-- The fields of a group whose texts hold no `&`. -/
theorem listable_fields {e : GroupEntry} (hname : 38 ∉ e.name) (hmembers : 38 ∉ e.members) (hnicks : 38 ∉ e.nicks)
    (hnames : 38 ∉ e.names) (hadmins : 38 ∉ e.admins) : Listable e.fields where
  worded := by
    simp only [GroupEntry.fields, List.forall_mem_cons, List.not_mem_nil, false_imp_iff, implies_true, and_true]
    decide
  once := by
    simp only [GroupEntry.fields, List.map_cons, List.map_nil]
    decide
  plain := by
    have hnumber : ∀ i : Int, (38 : UInt8) ∉ to_string i := fun i => notMem_to_string (by decide)
    simp only [GroupEntry.fields, List.forall_mem_cons, List.not_mem_nil, false_imp_iff, implies_true, and_true]
    exact ⟨hnumber _, hname, hnumber _, hmembers, hnicks, hnames, hadmins⟩

theorem listable_entry (h : Told me gs) (hg : g ∈ gs) : Listable g.entry.fields := by
  obtain ⟨hname, hnames⟩ := h.text g hg
  have hids : (38 : UInt8) ∉ [44].intercalate (g.members.map fun m => to_string m.uid) := by
    rw [intercalate_eq_csv (List.forall_mem_map.mpr fun m _ => to_string_ne_nil m.uid)]
    exact amp_notMem_csv (List.forall_mem_map.mpr fun m _ => notMem_to_string (by decide))
  refine listable_fields hname hids (amp_notMem_csv ?_) (amp_notMem_csv ?_) (amp_notMem_csv ?_)
  · exact List.forall_mem_map.mpr fun m _ => (comma_notMem_encode_nick m.nickname).2
  · exact List.forall_mem_map.mpr hnames
  · refine List.forall_mem_map.mpr fun m _ => ?_
    cases m.isAdmin <;> decide

/-- The ids are read back. -/
theorem read_ids (h : Told me gs) (hg : g ∈ gs) :
    (csv_split ([44].intercalate (g.members.map fun m => to_string m.uid))).filterMap toIntOrNull =
      g.members.map ToldMember.uid := by
  obtain ⟨m, hm, -⟩ := h.me g hg
  have hsplit : csv_split ([44].intercalate (g.members.map fun m => to_string m.uid)) =
      g.members.map fun m => to_string m.uid := by
    cases hmembers : g.members with
    | nil => rw [hmembers] at hm; cases hm
    | cons m ms =>
      rw [List.map_cons]
      refine csv_split_intercalate (to_string_ne_nil _) ?_
      rw [← List.map_cons (f := fun m : ToldMember => to_string m.uid)]
      exact List.forall_mem_map.mpr fun m _ => notMem_to_string (by decide)
  have hsome : ∀ m ∈ g.members, (toIntOrNull ∘ fun m : ToldMember => to_string m.uid) m = some m.uid :=
    fun m hm => toNumberOrNull_to_string (h.uid g hg m hm).2
  rw [hsplit, List.filterMap_map, List.filterMap_congr hsome]
  exact congrFun List.filterMap_eq_map g.members

/-- The number of the members is read back. -/
theorem read_count (h : Told me gs) (hg : g ∈ gs) :
    toIntOrNull (to_string (([44].intercalate (g.members.map fun m => to_string m.uid)).count 44 + 1)) =
      some (g.members.length : Int) := by
  obtain ⟨m, hm, -⟩ := h.me g hg
  have hcount : (([44].intercalate (g.members.map fun m => to_string m.uid)).count 44 + 1 : Int) =
      g.members.length := by
    cases hmembers : g.members with
    | nil => rw [hmembers] at hm; cases hm
    | cons m ms =>
      have hcommas : ([44].intercalate (to_string m.uid :: ms.map fun m => to_string m.uid)).count 44 =
          (ms.map fun m => to_string m.uid).length := by
        refine count_intercalate ?_
        rw [← List.map_cons (f := fun m : ToldMember => to_string m.uid)]
        exact List.forall_mem_map.mpr fun m _ => notMem_to_string (by decide)
      rw [List.map_cons, hcommas, List.length_map, List.length_cons]
      rfl
  rw [hcount]
  have hfits := fits_length (h.uids g hg) (List.forall_mem_map.mpr fun m hm => h.uid g hg m hm)
  rw [List.length_map] at hfits
  exact toNumberOrNull_to_string hfits

/-- A group is read as it was told, but for the nicknames and the usernames. -/
theorem listed_told (h : Told me gs) {i : Nat} (hi : gs[i]? = some g) :
    listed (pairs (group_list (gs.map ToldGroup.entry))) i = some g.read := by
  have hg : g ∈ gs := List.mem_of_getElem? hi
  have hthings : ∀ fields ∈ (gs.map ToldGroup.entry).map GroupEntry.fields, Listable fields := by
    rw [List.map_map]
    exact List.forall_mem_map.mpr fun g hg => listable_entry h hg
  have hthing : ((gs.map ToldGroup.entry).map GroupEntry.fields)[i]? = some g.entry.fields := by
    rw [List.getElem?_map, List.getElem?_map, hi]
    rfl
  have hfield : ∀ name v, (name, v) ∈ g.entry.fields →
      (pairs (group_list (gs.map ToldGroup.entry))).find? (key name i) = some v := by
    intro name v hmem
    rw [group_list_numbered]
    exact find?_numbered (heading_count _) hthings hthing hmem
  have hget : ∀ name v, (name, v) ∈ g.entry.fields →
      (pairs (group_list (gs.map ToldGroup.entry))).get (key name i) = v := fun name v hmem =>
    UMap.get_of_find? (hfield name v hmem)
  have hnicks : csv_split g.entry.nicks = g.read.memberNicks :=
    csv_split_csv (List.forall_mem_map.mpr fun m _ => (comma_notMem_encode_nick m.nickname).1)
  have hadmins : csv_split g.entry.admins = g.read.memberAdmins := by
    have hflag : ∀ b, 44 ∉ flag b ∧ flag b ≠ [] := by decide
    refine (csv_split_csv (List.forall_mem_map.mpr fun m _ => (hflag m.isAdmin).1)).trans ?_
    rw [ToldGroup.read]
    cases g.members with
    | nil => rfl
    | cons m ms => rw [List.map_cons, dropWhile_empty (hflag m.isAdmin).2]
  rw [listed, hfield "groupId" (to_string g.gid) (by simp [GroupEntry.fields, ToldGroup.entry]),
    hfield "name" g.name (by simp [GroupEntry.fields, ToldGroup.entry]),
    hget "members" g.entry.members (by simp [GroupEntry.fields]),
    hfield "memberCount" (to_string (g.entry.members.count 44 + 1)) (by simp [GroupEntry.fields]),
    hget "memberNicks" g.entry.nicks (by simp [GroupEntry.fields]),
    hget "memberNames" g.entry.names (by simp [GroupEntry.fields]),
    hget "memberAdmins" g.entry.admins (by simp [GroupEntry.fields]), hnicks, hadmins]
  have hid : (some (to_string g.gid)).bind toIntOrNull = some g.gid := toNumberOrNull_to_string (h.gid g hg).2
  have hids := read_ids h hg
  have hcount := read_count h hg
  simp only [hid, ToldGroup.entry, Option.bind_some, Option.bind_eq_bind, hids, hcount]
  rfl

/-- The whole list. -/
theorem listed_groups_told (h : Told me gs) :
    listed_groups (group_list (gs.map ToldGroup.entry)) = gs.map ToldGroup.read := by
  have hthings : ∀ fields ∈ (gs.map ToldGroup.entry).map GroupEntry.fields, Listable fields := by
    rw [List.map_map]
    exact List.forall_mem_map.mpr fun g hg => listable_entry h hg
  have hcount : (pairs (group_list (gs.map ToldGroup.entry))).find? (str "count") =
      some (to_string gs.length) := by
    rw [group_list_numbered, find?_heading (heading_count _) hthings (List.mem_singleton.mpr rfl),
      List.length_map]
  have hfits := fits_length h.gids (List.forall_mem_map.mpr h.gid)
  rw [List.length_map] at hfits
  have hnumber : (some (to_string gs.length)).bind toIntOrNull = some (gs.length : Int) :=
    toNumberOrNull_to_string hfits
  rw [listed_groups, hcount, hnumber, Option.getD_some, Int.toNat_natCast]
  have hlisted : ∀ i < gs.length, listed (pairs (group_list (gs.map ToldGroup.entry))) i =
      (gs.map ToldGroup.read)[i]? := by
    intro i hi
    rw [List.getElem?_map, List.getElem?_eq_getElem hi]
    exact listed_told h (List.getElem?_eq_getElem hi)
  rw [filterMap_range hlisted, List.take_of_length_le (by rw [List.length_map])]

end Read

/-! ## What the client stores -/

/-- The row of a member that says what the server knows. -/
def ToldMember.row (gid : Int) (m : ToldMember) : GroupMember :=
  ⟨gid, m.uid, m.username, if m.nickname = [] then none else some m.nickname, m.isAdmin⟩

/-- Of every group exactly its members are stored, each with its username, nickname and admin flag, and the
number of them; and nothing else. -/
structure StoresExactly (gs : List ToldGroup) (db : Room.Database) : Prop where
  groups : ∀ g ∈ gs, ∃ row, db.groups.find? g.gid = some row ∧ row.name = g.name ∧
    row.memberCount = g.members.length
  members : ∀ g ∈ gs, ∀ uid r, db.group_members.find? (g.gid, uid) = some r ↔
    ∃ m ∈ g.members, m.uid = uid ∧ r = m.row g.gid
  others : ∀ gid, gid ∉ gs.map ToldGroup.gid → db.groups.find? gid = none ∧
    ∀ uid, db.group_members.find? (gid, uid) = none

/-- No username is empty or has a comma, and the member listed first has a nickname, unless none has. -/
def ToldGroup.Aligned (g : ToldGroup) : Prop :=
  (∀ m ∈ g.members, m.username ≠ [] ∧ 44 ∉ m.username) ∧
    ((∀ m ∈ g.members, m.nickname = []) ∨ ∃ m, g.members.head? = some m ∧ m.nickname ≠ [])

section Stored

variable {decode : Bytes → Option Bytes} {session : Session} {gs : List ToldGroup} {g : ToldGroup}
  {m : ToldMember} {idx : Nat}

theorem mem_places {p : ListedGroup × Int × Nat} :
    p ∈ (gs.map ToldGroup.read).flatMap (fun g => g.memberIds.zipIdx.map fun m => (g, m)) ↔
      ∃ g ∈ gs, ∃ idx m, g.members[idx]? = some m ∧ p = (g.read, m.uid, idx) := by
  simp only [List.mem_flatMap, List.mem_map]
  constructor
  · rintro ⟨_, ⟨g, hg, rfl⟩, ⟨uid, idx⟩, hplace, rfl⟩
    have huid := List.mem_zipIdx_iff_getElem?.mp hplace
    rw [ToldGroup.read, List.getElem?_map] at huid
    obtain ⟨m, hm, rfl⟩ := Option.map_eq_some_iff.mp huid
    exact ⟨g, hg, idx, m, hm, rfl⟩
  · rintro ⟨g, hg, idx, m, hm, rfl⟩
    refine ⟨g.read, ⟨g, hg, rfl⟩, (m.uid, idx), List.mem_zipIdx_iff_getElem?.mpr ?_, rfl⟩
    rw [ToldGroup.read, List.getElem?_map, hm]
    rfl

/-- The place of a member is the only one. -/
theorem last_place_told {me : Int} (h : Told me gs) (hg : g ∈ gs) (hm : g.members[idx]? = some m) :
    last_place (gs.map ToldGroup.read) (g.gid, m.uid) = some (g.read, m.uid, idx) := by
  rw [last_place]
  cases hfind : ((gs.map ToldGroup.read).flatMap
      fun g => g.memberIds.zipIdx.map fun m => (g, m)).reverse.find?
        fun p => (p.1.gid, p.2.1) = (g.gid, m.uid) with
  | none =>
    have hmem := mem_places.mpr ⟨g, hg, idx, m, hm, rfl⟩
    exact absurd (decide_eq_true rfl) (List.find?_eq_none.mp hfind _ (List.mem_reverse.mpr hmem))
  | some p =>
    obtain ⟨g', hg', idx', m', hm', rfl⟩ :=
      mem_places.mp (List.mem_reverse.mp (List.mem_of_find?_eq_some hfind))
    have hkey : (g'.gid, m'.uid) = (g.gid, m.uid) := by simpa [ToldGroup.read] using List.find?_some hfind
    obtain ⟨hgid, huid⟩ := Prod.mk.inj hkey
    obtain rfl : g' = g := List.inj_on_of_nodup_map h.gids hg' hg hgid
    have hplaces : (g'.members.map ToldMember.uid)[idx']? = (g'.members.map ToldMember.uid)[idx]? := by
      rw [List.getElem?_map, List.getElem?_map, hm, hm', Option.map_some, Option.map_some, huid]
    have hlt : idx' < (g'.members.map ToldMember.uid).length := by
      rw [List.length_map]
      exact (List.getElem?_eq_some_iff.mp hm').1
    rw [(List.getElem?_inj hlt (h.uids g' hg')).mp hplaces, huid]

theorem last_place_none {me : Int} (h : Told me gs) (hg : g ∈ gs) {uid : Int}
    (hno : ∀ m ∈ g.members, m.uid ≠ uid) : last_place (gs.map ToldGroup.read) (g.gid, uid) = none := by
  rw [last_place, List.find?_eq_none]
  intro p hp
  obtain ⟨g', hg', idx, m, hm, rfl⟩ := mem_places.mp (List.mem_reverse.mp hp)
  rw [decide_eq_true_eq]
  intro hkey
  obtain ⟨hgid, huid⟩ := Prod.mk.inj hkey
  obtain rfl : g' = g := List.inj_on_of_nodup_map h.gids hg' hg hgid
  exact hno m (List.mem_of_getElem? hm) huid

/-- The username of a member is read where no name is empty and none has a comma. -/
theorem username_read (hidx : g.members[idx]? = some m)
    (hnames : ∀ m ∈ g.members, m.username ≠ [] ∧ 44 ∉ m.username) :
    g.read.memberNames.getD idx [] = m.username := by
  have hsplit : g.read.memberNames = g.members.map ToldMember.username := by
    rw [ToldGroup.read]
    dsimp only
    rw [csv_split_csv (List.forall_mem_map.mpr fun m hm => (hnames m hm).2)]
    cases hmembers : g.members with
    | nil => rfl
    | cons m ms => exact dropWhile_empty (hnames m (hmembers ▸ List.mem_cons_self)).1
  rw [hsplit, List.getD_eq_getElem?_getD, List.getElem?_map, hidx]
  rfl

/-- The nickname is read where the first member has one, or none has. -/
theorem nickname_read (hidx : g.members[idx]? = some m)
    (hnicks : (∀ m ∈ g.members, m.nickname = []) ∨ ∃ m, g.members.head? = some m ∧ m.nickname ≠ []) :
    g.read.memberNicks.getD idx [] = encode_nick m.nickname := by
  rcases hnicks with hnone | ⟨first, hhead, hfirst⟩
  · have hempty : g.read.memberNicks = [] := by
      rw [ToldGroup.read, List.dropWhile_eq_nil_iff, List.forall_mem_map]
      intro m hm
      rw [hnone m hm]
      rfl
    rw [hempty, hnone m (List.mem_of_getElem? hidx)]
    rfl
  · have hall : g.read.memberNicks = g.members.map fun m => encode_nick m.nickname := by
      obtain ⟨ms, hmembers⟩ := List.head?_eq_some_iff.mp hhead
      rw [ToldGroup.read]
      dsimp only
      rw [hmembers, List.map_cons, dropWhile_empty]
      rw [encode_nick, if_neg hfirst, base64_encode_eq]
      exact rfc4648_ne_nil hfirst
    rw [hall, List.getD_eq_getElem?_getD, List.getElem?_map, hidx]
    rfl

theorem admin_read (hidx : g.members[idx]? = some m) :
    g.read.memberAdmins.getD idx [] = flag m.isAdmin := by
  rw [ToldGroup.read, List.getD_eq_getElem?_getD, List.getElem?_map, hidx]
  rfl

/-- In an aligned group each row says what the server knows. -/
theorem ToldGroup.Aligned.row (h : g.Aligned) (hidx : g.members[idx]? = some m)
    (hdecode : ∀ m ∈ g.members, m.nickname ≠ [] → decode (rfc4648 m.nickname) = some m.nickname) :
    server_row decode session {} g.read idx m.uid = m.row g.gid := by
  have hm : m ∈ g.members := List.mem_of_getElem? hidx
  have hflag : ∀ b, flag b ≠ [] ∧ decide (flag b = str "1") = b := by decide
  rw [server_row, username_read hidx h.1, nickname_read hidx h.2, admin_read hidx, ToldMember.row,
    if_pos (h.1 m hm).1, if_pos (hflag _).1, (hflag _).2, encode_nick]
  by_cases hnick : m.nickname = []
  · rw [if_pos hnick, if_pos hnick, if_neg (by simp)]
    rfl
  · rw [if_neg hnick, if_neg hnick, base64_encode_eq, if_pos (rfc4648_ne_nil hnick), hdecode m hm hnick]
    rfl

/-- And where each row does, the group is aligned. -/
theorem aligned_of_rows (session : Session)
    (hrows : ∀ idx m, g.members[idx]? = some m → server_row decode session {} g.read idx m.uid = m.row g.gid)
    (hdecode : ∀ m ∈ g.members, m.nickname ≠ [] → decode (rfc4648 m.nickname) = some m.nickname) :
    g.Aligned := by
  constructor
  · intro m hm
    obtain ⟨idx, hidx⟩ := List.mem_iff_getElem?.mp hm
    have hname := congrArg GroupMember.username (hrows idx m hidx)
    rw [server_row, ToldMember.row] at hname
    dsimp only at hname
    by_cases htoken : g.read.memberNames.getD idx [] ≠ []
    · rw [if_pos htoken] at hname
      rw [← hname]
      refine ⟨htoken, ?_⟩
      rw [List.getD_eq_getElem?_getD] at htoken ⊢
      cases hget : g.read.memberNames[idx]? with
      | none => exact List.not_mem_nil
      | some t => exact notMem_csv_split (List.mem_of_getElem? hget)
    · -- the client makes up a name, which is not empty and has no comma
      rw [if_neg htoken] at hname
      have hmade : name_of {} m.uid = str "User " ++ to_string m.uid := rfl
      rw [← hname, hmade]
      refine ⟨by simp [to_string_ne_nil], fun hcomma => ?_⟩
      rcases List.mem_append.mp hcomma with hcomma | hcomma
      · exact absurd hcomma (by decide)
      · exact notMem_to_string (by decide) hcomma
  · by_contra hnot
    push Not at hnot
    obtain ⟨⟨m₀, hm₀, hnick₀⟩, hhead⟩ := hnot
    obtain ⟨first, ms, hmembers⟩ := List.exists_cons_of_ne_nil (List.ne_nil_of_mem hm₀)
    have hfirst : first.nickname = [] := hhead first (by rw [hmembers]; rfl)
    -- the first nickname that is not empty has moved up to the first member
    cases hdrop : (g.members.map fun m => encode_nick m.nickname).dropWhile fun t => t = [] with
    | nil =>
      rw [List.dropWhile_eq_nil_iff, List.forall_mem_map] at hdrop
      have hempty : encode_nick m₀.nickname = [] := by simpa using hdrop m₀ hm₀
      rw [encode_nick, if_neg hnick₀, base64_encode_eq] at hempty
      exact rfc4648_ne_nil hnick₀ hempty
    | cons t rest =>
      have ht : t ≠ [] := by
        have hnonempty := List.head?_dropWhile_not (fun t : Bytes => t = [])
          (g.members.map fun m => encode_nick m.nickname)
        rw [hdrop] at hnonempty
        simpa using hnonempty
      have hmem : t ∈ g.members.map fun m => encode_nick m.nickname :=
        (List.dropWhile_sublist _).subset (hdrop ▸ List.mem_cons_self)
      obtain ⟨m₁, hm₁, rfl⟩ := List.mem_map.mp hmem
      have hnick₁ : m₁.nickname ≠ [] := fun hempty => ht (by rw [hempty]; rfl)
      have hrow := congrArg GroupMember.nickname (hrows 0 first (by rw [hmembers]; rfl))
      have hread : g.read.memberNicks.getD 0 [] = encode_nick m₁.nickname := by
        rw [ToldGroup.read]
        dsimp only
        rw [hdrop]
        rfl
      rw [server_row, ToldMember.row] at hrow
      dsimp only at hrow
      rw [hread, if_pos ht, if_pos hfirst, encode_nick, if_neg hnick₁, base64_encode_eq,
        hdecode m₁ hm₁ hnick₁] at hrow
      cases hrow

/-- From empty tables each listed group stores exactly its members when all the groups are aligned, and
only then. -/
theorem stores_exactly_iff (session : Session) (h : Told session.userId gs)
    (hdecode : ∀ g ∈ gs, ∀ m ∈ g.members, m.nickname ≠ [] → decode (rfc4648 m.nickname) = some m.nickname) :
    StoresExactly gs ((handleGroupListPayload decode session (group_list (gs.map ToldGroup.entry))).run {}).2 ↔
      ∀ g ∈ gs, g.Aligned := by
  obtain ⟨db, hrun, -, -, hgroups, hmembers⟩ :=
    save_groups_run session (server_member_rows decode session) (gs.map ToldGroup.read) {}
  rw [handleGroupListPayload, listed_groups_told h, hrun]
  -- the row at the place of a member
  have hplace : ∀ g ∈ gs, ∀ idx m, g.members[idx]? = some m → db.group_members.find? (g.gid, m.uid) =
      some (server_row decode session {} g.read idx m.uid) := by
    intro g hg idx m hm
    rw [hmembers, left_behind, last_place_told h hg hm]
  constructor
  · intro hstores g hg
    refine aligned_of_rows session (fun idx m hidx => ?_) (hdecode g hg)
    obtain ⟨m', hm', huid, hrow⟩ := (hstores.members g hg m.uid _).mp (hplace g hg idx m hidx)
    have hsame : m' = m := List.inj_on_of_nodup_map (h.uids g hg) hm' (List.mem_of_getElem? hidx) huid
    rw [hrow, hsame]
  · intro haligned
    have hrow : ∀ g ∈ gs, ∀ m ∈ g.members, db.group_members.find? (g.gid, m.uid) = some (m.row g.gid) := by
      intro g hg m hm
      obtain ⟨idx, hidx⟩ := List.mem_iff_getElem?.mp hm
      rw [hplace g hg idx m hidx, (haligned g hg).row hidx (hdecode g hg)]
    have hgid : (gs.map ToldGroup.read).map ListedGroup.gid = gs.map ToldGroup.gid := by
      rw [List.map_map]
      rfl
    refine ⟨fun g hg => ?_, fun g hg uid r => ?_, fun gid hno => ⟨?_, fun uid => ?_⟩⟩
    · rw [hgroups, left_group]
      cases hfind : (gs.map ToldGroup.read).reverse.find? fun g' => g'.gid = g.gid with
      | none =>
        have hmem : g.read ∈ (gs.map ToldGroup.read).reverse := by
          rw [List.mem_reverse]
          exact List.mem_map_of_mem hg
        exact absurd (decide_eq_true rfl) (List.find?_eq_none.mp hfind _ hmem)
      | some read =>
        obtain ⟨g', hg', rfl⟩ := List.mem_map.mp (List.mem_reverse.mp (List.mem_of_find?_eq_some hfind))
        have hsame := List.find?_some hfind
        simp only [decide_eq_true_eq] at hsame
        obtain rfl : g' = g := List.inj_on_of_nodup_map h.gids hg' hg hsame
        exact ⟨_, rfl, rfl, rfl⟩
    · constructor
      · intro hr
        by_cases hany : ∃ m ∈ g.members, m.uid = uid
        · obtain ⟨m, hm, rfl⟩ := hany
          rw [hrow g hg m hm] at hr
          exact ⟨m, hm, rfl, (Option.some.inj hr).symm⟩
        · -- who is no member is not the user itself either
          push Not at hany
          have hnotme : uid ≠ session.userId := by
            obtain ⟨m, hm, hme⟩ := h.me g hg
            exact fun heq => hany m hm (hme.trans heq.symm)
          rw [hmembers, left_behind, last_place_none h hg hany, if_neg fun hown => hnotme hown.1] at hr
          cases hr
      · rintro ⟨m, hm, rfl, rfl⟩
        exact hrow g hg m hm
    · rw [hgroups, left_group]
      have hnone : ((gs.map ToldGroup.read).reverse.find? fun g => g.gid = gid) = none := by
        rw [List.find?_eq_none]
        intro g hg heq
        refine hno (hgid ▸ ?_)
        rw [← of_decide_eq_true heq]
        exact List.mem_map_of_mem (List.mem_reverse.mp hg)
      rw [hnone]
      rfl
    · have hnone : last_place (gs.map ToldGroup.read) (gid, uid) = none := by
        rw [last_place, List.find?_eq_none]
        intro p hp heq
        obtain ⟨g, hg, idx, m, -, rfl⟩ := mem_places.mp (List.mem_reverse.mp hp)
        have hkey := (Prod.mk.inj (of_decide_eq_true heq)).1
        exact hno (hkey ▸ List.mem_map_of_mem hg)
      rw [hmembers, left_behind, hnone, if_neg fun hown => hno (hgid ▸ hown.2)]
      rfl

end Stored

/-! ## Groups as the tables have them -/

section Tables

variable {d : Tables} {me : Int}

/-- Joined with rows of which each finds one at most, rows come at most once. -/
theorem join_sublist {α β : Type} (rows : List α) (p : α → β → Bool) (ms : List β)
    (hone : ∀ x, (ms.filter (p x)).length ≤ 1) :
    (rows.flatMap fun x => (ms.filter (p x)).map fun _ => x).Sublist rows := by
  induction rows with
  | nil => exact .slnil
  | cons x rows ih =>
    rw [List.flatMap_cons]
    have hpiece : ((ms.filter (p x)).map fun _ => x).Sublist [x] := by
      have hlength := hone x
      cases hfilter : ms.filter (p x) with
      | nil => exact List.nil_sublist _
      | cons m rest =>
        rw [hfilter, List.length_cons] at hlength
        obtain rfl : rest = [] := List.eq_nil_of_length_eq_zero (by omega)
        exact List.Sublist.refl _
    exact List.Sublist.append hpiece ih

/-- A user is a member of a group once. -/
theorem member_row_once (hd : d.Valid) (gid uid : Int) (p : GroupMemberRow → Bool)
    (hp : ∀ r, p r = true → r.group_id = gid ∧ r.user_id = uid) : (d.group_members.filter p).length ≤ 1 := by
  have hnodup : ((d.group_members.filter p).map fun r => (r.group_id, r.user_id)).Nodup :=
    hd.members_unique.sublist ((List.filter_sublist).map fun r : GroupMemberRow => (r.group_id, r.user_id))
  cases hfilter : d.group_members.filter p with
  | nil => exact Nat.zero_le 1
  | cons a rest =>
    cases rest with
    | nil => exact Nat.le_refl 1
    | cons b rest =>
      have ha := hp a (List.mem_filter.mp (hfilter ▸ List.mem_cons_self)).2
      have hb := hp b (List.mem_filter.mp (hfilter ▸ List.mem_cons_of_mem _ List.mem_cons_self)).2
      rw [hfilter, List.map_cons, List.map_cons, ha.1, ha.2, hb.1, hb.2, List.nodup_cons] at hnodup
      exact absurd List.mem_cons_self hnodup.1

theorem groupsOf_nodup (hd : d.Valid) (me : Int) : ((d.groupsOf me).map GroupRow.id).Nodup := by
  have hjoin := join_sublist d.groups.rows (fun g m => m.group_id = g.id && m.user_id = me) d.group_members
    fun g => member_row_once hd g.id me _ fun r hr => by simpa using hr
  exact ((List.perm_insertionSort _ _).map _).nodup_iff.mpr (hd.groups_key.sublist (hjoin.map _))

theorem membersOf_nodup (hd : d.Valid) (gid : Int) : ((d.membersOf gid).map UserRow.id).Nodup := by
  have hjoin := join_sublist d.users.rows (fun u m => m.user_id = u.id && m.group_id = gid) d.group_members
    fun u => member_row_once hd gid u.id _ fun r hr => by simpa [and_comm] using hr
  exact ((List.perm_insertionSort _ _).map _).nodup_iff.mpr (hd.users_key.sublist (hjoin.map _))

theorem told_of_valid (hd : d.Valid) (husers : ∀ u ∈ d.users.rows, Fits 32 u.id)
    (hgroups : ∀ g ∈ d.groups.rows, Fits 32 g.id) (hnames : ∀ u ∈ d.users.rows, 38 ∉ u.username)
    (hgroupnames : ∀ g ∈ d.groups.rows, 38 ∉ g.name) (me : Int) : Told me (d.told me) := by
  have hgroup : ∀ g ∈ d.groupsOf me, g ∈ d.groups.rows ∧ d.isMember g.id me = true := by
    intro g hg
    simp only [Tables.groupsOf, List.mem_insertionSort, List.mem_flatMap, List.mem_map, List.mem_filter,
      Bool.and_eq_true, decide_eq_true_eq] at hg
    obtain ⟨g', hg', m, ⟨hm, hgid, huid⟩, rfl⟩ := hg
    exact ⟨hg', (isMember_iff g'.id me).mpr ⟨m, hm, hgid, huid⟩⟩
  have huser : ∀ gid, ∀ u ∈ d.membersOf gid, u ∈ d.users.rows := by
    intro gid u hu
    simp only [Tables.membersOf, List.mem_insertionSort, List.mem_flatMap, List.mem_map] at hu
    obtain ⟨u', hu', -, -, rfl⟩ := hu
    exact hu'
  refine ⟨?_, ?_, ?_, ?_, ?_, ?_⟩
  · rw [Tables.told, List.map_map]
    exact groupsOf_nodup hd me
  · refine List.forall_mem_map.mpr fun g hg => ?_
    exact ⟨(hd.groups_serial.2 g (hgroup g hg).1).1, hgroups g (hgroup g hg).1⟩
  · refine List.forall_mem_map.mpr fun g _ => ?_
    rw [Tables.told_group, List.map_map]
    exact membersOf_nodup hd g.id
  · refine List.forall_mem_map.mpr fun g _ => List.forall_mem_map.mpr fun u hu => ?_
    exact ⟨(hd.users_serial.2 u (huser g.id u hu)).1, husers u (huser g.id u hu)⟩
  · refine List.forall_mem_map.mpr fun g hg => ?_
    have hmember := (hgroup g hg).2
    obtain ⟨r, hr, -, huid⟩ := (isMember_iff g.id me).mp hmember
    have hme := (mem_membersOf d g.id me).mpr ⟨hmember, huid ▸ (hd.members_refs r hr).2⟩
    obtain ⟨u, hu, huid⟩ := List.mem_map.mp hme
    exact ⟨_, List.mem_map_of_mem hu, huid⟩
  · refine List.forall_mem_map.mpr fun g hg => ⟨hgroupnames g (hgroup g hg).1, ?_⟩
    exact List.forall_mem_map.mpr fun u hu => hnames u (huser g.id u hu)

end Tables

/-- **When a group list is decoded aligned**: for all tables, a member of some groups who asks for them gets
a reply from which, with empty tables on the phone, `handleGroupListPayload` stores of every group exactly
its members with their usernames, nicknames and admin flags and the number of them, exactly when in every
group no username is empty or has a comma, and the member listed first has a nickname or none has. -/
theorem group_lists_aligned_iff (env : Env) (w : World) (fd me : Int) (decode : Bytes → Option Bytes)
    (session : Session) (succeeds : env.SqlSucceeds) (answering : w.db.aborted = false)
    (valid : w.db.tables.Valid) (user_ids : ∀ u ∈ w.db.tables.users.rows, Fits 32 u.id)
    (group_ids : ∀ g ∈ w.db.tables.groups.rows, Fits 32 g.id)
    (usernames : ∀ u ∈ w.db.tables.users.rows, 38 ∉ u.username)
    (names : ∀ g ∈ w.db.tables.groups.rows, 38 ∉ g.name)
    (decodes : ∀ g ∈ w.db.tables.told session.userId, ∀ m ∈ g.members, m.nickname ≠ [] →
      decode (rfc4648 m.nickname) = some m.nickname) :
    ∃ payload, Answered env w fd me session.userId .get_user_groups payload ∧
      (StoresExactly (w.db.tables.told session.userId)
          ((handleGroupListPayload decode session payload).run {}).2 ↔
        ∀ g ∈ w.db.tables.told session.userId, g.Aligned) :=
  ⟨_, user_groups_answered fd me session.userId succeeds answering,
    stores_exactly_iff session (told_of_valid valid user_ids group_ids usernames names session.userId) decodes⟩

/-- An answer is one frame, and its payload is told by it. -/
theorem Answered.unique {env : Env} {w : World} {fd me rid : Int} {c : Command} {payload payload' : Bytes}
    (h : Answered env w fd me rid c payload) (h' : Answered env w fd me rid c payload') : payload = payload' := by
  obtain ⟨sent, hout⟩ := h
  obtain ⟨sent', hout'⟩ := h'
  have hframe := List.append_cancel_left (hout.symm.trans hout')
  exact congrArg Frame.payload (List.head_eq_of_cons_eq hframe)

/-- A group of two users with these nicknames. -/
def tables_of_two (nick₁ nick₂ : Option Bytes) : Tables :=
  { Tables.empty with
    users := ⟨[⟨1, str "a", str "x", [], false⟩, ⟨2, str "b", str "y", [], false⟩], 3⟩
    groups := ⟨[⟨1, str "g", 2⟩], 2⟩
    group_members := [⟨1, 1, some false, nick₁⟩, ⟨1, 2, some true, nick₂⟩] }

theorem tables_of_two_valid (nick₁ nick₂ : Option Bytes) : (tables_of_two nick₁ nick₂).Valid := by
  constructor <;> simp [tables_of_two, Tables.empty, Tables.hasUser, Tables.hasGroup, str]

/-- `Base64.decode`, of two nicknames. -/
def decode_two (s : Bytes) : Option Bytes :=
  if s = str "QQ==" then some (str "A") else if s = str "Qg==" then some (str "B") else none

/-- The member listed first has a nickname. -/
theorem group_lists_aligned_two : ∃ payload,
    Answered Env.calm (World.new (tables_of_two (some (str "A")) none)) 5 1 1 .get_user_groups payload ∧
      (StoresExactly ((tables_of_two (some (str "A")) none).told 1)
          ((handleGroupListPayload decode_two ⟨1, none⟩ payload).run {}).2 ↔
        ∀ g ∈ (tables_of_two (some (str "A")) none).told 1, g.Aligned) :=
  group_lists_aligned_iff Env.calm (World.new (tables_of_two (some (str "A")) none)) 5 1 decode_two ⟨1, none⟩
    Env.calm_sqlSucceeds rfl (tables_of_two_valid _ _) (by decide) (by decide) (by decide) (by decide)
    (by decide)

/-- **A nickname moves up**: the nickname of the second member is stored for the first. -/
theorem group_list_misaligned : ¬∀ env w fd me decode session, env.SqlSucceeds → w.db.aborted = false →
    w.db.tables.Valid → (∀ u ∈ w.db.tables.users.rows, Fits 32 u.id) →
    (∀ g ∈ w.db.tables.groups.rows, Fits 32 g.id) → (∀ u ∈ w.db.tables.users.rows, 38 ∉ u.username) →
    (∀ g ∈ w.db.tables.groups.rows, 38 ∉ g.name) →
    (∀ g ∈ w.db.tables.told session.userId, ∀ m ∈ g.members, m.nickname ≠ [] →
      decode (rfc4648 m.nickname) = some m.nickname) →
    ∀ payload, Answered env w fd me session.userId .get_user_groups payload →
      StoresExactly (w.db.tables.told session.userId)
        ((handleGroupListPayload decode session payload).run {}).2 := by
  intro claim
  have hvalid := tables_of_two_valid none (some (str "B"))
  have hdecodes : ∀ g ∈ (tables_of_two none (some (str "B"))).told 1, ∀ m ∈ g.members, m.nickname ≠ [] →
      decode_two (rfc4648 m.nickname) = some m.nickname := by decide
  have hstores := claim Env.calm (World.new (tables_of_two none (some (str "B")))) 5 1 decode_two ⟨1, none⟩
    Env.calm_sqlSucceeds rfl hvalid (by decide) (by decide) (by decide) (by decide) hdecodes _
    (user_groups_answered 5 1 1 Env.calm_sqlSucceeds rfl)
  have htold := told_of_valid hvalid (by decide) (by decide) (by decide) (by decide) 1
  obtain ⟨-, hnicks⟩ := (stores_exactly_iff ⟨1, none⟩ htold hdecodes).mp hstores
    ⟨1, str "g", [⟨1, str "a", [], false⟩, ⟨2, str "b", str "B", true⟩]⟩ (by decide)
  rcases hnicks with hnone | ⟨m, hhead, hnick⟩
  · exact absurd (hnone ⟨2, str "b", str "B", true⟩ (by simp)) (by decide)
  · obtain rfl := Option.some.inj hhead
    exact hnick rfl

end ChatApp
