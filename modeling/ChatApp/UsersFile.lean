/-
`UsersFile.lean` -- when the users file gives back the users it was written from.

`save_users` writes one line a user, with tabs between the fields as they are, and
`load_users` reads lines and fields with `getline`. A field with a tab or a newline
is cut where it is read back, and what stands behind a newline is read as the
record of another user. Of every other table, whatever the order of its records,
the file is an exact copy; the next id is one above the largest as long as an `int`
can hold it.
-/
import ChatApp.ClientMessages
import ChatApp.Durable
import ChatApp.Presence

set_option autoImplicit false

namespace ChatApp

/-! ## Reading lines of users -/

section Lines

variable {u : User} {us : List User}

/-- What a line of a user enters. -/
def enter (s : ServerState × Int) (u : User) : ServerState × Int :=
  ({ s.1 with
    g_users_by_name := s.1.g_users_by_name.set u.username u
    g_users_by_id := s.1.g_users_by_id.set u.id u
    g_friends := s.1.g_friends.touch u.id
    g_friend_requests := s.1.g_friend_requests.touch u.id }, max s.2 u.id)

/-- The fields of a line, of which an empty last one is missing. -/
theorem fields_of_line (hu : u.Plain) : ∃ rest, getlines 9 (user_text u) =
    to_string u.id :: u.username :: u.password_hash :: rest ∧ rest.getD 0 [] = u.phone := by
  refine ⟨getlines 9 u.phone, ?_, ?_⟩
  · rw [user_text, getlines_append (notMem_to_string (by decide)), getlines_append hu.username.1,
      getlines_append hu.password.1]
  · by_cases hphone : u.phone = []
    · rw [hphone]
      rfl
    · rw [getlines_last hu.phone.1 hphone]
      rfl

/-- What stands in a piece stands in the text. -/
theorem mem_of_mem_getlines {d b : UInt8} {s l : Bytes} (h : l ∈ getlines d s) (hb : b ∈ l) : b ∈ s := by
  induction s generalizing l with
  | nil => cases h
  | cons c s ih =>
    rw [getlines] at h
    split at h
    · rcases List.mem_cons.mp h with rfl | h
      · cases hb
      · exact List.mem_cons_of_mem _ (ih h hb)
    · split at h
      · rw [List.mem_singleton.mp h, List.mem_singleton] at hb
        exact hb ▸ List.mem_cons_self
      · next t ts hs =>
        rcases List.mem_cons.mp h with rfl | h
        · rcases List.mem_cons.mp hb with rfl | hb
          · exact List.mem_cons_self
          · exact List.mem_cons_of_mem _ (ih (hs ▸ List.mem_cons_self) hb)
        · exact List.mem_cons_of_mem _ (ih (hs ▸ List.mem_cons_of_mem _ h) hb)

/-- A field of a line of a file holds no tab and no newline. -/
theorem field_of_line {file line : Bytes} (hline : line ∈ getlines 10 file) (i : Nat) :
    9 ∉ (getlines 9 line).getD i [] ∧ 10 ∉ (getlines 9 line).getD i [] := by
  by_cases hi : i < (getlines 9 line).length
  · have hfield : (getlines 9 line).getD i [] ∈ getlines 9 line := by
      rw [List.getD_eq_getElem?_getD, List.getElem?_eq_getElem hi]
      exact List.getElem_mem hi
    refine ⟨notMem_of_mem_getlines hfield, fun hnewline => ?_⟩
    exact notMem_of_mem_getlines hline (mem_of_mem_getlines hfield hnewline)
  · rw [List.getD_eq_getElem?_getD, List.getElem?_eq_none (by omega)]
    exact ⟨List.not_mem_nil, List.not_mem_nil⟩

/-- A line of a user with plain fields enters that user. -/
theorem load_line_text (s : ServerState × Int) (hu : u.Plain) (hid : Fits 32 u.id) :
    load_line s (user_text u) = .ok (enter s u) := by
  obtain ⟨rest, hfields, hphone⟩ := fields_of_line hu
  have hstoi : stoi (to_string u.id) = .ok u.id := stoi_to_string hid.1 hid.2
  simp only [load_line, hfields, List.getD_cons_zero, List.getD_cons_succ, hstoi, bind, Except.bind,
    hphone]
  rfl

theorem load_lines_text (hus : ∀ u ∈ us, u.Plain ∧ Fits 32 u.id) (s : ServerState × Int) :
    (us.map user_text).foldlM load_line s = .ok (us.foldl enter s) := by
  induction us generalizing s with
  | nil => rfl
  | cons u us ih =>
    obtain ⟨hplain, hid⟩ := hus u List.mem_cons_self
    have hrest := ih (fun v hv => hus v (List.mem_cons_of_mem _ hv)) (enter s u)
    rw [List.map_cons, List.foldlM_cons, load_line_text s hplain hid, List.foldl_cons, ← hrest]
    rfl

/-- Values entered under keys that tell them apart: each is found under its key. -/
theorem find?_foldl_keyed {K V : Type} [DecidableEq K] (key : V → K) {vs : List V}
    (hkeys : (vs.map key).Nodup) (m : UMap K V) (k : K) (v : V) :
    (vs.foldl (fun m v => m.set (key v) v) m).find? k = some v ↔
      (v ∈ vs ∧ key v = k) ∨ (k ∉ vs.map key ∧ m.find? k = some v) := by
  have hfold := UMap.find?_foldl_set key (fun v => v) vs m k
  rw [Option.map_id'] at hfold
  rw [hfold]
  cases hlast : vs.reverse.find? fun v => key v = k with
  | none =>
    have hno : ∀ x ∈ vs, key x ≠ k := by simpa using hlast
    rw [Option.none_or]
    constructor
    · intro hm
      refine .inr ⟨fun hk => ?_, hm⟩
      obtain ⟨x, hx, hxk⟩ := List.mem_map.mp hk
      exact hno x hx hxk
    · rintro (⟨hv, hvk⟩ | ⟨-, hm⟩)
      · exact absurd hvk (hno v hv)
      · exact hm
  | some x =>
    have hx : x ∈ vs := List.mem_reverse.mp (List.mem_of_find?_eq_some hlast)
    have hxk : key x = k := by simpa using List.find?_some hlast
    rw [Option.some_or]
    constructor
    · rintro ⟨rfl⟩
      exact .inl ⟨hx, hxk⟩
    · rintro (⟨hv, hvk⟩ | ⟨hnot, -⟩)
      · exact congrArg some (List.inj_on_of_nodup_map hkeys hx hv (hxk.trans hvk.symm))
      · exact absurd (List.mem_map.mpr ⟨x, hx, hxk⟩) hnot

theorem enter_by_name (s : ServerState × Int) : (us.foldl enter s).1.g_users_by_name =
    us.foldl (fun m u => m.set u.username u) s.1.g_users_by_name := by
  induction us generalizing s with
  | nil => rfl
  | cons u us ih => rw [List.foldl_cons, ih, List.foldl_cons, enter]

theorem enter_by_id (s : ServerState × Int) : (us.foldl enter s).1.g_users_by_id =
    us.foldl (fun m u => m.set u.id u) s.1.g_users_by_id := by
  induction us generalizing s with
  | nil => rfl
  | cons u us ih => rw [List.foldl_cons, ih, List.foldl_cons, enter]

/-- The largest id is at least what it starts with and every id, and is one of these. -/
theorem enter_max (s : ServerState × Int) : s.2 ≤ (us.foldl enter s).2 ∧
    (∀ u ∈ us, u.id ≤ (us.foldl enter s).2) ∧
    ((us.foldl enter s).2 = s.2 ∨ ∃ u ∈ us, (us.foldl enter s).2 = u.id) := by
  induction us generalizing s with
  | nil => simp
  | cons u us ih =>
    obtain ⟨hstart, hall, hone⟩ := ih (enter s u)
    have hmax : (enter s u).2 = max s.2 u.id := rfl
    rw [hmax] at hstart hone
    rw [List.foldl_cons]
    refine ⟨by omega, ?_, ?_⟩
    · intro v hv
      rcases List.mem_cons.mp hv with rfl | hv
      · omega
      · exact hall v hv
    · rcases hone with hone | ⟨v, hv, hone⟩
      · rcases max_choice s.2 u.id with hs | hu
        · exact .inl (hone.trans hs)
        · exact .inr ⟨u, List.mem_cons_self, hone.trans hu⟩
      · exact .inr ⟨v, List.mem_cons_of_mem _ hv, hone⟩

end Lines

/-! ## The codec -/

/-- The records of a table in the order of the file. -/
def records (m : UMap Bytes User) : List User := m.toList.map Prod.snd

/-- What the lines of these records enter, and the largest id. -/
def entered (m : UMap Bytes User) : ServerState × Int := (records m).foldl enter (ServerState.initial, 0)

/-- A table of users as `REGISTER` fills it: under their names, with different ids, which are `int`s, with
a name and a password, and with whatever else a field of a request can hold. -/
structure Registered (m : UMap Bytes User) : Prop where
  named : ∀ n u, m.find? n = some u → u.username = n
  ids : ((records m).map User.id).Nodup
  int : ∀ n u, m.find? n = some u → Fits 32 u.id
  nonempty : ∀ n u, m.find? n = some u → u.username ≠ [] ∧ u.password_hash ≠ []
  text : ∀ n u, m.find? n = some u → 38 ∉ u.username ∧ 38 ∉ u.password_hash ∧ 38 ∉ u.phone

/-- The file of the table is loaded as the same users, under their names and under their ids, and the next
id is one above the largest. -/
def Faithful (m : UMap Bytes User) : Prop :=
  ∃ s, load_users (save_users m) = .ok s ∧
    (∀ n, s.g_users_by_name.find? n = m.find? n) ∧
    (∀ i u, s.g_users_by_id.find? i = some u ↔ u.id = i ∧ m.find? u.username = some u) ∧
    (∀ n u, m.find? n = some u → u.id < s.g_next_user_id) ∧
    ((∃ n u, m.find? n = some u) → ∃ n u, m.find? n = some u ∧ s.g_next_user_id = u.id + 1)

/-- No field holds a tab or a newline, and the largest id, if there is one, is not negative and leaves room
for another. -/
structure Storable (m : UMap Bytes User) : Prop where
  plain : ∀ n u, m.find? n = some u → u.Plain
  room : ∀ n u, m.find? n = some u → u.id ≠ 2147483647
  natural : (∃ n u, m.find? n = some u) → ∃ n u, m.find? n = some u ∧ 0 ≤ u.id

section Codec

variable {m : UMap Bytes User}

theorem largest_id (m : UMap Bytes User) : 0 ≤ (entered m).2 ∧ (∀ u ∈ records m, u.id ≤ (entered m).2) ∧
    ((entered m).2 = 0 ∨ ∃ u ∈ records m, (entered m).2 = u.id) :=
  enter_max (ServerState.initial, 0)

theorem Registered.mem_records (h : Registered m) {u : User} :
    u ∈ records m ↔ m.find? u.username = some u := by
  rw [records, List.mem_map]
  constructor
  · rintro ⟨⟨n, u⟩, hu, rfl⟩
    have hfound := (m.mem_toList n u).mp hu
    exact (h.named n u hfound) ▸ hfound
  · intro hfound
    exact ⟨(u.username, u), (m.mem_toList ..).mpr hfound, rfl⟩

theorem Registered.names (h : Registered m) : (records m).map User.username = m.keys := by
  rw [records, UMap.keys, List.map_map]
  refine List.map_congr_left fun e he => ?_
  exact h.named e.1 e.2 ((m.mem_toList ..).mp he)

/-- Loading the file of a table without tabs and newlines in its fields. -/
theorem Registered.load (h : Registered m) (hplain : ∀ n u, m.find? n = some u → u.Plain) :
    load_users (save_users m) = .ok { (entered m).1 with
      g_next_user_id := handle_client.succ_int (entered m).2 } := by
  have hlines : getlines 10 (save_users m) = (records m).map user_text := by
    rw [lines_of_save hplain, records, List.map_map]
    rfl
  have hrecords : ∀ u ∈ records m, u.Plain ∧ Fits 32 u.id := fun u hu =>
    ⟨hplain _ u (h.mem_records.mp hu), h.int _ u (h.mem_records.mp hu)⟩
  rw [load_users, hlines, load_lines_text hrecords]
  rfl

/-- A user that is loaded has fields without tabs and newlines, since it stands in a line. -/
theorem plain_of_loaded {file : Bytes} {s : ServerState} (h : load_users file = .ok s) {n : Bytes} {u : User}
    (hu : s.g_users_by_name.find? n = some u) : u.Plain := by
  obtain ⟨s', _, hs', rfl⟩ := load_users_rule (I := fun s => ∀ n u, s.1.g_users_by_name.find? n = some u →
    u.Plain) h (fun n u hu => by simp [ServerState.initial] at hu) fun line hmem s s' hline hs n u hu => by
      obtain ⟨id, hname, -⟩ := load_line_ok hline
      rw [hname, UMap.find?_set] at hu
      split at hu
      · rw [← Option.some.inj hu]
        exact ⟨field_of_line hmem 1, field_of_line hmem 2, field_of_line hmem 3⟩
      · exact hs n u hu
  exact hs' n u hu

/-- The names that are loaded are the table's. -/
theorem Registered.by_name (h : Registered m) (n : Bytes) :
    (entered m).1.g_users_by_name.find? n = m.find? n := by
  have hkeys : ((records m).map User.username).Nodup := h.names ▸ m.keys_nodup
  ext u
  rw [entered, enter_by_name, find?_foldl_keyed _ hkeys, h.mem_records]
  constructor
  · rintro (⟨hu, rfl⟩ | ⟨-, hnone⟩)
    · exact hu
    · simp [ServerState.initial] at hnone
  · intro hu
    have hname := h.named n u hu
    exact .inl ⟨by rw [hname, hu], hname⟩

/-- The ids that are loaded are those of its users. -/
theorem Registered.by_id (h : Registered m) (i : Int) (u : User) :
    (entered m).1.g_users_by_id.find? i = some u ↔
      u.id = i ∧ m.find? u.username = some u := by
  rw [entered, enter_by_id, find?_foldl_keyed _ h.ids, h.mem_records]
  constructor
  · rintro (⟨hu, hi⟩ | ⟨-, hnone⟩)
    · exact ⟨hi, hu⟩
    · simp [ServerState.initial] at hnone
  · rintro ⟨hi, hu⟩
    exact .inl ⟨hu, hi⟩

/-- Adding one, where an `int` can hold the result. -/
theorem succ_int_below {k : Int} (h0 : 0 ≤ k) (hk : k < 2147483647) : handle_client.succ_int k = k + 1 := by
  rw [handle_client.succ_int, Int.bmod_eq_of_le (by omega) (by omega)]

/-- The file of a storable table is faithful. -/
theorem Storable.faithful (h : Registered m) (hs : Storable m) : Faithful m := by
  obtain ⟨hmin, hall, hone⟩ := largest_id m
  -- the largest id is that of a user, or there is no user
  have hlargest : (∃ n u, m.find? n = some u) → ∃ u ∈ records m,
      (entered m).2 = u.id := by
    intro hany
    obtain ⟨n, u, hu, h0⟩ := hs.natural hany
    have hmem : u ∈ records m := h.mem_records.mpr ((h.named n u hu).symm ▸ hu)
    rcases hone with hzero | hone
    · have hle := hall u hmem
      exact ⟨u, hmem, by omega⟩
    · exact hone
  have hnext : (∃ n u, m.find? n = some u) →
      handle_client.succ_int (entered m).2 =
        (entered m).2 + 1 := by
    intro hany
    obtain ⟨u, hu, hid⟩ := hlargest hany
    have hfound := h.mem_records.mp hu
    have hfits := h.int _ u hfound
    have hroom := hs.room _ u hfound
    refine succ_int_below hmin ?_
    rw [hid]
    simp only [Fits] at hfits
    omega
  refine ⟨_, h.load hs.plain, h.by_name, h.by_id, ?_, ?_⟩
  · intro n u hu
    have hle := hall u (h.mem_records.mpr ((h.named n u hu).symm ▸ hu))
    show u.id < handle_client.succ_int _
    rw [hnext ⟨n, u, hu⟩]
    omega
  · intro hany
    obtain ⟨u, hu, hid⟩ := hlargest hany
    refine ⟨u.username, u, h.mem_records.mp hu, ?_⟩
    show handle_client.succ_int _ = _
    rw [hnext hany, hid]

/-- A faithful file is that of a storable table. -/
theorem Faithful.storable (h : Registered m) (hf : Faithful m) : Storable m := by
  obtain ⟨s, hload, hnames, -, hbelow, habove⟩ := hf
  have hplain : ∀ n u, m.find? n = some u → u.Plain := fun n u hu =>
    plain_of_loaded hload ((hnames n).trans hu)
  obtain ⟨hmin, hall, hone⟩ := largest_id m
  have hnext : s.g_next_user_id =
      handle_client.succ_int (entered m).2 := by
    rw [h.load hplain] at hload
    exact congrArg ServerState.g_next_user_id (Except.ok.inj hload).symm
  have hint : (entered m).2 ≤ 2147483647 := by
    rcases hone with hzero | ⟨u, hu, hid⟩
    · omega
    · have hfits := h.int _ u (h.mem_records.mp hu)
      simp only [Fits] at hfits
      omega
  refine ⟨hplain, ?_, ?_⟩
  · -- the id after the largest `int` is the smallest one
    intro n u hu hid
    have hle := hall u (h.mem_records.mpr ((h.named n u hu).symm ▸ hu))
    have hlt := hbelow n u hu
    have hfull : (entered m).2 = 2147483647 := by omega
    rw [hnext, hfull, hid] at hlt
    exact absurd hlt (by decide)
  · intro hany
    obtain ⟨n, u, hu, hid⟩ := habove hany
    refine ⟨n, u, hu, ?_⟩
    have hfits := h.int n u hu
    simp only [Fits] at hfits
    by_cases hroom : (entered m).2 < 2147483647
    · rw [hnext, succ_int_below hmin hroom] at hid
      omega
    · have hfull : (entered m).2 = 2147483647 := by omega
      have hleast : s.g_next_user_id = -2147483648 := by
        rw [hnext, hfull]
        decide
      omega

end Codec

/-- **When the users file is faithful**: for every table that `REGISTER` can fill, in whatever order its
records are written, loading the file gives exactly its users, under their names and ids, and the id above
the largest, exactly when no field holds a tab or a newline and the largest id leaves room. -/
theorem users_file_faithful_iff {m : UMap Bytes User} (registered : Registered m) :
    Faithful m ↔ Storable m :=
  ⟨Faithful.storable registered, Storable.faithful registered⟩

/-- A table given by its entries. -/
theorem registered_of_entries {m : UMap Bytes User} (hids : ((records m).map User.id).Nodup)
    (h : ∀ e ∈ m.toList, e.2.username = e.1 ∧ Fits 32 e.2.id ∧
      (e.2.username ≠ [] ∧ e.2.password_hash ≠ []) ∧
      38 ∉ e.2.username ∧ 38 ∉ e.2.password_hash ∧ 38 ∉ e.2.phone) : Registered m := by
  have hentry : ∀ n u, m.find? n = some u → (n, u) ∈ m.toList := fun n u hu => (m.mem_toList n u).mpr hu
  constructor
  · exact fun n u hu => (h _ (hentry n u hu)).1
  · exact hids
  · exact fun n u hu => (h _ (hentry n u hu)).2.1
  · exact fun n u hu => (h _ (hentry n u hu)).2.2.1
  · exact fun n u hu => (h _ (hentry n u hu)).2.2.2

/-- Two users, the first without a phone number. -/
def two_records : UMap Bytes User :=
  ((∅ : UMap Bytes User).set (str "a") ⟨1, str "a", str "x", []⟩).set (str "b")
    ⟨2, str "b", str "y", str "555"⟩

theorem users_file_faithful_two : Faithful two_records ↔ Storable two_records :=
  users_file_faithful_iff (registered_of_entries (by decide) (by decide))

/-- The user who registers as this name brings along an account of its own making. -/
def forged_name : Bytes := str "a\n9\tb\tc\t"

/-- **An account is injected**: one `REGISTER` is enough for a table whose file is that of two users. -/
theorem users_file_forged : ¬∀ w, Reachable false Env.calm w → Registered w.mem.g_users_by_name →
    Faithful w.mem.g_users_by_name := by
  intro claim
  have hrun : (Run.exec (Server.step false Env.calm) (World.new Tables.empty)
      [.accept 5, registration "a\n9\tb\tc\t"]).map (fun w => w.mem.g_users_by_name.toList)
        = some [(forged_name, ⟨1, forged_name, str "x", []⟩)] := by
    decide
  obtain ⟨w, hreach, hw⟩ := reachable_of_exec (World.new_fresh Tables.empty_valid) rfl hrun
  have hregistered : Registered w.mem.g_users_by_name := by
    refine registered_of_entries ?_ ?_
    · rw [records, hw]
      decide
    · rw [hw]
      decide
  have hstorable := (claim w hreach hregistered).storable hregistered
  have hentry : (forged_name, ⟨1, forged_name, str "x", []⟩) ∈ w.mem.g_users_by_name.toList := by
    rw [hw]
    exact List.mem_singleton.mpr rfl
  have hplain := hstorable.plain _ _ ((UMap.mem_toList ..).mp hentry)
  exact absurd hplain.username.1 (by decide)

end ChatApp
