/-
`Durable.lean` -- what a restart without a database recovers of the registrations.

`REGISTER` saves the users before the new one is among them: the file is the table as it was before the last
registration, so a restart loses the newest account, and the next registration gets its id. What is
registered is therefore recovered exactly as long as nobody registers. The file is read back by names: no
line of it has the newest name, whatever the ids are.
-/
import ChatApp.Codecs
import ChatApp.UserTables

set_option autoImplicit false

namespace ChatApp

open Prog PostgresPersistence handle_client

/-! ## The users file -/

/-- No field of the user holds a tab or a newline. -/
structure User.Plain (u : User) : Prop where
  username : 9 ∉ u.username ∧ 10 ∉ u.username
  password : 9 ∉ u.password_hash ∧ 10 ∉ u.password_hash
  phone : 9 ∉ u.phone ∧ 10 ∉ u.phone

/-- A line of the users file without its newline. -/
def user_text (u : User) : Bytes := to_string u.id ++ 9 :: (u.username ++ 9 :: (u.password_hash ++ 9 :: u.phone))

section File

variable {u : User}

theorem user_line_eq (u : User) : user_line u = user_text u ++ [10] := by
  simp [user_line, user_text]

theorem newline_notMem_text (hu : u.Plain) : 10 ∉ user_text u := by
  have hid : (10 : UInt8) ∉ to_string u.id := notMem_to_string (by decide)
  simp [user_text, hid, hu.username.2, hu.password.2, hu.phone.2]

/-- The second field of a line is the name. -/
theorem name_of_line (hu : u.Plain) : (getlines 9 (user_text u)).getD 1 [] = u.username := by
  rw [user_text, getlines_append (notMem_to_string (by decide)), getlines_append hu.username.1]
  rfl

/-- The lines of a saved table. -/
theorem lines_of_save {m : UMap Bytes User} (hm : ∀ n u, m.find? n = some u → u.Plain) :
    getlines 10 (save_users m) = m.toList.map fun e => user_text e.2 := by
  have hlines : save_users m = ((m.toList.map fun e => user_text e.2).map fun l => l ++ [10]).flatten := by
    rw [save_users, List.map_map]
    exact congrArg List.flatten (List.map_congr_left fun e _ => user_line_eq e.2)
  rw [hlines]
  refine getlines_lines fun l hl => ?_
  obtain ⟨e, he, rfl⟩ := List.mem_map.mp hl
  exact newline_notMem_text (hm e.1 e.2 ((m.mem_toList ..).mp he))

/-- The user of a line. -/
def line_user (id : Int) (line : Bytes) : User :=
  ⟨id, (getlines 9 line).getD 1 [], (getlines 9 line).getD 2 [], (getlines 9 line).getD 3 []⟩

/-- A line that is loaded has an id, and its user is entered. -/
theorem load_line_ok {s s' : ServerState × Int} {line : Bytes} (h : load_line s line = .ok s') :
    ∃ id, s'.1.g_users_by_name = s.1.g_users_by_name.set (line_user id line).username (line_user id line) ∧
      s'.2 = max s.2 id := by
  simp only [load_line] at h
  cases hid : stoi ((getlines 9 line).getD 0 []) with
  | error e => rw [hid] at h; cases h
  | ok id =>
    rw [hid] at h
    cases h
    exact ⟨id, rfl, rfl⟩

/-- Every user that is loaded is under its name, which stands in a line. -/
theorem name_of_loaded {file : Bytes} {s : ServerState} (h : load_users file = .ok s) {n : Bytes} {u : User}
    (hu : s.g_users_by_name.find? n = some u) :
    u.username = n ∧ ∃ line ∈ getlines 10 file, (getlines 9 line).getD 1 [] = n := by
  obtain ⟨s', _, hs', rfl⟩ := load_users_rule (I := fun s => ∀ n u, s.1.g_users_by_name.find? n = some u →
    u.username = n ∧ ∃ line ∈ getlines 10 file, (getlines 9 line).getD 1 [] = n) h
    (fun n u hu => by simp [ServerState.initial] at hu) fun line hmem s s' hline hs n u hu => by
      obtain ⟨id, hname, -⟩ := load_line_ok hline
      rw [hname, UMap.find?_set] at hu
      split at hu
      · next hn =>
        rw [← Option.some.inj hu, hn]
        exact ⟨rfl, line, hmem, rfl⟩
      · exact hs n u hu
  exact hs' n u hu

/-- The names of a saved table are its own. -/
theorem name_of_saved {m : UMap Bytes User} {s : ServerState} (hm : ∀ n u, m.find? n = some u →
    u.username = n ∧ u.Plain) (h : load_users (save_users m) = .ok s) {n : Bytes} {u : User}
    (hu : s.g_users_by_name.find? n = some u) : ∃ v, m.find? n = some v := by
  obtain ⟨-, line, hline, hname⟩ := name_of_loaded h hu
  rw [lines_of_save fun n u hu => (hm n u hu).2] at hline
  obtain ⟨e, he, rfl⟩ := List.mem_map.mp hline
  have hfound := (m.mem_toList ..).mp he
  obtain ⟨hkey, hplain⟩ := hm _ _ hfound
  rw [name_of_line hplain, hkey] at hname
  exact ⟨e.2, hname ▸ hfound⟩

end File

/-! ## What is registered -/

/-- `u` was entered by a `REGISTER` that was answered with `SUCCESS`. -/
def Concurrent.Enrolled (tr : List (Taken Concurrent Concurrent.Event)) (u : User) : Prop :=
  ∃ t ∈ tr, Concurrent.Registers t ∧ t.before.world.mem.g_users_by_name.find? u.username = none ∧
    t.after.world.mem.g_users_by_name.find? u.username = some u

/-- `u` was loaded when the server started, or has registered since. -/
def Concurrent.Known (w₀ : World) (tr : List (Taken Concurrent Concurrent.Event)) (u : User) : Prop :=
  w₀.mem.g_users_by_name.find? u.username = some u ∨ Concurrent.Enrolled tr u

/-- A server that starts from the file has exactly these users, and its next id is none of theirs. -/
def Recovers (file : Bytes) (known : User → Prop) : Prop :=
  ∃ s, load_users file = .ok s ∧ (∀ n u, s.g_users_by_name.find? n = some u ↔ u.username = n ∧ known u) ∧
    ∀ u, known u → u.id ≠ s.g_next_user_id

/-- The table under its own names, who is in it, and the file: as they were at the start, or the table
as it was before the last registration. -/
structure Persisted (w₀ : World) (past : List (Taken Concurrent Concurrent.Event)) (w : World) : Prop where
  named : ∀ n u, w.mem.g_users_by_name.find? n = some u → u.username = n
  known : ∀ u, w.mem.g_users_by_name.find? u.username = some u ↔ Concurrent.Known w₀ past u
  file : ((∀ t ∈ past, ¬Concurrent.Registers t) ∧ w.mem.g_users_by_name = w₀.mem.g_users_by_name ∧
      w.users_file = w₀.users_file) ∨
    (∃ t ∈ past, Concurrent.Registers t) ∧ ∃ m u, m.find? u.username = none ∧
      w.mem.g_users_by_name = m.set u.username u ∧ w.users_file = save_users m

section Runs

variable {env₀ env : Env} {w₀ w w' : World} {s : Concurrent}
  {past tr : List (Taken Concurrent Concurrent.Event)} {t : Taken Concurrent Concurrent.Event}

theorem enrolled_snoc (u : User) : Concurrent.Enrolled (past ++ [t]) u ↔ Concurrent.Enrolled past u ∨
    (Concurrent.Registers t ∧ t.before.world.mem.g_users_by_name.find? u.username = none ∧
      t.after.world.mem.g_users_by_name.find? u.username = some u) := by
  simp only [Concurrent.Enrolled, List.mem_append, List.mem_singleton]
  constructor
  · rintro ⟨t', ht' | rfl, h⟩
    · exact .inl ⟨t', ht', h⟩
    · exact .inr h
  · rintro (⟨t', ht', h⟩ | h)
    · exact ⟨t', .inl ht', h⟩
    · exact ⟨t, .inr rfl, h⟩

/-- A transition that leaves the accounts alone enrolls nobody. -/
theorem Persisted.same (h : Persisted w₀ past t.before.world)
    (hsame : AccountsSame t.before.world t.after.world) (hno : ¬Concurrent.Registers t) :
    Persisted w₀ (past ++ [t]) t.after.world := by
  refine ⟨fun n u hu => h.named n u (hsame.by_name ▸ hu), fun u => ?_, ?_⟩
  · rw [hsame.by_name, h.known, Concurrent.Known, Concurrent.Known, enrolled_snoc]
    simp [hno]
  · rw [hsame.by_name, hsame.file]
    rcases h.file with ⟨hpast, hrest⟩ | ⟨⟨t', ht', hregisters⟩, hrest⟩
    · refine .inl ⟨fun t' ht' => ?_, hrest⟩
      rcases List.mem_append.mp ht' with ht' | ht'
      · exact hpast t' ht'
      · rw [List.mem_singleton.mp ht']
        exact hno
    · exact .inr ⟨⟨t', List.mem_append_left _ ht', hregisters⟩, hrest⟩

/-- A registration enrolls its user, and saves the table before it. -/
theorem Persisted.entered (h : Persisted w₀ past t.before.world) {fd : Int} {payload : Bytes} {u : User}
    (hentered : Entered false env fd payload u t.before.world t.after.world)
    (hregisters : Concurrent.Registers t) : Persisted w₀ (past ++ [t]) t.after.world := by
  refine ⟨fun n v hv => ?_, fun v => ?_, .inr ⟨⟨t, by simp, hregisters⟩, _, u, hentered.free,
    hentered.by_name, hentered.file rfl⟩⟩
  · rw [hentered.by_name, UMap.find?_set] at hv
    split at hv
    · next hn => rw [← Option.some.inj hv, hn]
    · exact h.named n v hv
  · have hold := h.known v
    rw [Concurrent.Known] at hold
    rw [Concurrent.Known, enrolled_snoc, ← or_assoc, ← hold, hentered.by_name, UMap.find?_set]
    split
    · next hname => simp [hregisters, hname, hentered.free]
    · constructor
      · exact .inl
      · rintro (hv | ⟨-, hnone, hv⟩)
        · exact hv
        · exact hv

/-- Without a database the server starts with what it loads from the file. -/
theorem boot_loads (booted : Booted false env₀ w₀) : load_users w₀.users_file = .ok w₀.mem := by
  obtain ⟨w, -, ⟨hpg, -⟩ | ⟨-, s, hload, rfl⟩⟩ := booted.loaded
  · exact Bool.noConfusion hpg
  · exact hload

/-- What a run leaves in the table and in the file. -/
theorem persisted (booted : Booted false env₀ w₀)
    (run : Concurrent.Run false env (fun _ _ => True) (.quiet w₀) tr s) :
    Persisted w₀ tr s.world := by
  suffices h : (∀ h ∈ s.handlers, Stage false h) ∧ Persisted w₀ tr s.world from h.2
  refine run.history (I := fun past x => (∀ h ∈ x.handlers, Stage false h) ∧ Persisted w₀ past x.world)
    ⟨fun h hh => absurd hh List.not_mem_nil, ?_⟩ ?_
  · have hload := boot_loads booted
    refine ⟨fun n u hu => (name_of_loaded hload hu).1, fun u => ?_, .inl ⟨?_, rfl, rfl⟩⟩
    · simp [Concurrent.Known, Concurrent.Enrolled, Concurrent.quiet]
    · exact fun t ht => absurd ht List.not_mem_nil
  · rintro past x e y ⟨hstages, hx⟩ - hs
    obtain ⟨hstages', heffect⟩ := stages_step hs hstages
    refine ⟨hstages', ?_⟩
    have hpersisted : Persisted w₀ past (Taken.mk x e y).before.world := hx
    rcases heffect with hsame | ⟨i, fd, me, rid, payload, u, he, hget, hentered⟩
    · by_cases hregisters : Concurrent.Registers ⟨x, e, y⟩
      · obtain ⟨fd, payload, u, hentered⟩ := entered_of_registers hs hregisters
        exact hpersisted.entered hentered hregisters
      · exact hpersisted.same hsame hregisters
    · exact hpersisted.entered hentered ⟨i, fd, me, rid, payload, he, hget, hentered.succeeded⟩

/-- **The newest registration is not in the file.** -/
theorem newest_not_saved {m : UMap Bytes User} {u : User} {known : User → Prop}
    (hm : ∀ n v, m.find? n = some v → v.username = n ∧ v.Plain) (hfree : m.find? u.username = none)
    (hknown : known u) : ¬Recovers (save_users m) known := by
  rintro ⟨s, hload, hrecovers, -⟩
  obtain ⟨v, hv⟩ := name_of_saved hm hload ((hrecovers _ _).mpr ⟨rfl, hknown⟩)
  rw [hfree] at hv
  cases hv

/-- **Registrations are recovered as long as there are none.** When the server is stopped in any state of any
run, a restart recovers exactly the users that were loaded or have registered, with a fresh next id,
if and only if nobody has registered, and the next id was fresh when the server started. -/
theorem registrations_recovered (booted : Booted false env₀ w₀)
    (run : Concurrent.Run false env (fun _ _ => True) (.quiet w₀) tr s)
    (plain : ∀ u, Concurrent.Known w₀ tr u → u.Plain) :
    Recovers s.world.users_file (Concurrent.Known w₀ tr) ↔ (∀ t ∈ tr, ¬Concurrent.Registers t) ∧
      ∀ u, w₀.mem.g_users_by_name.find? u.username = some u → u.id ≠ w₀.mem.g_next_user_id := by
  have hpersisted := persisted booted run
  have hload := boot_loads booted
  constructor
  · intro hrecovers
    rcases hpersisted.file with ⟨hno, -, hfile⟩ | ⟨-, m, u, hfree, htable, hfile⟩
    · refine ⟨hno, fun u hu => ?_⟩
      obtain ⟨s', hload', -, hfresh⟩ := hrecovers
      rw [hfile, hload] at hload'
      rw [Except.ok.inj hload']
      exact hfresh u (.inl hu)
    · -- the newest user is known, but not in the file
      have hin : ∀ n v, m.find? n = some v → s.world.mem.g_users_by_name.find? n = some v := by
        intro n v hv
        have hn : n ≠ u.username := fun hn => by rw [hn, hfree] at hv; cases hv
        rw [htable, UMap.find?_set, if_neg hn, hv]
      have hknown : Concurrent.Known w₀ tr u := (hpersisted.known u).mp (by
        rw [htable, UMap.find?_set, if_pos rfl])
      rw [hfile] at hrecovers
      refine absurd hrecovers (newest_not_saved (fun n v hv => ?_) hfree hknown)
      have hname := hpersisted.named n v (hin n v hv)
      exact ⟨hname, plain v ((hpersisted.known v).mp (by rw [hname]; exact hin n v hv))⟩
  · rintro ⟨hno, hfresh⟩
    have hknown : ∀ u, Concurrent.Known w₀ tr u ↔ w₀.mem.g_users_by_name.find? u.username = some u := by
      refine fun u => ⟨fun h => h.resolve_right ?_, .inl⟩
      rintro ⟨t, ht, hregisters, -⟩
      exact hno t ht hregisters
    rcases hpersisted.file with ⟨-, -, hfile⟩ | ⟨⟨t, ht, hregisters⟩, -⟩
    · rw [hfile]
      refine ⟨w₀.mem, hload, fun n u => ?_, fun u hu => hfresh u ((hknown u).mp hu)⟩
      rw [hknown]
      constructor
      · intro hu
        have hname := (name_of_loaded hload hu).1
        exact ⟨hname, by rw [hname]; exact hu⟩
      · rintro ⟨rfl, hu⟩
        exact hu
    · exact absurd hregisters (hno t ht)

end Runs

/-- The first user. -/
def first_user : User := ⟨1, str "a", str "x", []⟩

/-- User 1 registers, on a new server. -/
theorem first_registers : ∃ tr s,
    Concurrent.Run false Env.calm (fun _ _ => True) (.quiet (World.new Tables.empty)) tr s ∧
      s.handlers = [] ∧ s.world.users_file = [] ∧
      ∀ u, Concurrent.Known (World.new Tables.empty) tr u ↔ u = first_user := by
  have hrun : (Run.exec (Run.guard (Concurrent.step false Env.calm) fun _ _ => true)
      (.quiet (World.new Tables.empty))
        (.accept 5 :: Concurrent.served 5 .REGISTER "username=a&password=x" 2)).map
        (fun s => decide (s.handlers.length = 0 ∧ s.world.users_file = [] ∧
          s.world.mem.g_users_by_name.toList = [(str "a", first_user)])) = some true := by decide
  obtain ⟨tr, s, run, hafter⟩ := Concurrent.run_of_exec hrun
  obtain ⟨hhandlers, hfile, htable⟩ := of_decide_eq_true hafter
  have run := run.mono fun _ _ _ => trivial
  refine ⟨tr, s, run, List.eq_nil_of_length_eq_zero hhandlers, hfile, fun u => ?_⟩
  rw [← (persisted (booted_new Tables.empty_valid) run).known, ← UMap.mem_toList, htable,
    List.mem_singleton, Prod.mk.injEq]
  constructor
  · exact And.right
  · rintro rfl
    exact ⟨rfl, rfl⟩

theorem first_user_plain : first_user.Plain := by
  constructor <;> decide

/-- User 1 registers; a restart does not recover exactly that. -/
theorem registrations_recovered_one : ∃ tr s,
    Concurrent.Run false Env.calm (fun _ _ => True) (.quiet (World.new Tables.empty)) tr s ∧
      (Recovers s.world.users_file (Concurrent.Known (World.new Tables.empty) tr) ↔
        (∀ t ∈ tr, ¬Concurrent.Registers t) ∧
          ∀ u, (World.new Tables.empty).mem.g_users_by_name.find? u.username = some u →
            u.id ≠ (World.new Tables.empty).mem.g_next_user_id) := by
  obtain ⟨tr, s, run, -, -, hknown⟩ := first_registers
  refine ⟨tr, s, run, registrations_recovered (booted_new Tables.empty_valid) run fun u hu => ?_⟩
  rw [(hknown u).mp hu]
  exact first_user_plain

/-- **A registration is lost**: user 1 registers, and the file that was saved is empty. -/
theorem registrations_not_recovered : ¬∀ (env : Env) (w₀ : World) (s : Concurrent)
    (tr : List (Taken Concurrent Concurrent.Event)), Booted false env w₀ →
    Concurrent.Run false env (fun _ _ => True) (.quiet w₀) tr s → s.handlers = [] →
    (∀ u, Concurrent.Known w₀ tr u → u.Plain) →
    Recovers s.world.users_file (Concurrent.Known w₀ tr) := by
  intro claim
  obtain ⟨tr, s, run, hquiet, hfile, hknown⟩ := first_registers
  have hrecovers := claim Env.calm _ s tr (booted_new Tables.empty_valid) run hquiet fun u hu => by
    rw [(hknown u).mp hu]
    exact first_user_plain
  rw [hfile] at hrecovers
  refine newest_not_saved (m := ∅) (u := first_user) (fun n v hv => by simp at hv) (by simp) ?_ hrecovers
  exact (hknown _).mpr rfl

end ChatApp
