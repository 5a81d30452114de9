/-
`GroupCreated.lean` -- what the reply to a `CREATE_GROUP` says of the group, without a database.

The members that are stored are the keys of a map, in which the creator is entered and then every id of the list.
The reply is made of the list itself, with the creator in front. So the two agree exactly on the lists that name
nobody twice and do not name the creator.
-/
import Mathlib.Data.List.Nodup
import ChatApp.Faults
import ChatApp.GroupEffects
import ChatApp.GroupListReply
import ChatApp.MainActivity
import ChatApp.NumberedItems

set_option autoImplicit false

namespace ChatApp

open Prog handle_client Room

/-! ## What is told and what is stored -/

/-- The reply, as the client takes it apart, names each member of the group once and nobody else, and counts the
members. -/
structure Describes (payload : Bytes) (g : Group) : Prop where
  members : (csv_split ((pairs payload).get (str "members"))).Perm (g.members.keys.map to_string)
  count : (pairs payload).find? (str "memberCount") = some (to_string g.members.size)

/-- The members of a new group are the creator and those listed. -/
theorem mem_members_new_group {gid me u : Int} {name : Bytes} {memberIds : List Int} :
    u ∈ (new_group gid name me memberIds).members.keys ↔ u ∈ me :: memberIds := by
  have hrole : ((new_group gid name me memberIds).role u).member = decide (u = me ∨ u ∈ memberIds) :=
    congrArg Role.member (role_new_group gid u name me memberIds)
  rw [UMap.mem_keys, List.mem_cons, ← decide_eq_true_iff (p := u = me ∨ u ∈ memberIds)]
  rw [← Option.isSome_iff_exists]
  exact Bool.eq_iff_iff.mp hrole

theorem to_string_inj : Function.Injective to_string := fun _ _ h => to_string_injective h

/-- **The list is that of the members exactly when it repeats nothing.** -/
theorem listed_perm_iff {gid me : Int} {name : Bytes} {memberIds : List Int} :
    ((me :: memberIds).map to_string).Perm ((new_group gid name me memberIds).members.keys.map to_string) ↔
      (me :: memberIds).Nodup := by
  have hkeys : (new_group gid name me memberIds).members.keys.Nodup := UMap.keys_nodup _
  constructor
  · intro hperm
    have hprinted := hperm.nodup_iff.mpr (hkeys.map to_string_inj)
    exact hprinted.of_map to_string
  · intro hnodup
    apply List.Perm.map
    apply (List.perm_ext_iff_of_nodup hnodup hkeys).mpr
    intro u
    exact mem_members_new_group.symm

theorem size_eq_length_keys {K V : Type} [DecidableEq K] (m : UMap K V) : m.size = m.keys.length := by
  rw [UMap.keys, List.length_map, UMap.toList, List.length_map]
  rfl

/-! ## Reading the reply -/

section Reading

variable {gid me : Int} {name : Bytes} {memberIds : List Int}

/-- The items of the reply. -/
def created_items (me gid : Int) (name : Bytes) (memberIds : List Int) : List (Bytes × Bytes) :=
  [(str "groupId", to_string gid), (str "name", name), (str "memberCount", to_string (memberIds.length + 1)),
    (str "members", [44].intercalate ((me :: memberIds).map to_string))]

theorem created_items_readable (hname : 38 ∉ name) : ∀ p ∈ created_items me gid name memberIds, Readable p := by
  have hlist : 38 ∉ [44].intercalate ((me :: memberIds).map to_string) := (Reply.undelimited_ids (me :: memberIds)).2
  intro p hp
  simp only [created_items, List.mem_cons, List.not_mem_nil, or_false] at hp
  rcases hp with rfl | rfl | rfl | rfl
  · exact readable_number (by decide) gid
  · exact readable_text (by decide) hname
  · exact readable_number (by decide) _
  · exact readable_text (by decide) hlist

/-- A key of the reply is read back with its own value. -/
theorem find?_created (hname : 38 ∉ name) {k v : Bytes} (hmem : (k, v) ∈ created_items me gid name memberIds) :
    (pairs (created_reply me gid name memberIds)).find? k = some v := by
  have hkeys : ((created_items me gid name memberIds).map Prod.fst).Nodup := by
    show [str "groupId", str "name", str "memberCount", str "members"].Nodup
    decide
  refine find?_pairs (created_items_readable hname) hmem fun p hp hpk => ?_
  have hsame : p = (k, v) := List.inj_on_of_nodup_map hkeys hp hmem hpk
  exact congrArg Prod.snd hsame

/-- The list of the reply, split at its commas. -/
theorem created_members (hname : 38 ∉ name) :
    csv_split ((pairs (created_reply me gid name memberIds)).get (str "members")) =
      (me :: memberIds).map to_string := by
  have hfound : (pairs (created_reply me gid name memberIds)).find? (str "members") =
      some ([44].intercalate ((me :: memberIds).map to_string)) := find?_created hname (by simp [created_items])
  have hcomma : ∀ t ∈ (me :: memberIds).map to_string, 44 ∉ t := by
    intro t ht
    obtain ⟨i, -, rfl⟩ := List.mem_map.mp ht
    exact notMem_to_string (by decide)
  rw [UMap.get, hfound, Option.getD_some]
  exact csv_split_intercalate (to_string_ne_nil me) hcomma

/-- **The reply describes the group exactly when the list repeats nothing**, not even the creator. -/
theorem describes_iff (hname : 38 ∉ name) :
    Describes (created_reply me gid name memberIds) (new_group gid name me memberIds) ↔ (me :: memberIds).Nodup := by
  have hmembers : csv_split ((pairs (created_reply me gid name memberIds)).get (str "members")) = _ :=
    created_members hname
  constructor
  · intro h
    apply listed_perm_iff.mp
    rw [← hmembers]
    exact h.members
  · intro hnodup
    have hperm : ((me :: memberIds).map to_string).Perm
        ((new_group gid name me memberIds).members.keys.map to_string) := listed_perm_iff.mpr hnodup
    have hsize : (new_group gid name me memberIds).members.size = memberIds.length + 1 := by
      have hlength := hperm.length_eq
      rw [List.length_map, List.length_map, List.length_cons] at hlength
      rw [size_eq_length_keys, ← hlength]
    refine ⟨?_, ?_⟩
    · rw [hmembers]
      exact hperm
    · rw [hsize]
      exact find?_created hname (by simp [created_items])

end Reading

/-- The name of the request, or the one made for it, has no `&`. -/
theorem plain_name {payload : Bytes} {name : Option Bytes} {memberIds : List Int}
    (h : create_group_fields payload = .ok (name, memberIds)) (ms : Int) : 38 ∉ name_at ms name := by
  have hmade : 38 ∉ str "group_" ++ to_string (ms / 1000) := by
    rw [List.mem_append, not_or]
    exact ⟨by decide, notMem_to_string (by decide)⟩
  unfold create_group_fields at h
  obtain ⟨ids, -, hpure⟩ := (bind_ok_iff _ _ _).mp h
  have hname : (if has_field payload "name" then some (field payload "name") else none) = name :=
    congrArg Prod.fst ((pure_ok_iff _ _).mp hpure)
  rw [← hname]
  split
  · exact notMem_value _ _
  · exact hmade

/-! ## The request -/

section Request

variable {env : Env} {w : World} {S : List Field} (fd me : Int)

/-- Frames were only added. -/
def OutGrows (w w' : World) : Prop := ∃ sent, w'.out = w.out ++ sent

theorem OutGrows.refl (w : World) : OutGrows w w := ⟨[], (List.append_nil _).symm⟩

theorem OutGrows.trans {w₁ w₂ w₃ : World} : OutGrows w₁ w₂ → OutGrows w₂ w₃ → OutGrows w₁ w₃ := by
  rintro ⟨s, hs⟩ ⟨t, ht⟩
  exact ⟨s ++ t, by rw [ht, hs, List.append_assoc]⟩

/-- Whatever runs, frames are only added. -/
theorem out_grows {α : Type} (p : Prog S α) : Ensures env w p fun _ w' => OutGrows w w' := by
  have hp : p.Always (fun _ => True) fun _ => True := always_of_footprint p fun _ _ => trivial
  exact hp.rel OutGrows.refl OutGrows.trans fun o w _ => o.exec_out env w

/-- The first frame that was added is a `SUCCESS` to `fd` with this payload. -/
def FirstReply (fd : Int) (payload : Bytes) (w w' : World) : Prop :=
  ∃ f sent, w'.out = w.out ++ f :: sent ∧ f.fd = fd ∧ f.type = .SUCCESS ∧ f.payload = payload

/-- The reply goes out before the announcement. -/
theorem announce_group_reply (name : Bytes) (memberIds : List Int) {gid : Int} (hgid : gid ≠ -1) :
    Ensures env w (announce_group false fd me name memberIds gid) fun _ w' =>
      FirstReply fd (created_reply me gid name memberIds) w w' := by
  have hpopulate : Ensures env w (populate_group false me gid name memberIds) fun _ w₁ => w₁.out = w.out := rfl
  rw [announce_group, if_neg hgid]
  refine (hpopulate.lift _).bind fun _ w₁ h₁ => ?_
  let f : Frame := ⟨fd, .SUCCESS, created_reply me gid name memberIds, u32 me, !env.send_fails w₁.ticks⟩
  have hreply : Ensures env w₁ (reply fd .SUCCESS (created_reply me gid name memberIds) (u32 me) :
      Prog announce_writes Unit) fun _ w₂ => w₂.out = w.out ++ [f] := congrArg (· ++ [f]) h₁
  refine hreply.bind fun _ w₂ h₂ => ?_
  refine (out_grows _).mono fun _ w' h' => ?_
  obtain ⟨sent, hsent⟩ := h'
  refine ⟨f, sent, ?_, rfl, rfl, rfl⟩
  rw [hsent, h₂, List.append_assoc]
  rfl

/-- `CREATE_GROUP` once it has the name. -/
theorem created_section (name : Option Bytes) (memberIds : List Int) {ms : Int}
    (hnext : w.mem.g_next_group_id ≠ -1) :
    Ensures env w (do
      let gid ← (create_group_mem me (name_at ms name) memberIds).lift
      andNext (announce_group false fd me (name_at ms name) memberIds (gid.getD (-1))).lift :
        Prog create_group_writes Outcome) fun _ w' =>
      FirstReply fd (created_reply me w.mem.g_next_group_id (name_at ms name) memberIds) w w' := by
  have hcreate : Ensures env w (create_group_mem me (name_at ms name) memberIds) fun gid w₁ =>
      gid = some w.mem.g_next_group_id ∧ w₁.out = w.out := ⟨rfl, rfl⟩
  refine (hcreate.lift _).bind fun gid w₁ h₁ => ?_
  obtain ⟨rfl, hout⟩ := h₁
  refine Ensures.bind ((announce_group_reply fd me (name_at ms name) memberIds hnext).lift _) fun _ w' h' => ?_
  refine ensures_pure ?_
  obtain ⟨f, sent, hsent, hf⟩ := h'
  exact ⟨f, sent, by rw [hsent, hout], hf⟩

theorem create_group_reply (name : Option Bytes) (memberIds : List Int) (hnext : w.mem.g_next_group_id ≠ -1) :
    Ensures env w (create_group false fd me name memberIds) fun _ w' =>
      FirstReply fd (created_reply me w.mem.g_next_group_id (name_at (env.clock_ms w.ticks) name) memberIds) w w' := by
  cases name with
  | some name => exact created_section fd me (some name) memberIds hnext
  | none =>
    -- the clock has been read for the name
    have hsection : Ensures env { w with ticks := w.ticks + 1 } _ fun _ w' =>
        FirstReply fd (created_reply me w.mem.g_next_group_id (name_at (env.clock_ms w.ticks) none) memberIds)
          { w with ticks := w.ticks + 1 } w' := created_section fd me none memberIds hnext
    exact hsection

/-- What the request says, and what it leaves: the reply comes first, and the group is stored under the next id. -/
theorem create_group_told (rid : Int) (name : Option Bytes) (memberIds : List Int)
    (hnext : w.mem.g_next_group_id ≠ -1) :
    Ensures env w (perform false fd me rid (.create_group name memberIds)) fun _ w' =>
      FirstReply fd (created_reply me w.mem.g_next_group_id (name_at (env.clock_ms w.ticks) name) memberIds) w w' ∧
      w'.mem.g_groups.find? w.mem.g_next_group_id =
        some (new_group w.mem.g_next_group_id (name_at (env.clock_ms w.ticks) name) me memberIds) := by
  have hgroups : Ensures env w (perform false fd me rid (.create_group name memberIds)) fun _ w' =>
      w'.mem.g_groups.find? w.mem.g_next_group_id =
        some (new_group w.mem.g_next_group_id (name_at (env.clock_ms w.ticks) name) me memberIds) := by
    refine (perform_served fd me rid rfl).mono fun _ w' h => ?_
    have hgid := congrFun (congrArg GroupView.groups h.view) w.mem.g_next_group_id
    exact hgid.trans (if_pos rfl)
  exact Ensures.and ((create_group_reply fd me name memberIds hnext).lift (by decide)) hgroups

/-- **The reply to a `CREATE_GROUP` describes the group** that is stored exactly when the list repeats nothing and
does not name the creator. -/
theorem create_group_described_iff (rid : Int) {payload : Bytes} {name : Option Bytes} {memberIds : List Int}
    (hfields : create_group_fields payload = .ok (name, memberIds)) (hnext : w.mem.g_next_group_id ≠ -1) :
    Ensures env w (perform false fd me rid (.create_group name memberIds)) fun _ w' => ∃ f sent g,
      w'.out = w.out ++ f :: sent ∧ f.fd = fd ∧ f.type = .SUCCESS ∧
      w'.mem.g_groups.find? w.mem.g_next_group_id = some g ∧
      (Describes f.payload g ↔ (me :: memberIds).Nodup) := by
  refine (create_group_told fd me rid name memberIds hnext).mono fun _ w' h => ?_
  obtain ⟨⟨f, sent, hout, hfd, htype, hpayload⟩, hgroup⟩ := h
  refine ⟨f, sent, _, hout, hfd, htype, hgroup, ?_⟩
  rw [hpayload]
  exact describes_iff (plain_name hfields _)

/-- The creator and one other user, each named once. -/
theorem create_group_described :
    Ensures Env.calm (World.new Tables.empty) (perform false 7 1 1 (.create_group (some (str "x")) [2, 3]))
      fun _ w' => ∃ f sent g, w'.out = f :: sent ∧ f.fd = 7 ∧ f.type = .SUCCESS ∧
        w'.mem.g_groups.find? 1 = some g ∧ Describes f.payload g := by
  have hfields : create_group_fields (str "name=x&members=2,3") = .ok (some (str "x"), [2, 3]) := rfl
  have hnext : (World.new Tables.empty).mem.g_next_group_id ≠ -1 := by decide
  have hiff : Ensures Env.calm (World.new Tables.empty) _ _ := create_group_described_iff 7 1 1 hfields hnext
  refine hiff.mono fun _ w' h => ?_
  obtain ⟨f, sent, g, hout, hfd, htype, hgroup, hdescribes⟩ := h
  exact ⟨f, sent, g, hout, hfd, htype, hgroup, hdescribes.mpr (by decide)⟩

/-- A member that is listed twice is told twice, and counted twice. -/
theorem create_group_undescribed :
    create_group_fields (str "name=x&members=2,2") = .ok (some (str "x"), [2, 2]) ∧
    Ensures Env.calm (World.new Tables.empty) (perform false 7 1 1 (.create_group (some (str "x")) [2, 2]))
      fun _ w' => ∃ f sent g, w'.out = f :: sent ∧ f.fd = 7 ∧ f.type = .SUCCESS ∧
        w'.mem.g_groups.find? 1 = some g ∧ g.members.size = 2 ∧
        (pairs f.payload).find? (str "memberCount") = some (str "3") ∧
        (pairs f.payload).find? (str "members") = some (str "1,2,2") ∧ ¬Describes f.payload g := by
  have hnext : (World.new Tables.empty).mem.g_next_group_id ≠ -1 := by decide
  have htold : Ensures Env.calm (World.new Tables.empty) _ _ := create_group_told 7 1 1 (some (str "x")) [2, 2] hnext
  refine ⟨rfl, htold.mono fun _ w' h => ?_⟩
  obtain ⟨⟨f, sent, hout, hfd, htype, hpayload⟩, hgroup⟩ := h
  have hplain : 38 ∉ str "x" := by decide
  have hundescribed : ¬Describes (created_reply 1 1 (str "x") [2, 2]) (new_group 1 (str "x") 1 [2, 2]) := by
    rw [describes_iff hplain]
    decide
  refine ⟨f, sent, _, hout, hfd, htype, hgroup, by decide, ?_⟩
  rw [hpayload]
  exact ⟨find?_created hplain (by decide), find?_created hplain (by decide), hundescribed⟩

end Request

end ChatApp
