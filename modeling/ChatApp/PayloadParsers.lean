/-
`PayloadParsers.lean` -- the parsers of payloads on the client, side by side.

Beside `MessageSerializer::deserialize` and the parser that most of the activities use, which split a part at its
first `=`, there are two that split it at every `=`: the parser of friend requests passes a part over unless it has
exactly two pieces, and that of the answer to a login takes the first two. The ones and the others agree on values
without `=`.
-/
import ChatApp.ClientRequests
import ChatApp.FriendsFragment

set_option autoImplicit false

namespace ChatApp

open Room FriendsFragment

/-! ## The parsers -/

/-- `MessageSerializer::deserialize`. -/
def MessageSerializer.deserialize (data : Bytes) : UMap Bytes Bytes :=
  (getlines 38 data).foldl (fun result pair =>
    if 61 ∈ pair then result.set (pair.takeWhile (· ≠ 61)) ((pair.dropWhile (· ≠ 61)).drop 1) else result) ∅

namespace LoginActivity

/-- `val (key, value) = it.split("=")`: nothing stands for the exception that a part without `=` is. -/
def destructured (part : Bytes) : Option (Bytes × Bytes) :=
  match part.splitOn 61 with
  | k :: v :: _ => some (k, v)
  | _ => none

/-- The map that `handleAuthSuccess` reads. -/
def auth_data (payload : Bytes) : Option (UMap Bytes Bytes) :=
  (payload.splitOn 38).foldlM (fun m part => (destructured part).map fun p => m.set p.1 p.2) ∅

/-- `handleAuthSuccess`: the id, the username and the token that are saved in the session, and under which the user
is shown; `etUsername` is the text of the field. -/
def handleAuthSuccess (etUsername payload : Bytes) : Option (Int × Bytes × Bytes) := do
  let data ← auth_data payload
  let userId ← (data.find? (str "userId")).bind toIntOrNull
  return (userId, (data.find? (str "username")).getD etUsername, (data.find? (str "token")).getD [])

end LoginActivity

/-! ## Splitting at every `=` -/

section Split

/-- No piece holds the delimiter. -/
theorem notMem_splitOn {d : UInt8} (s : Bytes) : ∀ l ∈ s.splitOn d, d ∉ l := by
  induction s with
  | nil => simp
  | cons c s ih =>
    rw [List.splitOn_cons_eq_if_modifyHead]
    split
    · exact List.forall_mem_cons.mpr ⟨List.not_mem_nil, ih⟩
    · next hc =>
      cases hs : s.splitOn d with
      | nil => exact absurd hs (List.splitOn_ne_nil d s)
      | cons l ls =>
        rw [hs] at ih
        obtain ⟨hl, hls⟩ := List.forall_mem_cons.mp ih
        refine List.forall_mem_cons.mpr ⟨List.not_mem_cons_of_ne_of_not_mem ?_ hl, hls⟩
        exact fun hd => hc (beq_iff_eq.mpr hd.symm)

/-- The first piece ends at the first `=`. -/
theorem splitOn_eq_cons (v : Bytes) : ∃ more, v.splitOn 61 = v.takeWhile (· ≠ 61) :: more := by
  by_cases hv : 61 ∈ v
  · obtain ⟨a, b, rfl, ha⟩ := List.eq_append_cons_of_mem hv
    have hall : ∀ c ∈ a, decide (c ≠ 61) = true := fun c hc => decide_eq_true fun h => ha (h ▸ hc)
    refine ⟨b.splitOn 61, ?_⟩
    rw [List.splitOn_append_cons_self_of_not_mem ha, List.takeWhile_append_of_pos hall,
      List.takeWhile_cons_of_neg (by decide), List.append_nil]
  · have hall : ∀ c ∈ v, decide (c ≠ 61) = true := fun c hc => decide_eq_true fun h => hv (h ▸ hc)
    refine ⟨[], ?_⟩
    rw [List.splitOn_eq_singleton hv, List.takeWhile_eq_self_iff.mpr hall]

variable {k v : Bytes}

/-- The answer to a login is read up to the second `=` of each part. -/
theorem destructured_item (hk : 61 ∉ k) :
    LoginActivity.destructured (k ++ 61 :: v) = some (k, v.takeWhile (· ≠ 61)) := by
  obtain ⟨more, hmore⟩ := splitOn_eq_cons v
  rw [LoginActivity.destructured, List.splitOn_append_cons_self_of_not_mem hk, hmore]

/-- No value that is read of a friend request holds a `=`. -/
theorem notMem_associated_strictly {payload : Bytes} (h : (associated_strictly payload).find? k = some v) : 61 ∉ v := by
  suffices hall : ∀ (parts : List Bytes) (m : UMap Bytes Bytes), (∀ k v, m.find? k = some v → 61 ∉ v) →
      ∀ k v, (parts.foldl associate_strictly m).find? k = some v → 61 ∉ v from
    hall (payload.splitOn 38) ∅ (fun k v hkv => by simp at hkv) k v h
  intro parts
  induction parts with
  | nil => exact fun m hm => hm
  | cons part parts ih =>
    intro m hm
    refine ih _ fun k v hkv => ?_
    rw [associate_strictly] at hkv
    split at hkv
    · next k' v' hpart =>
      rw [UMap.find?_set] at hkv
      split at hkv
      · rw [← Option.some.inj hkv]
        exact notMem_splitOn part v' (hpart ▸ by simp)
      · exact hm k v hkv
    · rw [UMap.find?_set] at hkv
      split at hkv
      · rw [← Option.some.inj hkv]
        exact List.not_mem_nil
      · exact hm k v hkv

end Split

/-! ## When the parsers agree -/

/-- Each of the parsers reads what the server has written, for every key. -/
structure ParsersAgree (items : List (Bytes × Bytes)) : Prop where
  deserialize : ∀ p ∈ items, (MessageSerializer.deserialize (serialize_kv items)).find? p.1 = some p.2
  pairs : ∀ p ∈ items, (pairs (serialize_kv items)).find? p.1 = some p.2
  friend_request : ∀ p ∈ items, (associated_strictly (serialize_kv items)).find? p.1 = some p.2
  auth : ∀ p ∈ items, ∃ data, LoginActivity.auth_data (serialize_kv items) = some data ∧ data.find? p.1 = some p.2

section Agree

variable {items : List (Bytes × Bytes)}

/-- The parser of friend requests reads values without `=`. -/
theorem associated_strictly_serialize (hne : items ≠ []) (hread : ∀ p ∈ items, Readable p)
    (hplain : ∀ p ∈ items, 61 ∉ p.2) :
    associated_strictly (serialize_kv items) = items.foldl (fun m p => m.set p.1 p.2) ∅ := by
  rw [associated_strictly, splitOn_serialize hne hread]
  have hfold : ∀ (ps : List (Bytes × Bytes)) (m : UMap Bytes Bytes), (∀ p ∈ ps, 61 ∉ p.1 ∧ 61 ∉ p.2) →
      (ps.map fun p => p.1 ++ 61 :: p.2).foldl associate_strictly m = ps.foldl (fun m p => m.set p.1 p.2) m := by
    intro ps
    induction ps with
    | nil => exact fun _ _ => rfl
    | cons p ps ih =>
      intro m hps
      obtain ⟨hkey, hvalue⟩ := hps p List.mem_cons_self
      rw [List.map_cons, List.foldl_cons, List.foldl_cons, associate_strictly,
        List.splitOn_append_cons_self_of_not_mem hkey,
        List.splitOn_eq_singleton hvalue]
      exact ih _ fun q hq => hps q (List.mem_cons_of_mem _ hq)
  exact hfold items ∅ fun p hp => ⟨(hread p hp).1, hplain p hp⟩

/-- The parser of the answer to a login reads values up to their first `=`. -/
theorem auth_data_serialize (hne : items ≠ []) (hread : ∀ p ∈ items, Readable p) :
    LoginActivity.auth_data (serialize_kv items) =
      some (items.foldl (fun m p => m.set p.1 (p.2.takeWhile (· ≠ 61))) ∅) := by
  rw [LoginActivity.auth_data, splitOn_serialize hne hread]
  have hfold : ∀ (ps : List (Bytes × Bytes)) (m : UMap Bytes Bytes), (∀ p ∈ ps, 61 ∉ p.1) →
      (ps.map fun p => p.1 ++ 61 :: p.2).foldlM
        (fun m part => (LoginActivity.destructured part).map fun p => m.set p.1 p.2) m =
      some (ps.foldl (fun m p => m.set p.1 (p.2.takeWhile (· ≠ 61))) m) := by
    intro ps
    induction ps with
    | nil => exact fun _ _ => rfl
    | cons p ps ih =>
      intro m hps
      rw [List.map_cons, List.foldlM_cons, destructured_item (hps p List.mem_cons_self)]
      exact ih _ fun q hq => hps q (List.mem_cons_of_mem _ hq)
  exact hfold items ∅ fun p hp => (hread p hp).1

/-- What is read under a key of different keys, whatever is made of the values. -/
theorem find?_foldl_of_nodup (hkeys : (items.map Prod.fst).Nodup) (f : Bytes → Bytes) {p : Bytes × Bytes}
    (hp : p ∈ items) :
    (items.foldl (fun m p => m.set p.1 (f p.2)) (∅ : UMap Bytes Bytes)).find? p.1 = some (f p.2) := by
  have hfound := congrArg (Option.map f) (find?_reverse_of_nodup hkeys hp)
  rw [Option.map_map] at hfound
  rw [UMap.find?_foldl_set, UMap.find?_empty, Option.or_none]
  exact hfound

/-- Who is logged in by the answer to a login: somebody with the username up to its first `=`. -/
theorem handleAuthSuccess_welcome {uid : Int} {username : Bytes} (huid : Fits 32 uid) (hname : 38 ∉ username)
    (etUsername : Bytes) :
    LoginActivity.handleAuthSuccess etUsername (handle_client.welcome uid username) =
      some (uid, username.takeWhile (· ≠ 61), str "demo_token") := by
  have hread : ∀ p ∈ [(str "success", str "true"), (str "userId", to_string uid), (str "token", str "demo_token"),
      (str "username", username)], Readable p := by
    simp only [List.forall_mem_cons]
    exact ⟨readable_text (by decide) (by decide), readable_number (by decide) uid,
      readable_text (by decide) (by decide), readable_text (by decide) hname, fun _ h => absurd h List.not_mem_nil⟩
  have hkeys : ([(str "success", str "true"), (str "userId", to_string uid), (str "token", str "demo_token"),
      (str "username", username)].map Prod.fst).Nodup := by
    simp only [List.map_cons, List.map_nil]
    decide
  have hfind := fun p hp => find?_foldl_of_nodup (p := p) hkeys (fun v => v.takeWhile (· ≠ 61)) hp
  have huserId := hfind (str "userId", to_string uid) (by simp)
  have htoken := hfind (str "token", str "demo_token") (by simp)
  have husername := hfind (str "username", username) (by simp)
  have hnumber : (to_string uid).takeWhile (· ≠ 61) = to_string uid := by
    refine List.takeWhile_eq_self_iff.mpr fun c hc => decide_eq_true fun h => ?_
    exact (undelimited_number uid).1 (h ▸ hc)
  have hdemo : (str "demo_token").takeWhile (· ≠ 61) = str "demo_token" := by decide
  rw [hnumber] at huserId
  rw [hdemo] at htoken
  have hid : (some (to_string uid)).bind toIntOrNull = some uid := toNumberOrNull_to_string huid
  rw [LoginActivity.handleAuthSuccess, handle_client.welcome, auth_data_serialize (List.cons_ne_nil _ _) hread,
    Option.bind_eq_bind, Option.bind_some, huserId, hid, htoken, husername]
  rfl

theorem takeWhile_plain_iff (v : Bytes) : v.takeWhile (· ≠ 61) = v ↔ 61 ∉ v := by
  rw [List.takeWhile_eq_self_iff]
  constructor
  · intro h hmem
    simpa using h 61 hmem
  · intro h c hc
    exact decide_eq_true fun heq => h (heq ▸ hc)

/-- **When the parsers agree**: exactly on values without `=`. A user is shown under its username exactly when that
has none. -/
theorem parsers_agree_iff (items : List (Bytes × Bytes)) (hkeys : (items.map Prod.fst).Nodup)
    (hread : ∀ p ∈ items, Readable p) :
    (ParsersAgree items ↔ ∀ p ∈ items, 61 ∉ p.2) ∧
    ∀ uid username etUsername, Fits 32 uid → 38 ∉ username →
      ((LoginActivity.handleAuthSuccess etUsername (handle_client.welcome uid username)).map (fun u => u.2.1) =
        some username ↔ 61 ∉ username) := by
  refine ⟨⟨fun h p hp => notMem_associated_strictly (h.friend_request p hp), fun hplain => ?_⟩, ?_⟩
  · constructor
    · intro p hp
      exact (find?_parse_serialize hread p.1).trans (find?_reverse_of_nodup hkeys hp)
    · intro p hp
      rw [pairs_serialize (List.ne_nil_of_mem hp) hread]
      exact find?_foldl_of_nodup hkeys id hp
    · intro p hp
      rw [associated_strictly_serialize (List.ne_nil_of_mem hp) hread hplain]
      exact find?_foldl_of_nodup hkeys id hp
    · intro p hp
      refine ⟨_, auth_data_serialize (List.ne_nil_of_mem hp) hread, ?_⟩
      rw [find?_foldl_of_nodup hkeys (fun v => v.takeWhile (· ≠ 61)) hp, (takeWhile_plain_iff p.2).mpr (hplain p hp)]
  · intro uid username etUsername huid hname
    rw [handleAuthSuccess_welcome huid hname, ← takeWhile_plain_iff, Option.map_some, Option.some_inj]

end Agree

/-- Two pairs, one of them empty, are read by all. -/
theorem parsers_agree_two : ParsersAgree [(str "fromUserId", str "7"), (str "fromUsername", [])] := by
  have hread : ∀ p ∈ [(str "fromUserId", str "7"), (str "fromUsername", [])], Readable p := by
    simp only [Readable]
    decide
  exact (parsers_agree_iff [(str "fromUserId", str "7"), (str "fromUsername", [])] (by decide) hread).1.mpr (by decide)

/-- **The parsers disagree** on a username with a `=`. -/
theorem parsers_disagree : ¬∀ items : List (Bytes × Bytes), (items.map Prod.fst).Nodup → (∀ p ∈ items, Readable p) →
    ParsersAgree items := by
  intro claim
  have hread : ∀ p ∈ [(str "fromUserId", str "7"), (str "fromUsername", str "a=b")], Readable p := by
    simp only [Readable]
    decide
  have hagree := claim [(str "fromUserId", str "7"), (str "fromUsername", str "a=b")] (by decide) hread
  have hplain := notMem_associated_strictly (hagree.friend_request (str "fromUsername", str "a=b") (by simp))
  exact hplain (by decide)

end ChatApp
