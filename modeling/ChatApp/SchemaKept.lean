/-
`SchemaKept.lean` -- the tables stay as the schema wants them.

A statement that would break a constraint is refused, and what it leaves has the constraint still: for each
statement of the list in `Statements.lean` this is one lemma. A transaction that is rolled back puts rows
back, but not the sequences, which have gone on. So in every run, wherever the operations of one handler fall among
those of another and whatever statements fail, the tables are valid, and so are those that an open transaction may
go back to.
-/
import ChatApp.Statements
import ChatApp.Threads

set_option autoImplicit false

namespace ChatApp

open Prog PostgresPersistence handle_client

/-! ## One statement -/

/-- `d'` is valid, and its sequences have not gone back behind those of `d`. -/
structure Tables.Follows (d d' : Tables) : Prop where
  valid : d'.Valid
  users_next : d.users.next ≤ d'.users.next
  groups_next : d.groups.next ≤ d'.groups.next

/-- The statement leaves valid tables valid. -/
def Statement.Lawful {t : Table} {β : Type} (q : Statement t β) : Prop :=
  ∀ d : Tables, d.Valid → d.Follows (t.put (q d).2 d)

section Statements

variable {d : Tables}

/-- Tables whose sequences are the same follow when they are valid. -/
theorem follows_of_valid {d' : Tables} (h : d'.Valid) (husers : d'.users.next = d.users.next)
    (hgroups : d'.groups.next = d.groups.next) : d.Follows d' :=
  ⟨h, husers.ge, hgroups.ge⟩

theorem follows_self (h : d.Valid) : d.Follows d := follows_of_valid h rfl rfl

/-- One row more. -/
theorem forall_mem_snoc {ρ : Type} {P : ρ → Prop} {rows : List ρ} {row : ρ} (h : ∀ r ∈ rows, P r) (hrow : P row) :
    ∀ r ∈ rows ++ [row], P r :=
  List.forall_mem_append.mpr ⟨h, fun _ hr => List.mem_singleton.mp hr ▸ hrow⟩

theorem nodup_snoc {ρ κ : Type} {rows : List ρ} {row : ρ} {f : ρ → κ} (h : (rows.map f).Nodup)
    (hrow : f row ∉ rows.map f) : ((rows ++ [row]).map f).Nodup := by
  rw [List.map_append]
  exact List.nodup_append_comm.mp (List.nodup_cons.mpr ⟨hrow, h⟩)

/-- An update leaves the columns it does not set. -/
theorem map_updated {ρ κ : Type} (rows : List ρ) (p : ρ → Bool) {u : ρ → ρ} {f : ρ → κ} (hu : ∀ r, f (u r) = f r) :
    (rows.map fun r => if p r then u r else r).map f = rows.map f := by
  rw [List.map_map]
  refine List.map_congr_left fun r _ => ?_
  rw [Function.comp_apply]
  split
  · exact hu r
  · rfl

/-- What holds of a column holds of it after the update. -/
theorem forall_updated {ρ κ : Type} {rows : List ρ} {p : ρ → Bool} {u : ρ → ρ} (f : ρ → κ) {P : κ → Prop}
    (hu : ∀ r, f (u r) = f r) (h : ∀ r ∈ rows, P (f r)) : ∀ r ∈ rows.map fun r => if p r then u r else r, P (f r) := by
  refine List.forall_mem_map.mpr fun r hr => ?_
  have hr' := h r hr
  split
  · rwa [hu r]
  · exact hr'

/-- A sequence that goes on stays above the rows. -/
theorem serial_later {ρ : Type} {rows : List ρ} {id : ρ → Int} {next next' : Int}
    (h : 0 < next ∧ ∀ r ∈ rows, 0 < id r ∧ id r < next) (hnext : next ≤ next') :
    0 < next' ∧ ∀ r ∈ rows, 0 < id r ∧ id r < next' :=
  ⟨h.1.trans_le hnext, fun r hr => ⟨(h.2 r hr).1, (h.2 r hr).2.trans_le hnext⟩⟩

/-- The number that a sequence gives next is none of those in the rows. -/
theorem serial_fresh {ρ : Type} {rows : List ρ} {id : ρ → Int} {next : Int}
    (h : 0 < next ∧ ∀ r ∈ rows, 0 < id r ∧ id r < next) : next ∉ rows.map id := by
  intro hmem
  obtain ⟨r, hr, hid⟩ := List.mem_map.mp hmem
  have := (h.2 r hr).2
  omega

/-- A row with that number. -/
theorem serial_snoc {ρ : Type} {rows : List ρ} {row : ρ} {id : ρ → Int} {next : Int}
    (h : 0 < next ∧ ∀ r ∈ rows, 0 < id r ∧ id r < next) (hid : id row = next) :
    0 < next + 1 ∧ ∀ r ∈ rows ++ [row], 0 < id r ∧ id r < next + 1 := by
  have hlater := serial_later h (Int.le_add_one le_rfl)
  refine ⟨hlater.1, forall_mem_snoc hlater.2 ?_⟩
  rw [hid]
  exact ⟨h.1, Int.lt_add_one_of_le le_rfl⟩

/-! ### Users -/

theorem hasUser_iff_mem {uid : Int} : d.hasUser uid = true ↔ uid ∈ d.users.rows.map UserRow.id := by
  simp [Tables.hasUser]

theorem hasGroup_iff_mem {gid : Int} : d.hasGroup gid = true ↔ gid ∈ d.groups.rows.map GroupRow.id := by
  simp [Tables.hasGroup]

/-- The ids of users count up from 1: user 0 has no row. -/
theorem Tables.Valid.nobody (h : d.Valid) : d.hasUser 0 = false := by
  rw [← Bool.not_eq_true, hasUser_iff_mem]
  intro hmem
  obtain ⟨r, hr, hid⟩ := List.mem_map.mp hmem
  have := (h.users_serial.2 r hr).1
  omega

/-- A table of users that loses nobody is all that the other tables ask for. -/
theorem Tables.Valid.put_users {users : Serial UserRow} (h : d.Valid) (key : (users.rows.map UserRow.id).Nodup)
    (name : (users.rows.map UserRow.username).Nodup)
    (serial : 0 < users.next ∧ ∀ r ∈ users.rows, 0 < r.id ∧ r.id < users.next)
    (kept : ∀ uid ∈ d.users.rows.map UserRow.id, uid ∈ users.rows.map UserRow.id) :
    Tables.Valid { d with users := users } := by
  have hkept : ∀ uid, d.hasUser uid = true → Tables.hasUser { d with users := users } uid = true :=
    fun uid huid => hasUser_iff_mem.mpr (kept uid (hasUser_iff_mem.mp huid))
  -- every other table only asks whether a user is there
  exact { h with
    users_key := key
    users_name := name
    users_serial := serial
    friends_users := fun r hr => ⟨hkept _ (h.friends_users r hr).1, hkept _ (h.friends_users r hr).2⟩
    requests_users := fun r hr => ⟨hkept _ (h.requests_users r hr).1, hkept _ (h.requests_users r hr).2⟩
    messages_users := fun r hr => ⟨hkept _ (h.messages_users r hr).1, hkept _ (h.messages_users r hr).2⟩
    groups_users := fun r hr => hkept _ (h.groups_users r hr)
    members_refs := fun r hr => ⟨(h.members_refs r hr).1, hkept _ (h.members_refs r hr).2⟩
    group_messages_refs := fun r hr =>
      ⟨(h.group_messages_refs r hr).1, hkept _ (h.group_messages_refs r hr).2⟩
    invites_refs := fun r hr =>
      ⟨(h.invites_refs r hr).1, hkept _ (h.invites_refs r hr).2.1, hkept _ (h.invites_refs r hr).2.2⟩ }

theorem insert_user_lawful (username password_hash phone : Bytes) :
    (insert_user username password_hash phone).Lawful := by
  intro d h
  have hnext : d.users.next ≤ d.users.next + 1 := Int.le_add_one le_rfl
  by_cases htaken : d.users.rows.any (fun r => r.username = username) = true
  · -- a number of the sequence is gone, nothing else
    have hq : (insert_user username password_hash phone d).2 = { d.users with next := d.users.next + 1 } := by
      simp only [insert_user, if_pos htaken]
    rw [hq]
    exact ⟨h.put_users h.users_key h.users_name (serial_later h.users_serial hnext) fun uid huid => huid, hnext, le_rfl⟩
  · have hq : (insert_user username password_hash phone d).2 = ⟨d.users.rows ++
        [⟨d.users.next, username, password_hash, phone, false⟩], d.users.next + 1⟩ := by
      simp only [insert_user, if_neg htaken]
    rw [hq]
    -- the number is new, since the sequence is above every row
    refine ⟨h.put_users (nodup_snoc h.users_key (serial_fresh h.users_serial))
      (nodup_snoc h.users_name (by simpa using htaken)) (serial_snoc h.users_serial rfl) fun uid huid => ?_,
      hnext, le_rfl⟩
    rw [List.map_append]
    exact List.mem_append_left _ huid

theorem update_online_lawful (uid : Int) (is_online : Bool) : (update_online uid is_online).Lawful := by
  intro d h
  have hset : (update_online uid is_online d).2 = ⟨d.users.rows.map fun r =>
      if decide (r.id = uid) then { r with is_online := is_online } else r, d.users.next⟩ := by
    simp only [update_online, decide_eq_true_eq]
  have hid := map_updated d.users.rows (fun r => decide (r.id = uid))
    (u := fun r => { r with is_online := is_online }) (f := UserRow.id) fun _ => rfl
  have hname := map_updated d.users.rows (fun r => decide (r.id = uid))
    (u := fun r => { r with is_online := is_online }) (f := UserRow.username) fun _ => rfl
  rw [hset]
  refine follows_of_valid (h.put_users (hid.symm ▸ h.users_key) (hname.symm ▸ h.users_name) ⟨h.users_serial.1, ?_⟩
    fun u hu => hid.symm ▸ hu) rfl rfl
  exact forall_updated UserRow.id (P := fun i => 0 < i ∧ i < d.users.next) (fun _ => rfl) h.users_serial.2

/-! ### Friends and their requests -/

theorem insert_friend_lawful (a b : Int) : (insert_friend a b).Lawful := by
  intro d h
  have hvalid : Tables.Valid { d with friends := (insert_friend a b d).2 } := by
    by_cases hlt : a < b
    · by_cases hold : d.friends.contains ⟨a, b⟩ = true
      · simpa only [insert_friend, if_neg (not_not.mpr hlt), if_pos hold] using h
      · by_cases husers : (d.hasUser a && d.hasUser b) = true
        · have hq : (insert_friend a b d).2 = d.friends ++ [⟨a, b⟩] := by
            simp only [insert_friend, if_neg (not_not.mpr hlt), if_neg hold, if_pos husers]
          rw [hq]
          have hunique : ((d.friends ++ [FriendRow.mk a b]).map id).Nodup :=
            nodup_snoc (by simpa using h.friends_unique) (by simpa using hold)
          exact { h with
            friends_unique := by simpa using hunique
            friends_order := forall_mem_snoc h.friends_order hlt
            friends_users := forall_mem_snoc h.friends_users (Bool.and_eq_true _ _ ▸ husers) }
        · simpa only [insert_friend, if_neg (not_not.mpr hlt), if_neg hold, if_neg husers] using h
    · simpa only [insert_friend, if_pos hlt] using h
  exact follows_of_valid hvalid rfl rfl

theorem upsert_friend_request_lawful (a b : Int) : (upsert_friend_request a b).Lawful := by
  intro d h
  have hvalid : Tables.Valid { d with friend_requests := (upsert_friend_request a b d).2 } := by
    by_cases hab : a = b
    · simpa only [upsert_friend_request, if_pos hab] using h
    by_cases hold : (d.friend_requests.any fun r => r.from_user_id = a && r.to_user_id = b) = true
    · -- the row is there: it becomes pending
      have hq : (upsert_friend_request a b d).2 = d.friend_requests.map fun r =>
          if r.from_user_id = a && r.to_user_id = b then { r with status := .PENDING } else r := by
        simp only [upsert_friend_request, if_neg hab, if_pos hold]
      rw [hq]
      exact { h with
        requests_unique := (map_updated d.friend_requests _ (u := fun r => { r with status := .PENDING })
          (f := fun r => (r.from_user_id, r.to_user_id)) fun _ => rfl).symm ▸ h.requests_unique
        requests_users := forall_updated (fun r : FriendRequestRow => (r.from_user_id, r.to_user_id)) (P := fun k =>
          d.hasUser k.1 = true ∧ d.hasUser k.2 = true) (fun _ => rfl) h.requests_users }
    by_cases husers : (d.hasUser a && d.hasUser b) = true
    -- a new row, of two users that are there
    · have hq : (upsert_friend_request a b d).2 = d.friend_requests ++ [⟨a, b, .PENDING⟩] := by
        simp only [upsert_friend_request, if_neg hab, if_neg hold, if_pos husers]
      rw [hq]
      exact { h with
        requests_unique := nodup_snoc h.requests_unique (by simpa using hold)
        requests_users := forall_mem_snoc h.requests_users (Bool.and_eq_true _ _ ▸ husers) }
    · simpa only [upsert_friend_request, if_neg hab, if_neg hold, if_neg husers] using h
  exact follows_of_valid hvalid rfl rfl

theorem delete_friend_request_lawful (a b : Int) : (delete_friend_request a b).Lawful := fun _ h =>
  follows_of_valid { h with
    requests_unique := h.requests_unique.sublist (List.filter_sublist.map _)
    requests_users := fun r hr => h.requests_users r (List.mem_filter.mp hr).1 } rfl rfl

/-! ### Messages -/

theorem insert_message_lawful (a b : Int) (content : Bytes) (timestamp : Int) :
    (insert_message a b content timestamp).Lawful := by
  intro d h
  have hvalid : Tables.Valid { d with messages := (insert_message a b content timestamp d).2 } := by
    by_cases husers : (d.hasUser a && d.hasUser b) = true
    · have hq : (insert_message a b content timestamp d).2 = d.messages ++ [⟨a, b, content, timestamp⟩] := by
        simp only [insert_message, if_pos husers]
      rw [hq]
      exact { h with messages_users := forall_mem_snoc h.messages_users (Bool.and_eq_true _ _ ▸ husers) }
    · simpa only [insert_message, if_neg husers] using h
  exact follows_of_valid hvalid rfl rfl

theorem delete_messages_lawful (a b : Int) : (delete_messages a b).Lawful := fun _ h =>
  follows_of_valid { h with messages_users := fun r hr => h.messages_users r (List.mem_filter.mp hr).1 } rfl rfl

theorem insert_group_message_lawful (gid uid : Int) (content : Bytes) (timestamp : Int) :
    (insert_group_message gid uid content timestamp).Lawful := by
  intro d h
  have hvalid : Tables.Valid { d with group_messages := (insert_group_message gid uid content timestamp d).2 } := by
    by_cases hrefs : (d.hasGroup gid && d.hasUser uid) = true
    · have hq : (insert_group_message gid uid content timestamp d).2 =
          d.group_messages ++ [⟨gid, uid, content, timestamp⟩] := by
        simp only [insert_group_message, if_pos hrefs]
      rw [hq]
      exact { h with group_messages_refs := forall_mem_snoc h.group_messages_refs (Bool.and_eq_true _ _ ▸ hrefs) }
    · simpa only [insert_group_message, if_neg hrefs] using h
  exact follows_of_valid hvalid rfl rfl

/-! ### Groups and their members -/

/-- A table of groups that loses none is all that the other tables ask for. -/
theorem Tables.Valid.put_groups {groups : Serial GroupRow} (h : d.Valid) (key : (groups.rows.map GroupRow.id).Nodup)
    (serial : 0 < groups.next ∧ ∀ r ∈ groups.rows, 0 < r.id ∧ r.id < groups.next)
    (creators : ∀ r ∈ groups.rows, d.hasUser r.creator_id = true)
    (kept : ∀ gid ∈ d.groups.rows.map GroupRow.id, gid ∈ groups.rows.map GroupRow.id) :
    Tables.Valid { d with groups := groups } := by
  have hkept : ∀ gid, d.hasGroup gid = true → Tables.hasGroup { d with groups := groups } gid = true :=
    fun gid hgid => hasGroup_iff_mem.mpr (kept gid (hasGroup_iff_mem.mp hgid))
  exact { h with
    groups_key := key
    groups_serial := serial
    groups_users := creators
    members_refs := fun r hr => ⟨hkept _ (h.members_refs r hr).1, (h.members_refs r hr).2⟩
    group_messages_refs := fun r hr =>
      ⟨hkept _ (h.group_messages_refs r hr).1, (h.group_messages_refs r hr).2⟩
    invites_refs := fun r hr => ⟨hkept _ (h.invites_refs r hr).1, (h.invites_refs r hr).2⟩ }

theorem insert_group_lawful (name : Bytes) (creator_id : Int) : (insert_group name creator_id).Lawful := by
  intro d h
  have hnext : d.groups.next ≤ d.groups.next + 1 := Int.le_add_one le_rfl
  by_cases hcreator : d.hasUser creator_id = true
  · have hq : (insert_group name creator_id d).2 =
        ⟨d.groups.rows ++ [⟨d.groups.next, name, creator_id⟩], d.groups.next + 1⟩ := by
      simp only [insert_group, if_pos hcreator]
    rw [hq]
    refine ⟨h.put_groups (nodup_snoc h.groups_key (serial_fresh h.groups_serial)) (serial_snoc h.groups_serial rfl)
      (forall_mem_snoc h.groups_users hcreator) fun gid hgid => ?_, le_rfl, hnext⟩
    rw [List.map_append]
    exact List.mem_append_left _ hgid
  -- a creator that is no user: the number of the sequence is gone
  · have hq : (insert_group name creator_id d).2 = { d.groups with next := d.groups.next + 1 } := by
      simp only [insert_group, if_neg hcreator]
    rw [hq]
    exact ⟨h.put_groups h.groups_key (serial_later h.groups_serial hnext) h.groups_users fun gid hgid => hgid, le_rfl,
      hnext⟩

theorem update_group_name_lawful (gid : Int) (name : Bytes) : (update_group_name gid name).Lawful := by
  intro d h
  have hset : (update_group_name gid name d).2 = ⟨d.groups.rows.map fun r =>
      if decide (r.id = gid) then { r with name := name } else r, d.groups.next⟩ := by
    simp only [update_group_name, decide_eq_true_eq]
  have hid := map_updated d.groups.rows (fun r => decide (r.id = gid))
    (u := fun r => { r with name := name }) (f := GroupRow.id) fun _ => rfl
  rw [hset]
  refine follows_of_valid (h.put_groups (hid.symm ▸ h.groups_key) ⟨h.groups_serial.1, ?_⟩ ?_ fun g hg => hid.symm ▸ hg)
    rfl rfl
  · exact forall_updated GroupRow.id (P := fun i => 0 < i ∧ i < d.groups.next) (fun _ => rfl) h.groups_serial.2
  · exact forall_updated GroupRow.creator_id (P := fun uid => d.hasUser uid = true) (fun _ => rfl) h.groups_users

theorem insert_group_member_lawful (gid uid : Int) : (insert_group_member gid uid).Lawful := by
  intro d h
  have hvalid : Tables.Valid { d with group_members := (insert_group_member gid uid d).2 } := by
    by_cases hold : d.isMember gid uid = true
    · simpa only [insert_group_member, if_pos hold] using h
    by_cases hrefs : (d.hasGroup gid && d.hasUser uid) = true
    · have hq : (insert_group_member gid uid d).2 = d.group_members ++ [⟨gid, uid, some false, none⟩] := by
        simp only [insert_group_member, if_neg hold, if_pos hrefs]
      rw [hq]
      exact { h with
        members_unique := nodup_snoc h.members_unique (by simpa [Tables.isMember] using hold)
        members_refs := forall_mem_snoc h.members_refs (Bool.and_eq_true _ _ ▸ hrefs) }
    · simpa only [insert_group_member, if_neg hold, if_neg hrefs] using h
  exact follows_of_valid hvalid rfl rfl

theorem delete_group_member_lawful (gid uid : Int) : (delete_group_member gid uid).Lawful := fun _ h =>
  follows_of_valid { h with
    members_unique := h.members_unique.sublist (List.filter_sublist.map _)
    members_refs := fun r hr => h.members_refs r (List.mem_filter.mp hr).1 } rfl rfl

/-- An update that leaves group and user of a row alone. -/
theorem update_group_member_lawful (gid uid : Int) {f : GroupMemberRow → GroupMemberRow}
    (hf : ∀ r, ((f r).group_id, (f r).user_id) = (r.group_id, r.user_id)) :
    (update_group_member gid uid f).Lawful := fun d h =>
  follows_of_valid { h with
    members_unique := by
      show ((d.group_members.map fun r => if r.group_id = gid && r.user_id = uid then f r else r).map fun r =>
        (r.group_id, r.user_id)).Nodup
      rw [map_updated _ _ hf]
      exact h.members_unique
    members_refs := forall_updated (fun r : GroupMemberRow => (r.group_id, r.user_id))
      (P := fun k => d.hasGroup k.1 = true ∧ d.hasUser k.2 = true) hf h.members_refs } rfl rfl

theorem delete_invite_lawful (gid uid : Int) : (delete_invite gid uid).Lawful := fun _ h =>
  follows_of_valid { h with invites_refs := fun r hr => h.invites_refs r (List.mem_filter.mp hr).1 } rfl rfl

/-- **Every statement that a command makes leaves valid tables valid.** -/
theorem Issues.lawful {me : Int} {c : Command} {β : Type} {t : Table} {q : Statement t β} (h : Issues me c t q) :
    q.Lawful := by
  cases h with
  | logged | altered => exact fun d hd => follows_self hd
  | registered => exact insert_user_lawful _ _ _
  | begins_online | marked_online => exact update_online_lawful _ _
  | requested => exact upsert_friend_request_lawful _ _
  | befriended => exact insert_friend_lawful _ _
  | accepted | declined => exact delete_friend_request_lawful _ _
  | stored => exact insert_message_lawful _ _ _ _
  | deleted => exact delete_messages_lawful _ _
  | founded => exact insert_group_lawful _ _
  | populated | invited | joined => exact insert_group_member_lawful _ _
  | taken | refused => exact delete_invite_lawful _ _
  | renamed => exact update_group_name_lawful _ _
  | nicknamed | crowned_founder | crowned => exact update_group_member_lawful _ _ fun _ => rfl
  | removed | left => exact delete_group_member_lawful _ _
  | spoken | announced => exact insert_group_message_lawful _ _ _ _

end Statements

/-! ## Runs -/

/-- Rows that come back are valid under sequences that have gone on. -/
theorem transactional_schema : Transactional Tables.Valid Tables.Follows where
  refl h := follows_self h
  trans h h' := ⟨h'.valid, h.users_next.trans h'.users_next, h.groups_next.trans h'.groups_next⟩
  restore := by
    intro now before h hnow
    have husers : Tables.Valid { before with users := { before.users with next := now.users.next } } :=
      h.put_users h.users_key h.users_name (serial_later h.users_serial hnow.users_next) fun uid huid => huid
    exact husers.put_groups h.groups_key (serial_later h.groups_serial hnow.groups_next) h.groups_users
      fun gid hgid => hgid

/-- Nothing is written while the server loads. -/
theorem Booted.holds {pg : Bool} {env : Env} {w : World} {T : Tables → Prop} {R : Tables → Tables → Prop}
    (booted : Booted pg env w) (rule : Transactional T R) (start : ∀ d : Tables, d.Valid → T d) : w.db.Holds T R := by
  obtain ⟨w₀, fresh, hload⟩ := booted.loaded
  have hfresh : w₀.db.Holds T R := holds_of_none (start _ fresh.tables) fresh.tx
  rcases hload with ⟨-, rfl⟩ | ⟨-, s, -, rfl⟩
  · have hquiet : load_database.Always (Op.respects T R) fun _ => True := respects_of_footprint _ fun t => by simp
    exact hquiet.invariant (I := fun w => w.db.Holds T R) (fun o w ho hw => ho.exec rule env hw) hfresh
  · exact hfresh

/-- Between two events the tables are valid. -/
theorem Reachable.tables_valid {pg : Bool} {env : Env} {w : World} (h : Reachable pg env w) : w.db.tables.Valid := by
  obtain ⟨w₀, tr, booted, run⟩ := h
  refine (booted.invariant (I := fun w => w.db.Holds Tables.Valid Tables.Follows) run
    (booted.holds transactional_schema fun _ h => h) fun x e y hx _ _ hstep => ?_).1.now
  exact Server.holds_of_step transactional_schema hstep hx fun fd rid c _ β t q hissues d hd =>
    ⟨(hissues.lawful d hd).valid, hissues.lawful d hd⟩

/-- The rows of a transaction come back under the sequences of now. -/
theorem follows_restore {now before : Tables} (h : before.Valid) (hnow : before.Follows now) :
    now.Follows (Database.restore now before) :=
  ⟨transactional_schema.restore h hnow, le_rfl, le_rfl⟩

theorem Database.Holds.follows_rollback {d : Database} (h : d.Holds Tables.Valid Tables.Follows) (fails : Bool) :
    d.tables.Follows (Database.rollback fails d).2.tables := by
  unfold Database.rollback
  split
  · next t ht => exact follows_restore (h.snapshot t ht).1 (h.snapshot t ht).2
  · exact follows_self h.now

/-- **One operation** leaves valid tables, and no sequence goes back: not by a rollback either. -/
theorem Op.respects.follows {β : Type} {o : Op β} (ho : o.respects Tables.Valid Tables.Follows) (env : Env) {w : World}
    (hw : w.db.Holds Tables.Valid Tables.Follows) : w.db.tables.Follows (o.exec env w).2.db.tables := by
  have hsame : w.db.tables.Follows w.db.tables := follows_self hw.now
  cases o with
  | execute t q =>
    -- a statement that is not executed leaves the tables alone
    show w.db.tables.Follows (Database.exec t q _ w.db).2.tables
    unfold Database.exec
    split
    · exact hsame
    split
    · exact hsame
    dsimp only
    split
    · exact (ho w.db.tables hw.now).2
    · exact (ho w.db.tables hw.now).2
  | select q =>
    show w.db.tables.Follows (Database.select q _ w.db).2.tables
    rw [Database.select_tables]
    exact hsame
  | begin =>
    show w.db.tables.Follows (Database.begin _ w.db).2.tables
    rw [Database.begin_tables]
    exact hsame
  -- the snapshot is valid, and `restore` keeps the sequences
  | rollback => exact hw.follows_rollback _
  | commit =>
    show w.db.tables.Follows (Database.commit _ w.db).2.tables
    unfold Database.commit
    split
    · exact hw.follows_rollback _
    · exact hsame
  | _ => exact hsame

namespace Threads

variable {pg : Bool} {env₀ env : Env} {C : Threads → Concurrent.Event → Prop} {w₀ : World} {s t : Threads}
  {tr tr' : List (Taken Threads Concurrent.Event)}

/-- From any moment on: what holds of the tables then, and a property that every operation keeps besides. -/
theorem holds_later {I : World → Prop} (run : Run pg env C s tr t)
    (start : s.world.db.Holds Tables.Valid Tables.Follows)
    (within : s.Within (Op.respects Tables.Valid Tables.Follows)) (hI : I s.world)
    (hop : ∀ {β : Type} (o : Op β) (w : World), o.respects Tables.Valid Tables.Follows →
      w.db.Holds Tables.Valid Tables.Follows → I w → I (o.exec env w).2)
    (haccept : ∀ (w : World) fd, I w → I { w with conns := w.conns.set fd 0 }) :
    (t.world.db.Holds Tables.Valid Tables.Follows ∧ I t.world) ∧
      t.Within (Op.respects Tables.Valid Tables.Follows) := by
  refine invariant_of_ops (I := fun w => w.db.Holds Tables.Valid Tables.Follows ∧ I w) (fun fd me rid c => ?_)
    (fun fd => respects_of_footprint _ (by simp)) (fun fd me => respects_of_footprint _ (by simp))
    (fun o w ho hw => ⟨ho.exec transactional_schema env hw.1, hop o w ho hw.1 hw.2⟩)
    (fun w fd hw => ⟨hw.1, haccept w fd hw.2⟩) run ⟨start, hI⟩ within
  -- the statements of a handler are those of its command, and these are lawful
  refine (perform_issued pg fd me rid c).weaken fun {β} o ho => ?_
  cases o with
  | execute t q => exact fun d hd => ⟨(Issues.lawful ho d hd).valid, Issues.lawful ho d hd⟩
  | _ => trivial

/-- **The schema's constraints hold in every state of every run**, and the sequences only grow from any state to any
later one, whatever operations of others fall into a transaction, whatever statements fail, and whatever is rolled
back; and the constraints hold of the tables that an open transaction goes back to. -/
theorem schema_kept (booted : Booted pg env₀ w₀) (run : Run pg env C (quiet w₀) tr s) (later : Run pg env C s tr' t) :
    s.world.db.tables.Follows t.world.db.tables ∧ t.world.db.Holds Tables.Valid Tables.Follows := by
  obtain ⟨⟨hs, -⟩, hwithin⟩ := holds_later (I := fun _ => True) run
    (booted.holds transactional_schema fun _ h => h) (fun h hh => absurd hh List.not_mem_nil) trivial
    (fun _ _ _ _ _ => trivial) fun _ _ _ => trivial
  -- the second part of the run starts where the first has ended
  obtain ⟨⟨ht, hfollows⟩, -⟩ := holds_later (I := fun w => s.world.db.tables.Follows w.db.tables) later hs hwithin
    (follows_self hs.now) (fun o w ho hw hI => transactional_schema.trans hI (ho.follows env hw)) fun _ _ h => h
  exact ⟨hfollows, ht⟩

/-- User 1 accepts user 2, who writes a message between two statements of the transaction. -/
def message_inside : List Concurrent.Event :=
  two_users ++ Concurrent.served 5 .FRIEND_ACCEPT "userId=2" 3 ++
    .request 6 (.of .DIRECT_MESSAGE "recipientId=1&message=hi") :: List.replicate 2 (.advance 1)

/-- The message is stored while the handler of user 1 has the lock, and goes when its transaction is rolled back. -/
theorem schema_kept_rollback : ∃ s t : Threads,
    (s.owner, s.world.db.tables.messages.length) = (some 5, 1) ∧
    (t.world.db.tx.isNone, t.world.db.tables.messages.length) = (true, 0) ∧
    s.world.db.tables.Follows t.world.db.tables ∧ t.world.db.Holds Tables.Valid Tables.Follows := by
  let env : Env := { Env.calm with sql_fails := fun n => decide (n = 16) }
  have hmessage : (ChatApp.Run.exec (step true env) (quiet loaded) message_inside).map (fun s =>
      ((s.owner, s.world.db.tables.messages.length), (ChatApp.Run.exec (step true env) s
        (List.replicate 3 (.advance 0))).map fun t => (t.world.db.tx.isNone, t.world.db.tables.messages.length))) =
          some ((some 5, 1), some (true, 0)) := by decide
  obtain ⟨s, hexec, hs⟩ := Option.map_eq_some_iff.mp hmessage
  obtain ⟨howner, hrest⟩ := Prod.mk.inj hs
  obtain ⟨t, hlater, ht⟩ := Option.map_eq_some_iff.mp hrest
  obtain ⟨tr, run, -⟩ := ChatApp.Run.of_exec hexec
  obtain ⟨tr', later, -⟩ := ChatApp.Run.of_exec hlater
  exact ⟨s, t, howner, ht, schema_kept booted_loaded run later⟩

end Threads

end ChatApp
