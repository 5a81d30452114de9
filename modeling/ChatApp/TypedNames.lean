/-
`TypedNames.lean` -- what becomes of the names that a user types for a group and for its members.

The client encodes them as in a form, and nobody decodes them: the server stores what it receives, and hands it on.
So only a text that the encoding leaves as it is arrives. A nickname has a second way, in the list of groups: there
it stands at the place of its member only if none is missing before it, and only a server with a database puts
nicknames there.
-/
import ChatApp.Base64Decoding
import ChatApp.GroupListReply
import ChatApp.RenamedGroups
import ChatApp.TypedText

set_option autoImplicit false

namespace ChatApp

open Prog PostgresPersistence handle_client Room Text

/-! ## The requests -/

section Requests

variable (pg : Bool) (groupId userId : Int32) (n : Text)

theorem encode_plain : 38 ∉ URLEncoder.encode n := URLEncoder.separator_notMem_encode n

/-- A new name is handed over as it was encoded. -/
theorem decode_renameGroup : ChatApp.decode pg MessageType.RENAME_GROUP.toByte
    (NetworkManager.renameGroup groupId n) = .ok (.rename_group groupId.toInt (URLEncoder.encode n)) := by
  have hitems : NetworkManager.renameGroup groupId n =
      serialize_kv [(str "groupId", to_string groupId.toInt), (str "name", URLEncoder.encode n)] := by
    simp [NetworkManager.renameGroup, serialize_kv, str, List.intercalate_cons_cons]
  have hpairs : parse_kv (NetworkManager.renameGroup groupId n) =
      ((∅ : UMap Bytes Bytes).set (str "groupId") (to_string groupId.toInt)).set (str "name")
        (URLEncoder.encode n) := by
    rw [hitems]
    refine parse_serialize fun p hp => ?_
    rcases List.mem_pair.mp hp with rfl | rfl
    · exact readable_number (by decide) _
    · exact readable_text (by decide) (encode_plain n)
  have hid : field (NetworkManager.renameGroup groupId n) "groupId" = to_string groupId.toInt := by
    simp [field, hpairs, str]
  have hname : field (NetworkManager.renameGroup groupId n) "name" = URLEncoder.encode n := by
    simp [field, hpairs, str]
  rw [ChatApp.decode, MessageType.ofByte_toByte]
  simp only [hid, hname, stoi_int]
  rfl

/-- And so is a nickname. -/
theorem decode_setGroupNickname : ChatApp.decode pg MessageType.SET_GROUP_NICKNAME.toByte
    (NetworkManager.setGroupNickname groupId userId n) =
      .ok (.set_group_nickname groupId.toInt userId.toInt (URLEncoder.encode n)) := by
  have hitems : NetworkManager.setGroupNickname groupId userId n =
      serialize_kv [(str "groupId", to_string groupId.toInt), (str "userId", to_string userId.toInt),
        (str "nick", URLEncoder.encode n)] := by
    simp [NetworkManager.setGroupNickname, serialize_kv, str, List.intercalate_cons_cons]
  have hpairs : parse_kv (NetworkManager.setGroupNickname groupId userId n) =
      (((∅ : UMap Bytes Bytes).set (str "groupId") (to_string groupId.toInt)).set (str "userId")
        (to_string userId.toInt)).set (str "nick") (URLEncoder.encode n) := by
    rw [hitems]
    refine parse_serialize fun p hp => ?_
    simp only [List.mem_cons, List.not_mem_nil, or_false] at hp
    rcases hp with rfl | rfl | rfl
    · exact readable_number (by decide) _
    · exact readable_number (by decide) _
    · exact readable_text (by decide) (encode_plain n)
  have hgid : field (NetworkManager.setGroupNickname groupId userId n) "groupId" = to_string groupId.toInt := by
    simp [field, hpairs, str]
  have huid : field (NetworkManager.setGroupNickname groupId userId n) "userId" = to_string userId.toInt := by
    simp [field, hpairs, str]
  have hnick : field (NetworkManager.setGroupNickname groupId userId n) "nick" = URLEncoder.encode n := by
    simp [field, hpairs, str]
  rw [ChatApp.decode, MessageType.ofByte_toByte]
  simp only [hgid, huid, hnick, stoi_int]
  rfl

end Requests

/-! ## A nickname in the tables -/

/-- These tables are those with the nickname of a member replaced, as far as the list of groups shows. -/
structure Renicknamed (gid uid : Int) (nick : Bytes) (d d' : Tables) : Prop where
  users : d'.users = d.users
  groups : d'.groups = d.groups
  rows : d'.group_members = (update_group_member gid uid (fun r => { r with nickname := some nick }) d).2

section Nicknames

variable {d d' : Tables} {gid uid : Int} {nick : Bytes}

/-- A selection by the ids of a row. -/
theorem filter_renicknamed (h : Renicknamed gid uid nick d d') (p : GroupMemberRow → Bool)
    (hp : ∀ r, p { r with nickname := some nick } = p r) :
    d'.group_members.filter p = (d.group_members.filter p).map fun r =>
      if r.group_id = gid && r.user_id = uid then { r with nickname := some nick } else r := by
  rw [h.rows, update_group_member, List.filter_map]
  congr 1
  refine List.filter_congr fun r _ => ?_
  rw [Function.comp_apply]
  split
  · exact hp r
  · rfl

theorem groupsOf_renicknamed (h : Renicknamed gid uid nick d d') (viewer : Int) :
    d'.groupsOf viewer = d.groupsOf viewer := by
  rw [Tables.groupsOf, Tables.groupsOf, h.groups]
  congr 2
  funext g
  rw [filter_renicknamed h _ fun r => rfl, List.map_map]
  rfl

theorem membersOf_renicknamed (h : Renicknamed gid uid nick d d') : d'.membersOf = d.membersOf := by
  funext g
  rw [Tables.membersOf, Tables.membersOf, h.users]
  congr 2
  funext u
  rw [filter_renicknamed h _ fun r => rfl, List.map_map]
  rfl

/-- The nickname of a user in a group, by the last row. -/
theorem nicknamesOf_get (d : Tables) (g u : Int) : (d.nicknamesOf g).get u =
    ((((d.group_members.filter fun m => m.group_id = g).reverse.find? fun m => m.user_id = u).bind
      GroupMemberRow.nickname).getD []) := by
  rw [UMap.get, Tables.nicknamesOf, UMap.find?_foldl_set]
  cases (d.group_members.filter fun m => m.group_id = g).reverse.find? fun m => m.user_id = u with
  | none => rfl
  | some m => rfl

/-- **The nicknames afterwards**: the one that was set, and the others as they were. -/
theorem nicknamesOf_renicknamed (h : Renicknamed gid uid nick d d') (hmember : d.isMember gid uid = true) (u : Int) :
    (d'.nicknamesOf gid).get u = if u = uid then nick else (d.nicknamesOf gid).get u := by
  have hgroup := filter_renicknamed h (fun m => m.group_id = gid) fun r => rfl
  have hfind : ∀ (rows : List GroupMemberRow) (f : GroupMemberRow → GroupMemberRow), (∀ r, (f r).user_id = r.user_id) →
      (rows.map f).reverse.find? (fun m => m.user_id = u) = (rows.reverse.find? fun m => m.user_id = u).map f := by
    intro rows f hf
    rw [← List.map_reverse, List.find?_map]
    congr 2
    funext r
    rw [Function.comp_apply, hf]
  rw [nicknamesOf_get, nicknamesOf_get, hgroup, hfind]
  · cases hrow : (d.group_members.filter fun m => m.group_id = gid).reverse.find? fun m => m.user_id = u with
    | none =>
      rw [if_neg]
      · rfl
      -- the member has a row
      rintro rfl
      obtain ⟨r, hr, hgid, huid⟩ := (isMember_iff gid u).mp hmember
      have hmem : r ∈ (d.group_members.filter fun m => m.group_id = gid).reverse :=
        List.mem_reverse.mpr (List.mem_filter.mpr ⟨hr, decide_eq_true hgid⟩)
      exact List.find?_eq_none.mp hrow r hmem (decide_eq_true huid)
    | some r =>
      have huser : r.user_id = u := by simpa using List.find?_some hrow
      have hgid : r.group_id = gid := by
        have hmem := List.mem_filter.mp (List.mem_reverse.mp (List.mem_of_find?_eq_some hrow))
        exact of_decide_eq_true hmem.2
      by_cases hu : u = uid
      · simp [hu, hgid, huser]
      · simp [hu, hgid, huser]
  · intro r
    split <;> rfl

end Nicknames

/-! ## The list of groups -/

section Lists

variable {d d' : Tables} {gid uid : Int} {nick : Bytes} {viewer : Int}

/-- Of groups and their members: what a list needs to be read. -/
structure Tellable (viewer : Int) (groups : List GroupRow) (members : Int → List UserRow) : Prop where
  gids : (groups.map GroupRow.id).Nodup
  gid : ∀ g ∈ groups, 0 < g.id ∧ Fits 32 g.id
  uids : ∀ g ∈ groups, ((members g.id).map UserRow.id).Nodup
  uid : ∀ g ∈ groups, ∀ u ∈ members g.id, 0 < u.id ∧ Fits 32 u.id
  me : ∀ g ∈ groups, ∃ u ∈ members g.id, u.id = viewer
  text : ∀ g ∈ groups, 38 ∉ g.name ∧ ∀ u ∈ members g.id, 38 ∉ u.username

theorem told_iff_tellable : Told viewer (d.told viewer) ↔ Tellable viewer (d.groupsOf viewer) d.membersOf := by
  constructor
  · intro h
    have hgids := h.gids
    have hgid := h.gid
    have huids := h.uids
    have huid := h.uid
    have htext := h.text
    simp only [Tables.told, Tables.told_group, List.map_map, List.forall_mem_map] at hgids hgid huids huid htext
    refine ⟨hgids, hgid, huids, huid, fun g hg => ?_, htext⟩
    obtain ⟨m, hm, hid⟩ := h.me _ (List.mem_map_of_mem hg)
    obtain ⟨u, hu, rfl⟩ := List.mem_map.mp hm
    exact ⟨u, hu, hid⟩
  · intro h
    constructor <;> simp only [Tables.told, Tables.told_group, List.map_map, List.forall_mem_map]
    · exact h.gids
    · exact h.gid
    · exact h.uids
    · exact h.uid
    · intro g hg
      obtain ⟨u, hu, hid⟩ := h.me g hg
      exact ⟨_, List.mem_map_of_mem hu, hid⟩
    · exact h.text

/-- A nickname does not matter for that. -/
theorem told_renicknamed (h : Renicknamed gid uid nick d d') (htold : Told viewer (d.told viewer)) :
    Told viewer (d'.told viewer) := by
  rw [told_iff_tellable] at htold ⊢
  rw [groupsOf_renicknamed h, membersOf_renicknamed h]
  exact htold

/-- **The nickname that is read**: the one at the place of the member, after those that were missing at the head of the
list were dropped. -/
def nickname_at (nicks : List Bytes) (idx : Nat) : Option Bytes :=
  match (nicks.dropWhile fun t => t = [])[idx]? with
  | some [] | none => none
  | some nick => some nick

theorem encode_nick_eq_nil {nick : Bytes} : encode_nick nick = [] ↔ nick = [] := by
  rw [encode_nick]
  split
  · next h => exact iff_of_true rfl h
  · next h => exact iff_of_false (by rw [base64_encode_eq]; exact rfc4648_ne_nil h) h

theorem dropWhile_encode (nicks : List Bytes) : ((nicks.map encode_nick).dropWhile fun t => t = []) =
    (nicks.dropWhile fun t => t = []).map encode_nick := by
  rw [List.dropWhile_map]
  congr 2
  funext nick
  exact decide_eq_decide.mpr encode_nick_eq_nil

/-- What a token is decoded to. -/
theorem decoded_token {decode : Bytes → Option Bytes} (hdecode : ∀ s, s ≠ [] → decode (rfc4648 s) = some s)
    (nicks : List Bytes) (idx : Nat) :
    (if (((nicks.map encode_nick).dropWhile fun t => t = []).getD idx []) ≠ [] then
        decode (((nicks.map encode_nick).dropWhile fun t => t = []).getD idx []) else none) =
      nickname_at nicks idx := by
  rw [dropWhile_encode, List.getD_eq_getElem?_getD, List.getElem?_map, nickname_at]
  cases (nicks.dropWhile fun t => t = [])[idx]? with
  | none => rfl
  | some nick =>
    by_cases hnick : nick = []
    · subst hnick
      rfl
    · have htoken : encode_nick nick ≠ [] := fun h => hnick (encode_nick_eq_nil.mp h)
      rw [Option.map_some, Option.getD_some, if_pos htoken, encode_nick, if_neg hnick, base64_encode_eq,
        hdecode nick hnick]
      cases nick with
      | nil => exact absurd rfl hnick
      | cons b nick => rfl

/-- **The nickname that is stored** from a list. -/
theorem stored_nickname {decode : Bytes → Option Bytes} {session : Session} {gs : List ToldGroup} {g : ToldGroup}
    {m : ToldMember} {idx : Nat} (hdecode : ∀ s, s ≠ [] → decode (rfc4648 s) = some s) (htold : Told session.userId gs)
    (hg : g ∈ gs) (hidx : g.members[idx]? = some m) (db : Room.Database) :
    (((handleGroupListPayload decode session (group_list (gs.map ToldGroup.entry))).run db).2.group_members.find?
      (g.gid, m.uid)).bind GroupMember.nickname = nickname_at (g.members.map ToldMember.nickname) idx := by
  obtain ⟨db', hrun, -, -, -, hmembers⟩ :=
    save_groups_run session (server_member_rows decode session) (gs.map ToldGroup.read) db
  rw [handleGroupListPayload, listed_groups_told htold, hrun, hmembers, left_behind, last_place_told htold hg hidx]
  have htoken := decoded_token hdecode (g.members.map ToldMember.nickname) idx
  rw [List.map_map] at htoken
  exact htoken

end Lists

/-! ## `SET_GROUP_NICKNAME` -/

section Server

variable {env : Env} {w : World} (pg : Bool) (fd me gid uid : Int) {nick : Bytes}

/-- The row of the member in the table. -/
theorem nickname_row_ensures (htx : w.db.tx = none) (hs : env.SqlSucceeds) :
    Ensures env w (PostgresPersistence.set_group_nickname gid uid nick) fun _ w' =>
      Renicknamed gid uid (escape_string nick) w.db.tables w'.db.tables ∧
        ∀ x : Field, x ∉ ([.table .group_members, .table .activity_logs] : List Field) → x.Same w w' := by
  refine Ensures.and ((logged_ensures uid 0 htx fun h => by cases h).mono fun _ w' h => ?_) (ensures_frame _)
  obtain ⟨-, ⟨-, -, htables⟩ | ⟨-, -, hrefused⟩⟩ := h
  · rw [htables]
    exact ⟨rfl, rfl, rfl⟩
  · cases hrefused hs

/-- The announcement leaves the groups and the tables that a list is made of. -/
theorem announce_nickname_ensures : Ensures env w (announce_nickname pg me gid uid nick) fun _ w' =>
    KeepsMembers w w' ∧ w'.db.tables.groups = w.db.tables.groups ∧
      w'.mem.g_users_by_id = w.mem.g_users_by_id := by
  refine Ensures.and ?_ ⟨run_frame env _ w (x := .table .groups) (by decide),
    run_frame env _ w (x := .var .g_users_by_id) (by decide)⟩
  refine Ensures.bind (R := fun _ w₁ => KeepsMembers w w₁) ⟨rfl, rfl, rfl, id⟩ fun ts_ms w₁ h₁ => ?_
  refine Ensures.bind (R := fun _ w₂ => KeepsMembers w w₂) (Ensures.locked h₁) fun names w₂ h₂ => ?_
  have hsave : Ensures env w₂ (when pg do
      let _ ← (save_group_message gid 0 (nickname_text me uid nick names.1 names.2) ts_ms).lift
      pure () : Prog announce_writes Unit) fun _ w₃ => KeepsMembers w w₃ := by
    refine ensures_when (fun _ => ?_) fun _ => h₂
    refine Ensures.bind ((keeps_members (save_group_message _ _ _ _) (by decide)).lift _) fun _ w₃ h₃ => ?_
    exact ensures_pure (h₂.trans h₃)
  refine Ensures.bind hsave fun _ w₃ h₃ => ?_
  refine Ensures.bind (R := fun _ w₄ => KeepsMembers w w₄) (Ensures.locked h₃) fun members w₄ h₄ => ?_
  exact Ensures.mono ((keeps_members _ (by decide)).lift _) fun _ w₅ h₅ => h₄.trans h₅

/-- A nickname was set. -/
structure Nicknamed (pg : Bool) (gid uid : Int) (nick : Bytes) (w w' : World) : Prop where
  groups : w'.mem.g_groups = set_nickname gid uid nick w.mem.g_groups
  users : w'.mem.g_users_by_id = w.mem.g_users_by_id
  tx : w'.db.tx = none
  tables : pg = true → Renicknamed gid uid (escape_string nick) w.db.tables w'.db.tables

/-- **A nickname** is stored in memory and in the table. -/
theorem set_group_nickname_ensures (hmember : w.mem.hasMember gid uid = true) (htx : w.db.tx = none)
    (hsql : pg = true → env.SqlSucceeds) :
    Ensures env w (handle_client.set_group_nickname pg fd me gid uid nick) fun _ w' =>
      Nicknamed pg gid uid nick w w' := by
  have hsection : Ensures env w (locked do
      let member ← read fun s => s.hasMember gid uid
      when member (modify .g_groups (set_nickname gid uid nick))
      when (member && pg) do
        let _ ← (PostgresPersistence.set_group_nickname gid uid nick).lift
        pure ()
      pure member : Prog member_writes Bool) fun ok w₁ => ok = true ∧ Nicknamed pg gid uid nick w w₁ := by
    refine Ensures.locked (ensures_read ?_)
    rw [hmember]
    refine ensures_modify (h := by decide) ?_
    refine Ensures.bind (R := fun _ w₁ => Nicknamed pg gid uid nick w w₁) ?_ fun _ w₁ h₁ => ensures_pure ⟨rfl, h₁⟩
    rw [Bool.true_and]
    refine ensures_when (fun hpg => ?_) fun hpg => ⟨rfl, rfl, htx, fun h => absurd (hpg.symm.trans h) (by decide)⟩
    have hrow : Ensures env { w with mem := Var.modify .g_groups (set_nickname gid uid nick) w.mem }
        (PostgresPersistence.set_group_nickname gid uid nick) _ := nickname_row_ensures gid uid htx (hsql hpg)
    refine Ensures.bind (hrow.lift _) fun _ w₁ h₁ => ensures_pure ?_
    exact ⟨h₁.2 (.var .g_groups) (by decide), h₁.2 (.var .g_users_by_id) (by decide),
      h₁.2 .tx (by decide) htx, fun _ => h₁.1⟩
  refine Ensures.bind hsection ?_
  rintro _ w₁ ⟨rfl, h₁⟩
  refine Ensures.bind (ensures_ite (fun h => absurd h (by decide)) fun _ => ?_) fun _ w' h => ensures_pure h
  refine Ensures.bind ((announce_nickname_ensures pg me gid uid).lift _) ?_
  rintro _ w₂ ⟨h₂, htable₂, husers₂⟩
  refine ⟨h₂.groups.trans h₁.groups, husers₂.trans h₁.users, h₂.tx h₁.tx, fun hpg => ?_⟩
  have h := h₁.tables hpg
  exact ⟨h₂.users.trans h.users, htable₂.trans h.groups, h₂.rows.trans h.rows⟩

end Server

/-! ## The list of groups without a database -/

/-- `GET_USER_GROUPS` is answered with this payload, and with nothing else. -/
def GroupListSent (pg : Bool) (env : Env) (w : World) (fd me rid : Int) (payload : Bytes) : Prop :=
  ∃ sent, ((perform pg fd me rid .get_user_groups).run env w).2.out = w.out ++ [⟨fd, .SUCCESS, payload, u32 me, sent⟩]

namespace ServerState

variable (s : ServerState)

/-- A group as it is told from memory: without nicknames. -/
def told_group (g : Group) : GroupEntry where
  gid := g.id
  name := g.name
  members := [44].intercalate (g.members.keys.map to_string)
  nicks := []
  names := (g.members.keys.map fun uid => s.username_or uid (str "User " ++ to_string uid)).foldl csv_push []
  admins := []

/-- The groups of a user by memory. -/
def told (rid : Int) : List GroupEntry :=
  ((s.g_groups.toList.map Prod.snd).filter fun g => g.members.count rid).map s.told_group

end ServerState

section Memory

variable {env : Env} {w : World} {gs : List GroupEntry}

theorem group_item_mem_ensures (g : ChatApp.Group) (i : Nat) {w₁ : World} (h : w₁.mem = w.mem ∧ w₁.out = w.out) :
    Ensures env w₁ (group_item_mem g i) fun items w' =>
      items = entry_items (w.mem.told_group g) i ∧ w'.mem = w.mem ∧ w'.out = w.out := by
  have hname : ∀ (uid : Int) (w' : World), w'.mem = w.mem ∧ w'.out = w.out →
      Ensures env w' (read fun s => s.username_or uid (str "User " ++ to_string uid) : Prog [] Bytes) fun name w'' =>
        name = w.mem.username_or uid (str "User " ++ to_string uid) ∧ w''.mem = w.mem ∧ w''.out = w.out :=
    fun uid w' h' => ⟨by rw [← h'.1]; rfl, h'⟩
  have hnames := mapM_ensures (I := fun w' => w'.mem = w.mem ∧ w'.out = w.out) hname g.members.keys w₁ h
  refine Ensures.bind hnames ?_
  rintro _ w₂ ⟨rfl, h₂⟩
  exact ensures_pure ⟨rfl, h₂⟩

/-- The loop over the groups, without a database. -/
def user_group_items_mem (rid : Int) : Prog [] (List (List (Bytes × Bytes))) := do
  let groups ← locked (read fun s => (s.g_groups.toList.map Prod.snd).filter fun g => g.members.count rid)
  groups.zipIdx.mapM fun g => group_item_mem g.1 g.2

/-- **The reply from memory.** -/
theorem user_groups_told (fd me rid : Int) :
    GroupListSent false env w fd me rid (group_list (w.mem.told rid)) := by
  let groups := (w.mem.g_groups.toList.map Prod.snd).filter fun g => g.members.count rid
  have hitems : Ensures env w (user_group_items_mem rid) fun items w' =>
      items = groups.zipIdx.map (fun g => entry_items (w.mem.told_group g.1) g.2) ∧ w'.mem = w.mem ∧
        w'.out = w.out := by
    refine Ensures.bind (R := fun found w₁ => found = groups ∧ w₁.mem = w.mem ∧ w₁.out = w.out)
      (Ensures.locked ⟨rfl, rfl, rfl⟩) ?_
    rintro _ w₁ ⟨rfl, h₁⟩
    exact mapM_ensures (I := fun w' => w'.mem = w.mem ∧ w'.out = w.out)
      (fun g w' h' => group_item_mem_ensures g.1 g.2 h') _ w₁ h₁
  obtain ⟨hlist, -, hout⟩ := hitems
  refine ⟨!env.send_fails ((user_group_items_mem rid).run env w).2.ticks, ?_⟩
  have hcase : handle_client.get_user_groups false fd me rid =
      ((user_group_items_mem rid).lift (by decide) >>= fun items => andNext (reply fd .SUCCESS
        (serialize_kv ((str "count", to_string items.length) :: items.flatten)) (u32 me))) := rfl
  rw [perform, run_lift, hcase, run_bind, run_lift, hlist, andNext, run_bind, run_pure, ← hout, group_list,
    ServerState.told]
  simp only [List.length_map, List.length_zipIdx, List.zipIdx_map, List.map_map]
  rfl

/-- A list without nicknames is read without nicknames. -/
theorem listed_without_nicks (hplain : ∀ e ∈ gs, Listable e.fields) (hnicks : ∀ e ∈ gs, e.nicks = []) {g : ListedGroup}
    (hg : g ∈ listed_groups (group_list gs)) : g.memberNicks = [] := by
  have hthings : ∀ fields ∈ gs.map GroupEntry.fields, Listable fields := List.forall_mem_map.mpr hplain
  have hcount : (pairs (group_list gs)).find? (str "count") = some (to_string gs.length) := by
    rw [group_list_numbered]
    exact find?_heading (heading_count _) hthings List.mem_cons_self
  obtain ⟨i, hi, hlisted⟩ := List.mem_filterMap.mp hg
  have hlt : i < gs.length := by
    rw [hcount, Option.bind_some, toIntOrNull, toNumberOrNull_to_string_eq, List.mem_range] at hi
    split at hi
    · exact hi
    · exact absurd hi (Nat.not_lt_zero i)
  have hthing : (gs.map GroupEntry.fields)[i]? = some (gs[i]).fields := by
    rw [List.getElem?_map, List.getElem?_eq_getElem hlt]
    rfl
  have hempty : (pairs (group_list gs)).get (key "memberNicks" i) = [] := by
    refine UMap.get_of_find? ?_
    rw [← hnicks gs[i] (List.getElem_mem hlt), group_list_numbered]
    exact find?_numbered (heading_count _) hthings hthing (by simp [GroupEntry.fields])
  simp only [listed, Option.bind_eq_bind, Option.bind_eq_some_iff] at hlisted
  obtain ⟨gid, -, gname, -, hmade⟩ := hlisted
  rw [← Option.some.inj hmade]
  show csv_split _ = []
  rw [hempty]
  rfl

/-- And nobody gets one from it. -/
theorem stored_without_nicks (decode : Bytes → Option Bytes) (session : Session) {payload : Bytes}
    (hnicks : ∀ g ∈ listed_groups payload, g.memberNicks = []) (k : Int × Int) :
    (((handleGroupListPayload decode session payload).run {}).2.group_members.find? k).bind GroupMember.nickname
      = none := by
  obtain ⟨db', hrun, -, -, -, hmembers⟩ :=
    save_groups_run session (server_member_rows decode session) (listed_groups payload) {}
  rw [handleGroupListPayload, hrun, hmembers, left_behind]
  cases hplace : last_place (listed_groups payload) k with
  | none =>
    dsimp only
    split <;> rfl
  | some p =>
    obtain ⟨g, hg, hp⟩ := List.mem_flatMap.mp (List.mem_reverse.mp (List.mem_of_find?_eq_some hplace))
    obtain ⟨m, -, rfl⟩ := List.mem_map.mp hp
    simp [server_row, hnicks g hg]

end Memory

/-! ## Arriving -/

/-- What holds of the names in memory and in the tables: they come from `parse_kv`, which leaves no `&` in them, the
ids are serial, no transaction is open, and the members that memory knows are in the tables. -/
structure SoundNames (pg : Bool) (w : World) : Prop where
  groups : ∀ gid g, w.mem.g_groups.find? gid = some g → 0 < gid ∧ 38 ∉ g.name
  users : ∀ uid u, w.mem.g_users_by_id.find? uid = some u → 38 ∉ u.username
  tables : w.db.tables.Valid
  user_rows : ∀ u ∈ w.db.tables.users.rows, Fits 32 u.id ∧ 38 ∉ u.username
  group_rows : ∀ g ∈ w.db.tables.groups.rows, Fits 32 g.id ∧ 38 ∉ g.name
  tx : w.db.tx = none
  members : pg = true → ∀ gid uid, w.mem.hasMember gid uid = true → w.db.tables.isMember gid uid = true

/-- The group is called `typed` by the server, and on its way to every other member is a notice that leaves it this name
on the phone, however the two coroutines that the notice starts interleave. -/
structure RenamedTo (pg : Bool) (me gid : Int) (typed : Bytes) (w w' : World) : Prop where
  memory : ∃ g, w'.mem.g_groups.find? gid = some g ∧ g.name = typed
  table : pg = true → ∀ g ∈ w'.db.tables.groups.rows, g.id = gid → g.name = typed
  told : ∀ uid ∈ w.members pg gid, uid ≠ me → ∃ m : PendingMsg, m.type = .SUCCESS ∧ OnItsWay w' uid m ∧
    ∀ decode session now, ∃ p q, MainActivity.on_success decode session now m.payload = [p, q] ∧
      ∀ turns db, Named gid typed (Program.interleave Transaction.exec turns p q db)

/-- The member is called `typed` by the server, and on the phone of every member who then asks for the list of
groups. -/
structure NicknamedTo (pg : Bool) (env : Env) (decode : Bytes → Option Bytes) (gid uid : Int) (typed : Bytes)
    (w' : World) : Prop where
  memory : ∃ g, w'.mem.g_groups.find? gid = some g ∧ g.member_nicknames.find? uid = some typed
  table : pg = true → ∀ r ∈ w'.db.tables.group_members, r.group_id = gid → r.user_id = uid → r.nickname = some typed
  listed : ∀ fd me session payload, session.userId ∈ w'.members pg gid →
    GroupListSent pg env w' fd me session.userId payload → ∀ db,
      (((handleGroupListPayload decode session payload).run db).2.group_members.find? (gid, uid)).bind
        GroupMember.nickname = some typed

/-- After the nickname was set, and those that are missing at the head of the list of members were dropped, the
nickname at the place of the member is this one. -/
def InPlace (d : Tables) (gid uid : Int) (nick : Bytes) : Prop :=
  ∃ idx, ((d.membersOf gid).map UserRow.id)[idx]? = some uid ∧
    nickname_at ((d.membersOf gid).map fun u => if u.id = uid then nick else (d.nicknamesOf gid).get u.id) idx =
      some nick

section Arriving

variable {env : Env} {w : World} {pg : Bool} {n : Text} {decode : Bytes → Option Bytes}

theorem escape_encode (n : Text) : escape_string (URLEncoder.encode n) = URLEncoder.encode n := by
  refine List.takeWhile_eq_self_iff.mpr fun b hb => decide_eq_true ?_
  rintro rfl
  exact URLEncoder.nul_notMem_encode n hb

theorem equals_notMem_encode (n : Text) : 61 ∉ URLEncoder.encode n := by
  intro hmem
  exact absurd (URLEncoder.encode_written n hmem) (by simp only [URLEncoder.Written]; decide)

/-- **A new name arrives as it was typed** exactly if it is of unreserved characters. -/
theorem renamed_to_iff (fd me rid : Int) {groupId : Int32} (hn : n ≠ []) (hsound : SoundNames pg w)
    (hsql : pg = true → env.SqlSucceeds) (hmember : w.mem.hasMember groupId.toInt me = true) :
    Ensures env w (perform pg fd me rid (.rename_group groupId.toInt (URLEncoder.encode n))) fun _ w' =>
      (RenamedTo pg me groupId.toInt (modified_utf8 n) w w' ↔ ∀ c ∈ n, Unreserved c) := by
  have hrename := rename_group_ensures pg groupId.toInt fd me (URLEncoder.encode n) hmember hsound.tx hsql
  refine (hrename.lift (by decide)).mono fun _ w' h => ?_
  obtain ⟨⟨g, hg, hname⟩, htable, hnotices⟩ := h
  rw [← URLEncoder.encode_eq_iff]
  constructor
  · intro h
    obtain ⟨g', hg', hname'⟩ := h.memory
    rw [hg] at hg'
    obtain rfl := Option.some.inj hg'
    exact hname.symm.trans hname'
  · intro heq
    rw [← heq]
    refine ⟨⟨g, hg, hname⟩, fun hpg g hg hid => ?_, fun uid huid _ => ?_⟩
    · rw [htable hpg g hg hid, escape_encode]
    · refine ⟨_, rfl, hnotices uid huid, fun decode session now => ?_⟩
      obtain ⟨g₀, hg₀, -⟩ := (Option.any_eq_true ..).mp hmember
      have hpos := (hsound.groups _ _ hg₀).1
      have hfits : Fits 32 groupId.toInt := ⟨groupId.le_toInt, groupId.toInt_lt⟩
      have hcreated := created_names session hfits (encode_plain n)
      have hcoroutines := on_success_renamed decode session now hpos hfits (encode_plain n) (equals_notMem_encode n)
        (URLEncoder.encode_ne_nil hn)
      exact ⟨_, _, hcoroutines, fun turns db => interleave_named hcreated.1 rename_keeps_name hcreated.2 turns db⟩

section Listed

variable {d : Tables} {gid uid viewer : Int} {nick : Bytes}

/-- A member of a group finds it in the list. -/
theorem exists_groupsOf (hd : d.Valid) (h : viewer ∈ (d.membersOf gid).map UserRow.id) :
    ∃ g ∈ d.groupsOf viewer, g.id = gid := by
  obtain ⟨m, hm, hgid, huid⟩ := (isMember_iff gid viewer).mp ((mem_membersOf d gid viewer).mp h).1
  have hgroup := (hd.members_refs m hm).1
  simp only [Tables.hasGroup, List.any_eq_true, decide_eq_true_eq] at hgroup
  obtain ⟨g, hg, hid⟩ := hgroup
  refine ⟨g, ?_, hid.trans hgid⟩
  simp only [Tables.groupsOf, List.mem_insertionSort, List.mem_flatMap, List.mem_map, List.mem_filter, Bool.and_eq_true,
    decide_eq_true_eq]
  exact ⟨g, hg, m, ⟨hm, hid.symm, huid⟩, rfl⟩

theorem mem_membersOf_of_valid (hd : d.Valid) (h : d.isMember gid uid = true) :
    uid ∈ (d.membersOf gid).map UserRow.id := by
  obtain ⟨m, hm, -, huid⟩ := (isMember_iff gid uid).mp h
  exact (mem_membersOf d gid uid).mpr ⟨h, huid ▸ (hd.members_refs m hm).2⟩

/-- **What the next list of groups brings**: the nickname that is read at the place of the member. -/
theorem listed_after {w' : World} (hdecode : ∀ s, s ≠ [] → decode (rfc4648 s) = some s) (hs : env.SqlSucceeds)
    (hopen : w'.db.tx = none) (hd : d.Valid) (h : Renicknamed gid uid nick d w'.db.tables)
    {session : Session} (htold : Told session.userId (d.told session.userId)) (hmember : d.isMember gid uid = true)
    (hviewer : session.userId ∈ (d.membersOf gid).map UserRow.id) {idx : Nat}
    (hidx : ((d.membersOf gid).map UserRow.id)[idx]? = some uid) {fd me : Int} {payload : Bytes}
    (hsent : GroupListSent true env w' fd me session.userId payload) (db : Room.Database) :
    (((handleGroupListPayload decode session payload).run db).2.group_members.find? (gid, uid)).bind
        GroupMember.nickname =
      nickname_at ((d.membersOf gid).map fun u => if u.id = uid then nick else (d.nicknamesOf gid).get u.id) idx := by
  have hopen : w'.db.aborted = false := by
    rw [Database.aborted, hopen]
    rfl
  have hanswered : Answered env w' fd me session.userId .get_user_groups payload := hsent
  rw [hanswered.unique (user_groups_answered fd me session.userId hs hopen)]
  obtain ⟨row, hrow, rfl⟩ := exists_groupsOf hd hviewer
  obtain ⟨u, hu, rfl⟩ : ∃ u, (d.membersOf row.id)[idx]? = some u ∧ u.id = uid := by
    rw [List.getElem?_map] at hidx
    exact Option.map_eq_some_iff.mp hidx
  have hmembers : (w'.db.tables.told_group row).members[idx]? = some ⟨u.id, u.username,
      (w'.db.tables.nicknamesOf row.id).get u.id, w'.db.tables.isAdmin row.id u.id⟩ := by
    rw [Tables.told_group, membersOf_renicknamed h, List.getElem?_map, hu]
    rfl
  have hlisted : w'.db.tables.told_group row ∈ w'.db.tables.told session.userId := by
    rw [Tables.told, groupsOf_renicknamed h]
    exact List.mem_map_of_mem hrow
  have hnicks : (w'.db.tables.told_group row).members.map ToldMember.nickname = (d.membersOf row.id).map fun u' =>
      if u'.id = u.id then nick else (d.nicknamesOf row.id).get u'.id := by
    rw [Tables.told_group, membersOf_renicknamed h]
    simp only [List.map_map]
    refine List.map_congr_left fun u' _ => ?_
    rw [Function.comp_apply, nicknamesOf_renicknamed h hmember]
  rw [← hnicks]
  exact stored_nickname hdecode (told_renicknamed h htold) hlisted hmembers db

end Listed

/-- Without a database nobody has a nickname after the next list of groups. -/
theorem unlisted_in_memory (decode : Bytes → Option Bytes) {w' : World}
    (hgroups : ∀ gid g, w'.mem.g_groups.find? gid = some g → 38 ∉ g.name)
    (husers : ∀ uid u, w'.mem.g_users_by_id.find? uid = some u → 38 ∉ u.username) (fd me : Int) (session : Session)
    (k : Int × Int) : ∃ payload, GroupListSent false env w' fd me session.userId payload ∧
      (((handleGroupListPayload decode session payload).run {}).2.group_members.find? k).bind GroupMember.nickname
        = none := by
  refine ⟨_, user_groups_told fd me session.userId, stored_without_nicks decode session (fun g hg => ?_) k⟩
  refine listed_without_nicks (fun e he => ?_) (fun e he => ?_) hg
  · obtain ⟨g, hg, rfl⟩ := List.mem_map.mp he
    obtain ⟨⟨gid, g⟩, hentry, rfl⟩ := List.mem_map.mp (List.mem_filter.mp hg).1
    have hname : 38 ∉ g.name := hgroups gid g ((UMap.mem_toList ..).mp hentry)
    have hids : 38 ∉ [44].intercalate (g.members.keys.map to_string) := (Reply.undelimited_ids _).2
    refine listable_fields hname hids List.not_mem_nil (amp_notMem_csv ?_) List.not_mem_nil
    refine List.forall_mem_map.mpr fun uid _ => ?_
    rw [ServerState.username_or]
    cases huser : w'.mem.g_users_by_id.find? uid with
    | none =>
      have hnumber : 38 ∉ to_string uid := notMem_to_string (by decide)
      have hword : 38 ∉ str "User " := by decide
      exact fun hmem => (List.mem_append.mp hmem).elim hword hnumber
    | some u => exact husers uid u huser
  · obtain ⟨g, -, rfl⟩ := List.mem_map.mp he
    rfl

section Nicknamed

variable {w' : World} {gid uid : Int} {nick typed : Bytes}

/-- What memory has. -/
theorem Nicknamed.memory_iff (h : Nicknamed pg gid uid nick w w') (hmember : w.mem.hasMember gid uid = true) :
    (∃ g, w'.mem.g_groups.find? gid = some g ∧ g.member_nicknames.find? uid = some typed) ↔ nick = typed := by
  obtain ⟨g, hg, -⟩ := (Option.any_eq_true ..).mp hmember
  have hg' : w'.mem.g_groups.find? gid = some { g with member_nicknames := g.member_nicknames.set uid nick } := by
    rw [h.groups]
    simp [set_nickname, hg]
  rw [hg']
  simp

/-- The members are as they were. -/
theorem Nicknamed.members_eq (h : Nicknamed pg gid uid nick w w') : w'.members pg gid = w.members pg gid := by
  cases pg with
  | true => rw [World.members, World.members, if_pos rfl, if_pos rfl, membersOf_renicknamed (h.tables rfl)]
  | false =>
    rw [World.members, World.members, if_neg Bool.false_ne_true, if_neg Bool.false_ne_true, h.groups]
    simp only [set_nickname, UMap.find?_adjust, if_true, Option.map_map]
    rfl

/-- The texts in memory hold no more `&` than before. -/
theorem Nicknamed.plain (h : Nicknamed pg gid uid nick w w') (hsound : SoundNames pg w) :
    (∀ k g, w'.mem.g_groups.find? k = some g → 38 ∉ g.name) ∧
      ∀ u user, w'.mem.g_users_by_id.find? u = some user → 38 ∉ user.username := by
  refine ⟨fun k g hg => ?_, fun u user hu => hsound.users u user (h.users ▸ hu)⟩
  rw [h.groups, set_nickname, UMap.find?_adjust] at hg
  split at hg
  · obtain ⟨g₀, hg₀, rfl⟩ := Option.map_eq_some_iff.mp hg
    exact (hsound.groups gid g₀ hg₀).2
  · exact (hsound.groups k g hg).2

theorem mem_members_of_hasMember (hmember : w.mem.hasMember gid uid = true) : uid ∈ w.members false gid := by
  obtain ⟨g, hg, hme⟩ := (Option.any_eq_true ..).mp hmember
  rw [World.members, if_neg Bool.false_ne_true, hg]
  exact (UMap.mem_keys ..).mpr ((UMap.count_iff ..).mp hme)

/-- Nobody is listed with a nickname unless there is a database. -/
theorem NicknamedTo.database (hto : NicknamedTo pg env decode gid uid typed w') (h : Nicknamed pg gid uid nick w w')
    (hsound : SoundNames pg w) (hmember : w.mem.hasMember gid uid = true) : pg = true := by
  cases pg with
  | true => rfl
  | false =>
    obtain ⟨hnames, husers⟩ := h.plain hsound
    have hviewer : uid ∈ w'.members false gid := h.members_eq ▸ mem_members_of_hasMember hmember
    obtain ⟨payload, hsent, hnone⟩ := unlisted_in_memory decode hnames husers 0 0 ⟨uid, none⟩ (gid, uid)
    have hlisted := hto.listed 0 0 ⟨uid, none⟩ payload hviewer hsent {}
    rw [hnone] at hlisted
    cases hlisted

/-- With one, the next list brings the nickname that is read at the place of the member. -/
theorem Nicknamed.listed (h : Nicknamed true gid uid nick w w') (hsound : SoundNames true w) (hs : env.SqlSucceeds)
    (hdecode : ∀ s, s ≠ [] → decode (rfc4648 s) = some s) (hmember : w.mem.hasMember gid uid = true) {idx : Nat}
    (hidx : ((w.db.tables.membersOf gid).map UserRow.id)[idx]? = some uid) {fd me : Int} {session : Session}
    {payload : Bytes} (hviewer : session.userId ∈ w'.members true gid)
    (hsent : GroupListSent true env w' fd me session.userId payload) (db : Room.Database) :
    (((handleGroupListPayload decode session payload).run db).2.group_members.find? (gid, uid)).bind
        GroupMember.nickname =
      nickname_at ((w.db.tables.membersOf gid).map fun u =>
        if u.id = uid then escape_string nick else (w.db.tables.nicknamesOf gid).get u.id) idx := by
  have htold : ∀ viewer, Told viewer (w.db.tables.told viewer) := told_of_valid hsound.tables
    (fun u hu => (hsound.user_rows u hu).1) (fun g hg => (hsound.group_rows g hg).1)
    (fun u hu => (hsound.user_rows u hu).2) fun g hg => (hsound.group_rows g hg).2
  rw [h.members_eq, World.members, if_pos rfl] at hviewer
  exact listed_after hdecode hs h.tx hsound.tables (h.tables rfl) (htold session.userId)
    (hsound.members rfl gid uid hmember) hviewer hidx hsent db

/-- There is always a next list. -/
theorem exists_list (hs : env.SqlSucceeds) (htx : w'.db.tx = none) (fd me rid : Int) :
    ∃ payload, GroupListSent true env w' fd me rid payload := by
  have hopen : w'.db.aborted = false := by
    rw [Database.aborted, htx]
    rfl
  have hanswered : Answered env w' fd me rid .get_user_groups _ := user_groups_answered fd me rid hs hopen
  exact ⟨_, hanswered⟩

/-- The row of the member has the nickname. -/
theorem Renicknamed.row {d d' : Tables} (h : Renicknamed gid uid nick d d') {r : GroupMemberRow}
    (hr : r ∈ d'.group_members) (hgid : r.group_id = gid) (huid : r.user_id = uid) : r.nickname = some nick := by
  rw [h.rows] at hr
  obtain ⟨r', -, rfl⟩ := List.mem_map.mp hr
  by_cases hr' : r'.group_id = gid ∧ r'.user_id = uid
  · simp [hr']
  · have hsame : (if r'.group_id = gid && r'.user_id = uid then { r' with nickname := some nick } else r') = r' :=
      if_neg (by simpa using hr')
    rw [hsame] at hgid huid
    exact absurd ⟨hgid, huid⟩ hr'

/-- If the list brings it, it is in its place. -/
theorem NicknamedTo.inPlace (hto : NicknamedTo true env decode gid uid typed w') (h : Nicknamed true gid uid nick w w')
    (hsound : SoundNames true w) (hs : env.SqlSucceeds) (hdecode : ∀ s, s ≠ [] → decode (rfc4648 s) = some s)
    (hmember : w.mem.hasMember gid uid = true) (hescape : escape_string nick = typed) :
    InPlace w.db.tables gid uid typed := by
  have hplace := mem_membersOf_of_valid hsound.tables (hsound.members rfl gid uid hmember)
  obtain ⟨idx, hidx⟩ := List.mem_iff_getElem?.mp hplace
  let session : Session := ⟨uid, none⟩
  obtain ⟨payload, hsent⟩ : ∃ payload, GroupListSent true env w' 0 0 session.userId payload :=
    exists_list hs h.tx 0 0 uid
  have hviewer : session.userId ∈ w'.members true gid := by
    rw [h.members_eq, World.members, if_pos rfl]
    exact hplace
  have hlisted := hto.listed 0 0 session payload hviewer hsent {}
  have hread := h.listed hsound hs hdecode hmember hidx hviewer hsent {}
  have hat := hread.symm.trans hlisted
  rw [hescape] at hat
  exact ⟨idx, hidx, hat⟩

/-- And if it is in its place, the list brings it. -/
theorem Nicknamed.nicknamedTo (h : Nicknamed true gid uid nick w w') (hsound : SoundNames true w) (hs : env.SqlSucceeds)
    (hdecode : ∀ s, s ≠ [] → decode (rfc4648 s) = some s) (hmember : w.mem.hasMember gid uid = true)
    (hescape : escape_string nick = nick) (hplace : InPlace w.db.tables gid uid nick) :
    NicknamedTo true env decode gid uid nick w' := by
  obtain ⟨idx, hidx, hat⟩ := hplace
  have htables := h.tables rfl
  rw [hescape] at htables
  refine ⟨(h.memory_iff hmember).mpr rfl, fun _ r hr hgid huid => htables.row hr hgid huid, ?_⟩
  intro fd me session payload hviewer hsent db
  have hread := h.listed hsound hs hdecode hmember hidx hviewer hsent db
  rw [hescape] at hread
  exact hread.trans hat

end Nicknamed

/-- **A nickname arrives as it was typed** exactly if it is of unreserved characters, there is a database, and it is
read at its place. -/
theorem nicknamed_to_iff (fd me rid : Int) {groupId userId : Int32}
    (hdecode : ∀ s, s ≠ [] → decode (rfc4648 s) = some s) (hsound : SoundNames pg w)
    (hsql : pg = true → env.SqlSucceeds) (hmember : w.mem.hasMember groupId.toInt userId.toInt = true) :
    Ensures env w (perform pg fd me rid (.set_group_nickname groupId.toInt userId.toInt (URLEncoder.encode n)))
      fun _ w' => (NicknamedTo pg env decode groupId.toInt userId.toInt (modified_utf8 n) w' ↔
        (∀ c ∈ n, Unreserved c) ∧ pg = true ∧
          InPlace w.db.tables groupId.toInt userId.toInt (modified_utf8 n)) := by
  generalize groupId.toInt = gid, userId.toInt = uid at hmember ⊢
  have hnickname : Ensures env w (handle_client.set_group_nickname pg fd me gid uid (URLEncoder.encode n)) _ :=
    set_group_nickname_ensures pg fd me gid uid hmember hsound.tx hsql
  refine (hnickname.lift (by decide)).mono fun _ w' h => ?_
  rw [← URLEncoder.encode_eq_iff]
  constructor
  · intro hto
    have htyped := (h.memory_iff hmember).mp hto.memory
    obtain rfl := hto.database h hsound hmember
    exact ⟨htyped, rfl, hto.inPlace h hsound (hsql rfl) hdecode hmember ((escape_encode n).trans htyped)⟩
  · rintro ⟨htyped, rfl, hplace⟩
    rw [← htyped] at hplace ⊢
    exact h.nicknamedTo hsound (hsql rfl) hdecode hmember (escape_encode n) hplace

end Arriving

/-- **Names arrive as they were typed** exactly if their characters are unreserved and, for a nickname in the list of
groups, there is a database and the nickname is read at its place. -/
theorem names_arrive_iff (env : Env) (w : World) (pg : Bool) (fd me rid : Int) (groupId userId : Int32) {n : Text}
    (decode : Bytes → Option Bytes) (hn : n ≠ []) (hdecode : ∀ s, s ≠ [] → decode (rfc4648 s) = some s)
    (hsound : SoundNames pg w) (hsql : pg = true → env.SqlSucceeds) :
    (w.mem.hasMember groupId.toInt me = true →
      ∃ c, ChatApp.decode pg MessageType.RENAME_GROUP.toByte (NetworkManager.renameGroup groupId n) = .ok c ∧
        Ensures env w (perform pg fd me rid c) fun _ w' =>
          (RenamedTo pg me groupId.toInt (modified_utf8 n) w w' ↔ ∀ c ∈ n, Unreserved c)) ∧
    (w.mem.hasMember groupId.toInt userId.toInt = true →
      ∃ c, ChatApp.decode pg MessageType.SET_GROUP_NICKNAME.toByte
          (NetworkManager.setGroupNickname groupId userId n) = .ok c ∧
        Ensures env w (perform pg fd me rid c) fun _ w' =>
          (NicknamedTo pg env decode groupId.toInt userId.toInt (modified_utf8 n) w' ↔
            (∀ c ∈ n, Unreserved c) ∧ pg = true ∧
              InPlace w.db.tables groupId.toInt userId.toInt (modified_utf8 n))) :=
  ⟨fun hmember => ⟨_, decode_renameGroup pg groupId n, renamed_to_iff fd me rid hn hsound hsql hmember⟩,
    fun hmember => ⟨_, decode_setGroupNickname pg groupId userId n,
      nicknamed_to_iff fd me rid hdecode hsound hsql hmember⟩⟩

/-- A group of two users, in memory and in the tables. -/
def group_of_two : World := { World.new (tables_of_two none none) with
  mem := { ServerState.initial with
    g_users_by_name := (UMap.set ∅ (str "a") ⟨1, str "a", str "x", []⟩).set (str "b") ⟨2, str "b", str "y", []⟩
    g_users_by_id := (UMap.set ∅ 1 ⟨1, str "a", str "x", []⟩).set 2 ⟨2, str "b", str "y", []⟩
    g_groups := UMap.set ∅ 1 ⟨1, str "g", 2, (UMap.set ∅ 1 true).set 2 true, UMap.set ∅ 2 true, ∅⟩ } }

theorem group_of_two_sound : SoundNames true group_of_two where
  groups gid g hg := by
    have hall : ∀ p ∈ group_of_two.mem.g_groups.toList, 0 < p.1 ∧ 38 ∉ p.2.name := by decide
    exact hall _ ((UMap.mem_toList ..).mpr hg)
  users uid u hu := by
    have hall : ∀ p ∈ group_of_two.mem.g_users_by_id.toList, 38 ∉ p.2.username := by decide
    exact hall _ ((UMap.mem_toList ..).mpr hu)
  tables := tables_of_two_valid none none
  user_rows := by decide
  group_rows := by decide
  tx := rfl
  members _ gid uid h := by
    have hall : ∀ p ∈ group_of_two.mem.g_groups.toList, ∀ u ∈ p.2.members.keys,
        group_of_two.db.tables.isMember p.1 u = true := by decide
    obtain ⟨g, hg, hmember⟩ := (Option.any_eq_true ..).mp h
    exact hall _ ((UMap.mem_toList ..).mpr hg) _ ((UMap.mem_keys ..).mpr ((UMap.count_iff ..).mp hmember))

/-- User 1 calls the group and itself `c`. -/
theorem names_arrive_two :
    (∃ c, ChatApp.decode true MessageType.RENAME_GROUP.toByte (NetworkManager.renameGroup 1 [0x63]) = .ok c ∧
      Ensures Env.calm group_of_two (perform true 5 1 1 c) fun _ w' =>
        (RenamedTo true 1 (1 : Int32).toInt (modified_utf8 [0x63]) group_of_two w' ↔ ∀ c ∈ [0x63], Unreserved c)) ∧
    ∃ c, ChatApp.decode true MessageType.SET_GROUP_NICKNAME.toByte
        (NetworkManager.setGroupNickname 1 1 [0x63]) = .ok c ∧
      Ensures Env.calm group_of_two (perform true 5 1 1 c) fun _ w' =>
        (NicknamedTo true Env.calm rfc4648_decode (1 : Int32).toInt (1 : Int32).toInt (modified_utf8 [0x63]) w' ↔
          (∀ c ∈ [0x63], Unreserved c) ∧ true = true ∧
            InPlace group_of_two.db.tables (1 : Int32).toInt (1 : Int32).toInt (modified_utf8 [0x63])) := by
  have h := names_arrive_iff Env.calm group_of_two true 5 1 1 1 1 rfc4648_decode (List.cons_ne_nil 0x63 [])
    (fun s _ => rfc4648_decode_rfc4648 s) group_of_two_sound fun _ => Env.calm_sqlSucceeds
  exact ⟨h.1 (by decide), h.2 (by decide)⟩

/-- **A blank does not arrive**: the server calls the group `a+b`. -/
theorem blank_renamed : ¬∀ (env : Env) (w : World) (pg : Bool) (fd me rid : Int) (groupId userId : Int32) (n : Text)
    (decode : Bytes → Option Bytes), n ≠ [] → (∀ s, s ≠ [] → decode (rfc4648 s) = some s) → SoundNames pg w →
    (pg = true → env.SqlSucceeds) →
    (w.mem.hasMember groupId.toInt me = true →
      ∃ c, ChatApp.decode pg MessageType.RENAME_GROUP.toByte (NetworkManager.renameGroup groupId n) = .ok c ∧
        Ensures env w (perform pg fd me rid c) fun _ w' => RenamedTo pg me groupId.toInt (modified_utf8 n) w w') ∧
    (w.mem.hasMember groupId.toInt userId.toInt = true →
      ∃ c, ChatApp.decode pg MessageType.SET_GROUP_NICKNAME.toByte
          (NetworkManager.setGroupNickname groupId userId n) = .ok c ∧
        Ensures env w (perform pg fd me rid c) fun _ w' =>
          NicknamedTo pg env decode groupId.toInt userId.toInt (modified_utf8 n) w') := by
  intro claim
  have hn : ([0x61, 0x20, 0x62] : Text) ≠ [] := List.cons_ne_nil _ _
  have hmember : group_of_two.mem.hasMember (1 : Int32).toInt 1 = true := by decide
  obtain ⟨hrename, -⟩ := claim Env.calm group_of_two true 5 1 1 1 1 [0x61, 0x20, 0x62] rfc4648_decode hn
    (fun s _ => rfc4648_decode_rfc4648 s) group_of_two_sound fun _ => Env.calm_sqlSucceeds
  obtain ⟨c, hc, hrenamed⟩ := hrename hmember
  obtain rfl := Except.ok.inj ((decode_renameGroup true 1 [0x61, 0x20, 0x62]).symm.trans hc)
  have hiff : Ensures Env.calm group_of_two _ _ :=
    renamed_to_iff 5 1 1 hn group_of_two_sound (fun _ => Env.calm_sqlSucceeds) hmember
  have hblank : Unreserved 0x20 := hiff.mp hrenamed 0x20 (by simp)
  exact absurd hblank (by decide)

end ChatApp
