/-
`RenamedGroups.lean` -- what a new name does, on the server and on the phones of the members.

`RENAME_GROUP` writes the name into memory and into the table, and hands each member a notice with it. On the phone
the notice starts two coroutines that both write the group: the one for the new name, and `handleGroupCreated`, to
which it looks like the reply to a group that was just created. However they interleave, what they leave has
the name that is in the notice.
-/
import ChatApp.MainActivity
import ChatApp.Outgoing
import ChatApp.Pool
import ChatApp.Transactions

set_option autoImplicit false

namespace ChatApp

open Prog PostgresPersistence handle_client

/-! ## What is on its way -/

/-- The message was sent on the connection of the user, or it waits for the user. -/
def OnItsWay (w : World) (uid : Int) (m : PendingMsg) : Prop :=
  (∃ sent, (⟨w.mem.online_fd uid, m.type, m.payload, m.fromUserId, sent⟩ : Frame) ∈ w.out) ∨
    m ∈ w.mem.g_offline_messages.get uid

/-- What was sent or waits still was and does. -/
structure Kept (w w' : World) : Prop where
  out : ∀ f ∈ w.out, f ∈ w'.out
  queue : ∀ uid, ∀ m ∈ w.mem.g_offline_messages.get uid, m ∈ w'.mem.g_offline_messages.get uid

theorem Kept.refl (w : World) : Kept w w := ⟨fun _ h => h, fun _ _ h => h⟩

theorem Kept.trans {w w' w'' : World} (h : Kept w w') (h' : Kept w' w'') : Kept w w'' :=
  ⟨fun f hf => h'.out f (h.out f hf), fun uid m hm => h'.queue uid m (h.queue uid m hm)⟩

theorem Kept.of_same {w w' : World} (hout : w'.out = w.out)
    (hqueue : w'.mem.g_offline_messages = w.mem.g_offline_messages) : Kept w w' :=
  ⟨fun _ hf => hout ▸ hf, fun _ _ hm => hqueue ▸ hm⟩

/-- An operation that adds to what is sent and queued. -/
theorem Op.hands.kept {β : Type} {o : Op β} (ho : o.hands fun _ => True) (env : Env) (w : World) :
    Kept w (o.exec env w).2 := by
  cases o with
  | send fd type payload userId => exact ⟨fun f hf => List.mem_append_left _ hf, fun _ _ h => h⟩
  | modify x f =>
    cases x with
    | g_offline_messages =>
      refine ⟨fun _ h => h, fun uid m hm => ?_⟩
      obtain ⟨new, hnew, -⟩ := ho w.mem.g_offline_messages uid
      show m ∈ (f w.mem.g_offline_messages).get uid
      rw [hnew]
      exact List.mem_append_left _ hm
    | _ => exact .of_same rfl rfl
  | _ => exact .of_same rfl rfl

/-- And nobody has come or gone. -/
structure Later (w w' : World) : Prop extends Kept w w' where
  online : w'.mem.g_online_clients = w.mem.g_online_clients

theorem Later.refl (w : World) : Later w w := ⟨.refl w, rfl⟩

theorem Later.trans {w w' w'' : World} (h : Later w w') (h' : Later w' w'') : Later w w'' :=
  ⟨h.toKept.trans h'.toKept, h'.online.trans h.online⟩

theorem OnItsWay.later {w w' : World} {uid : Int} {m : PendingMsg} (h : OnItsWay w uid m) (hl : Later w w') :
    OnItsWay w' uid m := by
  refine h.imp (fun ⟨sent, hsent⟩ => ⟨sent, ?_⟩) (hl.queue uid m)
  rw [ServerState.online_fd, hl.online]
  exact hl.out _ hsent

section Deliveries

variable {S : List Field} {α : Type} {R : α → Prop} {env : Env} {w : World}

/-- A program that only adds to what is sent and queued, and lets nobody come or go. -/
theorem later_of_hands {p : Prog S α} (hp : p.Always (Op.hands fun _ => True) R)
    (honline : .var .g_online_clients ∉ S) : Ensures env w p fun _ w' => Later w w' :=
  ⟨hp.rel Kept.refl Kept.trans fun _ w ho => ho.kept env w, run_frame env p w (x := .var .g_online_clients) honline⟩

theorem reply_later (fd : Int) (type : MessageType) (payload : Bytes) (userId : UInt32) (h : .out ∈ S) :
    Ensures env w (reply fd type payload userId h : Prog S Unit) fun _ w' => Later w w' :=
  ⟨⟨fun _ hf => List.mem_append_left _ hf, fun _ _ h => h⟩, rfl⟩

/-- **A delivery** puts a message on its way. -/
theorem deliver_onItsWay (m : PendingMsg) (uid : Int) :
    Ensures env w (deliver m uid) fun _ w' => Later w w' ∧ OnItsWay w' uid m := by
  refine Ensures.and (later_of_hands (deliver_hands trivial uid) (by simp)) ?_
  refine Ensures.bind (R := fun fd w₁ => fd = w.mem.online_fd uid ∧ w₁ = w) (Ensures.locked ⟨rfl, rfl⟩) ?_
  rintro _ _ ⟨rfl, rfl⟩
  refine ensures_ite (fun _ => ?_) fun _ => ?_
  · exact .inl ⟨_, List.mem_append_right _ (List.mem_singleton.mpr rfl)⟩
  · refine Ensures.lift (Ensures.locked (.inr ?_)) _
    show m ∈ (UMap.update _ uid fun ms => ms ++ [m]).get uid
    rw [UMap.get_update, if_pos rfl]
    exact List.mem_append_right _ (List.mem_singleton.mpr rfl)

theorem deliver_all_onItsWay (m : PendingMsg) (uids : List Int) :
    Ensures env w (deliver_all m uids) fun _ w' => Later w w' ∧ ∀ uid ∈ uids, OnItsWay w' uid m := by
  refine Prog.run_forM env w (I := fun done w' => Later w w' ∧ ∀ uid ∈ done, OnItsWay w' uid m)
    ⟨.refl w, fun uid h => absurd h List.not_mem_nil⟩ fun done uid w₁ _ h₁ => ?_
  have hstep : Ensures env w₁ (deliver m uid) _ := deliver_onItsWay m uid
  refine ⟨h₁.1.trans hstep.1, fun u hu => ?_⟩
  rcases List.mem_append.mp hu with hu | hu
  · exact (h₁.2 u hu).later hstep.1
  · rw [List.mem_singleton.mp hu]
    exact hstep.2

end Deliveries

/-! ## `RENAME_GROUP` -/

/-- The members of a group, to whom its announcements go: those of the database, or those in memory. -/
def World.members (pg : Bool) (w : World) (gid : Int) : List Int :=
  if pg then (w.db.tables.membersOf gid).map UserRow.id
  else ((w.mem.g_groups.find? gid).map fun g => g.members.keys).getD []

/-- Memory has the same groups, the tables have the same members, and no transaction was opened. -/
structure KeepsMembers (w w' : World) : Prop where
  groups : w'.mem.g_groups = w.mem.g_groups
  users : w'.db.tables.users = w.db.tables.users
  rows : w'.db.tables.group_members = w.db.tables.group_members
  tx : w.db.tx = none → w'.db.tx = none

theorem KeepsMembers.trans {w w' w'' : World} (h : KeepsMembers w w') (h' : KeepsMembers w' w'') :
    KeepsMembers w w'' :=
  ⟨h'.groups.trans h.groups, h'.users.trans h.users, h'.rows.trans h.rows, fun htx => h'.tx (h.tx htx)⟩

theorem KeepsMembers.members {w w' : World} (h : KeepsMembers w w') (pg : Bool) (gid : Int) :
    w'.members pg gid = w.members pg gid := by
  rw [World.members, World.members, Tables.membersOf, Tables.membersOf, h.groups, h.users, h.rows]

section Rename

variable {env : Env} {w : World} {S : List Field}

/-- By the footprint. -/
theorem keeps_members {α : Type} (p : Prog S α)
    (h : ∀ x ∈ [.var .g_groups, .table .users, .table .group_members, .tx], x ∉ S) :
    Ensures env w p fun _ w' => KeepsMembers w w' := by
  simp only [List.forall_mem_cons] at h
  exact ⟨run_frame env p w h.1, run_frame env p w h.2.1, run_frame env p w h.2.2.1, run_frame env p w h.2.2.2.1⟩

variable (pg : Bool) (gid : Int)

theorem members_to_notify_ensures (htx : w.db.tx = none) (hknown : w.mem.g_groups.count gid = true)
    (hsql : pg = true → env.SqlSucceeds) :
    Ensures env w (members_to_notify pg gid) fun members w' =>
      members = w.members pg gid ∧ w'.mem.g_groups = w.mem.g_groups := by
  cases pg with
  | true =>
    have hquery : Ensures env w (get_group_members gid) fun rows w' =>
        rows = w.db.tables.membersOf gid ∧ w'.mem = w.mem := by
      refine Ensures.bind (select_ensures (fun d => d.membersOf gid) (hsql rfl) htx) ?_
      rintro _ w₁ ⟨hmem, -, rfl⟩
      exact ensures_pure ⟨rfl, hmem⟩
    refine Ensures.bind (hquery.lift (by simp)) ?_
    rintro _ w₁ ⟨rfl, hmem⟩
    exact ensures_pure ⟨rfl, by rw [hmem]⟩
  | false =>
    obtain ⟨g, hg⟩ := (UMap.count_iff ..).mp hknown
    have htouch : w.mem.g_groups.touch gid = w.mem.g_groups := by
      rw [UMap.touch, if_pos hknown]
    refine Ensures.locked ⟨?_, htouch⟩
    show ((w.mem.g_groups.touch gid).get gid).members.keys = _
    rw [htouch, UMap.get_of_find? hg, World.members, if_neg Bool.false_ne_true, hg]
    rfl

/-- What an announcement leaves: the members are returned, and the groups are as they were. -/
theorem announce_ensures (sys : Prog [] Bytes) (htx : w.db.tx = none) (hknown : w.mem.g_groups.count gid = true)
    (hsql : pg = true → env.SqlSucceeds) :
    Ensures env w (announce pg gid sys) fun members w' =>
      members = w.members pg gid ∧ w'.mem.g_groups = w.mem.g_groups := by
  refine Ensures.bind (R := fun _ w₁ => KeepsMembers w w₁) ⟨rfl, rfl, rfl, id⟩ fun ts_ms w₁ h₁ => ?_
  refine Ensures.bind ((keeps_members sys (by decide)).lift _) fun text w₂ h₂ => ?_
  have hsave : Ensures env w₂ (when pg do
      let _ ← (save_group_message gid 0 text ts_ms).lift
      pure () : Prog broadcast_writes Unit) fun _ w₃ => KeepsMembers w w₃ := by
    refine ensures_when (fun _ => ?_) fun _ => h₁.trans h₂
    refine Ensures.bind ((keeps_members (save_group_message gid 0 text ts_ms) (by decide)).lift _) fun _ w₃ h₃ => ?_
    exact ensures_pure ((h₁.trans h₂).trans h₃)
  refine Ensures.bind hsave fun _ w₃ h₃ => ?_
  have hmembers : Ensures env w₃ (members_to_notify pg gid) _ :=
    members_to_notify_ensures pg gid (h₃.tx htx) (by rw [h₃.groups, hknown]) hsql
  refine Ensures.bind (hmembers.lift _) ?_
  rintro _ w₄ ⟨rfl, hgroups⟩
  refine ensures_part fun _ w₅ hframe => ensures_pure ⟨h₃.members pg gid, ?_⟩
  have hgroups' : w₅.mem.g_groups = w₄.mem.g_groups := hframe (.var .g_groups) (by decide)
  rw [hgroups', hgroups, h₃.groups]

/-- The name of a group in the table. -/
theorem rename_row_ensures (newName : Bytes) (htx : w.db.tx = none) (hs : env.SqlSucceeds) :
    Ensures env w (PostgresPersistence.rename_group gid newName) fun _ w' =>
      KeepsMembers w w' ∧ ∀ g ∈ w'.db.tables.groups.rows, g.id = gid → g.name = escape_string newName := by
  refine Ensures.and (keeps_members _ (by decide)) ?_
  have hrow : ∀ d : Tables, ∀ g ∈ ((update_group_name gid (escape_string newName) d).2).rows, g.id = gid →
      g.name = escape_string newName := by
    intro d g hg hid
    obtain ⟨g', -, rfl⟩ := List.mem_map.mp hg
    by_cases hg' : g'.id = gid
    · rw [if_pos hg']
    · rw [if_neg hg'] at hid
      exact absurd hid hg'
  refine (logged_ensures 0 0 htx fun h => by cases h).mono fun _ w' h => ?_
  obtain ⟨-, ⟨-, -, htables⟩ | ⟨-, -, hrefused⟩⟩ := h
  · rw [htables]
    exact hrow w.db.tables
  · cases hrefused hs

/-- **A new name** is stored in memory and in the table, and the notice of it goes to every member. -/
theorem rename_group_ensures (fd me : Int) (newName : Bytes) (hmember : w.mem.hasMember gid me = true)
    (htx : w.db.tx = none) (hsql : pg = true → env.SqlSucceeds) :
    Ensures env w (rename_group pg fd me gid newName) fun _ w' =>
      (∃ g, w'.mem.g_groups.find? gid = some g ∧ g.name = newName) ∧
      (pg = true → ∀ g ∈ w'.db.tables.groups.rows, g.id = gid → g.name = escape_string newName) ∧
      ∀ uid ∈ w.members pg gid, OnItsWay w' uid (renamed_notice me gid newName) := by
  obtain ⟨g, hg, -⟩ := (Option.any_eq_true ..).mp hmember
  -- memory, under the lock
  have hsection : Ensures env w (locked do
      let member ← read fun s => s.hasMember gid me
      when member (modify .g_groups (rename gid newName))
      pure member : Prog rename_writes Bool) fun ok w₁ =>
        ok = true ∧ w₁ = { w with mem := { w.mem with g_groups := rename gid newName w.mem.g_groups } } := by
    refine Ensures.locked ?_
    simp [Ensures, hmember, Var.modify]
  refine Ensures.bind hsection ?_
  rintro _ w₁ ⟨rfl, hw₁⟩
  have hmembers₁ : w₁.members pg gid = w.members pg gid := by
    rw [hw₁, World.members, World.members]
    simp [rename, hg]
  have hrenamed : w₁.mem.g_groups.find? gid = some { g with name := newName } := by
    rw [hw₁]
    simp [rename, hg]
  have hknown : w₁.mem.g_groups.count gid = true := (UMap.count_iff ..).mpr ⟨_, hrenamed⟩
  have htx₁ : w₁.db.tx = none := by rw [hw₁, htx]
  refine Ensures.bind (ensures_ite (fun h => absurd h (by decide)) fun _ => ?_) fun _ w' h => ensures_pure h
  -- the table
  have hrow : Ensures env w₁ (when pg do
      let _ ← (PostgresPersistence.rename_group gid newName).lift
      pure () : Prog rename_writes Unit) fun _ w₂ => KeepsMembers w₁ w₂ ∧
        (pg = true → ∀ g ∈ w₂.db.tables.groups.rows, g.id = gid → g.name = escape_string newName) := by
    refine ensures_when (fun hpg => ?_) fun hpg => ⟨⟨rfl, rfl, rfl, id⟩, fun h => absurd (hpg.symm.trans h) (by decide)⟩
    refine Ensures.bind ((rename_row_ensures gid newName htx₁ (hsql hpg)).lift _) fun _ w₂ h₂ => ?_
    exact ensures_pure ⟨h₂.1, fun _ => h₂.2⟩
  refine Ensures.bind hrow ?_
  rintro _ w₂ ⟨h₂, hnames⟩
  -- the announcement, and the notice
  have hannounced : Ensures env w₂ (announce pg gid
      (sys_actor me (str " renamed the group to \"" ++ newName ++ str "\""))) _ :=
    (announce_ensures pg gid _ (h₂.tx htx₁) (by rw [h₂.groups, hknown]) hsql).and (ensures_frame _)
  refine Ensures.bind (hannounced.lift _) ?_
  rintro members w₃ ⟨⟨rfl, hgroups₃⟩, hframe₃⟩
  have htable₃ : w₃.db.tables.groups = w₂.db.tables.groups := hframe₃ (.table .groups) (by decide)
  have hdelivered : Ensures env w₃ (deliver_all (renamed_notice me gid newName) (w₂.members pg gid)) _ :=
    (deliver_all_onItsWay _ _).and (ensures_frame _)
  refine Ensures.bind (hdelivered.lift _) ?_
  rintro _ w₄ ⟨⟨-, hway⟩, hframe₄⟩
  have hgroups₄ : w₄.mem.g_groups = w₃.mem.g_groups := hframe₄ (.var .g_groups) (by decide)
  have htable₄ : w₄.db.tables.groups = w₃.db.tables.groups := hframe₄ (.table .groups) (by decide)
  have hlast : Ensures env w₄ (reply fd .SUCCESS (str "Renamed") (u32 me) : Prog rename_writes Unit) fun _ w₅ =>
      Later w₄ w₅ ∧ w₅.mem = w₄.mem ∧ w₅.db = w₄.db :=
    (reply_later fd .SUCCESS (str "Renamed") (u32 me) (by decide)).and ⟨rfl, rfl⟩
  refine hlast.mono ?_
  rintro _ w₅ ⟨hlater, hmem₅, hdb₅⟩
  refine ⟨⟨{ g with name := newName }, ?_, rfl⟩, fun hpg => ?_, fun uid huid => ?_⟩
  · rw [hmem₅, hgroups₄, hgroups₃, h₂.groups, hrenamed]
  · rw [hdb₅, htable₄, htable₃]
    exact hnames hpg
  · rw [← hmembers₁, ← h₂.members] at huid
    exact (hway uid huid).later hlater

end Rename

/-! ## The notice on the phone -/

namespace Room

section Notice

/-- The group has this name. -/
def Named (gid : Int) (newName : Bytes) (db : Database) : Prop :=
  (db.groups.find? gid).map Group.name = some newName

/-- A transaction that leaves the group its name. -/
def Transaction.KeepsName (gid : Int) (newName : Bytes) {β : Type} (t : Transaction β) : Prop :=
  ∀ db, Named gid newName db → Named gid newName (t.exec db).2

/-- A coroutine of which the next transaction names the group. -/
def GivesName (gid : Int) (newName : Bytes) : Dao Unit → Prop
  | .pure _ => False
  | .op t _ => ∀ db, Named gid newName (t.exec db).2

variable {gid : Int} {newName : Bytes}

theorem keeps_query {β : Type} (f : Database → β) :
    (Transaction.atomic fun db => (f db, db)).KeepsName gid newName := fun _ h => h

theorem named_insert (g : Group) (hname : g.name = newName) (db : Database) (h : g.id = gid ∨ Named gid newName db) :
    Named gid newName { db with groups := db.groups.set g.id g } := by
  rw [Named, UMap.find?_set]
  by_cases hid : gid = g.id
  · rw [if_pos hid, Option.map_some, hname]
  · rw [if_neg hid]
    exact h.resolve_left fun heq => hid heq.symm

theorem keeps_insert_group (g : Group) (hname : g.name = newName) :
    (insertGroup g).Always (Transaction.KeepsName gid newName) fun _ => True :=
  ⟨fun db h => named_insert g hname db (.inr h), fun _ => trivial⟩

/-- **Two coroutines that keep the name**, of which the first gives it, leave it. -/
theorem interleave_named {p q : Dao Unit} (hp : p.Always (Transaction.KeepsName gid newName) fun _ => True)
    (hq : q.Always (Transaction.KeepsName gid newName) fun _ => True) (hgives : GivesName gid newName p)
    (turns : List Bool) (db : Database) : Named gid newName (Program.interleave Transaction.exec turns p q db) := by
  refine Program.interleave_invariant (I := fun p q db => p.Always (Transaction.KeepsName gid newName) (fun _ => True) ∧
    q.Always (Transaction.KeepsName gid newName) (fun _ => True) ∧ (GivesName gid newName p ∨ Named gid newName db))
    turns ⟨hp, hq, .inl hgives⟩ ?_ ?_ ?_
  · rintro γ t k q db ⟨hp, hq, hname⟩
    refine ⟨hp.2 _, hq, .inr ?_⟩
    exact hname.elim (fun hgives => hgives db) (hp.1 db)
  · rintro γ t p k db ⟨hp, hq, hname⟩
    exact ⟨hp, hq.2 _, hname.imp_right (hq.1 db)⟩
  · rintro _ _ db ⟨-, -, hname⟩
    exact hname.resolve_left id

theorem rename_keeps_name :
    (MainActivity.rename gid newName).Always (Transaction.KeepsName gid newName) fun _ => True := by
  refine ⟨keeps_query _, fun existing => ?_⟩
  cases existing with
  | none => trivial
  | some g => exact keeps_insert_group { g with name := newName } rfl

/-- `handleGroupCreated` takes the notice for a new group, with the new name and no other members. -/
theorem created_names (session : Session) (hfits : Fits 32 gid) (hname : 38 ∉ newName) :
    (MainActivity.handleGroupCreated session (Reply.renamed gid newName).payload).Always
        (Transaction.KeepsName gid newName) (fun _ => True) ∧
      GivesName gid newName (MainActivity.handleGroupCreated session (Reply.renamed gid newName).payload) := by
  have hpairs := pairs_renamed gid hname
  have hread : toIntOrNull (to_string gid) = some gid := toNumberOrNull_to_string hfits
  have hid : (pairs (Reply.renamed gid newName).payload).find? (str "groupId") = some (to_string gid) := by
    rw [hpairs]
    simp [str]
  have hnew : (pairs (Reply.renamed gid newName).payload).find? (str "name") = some newName := by
    rw [hpairs]
    simp [str]
  have hmembers : (pairs (Reply.renamed gid newName).payload).get (str "members") = [] := by
    rw [hpairs]
    simp [str]
    rfl
  rw [MainActivity.handleGroupCreated]
  simp only [hid, hnew, hmembers, Option.bind_some, hread]
  exact ⟨⟨fun db h => named_insert _ rfl db (.inr h), fun _ => ⟨fun _ h => h, fun _ => trivial⟩⟩,
    fun db => named_insert _ rfl db (.inl rfl)⟩

/-- **The coroutines that a notice starts**: `handleGroupCreated`, and the one for the new name. -/
theorem on_success_renamed (decode : Bytes → Option Bytes) (session : Session) (now : Nat → Int) (hpos : 0 < gid)
    (hfits : Fits 32 gid) (hname : 38 ∉ newName) (hplain : 61 ∉ newName) (hne : newName ≠ []) :
    MainActivity.on_success decode session now (Reply.renamed gid newName).payload =
      [MainActivity.handleGroupCreated session (Reply.renamed gid newName).payload,
        MainActivity.rename gid newName] := by
  have hpairs := pairs_renamed gid hname
  have hread : toIntOrNull (to_string gid) = some gid := toNumberOrNull_to_string hfits
  have hhandler : MainActivity.group_handler (Reply.renamed gid newName).payload = some .handleGroupCreated := by
    have hlist : contains (Reply.renamed gid newName).payload "groupId0=" = false := by
      rw [Bool.eq_false_iff, ne_eq, Reply.contains_groupId0 rfl]
      rintro ⟨t, ht, hcontains⟩
      obtain rfl : t = newName := List.mem_singleton.mp ht
      exact hplain ((contains_iff.mp hcontains).subset (by decide))
    have hid : contains (Reply.renamed gid newName).payload "groupId=" = true :=
      (Reply.contains_groupId rfl).mpr (.inl ⟨"groupId", by simp [Reply.plain_keys], List.suffix_refl _⟩)
    have hnew : contains (Reply.renamed gid newName).payload "name=" = true :=
      (Reply.contains_name rfl).mpr (.inl ⟨"name", by simp [Reply.plain_keys], List.suffix_refl _⟩)
    rw [MainActivity.group_handler, hlist, hid, hnew]
    rfl
  have hcounts : (pairs (Reply.renamed gid newName).payload).count (str "id0") = false ∧
      (pairs (Reply.renamed gid newName).payload).count (str "userId") = false ∧
      (pairs (Reply.renamed gid newName).payload).count (str "groupId") = true ∧
      (pairs (Reply.renamed gid newName).payload).count (str "name") = true := by
    rw [hpairs]
    simp [UMap.count, str]
  have hvalues : (pairs (Reply.renamed gid newName).payload).find? (str "groupId") = some (to_string gid) ∧
      (pairs (Reply.renamed gid newName).payload).get (str "name") = newName ∧
      (pairs (Reply.renamed gid newName).payload).find? (str "action") = some (str "renamed") := by
    rw [hpairs]
    simp [str]
  have hgid : MainActivity.id_of (pairs (Reply.renamed gid newName).payload) "groupId" = gid := by
    rw [MainActivity.id_of, hvalues.1, Option.bind_some, hread]
    rfl
  simp [MainActivity.on_success, hhandler, hcounts, hvalues, hgid, hpos, hne, MainActivity.GroupHandler.handle]

end Notice

end Room

end ChatApp
