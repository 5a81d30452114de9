/-
`OutsiderRequests.lean` -- the requests of a user about a group it has no part in.

A request about another group, or about none, spares this one by its operations
(`perform_spares`, `perform_quiet`). A request about this group has to be refused, and each
kind is refused by a test of its own. What is left are the cases `sparesGroup` names: there the
test is missing, or it is about somebody else.
-/
import ChatApp.GroupOutsiders

set_option autoImplicit false

namespace ChatApp

open Prog PostgresPersistence handle_client

/-- The group was left alone: it is as it was, and nobody got a message for it. -/
structure LeftAlone (gid : Int) (w w' : World) : Prop where
  untouched : GroupUntouched gid w w'
  silent : GroupSilent gid w w'

theorem LeftAlone.refl (gid : Int) (w : World) : LeftAlone gid w w :=
  ⟨GroupUntouched.refl gid w, GroupSilent.refl gid w⟩

theorem LeftAlone.trans {gid : Int} {w w' w'' : World} (h : LeftAlone gid w w')
    (h' : LeftAlone gid w' w'') : LeftAlone gid w w'' :=
  ⟨h.untouched.trans h'.untouched, h.silent.trans h'.silent⟩

section Requests

variable {env : Env} {w : World} {gid me : Int} {pg : Bool} {S T : List Field}

/-! ## Refusals -/

/-- A frame for something else leaves the group alone. -/
theorem reply_leftAlone {fd : Int} {type : MessageType} {payload : Bytes} {uid : UInt32}
    {h : .out ∈ S} (hframe : isForGroup gid type payload = false) :
    Ensures env w (reply fd type payload uid h : Prog S Unit) fun _ w' => LeftAlone gid w w' := by
  refine ⟨⟨rfl, rfl, rfl⟩, Always.silent (p := reply fd type payload uid h) (R := fun _ => True) ?_
    env w⟩
  simp [Op.quiet, hframe]

theorem answer_leftAlone {fd : Int} {type : MessageType} {text : Bytes} {uid : UInt32}
    {h : .out ∈ S} (htype : type ≠ .GROUP_MESSAGE) :
    Ensures env w (reply fd type text uid h : Prog S Unit) fun _ w' => LeftAlone gid w w' :=
  reply_leftAlone (by simp [isForGroup, htype])

/-- A request whose test fails, without having changed anything, is answered with an error. -/
theorem refused_leftAlone {p : Prog S Bool} {fd : Int} {text : Bytes} {uid : UInt32}
    {h : .out ∈ S} {rest : Prog S Unit}
    (hp : Ensures env w p fun ok w₁ => ok = false ∧ LeftAlone gid w w₁) :
    Ensures env w (p >>= fun ok => andNext (if !ok then reply fd .ERROR text uid h else rest))
      fun _ w' => LeftAlone gid w w' := by
  refine hp.bind fun ok w₁ h₁ => ?_
  obtain ⟨rfl, hsame⟩ := h₁
  suffices hbody : Ensures env w₁ _ fun (_ : Unit) w' => LeftAlone gid w w' from
    hbody.bind fun _ w' h => ensures_pure h
  refine ensures_ite (fun _ => ?_) fun hok => absurd rfl hok
  exact (answer_leftAlone (by decide)).mono fun _ w' h => hsame.trans h

/-- Nothing that is kept or sent has changed. -/
theorem leftAlone_of_same {w' : World} (hgroups : w'.mem.g_groups = w.mem.g_groups)
    (htables : w'.db.tables = w.db.tables)
    (hframe : ∀ x ∈ [Field.var .g_offline_messages, .out], x.Same w w') : LeftAlone gid w w' := by
  refine ⟨⟨?_, ?_, ?_⟩, groupSilent_of_frame hframe⟩
  · rw [hgroups]
  · rw [htables]
  · rw [htables]

/-- A statement that is refused or fails, outside a transaction, changes nothing. -/
theorem logged_refused {t : Table} {β : Type} {q : Statement t β} {h : .table t ∈ S}
    {hl : [.table .activity_logs] ⊆ S} (uid target : Int) (htx : w.db.tx = none)
    (hrefused : env.sql_fails w.ticks = true ∨
      ((q w.db.tables).1 = none ∧ (q w.db.tables).2 = t.get w.db.tables)) :
    Ensures env w (execute t q h >>= fun res => if res.isNone then pure false
      else (log_activity uid target).lift hl >>= fun _ => pure true : Prog S Bool)
      fun ok w' => ok = false ∧ w'.db.tables = w.db.tables := by
  refine (execute_of_none t q h htx).bind fun r w₁ h₁ => ?_
  rcases h₁ with ⟨-, rfl, hdb⟩ | ⟨hworks, rfl, hdb⟩
  · exact ensures_pure ⟨rfl, by rw [hdb]⟩
  · obtain ⟨hnone, hsame⟩ := hrefused.resolve_left (by simp [hworks])
    rw [hnone]
    refine ensures_pure ⟨rfl, ?_⟩
    rw [hdb, hsame, Table.put_get]

/-- A refused row. -/
theorem insert_group_member_refused {d : Tables} {uid : Int} (hmember : d.isMember gid uid = false)
    (hrefs : (d.hasGroup gid && d.hasUser uid) = false) :
    (insert_group_member gid uid d).1 = none ∧
      (insert_group_member gid uid d).2 = d.group_members := by
  unfold insert_group_member
  rw [if_neg (by simp [hmember]), if_neg (by simp [hrefs])]
  exact ⟨rfl, rfl⟩

/-- Without a row nobody is an admin. -/
theorem isAdmin_of_not_member {d : Tables} {uid : Int} (h : d.isMember gid uid = false) :
    d.isAdmin gid uid = false := by
  have hfind : d.group_members.find? (fun r => r.group_id = gid && r.user_id = uid) = none := by
    rw [List.find?_eq_none]
    intro r hr hids
    rw [Tables.isMember, List.any_eq_false] at h
    exact h r hr hids
  rw [Tables.isAdmin, hfind]
  rfl

/-- A query that is answered with `false`, or fails. -/
theorem select_refused {q : Tables → Bool} (htx : w.db.tx = none) (hq : q w.db.tables = false) :
    Ensures env w (select q >>= fun res => pure (res.getD false) : Prog [] Bool) fun ok w₁ =>
      ok = false ∧ w₁.db = w.db := by
  refine (select_of_none q htx).bind fun r w₁ h₁ => ensures_pure ?_
  obtain ⟨hdb, ⟨-, rfl⟩ | ⟨-, rfl⟩⟩ := h₁
  · exact ⟨rfl, hdb⟩
  · exact ⟨hq, hdb⟩

theorem select_false {q : Tables → Bool} (htx : w.db.tx = none) (hq : q w.db.tables = false) :
    Ensures env w (select q >>= fun res => pure (res.getD false) : Prog [] Bool) fun ok w₁ =>
      ok = false ∧ LeftAlone gid w w₁ := by
  refine ((select_refused htx hq).and (ensures_frame _)).mono fun ok w₁ h₁ => ?_
  obtain ⟨⟨hok, hdb⟩, hframe⟩ := h₁
  exact ⟨hok, leftAlone_of_same (hframe (.var .g_groups) (by simp)) (by rw [hdb]) fun x _ => hframe x (by simp)⟩

/-! ## Each kind of request -/

theorem invite_to_group_refused (fd uid : Int) (hout : NoPart pg w gid me) :
    Ensures env w (invite_to_group pg fd me gid uid) fun _ w' => LeftAlone gid w w' := by
  refine refused_leftAlone (Ensures.locked ?_)
  exact ⟨hout.memory, LeftAlone.refl gid w⟩

theorem rename_group_refused (fd : Int) (newName : Bytes) (hout : NoPart pg w gid me) :
    Ensures env w (handle_client.rename_group pg fd me gid newName)
      fun _ w' => LeftAlone gid w w' := by
  refine refused_leftAlone (Ensures.locked (ensures_read ?_))
  rw [hout.memory]
  exact ⟨rfl, LeftAlone.refl gid w⟩

theorem set_group_nickname_refused (fd uid : Int) (nick : Bytes)
    (htarget : w.mem.hasMember gid uid = false) :
    Ensures env w (handle_client.set_group_nickname pg fd me gid uid nick)
      fun _ w' => LeftAlone gid w w' := by
  refine refused_leftAlone (Ensures.locked (ensures_read ?_))
  rw [htarget]
  exact ⟨rfl, LeftAlone.refl gid w⟩

/-- Joining is refused by the foreign keys, or for a group that memory does not have. -/
theorem accept_group_invite_refused (fd : Int) (htx : w.db.tx = none) (hout : NoPart pg w gid me)
    (hspares : sparesGroup pg env w me gid (.accept_group_invite gid) = true) :
    Ensures env w (accept_group_invite pg fd me gid) fun _ w' => LeftAlone gid w w' := by
  refine refused_leftAlone (Ensures.lift ?_ _)
  cases pg with
  | true =>
    -- the statement fails, or the new row refers to nobody or to no group
    have hrefused : env.sql_fails w.ticks = true ∨
        (insert_group_member gid me w.db.tables).1 = none ∧
          (insert_group_member gid me w.db.tables).2 = w.db.tables.group_members := by
      by_cases hfails : env.sql_fails w.ticks = true
      · exact .inl hfails
      · refine .inr (insert_group_member_refused (hout.rows rfl) (Bool.and_eq_false_iff.mpr ?_))
        simpa [sparesGroup, hfails] using hspares
    have hadd : Ensures env w (add_group_member gid me) _ := logged_refused me 0 htx hrefused
    refine ((hadd.and (ensures_frame _)).lift _).bind fun ok w₁ h₁ => ?_
    obtain ⟨⟨rfl, htables⟩, hframe⟩ := h₁
    refine ⟨rfl, leftAlone_of_same (hframe (.var .g_groups) (by simp)) htables fun x hx => hframe x ?_⟩
    simp only [List.mem_cons, List.not_mem_nil, or_false] at hx
    rcases hx with rfl | rfl <;> simp
  | false =>
    -- memory does not have the group, so there is nothing to join
    have hunknown : w.mem.g_groups.count gid = false := by simpa [sparesGroup] using hspares
    have hfind : w.mem.g_groups.find? gid = none := by simpa [UMap.count] using hunknown
    refine Ensures.locked (ensures_read (ensures_modify (ensures_pure ⟨hunknown, ?_⟩)))
    refine leftAlone_of_same ?_ rfl fun x hx => ?_
    · show w.mem.g_groups.adjust gid _ = _
      rw [UMap.adjust, hfind]
    · simp only [List.mem_cons, List.not_mem_nil, or_false] at hx
      rcases hx with rfl | rfl <;> rfl

/-- With a database, who removes itself is not asked for anything. -/
theorem may_remove_self {uid : Int} (huid : uid = me) :
    Ensures env w (may_remove true me gid uid) fun ok w₁ => ok = true ∧ w₁ = w := by
  rw [may_remove, if_pos rfl, if_pos huid]
  exact ⟨rfl, rfl⟩

theorem remove_from_group_refused (fd uid : Int) (htx : w.db.tx = none) (hout : NoPart pg w gid me)
    (hspares : sparesGroup pg env w me gid (.remove_from_group gid uid) = true) :
    Ensures env w (remove_from_group pg fd me gid uid) fun _ w' => LeftAlone gid w w' := by
  cases pg with
  | true =>
    by_cases huid : uid = me
    · -- the sender removes itself, and the statement fails
      have hfails : env.sql_fails w.ticks = true := by simpa [sparesGroup, huid] using hspares
      have hremove : Ensures env w (remove_group_member gid uid) _ :=
        logged_refused uid 0 htx (.inl hfails)
      have hpersist : Ensures env w (persist_removal true gid uid) fun ok w₁ =>
          ok = false ∧ LeftAlone gid w w₁ := by
        refine ((hremove.and (ensures_frame _)).lift _).bind fun ok w₁ h₁ => ?_
        obtain ⟨⟨rfl, htables⟩, hframe⟩ := h₁
        refine ⟨rfl, leftAlone_of_same (hframe (.var .g_groups) (by simp)) htables
          fun x hx => hframe x ?_⟩
        simp only [List.mem_cons, List.not_mem_nil, or_false] at hx
        rcases hx with rfl | rfl <;> simp
      refine ((may_remove_self huid).lift _).bind fun ok w₁ h₁ => ?_
      obtain ⟨rfl, rfl⟩ := h₁
      suffices hbody : Ensures env w₁ _ fun (_ : Unit) w' => LeftAlone gid w₁ w' from
        hbody.bind fun _ w' h => ensures_pure h
      refine ensures_ite (fun h => absurd h (by simp)) fun _ => ?_
      refine (hpersist.lift _).bind fun ok w₂ h₂ => ?_
      obtain ⟨rfl, hsame⟩ := h₂
      refine ensures_ite (fun _ => ?_) fun hok => absurd rfl hok
      exact (answer_leftAlone (by decide)).mono fun _ w' h => hsame.trans h
    -- another user is removed by admins only, and without a row nobody is one
    · refine refused_leftAlone (Ensures.lift ?_ _)
      rw [may_remove, if_pos rfl, if_neg huid]
      exact select_false htx (isAdmin_of_not_member (hout.rows rfl))
  | false =>
    refine refused_leftAlone (Ensures.lift ?_ _)
    -- in memory the test is that the group is known, or the entry of an admin
    refine Ensures.locked ⟨?_, LeftAlone.refl gid w⟩
    by_cases huid : uid = me
    · simpa [sparesGroup, huid] using hspares
    · simpa [sparesGroup, huid] using hspares

theorem make_admin_refused (fd uid : Int) (htx : w.db.tx = none) (hout : NoPart pg w gid me)
    (hspares : sparesGroup pg env w me gid (.make_admin gid uid) = true) :
    Ensures env w (make_admin pg fd me gid uid) fun _ w' => LeftAlone gid w w' := by
  refine refused_leftAlone (Ensures.lift ?_ _)
  cases pg with
  | true => exact select_false htx (isAdmin_of_not_member (hout.rows rfl))
  | false =>
    refine Ensures.locked ⟨?_, LeftAlone.refl gid w⟩
    simpa [sparesGroup] using hspares

theorem group_message_refused (fd : Int) (message : Bytes) (htx : w.db.tx = none)
    (hout : NoPart pg w gid me) :
    Ensures env w (group_message pg fd me gid message) fun _ w' => LeftAlone gid w w' := by
  have hrecipients : Ensures env w (recipients pg me gid) fun r w₁ =>
      r = none ∧ LeftAlone gid w w₁ := by
    cases pg with
    | true =>
      have hmember : Ensures env w (is_group_member gid me) fun ok w₁ =>
          ok = false ∧ LeftAlone gid w w₁ := select_false htx (hout.rows rfl)
      refine hmember.bind fun ok w₁ h₁ => ?_
      obtain ⟨rfl, hsame⟩ := h₁
      exact ⟨rfl, hsame⟩
    | false =>
      refine Ensures.locked ⟨?_, LeftAlone.refl gid w⟩
      exact if_neg (by simp [hout.memory])
  refine (hrecipients.lift _).bind fun r w₁ h₁ => ?_
  obtain ⟨rfl, hsame⟩ := h₁
  exact (answer_leftAlone (S := group_message_writes) (by decide)).bind
    fun _ w' h => ensures_pure (hsame.trans h)

/-- A row that is not there cannot be deleted. -/
theorem delete_absent {d : Tables} {uid : Int} (h : d.isMember gid uid = false) :
    (delete_group_member gid uid d).2 = d.group_members := by
  rw [delete_group_member, List.filter_eq_self]
  intro r hr
  rw [Tables.isMember, List.any_eq_false] at h
  rw [Bool.not_eq_true', ← Bool.not_eq_true]
  exact h r hr

/-- Nothing happens to the group when one leaves that is not in it, unless nobody is. -/
theorem leave_absent {s : ServerState} (hmember : s.hasMember gid me = false)
    (hlast : s.leavesLast gid me = false) :
    (leave gid me s.g_groups).find? gid = s.g_groups.find? gid := by
  unfold ServerState.hasMember at hmember
  unfold ServerState.leavesLast at hlast
  unfold leave
  cases hfind : s.g_groups.find? gid with
  | none => exact hfind
  | some grp =>
    rw [hfind, Option.any_some] at hmember hlast
    have habsent : grp.members.erase me = grp.members :=
      UMap.erase_of_absent (by simpa [UMap.count] using hmember)
    dsimp only
    rw [if_neg (by simp [hlast]), UMap.find?_set, if_pos rfl, habsent]

/-- Leaving is not refused, but there is nothing to take away. -/
theorem leave_group_outsider (fd : Int) (htx : w.db.tx = none) (hout : NoPart pg w gid me)
    (hspares : sparesGroup pg env w me gid (.leave_group gid) = true) :
    Ensures env w (leave_group pg fd me gid) fun _ w' => LeftAlone gid w w' := by
  have hlast : w.mem.leavesLast gid me = false := by simpa [sparesGroup] using hspares
  refine Ensures.bind (R := fun _ w₁ => LeftAlone gid w w₁ ∧ w₁.db = w.db)
    (Ensures.locked (ensures_read (ensures_modify (ensures_read (ensures_pure ?_)))))
    fun r w₁ h₁ => ?_
  · refine ⟨⟨⟨leave_absent hout.memory hlast, rfl, rfl⟩, groupSilent_of_frame fun x hx => ?_⟩, rfl⟩
    simp only [List.mem_cons, List.not_mem_nil, or_false] at hx
    rcases hx with rfl | rfl <;> rfl
  obtain ⟨hsame, hdb⟩ := h₁
  have hreply : ∀ (w₂ : World) (persisted : Bool) (text : Bytes), Ensures env w₂ (andNext (
      if !persisted then reply fd .ERROR (str "Leave failed (db)") (u32 me)
      else reply fd .SUCCESS text (u32 me)) : Prog leave_writes Outcome)
      fun _ w' => LeftAlone gid w₂ w' := by
    intro w₂ persisted text
    suffices hbody : Ensures env w₂ _ fun (_ : Unit) w' => LeftAlone gid w₂ w' from
      hbody.bind fun _ w' h => ensures_pure h
    exact ensures_ite (fun _ => answer_leftAlone (by decide)) fun _ => answer_leftAlone (by decide)
  refine ensures_ite (fun hpg => ?_) fun _ => (hreply w₁ true _).mono fun _ w' h => hsame.trans h
  -- with a database the row is to be deleted, and there is none
  have hrows : w.db.tables.isMember gid me = false :=
    hout.rows ((Bool.and_eq_true _ _ ▸ hpg).2)
  have hremove : Ensures env w₁ (remove_group_member gid me) _ :=
    logged_ensures me 0 (by rw [hdb, htx]) fun h => absurd h (by simp [delete_group_member])
  refine ((hremove.and (ensures_frame _)).lift _).bind fun persisted w₂ h₂ => ?_
  obtain ⟨⟨-, hdeleted⟩, hframe⟩ := h₂
  have htables : w₂.db.tables = w₁.db.tables := by
    rcases hdeleted with ⟨-, -, h⟩ | ⟨-, h, -⟩
    · rw [h, delete_absent (by rw [hdb]; exact hrows)]
      exact Table.put_get .group_members w₁.db.tables
    · exact h
  have hsame₂ : LeftAlone gid w₁ w₂ :=
    leftAlone_of_same (hframe (.var .g_groups) (by simp)) htables fun x hx => hframe x (by
      simp only [List.mem_cons, List.not_mem_nil, or_false] at hx
      rcases hx with rfl | rfl <;> simp)
  exact (hreply w₂ persisted _).mono fun _ w' h => hsame.trans (hsame₂.trans h)

/-! ## `LOGIN` and `CREATE_GROUP` -/

theorem notify_friends_quiet (uid : Int) (online : Bool) :
    (notify_friends_status_change uid online).Always (Op.quiet gid) fun _ => True := by
  simp only [notify_friends_status_change]
  refine Always.seq (by simp [Op.quiet]) fun friends => (always_forM ..).mpr ⟨fun fid _ => ?_, trivial⟩
  refine Always.seq (by simp [find_fd, Op.quiet]) fun fd => ?_
  cases online <;> simp [Op.quiet, isForGroup]

/-- What a login hands over for the group is what was waiting. -/
theorem login_deliver_quiet (fd : Int) (username : Bytes) {l : Login}
    (hqueue : ∀ m ∈ l.offlineMessages, isForGroup gid m.type m.payload = false) :
    (login_deliver pg fd username l).Always (Op.quiet gid) fun _ => True := by
  refine Always.seq (by simp [Op.quiet, isForGroup]) fun _ => ?_
  refine Always.seq (notify_friends_quiet l.uid true) fun _ => ?_
  refine Always.seq (by simp [send_pending_request, Op.quiet, isForGroup]) fun _ => ?_
  refine Always.seq ((always_when ..).mpr ⟨fun _ => ?_, trivial⟩) fun _ => ?_
  · simp [get_pending_group_invites, send_pending_invite, Op.quiet, isForGroup]
  · refine (always_forM ..).mpr ⟨fun m hm => ?_, trivial⟩
    simp [Op.quiet, hqueue m hm]

theorem login_silent (fd : Int) (payload : Bytes)
    (hspares : sparesGroup pg env w me gid (.login payload) = true) :
    Ensures env w (login pg fd payload) fun _ w' => GroupSilent gid w w' := by
  have hsession : Ensures env w (login_session pg fd payload) fun r w₁ => GroupSilent gid w w₁ ∧
      ∀ l, r = some l → ∀ m ∈ l.offlineMessages, isForGroup gid m.type m.payload = false := by
    refine Ensures.locked (ensures_read (ensures_ite (fun _ => ?_) fun hgranted => ?_))
    · have hanswer : Ensures env w (reply fd .ERROR (str "Invalid credentials") 0 :
          Prog login_writes Unit) fun _ w₁ => LeftAlone gid w w₁ := answer_leftAlone (by decide)
      exact hanswer.bind fun _ w' h => ensures_pure ⟨h.silent, fun l hl => absurd hl (by simp)⟩
    -- what waits for the user that logs in is not for this group
    · obtain ⟨u, hu, hpassword⟩ := Option.map_eq_some_iff.mp (not_not.mp hgranted)
      have hempty : w.mem.queuedFor gid u.id = [] := by
        have huser : loginUser w payload = some u := by
          rw [loginUser, hu]
          simp [hpassword]
        simpa [sparesGroup, huser] using hspares
      rw [hu]
      refine ensures_set_user (ensures_modify (ensures_part fun _ w₁ h₁ => ?_))
      refine ensures_part fun pendingRequests w₂ h₂ => ?_
      have hqueue : w₂.mem.g_offline_messages = w.mem.g_offline_messages :=
        Eq.trans (h₂ (.var .g_offline_messages) (by simp)) (h₁ (.var .g_offline_messages) (by simp))
      have hout : w₂.out = w.out := Eq.trans (h₂ .out (by simp)) (h₁ .out (by simp))
      refine ensures_read (ensures_modify (ensures_pure ⟨⟨⟨[], ?_, ?_⟩, fun uid => ?_⟩, ?_⟩))
      · rw [List.append_nil]
        exact hout
      · exact fun f hf => absurd hf List.not_mem_nil
      · -- the queue of the user that logs in is taken
        show ((w₂.mem.g_offline_messages.erase u.id).get uid).filter _ = _ ∨ _
        by_cases huid : uid = u.id
        · right
          show ((w₂.mem.g_offline_messages.erase u.id).get uid).filter _ = []
          rw [UMap.get_erase, if_pos huid]
          rfl
        · left
          rw [UMap.get_erase, if_neg huid, hqueue]
          rfl
      · intro l hl m hm
        rw [← Option.some.inj hl, Option.map_some, Option.getD_some, hqueue] at hm
        have hfilter : (w.mem.g_offline_messages.get u.id).filter
            (fun m => isForGroup gid m.type m.payload) = [] := hempty
        rw [List.filter_eq_nil_iff] at hfilter
        simpa using hfilter m hm
  refine (hsession.lift _).bind fun r w₁ h₁ => ?_
  cases r with
  | none => exact ensures_pure h₁.1
  | some l =>
    have hdeliver : Ensures env w₁ (login_deliver pg fd (field payload "username") l)
        fun _ w' => GroupSilent gid w₁ w' :=
      (login_deliver_quiet fd _ (h₁.2 l rfl)).silent env w₁
    exact (hdeliver.lift _).bind fun _ w' h => ensures_pure (h₁.1.trans h)

/-- Once a new group has its id, only messages for that group are sent. -/
theorem announce_group_leftAlone (fd : Int) (name : Bytes) (ids : List Int) {g : Int}
    (hg : g ≠ gid) :
    Ensures env w (announce_group pg fd me name ids g) fun _ w' => LeftAlone gid w w' := by
  have hquiet : (announce_group pg fd me name ids g).Always (Op.quiet gid) fun _ => True := by
    refine (always_ite ..).mpr ⟨fun _ => by simp [Op.quiet, isForGroup], fun _ => ?_⟩
    refine Always.seq ?_ fun _ => Always.seq (by simp [Op.quiet, isForGroup]) fun _ => ?_
    · exact (always_lift ..).mpr (quiet_of_footprint _ (by simp) (by simp))
    · exact Always.seq (announce_quiet pg _ hg) fun _ => trivial
  have hspares : (announce_group pg fd me name ids g).Always (Op.spares gid) fun _ => True := by
    refine (always_ite ..).mpr ⟨fun _ => by simp [Op.spares], fun _ => ?_⟩
    refine Always.seq ?_ fun _ => Always.seq (by simp [Op.spares]) fun _ => ?_
    · refine (always_lift ..).mpr (Always.locked ?_ trivial trivial)
      exact Always.seq (by simp [Op.spares]) fun members =>
        (always_modify ..).mpr ⟨spares_set hg _, trivial⟩
    · exact Always.seq (announce_spares pg _ hg) fun _ => trivial
  exact ⟨hspares.untouched env w, hquiet.silent env w⟩

/-- The rows of other groups are as they were. -/
theorem withGroup_untouched {d : Tables} {name : Bytes} {creator_id : Int}
    (hg : d.groups.next ≠ gid) :
    (d.withGroup name creator_id).group_members.filter (·.group_id = gid)
        = d.group_members.filter (·.group_id = gid) ∧
      (d.withGroup name creator_id).groups.rows.filter (·.id = gid)
        = d.groups.rows.filter (·.id = gid) := by
  constructor
  · exact spares_insert hg creator_id (d.withGroupRow name creator_id)
  · show (d.groups.rows ++ [_]).filter _ = _
    rw [List.filter_append, List.filter_singleton, decide_eq_false hg]
    exact List.append_nil _

theorem create_group_db_leftAlone (name : Bytes) (ids : List Int) (htx : w.db.tx = none)
    (hnew : w.db.tables.groups.next ≠ gid ∨ createFails env w.db.tables w.ticks me = true) :
    Ensures env w (create_group_db me name ids) fun r w' =>
      (∀ g, r = some g → g ≠ gid) ∧ LeftAlone gid w w' := by
  have hcreate : Ensures env w (PostgresPersistence.create_group name me) fun r w₁ =>
      (∀ g, r = some g → g ≠ gid) ∧ LeftAlone gid w w₁ := by
    refine ((create_group_results name me htx).and (ensures_frame _)).mono fun r w₁ h₁ => ?_
    obtain ⟨⟨-, hfails, hdb⟩, hframe⟩ := h₁
    have hgroups : w₁.mem.g_groups = w.mem.g_groups :=
      hframe (.var .g_groups) (by simp [all_tables])
    have hsilent : GroupSilent gid w w₁ := groupSilent_of_frame fun x hx => hframe x (by
      simp only [List.mem_cons, List.not_mem_nil, or_false] at hx
      rcases hx with rfl | rfl <;> simp [all_tables])
    -- an id is only returned where nothing fails, and then it is a new one
    have hother : r.isSome = true → w.db.tables.groups.next ≠ gid := by
      intro hsome
      refine hnew.resolve_right ?_
      rw [← hfails, Option.isNone_iff_eq_none]
      rintro rfl
      cases hsome
    have hkept : w.db.tables.groupsNext w₁.db.tables → LeftAlone gid w w₁ := by
      rintro ⟨n, -, htables⟩
      exact ⟨⟨by rw [hgroups], by rw [htables], by rw [htables]⟩, hsilent⟩
    rcases hdb with ⟨-, rfl, htables, -⟩ | ⟨-, rfl, hnext⟩ | ⟨-, rfl, hnext⟩
    · obtain ⟨hmembers, hrows⟩ := @withGroup_untouched gid w.db.tables name me (hother rfl)
      refine ⟨fun g h => Option.some.inj h ▸ hother rfl, ⟨by rw [hgroups], ?_, ?_⟩, hsilent⟩
      · rw [htables]
        exact hmembers
      · rw [htables]
        exact hrows
    · exact ⟨fun g h => absurd h (by simp), hkept hnext⟩
    · exact ⟨fun g h => Option.some.inj h ▸ hother rfl, hkept hnext⟩
  refine hcreate.bind fun r w₁ h₁ => ?_
  obtain ⟨hid, hsame⟩ := h₁
  refine Ensures.bind (R := fun _ w₂ => LeftAlone gid w₁ w₂) (ensures_when (fun hr => ?_) fun _ =>
    LeftAlone.refl gid w₁) fun _ w₂ h₂ => ensures_pure ⟨hid, hsame.trans h₂⟩
  obtain ⟨g, rfl⟩ := Option.isSome_iff_exists.mp hr
  -- the rows of the members, all of them of the new group
  have hspares : (add_members me g ids).Always (Op.spares gid) fun _ => True := by
    refine Always.seq ((always_lift ..).mpr (set_group_admin_spares (hid g rfl) me true)) fun _ => ?_
    refine (always_forM ..).mpr ⟨fun uid _ => ?_, trivial⟩
    exact Always.seq (add_group_member_spares (hid g rfl) uid) fun _ => trivial
  have hquiet : (add_members me g ids).Always (Op.quiet gid) fun _ => True :=
    quiet_of_footprint _ (by simp) (by simp)
  have hrun : Ensures env w₁ (add_members me g ids) fun _ w₂ => LeftAlone gid w₁ w₂ :=
    ⟨hspares.untouched env w₁, hquiet.silent env w₁⟩
  exact hrun.lift _

theorem create_group_leftAlone (fd : Int) (name : Option Bytes) (ids : List Int)
    (htx : w.db.tx = none)
    (hspares : sparesGroup pg env w me gid (.create_group name ids) = true) :
    Ensures env w (handle_client.create_group pg fd me name ids) fun _ w' => LeftAlone gid w w' := by
  have hnew : w.newGroupId pg ≠ gid ∨ pg = true ∧
      createFails env w.db.tables (w.ticks + if name.isNone then 1 else 0) me = true := by
    simpa [sparesGroup] using hspares
  have hname : Ensures env w (group_name name) fun _ w₁ => w₁.mem = w.mem ∧ w₁.db = w.db ∧
      w₁.out = w.out ∧ w₁.ticks = w.ticks + if name.isNone then 1 else 0 := by
    cases name <;> exact ⟨rfl, rfl, rfl, rfl⟩
  have hrest : ∀ (w₁ : World) (name : Bytes) (g : Int), g ≠ gid ∨ g = -1 →
      Ensures env w₁ (announce_group pg fd me name ids g) fun _ w' => LeftAlone gid w₁ w' := by
    intro w₁ name g hg
    by_cases hneg : g = -1
    · refine ensures_ite (fun _ => answer_leftAlone (by decide)) fun h => absurd hneg h
    · exact announce_group_leftAlone fd name ids (hg.resolve_right hneg)
  refine (hname.lift _).bind fun given w₁ h₁ => ?_
  obtain ⟨hmem, hdb, hsent, hticks⟩ := h₁
  have hfirst : LeftAlone gid w w₁ := leftAlone_of_same (by rw [hmem]) (by rw [hdb]) fun x hx => by
    simp only [List.mem_cons, List.not_mem_nil, or_false] at hx
    rcases hx with rfl | rfl
    · exact congrArg ServerState.g_offline_messages hmem
    · exact hsent
  cases pg with
  | true =>
    have hdatabase : Ensures env w₁ (create_group_db me given ids) fun r w₂ =>
        (∀ g, r = some g → g ≠ gid) ∧ LeftAlone gid w₁ w₂ := by
      apply create_group_db_leftAlone given ids (by rw [hdb, htx])
      rw [hdb, hticks]
      exact hnew.imp_right And.right
    refine (hdatabase.lift _).bind fun r w₂ h₂ => ?_
    -- without an id the answer is an error
    have hid : r.getD (-1) ≠ gid ∨ r.getD (-1) = -1 := by
      cases r with
      | none => exact .inr rfl
      | some g => exact .inl (h₂.1 g rfl)
    exact ((hrest w₂ given _ hid).lift _).bind fun _ w' h =>
      ensures_pure (hfirst.trans (h₂.2.trans h))
  | false =>
    have hnew : w.newGroupId false ≠ gid := hnew.resolve_right (by simp)
    have hmemory : Ensures env w₁ (create_group_mem me given ids) fun r w₂ =>
        r = some (w.newGroupId false) ∧ LeftAlone gid w₁ w₂ := by
      refine Ensures.locked ⟨?_, ⟨?_, rfl, rfl⟩, groupSilent_of_frame fun x hx => ?_⟩
      · show some w₁.mem.g_next_group_id = _
        rw [hmem]
        rfl
      · show (w₁.mem.g_groups.set w₁.mem.g_next_group_id _).find? gid = _
        rw [UMap.find?_set, if_neg]
        rw [hmem]
        exact hnew.symm
      · simp only [List.mem_cons, List.not_mem_nil, or_false] at hx
        rcases hx with rfl | rfl <;> rfl
    refine (hmemory.lift _).bind fun r w₂ h₂ => ?_
    obtain ⟨rfl, hsame⟩ := h₂
    exact ((hrest w₂ given _ (.inl hnew)).lift _).bind fun _ w' h =>
      ensures_pure (hfirst.trans (hsame.trans h))

/-! ## Every request -/

/-- A command of an outsider leaves the group alone. -/
theorem perform_leftAlone (fd rid : Int) (c : Command) (htx : w.db.tx = none)
    (hout : NoPart pg w gid me) (hspares : sparesGroup pg env w me gid c = true) :
    Ensures env w (perform pg fd me rid c) fun _ w' => LeftAlone gid w w' := by
  by_cases hgroup : c.group = some gid
  · -- a request about the group itself
    cases c with
    | invite_to_group g uid =>
      obtain rfl : g = gid := Option.some.inj hgroup
      exact (invite_to_group_refused fd uid hout).lift (by decide)
    | accept_group_invite g =>
      obtain rfl : g = gid := Option.some.inj hgroup
      exact (accept_group_invite_refused fd htx hout hspares).lift (by decide)
    | rename_group g newName =>
      obtain rfl : g = gid := Option.some.inj hgroup
      exact (rename_group_refused fd newName hout).lift (by decide)
    | set_group_nickname g uid nick =>
      obtain rfl : g = gid := Option.some.inj hgroup
      exact (set_group_nickname_refused fd uid nick (by simpa [sparesGroup] using hspares)).lift (by decide)
    | remove_from_group g uid =>
      obtain rfl : g = gid := Option.some.inj hgroup
      exact (remove_from_group_refused fd uid htx hout hspares).lift (by decide)
    | make_admin g uid =>
      obtain rfl : g = gid := Option.some.inj hgroup
      exact (make_admin_refused fd uid htx hout hspares).lift (by decide)
    | leave_group g =>
      obtain rfl : g = gid := Option.some.inj hgroup
      exact (leave_group_outsider fd htx hout hspares).lift (by decide)
    | group_message g message =>
      obtain rfl : g = gid := Option.some.inj hgroup
      exact (group_message_refused fd message htx hout).lift (by decide)
    | _ => cases hgroup
  cases hc : c.group with
  | some g =>
    -- about another group
    have hg : g ≠ gid := fun h => hgroup (by rw [hc, h])
    have hplain : c.plain = true := by
      cases c with
      | login | create_group => cases hc
      | _ => rfl
    exact ⟨(perform_spares pg fd me rid hc hg).untouched env w,
      (perform_quiet pg fd me rid gid hplain hgroup).silent env w⟩
  | none =>
    -- about no group: nothing of one is written
    have hframe : (∀ x ∈ role_fields, x ∉ c.effect) →
        GroupUntouched gid w ((perform pg fd me rid c).run env w).2 := fun h =>
      groupUntouched_of_frame fun x hx => perform_effect pg fd me rid c htx (h x hx)
    cases c with
    | create_group name ids => exact (create_group_leftAlone fd name ids htx hspares).lift (by decide)
    | login payload =>
      refine ⟨hframe (by simp [Command.effect, Command.writes]), ?_⟩
      have hsilent : Ensures env w (login pg fd payload) fun _ w' => GroupSilent gid w w' :=
        login_silent fd payload hspares
      exact hsilent.lift (by decide)
    | invite_to_group | accept_group_invite | rename_group | set_group_nickname | remove_from_group
    | make_admin | leave_group | group_message => cases hc
    | _ =>
      refine ⟨hframe (by simp [Command.effect, Command.writes]), ?_⟩
      exact (perform_quiet pg fd me rid gid rfl hgroup).silent env w

/-- The end of a connection concerns no group. -/
theorem end_connection_leftAlone (fd : Int) (w : World) :
    LeftAlone gid w (end_connection env fd w) := by
  refine ⟨groupUntouched_of_frame fun x hx => end_connection_frame fd w ?_, ?_⟩
  · simp only [List.mem_cons, List.not_mem_nil, or_false] at hx
    rcases hx with rfl | rfl | rfl <;> simp
  · have hquiet : (cleanup fd (w.session fd)).Always (Op.quiet gid) fun _ => True := by
      refine Always.seq ((always_lift ..).mpr ?_) fun _ => by simp [Op.quiet]
      refine Always.seq (by simp [Op.quiet]) fun _ => ?_
      exact (always_when ..).mpr ⟨fun _ => (always_lift ..).mpr (notify_friends_quiet _ false), trivial⟩
    exact hquiet.silent env w

/-- **A request of an outsider leaves the group alone.** -/
theorem request_leftAlone {w' : World} {e : Event} {fd rid : Int} {c : Command}
    (htx : w.db.tx = none) (hs : Server.step pg env w e = some w')
    (opened : w.conns.find? fd = some me) (command : e.command pg w = some (fd, rid, c))
    (hout : NoPart pg w gid me) (hspares : sparesGroup pg env w me gid c = true) :
    LeftAlone gid w w' := by
  cases Server.move_of_step pg env hs with
  | accepted fd' valid unused => cases command
  | hungup fd' me' opened' => cases command
  -- a frame with a bad header asks for nothing
  | refused fd' me' r opened' invalid =>
    rw [Event.command, if_neg (by simp [invalid])] at command
    cases command
  | performed fd' me' rid' r c' opened' command' =>
    obtain ⟨rfl, rfl, rfl⟩ : fd' = fd ∧ rid' = rid ∧ c' = c := by
      rw [command'] at command
      simpa using command
    obtain rfl : me' = me := Option.some.inj (opened'.symm.trans opened)
    have hperform : Ensures env w (perform pg fd' me' rid' c') fun _ w' => LeftAlone gid w w' :=
      perform_leftAlone fd' rid' c' htx hout hspares
    unfold finish
    split
    · exact LeftAlone.trans hperform (end_connection_leftAlone fd' _)
    · exact hperform

end Requests

/-! ## Runs -/

/-- The step invites the user to the group. -/
def invites (pg : Bool) (gid uid : Int) (w : World) (e : Event) : Bool :=
  match e.command pg w with
  | some (_, _, .invite_to_group g u) => g = gid && u = uid
  | _ => false

/-- **A user cannot touch a group it has no part in**: whatever happened before, with a database or
without, a request of that user that meets the condition leaves the group alone. -/
theorem outsider_leaves_alone {pg : Bool} {env : Env} {w₀ w w' : World} {tr : List (Taken World Event)}
    {e : Event} {fd me rid gid : Int} {c : Command} (booted : Booted pg env w₀)
    (run : Server.Run pg env (fun _ _ => True) w₀ tr w) (hs : Server.step pg env w e = some w')
    (opened : w.conns.find? fd = some me) (command : e.command pg w = some (fd, rid, c))
    (hout : Outsider pg w gid me) (hspares : sparesGroup pg env w me gid c = true) :
    LeftAlone gid w w' := by
  have htx : w.db.tx = none := Reachable.tx_none ⟨w₀, tr, booted, run⟩
  exact request_leftAlone htx hs opened command hout.noPart hspares

/-- The events of the two examples: user 1 creates a group of its own. -/
def lone_group : List Event := two_users ++ [.send 5 .CREATE_GROUP "name=g"]

/-- User 2, on connection 6, has no part in the group of user 1. -/
theorem lone_group_outsider {w : World} (houtside : w.mem.hasMember 1 2 = false)
    (hinvites : w.db.tables.group_invites = []) : Outsider false w 1 2 := by
  refine ⟨by decide, houtside, fun h => absurd h Bool.false_ne_true, ?_⟩
  rw [hinvites]
  exact fun r hr => absurd hr List.not_mem_nil

/-- User 2 asks for a new name for the group of user 1. -/
theorem outsider_leaves_alone_renaming : ∃ w w', Reachable false Env.calm w ∧
    Server.step false Env.calm w (.send 6 .RENAME_GROUP "groupId=1&name=h") = some w' ∧
      w.mem.hasMember 1 1 = true ∧ LeftAlone 1 w w' := by
  have hrun : (Run.exec (Run.guard (Server.step false Env.calm) fun _ _ => true)
      (World.new Tables.empty) lone_group).map (fun w => decide (
        (Event.send 6 .RENAME_GROUP "groupId=1&name=h").command false w
          = some (6, 2, .rename_group 1 (str "h")) ∧ w.conns.find? 6 = some 2 ∧
        w.mem.hasMember 1 1 = true ∧ w.mem.hasMember 1 2 = false ∧ w.db.tables.group_invites = [] ∧
        (Server.step false Env.calm w (.send 6 .RENAME_GROUP "groupId=1&name=h")).isSome = true))
      = some true := by decide
  obtain ⟨tr, w, run, hw⟩ := run_of_exec hrun
  obtain ⟨command, opened, hmember, houtside, hinvites, hsome⟩ := of_decide_eq_true hw
  obtain ⟨w', hs⟩ := Option.isSome_iff_exists.mp hsome
  have hrun : Server.Run false Env.calm (fun _ _ => True) (World.new Tables.empty) tr w :=
    run.mono fun _ _ _ => trivial
  exact ⟨w, w', ⟨_, tr, booted_new Tables.empty_valid, hrun⟩, hs, hmember,
    outsider_leaves_alone (booted_new Tables.empty_valid) hrun hs opened command
      (lone_group_outsider houtside hinvites) rfl⟩

/-- **A user can touch a group it has no part in**: user 2, who was never invited, sets the nickname
of user 1 in the group of user 1. -/
theorem outsider_not_alone : ¬∀ pg env w₀ w w' tr e fd me rid gid c, Booted pg env w₀ →
    Server.Run pg env (fun w e => invites pg gid me w e = false) w₀ tr w →
    Server.step pg env w e = some w' → w.conns.find? fd = some me →
    e.command pg w = some (fd, rid, c) → Outsider pg w gid me → LeftAlone gid w w' := by
  intro claim
  have hrun : (Run.exec (Run.guard (Server.step false Env.calm) fun w e => !invites false 1 2 w e)
      (World.new Tables.empty) lone_group).map (fun w => decide (
        (Event.send 6 .SET_GROUP_NICKNAME "groupId=1&userId=1&nick=z").command false w
          = some (6, 2, .set_group_nickname 1 1 (str "z")) ∧ w.conns.find? 6 = some 2 ∧
        w.mem.hasMember 1 2 = false ∧ w.db.tables.group_invites = [] ∧
        (w.mem.g_groups.find? 1).map (fun grp => grp.member_nicknames.get 1) = some [] ∧
        (Server.step false Env.calm w
          (.send 6 .SET_GROUP_NICKNAME "groupId=1&userId=1&nick=z")).map (fun w' =>
            (w'.mem.g_groups.find? 1).map fun grp => grp.member_nicknames.get 1)
          = some (some (str "z")))) = some true := by decide
  obtain ⟨tr, w, run, hw⟩ := run_of_exec hrun
  obtain ⟨command, opened, houtside, hinvites, hbefore, hafter⟩ := of_decide_eq_true hw
  obtain ⟨w', hs, hw'⟩ := Option.map_eq_some_iff.mp hafter
  have halone := claim false Env.calm _ w w' tr _ 6 2 2 1 _ (booted_new Tables.empty_valid)
    (run.mono fun w e h => by simpa using h) hs opened command
    (lone_group_outsider houtside hinvites)
  rw [halone.untouched.memory, hbefore] at hw'
  cases hw'

end ChatApp
