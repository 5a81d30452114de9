/-
`Requester.lean` -- what the identity in a packet header decides.

The header names a user, a time and a checksum. The source drops the last two and takes the
first, when it is not 0, as the authoritative requester id. Three cases use that
id, and all three only read: they answer for whichever user the header names.
-/
import ChatApp.Transactions

set_option autoImplicit false

namespace ChatApp

open Prog PostgresPersistence handle_client

/-! ## Two frames that differ in the header only -/

/-- The frame with other values in the three header fields that say nothing about the
request itself. -/
def Request.readdress (r : Request) (userId : UInt32) (timestamp : UInt64) (checksum : UInt32) :
    Request :=
  { r with
    header := { r.header with userId := userId, timestamp := timestamp, checksum := checksum } }

/-- The command answers for the requester that the header names. -/
def Command.forRequester : Command → Bool
  | .search_user _ | .get_all_users | .get_user_groups => true
  | _ => false

/-- The groups of a user, as `GET_USER_GROUPS` finds them: those with a member row of it, if the query is
answered, or those of `g_groups` that list it. -/
def groups_of (pg : Bool) (env : Env) (w : World) (rid : Int) : List (Int × Bytes) :=
  if pg then (((Database.select (fun d => d.groupsOf rid) (env.sql_fails w.ticks) w.db).1.getD []).map
    fun g => (g.id, g.name))
  else ((w.mem.g_groups.toList.map Prod.snd).filter fun g => g.members.count rid).map fun g => (g.id, g.name)

/-- The text is the answer to the command for the requester `rid`: the other users, each with the flag of its
friendship with `rid`, or the groups of `rid`, each with lists of its members. -/
def Command.Answer (pg : Bool) (env : Env) (w : World) (rid : Int) : Command → Bytes → Prop
  | .search_user payload, text =>
    let hits := ((w.mem.g_users_by_name.toList.map Prod.snd).filter fun u =>
      u.id ≠ rid && contains (tolower u.username) (tolower (field payload "query"))).take 20
    text = serialize_kv ((str "count", to_string hits.length) ::
      (hits.zipIdx.map fun h => search_item w.mem rid h.1 h.2).flatten)
  | .get_all_users, text =>
    let others := w.mem.g_users_by_id.toList.filter fun e => e.1 ≠ rid
    text = serialize_kv ((str "count", to_string others.length) ::
      (others.zipIdx.map fun o => user_item w.mem rid o.1.1 o.1.2.username o.2).flatten)
  | .get_user_groups, text => ∃ items, List.Forall₂ (fun (g : (Int × Bytes) × Nat) item =>
      ∃ members nicks names admins, item = group_item g.2 g.1.1 g.1.2 members nicks names admins)
        (groups_of pg env w rid).zipIdx items ∧
      text = serialize_kv ((str "count", to_string items.length) :: items.flatten)
  | _, _ => False

/-- The command is answered for the requester `rid` and only reads: it changes no value of the state -- a missing
entry of `g_friends` may become an empty one -- and writes one frame, on its own connection. -/
structure AnsweredFor (pg : Bool) (env : Env) (fd rid : Int) (c : Command) (w w' : World) : Prop where
  same : ∀ x, x ∉ [Field.var .g_friends, .out] → x.Same w w'
  friends : ∀ a, w'.mem.g_friends.get a = w.mem.g_friends.get a
  replied : ∃ f, w'.out = w.out ++ [f] ∧ f.fd = fd ∧ f.type = .SUCCESS ∧ c.Answer pg env w rid f.payload

section Requester

variable (pg : Bool) (env : Env) (w : World) (fd me rid : Int)

/-- Every other command ignores the requester. -/
theorem perform_requester (rid' : Int) {c : Command} (hc : c.forRequester = false) :
    perform pg fd me rid' c = perform pg fd me rid c := by
  cases c with
  | search_user | get_all_users | get_user_groups => cases hc
  | _ => rfl

variable {env w}

/-- A lookup of the requester's entry changes no friendship. -/
theorem isFriend_of_get {s s' : ServerState} (h : ∀ a, s'.g_friends.get a = s.g_friends.get a) (a b : Int) :
    s'.isFriend a b = s.isFriend a b := by
  rw [ServerState.isFriend, ServerState.isFriend, h]

theorem search_user_answered (payload : Bytes) :
    Ensures env w (search_user fd payload rid) fun _ w' =>
      (∀ a, w'.mem.g_friends.get a = w.mem.g_friends.get a) ∧
        ∃ f, w'.out = w.out ++ [f] ∧ f.fd = fd ∧ f.type = .SUCCESS ∧
          (Command.search_user payload).Answer pg env w rid f.payload := by
  refine Ensures.bind (R := fun _ w' => (∀ a, w'.mem.g_friends.get a = w.mem.g_friends.get a) ∧
    ∃ f, w'.out = w.out ++ [f] ∧ f.fd = fd ∧ f.type = .SUCCESS ∧
      (Command.search_user payload).Answer pg env w rid f.payload) (Ensures.locked (ensures_read ?_))
    fun _ w' h => ensures_pure h
  refine Ensures.bind (R := fun _ w₁ => (∀ a, w₁.mem.g_friends.get a = w.mem.g_friends.get a) ∧
    w₁.out = w.out) ?_ fun _ w₁ h₁ => ensures_read ⟨h₁.1, _, by rw [← h₁.2]; rfl, rfl, rfl, ?_⟩
  · exact ensures_when (fun _ => ⟨fun a => UMap.get_touch .., rfl⟩) fun _ => ⟨fun a => rfl, rfl⟩
  · have hitem : search_item w₁.mem rid = search_item w.mem rid := by
      funext u i
      rw [search_item, isFriend_of_get h₁.1, search_item]
    rw [Command.Answer, hitem]

theorem get_all_users_answered :
    Ensures env w (get_all_users fd rid) fun _ w' =>
      (∀ a, w'.mem.g_friends.get a = w.mem.g_friends.get a) ∧
        ∃ f, w'.out = w.out ++ [f] ∧ f.fd = fd ∧ f.type = .SUCCESS ∧
          Command.get_all_users.Answer pg env w rid f.payload := by
  refine Ensures.bind (R := fun _ w' => (∀ a, w'.mem.g_friends.get a = w.mem.g_friends.get a) ∧
    ∃ f, w'.out = w.out ++ [f] ∧ f.fd = fd ∧ f.type = .SUCCESS ∧
      Command.get_all_users.Answer pg env w rid f.payload) (Ensures.locked (ensures_read ?_))
    fun _ w' h => ensures_pure h
  refine Ensures.bind (R := fun _ w₁ => (∀ a, w₁.mem.g_friends.get a = w.mem.g_friends.get a) ∧
    w₁.out = w.out) ?_ fun _ w₁ h₁ => ensures_read ⟨h₁.1, _, by rw [← h₁.2]; rfl, rfl, rfl, ?_⟩
  · exact ensures_when (fun _ => ⟨fun a => UMap.get_touch .., rfl⟩) fun _ => ⟨fun a => rfl, rfl⟩
  · have hitem : user_item w₁.mem rid = user_item w.mem rid := by
      funext uid uname i
      rw [user_item, isFriend_of_get h₁.1, user_item]
    rw [Command.Answer, hitem]

/-- A loop that collects answers: each stands in a relation to what it was asked of. -/
theorem ensures_mapM {S : List Field} {ι β : Type} {f : ι → Prog S β} {R : ι → β → Prop}
    (body : ∀ x w, Ensures env w (f x) fun b _ => R x b) (xs : List ι) :
    ∀ w, Ensures env w (xs.mapM f) fun bs _ => List.Forall₂ R xs bs := by
  induction xs with
  | nil =>
    intro w
    rw [List.mapM_nil]
    exact ensures_pure .nil
  | cons x xs ih =>
    intro w
    rw [List.mapM_cons]
    refine (body x w).bind fun b w₁ hb => ?_
    exact (ih w₁).bind fun bs w₂ hbs => ensures_pure (.cons hb hbs)

/-- The item of a group has its id and its name. -/
theorem group_item_db_of (g : GroupRow) (i : Nat) :
    Ensures env w (group_item_db g i) fun item _ =>
      ∃ members nicks names admins, item = group_item i g.id g.name members nicks names admins := by
  refine Ensures.bind (R := fun _ _ => True) trivial fun members w₁ _ => ?_
  refine Ensures.bind (R := fun _ _ => True) trivial fun nicknameMap w₂ _ => ?_
  exact Ensures.bind (R := fun _ _ => True) trivial fun admins w₃ _ => ensures_pure ⟨_, _, _, _, rfl⟩

theorem group_item_mem_of (g : Group) (i : Nat) :
    Ensures env w (group_item_mem g i) fun item _ =>
      ∃ members nicks names admins, item = group_item i g.id g.name members nicks names admins :=
  Ensures.bind (R := fun _ _ => True) trivial fun _ _ _ => ensures_pure ⟨_, _, _, _, rfl⟩

/-- The reply with what a part has collected. -/
theorem groups_answered {p : Prog [] (List (List (Bytes × Bytes)))}
    (hp : Ensures env w p fun items _ => List.Forall₂ (fun (g : (Int × Bytes) × Nat) item =>
      ∃ members nicks names admins, item = group_item g.2 g.1.1 g.1.2 members nicks names admins)
        (groups_of pg env w rid).zipIdx items) :
    Ensures env w ((p.lift (by decide) : Prog [.out] _) >>= fun items => andNext (reply fd .SUCCESS
        (serialize_kv ((str "count", to_string items.length) :: items.flatten)) (u32 me)))
      fun _ w' => (∀ a, w'.mem.g_friends.get a = w.mem.g_friends.get a) ∧
        ∃ f, w'.out = w.out ++ [f] ∧ f.fd = fd ∧ f.type = .SUCCESS ∧
          Command.get_user_groups.Answer pg env w rid f.payload := by
  refine ((hp.and (ensures_frame p)).lift _).bind fun items w₁ h₁ => ?_
  have hfriends : w₁.mem.g_friends = w.mem.g_friends := h₁.2 (.var .g_friends) (by simp)
  have hout : w₁.out = w.out := h₁.2 .out (by simp)
  exact ⟨fun a => congrArg (UMap.get · a) hfriends, _, by rw [← hout]; rfl, rfl, rfl, items, h₁.1, rfl⟩

theorem get_user_groups_answered :
    Ensures env w (handle_client.get_user_groups pg fd me rid) fun _ w' =>
      (∀ a, w'.mem.g_friends.get a = w.mem.g_friends.get a) ∧
        ∃ f, w'.out = w.out ++ [f] ∧ f.fd = fd ∧ f.type = .SUCCESS ∧
          Command.get_user_groups.Answer pg env w rid f.payload := by
  cases pg with
  | true =>
    apply groups_answered true fd me rid
    have hfound : Ensures env w (PostgresPersistence.get_user_groups rid : Prog [] (List GroupRow))
        fun groups _ => groups.map (fun g => (g.id, g.name)) = groups_of true env w rid := rfl
    refine Ensures.bind hfound fun groups w₁ hgroups => ?_
    rw [← hgroups, List.zipIdx_map]
    exact (ensures_mapM (fun g _ => group_item_db_of g.1 g.2) groups.zipIdx w₁).mono
      fun items _ h => List.forall₂_map_left_iff.mpr h
  | false =>
    apply groups_answered false fd me rid
    have hfound : Ensures env w (locked (read fun s =>
          (s.g_groups.toList.map Prod.snd).filter fun g => g.members.count rid) : Prog [] (List Group))
        fun groups _ => groups.map (fun g => (g.id, g.name)) = groups_of false env w rid := rfl
    refine Ensures.bind hfound fun groups w₁ hgroups => ?_
    rw [← hgroups, List.zipIdx_map]
    exact (ensures_mapM (fun g _ => group_item_mem_of g.1 g.2) groups.zipIdx w₁).mono
      fun items _ h => List.forall₂_map_left_iff.mpr h

/-- **These commands answer for the requester**, and only read. -/
theorem perform_answered {c : Command} (hc : c.forRequester = true) :
    AnsweredFor pg env fd rid c w (finish env fd ((perform pg fd me rid c).run env w)) := by
  have hlogout : c ≠ .logout := by
    rintro rfl
    cases hc
  have hwrites : c.writes ⊆ [.var .g_friends, .out] := by
    cases c with
    | search_user | get_all_users => exact List.Subset.refl _
    | get_user_groups => exact List.subset_cons_self _ _
    | _ => cases hc
  have hanswered : Ensures env w (perform pg fd me rid c) fun _ w' =>
      (∀ a, w'.mem.g_friends.get a = w.mem.g_friends.get a) ∧
        ∃ f, w'.out = w.out ++ [f] ∧ f.fd = fd ∧ f.type = .SUCCESS ∧ c.Answer pg env w rid f.payload := by
    cases c with
    | search_user payload => exact (search_user_answered pg fd rid payload).lift (by decide)
    | get_all_users => exact (get_all_users_answered pg fd rid).lift (by decide)
    | get_user_groups => exact (get_user_groups_answered pg fd me rid).lift (by decide)
    | _ => cases hc
  rw [finish, if_neg (by simp [perform_next pg env w fd me rid c hlogout])]
  exact ⟨fun x hx => perform_frame pg env fd me rid c w fun h => hx (hwrites h), hanswered.1, hanswered.2⟩

end Requester

/-- **What the header's identity decides.** Two frames that differ in the header's user,
timestamp and checksum are handled alike, unless they name different requesters and
carry a `SEARCH_USER`, `GET_ALL_USERS` or `GET_USER_GROUPS`; then each is answered for the
requester that it names. -/
theorem header_identity (pg : Bool) (env : Env) (w : World) (fd : Int) (r : Request)
    (userId : UInt32) (timestamp : UInt64) (checksum : UInt32) :
    let r' := r.readdress userId timestamp checksum
    handle_request pg env w fd r' = handle_request pg env w fd r ∨
      (requester_id r'.header (w.session fd) ≠ requester_id r.header (w.session fd) ∧
        ∃ c, decode pg r.header.type r.payload = .ok c ∧ c.forRequester = true ∧
        ∃ w₁ w₂, handle_request pg env w fd r = .ok w₁ ∧ handle_request pg env w fd r' = .ok w₂ ∧
          AnsweredFor pg env fd (requester_id r.header (w.session fd)) c w w₁ ∧
          AnsweredFor pg env fd (requester_id r'.header (w.session fd)) c w w₂) := by
  intro r'
  cases hv : r.header.valid with
  | false =>
    have hv' : r'.header.valid = false := hv
    rw [handle_request_invalid hv, handle_request_invalid hv']
    exact .inl rfl
  | true =>
    have hv' : r'.header.valid = true := hv
    cases hc : decode pg r.header.type r.payload with
    | error e =>
      have hc' : decode pg r'.header.type r'.payload = .error e := hc
      rw [handle_request_fault hv hc, handle_request_fault hv' hc']
      exact .inl rfl
    | ok c =>
      have hc' : decode pg r'.header.type r'.payload = .ok c := hc
      rw [handle_request_ok hv hc, handle_request_ok hv' hc']
      -- the handler sees nothing of the header but its requester
      by_cases hrid : requester_id r'.header (w.session fd) = requester_id r.header (w.session fd)
      · rw [hrid]
        exact .inl rfl
      · cases hread : c.forRequester with
        | false =>
          rw [perform_requester pg fd _ (requester_id r.header (w.session fd)) _ hread]
          exact .inl rfl
        | true =>
          exact .inr ⟨hrid, c, rfl, hread, _, _, rfl, rfl, perform_answered pg fd _ _ hread,
            perform_answered pg fd _ _ hread⟩

/-- The reply that a `GET_USER_GROUPS` on connection 6 gets, when its header names this user. -/
def groups_reply (w : World) (userId : UInt32) : Option Bytes :=
  (handle_request false Env.calm w 6
    ((Request.of .GET_USER_GROUPS "").readdress userId 0 0)).toOption.bind fun w' =>
      w'.out.getLast?.map Frame.payload

/-- **The header's identity has some authority**: a connection that never logged in reads
the groups of user 1 by naming it. -/
theorem header_identity_matters :
    ¬∀ pg env w fd r userId timestamp checksum, Reachable pg env w → w.conns.count fd = true →
      handle_request pg env w fd (Request.readdress r userId timestamp checksum)
        = handle_request pg env w fd r := by
  intro claim
  have hrun : (Run.exec (Server.step false Env.calm) (World.new Tables.empty)
      [.accept 5, .send 5 .REGISTER "username=a&password=x",
        .send 5 .CREATE_GROUP "name=g&members=", .accept 6]).map
        (fun w => (w.conns.count 6, decide (groups_reply w 1 = groups_reply w 0)))
      = some (true, false) := by decide
  obtain ⟨w, hreach, hw⟩ := reachable_of_exec (World.new_fresh Tables.empty_valid) rfl hrun
  obtain ⟨hopen, hdiffer⟩ := Prod.mk.inj hw
  have hequal : groups_reply w 1 = groups_reply w 0 := by
    unfold groups_reply
    rw [claim false Env.calm w 6 (Request.of .GET_USER_GROUPS "") 1 0 0 hreach hopen]
    rfl
  exact absurd hequal (of_decide_eq_false hdiffer)

end ChatApp
