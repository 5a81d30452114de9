/-
`Faults.lean` -- which requests the process survives.

Nothing in `handle_client` catches an exception, and its thread is detached: what
leaves it ends the server. Decoding is the only place where something can leave it, so a request
is survived exactly when its fields decode, which is a condition on the frame alone.
Every case that is reached writes to its own connection on each of its paths.
-/
import ChatApp.Server

set_option autoImplicit false

namespace ChatApp

open Prog PostgresPersistence handle_client

/-! ## Programs that reply -/

/-- The operation is a `send_message` on `fd`. -/
def Op.sendsTo (fd : Int) {β : Type} : Op β → Prop
  | .send fd' .. => fd' = fd
  | _ => False

namespace Prog

/-- Every path of the program sends to `fd` or returns in `R`. -/
def Replies {S : List Field} {α : Type} (fd : Int) (p : Prog S α) (R : α → Prop) : Prop :=
  p.Surely (fun o => o.1.sendsTo fd) R

section Replies

variable {S T : List Field} {α β : Type} {fd : Int} {R : α → Prop}

@[simp] theorem replies_true (p : Prog S α) : p.Replies fd fun _ => True :=
  Program.surely_of_forall fun _ => trivial

@[simp] theorem replies_pure (a : α) : (pure a : Prog S α).Replies fd R ↔ R a := Iff.rfl

@[simp] theorem replies_bind (p : Prog S β) (f : β → Prog S α) :
    (p >>= f).Replies fd R ↔ p.Replies fd fun b => (f b).Replies fd R :=
  Program.surely_bind

@[simp] theorem replies_map (p : Prog S β) (f : β → α) :
    (f <$> p).Replies fd R ↔ p.Replies fd fun b => R (f b) := by
  rw [map_eq_pure_bind, replies_bind]
  rfl

@[simp] theorem replies_ite (c : Prop) [Decidable c] (p q : Prog S α) :
    (if c then p else q).Replies fd R ↔ (c → p.Replies fd R) ∧ (¬c → q.Replies fd R) := by
  split <;> simp_all

@[simp] theorem replies_lift (p : Prog S α) (h : S ⊆ T) :
    (p.lift h).Replies fd R ↔ p.Replies fd R :=
  Program.surely_hom _

/-- It is enough that the end of a program replies. -/
theorem Replies.after (p : Prog S β) {f : β → Prog S α} (h : ∀ b, (f b).Replies fd R) :
    (p >>= f).Replies fd R :=
  (replies_bind p f).mpr (Program.surely_of_forall h)

@[simp] theorem replies_locked (p : Prog S α) : (locked p).Replies fd R ↔ p.Replies fd R := by
  have hlock : ∀ R : Unit → Prop, (lock : Prog S Unit).Replies fd R ↔ R () := fun R =>
    ⟨fun h => h.resolve_left id (), fun h => .inr fun _ => h⟩
  have hunlock : ∀ R : Unit → Prop, (unlock : Prog S Unit).Replies fd R ↔ R () := fun R =>
    ⟨fun h => h.resolve_left id (), fun h => .inr fun _ => h⟩
  simp only [locked, replies_bind, replies_pure, hlock, hunlock]

@[simp] theorem replies_reply (type : MessageType) (payload : Bytes) (userId : UInt32)
    (h : .out ∈ S) (R : Unit → Prop) : (reply fd type payload userId h : Prog S Unit).Replies fd R :=
  .inl rfl

end Replies

end Prog

/-- Frames were written between the two states, and one of them to `fd`. -/
def Replied (fd : Int) (w w' : World) : Prop := ∃ sent, w'.out = w.out ++ sent ∧ ∃ f ∈ sent, f.fd = fd

/-- Frames are only ever added. -/
theorem Op.exec_out (env : Env) {β : Type} (o : Op β) (w : World) :
    ∃ sent, (o.exec env w).2.out = w.out ++ sent := by
  cases o with
  | send fd type payload userId => exact ⟨_, rfl⟩
  | _ => exact ⟨[], (List.append_nil _).symm⟩

/-- A program that replies on every path has replied when it returns. -/
theorem Prog.Replies.run {S : List Field} {α : Type} {fd : Int} {p : Prog S α}
    (hp : p.Replies fd fun _ => False) (env : Env) (w : World) : Replied fd w (p.run env w).2 := by
  refine (Program.Surely.run (fun w w' => ∃ sent, w'.out = w.out ++ sent) (Replied fd) hp
    ?_ ?_ ?_ ?_ ?_ ?_ w).resolve_left not_false
  · exact fun w => ⟨[], (List.append_nil _).symm⟩
  · rintro _ _ _ ⟨s, hs⟩ ⟨t, ht⟩
    exact ⟨s ++ t, by rw [ht, hs, List.append_assoc]⟩
  · exact fun o w => o.1.exec_out env w
  · rintro β ⟨o, ho⟩ w hsends
    cases o with
    | send fd' type payload userId =>
      exact ⟨_, rfl, _, List.mem_singleton.mpr rfl, hsends⟩
    | _ => exact hsends.elim
  · rintro _ _ _ ⟨s, hs⟩ ⟨t, ht, f, hf, hfd⟩
    exact ⟨s ++ t, by rw [ht, hs, List.append_assoc], f, List.mem_append_right _ hf, hfd⟩
  · rintro _ _ _ ⟨s, hs, f, hf, hfd⟩ ⟨t, ht⟩
    exact ⟨s ++ t, by rw [ht, hs, List.append_assoc], f, List.mem_append_left _ hf, hfd⟩

/-- **Every case replies**, on each of its paths. -/
theorem perform_replies (pg : Bool) (fd me rid : Int) (c : Command) :
    (perform pg fd me rid c).Replies fd fun _ => False := by
  cases c with
  | friend_request target =>
    rw [perform, replies_lift]
    refine Replies.after _ fun found => ?_
    cases found <;> simp [andNext]
  | group_message gid message =>
    rw [perform, replies_lift]
    refine Replies.after _ fun members => ?_
    cases members <;> simp [andNext]
  | friend_accept | create_group | get_group_history | get_user_groups | delete_conversation =>
    cases pg <;> simp [perform, friend_accept, accept_in_memory, handle_client.create_group,
      announce_group, get_group_history, handle_client.get_user_groups,
      handle_client.delete_conversation, andNext]
  | register | login => simp [perform, register, register_user, login, login_session, login_deliver,
      andNext]
  | _ => simp [perform, heartbeat, logout, search_user, get_all_users, get_friends_list,
      friend_decline, unfriend, direct_message, get_conversation_history, invite_to_group,
      accept_group_invite, decline_group_invite, handle_client.rename_group,
      handle_client.set_group_nickname, remove_from_group, make_admin, leave_group, andNext]

/-! ## The other connections -/

section Others

variable {env : Env} {w : World} (fd : Int)

/-- Every other connection is as it was. -/
def OthersSame (w w' : World) : Prop := ∀ fd', fd' ≠ fd → w'.conns.find? fd' = w.conns.find? fd'

theorem othersSame_of_frame {w' : World} (h : Field.conns.Same w w') : OthersSame fd w w' :=
  fun fd' _ => by rw [show w'.conns = w.conns from h]

theorem OthersSame.trans {fd : Int} {w w' w'' : World} (h : OthersSame fd w w')
    (h' : OthersSame fd w' w'') : OthersSame fd w w'' :=
  fun fd' hne => (h' fd' hne).trans (h fd' hne)

theorem login_others (pg : Bool) (payload : Bytes) :
    Ensures env w (login pg fd payload) fun _ w' => OthersSame fd w w' := by
  have hset : ∀ uid, OthersSame fd w { w with conns := w.conns.set fd uid } :=
    fun uid fd' hne => by rw [UMap.find?_set, if_neg hne]
  have hsession : Ensures env w (login_session pg fd payload) fun _ w' => OthersSame fd w w' := by
    refine Ensures.locked (ensures_read (ensures_ite (fun _ => ?_) fun _ => ?_))
    · exact othersSame_of_frame fd rfl
    · refine ensures_set_user (ensures_modify (ensures_part fun _ w₁ h₁ => ?_))
      refine ensures_part fun _ w₂ h₂ => ensures_read (ensures_modify (ensures_pure ?_))
      have h := (h₁ .conns (by simp)).trans (h₂ .conns (by simp))
      exact (hset _).trans (othersSame_of_frame fd h)
  refine (hsession.lift _).bind fun r w₁ h₁ => ?_
  cases r with
  | none => exact ensures_pure h₁
  | some l =>
    refine ensures_part fun _ w₂ h₂ => ensures_pure ?_
    exact h₁.trans (othersSame_of_frame fd (h₂ .conns (by simp)))

theorem register_others (pg : Bool) (payload : Bytes) :
    Ensures env w (register pg fd payload) fun _ w' => OthersSame fd w w' := by
  suffices hbody : Ensures env w _ fun (_ : Unit) w' => OthersSame fd w w' from
    hbody.bind fun _ w' h => ensures_pure h
  refine ensures_ite (fun _ => ?_) fun _ => Ensures.locked (ensures_read ?_)
  · exact othersSame_of_frame fd rfl
  refine ensures_ite (fun _ => ?_) fun _ => ?_
  · exact othersSame_of_frame fd rfl
  refine ensures_part fun uid w₁ h₁ => ?_
  have hsame : OthersSame fd w w₁ := othersSame_of_frame fd (h₁ .conns (by simp))
  refine ensures_ite (fun _ => ?_) fun _ => ?_
  · exact hsame.trans (othersSame_of_frame fd rfl)
  · refine hsame.trans fun fd' hne => ?_
    show (w₁.conns.set fd _).find? fd' = _
    rw [UMap.find?_set, if_neg hne]

theorem end_connection_others : OthersSame fd w (end_connection env fd w) := by
  have h : Ensures env w (cleanup fd (w.session fd)) fun _ w' => OthersSame fd w w' := by
    refine ensures_part fun _ w₁ h₁ => fun fd' hne => ?_
    show (w₁.conns.erase fd).find? fd' = _
    rw [UMap.find?_erase, if_neg hne, show w₁.conns = w.conns from h₁ .conns (by simp)]
  exact h

theorem end_connection_closed : (end_connection env fd w).conns.find? fd = none := by
  have h : Ensures env w (cleanup fd (w.session fd)) fun _ w' => w'.conns.find? fd = none := by
    refine ensures_part fun _ w₁ _ => ?_
    show (w₁.conns.erase fd).find? fd = none
    rw [UMap.find?_erase, if_pos rfl]
  exact h

/-- A request touches no connection but its own. -/
theorem perform_others (pg : Bool) (me rid : Int) (c : Command) :
    OthersSame fd w (finish env fd ((perform pg fd me rid c).run env w)) := by
  have hfinish : ∀ res : Outcome × World, OthersSame fd w res.2 →
      OthersSame fd w (finish env fd res) := by
    intro res hres
    rw [finish]
    split
    · exact hres.trans (end_connection_others fd)
    · exact hres
  refine hfinish _ ?_
  cases c with
  | login payload =>
    rw [perform, run_lift]
    exact login_others fd pg payload
  | register payload =>
    rw [perform, run_lift]
    exact register_others fd pg payload
  | _ =>
    refine othersSame_of_frame fd (perform_frame pg env fd me rid _ w ?_)
    simp [Command.writes, all_tables]

end Others

/-! ## The fields a request needs -/

/-- The fields that the case of a message type passes to `std::stoi` whatever else the
payload holds. -/
def int_fields : MessageType → List String
  | .FRIEND_ACCEPT | .FRIEND_DECLINE | .UNFRIEND => ["userId"]
  | .DIRECT_MESSAGE => ["recipientId"]
  | .GET_CONVERSATION_HISTORY | .DELETE_CONVERSATION => ["otherUserId"]
  | .GET_GROUP_HISTORY | .ACCEPT_GROUP_INVITE | .DECLINE_GROUP_INVITE | .RENAME_GROUP
  | .LEAVE_GROUP | .GROUP_MESSAGE => ["groupId"]
  | .INVITE_TO_GROUP | .SET_GROUP_NICKNAME | .REMOVE_FROM_GROUP | .MAKE_ADMIN =>
    ["groupId", "userId"]
  | _ => []

/-- What a payload of a message type must be for its case to get past its fields. -/
def WellFormed (pg : Bool) (type : MessageType) (payload : Bytes) : Prop :=
  (∀ key ∈ int_fields type, parses (field payload key) = true) ∧
  match type with
  | .FRIEND_REQUEST => has_field payload "username" = false →
      has_field payload "targetUserId" = true → parses (field payload "targetUserId") = true
  | .GET_CONVERSATION_HISTORY =>
      (has_field payload "limit" = true → parses (field payload "limit") = true) ∧ pg = true
  | .GET_GROUP_HISTORY => has_field payload "limit" = true → parses (field payload "limit") = true
  | .CREATE_GROUP =>
      ∀ token ∈ getlines 44 (field payload "members"), token ≠ [] → parses token = true
  | _ => True

section Decode

variable {α β : Type}

theorem parses_iff (s : Bytes) : parses s = true ↔ ∃ n, stoi s = .ok n := by
  unfold parses
  cases stoi s with
  | error e => exact ⟨fun h => (nomatch h), fun ⟨n, h⟩ => (nomatch h)⟩
  | ok n => exact ⟨fun _ => ⟨n, rfl⟩, fun _ => rfl⟩

theorem bind_ok_iff (x : Except Fault α) (f : α → Except Fault β) (b : β) :
    x >>= f = .ok b ↔ ∃ a, x = .ok a ∧ f a = .ok b := by
  cases x with
  | error e => exact ⟨fun h => (nomatch h), fun ⟨a, h, _⟩ => (nomatch h)⟩
  | ok a =>
    refine ⟨fun h => ⟨a, rfl, h⟩, ?_⟩
    rintro ⟨a', ha, h⟩
    cases ha
    exact h

theorem map_ok_iff (x : Except Fault α) (f : α → β) (b : β) :
    f <$> x = .ok b ↔ ∃ a, x = .ok a ∧ f a = b := by
  rw [map_eq_pure_bind, bind_ok_iff]
  simp only [pure, Except.pure, Except.ok.injEq]

theorem pure_ok_iff (a b : α) : (pure a : Except Fault α) = .ok b ↔ a = b :=
  ⟨Except.ok.inj, congrArg Except.ok⟩

theorem throw_ok_iff (e : Fault) (b : α) : (throw e : Except Fault α) = .ok b ↔ False :=
  iff_false_intro fun h => (nomatch h)

theorem ok_bind_iff (x : Except Fault α) (f : α → Except Fault β) :
    (∃ b, x >>= f = .ok b) ↔ ∃ a, x = .ok a ∧ ∃ b, f a = .ok b := by
  simp only [bind_ok_iff]
  exact exists_comm.trans (exists_congr fun a => exists_and_left)

theorem ok_map_iff (x : Except Fault α) (f : α → β) :
    (∃ b, f <$> x = .ok b) ↔ ∃ a, x = .ok a := by
  simp only [map_ok_iff]
  exact exists_comm.trans (exists_congr fun a => by simp)

theorem ok_pure_iff (a : α) : (∃ b, (pure a : Except Fault α) = .ok b) ↔ True :=
  iff_true_intro ⟨a, rfl⟩

theorem history_limit_ok (payload : Bytes) : (∃ n, history_limit payload = .ok n) ↔
    (has_field payload "limit" = true → parses (field payload "limit") = true) := by
  unfold history_limit
  split
  · next h => rw [parses_iff]; simp [h]
  · next h => simp [h, ok_pure_iff]

/-- A list of tokens parses when each of them does. -/
theorem mapM_stoi_ok (tokens : List Bytes) :
    (∃ ns, tokens.mapM stoi = .ok ns) ↔ ∀ token ∈ tokens, parses token = true := by
  induction tokens with
  | nil => simp [ok_pure_iff]
  | cons token tokens ih =>
    simp only [List.mapM_cons, ok_bind_iff, ok_pure_iff, and_true, exists_and_right, ih,
      List.forall_mem_cons, parses_iff]

theorem friend_request_target_ok (payload : Bytes) :
    (∃ target, friend_request_target payload = .ok target) ↔
      (has_field payload "username" = false → has_field payload "targetUserId" = true →
        parses (field payload "targetUserId") = true) := by
  unfold friend_request_target
  by_cases hname : has_field payload "username" = true
  · simp [hname, ok_pure_iff]
  · by_cases hid : has_field payload "targetUserId" = true
    · simp [hname, hid, ok_map_iff, parses_iff]
    · simp [hname, hid, ok_pure_iff]

theorem create_group_fields_ok (payload : Bytes) :
    (∃ fields, create_group_fields payload = .ok fields) ↔
      ∀ token ∈ getlines 44 (field payload "members"), token ≠ [] → parses token = true := by
  rw [create_group_fields, ok_bind_iff]
  simp only [ok_pure_iff, and_true, mapM_stoi_ok, List.mem_filter, and_imp, decide_eq_true_eq]

/-- **A frame decodes** exactly when its payload is well formed for its type; a byte that is no
type needs nothing. -/
theorem decode_ok_iff (pg : Bool) (type : UInt8) (payload : Bytes) :
    (∃ c, decode pg type payload = .ok c) ↔
      ∀ t, MessageType.ofByte type = some t → WellFormed pg t payload := by
  unfold decode
  cases MessageType.ofByte type with
  | none => simp [ok_pure_iff]
  | some t =>
    have hsome : (∀ t', some t = some t' → WellFormed pg t' payload) ↔ WellFormed pg t payload :=
      ⟨fun h => h t rfl, fun h t' ht => by cases ht; exact h⟩
    rw [hsome]
    -- one case for each type: its fields are read one after another
    cases t with
    | GET_CONVERSATION_HISTORY =>
      cases pg <;> simp [WellFormed, int_fields, ok_bind_iff, ok_map_iff, history_limit_ok,
        parses_iff]
    | CREATE_GROUP =>
      simp only [WellFormed, int_fields, List.not_mem_nil, false_imp_iff, implies_true, true_and]
      rw [← create_group_fields_ok, ok_bind_iff]
      simp only [ok_pure_iff, and_true]
    | _ => simp [WellFormed, int_fields, ok_bind_iff, ok_pure_iff, ok_map_iff, history_limit_ok,
        friend_request_target_ok, parses_iff]

end Decode

/-! ## The result -/

/-- The request is over without a fault: it was replied to or its connection is closed, and
no other connection was touched. -/
def Survived (pg : Bool) (env : Env) (w : World) (fd : Int) (r : Request) : Prop :=
  ∃ w', handle_request pg env w fd r = .ok w' ∧
    (Replied fd w w' ∨ w'.conns.find? fd = none) ∧ OthersSame fd w w'

/-- A reply stays one when the connection is then closed. -/
theorem Replied.finished {env : Env} {fd : Int} {w : World} {res : Outcome × World}
    (h : Replied fd w res.2) :
    Replied fd w (finish env fd res) ∨ (finish env fd res).conns.find? fd = none := by
  rw [finish]
  split
  · exact .inr (end_connection_closed fd)
  · exact .inl h

/-- **A request is survived exactly when it is well formed**: in every state and both modes,
a frame with a valid header needs the fields of its type to parse, and a
`GET_CONVERSATION_HISTORY` needs a database. -/
theorem request_survived (pg : Bool) (env : Env) (w : World) (fd : Int) (r : Request) :
    Survived pg env w fd r ↔ (r.header.valid = true →
      ∀ t, MessageType.ofByte r.header.type = some t → WellFormed pg t r.payload) := by
  constructor
  · rintro ⟨w', hw', -⟩ hvalid
    rw [← decode_ok_iff]
    cases hc : decode pg r.header.type r.payload with
    | ok c => exact ⟨c, rfl⟩
    | error e =>
      rw [handle_request_fault hvalid hc] at hw'
      cases hw'
  · intro h
    cases hvalid : r.header.valid with
    | true =>
      obtain ⟨c, hc⟩ := (decode_ok_iff pg _ _).mpr (h hvalid)
      refine ⟨_, handle_request_ok hvalid hc, ?_, perform_others fd pg _ _ c⟩
      exact Replied.finished ((perform_replies pg fd _ _ c).run env w)
    | false =>
      refine ⟨_, handle_request_invalid hvalid, ?_, ?_⟩
      · exact Replied.finished ⟨_, rfl, _, List.mem_singleton.mpr rfl, rfl⟩
      · exact OthersSame.trans (othersSame_of_frame fd rfl) (end_connection_others fd)

/-- **Not every request is survived**: a `FRIEND_ACCEPT` without a payload. -/
theorem request_not_survived :
    ¬∀ pg env w fd r, Reachable pg env w → w.conns.count fd = true →
      Survived pg env w fd r := by
  intro claim
  have hrun : (Run.exec (Server.step false Env.calm) (World.new Tables.empty) [.accept 5]).map
      (fun w => w.conns.count 5) = some true := by decide
  obtain ⟨w, hreach, hw⟩ := reachable_of_exec (World.new_fresh Tables.empty_valid) rfl hrun
  obtain ⟨w', hw', -⟩ := claim false Env.calm w 5 (.of .FRIEND_ACCEPT "") hreach hw
  cases hw'

end ChatApp
