/-
`Refusals.lean` -- a request that is answered with `ERROR`, with a database.

Almost every case of `handle_client` refuses before it touches memory: it asks memory or the database,
and changes `g_groups` or `g_friends` only when the answer is in. So a run is followed as long as
nothing has happened (`Unanswered`), and from there it is either refused, and the maps are as they
were, or goes on and never sends `ERROR`. `LEAVE_GROUP` does it the other way round.
-/
import ChatApp.Concurrent
import ChatApp.Friendships

set_option autoImplicit false

namespace ChatApp

open Prog PostgresPersistence handle_client

/-! ## What a refusal may leave behind -/

/-- The maps of the globals but `g_online_clients`. -/
abbrev six_maps : List Field :=
  [.var .g_users_by_name, .var .g_users_by_id, .var .g_friends, .var .g_friend_requests,
    .var .g_groups, .var .g_offline_messages]

/-- These maps are as they were, up to entries with the default value. -/
structure MapsSame (w w' : World) : Prop where
  users_by_name : ∀ name, w'.mem.g_users_by_name.find? name = w.mem.g_users_by_name.find? name
  users_by_id : ∀ uid, w'.mem.g_users_by_id.find? uid = w.mem.g_users_by_id.find? uid
  friends : ∀ uid, w'.mem.g_friends.get uid = w.mem.g_friends.get uid
  requests : ∀ uid, w'.mem.g_friend_requests.get uid = w.mem.g_friend_requests.get uid
  groups : ∀ gid, w'.mem.g_groups.get gid = w.mem.g_groups.get gid
  offline : ∀ uid, w'.mem.g_offline_messages.get uid = w.mem.g_offline_messages.get uid

/-- A request on `fd` that was answered with `ERROR` has left them as they were. -/
def RefusalIntact (fd : Int) (w w' : World) : Prop :=
  (∃ f ∈ w'.out.drop w.out.length, f.fd = fd ∧ f.type = .ERROR) → MapsSame w w'

/-- No frame sent from `w` to `w'` is an `ERROR`. -/
def NoErrors (w w' : World) : Prop :=
  ∃ new : List Frame, w'.out = w.out ++ new ∧ ∀ f ∈ new, f.type ≠ .ERROR

/-- What becomes of a request: the maps are as they were, or nothing was refused. -/
def Refusal (w w' : World) : Prop := MapsSame w w' ∨ NoErrors w w'

/-- Nothing has happened yet. -/
structure Unanswered (w w' : World) : Prop where
  maps : MapsSame w w'
  errors : NoErrors w w'

section Relations

variable {w w' w'' : World}

theorem MapsSame.refl (w : World) : MapsSame w w := by
  constructor <;> exact fun _ => rfl

theorem MapsSame.trans (h : MapsSame w w') (h' : MapsSame w' w'') : MapsSame w w'' where
  users_by_name name := (h'.users_by_name name).trans (h.users_by_name name)
  users_by_id uid := (h'.users_by_id uid).trans (h.users_by_id uid)
  friends uid := (h'.friends uid).trans (h.friends uid)
  requests uid := (h'.requests uid).trans (h.requests uid)
  groups gid := (h'.groups gid).trans (h.groups gid)
  offline uid := (h'.offline uid).trans (h.offline uid)

theorem mapsSame_of_frame (h : ∀ x ∈ six_maps, x.Same w w') : MapsSame w w' where
  users_by_name name := congrArg (UMap.find? · name) (h (.var .g_users_by_name) (by simp))
  users_by_id uid := congrArg (UMap.find? · uid) (h (.var .g_users_by_id) (by simp))
  friends uid := congrArg (UMap.get · uid) (h (.var .g_friends) (by simp))
  requests uid := congrArg (UMap.get · uid) (h (.var .g_friend_requests) (by simp))
  groups gid := congrArg (UMap.get · gid) (h (.var .g_groups) (by simp))
  offline uid := congrArg (UMap.get · uid) (h (.var .g_offline_messages) (by simp))

theorem noErrors_of_out (h : w'.out = w.out) : NoErrors w w' :=
  ⟨[], by rw [List.append_nil, h], fun _ hf => absurd hf List.not_mem_nil⟩

theorem NoErrors.refl (w : World) : NoErrors w w := noErrors_of_out rfl

theorem NoErrors.trans (h : NoErrors w w') (h' : NoErrors w' w'') : NoErrors w w'' := by
  obtain ⟨new, hout, hnew⟩ := h
  obtain ⟨new', hout', hnew'⟩ := h'
  refine ⟨new ++ new', by rw [hout', hout, List.append_assoc], fun f hf => ?_⟩
  exact (List.mem_append.mp hf).elim (hnew f) (hnew' f)

theorem Unanswered.refl (w : World) : Unanswered w w := ⟨.refl w, .refl w⟩

theorem Refusal.intact (h : Refusal w w') (fd : Int) : RefusalIntact fd w w' := by
  rcases h with hmaps | ⟨new, hout, hnew⟩
  · exact fun _ => hmaps
  · rintro ⟨f, hf, -, herror⟩
    rw [hout, List.drop_left] at hf
    exact absurd herror (hnew f hf)

end Relations

/-! ## Following a run -/

/-- No message that waits for a user is an `ERROR`. -/
def NoErrorQueued (q : UMap Int (List PendingMsg)) : Prop := ∀ uid, ∀ m ∈ q.get uid, m.type ≠ .ERROR

theorem NoErrorQueued.enqueue {q : UMap Int (List PendingMsg)} (hq : NoErrorQueued q)
    {m : PendingMsg} (hm : m.type ≠ .ERROR) (uid : Int) :
    NoErrorQueued (q.update uid fun ms => ms ++ [m]) := by
  intro u m' hm'
  rw [UMap.get_update] at hm'
  split at hm'
  · rcases List.mem_append.mp hm' with hold | hnew
    · exact hq uid m' hold
    · rw [List.mem_singleton.mp hnew]
      exact hm
  · exact hq u m' hm'

theorem NoErrorQueued.erase {q : UMap Int (List PendingMsg)} (hq : NoErrorQueued q) (uid : Int) :
    NoErrorQueued (q.erase uid) := by
  intro u m hm
  rw [UMap.get_erase] at hm
  split at hm
  · cases hm
  · exact hq u m hm

/-- The operation queues no `ERROR`, and sends none unless the case still `refuses`. -/
@[simp] def Op.harmless (refuses : Bool) {β : Type} : Op β → Prop
  | .send _ type _ _ => refuses = true ∨ type ≠ .ERROR
  | .modify .g_offline_messages f => ∀ q, NoErrorQueued q → NoErrorQueued (f q)
  | _ => True

section Rules

variable {S T : List Field} {α β : Type} {env : Env} {w w₁ : World} {Q : {β : Type} → Op β → Prop}
  {R : α → Prop}

theorem Op.harmless.errors {o : Op β} (ho : o.harmless false) (env : Env) (w : World) :
    NoErrors w (o.exec env w).2 := by
  cases o with
  | send fd type payload userId =>
    have htype : type ≠ .ERROR := ho.resolve_left Bool.false_ne_true
    exact ⟨[_], rfl, fun f hf => by rw [List.mem_singleton.mp hf]; exact htype⟩
  | _ => exact NoErrors.refl w

theorem Op.harmless.queued {refuses : Bool} {o : Op β} (ho : o.harmless refuses) (env : Env)
    (hw : NoErrorQueued w.mem.g_offline_messages) :
    NoErrorQueued (o.exec env w).2.mem.g_offline_messages := by
  cases o with
  | modify x f =>
    cases x with
    | g_offline_messages => exact ho _ hw
    | _ => exact hw
  | _ => exact hw

theorem Prog.Always.noErrors {p : Prog S α} (hp : p.Always (Op.harmless false) R) (env : Env)
    (w : World) : Ensures env w p fun _ w' => NoErrors w w' :=
  hp.rel NoErrors.refl (fun h h' => h.trans h') fun _ w ho => ho.errors env w

theorem harmless_of_footprint {refuses : Bool} (p : Prog S α)
    (hqueue : .var .g_offline_messages ∉ S) (hout : refuses = true ∨ .out ∉ S) :
    p.Always (Op.harmless refuses) fun _ => True := by
  refine always_of_footprint p fun o ho => ?_
  cases o with
  | send fd type payload userId => exact hout.imp_right fun hS => absurd (ho _ (by simp [Op.writes])) hS
  | modify x f =>
    cases x with
    | g_offline_messages => exact absurd (ho _ (by simp [Op.writes])) hqueue
    | _ => trivial
  | _ => trivial

/-- A statement of the database whose answer nobody reads. -/
theorem saved_harmless {refuses saves : Bool} {p : Prog T β} {hT : T ⊆ S}
    (hqueue : .var .g_offline_messages ∉ T) (hout : .out ∉ T) :
    (when saves (p.lift hT >>= fun _ => pure ()) : Prog S Unit).Always (Op.harmless refuses) fun _ => True := by
  refine (always_when ..).mpr ⟨fun _ => ?_, trivial⟩
  exact Always.seq ((always_lift ..).mpr (harmless_of_footprint p hqueue (.inr hout))) fun _ => trivial

theorem mapsSame_of_footprint (p : Prog S α) (hS : ∀ x ∈ six_maps, x ∉ S) (env : Env) (w : World) :
    Ensures env w p fun _ w' => MapsSame w w' :=
  mapsSame_of_frame fun x hx => run_frame env p w (hS x hx)

/-- A part of a case that writes none of the maps and sends nothing. -/
theorem Unanswered.part (h : Unanswered w w₁) (p : Prog S α) (hS : ∀ x ∈ .out :: six_maps, x ∉ S) :
    Ensures env w₁ p fun _ w' => Unanswered w w' := by
  have hmaps := mapsSame_of_footprint p (fun x hx => hS x (List.mem_cons_of_mem _ hx)) env w₁
  have herrors := (harmless_of_footprint p (hS _ (by simp)) (.inr (hS _ List.mem_cons_self))).noErrors env w₁
  exact ⟨h.maps.trans hmaps, h.errors.trans herrors⟩

/-- The refusal itself. -/
theorem Unanswered.refuse (h : Unanswered w w₁) (fd : Int) (text : Bytes) (userId : UInt32)
    (hout : .out ∈ S) :
    Ensures env w₁ (reply fd .ERROR text userId hout : Prog S Unit) fun _ w' => Refusal w w' :=
  .inl (h.maps.trans (by constructor <;> exact fun _ => rfl))

/-- The case goes on, and sends no `ERROR`. -/
theorem NoErrors.answer (h : NoErrors w w₁) {p : Prog S α}
    (hp : p.Always (Op.harmless false) fun _ => True) : Ensures env w₁ p fun _ w' => Refusal w w' :=
  (hp.noErrors env w₁).mono fun _ _ hnew => .inr (h.trans hnew)

theorem refusal_andNext {p : Prog S Unit} (hp : Ensures env w₁ p fun _ w' => Refusal w w') :
    Ensures env w₁ (andNext p) fun _ w' => Refusal w w' :=
  Ensures.bind hp fun _ _ h => ensures_pure h

/-- The usual branch of a case: a refusal if nothing came of what was tried, and else the rest. -/
theorem refusal_unless {ok : Bool} {fd : Int} {text : Bytes} {userId : UInt32} {hout : .out ∈ S}
    {rest : Prog S Unit} (herrors : NoErrors w w₁) (hmaps : ok = false → MapsSame w w₁)
    (hrest : ok = true → Ensures env w₁ rest fun _ w' => Refusal w w') :
    Ensures env w₁ (if !ok then reply fd .ERROR text userId hout else rest)
      fun _ w' => Refusal w w' := by
  cases ok with
  | false => exact Unanswered.refuse ⟨hmaps rfl, herrors⟩ fd text userId hout
  | true => exact hrest rfl

/-- A change to memory that is made only once the database has made it. -/
theorem Unanswered.tried (h : Unanswered w w₁) {p : Prog T Bool} {hT : T ⊆ S} {commit : Prog S Unit}
    (hp : ∀ x ∈ .out :: six_maps, x ∉ T) (hcommit : commit.Always (Op.harmless false) fun _ => True) :
    Ensures env w₁ (p.lift hT >>= fun ok => when ok commit >>= fun _ => pure ok) fun ok w' =>
      NoErrors w w' ∧ (ok = false → MapsSame w w') := by
  refine ((h.part p hp).lift _).bind fun ok w₂ h₂ => ?_
  cases ok with
  | false => exact ensures_pure ⟨h₂.errors, fun _ => h₂.maps⟩
  | true =>
    refine Ensures.bind (hcommit.noErrors env w₂) fun _ w₃ h₃ => ?_
    exact ensures_pure ⟨h₂.errors.trans h₃, fun h => absurd h (by simp)⟩

/-- A change to memory that is made only where memory allows it. -/
theorem Unanswered.allowed (h : Unanswered w w₁) {check : ServerState → Bool} {commit : Prog S Unit}
    (hcommit : commit.Always (Op.harmless false) fun _ => True) :
    Ensures env w₁ (locked (read check >>= fun ok => when ok commit >>= fun _ => pure ok) :
      Prog S Bool) fun ok w' => NoErrors w w' ∧ (ok = false → MapsSame w w') := by
  refine Ensures.locked (ensures_read ?_)
  cases check w₁.mem with
  | false => exact ensures_pure ⟨h.errors, fun _ => h.maps⟩
  | true =>
    refine Ensures.bind (hcommit.noErrors env w₁) fun _ w₂ h₂ => ?_
    exact ensures_pure ⟨h.errors.trans h₂, fun h => absurd h (by simp)⟩

end Rules

/-! ## What never refuses -/

section Harmless

variable {refuses : Bool} (fd me : Int)

theorem deliver_harmless {m : PendingMsg} (hm : m.type ≠ .ERROR) (uid : Int) :
    (deliver m uid).Always (Op.harmless refuses) fun _ => True := by
  have hqueue : ∀ q, NoErrorQueued q → NoErrorQueued (q.update uid fun ms => ms ++ [m]) :=
    fun q hq => hq.enqueue hm uid
  simpa [deliver, find_fd, enqueue_offline, Op.harmless, hm] using hqueue

theorem deliver_all_harmless {m : PendingMsg} (hm : m.type ≠ .ERROR) (uids : List Int) :
    (deliver_all m uids).Always (Op.harmless refuses) fun _ => True :=
  (always_forM ..).mpr ⟨fun uid _ => deliver_harmless hm uid, trivial⟩

theorem announce_harmless (pg : Bool) (gid : Int) (sys : Prog [] Bytes) :
    (announce pg gid sys).Always (Op.harmless refuses) fun _ => True := by
  refine Always.seq (by simp [Op.harmless]) fun ts_ms => ?_
  refine Always.seq ((always_lift ..).mpr (harmless_of_footprint sys (by simp) (by simp))) fun text => ?_
  have hframe : (system_message gid text ts_ms).type ≠ .ERROR := by simp [system_message]
  refine Always.seq (saved_harmless (by simp) (by simp)) fun _ => ?_
  refine Always.seq ((always_lift ..).mpr (harmless_of_footprint _ (by simp) (by simp))) fun members => ?_
  exact Always.seq ((always_lift ..).mpr (deliver_all_harmless hframe members)) fun _ => trivial

theorem notify_friends_harmless (uid : Int) (online : Bool) :
    (notify_friends_status_change uid online).Always (Op.harmless refuses) fun _ => True := by
  cases online <;> simp [notify_friends_status_change, find_fd, Op.harmless]

/-- What `LOGIN` sends after its answer: notices, and the messages that waited. -/
theorem login_deliver_harmless (username : Bytes) {l : Login}
    (hqueue : ∀ m ∈ l.offlineMessages, m.type ≠ .ERROR) :
    (login_deliver true fd username l).Always (Op.harmless refuses) fun _ => True := by
  refine Always.seq (by simp [Op.harmless]) fun _ => ?_
  refine Always.seq (notify_friends_harmless l.uid true) fun _ => ?_
  refine Always.seq (by simp [send_pending_request, Op.harmless]) fun _ => Always.seq ?_ fun _ => ?_
  · simp [get_pending_group_invites, send_pending_invite, Op.harmless]
  · refine (always_forM ..).mpr ⟨fun m hm => ?_, trivial⟩
    simp [Op.harmless, hqueue m hm]

end Harmless

/-! ## The cases -/

section Cases

variable {env : Env} {w : World} (fd me rid : Int)

theorem register_refusal (payload : Bytes) :
    Ensures env w (register true fd payload) fun _ w' => Refusal w w' := by
  have hstart := Unanswered.refl w
  refine refusal_andNext (ensures_ite (fun _ => hstart.refuse ..) fun _ => Ensures.locked ?_)
  refine ensures_read (ensures_ite (fun _ => hstart.refuse ..) fun _ => ?_)
  refine ((hstart.part (register_id true _ _ _) (by simp)).lift _).bind fun uid w₁ h₁ => ?_
  refine ensures_ite (fun _ => h₁.refuse ..) fun _ => h₁.errors.answer ?_
  simp [register_user, Op.harmless]

/-- `LOGIN` refuses inside its critical section, and no frame of the queue is an `ERROR`. -/
theorem login_refusal (payload : Bytes)
    (hqueue : ∀ uid, ∀ m ∈ w.mem.g_offline_messages.get uid, m.type ≠ .ERROR) :
    Ensures env w (login true fd payload) fun _ w' => Refusal w w' := by
  have hstart := Unanswered.refl w
  have hsession : Ensures env w (login_session true fd payload) fun r w₁ => Refusal w w₁ ∧
      ∀ l, r = some l → NoErrors w w₁ ∧ ∀ m ∈ l.offlineMessages, m.type ≠ .ERROR := by
    refine Ensures.locked (ensures_read (ensures_ite (fun _ => ?_) fun _ => ?_))
    · refine Ensures.bind (hstart.refuse fd _ _ _) fun _ w₁ h₁ => ensures_pure ⟨h₁, ?_⟩
      exact fun l hl => absurd hl (by simp)
    · refine ensures_set_user (ensures_modify (ensures_part fun _ w₁ h₁ => ?_))
      refine ensures_part fun pendingRequests w₂ h₂ => ?_
      have hout : w₂.out = w.out := Eq.trans (h₂ .out (by simp)) (h₁ .out (by simp))
      have hoffline : w₂.mem.g_offline_messages = w.mem.g_offline_messages :=
        Eq.trans (h₂ (.var .g_offline_messages) (by simp)) (h₁ (.var .g_offline_messages) (by simp))
      have herrors : NoErrors w w₂ := noErrors_of_out hout
      refine ensures_read (ensures_modify (ensures_pure
        ⟨.inr (herrors.trans (noErrors_of_out rfl)), fun l hl => ⟨herrors.trans (noErrors_of_out rfl), ?_⟩⟩))
      rw [← Option.some.inj hl, hoffline]
      exact hqueue _
  refine (hsession.lift _).bind fun r w₁ h₁ => ?_
  cases r with
  | none => exact ensures_pure h₁.1
  | some l =>
    obtain ⟨herrors, hmessages⟩ := h₁.2 l rfl
    refine refusal_andNext ?_
    refine Ensures.mono ((login_deliver_harmless fd _ hmessages).noErrors env w₁ |>.lift _) ?_
    exact fun _ w' h => .inr (herrors.trans h)

theorem friend_request_refusal (target : Target) :
    Ensures env w (friend_request true fd me target) fun _ w' => Refusal w w' := by
  have hstart := Unanswered.refl w
  refine ((hstart.part (find_target target) (by simp)).lift _).bind fun found w₁ h₁ => ?_
  cases found with
  | error e => exact refusal_andNext (h₁.refuse ..)
  | ok x =>
    refine refusal_andNext (ensures_ite (fun _ => h₁.refuse ..) fun _ => ?_)
    -- a request that is refused at the end was known before
    have hstore : Ensures env w₁ (store_request true me x) fun refused w₂ =>
        NoErrors w w₂ ∧ (refused.isSome = true → MapsSame w w₂) := by
      refine Ensures.locked (ensures_read (ensures_modify ?_))
      have h₂ : Unanswered w { w₁ with mem := Var.modify .g_friends (touch_pair me x) w₁.mem } := by
        refine ⟨h₁.maps.trans ?_, h₁.errors.trans (noErrors_of_out rfl)⟩
        exact ⟨fun _ => rfl, fun _ => rfl, fun uid => get_touch_pair .., fun _ => rfl, fun _ => rfl,
          fun _ => rfl⟩
      refine ensures_ite (fun _ => ensures_pure ⟨h₂.errors, fun _ => h₂.maps⟩) fun _ => ?_
      refine ((h₂.part (store_request_db true me x) (by simp)).lift _).bind fun refused w₃ h₃ => ?_
      refine ensures_ite (fun _ => ensures_pure ⟨h₃.errors, fun _ => h₃.maps⟩) fun _ => ?_
      refine ensures_read (ensures_modify (ensures_pure
        ⟨h₃.errors.trans (noErrors_of_out rfl), fun hknown => h₃.maps.trans ?_⟩))
      have hme : me ∈ w₃.mem.g_friend_requests.get x := by
        by_contra hnot
        simp [hnot] at hknown
      refine ⟨fun _ => rfl, fun _ => rfl, fun _ => rfl, fun uid => ?_, fun _ => rfl, fun _ => rfl⟩
      show (w₃.mem.g_friend_requests.update x fun vec => add_missing vec [me]).get uid = _
      rw [UMap.get_update]
      split
      · next huid => simp [add_missing, huid, hme]
      · rfl
    refine (hstore.lift _).bind fun refused w₂ h₂ => ?_
    refine ensures_ite (fun hrefused => ?_) fun _ => ?_
    · exact Unanswered.refuse ⟨h₂.2 hrefused, h₂.1⟩ ..
    · exact h₂.1.answer (by simp [notify_target, Op.harmless])

theorem friend_accept_refusal (other : Int) :
    Ensures env w (friend_accept true fd me other) fun _ w' => Refusal w w' := by
  have hstart := Unanswered.refl w
  refine refusal_andNext (Ensures.locked ?_)
  refine ((hstart.part (accept_friend_request other me) (by simp [all_tables])).lift _).bind
    fun success w₁ h₁ => ?_
  refine Ensures.lift ?_ _
  refine ensures_ite (fun _ => h₁.refuse ..) fun _ => h₁.errors.answer ?_
  simp [Op.harmless]

theorem create_group_refusal (name : Option Bytes) (memberIds : List Int) :
    Ensures env w (create_group true fd me name memberIds) fun _ w' => Refusal w w' := by
  have hstart := Unanswered.refl w
  refine ((hstart.part (group_name name) (by simp)).lift _).bind fun name w₁ h₁ => ?_
  refine ((h₁.part (create_group_db me name memberIds) (by simp [all_tables])).lift _).bind
    fun gid w₂ h₂ => ?_
  refine refusal_andNext (Ensures.lift ?_ _)
  refine ensures_ite (fun _ => h₂.refuse ..) fun _ => h₂.errors.answer ?_
  refine Always.seq ((always_lift ..).mpr (harmless_of_footprint _ (by simp) (by simp))) fun _ => ?_
  refine Always.seq (by simp [Op.harmless]) fun _ => ?_
  exact Always.seq (announce_harmless true _ _) fun _ => trivial

theorem invite_to_group_refusal (gid uid : Int) :
    Ensures env w (invite_to_group true fd me gid uid) fun _ w' => Refusal w w' := by
  have hstart := Unanswered.refl w
  refine Ensures.bind (R := fun _ w₁ => Unanswered w w₁) (Ensures.locked hstart) fun ok w₁ h₁ => ?_
  refine refusal_andNext (refusal_unless h₁.errors (fun _ => h₁.maps) fun _ => ?_)
  have hadded : Ensures env w₁ (persist_member true gid uid) _ :=
    h₁.tried (by simp) (harmless_of_footprint _ (by simp) (by simp))
  refine (hadded.lift _).bind fun added w₂ h₂ => refusal_unless h₂.1 h₂.2 fun _ => h₂.1.answer ?_
  refine Always.seq (by simp [notify_invited, find_fd, Op.harmless]) fun _ => ?_
  exact Always.seq ((always_lift ..).mpr (announce_harmless true _ _)) fun _ => by simp [Op.harmless]

theorem accept_group_invite_refusal (gid : Int) :
    Ensures env w (accept_group_invite true fd me gid) fun _ w' => Refusal w w' := by
  have hstart := Unanswered.refl w
  have hjoined : Ensures env w (join_group true me gid) _ :=
    hstart.tried (by simp) (harmless_of_footprint _ (by simp) (by simp))
  refine (hjoined.lift _).bind fun ok w₁ h₁ => refusal_andNext (refusal_unless h₁.1 h₁.2 fun _ =>
    h₁.1.answer ?_)
  simp [notify_joined, Op.harmless]

theorem rename_group_refusal (gid : Int) (newName : Bytes) :
    Ensures env w (rename_group true fd me gid newName) fun _ w' => Refusal w w' := by
  refine (Unanswered.refl w).allowed (by simp [Op.harmless]) |>.bind fun ok w₁ h₁ => ?_
  refine refusal_andNext (refusal_unless h₁.1 h₁.2 fun _ => h₁.1.answer ?_)
  refine Always.seq (saved_harmless (by simp) (by simp)) fun _ => ?_
  refine Always.seq ((always_lift ..).mpr (announce_harmless true _ _)) fun members => ?_
  have hnotice : (renamed_notice me gid newName).type ≠ .ERROR := by simp [renamed_notice]
  exact Always.seq ((always_lift ..).mpr (deliver_all_harmless hnotice members)) fun _ => by
    simp [Op.harmless]

theorem set_group_nickname_refusal (gid uid : Int) (nick : Bytes) :
    Ensures env w (set_group_nickname true fd me gid uid nick) fun _ w' => Refusal w w' := by
  have hnamed : Ensures env w (locked do
      let member ← read fun s => s.hasMember gid uid
      when member (modify .g_groups (set_nickname gid uid nick))
      when (member && true) do
        let _ ← (PostgresPersistence.set_group_nickname gid uid nick).lift
        pure ()
      pure member : Prog member_writes Bool) fun ok w' =>
      NoErrors w w' ∧ (ok = false → MapsSame w w') := by
    refine Ensures.locked (ensures_read ?_)
    cases w.mem.hasMember gid uid with
    | false => exact ensures_pure ⟨.refl w, fun _ => .refl w⟩
    | true =>
      refine Ensures.bind (R := fun _ w₁ => NoErrors w w₁) (noErrors_of_out rfl) fun _ w₁ h₁ => ?_
      refine Ensures.bind (Always.noErrors (R := fun _ => True) ?_ env w₁) fun _ w₂ h₂ => ?_
      · exact saved_harmless (by simp) (by simp)
      · exact ensures_pure ⟨h₁.trans h₂, fun h => absurd h (by simp)⟩
  refine hnamed.bind fun ok w₁ h₁ => ?_
  refine refusal_andNext (refusal_unless h₁.1 h₁.2 fun _ => h₁.1.answer ?_)
  refine Always.seq ((always_lift ..).mpr ?_) fun _ => by simp [Op.harmless]
  refine Always.seq (by simp [Op.harmless]) fun ts_ms => Always.seq (by simp [Op.harmless]) fun names => ?_
  refine Always.seq (saved_harmless (by simp) (by simp)) fun _ => ?_
  refine Always.seq (by simp [Op.harmless]) fun members => (always_lift ..).mpr ?_
  exact deliver_all_harmless (by simp [system_message]) members

theorem remove_from_group_refusal (gid uid : Int) :
    Ensures env w (remove_from_group true fd me gid uid) fun _ w' => Refusal w w' := by
  have hstart := Unanswered.refl w
  refine ((hstart.part (may_remove true me gid uid) (by simp)).lift _).bind fun permitted w₁ h₁ => ?_
  refine refusal_andNext (refusal_unless h₁.errors (fun _ => h₁.maps) fun _ => ?_)
  have hremoved : Ensures env w₁ (persist_removal true gid uid) _ :=
    h₁.tried (by simp) (harmless_of_footprint _ (by simp) (by simp))
  refine (hremoved.lift _).bind fun removed w₂ h₂ => refusal_unless h₂.1 h₂.2 fun _ => h₂.1.answer ?_
  refine Always.seq ((always_lift ..).mpr (announce_harmless true _ _)) fun _ => ?_
  refine Always.seq ((always_lift ..).mpr (deliver_harmless (by simp [removed_notice]) uid)) fun _ => ?_
  refine Always.seq ((always_lift ..).mpr (harmless_of_footprint _ (by simp) (by simp))) fun members => ?_
  have hnotice : (member_removed_notice gid uid).type ≠ .ERROR := by simp [member_removed_notice]
  exact Always.seq ((always_lift ..).mpr (deliver_all_harmless hnotice members)) fun _ => by
    simp [Op.harmless]

theorem make_admin_refusal (gid uid : Int) :
    Ensures env w (make_admin true fd me gid uid) fun _ w' => Refusal w w' := by
  have hstart := Unanswered.refl w
  refine ((hstart.part (may_promote true me gid) (by simp)).lift _).bind fun permitted w₁ h₁ => ?_
  refine refusal_andNext (refusal_unless h₁.errors (fun _ => h₁.maps) fun _ => ?_)
  have hupdated : Ensures env w₁ (persist_admin true gid uid) _ :=
    h₁.tried (by simp) (harmless_of_footprint _ (by simp) (by simp))
  refine (hupdated.lift _).bind fun updated w₂ h₂ => refusal_unless h₂.1 h₂.2 fun _ => h₂.1.answer ?_
  refine Always.seq ((always_lift ..).mpr (announce_harmless true _ _)) fun members => ?_
  have hnotice : (admin_notice me gid uid).type ≠ .ERROR := by simp [admin_notice]
  exact Always.seq ((always_lift ..).mpr (deliver_all_harmless hnotice members)) fun _ => by
    simp [Op.harmless]

theorem group_message_refusal (gid : Int) (message : Bytes) :
    Ensures env w (group_message true fd me gid message) fun _ w' => Refusal w w' := by
  have hstart := Unanswered.refl w
  refine ((hstart.part (recipients true me gid) (by simp)).lift _).bind fun members w₁ h₁ => ?_
  cases members with
  | none => exact refusal_andNext (h₁.refuse ..)
  | some members =>
    refine h₁.errors.answer (Always.seq (by simp [Op.harmless]) fun ts_ms => ?_)
    refine Always.seq (saved_harmless (by simp) (by simp)) fun _ => ?_
    have hframe : (group_message_frame me gid message ts_ms).type ≠ .ERROR := by
      simp [group_message_frame]
    exact Always.seq ((always_lift ..).mpr (deliver_all_harmless hframe members)) fun _ => by
      simp [andNext, Op.harmless]

/-- The cases that never send `ERROR`. -/
theorem direct_message_harmless (recipientId : Int) (message : Bytes) :
    (direct_message true fd me recipientId message).Always (Op.harmless false) fun _ => True := by
  refine Always.seq (by simp [Op.harmless]) fun ms => ?_
  refine Always.seq (saved_harmless (by simp) (by simp)) fun _ => ?_
  have hframe : (direct_message_frame me message (ms / 1000 * 1000)).type ≠ .ERROR := by
    simp [direct_message_frame]
  exact Always.seq ((always_lift ..).mpr (deliver_harmless hframe recipientId)) fun _ => by
    simp [andNext, Op.harmless]

end Cases

/-! ## `LEAVE_GROUP` -/

section Leave

variable {env : Env} {w : World} (fd me gid : Int)

/-- A `LEAVE_GROUP` of `me` is refused after it has changed the group: memory has the group, the sender
is one of its members or it has none (and is more than a default entry), and the `DELETE` fails. -/
def LeavesRefused (env : Env) (w : World) (gid me : Int) : Prop :=
  env.sql_fails w.ticks = true ∧ ∃ g, w.mem.g_groups.find? gid = some g ∧
    (g.members.count me = true ∨ (g.members.empty = true ∧ g ≠ default))

/-- Whether leaving changes the group. -/
theorem get_leave_iff {groups : Groups} {g : Group} (hg : groups.find? gid = some g) :
    (∀ k, (leave gid me groups).get k = groups.get k) ↔
      ¬(g.members.count me = true ∨ (g.members.empty = true ∧ g ≠ default)) := by
  have hget : groups.get gid = g := UMap.get_of_find? hg
  have hothers : ∀ k, k ≠ gid → (leave gid me groups).get k = groups.get k := by
    intro k hk
    unfold leave
    rw [hg]
    dsimp only
    split
    · rw [UMap.get_erase, if_neg hk]
    · rw [UMap.get_set, if_neg hk]
  have hone : (∀ k, (leave gid me groups).get k = groups.get k) ↔
      (leave gid me groups).get gid = groups.get gid := by
    constructor
    · exact fun h => h gid
    · intro h k
      by_cases hk : k = gid
      · rw [hk, h]
      · exact hothers k hk
  rw [hone, hget]
  unfold leave
  rw [hg]
  dsimp only
  by_cases hmember : g.members.count me = true
  · -- a member has gone
    refine iff_of_false (fun h => ?_) (by simp [hmember])
    have hgone : g.members.count me = false := by
      split at h
      · rw [UMap.get_erase, if_pos rfl] at h
        rw [← h]
        rfl
      · rw [UMap.get_set, if_pos rfl] at h
        rw [← h]
        simp [UMap.count]
    rw [hmember] at hgone
    cases hgone
  · have habsent : g.members.erase me = g.members :=
      UMap.erase_of_absent (by simpa [UMap.count] using hmember)
    rw [habsent]
    by_cases hempty : g.members.empty = true
    · rw [if_pos hempty, UMap.get_erase, if_pos rfl]
      simp [hmember, hempty, eq_comm]
    · rw [if_neg hempty, UMap.get_set, if_pos rfl]
      exact iff_of_true rfl (by simp [hmember, hempty])

theorem leave_group_refusal (htx : w.db.tx = none) :
    Ensures env w (leave_group true fd me gid) fun _ w' =>
      RefusalIntact fd w w' ↔ ¬LeavesRefused env w gid me := by
  refine Ensures.bind (R := fun r w₁ => r.1 = w.mem.g_groups.count gid ∧
    w₁ = { w with mem := { w.mem with g_groups := leave gid me w.mem.g_groups } })
    (Ensures.locked ⟨rfl, rfl⟩) fun r w₁ h₁ => ?_
  obtain ⟨ok, deleted⟩ := r
  obtain ⟨hok, rfl⟩ := h₁
  change ok = w.mem.g_groups.count gid at hok
  dsimp only
  have hanswer : ∀ (persisted : Bool) (w₂ : World), w₂.out = w.out → Ensures env w₂ (andNext
      (if !persisted then reply fd .ERROR (str "Leave failed (db)") (u32 me)
      else reply fd .SUCCESS (if deleted then str "Group deleted" else str "Left group") (u32 me) :
        Prog leave_writes Unit)) fun _ w' => w'.mem = w₂.mem ∧
        ((∃ f ∈ w'.out.drop w.out.length, f.fd = fd ∧ f.type = .ERROR) ↔ persisted = false) := by
    intro persisted w₂ hout
    cases persisted <;> exact ⟨rfl, by simp [reply, andNext, hout]⟩
  refine ensures_ite (fun hknown => ?_) fun hunknown => ?_
  · have hcount : w.mem.g_groups.count gid = true := by simpa [hok] using hknown
    obtain ⟨g, hfind⟩ := (UMap.count_iff _ _).mp hcount
    have hdelete : Ensures env { w with mem := { w.mem with g_groups := leave gid me w.mem.g_groups } }
        (remove_group_member gid me) fun persisted _ =>
          persisted = false ↔ env.sql_fails w.ticks = true := by
      refine (execute_of_none _ _ _ (by exact htx)).bind fun res w₂ h₂ => ?_
      rcases h₂ with ⟨hfails, rfl, -⟩ | ⟨hfails, rfl, -⟩
      · exact ensures_pure (iff_of_true rfl hfails)
      · change env.sql_fails w.ticks = false at hfails
        refine ensures_part fun _ w₃ _ => ensures_pure (iff_of_false (by simp) (by simp [hfails]))
    have hframe := mapsSame_of_footprint (remove_group_member gid me) (by simp) env
      { w with mem := { w.mem with g_groups := leave gid me w.mem.g_groups } }
    refine ((hdelete.and (hframe.and (ensures_frame _))).lift _).bind fun persisted w₂ h₂ => ?_
    obtain ⟨hpersisted, hsame, hrest⟩ := h₂
    refine (hanswer persisted w₂ (hrest .out (by simp))).mono fun _ w' h => ?_
    obtain ⟨hmem, herror⟩ := h
    have hmaps : MapsSame w w' ↔ ∀ k, (leave gid me w.mem.g_groups).get k = w.mem.g_groups.get k := by
      constructor
      · intro h k
        have hgroups := h.groups k
        rw [hmem] at hgroups
        exact (hsame.groups k).symm.trans hgroups
      · intro h
        refine ⟨?_, ?_, ?_, ?_, ?_, ?_⟩ <;> rw [hmem]
        · exact hsame.users_by_name
        · exact hsame.users_by_id
        · exact hsame.friends
        · exact hsame.requests
        · exact fun k => (hsame.groups k).trans (h k)
        · exact hsame.offline
    unfold RefusalIntact LeavesRefused
    rw [herror, hmaps, get_leave_iff me gid hfind, hpersisted, hfind]
    simp
  · -- an unknown group: nothing is tried
    have hcount : w.mem.g_groups.count gid = false := by simpa [hok] using hunknown
    have hreply := hanswer true
      { w with mem := { w.mem with g_groups := leave gid me w.mem.g_groups } } rfl
    refine iff_of_true (fun herror => absurd (hreply.2.mp herror) (by simp)) ?_
    rintro ⟨-, g, hg, -⟩
    rw [UMap.count, hg] at hcount
    cases hcount

end Leave

/-! ## Every request -/

section Requests

variable {env : Env} {w w' : World}

/-- No case of `handle_client` queues an `ERROR`. -/
theorem perform_harmless (pg : Bool) (fd me rid : Int) (c : Command) :
    (perform pg fd me rid c).Always (Op.harmless true) fun _ => True := by
  cases c with
  | login payload =>
    rw [perform, always_lift]
    refine Always.seq ((always_lift ..).mpr ?_) fun session => ?_
    · refine Always.locked (Always.seq (by simp [Op.harmless]) fun user => ?_) trivial trivial
      refine (always_ite ..).mpr ⟨fun _ => by simp [Op.harmless], fun _ => ?_⟩
      refine Always.seq (by simp [Op.harmless]) fun _ => Always.seq (by simp [Op.harmless]) fun _ => ?_
      refine Always.seq ((always_lift ..).mpr (harmless_of_footprint _ (by simp) (.inl rfl))) fun _ => ?_
      refine Always.seq ((always_lift ..).mpr (harmless_of_footprint _ (by simp) (.inl rfl)))
        fun pendingRequests => Always.seq (by simp [Op.harmless]) fun offlineMessages => ?_
      exact Always.seq ((always_modify ..).mpr ⟨fun q hq => hq.erase _, trivial⟩) fun _ => trivial
    · cases session with
      | none => trivial
      | some l =>
        refine Always.seq ((always_lift ..).mpr ?_) fun _ => trivial
        exact harmless_of_footprint _ (by simp) (.inl rfl)
  | direct_message recipientId message =>
    simp [perform, direct_message, andNext, Op.harmless, harmless_of_footprint, deliver_harmless,
      direct_message_frame]
  | create_group name memberIds =>
    have hannounce : ∀ name gid, (announce_group pg fd me name memberIds gid).Always (Op.harmless true)
        fun _ => True := fun name gid => by
      simp [announce_group, Op.harmless, harmless_of_footprint, announce_harmless]
    rw [perform, always_lift]
    refine Always.seq ((always_lift ..).mpr (harmless_of_footprint _ (by simp) (.inl rfl)))
      fun name => (always_ite ..).mpr ⟨fun _ => ?_, fun _ => ?_⟩
    · refine Always.seq ((always_lift ..).mpr (harmless_of_footprint _ (by simp [all_tables]) (.inl rfl)))
        fun gid => Always.seq ((always_lift ..).mpr (hannounce ..)) fun _ => trivial
    · refine Always.seq ((always_lift ..).mpr (harmless_of_footprint _ (by simp) (.inl rfl)))
        fun gid => Always.seq ((always_lift ..).mpr (hannounce ..)) fun _ => trivial
  | invite_to_group gid uid =>
    simp [perform, invite_to_group, andNext, Op.harmless, harmless_of_footprint, announce_harmless]
  | rename_group gid newName =>
    simp [perform, handle_client.rename_group, andNext, Op.harmless, harmless_of_footprint,
      announce_harmless, deliver_all_harmless, renamed_notice]
  | set_group_nickname gid uid nick =>
    simp [perform, handle_client.set_group_nickname, announce_nickname, andNext, Op.harmless,
      harmless_of_footprint, deliver_all_harmless, system_message]
  | remove_from_group gid uid =>
    simp [perform, remove_from_group, andNext, Op.harmless, harmless_of_footprint, announce_harmless,
      deliver_harmless, deliver_all_harmless, removed_notice, member_removed_notice]
  | make_admin gid uid =>
    simp [perform, make_admin, andNext, Op.harmless, harmless_of_footprint, announce_harmless,
      deliver_all_harmless, admin_notice]
  | group_message gid message =>
    rw [perform, always_lift]
    refine Always.seq ((always_lift ..).mpr (harmless_of_footprint _ (by simp) (.inl rfl)))
      fun members => ?_
    cases members with
    | none => simp [andNext, Op.harmless]
    | some members =>
      simp [andNext, Op.harmless, harmless_of_footprint, deliver_all_harmless, group_message_frame]
  | _ =>
    rw [perform, always_lift]
    exact harmless_of_footprint _ (by simp [all_tables]) (.inl rfl)

/-- No message that waits in a reachable state is an `ERROR`. -/
theorem Reachable.noErrorQueued {pg : Bool} (h : Reachable pg env w) :
    NoErrorQueued w.mem.g_offline_messages := by
  obtain ⟨w₀, tr, booted, run⟩ := h
  obtain ⟨tr', run'⟩ := Concurrent.run_of_run run
  have hstart : NoErrorQueued w₀.mem.g_offline_messages := by
    rw [booted.offline_empty]
    exact fun uid m hm => absurd hm List.not_mem_nil
  have hcleanup : ∀ fd me, (cleanup fd me).Always (Op.harmless true) fun _ => True := fun fd me =>
    harmless_of_footprint _ (by simp) (.inl rfl)
  exact Concurrent.invariant_of_ops (I := fun w => NoErrorQueued w.mem.g_offline_messages)
    (perform_harmless pg) (fun fd => by simp [invalid_header, Op.harmless]) hcleanup
    (fun o w ho hw => ho.queued env hw) (fun w fd hw => hw) run' hstart
    fun h hh => absurd hh List.not_mem_nil

/-- **Every case but one** leaves the maps as they were or sends no `ERROR`. -/
theorem perform_refusal (fd me rid : Int) {c : Command} (hc : ∀ gid, c ≠ .leave_group gid)
    (hqueue : NoErrorQueued w.mem.g_offline_messages) :
    Ensures env w (perform true fd me rid c) fun _ w' => Refusal w w' := by
  have hstart := Unanswered.refl w
  cases c with
  | register payload => exact (register_refusal fd payload).lift (by decide)
  | login payload => exact (login_refusal fd payload hqueue).lift (by decide)
  | friend_request target => exact (friend_request_refusal fd me target).lift (by decide)
  | friend_accept other => exact (friend_accept_refusal fd me other).lift (by decide)
  | direct_message recipientId message =>
    exact hstart.errors.answer ((always_lift _ (by decide)).mpr (direct_message_harmless fd me recipientId message))
  | create_group name memberIds => exact (create_group_refusal fd me name memberIds).lift (by decide)
  | invite_to_group gid uid => exact (invite_to_group_refusal fd me gid uid).lift (by decide)
  | accept_group_invite gid => exact (accept_group_invite_refusal fd me gid).lift (by decide)
  | rename_group gid newName => exact (rename_group_refusal fd me gid newName).lift (by decide)
  | set_group_nickname gid uid nick => exact (set_group_nickname_refusal fd me gid uid nick).lift (by decide)
  | remove_from_group gid uid => exact (remove_from_group_refusal fd me gid uid).lift (by decide)
  | make_admin gid uid => exact (make_admin_refusal fd me gid uid).lift (by decide)
  | group_message gid message => exact (group_message_refusal fd me gid message).lift (by decide)
  | leave_group gid => exact absurd rfl (hc gid)
  -- these touch none of the maps
  | heartbeat | unknown => exact .inl ((mapsSame_of_footprint (heartbeat fd me) (by simp) env w).lift (by decide))
  | get_conversation_history other limit =>
    exact .inl ((mapsSame_of_footprint (get_conversation_history fd me other limit) (by simp) env w).lift (by decide))
  | get_group_history gid limit =>
    exact .inl ((mapsSame_of_footprint (get_group_history true fd me gid limit) (by simp) env w).lift (by decide))
  | get_user_groups =>
    exact .inl ((mapsSame_of_footprint (handle_client.get_user_groups true fd me rid) (by simp) env w).lift (by decide))
  | delete_conversation other =>
    exact .inl ((mapsSame_of_footprint (handle_client.delete_conversation true fd me other) (by simp) env w).lift
      (by decide))
  | decline_group_invite gid =>
    exact .inl ((mapsSame_of_footprint (decline_group_invite true fd me gid) (by simp) env w).lift (by decide))
  -- and these have nothing to refuse
  | logout =>
    refine hstart.errors.answer ?_
    simp [perform, logout, go_offline, Op.harmless, notify_friends_harmless]
  | search_user payload =>
    refine hstart.errors.answer ?_
    simp [perform, search_user, andNext, Op.harmless]
  | get_all_users =>
    refine hstart.errors.answer ?_
    simp [perform, get_all_users, andNext, Op.harmless]
  | get_friends_list =>
    refine hstart.errors.answer ?_
    simp [perform, get_friends_list, andNext, Op.harmless, harmless_of_footprint]
  | friend_decline other =>
    refine hstart.errors.answer ?_
    simp [perform, friend_decline, andNext, Op.harmless, harmless_of_footprint]
  | unfriend other =>
    refine hstart.errors.answer ?_
    simp [perform, unfriend, andNext, Op.harmless]

/-- The operation writes none of the maps; a lookup among the friends may insert. -/
@[simp] def Op.keepsMaps {β : Type} : Op β → Prop
  | .modify .g_friends f => ∀ (g : Friends) (uid : Int), (f g).get uid = g.get uid
  | .modify x _ => .var x ∉ six_maps
  | _ => True

theorem Op.keepsMaps.exec {β : Type} {o : Op β} (ho : o.keepsMaps) (env : Env) (w : World) :
    MapsSame w (o.exec env w).2 := by
  cases o with
  | modify x f =>
    cases x with
    | g_friends =>
      exact ⟨fun _ => rfl, fun _ => rfl, ho w.mem.g_friends, fun _ => rfl, fun _ => rfl, fun _ => rfl⟩
    | g_next_user_id | g_online_clients | g_next_group_id => constructor <;> exact fun _ => rfl
    | _ => exact absurd (by simp) ho
  | _ => constructor <;> exact fun _ => rfl

/-- The end of a connection changes none of the maps and sends no `ERROR`. -/
theorem end_connection_unanswered (fd : Int) (w : World) :
    Unanswered w (end_connection env fd w) := by
  have hmaps : (cleanup fd (w.session fd)).Always Op.keepsMaps fun _ => True := by
    simp [cleanup, go_offline, notify_friends_status_change, find_fd, Op.keepsMaps]
  have herrors : (cleanup fd (w.session fd)).Always (Op.harmless false) fun _ => True := by
    simp [cleanup, go_offline, notify_friends_harmless, Op.harmless]
  exact ⟨hmaps.rel MapsSame.refl (fun h h' => h.trans h') fun _ w ho => ho.exec env w,
    herrors.noErrors env w⟩

theorem Refusal.unanswered {w'' : World} (h : Refusal w w') (h' : Unanswered w' w'') :
    Refusal w w'' :=
  h.imp (fun hmaps => hmaps.trans h'.maps) fun herrors => herrors.trans h'.errors

theorem Refusal.finish (fd : Int) {res : Outcome × World} (h : Refusal w res.2) :
    Refusal w (finish env fd res) := by
  unfold ChatApp.finish
  split
  · exact h.unanswered (end_connection_unanswered fd res.2)
  · exact h

/-- **When a refused request leaves the state as it was**: in every reachable state with a database, for
every frame and every pattern of failures, exactly when it is not a `LEAVE_GROUP` that changes the group
in memory and whose `DELETE` then fails. -/
theorem refusals_intact {fd : Int} {r : Request} (hreach : Reachable true env w)
    (hstep : Server.step true env w (.request fd r) = some w') : RefusalIntact fd w w' ↔
      ∀ rid gid, Event.command true w (.request fd r) = some (fd, rid, .leave_group gid) →
        ¬LeavesRefused env w gid (w.session fd) := by
  have hqueue := hreach.noErrorQueued
  cases Server.move_of_step true env hstep with
  | refused fd me r opened invalid =>
    have hrefused : Ensures env w (invalid_header fd) fun _ w₁ => Refusal w w₁ :=
      Ensures.bind ((Unanswered.refl w).refuse fd _ _ _) fun _ _ h => ensures_pure h
    refine iff_of_true ((hrefused.unanswered (end_connection_unanswered fd _)).intact fd) ?_
    intro rid gid hcommand
    simp [Event.command, invalid] at hcommand
  | performed fd me rid r c opened command =>
    have hsession : w.session fd = me := UMap.get_of_find? opened
    by_cases hleave : ∃ gid, c = .leave_group gid
    · obtain ⟨gid, rfl⟩ := hleave
      have hnext := perform_next true env w fd me rid (.leave_group gid) (by simp)
      have hgroup : RefusalIntact fd w ((perform true fd me rid (.leave_group gid)).run env w).2 ↔
          ¬LeavesRefused env w gid me := by
        rw [perform, run_lift]
        exact leave_group_refusal fd me gid hreach.tx_none
      rw [finish, if_neg (by rw [hnext]; simp), hgroup, command, hsession]
      constructor
      · rintro hnot rid' gid' hcommand
        simp only [Option.some.injEq, Prod.mk.injEq, Command.leave_group.injEq, true_and] at hcommand
        rw [← hcommand.2]
        exact hnot
      · exact fun h => h rid gid rfl
    · have hother : ∀ gid, c ≠ .leave_group gid := fun gid hgid => hleave ⟨gid, hgid⟩
      have hrefusal : Ensures env w (perform true fd me rid c) fun _ w₁ => Refusal w w₁ :=
        perform_refusal fd me rid hother hqueue
      refine iff_of_true ((Refusal.finish fd hrefusal).intact fd) ?_
      intro rid' gid hcommand
      rw [command] at hcommand
      simp only [Option.some.injEq, Prod.mk.injEq, true_and] at hcommand
      exact absurd hcommand.2 (hother gid)

end Requests

/-- User 1 has a group, and cannot rename another one. -/
theorem refusals_intact_renaming : ∃ w w', Reachable true Env.calm w ∧
    Server.step true Env.calm w (.send 5 .RENAME_GROUP "groupId=7&name=x") = some w' ∧
    (∃ f ∈ w'.out.drop w.out.length, f.fd = 5 ∧ f.type = .ERROR) ∧ MapsSame w w' := by
  have hrun : (Run.exec (Server.step true Env.calm) loaded
      (two_users ++ [.send 5 .CREATE_GROUP "name=g&members=2"])).map
        (fun w => (Server.step true Env.calm w (.send 5 .RENAME_GROUP "groupId=7&name=x")).map
          fun w' => decide (∃ f ∈ w'.out.drop w.out.length, f.fd = 5 ∧ f.type = .ERROR))
      = some (some true) := by decide
  obtain ⟨w, hreach, hw⟩ := reachable_of_exec (World.new_fresh Tables.empty_valid) rfl hrun
  obtain ⟨w', hstep, herror⟩ := Option.map_eq_some_iff.mp hw
  refine ⟨w, w', hreach, hstep, of_decide_eq_true herror, ?_⟩
  refine (refusals_intact hreach hstep).mpr ?_ (of_decide_eq_true herror)
  intro rid gid hcommand
  cases hcommand

/-- **A refused request can change the state**: the `DELETE` of a `LEAVE_GROUP` fails, and user 1, who is
told so, is no member in memory any more. -/
theorem refusals_not_intact : ¬∀ env w fd r w', Reachable true env w →
    Server.step true env w (.request fd r) = some w' → RefusalIntact fd w w' := by
  intro claim
  have hrun : (Run.exec (Server.step true { Env.calm with sql_fails := fun n => decide (n = 27) })
      loaded (two_users ++ [.send 5 .CREATE_GROUP "name=g&members=2"])).map
        (fun w => (Server.step true { Env.calm with sql_fails := fun n => decide (n = 27) } w
          (.send 5 .LEAVE_GROUP "groupId=1")).map fun w' =>
            decide ((∃ f ∈ w'.out.drop w.out.length, f.fd = 5 ∧ f.type = .ERROR) ∧
              (w.mem.g_groups.get 1).members.count 1 = true ∧
              (w'.mem.g_groups.get 1).members.count 1 = false))
      = some (some true) := by decide
  obtain ⟨w, hreach, hw⟩ := reachable_of_exec (World.new_fresh Tables.empty_valid) rfl hrun
  obtain ⟨w', hstep, hafter⟩ := Option.map_eq_some_iff.mp hw
  obtain ⟨herror, hmember, hgone⟩ := of_decide_eq_true hafter
  have hsame := (claim _ w 5 _ w' hreach hstep herror).groups 1
  rw [hsame, hmember] at hgone
  cases hgone

end ChatApp
