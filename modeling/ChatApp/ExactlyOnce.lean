/-
`ExactlyOnce.lean` -- every chat message once, in the order of submission.

A chat message is written to its recipient's connection or put in its queue, and a queue is written when
its owner logs in. Which frame is for whom cannot be read off the frames, since two users may be logged in
on one connection. So the three handlers that hand chat messages over are written once more with a record
of it, and without the record they are the handlers: the record changes nothing. A queue mixes chat
messages with notices, which may be equal to them; marks beside it tell them apart.
-/
import ChatApp.Acknowledged
import ChatApp.Effects
import ChatApp.Transactions

set_option autoImplicit false

namespace ChatApp

open Prog PostgresPersistence handle_client

/-! ## Marked lists -/

section Marked

variable {α : Type}

/-- The elements that the marks select. -/
def marked (marks : List Bool) (xs : List α) : List α := ((marks.zip xs).filter Prod.fst).map Prod.snd

@[simp] theorem marked_nil (marks : List Bool) : marked marks ([] : List α) = [] := by
  rw [marked, List.zip_nil_right]
  rfl

theorem marked_append {marks marks' : List Bool} {xs xs' : List α} (h : marks.length = xs.length) :
    marked (marks ++ marks') (xs ++ xs') = marked marks xs ++ marked marks' xs' := by
  rw [marked, List.zip_append h, List.filter_append, List.map_append]
  rfl

theorem marked_replicate (b : Bool) (xs : List α) :
    marked (List.replicate xs.length b) xs = if b then xs else [] := by
  induction xs with
  | nil => cases b <;> rfl
  | cons x xs ih =>
    cases b with
    | true => simpa [marked, List.replicate_succ] using ih
    | false => simpa [marked, List.replicate_succ] using ih

end Marked

/-! ## The account of one user

What holds between the queue of a user, the marks of the messages in it that count, those that the user
has received, and those that were addressed to it. -/

/-- Nothing is lost, doubled or out of order, and nothing that counts waits for a user who is online. -/
structure Accounted {M : Type} (online : Prop) (queue : List M) (marks : List Bool)
    (received addressed : List M) : Prop where
  length : marks.length = queue.length
  waits : online → marked marks queue = []
  balance : received ++ marked marks queue = addressed

namespace Accounted

variable {M : Type} {online online' : Prop} {queue new : List M} {marks : List Bool}
  {received addressed : List M}

/-- Messages that do not count are queued, and nobody comes online. -/
theorem notices (h : Accounted online queue marks received addressed) (hon : online' → online)
    (new : List M) :
    Accounted online' (queue ++ new) (marks ++ List.replicate new.length false) received addressed := by
  have hmarked : marked (marks ++ List.replicate new.length false) (queue ++ new) = marked marks queue := by
    rw [marked_append h.length, marked_replicate, if_neg Bool.false_ne_true, List.append_nil]
  refine ⟨?_, fun ho => ?_, ?_⟩
  · rw [List.length_append, List.length_append, List.length_replicate, h.length]
  · rw [hmarked]
    exact h.waits (hon ho)
  · rw [hmarked]
    exact h.balance

/-- Messages that count are handed over to a user who is online. -/
theorem handed (h : Accounted online queue marks received addressed) (ho : online) (new : List M) :
    Accounted online' queue marks (received ++ new) (addressed ++ new) := by
  have hwaits := h.waits ho
  have hbalance := h.balance
  rw [hwaits, List.append_nil] at hbalance
  refine ⟨h.length, fun _ => hwaits, ?_⟩
  rw [hwaits, List.append_nil, hbalance]

/-- Messages that count are queued for a user who is not online. -/
theorem queued (h : Accounted online queue marks received addressed) (ho : ¬online') (new : List M) :
    Accounted online' (queue ++ new) (marks ++ List.replicate new.length true) received
      (addressed ++ new) := by
  refine ⟨?_, fun hon => absurd hon ho, ?_⟩
  · rw [List.length_append, List.length_append, List.length_replicate, h.length]
  · rw [marked_append h.length, marked_replicate, if_pos rfl, ← List.append_assoc, h.balance]

/-- The user comes online and is handed what waits. -/
theorem drained (h : Accounted online queue marks received addressed) :
    Accounted online' [] [] (received ++ marked marks queue) addressed := by
  refine ⟨rfl, fun _ => rfl, ?_⟩
  rw [marked_nil, List.append_nil]
  exact h.balance

end Accounted

/-! ## The handlers, with a record -/

/-- What is handed to `send_message`, and the user it is for. -/
abbrev Record : Type := List (Int × PendingMsg)

/-- What is for one user. -/
def Record.to (record : Record) (uid : Int) : List PendingMsg :=
  (record.filter fun e => e.1 = uid).map Prod.snd

@[simp] theorem Record.to_nil (uid : Int) : Record.to [] uid = [] := rfl

theorem Record.to_append (record record' : Record) (uid : Int) :
    Record.to (record ++ record') uid = record.to uid ++ record'.to uid := by
  rw [Record.to, List.filter_append, List.map_append]
  rfl

/-! What each of them may write. -/

abbrev deliver_recorded_writes : List Field := delivery_writes
abbrev direct_message_recorded_writes : List Field := message_writes
abbrev group_message_recorded_writes : List Field := group_message_writes
abbrev login_deliver_recorded_writes : List Field := [.var .g_friends, .out]
abbrev login_recorded_writes : List Field := .var .g_friends :: login_writes

/-- `deliver`: a message to a connection that was found is handed over. -/
def deliver_recorded (m : PendingMsg) (uid : Int) : Prog deliver_recorded_writes Record := do
  let fd ← find_fd uid
  if fd ≠ -1 then do
    reply fd m.type m.payload m.fromUserId
    pure [(uid, m)]
  else do
    (enqueue_offline uid m).lift
    pure []

/-- `deliver_all`. -/
def deliver_all_recorded (m : PendingMsg) (uids : List Int) : Prog deliver_recorded_writes Record := do
  let records ← uids.mapM (deliver_recorded m)
  pure records.flatten

section Cases

variable (pg : Bool) (fd me : Int)

/-- `DIRECT_MESSAGE`. -/
def direct_message_recorded (recipientId : Int) (message : Bytes) :
    Prog direct_message_recorded_writes (Outcome × Record) := do
  let ms ← now_ms
  let timestamp := ms / 1000 * 1000
  when pg do
    let _ ← (save_message me recipientId message timestamp).lift
    pure ()
  let record ← (deliver_recorded (direct_message_frame me message timestamp) recipientId).lift
  let out ← andNext (reply fd .SUCCESS (str "Message sent") (u32 me))
  pure (out, record)

/-- `GROUP_MESSAGE`. -/
def group_message_recorded (gid : Int) (message : Bytes) :
    Prog group_message_recorded_writes (Outcome × Record) := do
  let members ← (recipients pg me gid).lift
  match members with
  | none => do
    let out ← andNext (reply fd .ERROR (str "Not in group") (u32 me))
    pure (out, [])
  | some members => do
    let ts_ms ← now_ms
    when pg do
      let _ ← (save_group_message gid me message ts_ms).lift
      pure ()
    let record ← (deliver_all_recorded (group_message_frame me gid message ts_ms) members).lift
    let out ← andNext (reply fd .SUCCESS (str "Group message sent") (u32 me))
    pure (out, record)

/-- The rest of `LOGIN`: the queue that was taken is handed over. -/
def login_deliver_recorded (username : Bytes) (l : Login) :
    Prog login_deliver_recorded_writes Record := do
  reply fd .SUCCESS (welcome l.uid username) (u32 l.uid)
  notify_friends_status_change l.uid true
  (l.pendingRequests.forM (send_pending_request fd)).lift
  when pg do
    let pendingInvites ← (get_pending_group_invites l.uid).lift
    (pendingInvites.forM (send_pending_invite fd)).lift
  l.offlineMessages.mapM fun m => do
    reply fd m.type m.payload m.fromUserId
    pure (l.uid, m)

/-- `LOGIN`. -/
def login_recorded (payload : Bytes) : Prog login_recorded_writes (Outcome × Record) := do
  let session ← (login_session pg fd payload).lift
  match session with
  | none => pure (.next, [])
  | some l => do
    let record ← (login_deliver_recorded pg fd (field payload "username") l).lift
    pure (.next, record)

/-- A command, with the record of the chat messages and of the queue that it hands over. -/
def perform_recorded (rid : Int) : Command → Prog all_fields (Outcome × Record)
  | .login payload => (login_recorded pg fd payload).lift
  | .direct_message recipientId message => (direct_message_recorded pg fd me recipientId message).lift
  | .group_message gid message => (group_message_recorded pg fd me gid message).lift
  | c => do
    let out ← perform pg fd me rid c
    pure (out, [])

end Cases

/-! ## Without the record -/

section Erasure

variable {S T : List Field} {α β : Type} (pg : Bool) (fd me : Int)

/-- What a program returns need not be looked at. -/
theorem discard_lift {p : Prog S α} {q : Prog S Unit} (h : (p >>= fun _ => pure ()) = q) (hS : S ⊆ T)
    (k : Prog T β) : (p.lift hS >>= fun _ => k) = q.lift hS >>= fun _ => k := by
  rw [← h, lift_bind, bind_assoc]
  rfl

theorem deliver_recorded_erase (m : PendingMsg) (uid : Int) :
    (deliver_recorded m uid >>= fun _ => pure ()) = deliver m uid := by
  rw [deliver_recorded, deliver, bind_assoc]
  congr 1
  funext fd
  split
  · rw [bind_assoc]
    rfl
  · rw [bind_assoc]
    rfl

theorem mapM_erase {ι : Type} {f : ι → Prog S α} {g : ι → Prog S Unit}
    (h : ∀ i, (f i >>= fun _ => pure ()) = g i) (xs : List ι) :
    (xs.mapM f >>= fun _ => pure ()) = xs.forM g := by
  induction xs with
  | nil => rfl
  | cons x xs ih =>
    show _ = g x >>= fun _ => xs.forM g
    rw [List.mapM_cons, ← h, ← ih]
    simp only [bind_assoc, pure_bind]

theorem deliver_all_recorded_erase (m : PendingMsg) (uids : List Int) :
    (deliver_all_recorded m uids >>= fun _ => pure ()) = deliver_all m uids := by
  rw [deliver_all_recorded, bind_assoc]
  exact mapM_erase (deliver_recorded_erase m) uids

theorem direct_message_recorded_erase (recipientId : Int) (message : Bytes) :
    Prod.fst <$> direct_message_recorded pg fd me recipientId message
      = direct_message pg fd me recipientId message := by
  rw [direct_message_recorded, direct_message, map_eq_pure_bind]
  simp only [bind_assoc, pure_bind, bind_pure]
  congr 1
  funext ms
  congr 1
  funext _
  exact discard_lift (deliver_recorded_erase ..) _ _

theorem group_message_recorded_erase (gid : Int) (message : Bytes) :
    Prod.fst <$> group_message_recorded pg fd me gid message = group_message pg fd me gid message := by
  rw [group_message_recorded, group_message, map_eq_pure_bind, bind_assoc]
  congr 1
  funext members
  cases members with
  | none => simp only [bind_assoc, pure_bind, bind_pure]
  | some members =>
    simp only [bind_assoc, pure_bind, bind_pure]
    congr 1
    funext ts_ms
    congr 1
    funext _
    exact discard_lift (deliver_all_recorded_erase ..) _ _

theorem login_recorded_erase (payload : Bytes) :
    Prod.fst <$> login_recorded pg fd payload = login pg fd payload := by
  have hdeliver : ∀ username l, (login_deliver_recorded pg fd username l >>= fun _ => pure ())
      = login_deliver pg fd username l := by
    intro username l
    have hdrain := mapM_erase (f := fun m : PendingMsg => (do
        reply fd m.type m.payload m.fromUserId
        pure (l.uid, m) : Prog [.var .g_friends, .out] (Int × PendingMsg)))
      (g := fun m => reply fd m.type m.payload m.fromUserId)
      (fun m => by simp only [bind_assoc, pure_bind]; rfl) l.offlineMessages
    simp only [login_deliver_recorded, login_deliver, bind_assoc, ← hdrain]
  rw [login_recorded, login, map_eq_pure_bind, bind_assoc]
  congr 1
  funext session
  cases session with
  | none => rfl
  | some l =>
    simp only [bind_assoc, pure_bind, andNext]
    exact discard_lift (hdeliver ..) _ _

/-- **The record changes nothing.** -/
theorem perform_recorded_erase (rid : Int) (c : Command) :
    Prod.fst <$> perform_recorded pg fd me rid c = perform pg fd me rid c := by
  have hlift : ∀ {S : List Field} (p : Prog S (Outcome × Record)) (h : S ⊆ all_fields),
      Prod.fst <$> p.lift h = (Prod.fst <$> p).lift h := by
    intro S p h
    rw [map_eq_pure_bind, map_eq_pure_bind, lift_bind]
    rfl
  cases c with
  | login payload => rw [perform_recorded, hlift, login_recorded_erase, perform]
  | direct_message recipientId message =>
    rw [perform_recorded, hlift, direct_message_recorded_erase, perform]
  | group_message gid message =>
    rw [perform_recorded, hlift, group_message_recorded_erase, perform]
  | _ => simp only [perform_recorded, map_eq_pure_bind, bind_assoc, pure_bind, bind_pure]

end Erasure

/-! ## What is handed over, and what is queued -/

/-- The messages that wait for a user. -/
def ServerState.queue (s : ServerState) (uid : Int) : List PendingMsg := s.g_offline_messages.get uid

/-- Each user is handed its messages if it is online, and they are queued if it is not. -/
structure Handed (ms : Int → List PendingMsg) (s : ServerState) (record : Record) (s' : ServerState) :
    Prop where
  online : s'.g_online_clients = s.g_online_clients
  found : ∀ uid, s.online_fd uid ≠ -1 → record.to uid = ms uid ∧ s'.queue uid = s.queue uid
  missing : ∀ uid, s.online_fd uid = -1 → record.to uid = [] ∧ s'.queue uid = s.queue uid ++ ms uid

/-- The queues have only grown, and nobody has come online. -/
structure Appended (s s' : ServerState) : Prop where
  online : ∀ uid, s'.online_fd uid ≠ -1 → s.online_fd uid ≠ -1
  queue : ∀ uid, ∃ new, s'.queue uid = s.queue uid ++ new

/-- The operation only adds to the queues, and brings nobody online. -/
def Op.appends {β : Type} : Op β → Prop
  | .modify .g_online_clients f => ∀ m uid, (f m).find? uid = none ∨ (f m).find? uid = m.find? uid
  | .modify .g_offline_messages f => ∀ q uid, ∃ new, (f q).get uid = q.get uid ++ new
  | _ => True

section Relations

variable {S : List Field} {α β : Type} {R : α → Prop} {env : Env} {w : World} {s s' s'' : ServerState}
  {ms ms' : Int → List PendingMsg} {record record' : Record}

theorem Handed.refl (s : ServerState) : Handed (fun _ => []) s [] s :=
  ⟨rfl, fun _ _ => ⟨rfl, rfl⟩, fun _ _ => ⟨rfl, (List.append_nil _).symm⟩⟩

theorem Handed.trans (h : Handed ms s record s') (h' : Handed ms' s' record' s'') :
    Handed (fun uid => ms uid ++ ms' uid) s (record ++ record') s'' := by
  have hfd : ∀ uid, s'.online_fd uid = s.online_fd uid := fun uid => by
    rw [ServerState.online_fd, h.online, ServerState.online_fd]
  refine ⟨h'.online.trans h.online, fun uid hon => ?_, fun uid hoff => ?_⟩
  · obtain ⟨hrecord, hqueue⟩ := h.found uid hon
    obtain ⟨hrecord', hqueue'⟩ := h'.found uid (by rw [hfd]; exact hon)
    exact ⟨by rw [Record.to_append, hrecord, hrecord'], hqueue'.trans hqueue⟩
  · obtain ⟨hrecord, hqueue⟩ := h.missing uid hoff
    obtain ⟨hrecord', hqueue'⟩ := h'.missing uid (by rw [hfd]; exact hoff)
    exact ⟨by rw [Record.to_append, hrecord, hrecord']; rfl, by rw [hqueue', hqueue, List.append_assoc]⟩

theorem Handed.congr (h : Handed ms s record s') (hms : ∀ uid, ms uid = ms' uid) :
    Handed ms' s record s' := by
  rw [← funext hms]
  exact h

theorem Appended.refl (s : ServerState) : Appended s s :=
  ⟨fun _ => id, fun _ => ⟨[], (List.append_nil _).symm⟩⟩

theorem Appended.trans (h : Appended s s') (h' : Appended s' s'') : Appended s s'' := by
  refine ⟨fun uid hon => h.online uid (h'.online uid hon), fun uid => ?_⟩
  obtain ⟨new, hnew⟩ := h.queue uid
  obtain ⟨new', hnew'⟩ := h'.queue uid
  exact ⟨new ++ new', by rw [hnew', hnew, List.append_assoc]⟩

theorem Op.appends.exec {o : Op β} (ho : o.appends) (env : Env) (w : World) :
    Appended w.mem (o.exec env w).2.mem := by
  cases o with
  | modify x f =>
    cases x with
    | g_online_clients =>
      refine ⟨fun uid hon => ?_, (Appended.refl w.mem).queue⟩
      change ((f w.mem.g_online_clients).find? uid).getD (-1) ≠ -1 at hon
      rcases ho w.mem.g_online_clients uid with hgone | hsame
      · rw [hgone] at hon
        exact absurd rfl hon
      · rw [hsame] at hon
        exact hon
    | g_offline_messages => exact ⟨fun _ => id, ho _⟩
    | _ => exact ⟨fun _ => id, (Appended.refl w.mem).queue⟩
  | _ => exact .refl _

theorem Prog.Always.appended {p : Prog S α} (hp : p.Always Op.appends R) :
    Ensures env w p fun _ w' => Appended w.mem w'.mem :=
  hp.invariant (I := fun w' => Appended w.mem w'.mem) (fun _ w' ho hw' => hw'.trans (ho.exec env w'))
    (.refl w.mem)

theorem appends_of_footprint (p : Prog S α) (honline : .var .g_online_clients ∉ S)
    (hqueue : .var .g_offline_messages ∉ S) : p.Always Op.appends fun _ => True := by
  refine always_of_footprint p fun o ho => ?_
  cases o with
  | modify x f =>
    cases x with
    | g_online_clients => exact absurd (ho _ (by simp [Op.writes])) honline
    | g_offline_messages => exact absurd (ho _ (by simp [Op.writes])) hqueue
    | _ => trivial
  | _ => trivial

end Relations

/-! ## The cases that queue notices only -/

section Notices

variable (pg : Bool) (fd me : Int)

theorem deliver_appends (m : PendingMsg) (uid : Int) :
    (deliver m uid).Always Op.appends fun _ => True := by
  have hqueue : ∀ (q : UMap Int (List PendingMsg)) u, ∃ new,
      (q.update uid fun ms => ms ++ [m]).get u = q.get u ++ new := by
    intro q u
    rw [UMap.get_update]
    split
    · next hu => exact ⟨[m], by rw [hu]⟩
    · exact ⟨[], (List.append_nil _).symm⟩
  simpa [deliver, find_fd, enqueue_offline, Op.appends] using hqueue

theorem deliver_all_appends (m : PendingMsg) (uids : List Int) :
    (deliver_all m uids).Always Op.appends fun _ => True :=
  (always_forM ..).mpr ⟨fun uid _ => deliver_appends m uid, trivial⟩

theorem announce_appends (gid : Int) (sys : Prog [] Bytes) :
    (announce pg gid sys).Always Op.appends fun _ => True := by
  have hsys := appends_of_footprint sys (by simp) (by simp)
  refine Always.seq (by simp [Op.appends]) fun ts_ms => Always.seq ((always_lift ..).mpr hsys) fun text => ?_
  refine Always.seq ((always_when ..).mpr ⟨fun _ => ?_, trivial⟩) fun _ => ?_
  · exact Always.seq ((always_lift ..).mpr (appends_of_footprint _ (by simp) (by simp))) fun _ => trivial
  refine Always.seq ((always_lift ..).mpr (appends_of_footprint _ (by simp) (by simp))) fun members => ?_
  exact Always.seq ((always_lift ..).mpr (deliver_all_appends _ members)) fun _ => trivial

/-- Ending a session takes a user offline. -/
theorem go_offline_appends : (go_offline me).Always Op.appends fun _ => True := by
  simp only [go_offline, always_bind, always_locked, always_when, always_modify, always_lift]
  refine ⟨trivial, fun _ => ⟨fun m uid => ?_, trivial⟩, trivial, fun _ => ?_, trivial⟩
  · rw [UMap.find?_erase]
    split
    · exact .inl rfl
    · exact .inr rfl
  · exact appends_of_footprint _ (by simp) (by simp)

/-- **Every case but `REGISTER` and `LOGIN`** only adds to the queues, and brings nobody online. -/
theorem perform_appends (rid : Int) {c : Command} (hregister : ∀ payload, c ≠ .register payload)
    (hlogin : ∀ payload, c ≠ .login payload) :
    (perform pg fd me rid c).Always Op.appends fun _ => True := by
  cases c with
  | register payload => exact absurd rfl (hregister payload)
  | login payload => exact absurd rfl (hlogin payload)
  | logout =>
    rw [perform, always_lift, logout, always_bind]
    exact (go_offline_appends me).mono fun _ _ => by simp [Op.appends]
  | direct_message recipientId message =>
    simp [perform, direct_message, andNext, Op.appends, appends_of_footprint, deliver_appends]
  | create_group name memberIds =>
    have hannounce : ∀ name gid, (announce_group pg fd me name memberIds gid).Always Op.appends
        fun _ => True := fun name gid => by
      simp [announce_group, Op.appends, appends_of_footprint, announce_appends]
    rw [perform, always_lift]
    refine Always.seq ((always_lift ..).mpr (appends_of_footprint _ (by simp) (by simp)))
      fun name => (always_ite ..).mpr ⟨fun _ => ?_, fun _ => ?_⟩
    · refine Always.seq ((always_lift ..).mpr (appends_of_footprint _ (by simp [all_tables])
        (by simp [all_tables]))) fun gid => Always.seq ((always_lift ..).mpr (hannounce ..)) fun _ => trivial
    · refine Always.seq ((always_lift ..).mpr (appends_of_footprint _ (by simp) (by simp)))
        fun gid => Always.seq ((always_lift ..).mpr (hannounce ..)) fun _ => trivial
  | invite_to_group gid uid =>
    simp [perform, invite_to_group, andNext, Op.appends, appends_of_footprint, announce_appends]
  | rename_group gid newName =>
    simp [perform, handle_client.rename_group, andNext, Op.appends, appends_of_footprint,
      announce_appends, deliver_all_appends]
  | set_group_nickname gid uid nick =>
    simp [perform, handle_client.set_group_nickname, announce_nickname, andNext, Op.appends,
      appends_of_footprint, deliver_all_appends]
  | remove_from_group gid uid =>
    simp [perform, remove_from_group, andNext, Op.appends, appends_of_footprint, announce_appends,
      deliver_appends, deliver_all_appends]
  | make_admin gid uid =>
    simp [perform, make_admin, andNext, Op.appends, appends_of_footprint, announce_appends,
      deliver_all_appends]
  | group_message gid message =>
    rw [perform, always_lift]
    refine Always.seq ((always_lift ..).mpr (appends_of_footprint _ (by simp) (by simp)))
      fun members => ?_
    cases members with
    | none => simp [andNext, Op.appends]
    | some members => simp [andNext, Op.appends, appends_of_footprint, deliver_all_appends]
  | _ =>
    rw [perform, always_lift]
    exact appends_of_footprint _ (by simp [all_tables]) (by simp [all_tables])

end Notices

/-! ## The cases that hand messages over -/

section HandOver

variable {env : Env} {w : World} (fd me : Int)

theorem deliver_recorded_handed (m : PendingMsg) (uid : Int) :
    Ensures env w (deliver_recorded m uid) fun record w' =>
      Handed (fun u => if u = uid then [m] else []) w.mem record w'.mem := by
  by_cases hoff : w.mem.online_fd uid = -1
  · have hqueued : Ensures env w (deliver_recorded m uid) fun record w' => record = [] ∧
        w'.mem = { w.mem with g_offline_messages :=
          w.mem.g_offline_messages.update uid fun ms => ms ++ [m] } := by
      simp [Ensures, deliver_recorded, find_fd, enqueue_offline, hoff, Var.modify]
    refine hqueued.mono fun record w' h => ?_
    obtain ⟨rfl, hmem⟩ := h
    rw [hmem]
    have hqueue : ∀ u, (w.mem.g_offline_messages.update uid fun ms => ms ++ [m]).get u
        = w.mem.queue u ++ if u = uid then [m] else [] := by
      intro u
      rw [UMap.get_update]
      split
      · next hu => rw [hu, ServerState.queue]
      · exact (List.append_nil _).symm
    refine ⟨rfl, fun u hon => ?_, fun u _ => ⟨rfl, hqueue u⟩⟩
    have hu : u ≠ uid := by
      rintro rfl
      exact hon hoff
    rw [if_neg hu]
    refine ⟨rfl, ?_⟩
    have hother := hqueue u
    rw [if_neg hu, List.append_nil] at hother
    exact hother
  · have hfound : Ensures env w (deliver_recorded m uid) fun record w' =>
        record = [(uid, m)] ∧ w'.mem = w.mem := by
      simp [Ensures, deliver_recorded, find_fd, reply, hoff]
    refine hfound.mono fun record w' h => ?_
    obtain ⟨rfl, hmem⟩ := h
    rw [hmem]
    refine ⟨rfl, fun u _ => ⟨?_, rfl⟩, fun u hmissing => ?_⟩
    · by_cases hu : u = uid
      · simp [Record.to, hu]
      · simp [Record.to, hu, Ne.symm hu]
    · have hu : u ≠ uid := by
        rintro rfl
        exact hoff hmissing
      simp [Record.to, hu, Ne.symm hu]

/-- The fan-out loop: each member of the list is served once. -/
theorem deliver_all_recorded_handed (m : PendingMsg) {uids : List Int} (hnodup : uids.Nodup) :
    Ensures env w (deliver_all_recorded m uids) fun record w' =>
      Handed (fun u => if u ∈ uids then [m] else []) w.mem record w'.mem := by
  induction uids generalizing w with
  | nil => exact (Handed.refl w.mem).congr fun u => (if_neg List.not_mem_nil).symm
  | cons uid uids ih =>
    obtain ⟨hnotin, hrest⟩ := List.nodup_cons.mp hnodup
    have hcons : deliver_all_recorded m (uid :: uids) = (do
        let record ← deliver_recorded m uid
        let records ← deliver_all_recorded m uids
        pure (record ++ records)) := by
      simp only [deliver_all_recorded, List.mapM_cons, bind_assoc, pure_bind, List.flatten_cons]
    rw [hcons]
    refine (deliver_recorded_handed m uid).bind fun record w₁ h₁ => ?_
    refine (ih hrest).bind fun records w₂ h₂ => ensures_pure ?_
    refine (h₁.trans h₂).congr fun u => ?_
    by_cases hu : u = uid
    · rw [hu, if_pos rfl, if_neg hnotin, if_pos List.mem_cons_self]
      rfl
    · rw [if_neg hu]
      simp [hu]

theorem direct_message_recorded_handed (recipientId : Int) (message : Bytes) :
    Ensures env w (direct_message_recorded false fd me recipientId message) fun res w' =>
      res.1 = .next ∧ Handed (fun u => if u = recipientId then [direct_message_now env w me message]
        else []) w.mem res.2 w'.mem := by
  refine Ensures.bind (R := fun ms w₁ => ms = env.clock_ms w.ticks ∧ w₁.mem = w.mem) ⟨rfl, rfl⟩
    fun ms w₁ h₁ => ?_
  obtain ⟨rfl, hmem⟩ := h₁
  rw [← hmem]
  refine Ensures.bind (R := fun _ w₂ => w₂ = w₁) rfl fun _ w₂ h₂ => ?_
  subst h₂
  exact ((deliver_recorded_handed _ recipientId).lift _).bind fun record w₃ h₃ => ⟨rfl, h₃⟩

/-- The members a group message goes to, without a database. -/
theorem mem_recipients {s : ServerState} {gid u : Int} {g : Group} (hg : s.g_groups.find? gid = some g) :
    u ∈ g.members.keys.filter (· ≠ me) ↔ s.hasMember gid u ∧ u ≠ me := by
  rw [List.mem_filter, UMap.mem_keys, ← UMap.count_iff, ServerState.hasMember, hg]
  simp

theorem group_message_recorded_handed (gid : Int) (message : Bytes) :
    Ensures env w (group_message_recorded false fd me gid message) fun res w' => res.1 = .next ∧
      Handed (fun u => if w.mem.hasMember gid me ∧ w.mem.hasMember gid u ∧ u ≠ me then
        [group_message_frame me gid message (env.clock_ms w.ticks)] else []) w.mem res.2 w'.mem := by
  have hrecipients : Ensures env w (recipients false me gid) fun r w₁ => w₁ = w ∧
      r = if w.mem.hasMember gid me then
        (w.mem.g_groups.find? gid).map fun g => g.members.keys.filter (· ≠ me) else none := by
    simp [Ensures, recipients]
  refine (hrecipients.lift _).bind fun members w₁ h₁ => ?_
  obtain ⟨rfl, rfl⟩ := h₁
  by_cases hme : w₁.mem.hasMember gid me
  · cases hg : w₁.mem.g_groups.find? gid with
    | none => rw [ServerState.hasMember, hg] at hme; cases hme
    | some g =>
      rw [if_pos hme, Option.map_some]
      refine Ensures.bind (R := fun ms w₂ => ms = env.clock_ms w₁.ticks ∧ w₂.mem = w₁.mem) ⟨rfl, rfl⟩
        fun ms w₂ h₂ => ?_
      obtain ⟨rfl, hmem⟩ := h₂
      refine Ensures.bind (R := fun _ w₃ => w₃ = w₂) rfl fun _ w₃ h₃ => ?_
      subst h₃
      have hnodup : (g.members.keys.filter (· ≠ me)).Nodup := (UMap.keys_nodup _).filter _
      refine ((deliver_all_recorded_handed _ hnodup).lift _).bind fun record w₄ h₄ => ?_
      rw [hmem] at h₄
      have hms : ∀ u, (if u ∈ g.members.keys.filter (· ≠ me) then
            [group_message_frame me gid message (env.clock_ms w₁.ticks)] else [])
          = if w₁.mem.hasMember gid me ∧ w₁.mem.hasMember gid u ∧ u ≠ me then
            [group_message_frame me gid message (env.clock_ms w₁.ticks)] else [] := fun u =>
        if_congr (by rw [mem_recipients me hg]; simp [hme]) rfl rfl
      exact ⟨rfl, h₄.congr hms⟩
  · rw [if_neg hme]
    exact ⟨rfl, (Handed.refl w₁.mem).congr fun u => (if_neg fun h => hme h.1).symm⟩

/-- A `LOGIN` that is refused. -/
theorem login_recorded_refused {payload : Bytes} (hu : loginUser w payload = none) :
    Ensures env w (login_recorded false fd payload) fun res w' =>
      res.1 = .next ∧ res.2 = [] ∧ w'.mem = w.mem := by
  have hrefused : Ensures env w (login_session false fd payload) fun r w' => r = none ∧ w'.mem = w.mem := by
    have hpassword : (w.mem.g_users_by_name.find? (field payload "username")).map User.password_hash
        ≠ some (field payload "password") := by
      intro h
      obtain ⟨u, hfind, hpass⟩ := Option.map_eq_some_iff.mp h
      have hsome : loginUser w payload = some u := by
        rw [loginUser, hfind]
        simp [hpass]
      rw [hsome] at hu
      cases hu
    refine Ensures.locked (ensures_read (ensures_ite (fun _ => ?_) fun h => absurd hpassword h))
    exact ⟨rfl, rfl⟩
  refine (hrefused.lift _).bind fun session w₁ h₁ => ?_
  obtain ⟨rfl, hmem⟩ := h₁
  exact ⟨rfl, rfl, hmem⟩

/-- The drain hands over the queue, message by message. -/
theorem drain_recorded (uid : Int) (ms : List PendingMsg) :
    Ensures env w (ms.mapM fun m => do
      reply fd m.type m.payload m.fromUserId
      pure (uid, m) : Prog [.var .g_friends, .out] Record) fun record _ => record = ms.map (uid, ·) := by
  induction ms generalizing w with
  | nil => rfl
  | cons m ms ih =>
    rw [List.mapM_cons]
    refine Ensures.bind (R := fun e _ => e = (uid, m)) rfl fun e w₁ h₁ => ?_
    refine (ih (w := w₁)).bind fun record w₂ h₂ => ensures_pure ?_
    rw [h₁, h₂, List.map_cons]

/-- A `LOGIN` that is accepted takes the queue of its user and hands it over. -/
theorem login_recorded_accepted {payload : Bytes} {u : User} (hu : loginUser w payload = some u) :
    Ensures env w (login_recorded false fd payload) fun res w' =>
      res.1 = .next ∧ res.2 = (w.mem.queue u.id).map (u.id, ·) ∧
        w'.mem.g_online_clients = w.mem.g_online_clients.set u.id fd ∧
        w'.mem.g_offline_messages = w.mem.g_offline_messages.erase u.id := by
  have hdeliver : ∀ (w₁ : World) (l : Login),
      Ensures env w₁ (login_deliver_recorded false fd (field payload "username") l)
        fun record _ => record = l.offlineMessages.map (l.uid, ·) := by
    intro w₁ l
    refine Ensures.bind (R := fun _ _ => True) trivial fun _ w₂ _ => ?_
    refine Ensures.bind (R := fun _ _ => True) trivial fun _ w₃ _ => ?_
    refine Ensures.bind (R := fun _ _ => True) trivial fun _ w₄ _ => ?_
    refine Ensures.bind (R := fun _ _ => True) trivial fun _ w₅ _ => ?_
    exact drain_recorded fd l.uid l.offlineMessages
  refine ((login_session_accepted fd hu).lift _).bind fun session w₁ h₁ => ?_
  obtain ⟨rfl, rfl⟩ := h₁
  refine (((hdeliver _ _).and (ensures_frame _)).lift _).bind fun record w₂ h₂ => ensures_pure ?_
  exact ⟨rfl, h₂.1, h₂.2 (.var .g_online_clients) (by simp), h₂.2 (.var .g_offline_messages) (by simp)⟩

end HandOver

/-! ## Events -/

section Events

variable (env : Env) (w : World)

/-- The record of the handler that an event starts. -/
def Event.record (e : Event) : Record :=
  match e.command false w with
  | some (fd, rid, c) => ((perform_recorded false fd (w.session fd) rid c).run env w).1.2
  | none => []

/-- The chat messages that a command of `me` addresses to `uid`: a direct message to `uid`, or a message
of another member to a group that `uid` is in. -/
def Command.addressed (me uid : Int) : Command → List PendingMsg
  | .direct_message recipientId message =>
    if uid = recipientId then [direct_message_now env w me message] else []
  | .group_message gid message =>
    if w.mem.hasMember gid me ∧ w.mem.hasMember gid uid ∧ uid ≠ me then
      [group_message_frame me gid message (env.clock_ms w.ticks)] else []
  | _ => []

/-- The chat messages that an event addresses to `uid`. -/
def Event.addressed (e : Event) (uid : Int) : List PendingMsg :=
  match e.command false w with
  | some (fd, _, c) => c.addressed env w (w.session fd) uid
  | none => []

/-- A command that submits a chat message; what it queues is that message. -/
def Command.isChat : Command → Bool
  | .direct_message .. | .group_message .. => true
  | _ => false

def Event.isChat (e : Event) : Bool :=
  match e.command false w with
  | some (_, _, c) => c.isChat
  | none => false

/-- The user that a command logs in. -/
def Command.logsIn : Command → Option Int
  | .login payload => (loginUser w payload).map User.id
  | _ => none

def Event.logsIn (e : Event) : Option Int :=
  match e.command false w with
  | some (_, _, c) => c.logsIn w
  | none => none

/-- A command that enters a user into the table. -/
def Command.registers : Command → Bool
  | .register _ => true
  | _ => false

/-- The user table stays as it is. -/
def Event.registersNobody (e : Event) : Prop :=
  ∀ fd rid c, e.command false w = some (fd, rid, c) → c.registers = false

end Events

/-- What is known of one user: which of the messages in its queue are chat messages, and the chat messages
that it was handed so far. -/
structure Account where
  marks : List Bool
  received : List PendingMsg

/-- One more transition: new messages at the end of the queue are chat messages if a chat message was
submitted, and a login takes all marks away; what was handed over counts if it is the chat message
submitted, or has a mark. -/
def Account.enter (env : Env) (uid : Int) (a : Account) (t : Taken World Event) : Account where
  marks :=
    if t.event.logsIn t.before = some uid then []
    else a.marks ++ List.replicate
      ((t.after.mem.queue uid).length - (t.before.mem.queue uid).length) (t.event.isChat t.before)
  received := a.received ++
    if t.event.isChat t.before then (t.event.record env t.before).to uid
    else marked a.marks ((t.event.record env t.before).to uid)

section Steps

variable {env : Env} {w w' : World} {e : Event} {uid : Int} {a : Account} {addressed : List PendingMsg}

/-- The account of a user in a state agrees with what was addressed to it. -/
abbrev World.Accounted (w : World) (uid : Int) (a : Account) (addressed : List PendingMsg) : Prop :=
  ChatApp.Accounted (w.mem.online_fd uid ≠ -1) (w.mem.queue uid) a.marks a.received addressed

theorem accounted_of_notices (honline : w'.mem.online_fd uid ≠ -1 → w.mem.online_fd uid ≠ -1)
    (hqueue : ∃ new, w'.mem.queue uid = w.mem.queue uid ++ new) (h : w.Accounted uid a addressed)
    (hrecord : (e.record env w).to uid = []) (hchat : e.isChat w = false)
    (hlogin : e.logsIn w ≠ some uid) (haddressed : e.addressed env w uid = []) :
    w'.Accounted uid (a.enter env uid ⟨w, e, w'⟩) (addressed ++ e.addressed env w uid) := by
  obtain ⟨new, hnew⟩ := hqueue
  have hnotices := h.notices honline new
  rw [World.Accounted, Account.enter, if_neg hlogin, hchat, hrecord, haddressed, hnew]
  simpa using hnotices

theorem Handed.accounted {ms : Int → List PendingMsg}
    (hhanded : Handed ms w.mem (e.record env w) w'.mem) (h : w.Accounted uid a addressed)
    (hchat : e.isChat w = true) (hlogin : e.logsIn w ≠ some uid)
    (haddressed : e.addressed env w uid = ms uid) :
    w'.Accounted uid (a.enter env uid ⟨w, e, w'⟩) (addressed ++ e.addressed env w uid) := by
  have hfd : w'.mem.online_fd uid = w.mem.online_fd uid := by
    rw [ServerState.online_fd, hhanded.online, ServerState.online_fd]
  rw [World.Accounted, Account.enter, if_neg hlogin, hchat, haddressed, if_pos rfl]
  by_cases hoff : w.mem.online_fd uid = -1
  · obtain ⟨hrecord, hqueue⟩ := hhanded.missing uid hoff
    have hqueued : ChatApp.Accounted (w'.mem.online_fd uid ≠ -1) _ _ _ _ :=
      h.queued (by simp [hfd, hoff]) (ms uid)
    rw [hrecord, hqueue]
    simpa using hqueued
  · obtain ⟨hrecord, hqueue⟩ := hhanded.found uid hoff
    have hhanded : ChatApp.Accounted (w'.mem.online_fd uid ≠ -1) _ _ _ _ := h.handed hoff (ms uid)
    rw [hrecord, hqueue]
    simpa using hhanded

/-- The handler of a command is its recorded form without the record. -/
theorem perform_recorded_run (fd me rid : Int) (c : Command) :
    (perform false fd me rid c).run env w
      = (((perform_recorded false fd me rid c).run env w).1.1,
        ((perform_recorded false fd me rid c).run env w).2) := by
  rw [← perform_recorded_erase, run_map]

/-- The cleanup block takes its user offline. -/
theorem end_connection_appended (fd : Int) : Appended w.mem (end_connection env fd w).mem := by
  have hcleanup : (cleanup fd (w.session fd)).Always Op.appends fun _ => True := by
    rw [cleanup, always_bind, always_lift]
    exact (go_offline_appends _).mono fun _ _ => by simp [Op.appends]
  exact hcleanup.appended

theorem finish_appended (fd : Int) (res : Outcome × World) :
    Appended res.2.mem (finish env fd res).mem := by
  unfold finish
  split
  · exact end_connection_appended fd
  · exact .refl _

/-- An event without a command: nothing is addressed to anybody. -/
theorem accounted_of_no_command (hnone : e.command false w = none) (happended : Appended w.mem w'.mem)
    (h : w.Accounted uid a addressed) :
    w'.Accounted uid (a.enter env uid ⟨w, e, w'⟩) (addressed ++ e.addressed env w uid) := by
  refine accounted_of_notices (happended.online uid) (happended.queue uid) h ?_ ?_ ?_ ?_
  · rw [Event.record, hnone]
    rfl
  · rw [Event.isChat, hnone]
  · rw [Event.logsIn, hnone]
    simp
  · rw [Event.addressed, hnone]

/-- A chat message: it is handed over or queued. -/
theorem accounted_of_chat {fd rid : Int} {c : Command} (hcommand : e.command false w = some (fd, rid, c))
    (hchat : e.isChat w = true) (hlogin : e.logsIn w = none)
    (hhanded : Ensures env w (perform_recorded false fd (w.session fd) rid c) fun res w' =>
      res.1 = .next ∧ Handed (fun u => c.addressed env w (w.session fd) u) w.mem res.2 w'.mem)
    (h : w.Accounted uid a addressed) :
    (finish env fd ((perform false fd (w.session fd) rid c).run env w)).Accounted uid
      (a.enter env uid ⟨w, e, finish env fd ((perform false fd (w.session fd) rid c).run env w)⟩)
      (addressed ++ e.addressed env w uid) := by
  obtain ⟨hnext, hhanded⟩ := hhanded
  have hfinish : finish env fd ((perform false fd (w.session fd) rid c).run env w)
      = ((perform_recorded false fd (w.session fd) rid c).run env w).2 := by
    rw [perform_recorded_run, finish, if_neg (by simp [hnext])]
  have hrecord : e.record env w
      = ((perform_recorded false fd (w.session fd) rid c).run env w).1.2 := by
    rw [Event.record, hcommand]
  rw [hfinish]
  rw [← hrecord] at hhanded
  refine hhanded.accounted h hchat (by simp [hlogin]) ?_
  rw [Event.addressed, hcommand]

/-- A `LOGIN`: its user is handed the queue. -/
theorem accounted_of_login {fd rid : Int} {payload : Bytes}
    (hcommand : e.command false w = some (fd, rid, .login payload)) (h : w.Accounted uid a addressed) :
    (finish env fd ((perform false fd (w.session fd) rid (.login payload)).run env w)).Accounted uid
      (a.enter env uid
        ⟨w, e, finish env fd ((perform false fd (w.session fd) rid (.login payload)).run env w)⟩)
      (addressed ++ e.addressed env w uid) := by
  have hrecord : e.record env w = ((login_recorded false fd payload).run env w).1.2 := by
    rw [Event.record, hcommand]
    show ((perform_recorded false fd (w.session fd) rid (.login payload)).run env w).1.2 = _
    rw [perform_recorded, run_lift]
  have hchat : e.isChat w = false := by rw [Event.isChat, hcommand]; rfl
  have haddressed : e.addressed env w uid = [] := by rw [Event.addressed, hcommand]; rfl
  have hlogin : e.logsIn w = (loginUser w payload).map User.id := by rw [Event.logsIn, hcommand]; rfl
  have hfinish : ∀ (hnext : ((login_recorded false fd payload).run env w).1.1 = .next),
      finish env fd ((perform false fd (w.session fd) rid (.login payload)).run env w)
        = ((login_recorded false fd payload).run env w).2 := by
    intro hnext
    rw [perform_recorded_run, perform_recorded, run_lift, finish, if_neg (by simp [hnext])]
  cases hu : loginUser w payload with
  | none =>
    have hrefused : Ensures env w _ _ := login_recorded_refused fd hu
    obtain ⟨hnext, hnothing, hmem⟩ := hrefused
    rw [hfinish hnext]
    refine accounted_of_notices (by rw [hmem]; exact id) ⟨[], ?_⟩ h ?_ hchat ?_ haddressed
    · rw [hmem, List.append_nil]
    · rw [hrecord, hnothing, Record.to_nil]
    · rw [hlogin, hu]
      simp
  | some u =>
    have haccepted : Ensures env w _ _ := login_recorded_accepted fd hu
    obtain ⟨hnext, hqueue, honline, hoffline⟩ := haccepted
    rw [hfinish hnext]
    rw [hqueue] at hrecord
    by_cases huid : uid = u.id
    · -- the user who logs in
      subst huid
      have hto : (e.record env w).to u.id = w.mem.queue u.id := by
        rw [hrecord, Record.to, List.filter_map, List.map_map]
        simp
      have hempty : ((login_recorded false fd payload).run env w).2.mem.queue u.id = [] := by
        rw [ServerState.queue, hoffline, UMap.get_erase, if_pos rfl]
        rfl
      have hdrained : ChatApp.Accounted
          (((login_recorded false fd payload).run env w).2.mem.online_fd u.id ≠ -1) _ _ _ _ := h.drained
      rw [World.Accounted, Account.enter, if_pos (by rw [hlogin, hu]; rfl), hchat, hto, haddressed,
        hempty, List.append_nil, if_neg Bool.false_ne_true]
      exact hdrained
    · -- another user
      refine accounted_of_notices (fun hon => ?_) ⟨[], ?_⟩ h ?_ hchat ?_ haddressed
      · rw [ServerState.online_fd, honline, UMap.find?_set, if_neg huid] at hon
        exact hon
      · rw [ServerState.queue, hoffline, UMap.get_erase, if_neg huid, List.append_nil, ServerState.queue]
      · rw [hrecord, Record.to, List.filter_map, List.map_map]
        simp [Ne.symm huid]
      · rw [hlogin, hu]
        simpa using Ne.symm huid

/-- **Every step** of the server keeps every account in order, if it registers nobody. -/
theorem Server.Move.accounted (move : Server.Move false env w e w') (hnobody : e.registersNobody w)
    (h : w.Accounted uid a addressed) :
    w'.Accounted uid (a.enter env uid ⟨w, e, w'⟩) (addressed ++ e.addressed env w uid) := by
  cases move with
  | accepted fd valid unused => exact accounted_of_no_command rfl (.refl _) h
  | hungup fd me opened => exact accounted_of_no_command rfl (end_connection_appended fd) h
  | refused fd me r opened invalid =>
    have hanswer : (invalid_header fd).Always Op.appends fun _ => True := by
      simp [invalid_header, Op.appends]
    refine accounted_of_no_command (by simp [Event.command, invalid]) ?_ h
    exact Appended.trans hanswer.appended (end_connection_appended fd)
  | performed fd me rid r c opened command =>
    obtain rfl : w.session fd = me := UMap.get_of_find? opened
    have hnotices : (∀ payload, c ≠ .register payload) → (∀ payload, c ≠ .login payload) →
        Appended w.mem (finish env fd ((perform false fd (w.session fd) rid c).run env w)).mem :=
      fun hregister hlogin =>
        Appended.trans (perform_appends false fd _ rid hregister hlogin).appended (finish_appended fd _)
    have hrecord : Event.record env w (.request fd r)
        = ((perform_recorded false fd (w.session fd) rid c).run env w).1.2 := by
      rw [Event.record, command]
    have haddressed : Event.addressed env w (.request fd r) uid = c.addressed env w (w.session fd) uid := by
      rw [Event.addressed, command]
    have hchat : Event.isChat w (.request fd r) = c.isChat := by rw [Event.isChat, command]
    have hlogin : Event.logsIn w (.request fd r) = c.logsIn w := by rw [Event.logsIn, command]
    cases c with
    | register payload => exact absurd (hnobody fd rid _ command) (by simp [Command.registers])
    | login payload => exact accounted_of_login command h
    | direct_message recipientId message =>
      refine accounted_of_chat command hchat hlogin ?_ h
      exact Ensures.lift (direct_message_recorded_handed ..) (by decide)
    | group_message gid message =>
      refine accounted_of_chat command hchat hlogin ?_ h
      exact Ensures.lift (group_message_recorded_handed ..) (by decide)
    | _ =>
      have happended := hnotices (fun _ h => Command.noConfusion h) fun _ h => Command.noConfusion h
      refine accounted_of_notices (happended.online uid) (happended.queue uid) h ?_ hchat ?_ haddressed
      · rw [hrecord]
        simp only [perform_recorded, run_bind]
        rfl
      · simp [hlogin, Command.logsIn]

end Steps

/-! ## Runs -/

end ChatApp
