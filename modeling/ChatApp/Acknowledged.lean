/-
`Acknowledged.lean` -- what becomes of a message whose write fails, without a database.

`send_message` reports whether the whole frame was written, and every handler drops the report.
`DIRECT_MESSAGE` answers `SUCCESS` either way, and `LOGIN` has erased the queue before it writes the
first message of it. So a message is safe exactly when the write it depends on succeeds. Which write
that is can be said beforehand: every question to the environment is a tick, and without a database the
handlers ask for the clock and for writes only.
-/
import ChatApp.Server

set_option autoImplicit false

namespace ChatApp

open Prog handle_client

/-! ## Writing, tick by tick -/

/-- The frame carries the message. -/
def Frame.carries (f : Frame) (m : PendingMsg) : Prop :=
  f.type = m.type ∧ f.payload = m.payload ∧ f.userId = m.fromUserId

/-- The frames of the messages of a queue, written to `fd` from tick `n` on. -/
def Env.frames (env : Env) (fd : Int) : Nat → List PendingMsg → List Frame
  | _, [] => []
  | n, m :: ms =>
    ⟨fd, m.type, m.payload, m.fromUserId, !env.send_fails n⟩ :: env.frames fd (n + 1) ms

/-- From `w` to `w'` nothing was asked of the environment but `n` writes. -/
def Wrote (n : Nat) (w w' : World) : Prop :=
  ∃ new : List Frame, new.length = n ∧ w'.out = w.out ++ new ∧ w'.ticks = w.ticks + n

section Wrote

variable {S : List Field} {env : Env} {w w' w'' : World} {m n : Nat}

theorem length_frames (fd : Int) (n : Nat) (ms : List PendingMsg) :
    (env.frames fd n ms).length = ms.length := by
  induction ms generalizing n with
  | nil => rfl
  | cons m ms ih => simp only [Env.frames, List.length_cons, ih]

/-- The `i`-th message of the queue is written at tick `n + i`. -/
theorem getElem?_frames (fd : Int) (n : Nat) (ms : List PendingMsg) (i : Nat) :
    (env.frames fd n ms)[i]? = ms[i]?.map fun m =>
      ⟨fd, m.type, m.payload, m.fromUserId, !env.send_fails (n + i)⟩ := by
  induction ms generalizing n i with
  | nil => rfl
  | cons m ms ih =>
    cases i with
    | zero => rfl
    | succ i =>
      rw [Env.frames, List.getElem?_cons_succ, List.getElem?_cons_succ, ih]
      have hticks : n + 1 + i = n + (i + 1) := by omega
      rw [hticks]

theorem Wrote.refl (w : World) : Wrote 0 w w := ⟨[], rfl, (List.append_nil _).symm, rfl⟩

theorem Wrote.trans (h : Wrote m w w') (h' : Wrote n w' w'') : Wrote (m + n) w w'' := by
  obtain ⟨new, hlength, hout, hticks⟩ := h
  obtain ⟨new', hlength', hout', hticks'⟩ := h'
  refine ⟨new ++ new', ?_, ?_, ?_⟩
  · rw [List.length_append, hlength, hlength']
  · rw [hout', hout, List.append_assoc]
  · omega

theorem reply_wrote (fd : Int) (type : MessageType) (payload : Bytes) (userId : UInt32)
    (h : .out ∈ S) :
    Ensures env w (reply fd type payload userId h : Prog S Unit) fun _ w' =>
      Wrote 1 w w' ∧ w'.mem = w.mem :=
  ⟨⟨[⟨fd, type, payload, userId, !env.send_fails w.ticks⟩], rfl, rfl, rfl⟩, rfl⟩

/-- Writing a queue. -/
theorem reply_all_ensures (fd : Int) (ms : List PendingMsg) (h : .out ∈ S) :
    Ensures env w (ms.forM fun m => reply fd m.type m.payload m.fromUserId h : Prog S Unit)
      fun _ w' => w'.out = w.out ++ env.frames fd w.ticks ms := by
  induction ms generalizing w with
  | nil => exact (List.append_nil _).symm
  | cons m ms ih =>
    have hrest : Ensures env _ _ _ := ih (w := ((reply fd m.type m.payload m.fromUserId h :
      Prog S Unit).run env w).2)
    refine Ensures.bind (R := fun _ w' => w' = ((reply fd m.type m.payload m.fromUserId h :
      Prog S Unit).run env w).2) rfl fun _ w' hw' => ?_
    subst hw'
    refine hrest.mono fun _ w'' hout => ?_
    rw [hout]
    simp [reply, Env.frames]

end Wrote

/-! ## `DIRECT_MESSAGE` -/

section Direct

variable (env : Env) (w : World) (fd me rid recipientId : Int) (message : Bytes)

/-- The message a `DIRECT_MESSAGE` carries to the recipient: its time is the clock's at the start. -/
def direct_message_now : PendingMsg :=
  direct_message_frame me message (env.clock_ms w.ticks / 1000 * 1000)

/-- A `DIRECT_MESSAGE` that is answered with `SUCCESS` has been written completely to the recipient's
connection, or added to its queue. -/
def DirectKept : Prop :=
  let w' := ((perform false fd me rid (.direct_message recipientId message)).run env w).2
  let new := w'.out.drop w.out.length
  (∃ f ∈ new, f.fd = fd ∧ f.type = .SUCCESS) →
    (∃ f ∈ new, w.mem.g_online_clients.find? recipientId = some f.fd ∧
        f.carries (direct_message_now env w me message) ∧ f.sent = true) ∨
      w'.mem.g_offline_messages.get recipientId
        = w.mem.g_offline_messages.get recipientId ++ [direct_message_now env w me message]

/-- `DIRECT_MESSAGE` to a user who is offline. -/
theorem direct_message_offline (hoff : w.mem.online_fd recipientId = -1) :
    Ensures env w (direct_message false fd me recipientId message) fun _ w' =>
      w'.mem.g_offline_messages.get recipientId
        = w.mem.g_offline_messages.get recipientId ++ [direct_message_now env w me message] := by
  simp [Ensures, direct_message, deliver, find_fd, enqueue_offline, reply, andNext, hoff,
    direct_message_now, Var.modify]

/-- `DIRECT_MESSAGE` to a user who is online. -/
theorem direct_message_online {target_fd : Int}
    (hfd : w.mem.online_fd recipientId = target_fd) (hon : target_fd ≠ -1) :
    Ensures env w (direct_message false fd me recipientId message) fun _ w' =>
      w'.mem = w.mem ∧
        w'.out = w.out ++ [⟨target_fd, .DIRECT_MESSAGE,
          (direct_message_now env w me message).payload, u32 me, !env.send_fails (w.ticks + 1)⟩,
          ⟨fd, .SUCCESS, str "Message sent", u32 me, !env.send_fails (w.ticks + 2)⟩] := by
  simp [Ensures, direct_message, deliver, find_fd, reply, andNext, hfd, hon, direct_message_now,
    direct_message_frame]

/-- **An acknowledged message is kept** if and only if the recipient is offline or the write to it
succeeds. -/
theorem directKept_iff : DirectKept env w fd me rid recipientId message ↔
    w.mem.online_fd recipientId = -1 ∨ env.send_fails (w.ticks + 1) = false := by
  unfold DirectKept
  rw [perform, run_lift]
  by_cases hoff : w.mem.online_fd recipientId = -1
  · exact iff_of_true (fun _ => .inr (direct_message_offline env w fd me recipientId message hoff))
      (.inl hoff)
  · have honline : ∃ target_fd, w.mem.g_online_clients.find? recipientId = some target_fd ∧
        w.mem.online_fd recipientId = target_fd := by
      cases hfind : w.mem.g_online_clients.find? recipientId with
      | none => exact absurd (by rw [ServerState.online_fd, hfind]; rfl) hoff
      | some target_fd => exact ⟨target_fd, rfl, by rw [ServerState.online_fd, hfind]; rfl⟩
    obtain ⟨target_fd, hfind, hfd⟩ := honline
    obtain ⟨hmem, hout⟩ :=
      direct_message_online env w fd me recipientId message hfd (by rw [← hfd]; exact hoff)
    dsimp only
    rw [hout, List.drop_left, hmem]
    constructor
    · intro hkept
      right
      rcases hkept ⟨_, List.mem_cons_of_mem _ List.mem_cons_self, rfl, rfl⟩ with ⟨f, hf, -, hcarries, hsent⟩ | hqueue
      · simp only [List.mem_cons, List.not_mem_nil, or_false] at hf
        rcases hf with rfl | rfl
        · simpa using hsent
        · -- the answer is no copy of the message
          exact absurd hcarries.1 (by simp [direct_message_now, direct_message_frame])
      · exact absurd hqueue (by simp)
    · intro hcond _
      have hsends := hcond.resolve_left hoff
      refine .inl ⟨_, List.mem_cons_self, hfind, ⟨rfl, rfl, rfl⟩, ?_⟩
      simp [hsends]

end Direct

/-! ## `LOGIN` -/

/-- The friends a status notice about `uid` is written to. -/
def ServerState.notified (s : ServerState) (uid : Int) : List Int :=
  (((s.g_friends.get uid).toList.filter fun e => e.2).map Prod.fst).filter fun fid =>
    s.online_fd fid ≠ -1

section Login

variable {env : Env} {w : World} (fd : Int)

/-- The notice to one friend: a write if the friend is online. -/
theorem notice_wrote (uid fid : Int) (online : Bool) :
    Ensures env w (do
      let fd ← find_fd fid
      when (fd ≠ -1) (reply fd (if online then .USER_ONLINE else .USER_OFFLINE)
        (serialize_kv [(str "userId", to_string uid)]) (u32 uid)) : Prog status_writes Unit)
      fun _ w' => w'.mem = w.mem ∧ Wrote (if w.mem.online_fd fid ≠ -1 then 1 else 0) w w' := by
  have hfind : Ensures env w (find_fd fid : Prog status_writes Int) fun fd w' =>
      fd = w.mem.online_fd fid ∧ w' = w := by
    simp [Ensures, find_fd]
  refine hfind.bind fun fd w₁ h₁ => ?_
  obtain ⟨rfl, rfl⟩ := h₁
  refine ensures_when (fun hon => ?_) fun hoff => ?_
  · rw [if_pos (of_decide_eq_true hon)]
    exact (reply_wrote _ _ _ _ _).mono fun _ _ h => ⟨h.2, h.1⟩
  · rw [if_neg (of_decide_eq_false hoff)]
    exact ⟨rfl, Wrote.refl w₁⟩

/-- The status notice is one write for each friend who is online. -/
theorem notify_friends_wrote (uid : Int) (online : Bool) :
    Ensures env w (notify_friends_status_change uid online) fun _ w' =>
      Wrote (w.mem.notified uid).length w w' := by
  have hfriends : Ensures env w (locked do
      modify .g_friends fun g => g.touch uid
      read fun s => ((s.g_friends.get uid).toList.filter fun e => e.2).map Prod.fst :
        Prog status_writes (List Int)) fun friends w₁ =>
      friends = ((w.mem.g_friends.get uid).toList.filter fun e => e.2).map Prod.fst ∧
        w₁.mem.g_online_clients = w.mem.g_online_clients ∧ Wrote 0 w w₁ :=
    Ensures.locked (ensures_modify ⟨by simp [Var.modify], rfl, Wrote.refl w⟩)
  refine hfriends.bind fun friends w₁ h₁ => ?_
  obtain ⟨hfriends, honline, hwrote⟩ := h₁
  -- nothing on the way changes who is online
  refine Ensures.mono (R := fun _ w₂ => w₂.mem = w₁.mem ∧
    Wrote (friends.filter fun fid => w.mem.online_fd fid ≠ -1).length w₁ w₂) ?_ fun _ w' h => ?_
  · refine Prog.run_forM env w₁ (I := fun (done : List Int) w₂ => w₂.mem = w₁.mem ∧
      Wrote (done.filter fun fid => w.mem.online_fd fid ≠ -1).length w₁ w₂)
      ⟨rfl, Wrote.refl w₁⟩ ?_
    intro done fid w₂ _ hI
    obtain ⟨hmem, hdone⟩ := hI
    have hone : Ensures env w₂ _ _ := notice_wrote uid fid online
    obtain ⟨hmem', hnotice⟩ := hone
    refine ⟨hmem'.trans hmem, ?_⟩
    have hfd : w₂.mem.online_fd fid = w.mem.online_fd fid := by
      rw [ServerState.online_fd, hmem, honline, ServerState.online_fd]
    rw [hfd] at hnotice
    have hlength : ((done ++ [fid]).filter fun fid => w.mem.online_fd fid ≠ -1).length
        = (done.filter fun fid => w.mem.online_fd fid ≠ -1).length
          + (if w.mem.online_fd fid ≠ -1 then 1 else 0) := by
      by_cases hoff : w.mem.online_fd fid = -1 <;> simp [hoff]
    rw [hlength]
    exact hdone.trans hnotice
  · have hnotified := hwrote.trans h.2
    rw [Nat.zero_add, hfriends] at hnotified
    exact hnotified

/-- The notices of pending requests are one write each. -/
theorem pending_requests_wrote (froms : List Int) :
    Ensures env w (froms.forM (send_pending_request fd)) fun _ w' => Wrote froms.length w w' := by
  induction froms generalizing w with
  | nil => exact Wrote.refl w
  | cons a froms ih =>
    have hfirst : Ensures env w (send_pending_request fd a) fun _ w' => Wrote 1 w w' := by
      refine Ensures.bind (R := fun _ w₁ => w₁ = w) ?_ fun name w₁ h₁ => ?_
      · simp [Ensures]
      · subst h₁
        exact (reply_wrote fd _ _ _ _).mono fun _ w' h => h.1
    refine hfirst.bind fun _ w₁ h₁ => (ih (w := w₁)).mono fun _ w' h => ?_
    rw [List.length_cons, Nat.add_comm]
    exact h₁.trans h

/-- The write of the first queued message, when `uid` logs in on `fd`: the answer, the friends and the
pending requests come before it. -/
def drain_tick (w : World) (fd uid : Int) : Nat :=
  let s := { w.mem with g_online_clients := w.mem.g_online_clients.set uid fd }
  w.ticks + 1 + (s.notified uid).length + (s.g_friend_requests.get uid).length

/-- The critical section of a `LOGIN` that is accepted: it takes the queue. -/
theorem login_session_accepted {payload : Bytes} {u : User} (hu : loginUser w payload = some u) :
    Ensures env w (login_session false fd payload) fun r w' =>
      r = some ⟨u.id, w.mem.g_friend_requests.get u.id, w.mem.g_offline_messages.get u.id⟩ ∧
        w' = { w with
          mem := { w.mem with
            g_online_clients := w.mem.g_online_clients.set u.id fd
            g_offline_messages := w.mem.g_offline_messages.erase u.id }
          conns := w.conns.set fd u.id } := by
  obtain ⟨hfind, hpassword⟩ := Option.filter_eq_some_iff.mp hu
  rw [Ensures, login_session, run_locked]
  simp [hfind, of_decide_eq_true hpassword, mark_online, login_pending, Var.modify]

/-- The rest of it: the queue is written last, and nothing is queued. -/
theorem login_deliver_frames (username : Bytes) (l : Login) :
    Ensures env w (login_deliver false fd username l) fun _ w' =>
      w'.mem.g_offline_messages = w.mem.g_offline_messages ∧ ∃ before : List Frame,
        w'.out = before ++ env.frames fd
          (w.ticks + 1 + (w.mem.notified l.uid).length + l.pendingRequests.length)
          l.offlineMessages := by
  refine (ensures_frame _).and ?_ |>.mono fun _ w' h => ⟨h.1 (.var .g_offline_messages) (by simp), h.2⟩
  refine (reply_wrote fd _ _ _ _).bind fun _ w₁ h₁ => ?_
  refine (notify_friends_wrote l.uid true).bind fun _ w₂ h₂ => ?_
  refine ((pending_requests_wrote fd l.pendingRequests).lift _).bind fun _ w₃ h₃ => ?_
  refine Ensures.bind (R := fun _ w₄ => w₄ = w₃) rfl fun _ w₄ h₄ => ?_
  subst h₄
  refine (reply_all_ensures fd l.offlineMessages _).mono fun _ w' hout => ⟨w₄.out, ?_⟩
  rw [h₁.2] at h₂
  obtain ⟨_, -, -, hticks⟩ := (h₁.1.trans h₂).trans h₃
  rw [hout, hticks, Nat.add_assoc, Nat.add_assoc, Nat.add_assoc]

end Login

section Drain

variable (env : Env) (w : World) (fd : Int)

/-- A `LOGIN` that drains the queue of its user writes it as its last frames, and keeps every message
whose write failed. -/
def DrainKeeps (me rid : Int) (payload : Bytes) : Prop :=
  let w' := ((perform false fd me rid (.login payload)).run env w).2
  ∀ u, loginUser w payload = some u →
    let queue := w.mem.g_offline_messages.get u.id
    ∀ (i : Nat) (m : PendingMsg), queue[i]? = some m → ∃ f : Frame,
      (w'.out.drop (w'.out.length - queue.length))[i]? = some f ∧ f.fd = fd ∧ f.carries m ∧
      (f.sent = false → m ∈ w'.mem.g_offline_messages.get u.id)

/-- **A drained message is kept** if and only if no write of the queue fails. -/
theorem drainKeeps_iff (me rid : Int) (payload : Bytes) : DrainKeeps env w fd me rid payload ↔
    ∀ u, loginUser w payload = some u → ∀ i < (w.mem.g_offline_messages.get u.id).length,
      env.send_fails (drain_tick w fd u.id + i) = false := by
  unfold DrainKeeps
  refine forall_congr' fun u => forall_congr' fun hu => ?_
  have hlogin : Ensures env w (login false fd payload) fun _ w' =>
      w'.mem.g_offline_messages.get u.id = [] ∧ ∃ before : List Frame, w'.out = before ++
        env.frames fd (drain_tick w fd u.id) (w.mem.g_offline_messages.get u.id) := by
    refine ((login_session_accepted fd hu).lift _).bind fun r w₁ h₁ => ?_
    obtain ⟨rfl, rfl⟩ := h₁
    refine ((login_deliver_frames fd _ _).lift _).bind fun _ w' h => ensures_pure ⟨?_, h.2⟩
    rw [h.1]
    show (w.mem.g_offline_messages.erase u.id).get u.id = []
    rw [UMap.get_erase, if_pos rfl]
    rfl
  rw [perform, run_lift]
  obtain ⟨hqueue, before, hout⟩ := hlogin
  dsimp only
  rw [hout, hqueue, List.length_append, length_frames, Nat.add_sub_cancel, List.drop_left]
  constructor
  · intro hkeeps i hi
    obtain ⟨f, hf, -, -, hsent⟩ := hkeeps i _ (List.getElem?_eq_getElem hi)
    rw [getElem?_frames, List.getElem?_eq_getElem hi] at hf
    have hframe := Option.some.inj hf
    have htrue : f.sent = true := by
      by_contra hfalse
      exact absurd (hsent (by simpa using hfalse)) List.not_mem_nil
    rw [← hframe] at htrue
    simpa using htrue
  · intro hsends i m hm
    have hi : i < (w.mem.g_offline_messages.get u.id).length :=
      (List.getElem?_eq_some_iff.mp hm).1
    refine ⟨_, by rw [getElem?_frames, hm]; rfl, rfl, ⟨rfl, rfl, rfl⟩, fun hsent => ?_⟩
    simp [hsends i hi] at hsent

end Drain

/-! ## Both -/

/-- **When an acknowledged direct message is kept**, in every state and for every outcome of the writes:
a `DIRECT_MESSAGE` keeps it exactly when the recipient is offline or the write to it succeeds, and a
`LOGIN` keeps what it drains exactly when no write of the queue fails. -/
theorem acknowledged_kept (env : Env) (w : World) (fd me rid recipientId : Int)
    (message payload : Bytes) :
    (DirectKept env w fd me rid recipientId message ↔
      w.mem.online_fd recipientId = -1 ∨ env.send_fails (w.ticks + 1) = false) ∧
    (DrainKeeps env w fd me rid payload ↔
      ∀ u, loginUser w payload = some u → ∀ i < (w.mem.g_offline_messages.get u.id).length,
        env.send_fails (drain_tick w fd u.id + i) = false) :=
  ⟨directKept_iff env w fd me rid recipientId message, drainKeeps_iff env w fd me rid payload⟩

/-- Nothing fails but the write at tick `n`. -/
def Env.failing (n : Nat) : Env := { Env.calm with send_fails := fun m => decide (m = n) }

/-- **An acknowledged message can be lost** both ways: user 2 is online and the write to it fails, and
user 2 is offline and the write of its queue fails when it logs in. -/
theorem acknowledged_lost :
    (¬∀ env w fd me rid recipientId message, Reachable false env w →
      DirectKept env w fd me rid recipientId message) ∧
    ¬∀ env w fd me rid payload, Reachable false env w → DrainKeeps env w fd me rid payload := by
  constructor
  · intro claim
    have hrun : (Run.exec (Server.step false (Env.failing 3)) (World.new Tables.empty) two_users).map
        (fun w => (w.mem.online_fd 2, w.ticks)) = some (6, 2) := by decide
    obtain ⟨w, hreach, hw⟩ := reachable_of_exec (World.new_fresh Tables.empty_valid) rfl hrun
    obtain ⟨honline, hticks⟩ := Prod.mk.inj hw
    rcases (directKept_iff _ w 5 1 1 2 (str "hi")).mp (claim _ w 5 1 1 2 (str "hi") hreach) with
      hoff | hsends
    · rw [honline] at hoff
      cases hoff
    · rw [hticks] at hsends
      cases hsends
  · intro claim
    have hrun : (Run.exec (Server.step false (Env.failing 5)) (World.new Tables.empty)
        (two_users ++ [.hangup 6, .send 5 .DIRECT_MESSAGE "recipientId=2&message=hi",
          .accept 6])).map (fun w => decide ((loginUser w (str "username=b&password=x")).map User.id
            = some 2 ∧ (w.mem.g_offline_messages.get 2).length = 1 ∧ drain_tick w 6 2 = 5))
        = some true := by decide
    obtain ⟨w, hreach, hw⟩ := reachable_of_exec (World.new_fresh Tables.empty_valid) rfl hrun
    obtain ⟨huser, hqueue, htick⟩ := of_decide_eq_true hw
    obtain ⟨u, hu, hid⟩ := Option.map_eq_some_iff.mp huser
    have hsends := (drainKeeps_iff _ w 6 0 0 (str "username=b&password=x")).mp
      (claim _ w 6 0 0 _ hreach) u hu 0
    rw [hid, hqueue, htick] at hsends
    exact absurd (hsends (by decide)) (by decide)

end ChatApp
