/-
`Framing.lean` -- what a client receives when several handlers write to its socket.

`send_message` writes a frame with two calls of `send_all` and holds no lock between
them. A connection is written to by the handler that owns it and by the handlers of
every user who sends it something, so the two halves of one frame can have another
frame's bytes between them, and then the client's stream is no sequence of frames
any more. It is one as long as nobody writes while another thread is between
its header and its payload.
-/
import ChatApp.Pool
import ChatApp.Protocol
import Mathlib.Data.List.Permutation

set_option autoImplicit false

namespace ChatApp

namespace Framing

/-! ## The socket and its writers -/

/-- One `send_all` on a socket. Either the whole buffer is written, or it fails after
some number of bytes. -/
def socket {β : Type} : Option Nat → SendAll β → Bytes → β × Bytes
  | none, .send_all buf, stream => (true, stream ++ buf)
  | some n, .send_all buf, stream => (false, stream ++ buf.take n)

/-- A thread that makes these calls of `send_message`, one after another. It
returns whether all of them, and those before, returned true. -/
def send_messages : Bool → List Call → Program SendAll Bool
  | sent, [] => pure sent
  | sent, c :: cs => send_message c >>= fun ok => send_messages (sent && ok) cs

/-- The second half of `send_message`. -/
def send_payload (c : Call) : Program SendAll Bool := do
  let sent_payload ← Program.perform (.send_all c.payload)
  if sent_payload = false then pure false else pure true

theorem send_messages_cons (sent : Bool) (c : Call) (cs : List Call) :
    send_messages sent (c :: cs) = .op (.send_all c.header) fun ok =>
      (if ok = false then pure false else if c.payload = [] then pure true else send_payload c)
        >>= fun ok => send_messages (sent && ok) cs := rfl

/-- The thread that makes these calls has written the header of one of them and not
its payload. -/
def MidFrame (calls : List Call) (p : Program SendAll Bool) : Prop :=
  ∃ (c : Call) (rest : List Call) (sent : Bool), c :: rest <:+ calls ∧ c.payload ≠ [] ∧
    p = send_payload c >>= fun ok => send_messages (sent && ok) rest

/-- An event of the pool: the thread that writes, and how its `send_all` ends. -/
abbrev Write : Type := Nat × Option Nat

/-- No thread other than the one that writes is between its header and its payload. -/
def Exclusive (threads : List (List Call)) (pool : Pool SendAll Bool Bytes) (e : Write) : Prop :=
  ∀ j calls p, j ≠ e.1 → threads[j]? = some calls → pool.1[j]? = some p → ¬MidFrame calls p

/-- The threads as they start, in front of an empty stream. -/
def start (threads : List (List Call)) : Pool SendAll Bool Bytes :=
  (threads.map (send_messages true), [])

/-- An interleaving of the threads' writes. -/
abbrev Writes (C : Pool SendAll Bool Bytes → Write → Prop) (threads : List (List Call))
    (tr : List (Taken (Pool SendAll Bool Bytes) Write)) (pool : Pool SendAll Bool Bytes) : Prop :=
  Run (Pool.step socket) C (start threads) tr pool

/-- Every call of every thread has returned true. -/
def AllSent (pool : Pool SendAll Bool Bytes) : Prop := ∀ p ∈ pool.1, p = pure true

/-- The whole frames of these calls, in this order. -/
def frames (calls : List Call) : Bytes := (calls.map Call.frame).flatten

/-- The stream is a concatenation of whole frames, one for each call. -/
def WholeFrames (threads : List (List Call)) (stream : Bytes) : Prop :=
  ∃ calls : List Call, calls.Perm threads.flatten ∧ stream = frames calls

/-! ## Where a thread is -/

/-- The number of writes a thread has left if all of them succeed. -/
def writesLeft {α : Type} : Program SendAll α → Nat
  | .pure _ => 0
  | .op (.send_all _) k => writesLeft (k true) + 1

/-- The number of writes of a list of calls. -/
def writesOf (calls : List Call) : Nat :=
  (calls.map fun c => if c.payload = [] then 1 else 2).sum

theorem writesLeft_send_messages (sent : Bool) (calls : List Call) :
    writesLeft (send_messages sent calls) = writesOf calls := by
  induction calls generalizing sent with
  | nil => rfl
  | cons c cs ih =>
    by_cases hc : c.payload = []
    · have hp : writesLeft (send_messages sent (c :: cs))
          = writesLeft (send_messages (sent && true) cs) + 1 := by
        simp [send_messages_cons, writesLeft, hc]
      rw [hp, ih, writesOf, writesOf, List.map_cons, List.sum_cons, if_pos hc, Nat.add_comm]
    · have hp : writesLeft (send_messages sent (c :: cs))
          = writesLeft (send_messages (sent && true) cs) + 1 + 1 := by
        simp [send_messages, send_message, Program.perform, writesLeft, hc, bind, Program.bind, pure]
      rw [hp, ih, writesOf, writesOf, List.map_cons, List.sum_cons, if_neg hc]
      omega

/-- The condition says what it should: a thread between two calls is not between a
header and a payload, whatever the bytes are. -/
theorem boundary_not_midFrame {calls rest : List Call} (h : rest <:+ calls) (sent : Bool) :
    ¬MidFrame calls (send_messages sent rest) := by
  rintro ⟨c, rest', sent', hsuffix, hc, heq⟩
  -- The number of writes left tells the two apart: no suffix of the calls has as many
  -- as the payload of `c` and the calls after it.
  have hleft : writesOf rest = writesOf rest' + 1 := by
    rw [← writesLeft_send_messages sent rest, heq, ← writesLeft_send_messages (sent' && true) rest']
    rfl
  rcases List.suffix_or_suffix_of_suffix h hsuffix with hle | hle
  · rcases List.suffix_cons_iff.mp hle with rfl | hle'
    · rw [writesOf, List.map_cons, List.sum_cons, if_neg hc, ← writesOf] at hleft
      omega
    · obtain ⟨before, rfl⟩ := hle'
      simp only [writesOf, List.map_append, List.sum_append] at hleft
      omega
  · obtain ⟨before, rfl⟩ := hle
    simp only [writesOf, List.map_append, List.map_cons, List.sum_append, List.sum_cons,
      if_neg hc] at hleft
    omega

/-- A thread no call of which has failed: at a boundary, or between a header and a
payload. -/
inductive Thread where
  | boundary (rest : List Call)
  | midFrame (c : Call) (payload : c.payload ≠ []) (rest : List Call)

namespace Thread

/-- What remains of the thread's program. -/
def program : Thread → Program SendAll Bool
  | boundary rest => send_messages true rest
  | midFrame c _ rest => send_payload c >>= fun ok => send_messages (true && ok) rest

/-- The call whose header has been written and whose payload has not. -/
def mid : Thread → Option Call
  | boundary _ => none
  | midFrame c _ _ => some c

/-- The calls whose frames are not complete. -/
def pending : Thread → List Call
  | boundary rest => rest
  | midFrame c _ rest => c :: rest

/-- A thread that has returned true has made all its calls. -/
theorem eq_boundary_nil {t : Thread} (h : t.program = pure true) : t = boundary [] := by
  cases t with
  | boundary rest =>
    cases rest with
    | nil => rfl
    | cons c cs => cases h
  | midFrame c payload rest => cases h

end Thread

/-- A thread with the list of all its calls, of which the pending ones are the end. -/
structure Writer where
  calls : List Call
  thread : Thread
  suffix : thread.pending <:+ calls

/-- A writer that is not in the middle of a frame is at a boundary. -/
theorem Writer.mid_none {w : Writer} (h : ¬MidFrame w.calls w.thread.program) :
    w.thread.mid = none := by
  obtain ⟨calls, t, hsuffix⟩ := w
  cases t with
  | boundary rest => rfl
  | midFrame c payload rest => exact absurd ⟨c, rest, true, hsuffix, payload, rfl⟩ h

/-! ## The invariant -/

/-- A thread one of whose calls has failed can no longer return true. -/
theorem send_messages_false (cs : List Call) : (send_messages false cs).Returns (· = false) := by
  induction cs with
  | nil => rfl
  | cons c cs ih =>
    refine Program.surely_bind.mpr (Program.surely_of_forall fun ok => ?_)
    rw [Bool.false_and]
    exact ih

/-- Some call has failed. -/
def Failed (pool : Pool SendAll Bool Bytes) : Prop := ∃ p ∈ pool.1, p.Returns (· = false)

/-- No call has failed: the stream is the frames that are complete and the lone headers,
and every call is either complete or pending. -/
def Framed (threads : List (List Call)) (pool : Pool SendAll Bool Bytes) : Prop :=
  ∃ (ws : List Writer) (done : List Call),
    threads = ws.map Writer.calls ∧ pool.1 = ws.map (fun w => w.thread.program) ∧
      pool.2 = frames done ++ ((ws.filterMap fun w => w.thread.mid).map Call.header).flatten ∧
      (done ++ ws.flatMap fun w => w.thread.pending).Perm threads.flatten

/-- A writer at the start of its calls. -/
def Writer.start (calls : List Call) : Writer := ⟨calls, .boundary calls, List.suffix_rfl⟩

theorem framed_start (threads : List (List Call)) : Framed threads (start threads) := by
  refine ⟨threads.map Writer.start, [], ?_, ?_, ?_, ?_⟩
  · simp [Writer.start, Function.comp_def]
  · simp [start, Writer.start, Thread.program, Function.comp_def]
  · simp [start, Writer.start, Thread.mid, frames, Function.comp_def]
  · rw [List.nil_append, List.flatMap_map]
    exact .of_eq List.flatMap_id'

/-- The writers other than the one that writes, none of them in the middle of a
frame. -/
structure Others (threads : List (List Call)) (pool : Pool SendAll Bool Bytes) (w : Writer)
    (done : List Call) where
  before : List Writer
  after : List Writer
  quiet : ∀ x ∈ before ++ after, x.thread.mid = none
  threads_eq : threads = (before ++ w :: after).map Writer.calls
  stream_eq : pool.2 = frames done ++ (w.thread.mid.toList.map Call.header).flatten
  perm : (done ++ (before ++ w :: after).flatMap fun w => w.thread.pending).Perm threads.flatten

namespace Others

variable {threads : List (List Call)} {pool : Pool SendAll Bool Bytes} {w : Writer}
  {done : List Call}

/-- The lone headers are those of one writer, once it has moved to `t`. -/
theorem filterMap_mid (o : Others threads pool w done) (x : Writer) :
    (o.before ++ x :: o.after).filterMap (fun w => w.thread.mid) = x.thread.mid.toList := by
  have hb : o.before.filterMap (fun w => w.thread.mid) = [] :=
    List.filterMap_eq_nil_iff.mpr fun y hy => o.quiet y (List.mem_append_left _ hy)
  have ha : o.after.filterMap (fun w => w.thread.mid) = [] :=
    List.filterMap_eq_nil_iff.mpr fun y hy => o.quiet y (List.mem_append_right _ hy)
  rw [List.filterMap_append, List.filterMap_cons, hb, ha]
  cases x.thread.mid <;> rfl

/-- Moving the writer leaves every thread's list of calls as it is. -/
theorem threads_move (o : Others threads pool w done) {x : Writer} (hx : x.calls = w.calls) :
    threads = (o.before ++ x :: o.after).map Writer.calls := by
  refine o.threads_eq.trans ?_
  rw [List.map_append, List.map_append, List.map_cons, List.map_cons, hx]

/-- The writer's header is out. -/
theorem framed_header (o : Others threads pool w done) {c : Call} {cs : List Call}
    (hw : w.thread = .boundary (c :: cs)) (hc : c.payload ≠ []) :
    Framed threads (o.before.map (fun w => w.thread.program)
      ++ (send_payload c >>= fun ok => send_messages (true && ok) cs)
        :: o.after.map (fun w => w.thread.program), pool.2 ++ c.header) := by
  have hsuffix := w.suffix
  rw [hw] at hsuffix
  let x : Writer := ⟨w.calls, .midFrame c hc cs, hsuffix⟩
  refine ⟨o.before ++ x :: o.after, done, o.threads_move rfl, ?_, ?_, ?_⟩
  · rw [List.map_append]
    rfl
  · rw [o.filterMap_mid x, o.stream_eq, hw]
    simp [x, Thread.mid]
  · refine .trans (.of_eq ?_) o.perm
    rw [List.flatMap_append, List.flatMap_append, List.flatMap_cons, List.flatMap_cons, hw]
    rfl

/-- The writer has written the rest of the frame of `c`. -/
theorem framed_complete (o : Others threads pool w done) (buf : Bytes) {c : Call} {cs : List Call}
    (hpending : w.thread.pending = c :: cs)
    (hframe : (w.thread.mid.toList.map Call.header).flatten ++ buf = c.frame) :
    Framed threads (o.before.map (fun w => w.thread.program) ++ send_messages true cs
      :: o.after.map (fun w => w.thread.program), pool.2 ++ buf) := by
  have hsuffix := w.suffix
  rw [hpending] at hsuffix
  let x : Writer := ⟨w.calls, .boundary cs, (List.suffix_cons c cs).trans hsuffix⟩
  refine ⟨o.before ++ x :: o.after, done ++ [c], o.threads_move rfl, ?_, ?_, ?_⟩
  · rw [List.map_append]
    rfl
  · rw [o.filterMap_mid x, o.stream_eq, List.append_assoc, hframe]
    simp [x, Thread.mid, frames]
  · refine .trans ?_ o.perm
    rw [List.flatMap_append, List.flatMap_append, List.flatMap_cons, List.flatMap_cons, hpending]
    simp only [List.append_assoc]
    refine List.Perm.append_left done ?_
    show (c :: (_ ++ (cs ++ _))).Perm (_ ++ c :: (cs ++ _))
    exact List.perm_middle.symm

end Others

/-- When only one thread may write, the others are at a boundary. -/
theorem others_of_exclusive {threads : List (List Call)} {pool : Pool SendAll Bool Bytes}
    {e : Write} (hI : Framed threads pool) (hC : Exclusive threads pool e)
    {before after : List (Program SendAll Bool)} {p : Program SendAll Bool}
    (hpool : pool.1 = before ++ p :: after) (he : e.1 = before.length) :
    ∃ (w : Writer) (done : List Call) (o : Others threads pool w done),
      w.thread.program = p ∧ before = o.before.map (fun w => w.thread.program) ∧
        after = o.after.map fun w => w.thread.program := by
  obtain ⟨ws, done, hthreads, hprograms, hstream, hperm⟩ := hI
  obtain ⟨wb, wr, rfl, hb, hr⟩ := List.map_eq_append_iff.mp (hprograms.symm.trans hpool)
  obtain ⟨w, wa, rfl, hw, ha⟩ := List.map_eq_cons_iff.mp hr
  have hlen : e.1 = wb.length := by rw [he, ← hb, List.length_map]
  -- Every other writer stands at an index other than that of the event.
  have hquiet : ∀ x ∈ wb ++ wa, x.thread.mid = none := by
    intro x hx
    have hindex : ∃ j, j ≠ e.1 ∧ (wb ++ w :: wa)[j]? = some x := by
      rcases List.mem_append.mp hx with hx | hx
      · obtain ⟨j, hj, hget⟩ := List.mem_iff_getElem.mp hx
        refine ⟨j, by omega, ?_⟩
        rw [List.getElem?_append_left hj, List.getElem?_eq_getElem hj, hget]
      · obtain ⟨j, hj, hget⟩ := List.mem_iff_getElem.mp hx
        refine ⟨wb.length + (j + 1), by omega, ?_⟩
        rw [List.getElem?_append_right (by omega), Nat.add_sub_cancel_left,
          List.getElem?_cons_succ, List.getElem?_eq_getElem hj, hget]
    obtain ⟨j, hj, hget⟩ := hindex
    refine Writer.mid_none (hC j x.calls x.thread.program hj ?_ ?_)
    · rw [hthreads, List.getElem?_map, hget]
      rfl
    · rw [hprograms, List.getElem?_map, hget]
      rfl
  have hmid : (wb ++ w :: wa).filterMap (fun w => w.thread.mid) = w.thread.mid.toList := by
    have hwb : wb.filterMap (fun w => w.thread.mid) = [] :=
      List.filterMap_eq_nil_iff.mpr fun y hy => hquiet y (List.mem_append_left _ hy)
    have hwa : wa.filterMap (fun w => w.thread.mid) = [] :=
      List.filterMap_eq_nil_iff.mpr fun y hy => hquiet y (List.mem_append_right _ hy)
    rw [List.filterMap_append, List.filterMap_cons, hwb, hwa]
    cases w.thread.mid <;> rfl
  rw [hmid] at hstream
  exact ⟨w, done, ⟨wb, wa, hquiet, hthreads, hstream, hperm⟩, hw, hb.symm, ha.symm⟩

/-- A failed call stays failed. -/
theorem failed_step {pool pool' : Pool SendAll Bool Bytes} {e : Write} (hI : Failed pool)
    (hs : Pool.step socket pool e = some pool') : Failed pool' := by
  obtain ⟨β, o, k, before, after, hpool, -, rfl⟩ := Pool.step_cases hs
  obtain ⟨p, hp, hfalse⟩ := hI
  rw [hpool] at hp
  rcases List.mem_append.mp hp with hp | hp
  · exact ⟨p, List.mem_append_left _ hp, hfalse⟩
  rcases List.mem_cons.mp hp with rfl | hp
  · exact ⟨_, List.mem_append_right _ List.mem_cons_self, hfalse.op _⟩
  · exact ⟨p, List.mem_append_right _ (List.mem_cons_of_mem _ hp), hfalse⟩

/-- **One write.** -/
theorem framed_step {threads : List (List Call)} {pool pool' : Pool SendAll Bool Bytes} {e : Write}
    (hI : Framed threads pool) (hC : Exclusive threads pool e)
    (hs : Pool.step socket pool e = some pool') : Framed threads pool' ∨ Failed pool' := by
  obtain ⟨β, o, k, before, after, hpool, he, rfl⟩ := Pool.step_cases hs
  obtain ⟨w, done, others, hw, rfl, rfl⟩ := others_of_exclusive hI hC hpool he
  cases ht : w.thread with
  | boundary rest =>
    cases rest with
    | nil =>
      rw [ht] at hw
      cases hw
    | cons c cs =>
      rw [ht, Thread.program, send_messages_cons] at hw
      cases hw
      cases e.2 with
      | some n =>
        -- the header was not written
        exact .inr ⟨_, List.mem_append_right _ List.mem_cons_self, send_messages_false cs⟩
      | none =>
        by_cases hc : c.payload = []
        · have hpending : w.thread.pending = c :: cs := by rw [ht]; rfl
          have hmove := others.framed_complete c.header hpending
            (by rw [ht]; simp [Thread.mid, Call.frame, hc])
          refine .inl ?_
          simpa [socket, hc] using hmove
        · have hmove := others.framed_header ht hc
          refine .inl ?_
          simpa [socket, hc] using hmove
  | midFrame c payload rest =>
    rw [ht] at hw
    cases hw
    cases e.2 with
    | some n => exact .inr ⟨_, List.mem_append_right _ List.mem_cons_self, send_messages_false rest⟩
    | none =>
      refine .inl ?_
      have hpending : w.thread.pending = c :: rest := by rw [ht]; rfl
      exact others.framed_complete c.payload hpending
        (by rw [ht]; simp [Thread.mid, Call.frame])

theorem not_failed_of_allSent {pool : Pool SendAll Bool Bytes} (h : AllSent pool) :
    ¬Failed pool := by
  rintro ⟨p, hp, hfalse⟩
  rw [h p hp] at hfalse
  exact absurd hfalse (by intro h'; cases h')

/-- When every call has returned, nothing is pending. -/
theorem wholeFrames_of_framed {threads : List (List Call)} {pool : Pool SendAll Bool Bytes}
    (hI : Framed threads pool) (h : AllSent pool) : WholeFrames threads pool.2 := by
  obtain ⟨ws, done, -, hprograms, hstream, hperm⟩ := hI
  have hboundary : ∀ w ∈ ws, w.thread = .boundary [] := by
    intro w hw
    refine Thread.eq_boundary_nil (h _ ?_)
    rw [hprograms]
    exact List.mem_map_of_mem hw
  have hmid : (ws.filterMap fun w => w.thread.mid) = [] := by
    refine List.filterMap_eq_nil_iff.mpr fun w hw => ?_
    rw [hboundary w hw]
    rfl
  have hpending : (ws.flatMap fun w => w.thread.pending) = [] := by
    refine List.flatMap_eq_nil_iff.mpr fun w hw => ?_
    rw [hboundary w hw]
    rfl
  refine ⟨done, ?_, ?_⟩
  · rw [hpending, List.append_nil] at hperm
    exact hperm
  · rw [hstream, hmid]
    exact List.append_nil _

/-! ## The result -/

/-- **The stream is whole frames**, in every interleaving in which no thread writes while
another is between its header and its payload: once every call has returned true, the
stream is a concatenation of frames, one for each call. -/
theorem stream_whole_frames {threads : List (List Call)}
    {tr : List (Taken (Pool SendAll Bool Bytes) Write)} {pool : Pool SendAll Bool Bytes}
    (run : Writes (Exclusive threads) threads tr pool) (sent : AllSent pool) :
    WholeFrames threads pool.2 := by
  have hI : Framed threads pool ∨ Failed pool := by
    refine run.invariant (I := fun pool => Framed threads pool ∨ Failed pool)
      (.inl (framed_start threads)) fun x e y hx hC hs => ?_
    rcases hx with hx | hx
    · exact framed_step hx hC hs
    · exact .inr (failed_step hx hs)
  exact wholeFrames_of_framed (hI.resolve_right (not_failed_of_allSent sent)) sent

/-- Two calls to one client: the reply to its own request, and a notice about a
friend. -/
def ownReply : Call := ⟨0xF0, str "count=0", 1, 0⟩

def notice : Call := ⟨0x40, str "userId=2", 2, 0⟩

theorem allSent_pair (stream : Bytes) : AllSent ([pure true, pure true], stream) := by
  intro p hp
  rcases List.mem_pair.mp hp with rfl | rfl <;> rfl

/-- The two in turn. -/
theorem stream_whole_frames_in_turn :
    WholeFrames [[ownReply], [notice]] (ownReply.frame ++ notice.frame) := by
  have first : ∀ pool o, pool.1[1]? = some (send_messages true [notice]) →
      Exclusive [[ownReply], [notice]] pool (0, o) := by
    intro pool o hp j calls p hj hcalls hget
    match j with
    | 0 => exact absurd rfl hj
    | 1 =>
      cases hcalls
      cases hp.symm.trans hget
      exact boundary_not_midFrame List.suffix_rfl true
    | _ + 2 => cases hcalls
  have second : ∀ pool o, pool.1[0]? = some (send_messages true []) →
      Exclusive [[ownReply], [notice]] pool (1, o) := by
    intro pool o hp j calls p hj hcalls hget
    match j with
    | 0 =>
      cases hcalls
      cases hp.symm.trans hget
      exact boundary_not_midFrame List.nil_suffix true
    | 1 => exact absurd rfl hj
    | _ + 2 => cases hcalls
  have run : Writes (Exclusive [[ownReply], [notice]]) [[ownReply], [notice]] _
      ([pure true, pure true], ownReply.frame ++ notice.frame) :=
    .snoc (.snoc (.snoc (.snoc (.nil _) (first _ none rfl) rfl) (first _ none rfl) rfl)
      (second _ none rfl) rfl) (second _ none rfl) rfl
  exact stream_whole_frames run (allSent_pair _)

/-- **Without that condition it is not**: two threads write their headers, and then
their payloads. -/
theorem stream_not_whole_frames :
    ¬∀ threads tr pool, Writes (fun _ _ => True) threads tr pool → AllSent pool →
      WholeFrames threads pool.2 := by
  intro claim
  have hexec : Run.exec (Pool.step socket) (start [[ownReply], [notice]])
      [(0, none), (1, none), (0, none), (1, none)] = some ([pure true, pure true],
        ownReply.header ++ notice.header ++ ownReply.payload ++ notice.payload) := rfl
  obtain ⟨tr, run, -⟩ := Run.of_exec hexec
  obtain ⟨calls, hperm, hstream⟩ := claim _ _ _ run (allSent_pair _)
  -- The two threads have one call each, so there are two orders to try.
  rcases List.perm_pair.mp hperm with rfl | rfl
  · exact absurd hstream (by decide)
  · exact absurd hstream (by decide)

end Framing

end ChatApp
