/-
`Network.lean` -- phones and server at the two ends of their connections, over bytes and over messages.

The network is written once, over any `Transport`: the phones send and receive, and the threads of the server take
turns at every operation. `send_message` writes a header and then a payload, and holds no lock between the two.
Whatever else is written to the connection there breaks its stream for good (`Framing.lean`), so the bytes are messages
in the runs in which nothing is (`Adjacent`); and in a run over messages every frame can be written to its end.

Each of the two writes is in one piece. One that fails leaves nothing on the stream: it fails because the connection is
gone.
-/
import ChatApp.Simulation
import ChatApp.Threads
import ChatApp.Transport

set_option autoImplicit false

namespace ChatApp

/-! ## The network -/

/-- The call of `send_message` that a frame stands for; `ts` is the time that `write_header` puts down. -/
def Frame.call (f : Frame) (ts : UInt64) : Call := ⟨f.type.toByte, f.payload, f.userId, ts⟩

/-- The server, the connections by their descriptors, and the frames that are begun. -/
structure Network {L : Type} (T : Transport L) : Type 1 where
  server : Threads
  links : Int → L
  /-- What the handler of a connection has still to write of a frame, and to which connection. -/
  sending : Int → Option (Int × T.Part)

namespace Network

/-- What happens next, at one of the ends. -/
inductive Event {L : Type} (T : Transport L) where
  | accept (fd : Int)
  /-- The phone on `fd` sends what `createMessage` builds. -/
  | submit (fd : Int) (c : Call)
  /-- The handler of `fd` reads a frame. -/
  | read (fd : Int) (cut : T.Cut)
  /-- The `i`th handler gets its turn. -/
  | advance (i : Nat)
  /-- The handler of `fd` writes what remains of the frame that it has begun. -/
  | write (fd : Int)
  /-- `recv` returns something to the phone on `fd`. -/
  | receive (fd : Int) (cut : T.Cut)
  | hangup (fd : Int)

/-- What can be seen of the two ends: what is sent, and what is handled in which session. -/
inductive Observed where
  | submitted (fd : Int) (c : Call)
  | handled (fd me : Int) (r : Request)

/-- The frame that the server sends when it goes on from `s` to `s'`, if it sends one. -/
def sent_frame (s s' : Threads) : Option Frame := s'.world.out[s.world.out.length]?

section Sent

variable {pg : Bool} {env : Env} {s t : Threads}

theorem out_of_exec {β : Type} (o : Op β) (env : Env) (w : World) :
    (o.exec env w).2.out = w.out ∨ ∃ f, (o.exec env w).2.out = w.out ++ [f] := by
  cases o with
  | send => exact .inr ⟨_, rfl⟩
  | _ => exact .inl rfl

/-- A step sends no more than one frame. -/
theorem out_of_step {e : Concurrent.Event} (h : Threads.step pg env s e = some t) :
    t.world.out = s.world.out ++ (sent_frame s t).toList := by
  suffices hout : t.world.out = s.world.out ∨ ∃ f, t.world.out = s.world.out ++ [f] by
    rcases hout with hout | ⟨f, hout⟩
    · simp [sent_frame, hout]
    · simp [sent_frame, hout]
  cases e with
  | advance i =>
    obtain ⟨⟨fd, prog⟩, -, ht⟩ := Option.bind_eq_some_iff.mp h
    unfold Threads.turn at ht
    cases prog with
    | pure out =>
      cases Option.some.inj ht
      exact .inl rfl
    | op o k =>
      dsimp only at ht
      split at ht
      · cases ht
      · cases Option.some.inj ht
        exact out_of_exec o.1 env s.world
  | accept fd | request fd r | hangup fd =>
    obtain ⟨t', ht', rfl⟩ := Option.map_eq_some_iff.mp h
    exact .inl (Threads.world_of_start (I := fun w => w.out = s.world.out) ht' (fun i he => by cases he)
      (fun _ _ hw => hw) rfl)

/-- Frames are only added. -/
theorem prefix_of_step {e : Concurrent.Event} (h : Threads.step pg env s e = some t) : s.world.out <+: t.world.out :=
  ⟨_, (out_of_step h).symm⟩

end Sent

section Steps

variable {L : Type} (T : Transport L) (pg : Bool) (env : Env) (stamp : Nat → UInt64)

/-- The handler of `fd` begins a frame to `dest`. -/
def begin_frame (net : Network T) (fd dest : Int) (c : Call) : Network T where
  server := net.server
  links := Function.update net.links dest (T.write (T.parts c).1 (net.links dest))
  sending := Function.update net.sending fd ((T.parts c).2.map fun rest => (dest, rest))

/-- The handler of `fd` has gone on, and the server to `s`. A frame that it sends is begun. -/
def carry (net : Network T) (fd : Int) (s : Threads) : Network T :=
  match sent_frame net.server s with
  | some f =>
    if f.sent then begin_frame T { net with server := s } fd f.fd (f.call (stamp net.server.world.out.length))
    else { net with server := s }
  | none => { net with server := s }

/-- What becomes of the network; `none` when that cannot happen next. A descriptor that is used again stands for a
new connection, and a handler goes on when the frame that it has begun is written. -/
def step (net : Network T) : Event T → Option (Network T)
  | .accept fd => (Threads.step pg env net.server (.accept fd)).map fun s =>
    { net with server := s, links := Function.update net.links fd T.fresh }
  | .submit fd c => some { net with links := Function.update net.links fd (T.submit c (net.links fd)) }
  | .read fd cut => (T.read cut (net.links fd)).bind fun x =>
    (Threads.step pg env net.server (.request fd x.1)).map fun s =>
      { net with server := s, links := Function.update net.links fd x.2 }
  | .advance i => net.server.handlers[i]?.bind fun h =>
    if (net.sending h.fd).isSome then none
    else (Threads.step pg env net.server (.advance i)).map (net.carry T stamp h.fd)
  | .write fd => (net.sending fd).map fun x =>
    { net with links := Function.update net.links x.1 (T.write x.2 (net.links x.1)),
               sending := Function.update net.sending fd none }
  | .receive fd cut => (T.receive cut (net.links fd)).map fun l => { net with links := Function.update net.links fd l }
  | .hangup fd => (Threads.step pg env net.server (.hangup fd)).map fun s => { net with server := s }

/-- What a transition shows. -/
def observed (t : Taken (Network T) (Event T)) : List Observed :=
  match t.event with
  | .submit fd c => [.submitted fd c]
  | .read fd cut =>
    ((T.read cut (t.before.links fd)).map fun x => .handled fd (t.before.server.world.session fd) x.1).toList
  | _ => []

/-- Everything that is sent is of a size that both ends can handle. -/
def Sized (net : Network T) (e : Event T) : Prop :=
  (∀ fd c, e = .submit fd c → c.Small) ∧
    ∀ net', net.step T pg env stamp e = some net' → ∀ f ∈ net'.server.world.out, (f.call 0).Small

/-- Some handler has begun a frame to `dest`, and has not finished it. -/
def MidFrame (net : Network T) (dest : Int) : Prop := ∃ fd rest, net.sending fd = some (dest, rest)

/-- Every frame that was begun is written to its end. -/
def Whole (net : Network T) : Prop := ∀ fd, net.sending fd = none

/-- No handler begins a frame to a connection to which another has an unfinished one, and such a connection is not
closed and its descriptor used again. -/
def Adjacent (net : Network T) : Event T → Prop
  | .accept fd => ¬net.MidFrame T fd
  | .advance i => ∀ s, Threads.step pg env net.server (.advance i) = some s →
    ∀ f, sent_frame net.server s = some f → ¬net.MidFrame T f.fd
  | _ => True

/-- What the bytes need to be messages. -/
structure Orderly (net : Network T) (e : Event T) : Prop where
  sized : net.Sized T pg env stamp e
  adjacent : net.Adjacent T pg env e

/-- A run of the network. -/
abbrev Run (C : Network T → Event T → Prop) : Network T → List (Taken (Network T) (Event T)) → Network T → Prop :=
  ChatApp.Run (step T pg env stamp) C

/-- The server accepts connections, and there is none. -/
def start (w : World) : Network T := ⟨Threads.quiet w, fun _ => T.fresh, fun _ => none⟩

end Steps

/-! ## The frames that are begun -/

section Sending

variable {sending : Int → Option (Int × Bytes)} {fd dest dest' : Int} {missing : Bytes}

/-- The bytes that are missing of the last frame to `dest`: none, or those that one handler has still to write. -/
def Unfinished (sending : Int → Option (Int × Bytes)) (dest : Int) (missing : Bytes) : Prop :=
  (missing = [] ∧ ∀ fd rest, sending fd ≠ some (dest, rest)) ∨
    ∃ fd, sending fd = some (dest, missing) ∧ ∀ fd' rest, sending fd' = some (dest, rest) → fd' = fd

/-- Where nobody is in the middle of a frame, nothing is missing. -/
theorem Unfinished.nil (h : Unfinished sending dest missing) (hto : ∀ fd rest, sending fd ≠ some (dest, rest)) :
    missing = [] := by
  rcases h with ⟨h, -⟩ | ⟨fd, hfd, -⟩
  · exact h
  · exact absurd hfd (hto fd missing)

/-- A handler that writes to another connection. -/
theorem Unfinished.other (h : Unfinished sending dest missing) {x : Option (Int × Bytes)}
    (hbefore : ∀ rest, sending fd ≠ some (dest, rest)) (hafter : ∀ rest, x ≠ some (dest, rest)) :
    Unfinished (Function.update sending fd x) dest missing := by
  have hsame : ∀ fd' rest, Function.update sending fd x fd' = some (dest, rest) ↔ sending fd' = some (dest, rest) := by
    intro fd' rest
    rw [Function.update_apply]
    split
    · next heq =>
      rw [heq]
      exact iff_of_false (hafter rest) (hbefore rest)
    · exact Iff.rfl
  rcases h with ⟨h, hnone⟩ | ⟨fd₀, hfd, honly⟩
  · exact .inl ⟨h, fun fd' rest => (hsame fd' rest).not.mpr (hnone fd' rest)⟩
  · exact .inr ⟨fd₀, (hsame fd₀ missing).mpr hfd, fun fd' rest hrest => honly fd' rest ((hsame fd' rest).mp hrest)⟩

/-- A handler that begins a frame where nobody else does. -/
theorem unfinished_begin (hto : ∀ fd rest, sending fd ≠ some (dest, rest)) (rest : Option Bytes) :
    Unfinished (Function.update sending fd (rest.map fun rest => (dest, rest))) dest (rest.getD []) := by
  have honly : ∀ fd' rest', Function.update sending fd (rest.map fun rest => (dest, rest)) fd' = some (dest, rest') →
      fd' = fd ∧ rest = some rest' := by
    intro fd' rest' h
    rw [Function.update_apply] at h
    split at h
    · next heq => exact ⟨heq, by simpa using h⟩
    · exact absurd h (hto fd' rest')
  cases rest with
  | none => exact .inl ⟨rfl, fun fd' rest' h => by cases (honly fd' rest' h).2⟩
  | some rest => exact .inr ⟨fd, Function.update_self .., fun fd' rest' h => (honly fd' rest' h).1⟩

/-- A handler that finishes its frame writes what was missing. -/
theorem Unfinished.finish (h : Unfinished sending dest missing) {rest : Bytes} (hfd : sending fd = some (dest, rest)) :
    rest = missing ∧ Unfinished (Function.update sending fd none) dest [] := by
  rcases h with ⟨-, hnone⟩ | ⟨fd₀, hfd₀, honly⟩
  · exact absurd hfd (hnone fd rest)
  · cases honly fd rest hfd
    rw [hfd] at hfd₀
    refine ⟨by simpa using hfd₀, .inl ⟨rfl, fun fd' rest' h => ?_⟩⟩
    rw [Function.update_apply] at h
    split at h
    · cases h
    · next hne => exact hne (honly fd' rest' h)

end Sending

/-! ## Bytes and messages are the same to both ends -/

/-- The same server, and connections that carry the same. -/
structure Same (net : Network bytes) (net' : Network messages) : Prop where
  server : net'.server = net.server
  whole : net'.Whole messages
  links : ∀ fd, ∃ missing, Carries missing (net.links fd) (net'.links fd) ∧ Unfinished net.sending fd missing

section Refinement

variable {pg : Bool} {env : Env} {stamp : Nat → UInt64} {net : Network bytes} {net' : Network messages} {w : World}
  {fd dest : Int}

theorem same_start (w : World) : Same (start bytes w) (start messages w) where
  server := rfl
  whole fd := rfl
  links fd := ⟨[], carries_fresh, .inl ⟨rfl, fun fd rest h => by cases h⟩⟩

/-- What was handed to the callback is what was taken out of the queue. -/
theorem Same.delivered (h : Same net net') (fd : Int) :
    (net.links fd).loop.1.map ChatApp.delivered = (net'.links fd).delivered.map Call.delivered := by
  obtain ⟨missing, hl, -⟩ := h.links fd
  exact hl.delivered

/-- The server goes on and sends nothing. -/
theorem Same.served (h : Same net net') (s : Threads) : Same { net with server := s } { net' with server := s } :=
  ⟨rfl, h.whole, h.links⟩

/-- One connection changes, of which as much is missing as before. -/
theorem Same.update (h : Same net net') {missing : Bytes} {l : Streams} {q : Queues} (hl : Carries missing l q)
    (hmissing : Unfinished net.sending fd missing) :
    Same { net with links := Function.update net.links fd l }
      { net' with links := Function.update net'.links fd q } where
  server := h.server
  whole := h.whole
  links fd' := by
    show ∃ missing, Carries missing (Function.update net.links fd l fd') (Function.update net'.links fd q fd') ∧
      Unfinished net.sending fd' missing
    rw [Function.update_apply, Function.update_apply]
    split
    · next heq => exact ⟨missing, hl, heq ▸ hmissing⟩
    · exact h.links fd'

/-- A connection is opened. -/
theorem Same.accept (h : Same net net') (hfd : ¬net.MidFrame bytes fd) :
    Same { net with links := Function.update net.links fd bytes.fresh }
      { net' with links := Function.update net'.links fd messages.fresh } :=
  h.update carries_fresh (.inl ⟨rfl, fun fd' rest hrest => hfd ⟨fd', rest, hrest⟩⟩)

/-- A frame is begun, and is in the queue. -/
theorem Same.begin (h : Same net net') {c : Call} (hto : ¬net.MidFrame bytes dest) (hfd : net.sending fd = none)
    (hc : c.Small) : Same (net.begin_frame bytes fd dest c) (net'.begin_frame messages fd dest c) where
  server := h.server
  whole fd' := by
    show Function.update net'.sending fd none fd' = none
    rw [Function.update_apply]
    split
    · rfl
    · exact h.whole fd'
  links dest' := by
    have hnone : ∀ fd' rest, net.sending fd' ≠ some (dest, rest) := fun fd' rest hrest => hto ⟨fd', rest, hrest⟩
    obtain ⟨missing, hl, hmissing⟩ := h.links dest'
    show ∃ missing, Carries missing (Function.update net.links dest (bytes.write c.parts.1 (net.links dest)) dest')
        (Function.update net'.links dest (messages.write c (net'.links dest)) dest') ∧
      Unfinished (Function.update net.sending fd (c.parts.2.map fun rest => (dest, rest))) dest' missing
    -- nobody else has an unfinished frame to `dest`, and this one is unfinished from now on
    by_cases heq : dest' = dest
    · cases heq
      cases hmissing.nil hnone
      rw [Function.update_self, Function.update_self]
      exact ⟨_, hl.begin hc, unfinished_begin hnone _⟩
    · rw [Function.update_of_ne heq, Function.update_of_ne heq]
      refine ⟨missing, hl, hmissing.other (fun rest hrest => ?_) fun rest hrest => ?_⟩
      · cases hfd.symm.trans hrest
      · obtain ⟨rest', -, hpair⟩ := Option.map_eq_some_iff.mp hrest
        exact heq (Prod.mk.inj hpair).1.symm

/-- The rest of a frame is written, which is in the queue. -/
theorem Same.finish (h : Same net net') {rest : Bytes} (hfd : net.sending fd = some (dest, rest)) :
    Same { net with
      links := Function.update net.links dest (bytes.write rest (net.links dest))
      sending := Function.update net.sending fd none } net' where
  server := h.server
  whole := h.whole
  links dest' := by
    obtain ⟨missing, hl, hmissing⟩ := h.links dest'
    show ∃ missing, Carries missing (Function.update net.links dest (bytes.write rest (net.links dest)) dest') _ ∧
      Unfinished (Function.update net.sending fd none) dest' missing
    by_cases heq : dest' = dest
    · cases heq
      obtain ⟨rfl, hnil⟩ := hmissing.finish hfd
      rw [Function.update_self]
      exact ⟨[], hl.finish, hnil⟩
    · rw [Function.update_of_ne heq]
      refine ⟨missing, hl, hmissing.other (fun rest' hrest => ?_) fun rest' hrest => by cases hrest⟩
      rw [hfd] at hrest
      exact heq (Prod.mk.inj (Option.some.inj hrest)).1.symm

theorem server_carry {L : Type} {T : Transport L} (net : Network T) (fd : Int) (s : Threads) :
    (net.carry T stamp fd s).server = s := by
  unfold Network.carry
  split
  · split
    · rfl
    · rfl
  · rfl

variable (stamp) in
/-- The server goes on. -/
theorem Same.carry (h : Same net net') {s : Threads} (hfd : net.sending fd = none)
    (hto : ∀ f, sent_frame net.server s = some f → ¬net.MidFrame bytes f.fd)
    (hsmall : ∀ f ∈ s.world.out, (f.call 0).Small) :
    Same (net.carry bytes stamp fd s) (net'.carry messages stamp fd s) := by
  unfold Network.carry
  rw [h.server]
  cases hsent : sent_frame net.server s with
  | none => exact h.served s
  | some f =>
    dsimp only
    split
    · exact (h.served s).begin (hto f hsent) hfd (hsmall f (List.mem_of_getElem? hsent))
    · exact h.served s

variable (pg env stamp) in
/-- The phone takes several messages out of its queue. -/
theorem receives (net : Network messages) (fd : Int) {n : Nat} (hn : n ≤ (net.links fd).down.length) :
    ∃ tr, Run messages pg env stamp (fun _ _ => True) net tr
      { net with links := Function.update net.links fd (received (net.links fd) n) } ∧
      tr.flatMap (observed messages) = [] := by
  induction n with
  | zero =>
    have hnone : received (net.links fd) 0 = net.links fd := by simp [received]
    rw [hnone, Function.update_eq_self]
    exact ⟨[], .nil _, rfl⟩
  | succ n ih =>
    obtain ⟨tr, run, hobs⟩ := ih (Nat.le_of_succ_le hn)
    have hget : (net.links fd).down.drop n = (net.links fd).down[n] :: (net.links fd).down.drop (n + 1) :=
      List.drop_eq_getElem_cons hn
    have hone : messages.receive () (received (net.links fd) n) = some (received (net.links fd) (n + 1)) := by
      simp only [messages, received, hget]
      rw [List.take_succ_eq_append_getElem hn, List.append_assoc]
    have hstep : step messages pg env stamp
        { net with links := Function.update net.links fd (received (net.links fd) n) } (.receive fd ())
          = some { net with links := Function.update net.links fd (received (net.links fd) (n + 1)) } := by
      simp only [step, Function.update_self, hone, Option.map_some, Function.update_idem]
    refine ⟨_, .snoc run trivial hstep, ?_⟩
    rw [List.flatMap_append, hobs]
    rfl

/-- **Every step on bytes is matched by steps on messages** that show the same. -/
theorem bytes_simulate : Simulates (step bytes pg env stamp)
    (Orderly bytes pg env stamp) (observed bytes)
    (step messages pg env stamp) (fun _ _ => True) (observed messages) Same := by
  rintro net net' e after h ⟨⟨hsubmit, hsent⟩, hadjacent⟩ hstep
  cases e with
  | accept fd =>
    obtain ⟨s, hs, rfl⟩ := Option.map_eq_some_iff.mp hstep
    refine matched_by_one (.accept fd) ?_ trivial ((h.accept hadjacent).served s) rfl
    rw [step, h.server, hs]
    rfl
  | submit fd c =>
    cases hstep
    obtain ⟨missing, hl, hmissing⟩ := h.links fd
    exact matched_by_one (.submit fd c) rfl trivial (h.update (hl.submit (hsubmit fd c rfl)) hmissing) rfl
  | read fd cut =>
    obtain ⟨⟨r, l⟩, hread, hrest⟩ := Option.bind_eq_some_iff.mp hstep
    obtain ⟨s, hs, rfl⟩ := Option.map_eq_some_iff.mp hrest
    obtain ⟨missing, hl, hmissing⟩ := h.links fd
    -- a message that is read is the next one of the queue
    obtain ⟨q, hread', hq⟩ := hl.read hread
    refine matched_by_one (.read fd ()) ?_ trivial ((h.update hq hmissing).served s) ?_
    · show (messages.read () (net'.links fd)).bind _ = _
      rw [hread']
      show (Threads.step pg env net'.server (.request fd r)).map _ = _
      have hs : Threads.step pg env net.server (.request fd r) = some s := hs
      rw [h.server, hs]
      rfl
    · simp only [observed, hread, hread', h.server, Option.map_some]
  | advance i =>
    obtain ⟨hd, hget, hrest⟩ := Option.bind_eq_some_iff.mp hstep
    split at hrest
    · cases hrest
    next hidle =>
    obtain ⟨s, hs, rfl⟩ := Option.map_eq_some_iff.mp hrest
    -- a handler that has begun a frame has to finish it first
    have hfd : net.sending hd.fd = none := Option.not_isSome_iff_eq_none.mp hidle
    have hsmall : ∀ f ∈ s.world.out, (f.call 0).Small := fun f hf => hsent _ hstep f (by rw [server_carry]; exact hf)
    refine matched_by_one (.advance i) ?_ trivial (h.carry stamp hfd (hadjacent s hs) hsmall) rfl
    rw [step, h.server, hget, Option.bind_some, h.whole, hs]
    rfl
  | write fd =>
    obtain ⟨⟨dest, rest⟩, hfd, rfl⟩ := Option.map_eq_some_iff.mp hstep
    -- the message has been in the queue since its header was written
    exact ⟨net', [], .nil _, h.finish hfd, rfl⟩
  | receive fd cut =>
    obtain ⟨l, hl, rfl⟩ := Option.map_eq_some_iff.mp hstep
    obtain ⟨missing, hcarries, hmissing⟩ := h.links fd
    -- a piece of the stream may complete several messages, or none
    obtain ⟨n, hn, hcarries'⟩ := hcarries.receive hl
    obtain ⟨tr, run, hobs⟩ := receives pg env stamp net' fd hn
    exact ⟨_, tr, run, h.update hcarries' hmissing, hobs⟩
  | hangup fd =>
    obtain ⟨s, hs, rfl⟩ := Option.map_eq_some_iff.mp hstep
    refine matched_by_one (.hangup fd) ?_ trivial (h.served s) rfl
    rw [step, h.server, hs]
    rfl

variable (pg env) in
/-- Whatever is written here is written next to nothing else. -/
theorem Whole.adjacent (h : net.Whole bytes) (e : Event bytes) : Adjacent bytes pg env net e := by
  have hmid : ∀ fd, ¬net.MidFrame bytes fd := by
    rintro fd ⟨fd', rest, hrest⟩
    rw [h fd'] at hrest
    cases hrest
  cases e with
  | accept fd => exact hmid fd
  | advance i => exact fun s _ f _ => hmid f.fd
  | submit | read | write | receive | hangup => trivial

/-- Where every frame is written to its end, nothing is missing. -/
theorem Same.carries (h : Same net net') (hwhole : net.Whole bytes) (fd : Int) :
    Carries [] (net.links fd) (net'.links fd) := by
  obtain ⟨missing, hl, hmissing⟩ := h.links fd
  cases hmissing.nil fun fd' rest hrest => by rw [hwhole fd'] at hrest; cases hrest
  exact hl

/-- The handler that has gone on is the only one that may have begun a frame. -/
theorem Whole.carry (h : net.Whole bytes) (s : Threads) {fd' : Int} (hfd : fd' ≠ fd) :
    (net.carry bytes stamp fd s).sending fd' = none := by
  unfold Network.carry
  split
  · split
    · exact (Function.update_of_ne hfd ..).trans (h fd')
    · exact h fd'
  · exact h fd'

variable (pg env stamp) in
/-- The phone receives the bytes of its next message, in as many pieces as that takes. -/
theorem receives_next (net : Network bytes) (fd : Int) {q : Queues} {c : Call} {later : List Call}
    (h : Carries [] (net.links fd) q) (hwhole : net.Whole bytes) (hq : q.down = c :: later)
    (hsent : ∀ f ∈ net.server.world.out, (f.call 0).Small) :
    ∃ tr l, Run bytes pg env stamp (Orderly bytes pg env stamp) net tr
        { net with links := Function.update net.links fd l } ∧
      Carries [] l (received q 1) ∧ tr.flatMap (observed bytes) = [] := by
  -- the induction is on what is missing of the message
  induction hmissing : c.frame.length - (net.links fd).loop.2.length using Nat.strong_induction_on generalizing net with
  | _ missing ih =>
  obtain ⟨cuts, l, hreceive, hcase⟩ := h.receive_part hq
  have hstep : step bytes pg env stamp net (.receive fd cuts)
      = some { net with links := Function.update net.links fd l } := by
    rw [step, hreceive]
    rfl
  -- the app receives, so nothing is submitted or sent
  have hsized : Sized bytes pg env stamp net (.receive fd cuts) := by
    refine ⟨fun _ _ he => (nomatch he), fun net' hnet' => ?_⟩
    rw [hstep] at hnet'
    cases hnet'
    exact hsent
  have hfirst : Run bytes pg env stamp (Orderly bytes pg env stamp) net _
      { net with links := Function.update net.links fd l } :=
    .snoc (.nil net) ⟨hsized, hwhole.adjacent ..⟩ hstep
  -- either a part of the message came, or all that was missing
  rcases hcase with ⟨hl, hlonger⟩ | hl
  · have hself : Network.links { net with links := Function.update net.links fd l } fd = l := Function.update_self ..
    have hpart := h.part c later hq
    obtain ⟨tr, l', run, hl', hobs⟩ := ih (c.frame.length - l.loop.2.length) (by omega)
      { net with links := Function.update net.links fd l } (by rw [hself]; exact hl) hwhole hsent (by rw [hself])
    rw [Function.update_idem] at run
    refine ⟨_, l', hfirst.trans run, hl', ?_⟩
    rw [List.flatMap_append, hobs]
    rfl
  · exact ⟨_, l, hfirst, hl, rfl⟩

variable (pg env stamp) in
/-- The handler of `fd` writes what remains of the frame that it has begun, if it has begun one. -/
theorem writes_rest (net : Network bytes) (fd : Int) (h : Same net net')
    (hothers : ∀ fd', fd' ≠ fd → net.sending fd' = none) (hsent : ∀ f ∈ net.server.world.out, (f.call 0).Small) :
    ∃ tr net₁, Run bytes pg env stamp (Orderly bytes pg env stamp) net tr
      net₁ ∧ Same net₁ net' ∧ net₁.Whole bytes ∧ tr.flatMap (observed bytes) = [] := by
  cases hfd : net.sending fd with
  | none =>
    refine ⟨[], net, .nil _, h, fun fd' => ?_, rfl⟩
    by_cases heq : fd' = fd
    · rw [heq]
      exact hfd
    · exact hothers fd' heq
  | some x =>
    obtain ⟨dest, rest⟩ := x
    have hstep : step bytes pg env stamp net (.write fd) = some { net with
        links := Function.update net.links dest (bytes.write rest (net.links dest)),
        sending := Function.update net.sending fd none } := by
      rw [step, hfd]
      rfl
    have hsized : Sized bytes pg env stamp net (.write fd) := by
      refine ⟨fun _ _ he => (nomatch he), fun net₁ hnet₁ => ?_⟩
      rw [hstep] at hnet₁
      cases hnet₁
      exact hsent
    have hadjacent : Adjacent bytes pg env net (.write fd) := trivial
    refine ⟨_, _, .snoc (.nil net) ⟨hsized, hadjacent⟩ hstep, h.finish hfd, fun fd' => ?_, rfl⟩
    · show Function.update net.sending fd none fd' = none
      rw [Function.update_apply]
      split
      · rfl
      · next hne => exact hothers fd' hne

/-- **Every step on messages is matched by steps on bytes** that show the same, and write every frame to its end. -/
theorem messages_simulate : Simulates (step messages pg env stamp) (Sized messages pg env stamp) (observed messages)
    (step bytes pg env stamp) (Orderly bytes pg env stamp)
    (observed bytes) fun net' net => Same net net' ∧ net.Whole bytes := by
  rintro net' net e after ⟨h, hwhole⟩ ⟨hsubmit, hsent⟩ hstep
  -- a step on bytes sends what the step on messages does
  have hsized : ∀ {e' : Event bytes} {b : Network bytes}, step bytes pg env stamp net e' = some b →
      b.server = after.server → (∀ fd c, e' = .submit fd c → c.Small) → Sized bytes pg env stamp net e' := by
    refine fun hb hserver hsmall => ⟨hsmall, fun b' hb' f hf => ?_⟩
    rw [hb] at hb'
    cases hb'
    exact hsent _ hstep f (hserver ▸ hf)
  -- a step that is matched by one
  have hone : ∀ (e' : Event bytes) {b : Network bytes}, step bytes pg env stamp net e' = some b → Same b after →
      b.Whole bytes → (∀ fd c, e' = .submit fd c → c.Small) →
      observed bytes ⟨net, e', b⟩ = observed messages ⟨net', e, after⟩ →
      ∃ b tr, Run bytes pg env stamp (Orderly bytes pg env stamp) net tr
        b ∧ (Same b after ∧ b.Whole bytes) ∧ tr.flatMap (observed bytes) = observed messages ⟨net', e, after⟩ := by
    intro e' b hb hsame hb' hsmall hobs
    exact matched_by_one (R := fun net' net => Same net net' ∧ net.Whole bytes) e' hb
      ⟨hsized hb hsame.server.symm hsmall, hwhole.adjacent pg env e'⟩ ⟨hsame, hb'⟩ hobs
  cases e with
  | accept fd =>
    obtain ⟨s, hs, rfl⟩ := Option.map_eq_some_iff.mp hstep
    have haccept : ¬net.MidFrame bytes fd := hwhole.adjacent pg env (.accept fd)
    refine hone (.accept fd) ?_ ((h.accept haccept).served s) hwhole (by rintro _ _ ⟨⟩) rfl
    rw [step, ← h.server, hs]
    rfl
  | submit fd c =>
    cases hstep
    have hsmall := hsubmit fd c rfl
    obtain ⟨missing, hl, hmissing⟩ := h.links fd
    refine hone (.submit fd c) rfl (h.update (hl.submit hsmall) hmissing) hwhole (fun _ _ he => ?_) rfl
    cases he
    exact hsmall
  | read fd cut =>
    obtain ⟨⟨r, q⟩, hread, hrest⟩ := Option.bind_eq_some_iff.mp hstep
    obtain ⟨s, hs, rfl⟩ := Option.map_eq_some_iff.mp hrest
    have hread' := hread
    simp only [messages] at hread'
    split at hread'
    · next c up hup =>
      cases hread'
      obtain ⟨missing, hl, hmissing⟩ := h.links fd
      -- the piece that completes the message is read at once
      have hnext := read_next (fun _ => 0) (hl.small_up c (hup ▸ List.mem_cons_self)) (hup ▸ hl.up)
      refine hone (.read fd fun _ => 0) ?_ ((h.update (hl.read_up hup) hmissing).served s) hwhole
        (by rintro _ _ ⟨⟩) ?_
      · show (bytes.read _ (net.links fd)).bind _ = _
        rw [hnext]
        show (Threads.step pg env net.server (.request fd c.request)).map _ = _
        have hs : Threads.step pg env net'.server (.request fd c.request) = some s := hs
        rw [← h.server, hs]
        rfl
      · simp only [observed, hread, hnext, h.server, Option.map_some]
    · cases hread'
  | advance i =>
    obtain ⟨hd, hget, hrest⟩ := Option.bind_eq_some_iff.mp hstep
    split at hrest
    · cases hrest
    next hidle =>
    obtain ⟨s, hs, rfl⟩ := Option.map_eq_some_iff.mp hrest
    have hsmall : ∀ f ∈ s.world.out, (f.call 0).Small := fun f hf => hsent _ hstep f (by rw [server_carry]; exact hf)
    have hs' : Threads.step pg env net.server (.advance i) = some s := h.server ▸ hs
    have hstep' : step bytes pg env stamp net (.advance i) = some (net.carry bytes stamp hd.fd s) := by
      rw [step, ← h.server, hget, Option.bind_some, hwhole, h.server, hs']
      rfl
    have hadjacent := hwhole.adjacent pg env (.advance i)
    have hsame := h.carry stamp (hwhole hd.fd) (hadjacent s hs') hsmall
    -- the rest of the frame is written before anybody else goes on
    obtain ⟨tr, net₁, run, hsame₁, hwhole₁, hobs⟩ := writes_rest pg env stamp _ hd.fd hsame
      (fun fd' hne => hwhole.carry s hne) (by rw [server_carry]; exact hsmall)
    refine ⟨net₁, _, ChatApp.Run.trans (.snoc (.nil net) ⟨?_, hadjacent⟩ hstep') run, ⟨hsame₁, hwhole₁⟩, ?_⟩
    · exact hsized hstep' hsame.server.symm (by rintro _ _ ⟨⟩)
    · rw [List.flatMap_append, hobs]
      rfl
  | write fd =>
    obtain ⟨x, hx, -⟩ := Option.map_eq_some_iff.mp hstep
    rw [h.whole fd] at hx
    cases hx
  -- the phone is sent bytes until the message is complete
  | receive fd cut =>
    obtain ⟨q, hq, rfl⟩ := Option.map_eq_some_iff.mp hstep
    simp only [messages] at hq
    split at hq
    · next c later hdown =>
      cases hq
      have hsmall : ∀ f ∈ net.server.world.out, (f.call 0).Small := fun f hf =>
        hsent _ hstep f (by rw [h.server]; exact hf)
      obtain ⟨tr, l, run, hl, hobs⟩ := receives_next pg env stamp net fd (h.carries hwhole fd) hwhole hdown hsmall
      have hreceived : received (net'.links fd) 1 = { net'.links fd with
          down := later, delivered := (net'.links fd).delivered ++ [c] } := by
        rw [received, hdown]
        rfl
      rw [hreceived] at hl
      refine ⟨_, tr, run, ⟨h.update hl (.inl ⟨rfl, fun fd' rest hrest => ?_⟩), hwhole⟩, hobs⟩
      cases (hwhole fd').symm.trans hrest
    · cases hq
  | hangup fd =>
    obtain ⟨s, hs, rfl⟩ := Option.map_eq_some_iff.mp hstep
    refine hone (.hangup fd) ?_ (h.served s) hwhole (by rintro _ _ ⟨⟩) rfl
    rw [step, ← h.server, hs]
    rfl

/-- **Bytes carry messages.** Whatever the phones send, however the network cuts the streams and the threads of the
server take turns, as long as nothing is written to a connection in the middle of a frame: the app and the handlers see
what they would see if the connections were queues of messages. Each phone has been handed what it took out of its
queue, and has put aside a part of its next message. -/
theorem bytes_carry_messages {tr : List (Taken (Network bytes) (Event bytes))}
    (run : Run bytes pg env stamp (Orderly bytes pg env stamp) (start bytes w) tr net) :
    ∃ net' tr', Run messages pg env stamp (fun _ _ => True) (start messages w) tr' net' ∧ Same net net' ∧
      tr'.flatMap (observed messages) = tr.flatMap (observed bytes) :=
  run.simulated bytes_simulate (same_start w)

theorem whole_start {L : Type} (T : Transport L) (w : World) : (start T w).Whole T := fun _ => rfl

/-- **And messages are carried by bytes.** Whatever the ends could do over queues they can do over streams, in as many
pieces as it takes: no message gets stuck. -/
theorem messages_carried_by_bytes {tr : List (Taken (Network messages) (Event messages))}
    (run : Run messages pg env stamp (Sized messages pg env stamp) (start messages w) tr net') :
    ∃ net tr', Run bytes pg env stamp (Orderly bytes pg env stamp) (start bytes w) tr' net ∧
      (Same net net' ∧ net.Whole bytes) ∧ tr'.flatMap (observed bytes) = tr.flatMap (observed messages) :=
  run.simulated messages_simulate ⟨same_start w, whole_start bytes w⟩

end Refinement

/-! ## Concrete runs -/

/-- `Sized`, decided. -/
def sized {L : Type} (T : Transport L) (pg : Bool) (env : Env) (stamp : Nat → UInt64) (net : Network T) (e : Event T) :
    Bool :=
  (match e with
    | .submit _ c => decide c.Small
    | _ => true) &&
  match net.step T pg env stamp e with
  | some net' => net'.server.world.out.all fun f => decide (f.call 0).Small
  | none => true

theorem sized_of_eq {L : Type} {T : Transport L} {pg : Bool} {env : Env} {stamp : Nat → UInt64} {net : Network T}
    {e : Event T} (h : sized T pg env stamp net e = true) : Sized T pg env stamp net e := by
  unfold sized at h
  rw [Bool.and_eq_true] at h
  refine ⟨fun fd c he => ?_, fun net' hnet' f hf => ?_⟩
  · rw [he] at h
    exact of_decide_eq_true h.1
  · rw [hnet'] at h
    exact of_decide_eq_true (List.all_eq_true.mp h.2 f hf)

/-- A list of events that can be executed is a run, and what a projection of the last state evaluates to holds of
that state. -/
theorem run_of_exec {pg : Bool} {env : Env} {stamp : Nat → UInt64} {w : World} (es : List (Event messages)) {α : Type}
    {f : Network messages → α} {a : α}
    (h : (ChatApp.Run.exec (ChatApp.Run.guard (step messages pg env stamp) (sized messages pg env stamp))
      (start messages w) es).map f = some a) :
    ∃ tr net, Run messages pg env stamp (Sized messages pg env stamp) (start messages w) tr net ∧ f net = a := by
  obtain ⟨net, hexec, hf⟩ := Option.map_eq_some_iff.mp h
  obtain ⟨tr, run, -⟩ := ChatApp.Run.of_exec hexec
  exact ⟨tr, net, (ChatApp.Run.of_guard run).mono fun _ _ => sized_of_eq, hf⟩

/-- The phone on `fd` sends a request, which is handled. -/
def requests (fd : Int) (type : MessageType) (payload : String) (turns : Nat) : List (Event messages) :=
  .submit fd ⟨type.toByte, str payload, 0, 0⟩ :: .read fd () :: List.replicate turns (.advance 0)

/-- Users 1 and 2 register, user 1 writes to user 2, and the phone of user 2 receives two messages. -/
def hello : List (Event messages) :=
  .accept 5 :: requests 5 .REGISTER "username=a&password=x" 16 ++
    .accept 6 :: requests 6 .REGISTER "username=b&password=x" 16 ++
    requests 5 .DIRECT_MESSAGE "recipientId=2&message=hi" 7 ++ [.receive 6 (), .receive 6 ()]

/-- What the phone of user 2 is given. -/
def heard : List (Option (UInt8 × Bytes × UInt32)) :=
  [some (MessageType.SUCCESS.toByte, str "success=true&userId=2&token=demo_token&username=b", 2),
    some (MessageType.DIRECT_MESSAGE.toByte, str "senderId=1&message=hi&timestamp=0", 1)]

theorem hello_run : ∃ tr net, Run messages false Env.calm (fun _ => 0) (Sized messages false Env.calm fun _ => 0)
    (start messages (World.new Tables.empty)) tr net ∧ (net.links 6).delivered.map Call.delivered = heard :=
  run_of_exec hello (f := fun net => (net.links 6).delivered.map Call.delivered) (by decide)

/-- The phone of user 2 is given the bytes of its two messages. -/
theorem messages_carried_by_bytes_hello : ∃ net tr, Run bytes false Env.calm (fun _ => 0)
    (Orderly bytes false Env.calm fun _ => 0) (start bytes (World.new Tables.empty)) tr net ∧
    (net.links 6).loop.1.map delivered = heard := by
  obtain ⟨_, net', run, hheard⟩ := hello_run
  obtain ⟨net, tr, run', ⟨hsame, -⟩, -⟩ := messages_carried_by_bytes run
  exact ⟨net, tr, run', (hsame.delivered 6).trans hheard⟩

/-- Its queue of messages has been emptied. -/
theorem bytes_carry_messages_hello : ∃ net net', Same net net' ∧ (net.links 6).loop.1.map delivered = heard ∧
    ∃ tr, Run messages false Env.calm (fun _ => 0) (fun _ _ => True) (start messages (World.new Tables.empty)) tr
      net' := by
  obtain ⟨_, net₀, run, hheard⟩ := hello_run
  obtain ⟨net, _, run', ⟨hsame₀, -⟩, -⟩ := run.simulated messages_simulate ⟨same_start _, whole_start bytes _⟩
  obtain ⟨net', tr', run'', hsame, -⟩ := bytes_carry_messages run'
  exact ⟨net, net', hsame, (hsame₀.delivered 6).trans hheard, tr', run''⟩

end Network

end ChatApp
