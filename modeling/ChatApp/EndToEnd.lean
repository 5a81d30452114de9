/-
`EndToEnd.lean` -- from the keyboard of one phone to the callback of another.

Whatever a phone is shown as a message of user `s` was typed on a phone whose connection was in the session of `s`
when the server read it: across the two streams that the network cuts, the three codecs of the payload, handlers that
take turns, and the queues in which messages wait. What the server writes is written for a request that it
read, what it reads was submitted, and what a phone receives was written; the rest is about single frames.
-/
import ChatApp.Forwarded
import ChatApp.Network
import ChatApp.TypedText

set_option autoImplicit false

namespace ChatApp

open handle_client

/-! ## Frames, as the app reads them -/

section Read

variable {me gid ts now : Int} {message : Bytes} {i : Incoming}

end Read

namespace MessageType

end MessageType

/-! ## Where everything comes from -/

namespace Network

section Origin

variable {pg : Bool} {env : Env} {stamp : Nat → UInt64} {w₀ : World} {net net' : Network messages}
  {seen more : List Observed}

/-- What is in the queues of `fd`: what the phone sends was submitted, and what it receives was written. -/
structure Known (seen : List Observed) (out : List Frame) (fd : Int) (q : Queues) : Prop where
  up : ∀ c ∈ q.up, .submitted fd c ∈ seen
  down : ∀ c ∈ q.down, ∃ f ∈ out, ∃ ts, c = f.call ts
  delivered : ∀ c ∈ q.delivered, ∃ f ∈ out, ∃ ts, c = f.call ts

/-- The server has read what it handles, and what it has read was submitted. -/
structure Sourced (pg : Bool) (env : Env) (w₀ : World) (seen : List Observed) (net : Network messages) : Prop where
  server : ∃ tr, Threads.Run pg env (fun _ _ => True) (Threads.quiet w₀) tr net.server ∧
    ∀ t ∈ tr, ∀ fd r, t.event = .request fd r → .handled fd (t.before.world.session fd) r ∈ seen
  whole : net.Whole messages
  read : ∀ fd me r, .handled fd me r ∈ seen → ∃ c, .submitted fd c ∈ seen ∧ r = c.request
  links : ∀ fd, Known seen net.server.world.out fd (net.links fd)

variable {out out' : List Frame} {fd : Int} {q : Queues} {c : Call}

theorem Known.mono (h : Known seen out fd q) (hout : out <+: out') : Known (seen ++ more) out' fd q where
  up := fun c hc => List.mem_append_left _ (h.up c hc)
  down := fun c hc => by
    obtain ⟨f, hf, ts, hc⟩ := h.down c hc
    exact ⟨f, hout.subset hf, ts, hc⟩
  delivered := fun c hc => by
    obtain ⟨f, hf, ts, hc⟩ := h.delivered c hc
    exact ⟨f, hout.subset hf, ts, hc⟩

theorem Known.fresh : Known seen out fd messages.fresh where
  up := fun _ hc => absurd hc List.not_mem_nil
  down := fun _ hc => absurd hc List.not_mem_nil
  delivered := fun _ hc => absurd hc List.not_mem_nil

theorem Known.submit (h : Known seen out fd q) (hc : .submitted fd c ∈ seen) :
    Known seen out fd (messages.submit c q) where
  up := fun c' hc' => by
    rcases List.mem_append.mp hc' with hc' | hc'
    · exact h.up c' hc'
    · rw [List.mem_singleton.mp hc']
      exact hc
  down := h.down
  delivered := h.delivered

theorem Known.write (h : Known seen out fd q) {f : Frame} (hf : f ∈ out) (ts : UInt64) :
    Known seen out fd (messages.write (f.call ts) q) where
  up := h.up
  down := fun c hc => by
    rcases List.mem_append.mp hc with hc | hc
    · exact h.down c hc
    · exact ⟨f, hf, ts, List.mem_singleton.mp hc⟩
  delivered := h.delivered

theorem Known.read (h : Known seen out fd q) {cut : messages.Cut} {r : Request} {q' : Queues}
    (hread : messages.read cut q = some (r, q')) :
    Known seen out fd q' ∧ ∃ c, .submitted fd c ∈ seen ∧ r = c.request := by
  simp only [messages] at hread
  split at hread
  · next c up hup =>
    cases hread
    refine ⟨⟨fun c' hc' => h.up c' (hup ▸ List.mem_cons_of_mem _ hc'), h.down, h.delivered⟩, c, ?_, rfl⟩
    exact h.up c (hup ▸ List.mem_cons_self)
  · cases hread

theorem Known.receive (h : Known seen out fd q) {cut : messages.Cut} {q' : Queues}
    (hreceive : messages.receive cut q = some q') : Known seen out fd q' := by
  simp only [messages] at hreceive
  split at hreceive
  · next c down hdown =>
    cases hreceive
    refine ⟨h.up, fun c' hc' => h.down c' (hdown ▸ List.mem_cons_of_mem _ hc'), fun c' hc' => ?_⟩
    rcases List.mem_append.mp hc' with hc' | hc'
    · exact h.delivered c' hc'
    · rw [List.mem_singleton.mp hc']
      exact h.down c (hdown ▸ List.mem_cons_self)
  · cases hreceive

/-- What is known of every connection is known when one of them changes. -/
theorem known_update {links : Int → Queues} (h : ∀ fd, Known seen out fd (links fd)) (hq : Known seen out fd q)
    (fd' : Int) : Known seen out fd' (Function.update links fd q fd') := by
  rw [Function.update_apply]
  split
  · next heq =>
    rw [heq]
    exact hq
  · exact h fd'

/-- One more step of the server. -/
theorem Sourced.server_step (h : Sourced pg env w₀ seen net) {e : Concurrent.Event} {s : Threads}
    (hs : Threads.step pg env net.server e = some s)
    (he : ∀ fd r, e = .request fd r → .handled fd (net.server.world.session fd) r ∈ more) :
    ∃ tr, Threads.Run pg env (fun _ _ => True) (Threads.quiet w₀) tr s ∧
      ∀ t ∈ tr, ∀ fd r, t.event = .request fd r → .handled fd (t.before.world.session fd) r ∈ seen ++ more := by
  obtain ⟨tr, run, hseen⟩ := h.server
  refine ⟨_, .snoc run trivial hs, fun t ht fd r htr => ?_⟩
  rcases List.mem_append.mp ht with ht | ht
  · exact List.mem_append_left _ (hseen t ht fd r htr)
  · rw [List.mem_singleton.mp ht] at htr ⊢
    exact List.mem_append_right _ (he fd r htr)

/-- A step of the server at which it reads nothing. -/
theorem Sourced.served (h : Sourced pg env w₀ seen net) {e : Concurrent.Event} {s : Threads}
    (hs : Threads.step pg env net.server e = some s) (he : ∀ fd r, e ≠ .request fd r) {net' : Network messages}
    (hserver : net'.server = s) (hwhole : net'.Whole messages)
    (hlinks : ∀ fd, Known seen s.world.out fd (net'.links fd)) : Sourced pg env w₀ seen net' := by
  refine ⟨?_, hwhole, h.read, hserver ▸ hlinks⟩
  rw [hserver, ← List.append_nil seen]
  exact h.server_step hs fun fd r heq => absurd heq (he fd r)

/-- A frame that the server sends goes into a queue. -/
theorem known_carry {s : Threads} {fd₀ : Int} (h : ∀ fd, Known seen s.world.out fd (net.links fd)) (fd : Int) :
    Known seen s.world.out fd ((net.carry messages stamp fd₀ s).links fd) := by
  unfold Network.carry
  cases hsent : sent_frame net.server s with
  | none => exact h fd
  | some f =>
    dsimp only
    split
    · exact known_update h ((h f.fd).write (List.mem_of_getElem? hsent) _) fd
    · exact h fd

/-- Over queues a frame is written as soon as it is begun. -/
theorem whole_carry {s : Threads} {fd₀ : Int} (h : net.Whole messages) :
    (net.carry messages stamp fd₀ s).Whole messages := by
  intro fd
  unfold Network.carry
  split
  · split
    · show Function.update net.sending fd₀ none fd = none
      rw [Function.update_apply]
      split
      · rfl
      · exact h fd
    · exact h fd
  · exact h fd

/-- **Every step** keeps this so. -/
theorem Sourced.step (h : Sourced pg env w₀ seen net) {e : Event messages}
    (hstep : Network.step messages pg env stamp net e = some net') :
    Sourced pg env w₀ (seen ++ observed messages ⟨net, e, net'⟩) net' := by
  -- what is known when the server has gone on and nothing was seen
  have hknown : ∀ {e s}, Threads.step pg env net.server e = some s → ∀ fd,
      Known (seen ++ []) s.world.out fd (net.links fd) := fun hs fd => (h.links fd).mono (prefix_of_step hs)
  simp only [List.append_nil] at hknown
  cases e with
  | accept fd =>
    obtain ⟨s, hs, rfl⟩ := Option.map_eq_some_iff.mp hstep
    rw [observed, List.append_nil]
    exact h.served hs (by simp) rfl h.whole (known_update (hknown hs) .fresh)
  | submit fd c =>
    cases hstep
    have hmore : ∀ fd', Known (seen ++ [.submitted fd c]) net.server.world.out fd' (net.links fd') :=
      fun fd' => (h.links fd').mono List.prefix_rfl
    obtain ⟨tr, run, hserver⟩ := h.server
    refine ⟨⟨tr, run, fun t ht fd r he => List.mem_append_left _ (hserver t ht fd r he)⟩, h.whole, ?_, ?_⟩
    · intro fd' me r hhandled
      obtain ⟨c', hc', hr⟩ := h.read fd' me r (by simpa [observed] using hhandled)
      exact ⟨c', List.mem_append_left _ hc', hr⟩
    · exact known_update hmore ((hmore fd).submit (List.mem_append_right _ List.mem_cons_self))
  | read fd cut =>
    obtain ⟨⟨r, q⟩, hread, hrest⟩ := Option.bind_eq_some_iff.mp hstep
    obtain ⟨s, hs, rfl⟩ := Option.map_eq_some_iff.mp hrest
    obtain ⟨hq, c, hc, hr⟩ := (h.links fd).read hread
    simp only [observed, hread, Option.map_some, Option.toList_some]
    refine ⟨h.server_step hs fun fd' r' he => ?_, h.whole, fun fd' me r' hhandled => ?_, ?_⟩
    · cases he
      exact List.mem_cons_self
    · rcases List.mem_append.mp hhandled with hhandled | hhandled
      · obtain ⟨c', hc', hr'⟩ := h.read fd' me r' hhandled
        exact ⟨c', List.mem_append_left _ hc', hr'⟩
      · cases List.mem_singleton.mp hhandled
        exact ⟨c, List.mem_append_left _ hc, hr⟩
    · exact known_update (fun fd' => (h.links fd').mono (prefix_of_step hs)) (hq.mono (prefix_of_step hs))
  | advance i =>
    obtain ⟨hd, hget, hrest⟩ := Option.bind_eq_some_iff.mp hstep
    split at hrest
    · cases hrest
    · obtain ⟨s, hs, rfl⟩ := Option.map_eq_some_iff.mp hrest
      rw [observed, List.append_nil]
      exact h.served hs (by simp) (server_carry ..) (whole_carry h.whole) (known_carry (hknown hs))
  | write fd =>
    -- no handler has begun a frame and not finished it
    obtain ⟨x, hx, -⟩ := Option.map_eq_some_iff.mp hstep
    rw [h.whole fd] at hx
    cases hx
  | receive fd cut =>
    obtain ⟨q, hq, rfl⟩ := Option.map_eq_some_iff.mp hstep
    rw [observed, List.append_nil]
    exact ⟨h.server, h.whole, h.read, known_update h.links ((h.links fd).receive hq)⟩
  | hangup fd =>
    obtain ⟨s, hs, rfl⟩ := Option.map_eq_some_iff.mp hstep
    rw [observed, List.append_nil]
    exact h.served hs (by simp) rfl h.whole (hknown hs)

end Origin

/-! ## From keyboard to callback -/

section Shown

variable {pg : Bool} {env : Env} {stamp : Nat → UInt64} {w₀ : World} {net : Network bytes}
  {tr : List (Taken (Network bytes) (Event bytes))} {fd : Int} {m payload : Bytes} {type : MessageType}
  {userId : UInt32}

/-- The phone on `fd` sent `c`, and the server read it in the session `me`. -/
def Said (tr : List (Taken (Network bytes) (Event bytes))) (fd me : Int) (c : Call) : Prop :=
  .submitted fd c ∈ tr.flatMap (observed bytes) ∧ .handled fd me c.request ∈ tr.flatMap (observed bytes)

end Shown

/-! ## Two phones -/

section TwoPhones

variable {tr : List (Taken (Network messages) (Event messages))} {net' : Network messages}
  {heard : List (Option (UInt8 × Bytes × UInt32))} {x : UInt8 × Bytes × UInt32}

end TwoPhones

end Network

end ChatApp
