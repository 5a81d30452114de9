/-
`Serialisable.lean` -- group requests that are processed at the same time.

A set of group requests, each with its handler; the handlers take turns, one critical section at a time.
`GroupEffects` finds the move with which each takes effect, so the handlers are workers in the sense of
`Linearise`: what any interleaving leaves of the groups, and which requests are refused, is what the same
requests leave one at a time. The condition is that what a handler has checked still holds when it acts,
and that `operator[]` finds the group. Without it a group that was deleted in between is created again.
-/
import ChatApp.GroupEffects
import ChatApp.Linearise
import Mathlib.Data.List.Permutation

set_option autoImplicit false

namespace ChatApp

open Prog PostgresPersistence handle_client

/-! ## The handlers at work -/

/-- A group request: the connection, its session's user, the id in the header, and the command. -/
structure GroupCall where
  fd : Int
  me : Int
  rid : Int
  command : Command
  isGroup : command.isGroupRequest = true

/-- The handler of a request: what remains of its program, and the frames it has sent. -/
structure Worker : Type 1 where
  call : GroupCall
  prog : Prog all_fields Outcome
  sent : List Frame

/-- The handler before its first move. -/
def GroupCall.start (c : GroupCall) : Worker := ⟨c, perform false c.fd c.me c.rid c.command, []⟩

namespace Worker

/-- One turn of a handler. -/
def move (env : Env) (x : Worker) (w : World) : Worker × World :=
  (⟨x.call, (x.prog.advance env w).1, x.sent ++ framesBetween w (x.prog.advance env w).2⟩,
    (x.prog.advance env w).2)

/-- The condition on a turn. -/
def Meets (x : Worker) (w : World) : Prop := (x.call.command.groupCondition x.call.me).Holds x.prog w

/-- The program has returned. -/
def Finished (x : Worker) : Prop := ∃ out, x.prog = pure out

/-- Whether the program has returned. -/
def returned (x : Worker) : Bool :=
  match x.prog with
  | .pure _ => true
  | .op _ _ => false

/-- The request was answered with `ERROR`. -/
def refused (x : Worker) : Bool := refusedBy x.sent

/-- The handler as the server has it. -/
def handler (x : Worker) : Handler := ⟨x.call.fd, x.prog⟩

end Worker

/-- The handlers of the requests, in a state of the server, before anyone moves. -/
def Crew.processing (calls : List GroupCall) (w : World) : Crew Worker World :=
  ⟨calls.map GroupCall.start, w⟩

/-- A run in which the handlers take turns. -/
abbrev GroupRun (env : Env) (C : Worker → World → Prop) :
    Crew Worker World → List (Taken (Crew Worker World) Nat) → Crew Worker World → Prop :=
  Run (Crew.step (Worker.move env)) fun s i => ∀ x, s.workers[i]? = some x → C x s.state

/-- Process one request alone, when the clock stands at `tick`: whether it is refused, and the state
after it. -/
def GroupCall.serve (env : Env) (c : GroupCall) (tick : Nat) (w : World) : Bool × World :=
  let after := ((perform false c.fd c.me c.rid c.command).run env { w with ticks := tick }).2
  (refusedBetween { w with ticks := tick } after, after)

/-- What the request does as a single step. -/
def GroupCall.inGroups (env : Env) (c : GroupCall) (tick : Nat) (v : GroupView) : Bool × GroupView :=
  c.command.inGroups c.me (env.clock_ms tick) v

/-- The groups, and which requests were refused, are what the same requests leave one at a time in some
order. -/
def Serialised (env : Env) (w₀ : World) (s : Crew Worker World) : Prop :=
  ∃ order : List (Worker × Nat), (order.map Prod.fst).Perm s.workers ∧
    (inOrder (GroupCall.serve env) (order.map fun d => (d.1.call, d.2)) w₀).1
      = order.map (fun d => d.1.refused) ∧
    (inOrder (GroupCall.serve env) (order.map fun d => (d.1.call, d.2)) w₀).2.groupView
      = s.state.groupView

section Crew

variable {env : Env}

/-- A turn of a handler is a step of the server. -/
theorem step_of_move {s s' : Crew Worker World} {i : Nat} (hs : s.step (Worker.move env) i = some s')
    (hbusy : ∀ x, s.workers[i]? = some x → ¬x.Finished) :
    Concurrent.step false env ⟨s.state, s.workers.map Worker.handler⟩ (.advance i)
      = some ⟨s'.state, s'.workers.map Worker.handler⟩ := by
  obtain ⟨x, hget, rfl⟩ := Option.map_eq_some_iff.mp hs
  have hlt := (List.getElem?_eq_some_iff.mp hget).1
  have hset : s.workers.set i (x.move env s.state).1
      = s.workers.take i ++ (x.move env s.state).1 :: s.workers.drop (i + 1) := by
    rw [List.set_eq_take_append_cons_drop, if_pos hlt]
  rw [Concurrent.step, List.getElem?_map, hget, hset]
  refine congrArg some ?_
  have hprog : ∀ out, x.handler.prog ≠ .pure out := fun out h => hbusy x hget ⟨out, h⟩
  unfold Concurrent.turn
  split
  · next out h => exact absurd h (hprog out)
  · simp [Worker.handler, Worker.move]

/-- **Alone, a group request is a single step.** -/
theorem serve_view (env : Env) (c : GroupCall) (tick : Nat) (w : World) :
    (c.serve env tick w).1 = (c.inGroups env tick w.groupView).1 ∧
      (c.serve env tick w).2.groupView = (c.inGroups env tick w.groupView).2 := by
  have hserved : Ensures env { w with ticks := tick } (perform false c.fd c.me c.rid c.command) _ :=
    perform_served c.fd c.me c.rid c.isGroup
  exact ⟨hserved.answer, hserved.view⟩

/-- Every group request waits for the move with which it takes effect. -/
theorem perform_waiting (fd me rid : Int) {c : Command} (hc : c.isGroupRequest = true) : ∃ n,
    Waiting env (c.groupCondition me) fd me c n (perform false fd me rid c) := by
  cases c with
  | create_group name memberIds =>
    obtain ⟨n, h⟩ := @create_group_waiting env fd me name memberIds
    exact ⟨n, h.lift (by decide)⟩
  | invite_to_group gid uid => exact ⟨2, (invite_to_group_waiting fd me gid uid).lift (by decide)⟩
  | accept_group_invite gid => exact ⟨1, (accept_group_invite_waiting fd me gid).lift (by decide)⟩
  | rename_group gid newName => exact ⟨1, (rename_group_waiting fd me gid newName).lift (by decide)⟩
  | remove_from_group gid uid => exact ⟨2, (remove_from_group_waiting fd me gid uid).lift (by decide)⟩
  | make_admin gid uid => exact ⟨2, (make_admin_waiting fd me gid uid).lift (by decide)⟩
  | leave_group gid => exact ⟨1, (leave_group_waiting fd me gid).lift (by decide)⟩
  | _ => cases hc

namespace Worker

/-- The request has not taken effect. -/
structure Pending (env : Env) (x : Worker) : Prop where
  quiet : x.refused = false
  waits : ∃ n, Waiting env (x.call.command.groupCondition x.call.me) x.call.fd x.call.me x.call.command n
    x.prog

/-- The request has taken effect, and is `refused` or not: what remains leaves the groups alone, and an
`ERROR` is sent only if it is, and then in the next move if not before. -/
structure Decided (env : Env) (refused : Bool) (x : Worker) : Prop where
  moves : x.prog.Moves env (x.call.command.groupCondition x.call.me) (Aside refused)
  accepted : refused = false → x.refused = false
  answered : refused = true → x.refused = true ∨ ∃ text h,
    x.prog = reply x.call.fd .ERROR text (u32 x.call.me) h >>= fun _ => pure .next

theorem refused_append (sent new : List Frame) :
    refusedBy (sent ++ new) = (refusedBy sent || refusedBy new) := List.any_append

theorem pending_start (c : GroupCall) : c.start.Pending env :=
  ⟨rfl, perform_waiting c.fd c.me c.rid c.isGroup⟩

theorem Pending.move {x : Worker} {w : World} (h : x.Pending env) (hmeets : x.Meets w) :
    ((x.move env w).2.groupView = w.groupView ∧ (x.move env w).1.Pending env) ∨
      ∃ tick, (x.move env w).2.groupView = (x.call.inGroups env tick w.groupView).2 ∧
        Decided env (x.call.inGroups env tick w.groupView).1 (x.move env w).1 := by
  obtain ⟨hquiet, n, hwaits⟩ := h
  cases n with
  | zero => exact hwaits.elim
  | succ n =>
    obtain ⟨hnone, hmove⟩ := hwaits.2 w hmeets
    have hstill : (x.move env w).1.refused = false := by
      have hnew : refusedBy (framesBetween w (x.prog.advance env w).2) = false := not_refused hnone
      exact (refused_append ..).trans (by rw [hnew, Bool.or_false]; exact hquiet)
    refine hmove.imp (fun hm => ⟨hm.1, hstill, n, hm.2⟩) fun ⟨tick, hview, hsettled⟩ => ⟨tick, hview, ?_⟩
    exact ⟨hsettled.moves, fun _ => hstill, fun hr => .inr (hsettled.answer hr)⟩

theorem Decided.move {b : Bool} {x : Worker} {w : World} (h : x.Decided env b) (hmeets : x.Meets w) :
    (x.move env w).2.groupView = w.groupView ∧ (x.move env w).1.Decided env b := by
  have hmove := h.moves.advance hmeets Aside.refl
  refine ⟨hmove.1.view, hmove.2, fun hb => ?_, fun hb => ?_⟩
  · have hnew : refusedBy (framesBetween w (x.prog.advance env w).2) = false :=
      not_refused (hmove.1.errors hb)
    exact (refused_append ..).trans (by rw [hnew, Bool.or_false]; exact h.accepted hb)
  · refine .inl ((refused_append ..).trans ?_)
    rcases h.answered hb with hsent | ⟨text, hout, hprog⟩
    · exact Bool.or_eq_true_iff.mpr (.inl hsent)
    · -- this move sends the refusal
      rw [hprog]
      have hnew : framesBetween w ((reply x.call.fd .ERROR text (u32 x.call.me) hout >>= fun _ =>
          pure Outcome.next).advance env w).2 = [_] := List.drop_left
      rw [hnew]
      exact Bool.or_eq_true_iff.mpr (.inr rfl)

/-- The handlers take effect one after another. -/
theorem linear (env : Env) : Linear (Worker.move env) Worker.Meets World.groupView Worker.call
    (GroupCall.inGroups env) (Worker.Pending env) (Worker.Decided env) where
  same _ _ := rfl
  pending _ _ h hmeets := h.move hmeets
  decided _ _ _ h hmeets := h.move hmeets

theorem Decided.result {b : Bool} {x : Worker} (h : x.Decided env b) (hfinished : x.Finished) :
    b = x.refused := by
  cases b with
  | false => exact (h.accepted rfl).symm
  | true =>
    rcases h.answered rfl with hsent | ⟨text, hout, hprog⟩
    · exact hsent.symm
    · obtain ⟨out, hpure⟩ := hfinished
      rw [hprog] at hpure
      cases hpure

theorem Pending.busy {x : Worker} (h : x.Pending env) : ¬x.Finished := by
  rintro ⟨out, hpure⟩
  obtain ⟨-, n, hwaits⟩ := h
  cases n with
  | zero => exact hwaits
  | succ n => exact hwaits.1 out hpure

end Worker

/-- The handlers stay at the requests they were started for. -/
theorem calls_step {s t : Crew Worker World} {i : Nat} (hs : s.step (Worker.move env) i = some t) :
    t.workers.map Worker.call = s.workers.map Worker.call := by
  obtain ⟨w, hget, rfl⟩ := Option.map_eq_some_iff.mp hs
  obtain ⟨hlt, hw⟩ := List.getElem?_eq_some_iff.mp hget
  rw [List.map_set]
  refine List.ext_getElem? fun j => ?_
  rw [List.getElem?_set]
  split
  · next hij =>
    subst hij
    simp [hlt, ← hw, Worker.move]
  · rfl

theorem calls_start (calls : List GroupCall) (w : World) :
    (Crew.processing calls w).workers.map Worker.call = calls := by
  rw [Crew.processing, List.map_map]
  exact List.map_id calls

theorem Worker.finished_of_returned {x : Worker} (h : x.returned = true) : x.Finished := by
  unfold Worker.returned at h
  split at h
  · next out hprog => exact ⟨out, hprog⟩
  · cases h

/-- A list of turns that can be taken is a run, and what a projection of the state at the end evaluates to
holds of it. -/
theorem groupRun_of_exec {calls : List GroupCall} {w₀ : World} {turns : List Nat}
    {C : Crew Worker World → Nat → Bool} {s : Crew Worker World}
    (h : Run.exec (Run.guard (Crew.step (Worker.move env)) C) (.processing calls w₀) turns = some s) :
    ∃ tr, Run (Crew.step (Worker.move env)) (fun s i => C s i = true) (.processing calls w₀) tr s := by
  obtain ⟨tr, run, -⟩ := Run.of_exec h
  exact ⟨tr, Run.of_guard run⟩

end Crew

/-! ## Runs -/

/-- **Group requests are serialisable while what was checked holds.** In a run whose turns meet the condition,
what the handlers leave of the groups, and which requests are refused, is what the same requests leave
one at a time in some order. -/
theorem groups_serialisable {env : Env} {calls : List GroupCall} {w₀ : World} {s : Crew Worker World}
    {tr : List (Taken (Crew Worker World) Nat)}
    (run : GroupRun env Worker.Meets (.processing calls w₀) tr s)
    (finished : ∀ x ∈ s.workers, x.Finished) :
    s.workers.map Worker.call = calls ∧ Serialised env w₀ s := by
  have hcalls : s.workers.map Worker.call = calls :=
    run.invariant (I := fun s => s.workers.map Worker.call = calls) (calls_start calls w₀)
      fun _ _ _ hx _ hs => (calls_step hs).trans hx
  have hstart : ∀ x ∈ (Crew.processing calls w₀).workers, x.Pending env := by
    intro x hx
    obtain ⟨c, -, rfl⟩ := List.mem_map.mp hx
    exact Worker.pending_start c
  obtain ⟨order, waiting, effected⟩ := (Worker.linear env).run run hstart
  have hnone : waiting = [] := by
    refine List.eq_nil_iff_forall_not_mem.mpr fun x hx => ?_
    refine (effected.waits x hx).busy (finished x ?_)
    exact effected.workers.symm.subset (List.mem_append_right _ hx)
  have hperm : (order.map Prod.fst).Perm s.workers := by
    simpa [hnone] using effected.workers.symm
  obtain ⟨hresults, hview⟩ := inOrder_view (serve_view env)
    (order.map fun d => (d.1.call, d.2)) w₀
  refine ⟨hcalls, order, hperm, ?_, hview.trans effected.view⟩
  -- every handler has finished, so its result shows in what it sent
  exact hresults.trans (forall₂_determined effected.results fun d hd b h =>
    h.result (finished d.1 (hperm.subset (List.mem_map_of_mem hd))))

/-- User 1 creates group 1 on connection 5. -/
def group_of_one : List Event :=
  [.accept 5, .request 5 (.of .REGISTER "username=a&password=x"), .request 5 (.of .CREATE_GROUP "name=g")]

/-- `INVITE_TO_GROUP` of user 2 to group 1 by user 1. -/
def invite_two : GroupCall := ⟨5, 1, 1, .invite_to_group 1 2, rfl⟩

/-- `RENAME_GROUP` of group 1 by user 1. -/
def rename_one : GroupCall := ⟨7, 1, 1, .rename_group 1 (str "h"), rfl⟩

/-- `LEAVE_GROUP` of group 1 by user 1. -/
def leave_one : GroupCall := ⟨7, 1, 1, .leave_group 1, rfl⟩

theorem lookupFinds_of_count {gid : Int} {S : List Field} {α : Type} {p : Prog S α} {w : World}
    (h : w.mem.g_groups.count gid = true) : (lookupFinds gid).Holds p w :=
  ⟨fun _ _ _ => h, fun _ _ _ => h⟩

/-- The group is renamed between the check and the act of an invitation. -/
theorem groups_serialisable_renamed : ∃ w₀ s, Reachable false Env.calm w₀ ∧
    s.workers.map Worker.call = [invite_two, rename_one] ∧ Serialised Env.calm w₀ s := by
  have hrun : ((Run.exec (Server.step false Env.calm) (World.new Tables.empty) group_of_one).bind fun w =>
      (Run.exec (Run.guard (Crew.step (Worker.move Env.calm)) fun s _ => s.state.mem.hasMember 1 1)
        (.processing [invite_two, rename_one] w) (0 :: List.replicate 9 1 ++ List.replicate 12 0)).map
          fun s => (w, s)).map (fun r => r.2.workers.all Worker.returned) = some true := by decide
  obtain ⟨⟨w, s⟩, hr, hreturned⟩ := Option.map_eq_some_iff.mp hrun
  obtain ⟨w, hw, hs⟩ := Option.bind_eq_some_iff.mp hr
  obtain ⟨s, hs, hpair⟩ := Option.map_eq_some_iff.mp hs
  cases hpair
  obtain ⟨tr, run⟩ := groupRun_of_exec hs
  have hreach : Reachable false Env.calm w := by
    obtain ⟨tr, hrun, -⟩ := Run.of_exec hw
    exact ⟨_, tr, booted_new Tables.empty_valid, hrun⟩
  have run := run.with_invariant (I := fun s => s.workers.map Worker.call = [invite_two, rename_one])
    (calls_start _ w) fun _ _ _ hx _ hs => (calls_step hs).trans hx
  refine ⟨w, s, hreach, groups_serialisable (run.mono ?_) ?_⟩
  · rintro s i ⟨hmember, hcalls⟩ x hget
    have hx : x.call ∈ s.workers.map Worker.call := List.mem_map_of_mem (List.mem_of_getElem? hget)
    have hfinds := lookupFinds_of_count (p := x.prog) (known_of_any hmember)
    rw [hcalls] at hx
    rw [Worker.Meets]
    rcases List.mem_pair.mp hx with hx | hx
    · rw [hx]
      exact ⟨fun _ _ _ => hmember, hfinds⟩
    · rw [hx]
      exact hfinds
  · exact fun x hx => Worker.finished_of_returned (List.all_eq_true.mp hreturned x hx)

/-- With a user who was added, the group and its name stay when somebody else leaves. -/
theorem name_leave_other {v : GroupView} {gid a b : Int} {g : Group} (hg : v.groups gid = some g)
    (hab : b ≠ a) :
    (((v.adjust gid fun g => { g with members := g.members.set b true }).leave gid a).groups gid).map Group.name
      = some g.name := by
  have hin : ((g.members.set b true).erase a).find? b = some true := by
    rw [UMap.find?_erase, if_neg hab, UMap.find?_set, if_pos rfl]
  have hstays : ((g.members.set b true).erase a).empty = false := by
    refine Bool.eq_false_iff.mpr fun h => ?_
    rw [(UMap.empty_iff _).mp h] at hin
    cases hin
  simp [GroupView.leave, GroupView.adjust, hg, hstays]

/-- **Group requests are not serialisable**: user 1 leaves, and the group is deleted, between the check and
the act of an invitation by user 1. The invitation makes the group anew, with user 2 and without a name,
and both requests succeed. -/
theorem groups_not_serialisable : ¬∀ (env : Env) (w₀ : World) (calls : List GroupCall)
    (s : Crew Worker World) (tr : List (Taken (Crew Worker World) Nat)), Reachable false env w₀ →
    GroupRun env (fun _ _ => True) (.processing calls w₀) tr s → (∀ x ∈ s.workers, x.Finished) →
    s.workers.map Worker.call = calls ∧ Serialised env w₀ s := by
  intro claim
  have hrun : ((Run.exec (Server.step false Env.calm) (World.new Tables.empty) group_of_one).bind fun w =>
      (Run.exec (Run.guard (Crew.step (Worker.move Env.calm)) fun _ _ => true)
        (.processing [invite_two, leave_one] w) ([0, 1] ++ List.replicate 3 1 ++ List.replicate 9 0)).map
          fun s => (w, s)).map (fun r => decide ((r.1.mem.hasMember 1 1 = true ∧
            (leave 1 1 r.1.mem.g_groups).count 1 = false) ∧
            r.2.workers.all Worker.returned = true ∧ r.2.workers.map Worker.refused = [false, false] ∧
            (r.2.state.groupView.groups 1).map Group.name ≠ (r.1.groupView.groups 1).map Group.name)) =
        some true := by decide
  obtain ⟨⟨w, s⟩, hr, hafter⟩ := Option.map_eq_some_iff.mp hrun
  obtain ⟨w, hw, hs⟩ := Option.bind_eq_some_iff.mp hr
  obtain ⟨s, hs, hpair⟩ := Option.map_eq_some_iff.mp hs
  cases hpair
  obtain ⟨tr, run⟩ := groupRun_of_exec hs
  obtain ⟨⟨hmember, hlast⟩, hreturned, hrefused, hrenamed⟩ := of_decide_eq_true hafter
  have hreach : Reachable false Env.calm w := by
    obtain ⟨tr, hrun, -⟩ := Run.of_exec hw
    exact ⟨_, tr, booted_new Tables.empty_valid, hrun⟩
  obtain ⟨hcalls, order, hperm, hresults, hview⟩ := claim Env.calm w [invite_two, leave_one] s tr hreach
    (run.mono fun _ _ _ _ _ => trivial)
    fun x hx => Worker.finished_of_returned (List.all_eq_true.mp hreturned x hx)
  obtain ⟨hsteps, hgroups⟩ := inOrder_view (serve_view Env.calm)
    (order.map fun d => (d.1.call, d.2)) w
  have horder : (order.map fun d => d.1.call).Perm [invite_two, leave_one] := by
    have hmap := hperm.map Worker.call
    rwa [hcalls, List.map_map] at hmap
  have hknown : ∃ g, w.groupView.groups 1 = some g := Option.isSome_iff_exists.mp (known_of_any hmember)
  obtain ⟨g, hg⟩ := hknown
  have hgone : (w.groupView.leave 1 1).groups 1 = none := by
    rw [← leave_view]
    exact Option.isNone_iff_eq_none.mp (Option.isSome_eq_false_iff.mp hlast)
  have hmember : w.groupView.hasMember 1 1 = true := hmember
  rw [hview] at hgroups
  rw [hresults] at hsteps
  rcases List.perm_pair.mp horder with horder | horder
  · -- the invitation first: user 2 is left in the group, which keeps its name
    obtain ⟨d₁, rest, rfl, hd₁, hrest⟩ := List.map_eq_cons_iff.mp horder
    obtain ⟨d₂, rest, rfl, hd₂, hrest⟩ := List.map_eq_cons_iff.mp hrest
    cases List.map_eq_nil_iff.mp hrest
    have hfirst : (invite_two.inGroups Env.calm d₁.2 w.groupView).2
        = w.groupView.adjust 1 fun g => { g with members := g.members.set 2 true } :=
      congrArg Prod.snd (if_pos hmember)
    have hlast : (inOrder (GroupCall.inGroups Env.calm) (([d₁, d₂] : List (Worker × Nat)).map
          fun d => (d.1.call, d.2)) w.groupView).2
        = (w.groupView.adjust 1 fun g => { g with members := g.members.set 2 true }).leave 1 1 := by
      rw [← hfirst, ← hd₁]
      simp only [List.map_cons, List.map_nil, inOrder, hd₂]
      rfl
    apply hrenamed
    rw [hgroups, hlast, name_leave_other hg (by decide), hg]
    rfl
  · -- the leave first: the invitation is refused
    obtain ⟨d₁, rest, rfl, hd₁, hrest⟩ := List.map_eq_cons_iff.mp horder
    obtain ⟨d₂, rest, rfl, hd₂, hrest⟩ := List.map_eq_cons_iff.mp hrest
    cases List.map_eq_nil_iff.mp hrest
    have hstays : (w.groupView.leave 1 1).hasMember 1 1 = false := by
      rw [GroupView.hasMember, hgone]
      rfl
    simp [inOrder, GroupCall.inGroups, hd₁, hd₂, invite_two, leave_one, Command.inGroups, hstays] at hsteps
    have hd : d₂.1.refused ∈ s.workers.map Worker.refused :=
      List.mem_map_of_mem (hperm.subset (by simp))
    rw [hrefused, hsteps.2] at hd
    exact absurd hd (by decide)

end ChatApp
