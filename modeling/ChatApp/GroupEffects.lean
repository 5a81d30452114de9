/-
`GroupEffects.lean` -- where the handlers of the group requests take effect.

Every handler of a group request has one move with which its request takes effect: the section of a case
that checks and acts in one, the check of a request that is refused, the act of one that is not. Under the
condition of `GroupRequests` that move does what the request does as a single step, and the moves after it
leave the groups alone. Alone, a handler meets the condition, and so does the single step.
-/
import ChatApp.GroupRequests

set_option autoImplicit false

namespace ChatApp

open Prog PostgresPersistence handle_client

/-! ## Before and after the effect -/

section Phases

variable (env : Env) (C : Condition) (fd me : Int) {S T : List Field}

/-- A handler whose request has taken effect: it leaves the groups alone, and if the request was refused it
has yet to say so. -/
structure Settled (refused : Bool) (p : Prog S Outcome) : Prop where
  moves : p.Moves env C (Aside refused)
  answer : refused = true → ∃ text h, p = reply fd .ERROR text (u32 me) h >>= fun _ => pure .next

/-- A handler whose request takes effect with one of its next `n` moves. -/
def Waiting (c : Command) : Nat → Prog S Outcome → Prop
  | 0, _ => False
  | n + 1, p => (∀ out, p ≠ pure out) ∧ ∀ w, C.Holds p w → NoErrors w (p.advance env w).2 ∧
      ((p.advance env w).2.groupView = w.groupView ∧ Waiting c n (p.advance env w).1 ∨
        ∃ tick, (p.advance env w).2.groupView = (c.inGroups me (env.clock_ms tick) w.groupView).2 ∧
          Settled env C fd me (c.inGroups me (env.clock_ms tick) w.groupView).1 (p.advance env w).1)

variable {env C fd me} {c : Command} {n : Nat} {refused : Bool} {α : Type}

theorem Settled.lift {p : Prog S Outcome} (hp : Settled env C fd me refused p) (h : S ⊆ T) :
    Settled env C fd me refused (p.lift h) := by
  refine ⟨hp.moves.lift h, fun hr => ?_⟩
  obtain ⟨text, hout, rfl⟩ := hp.answer hr
  exact ⟨text, h hout, rfl⟩

theorem Waiting.lift {p : Prog S Outcome} (hp : Waiting env C fd me c n p) (h : S ⊆ T) :
    Waiting env C fd me c n (p.lift h) := by
  induction n generalizing p with
  | zero => exact hp
  | succ n ih =>
    refine ⟨fun out hout => ?_, fun w hw => ?_⟩
    · cases p with
      | pure a => exact hp.1 a rfl
      | op o k => cases hout
    · rw [advance_lift]
      obtain ⟨herrors, hmove⟩ := hp.2 w (C.of_lift p h w hw)
      exact ⟨herrors, hmove.imp (fun hm => ⟨hm.1, ih hm.2⟩)
        fun ⟨tick, hview, hsettled⟩ => ⟨tick, hview, hsettled.lift h⟩⟩

/-- A refusal, and nothing else. -/
theorem refusal_settled (text : Bytes) (h : .out ∈ S) :
    Settled env C fd me true (andNext (reply fd .ERROR text (u32 me) h) : Prog S Outcome) :=
  ⟨moves_of_aside (R := fun _ => True) (by simp [andNext, Op.aside]), fun _ => ⟨text, h, rfl⟩⟩

/-- What follows the act of an accepted request. -/
theorem follows_settled {gid : Int}
    (hC : ∀ (p : Prog S Outcome) w, C.Holds p w → (lookupFinds gid).Holds p w) {p : Prog S Unit}
    (hp : Follows env gid p) : Settled env C fd me false (andNext p) := by
  refine ⟨Moves.mono (C := lookupFinds gid) ?_ hC, fun h => Bool.noConfusion h⟩
  exact (Guarded.bind hp fun _ => .pure Outcome.next).moves

/-- A section with which the request takes effect. -/
theorem waiting_section {p : Prog S α} (hp : p.Unlocked) {f : α → Prog S Outcome}
    (h : ∀ w, C.Holds (locked p >>= f) w → ∃ a w₁, p.run env w = (a, w₁) ∧ NoErrors w w₁ ∧
      ∃ tick, w₁.groupView = (c.inGroups me (env.clock_ms tick) w.groupView).2 ∧
        Settled env C fd me (c.inGroups me (env.clock_ms tick) w.groupView).1 (f a)) :
    Waiting env C fd me c 1 (locked p >>= f) := by
  refine ⟨fun out hout => (by cases hout), fun w hw => ?_⟩
  obtain ⟨a, w₁, hrun, herrors, heffect⟩ := h w hw
  rw [advance_locked hp f w, hrun]
  exact ⟨herrors, .inr heffect⟩

/-- A request that is one check and one act: what it does as a single step. -/
def Checked (c : Command) (me : Int) (check : ServerState → Bool) (act : Groups → Groups) : Prop :=
  ∀ ms w, c.inGroups me ms (World.groupView w) =
    if check w.mem then (false, ⟨(act w.mem.g_groups).find?, w.mem.g_next_group_id⟩)
    else (true, w.groupView)

/-- A check that refuses the request, and an act in a section of its own. -/
theorem waiting_checked {check : ServerState → Bool} {act : Groups → Groups}
    (hstep : Checked c me check act) (hg : .var .g_groups ∈ S) (text : Bytes) (hout : .out ∈ S)
    {rest : Prog S Unit} {gid : Int}
    (hC : ∀ (p : Prog S Outcome) w, C.Holds p w → (lookupFinds gid).Holds p w)
    (hact : ∀ w, C.Holds (locked (modify .g_groups act hg) >>= fun _ => andNext rest : Prog S Outcome) w →
      check w.mem = true)
    (hrest : Follows env gid rest) :
    Waiting env C fd me c 2 (locked (read check) >>= fun ok => andNext (if !ok then
      reply fd .ERROR text (u32 me) hout else locked (modify .g_groups act hg) >>= fun _ => rest)) := by
  refine ⟨fun out hout => (by cases hout), fun w hw => ?_⟩
  rw [advance_locked (by simp [Unlocked, Op.isLock, Op.isUnlock])]
  refine ⟨NoErrors.refl w, ?_⟩
  cases hcheck : check w.mem with
  | false =>
    right
    refine ⟨0, ?_, ?_⟩
    · rw [hstep, hcheck]
      rfl
    · rw [hstep, run_read, hcheck]
      exact refusal_settled text hout
  | true =>
    left
    refine ⟨rfl, ?_⟩
    rw [run_read, hcheck]
    refine waiting_section (p := modify .g_groups act hg) (f := fun _ => andNext rest)
      (by simp [Unlocked, Op.isLock, Op.isUnlock])
      fun w₁ hw₁ => ⟨(), _, rfl, noErrors_of_out rfl, 0, ?_, ?_⟩
    · rw [hstep, hact w₁ hw₁]
      rfl
    · rw [hstep, hact w₁ hw₁]
      exact follows_settled hC hrest

end Phases

/-! ## The cases -/

section Cases

variable {env : Env} (fd me : Int)

theorem adjust_view (w : World) (gid : Int) (f : Group → Group) :
    (⟨(w.mem.g_groups.adjust gid f).find?, w.mem.g_next_group_id⟩ : GroupView) = w.groupView.adjust gid f := by
  refine congrArg (GroupView.mk · _) (funext fun k => ?_)
  rw [UMap.find?_adjust]
  by_cases hk : k = gid
  · subst hk
    rfl
  · rw [if_neg hk]
    exact (if_neg hk).symm

theorem known_of_any {s : ServerState} {gid : Int} {f : Group → Bool}
    (h : (s.g_groups.find? gid).any f = true) : s.g_groups.count gid = true := by
  cases hg : s.g_groups.find? gid with
  | none => rw [hg] at h; cases h
  | some g => rw [UMap.count, hg]; rfl

/-- The inviter is a member, so the group is there and `operator[]` makes none. -/
theorem checked_invite (gid uid : Int) : Checked (.invite_to_group gid uid) me
    (fun s => s.hasMember gid me) (put_member gid uid) := by
  intro ms w
  have hadd : (Command.invite_to_group gid uid).inGroups me ms w.groupView =
      if w.mem.hasMember gid me then
        (false, ⟨(add_member gid uid w.mem.g_groups).find?, w.mem.g_next_group_id⟩)
      else (true, w.groupView) := by
    rw [Command.inGroups, add_member, adjust_view]
    rfl
  rw [hadd]
  by_cases hmember : w.mem.hasMember gid me = true
  · rw [if_pos hmember, if_pos hmember, put_member_of_count uid (known_of_any hmember)]
  · rw [if_neg hmember, if_neg hmember]

theorem checked_make_admin (gid uid : Int) : Checked (.make_admin gid uid) me
    (fun s => s.hasAdmin gid me) (set_admin gid uid) := by
  intro ms w
  rw [Command.inGroups, set_admin, adjust_view]
  rfl

theorem checked_remove (gid uid : Int) : Checked (.remove_from_group gid uid) me
    (fun s => if uid = me then s.g_groups.count gid else s.hasAdmin gid me) (remove_member gid uid) := by
  intro ms w
  rw [Command.inGroups, remove_member, adjust_view]
  rfl

theorem checked_rename (gid : Int) (newName : Bytes) : Checked (.rename_group gid newName) me
    (fun s => s.hasMember gid me) (rename gid newName) := by
  intro ms w
  rw [Command.inGroups, rename, adjust_view]
  rfl

/-! What follows the act of each of them. -/

theorem invited_follows (gid uid : Int) : Follows env gid (do
    (notify_invited me gid uid).lift
    let _ ← (announce false gid (sys_actor_target me uid (str " added ") (str " to the group"))).lift
    reply fd .SUCCESS (str "Added") (u32 me) : Prog member_writes Unit) := by
  refine ((notify_invited_follows me uid).lift _).bind fun _ => ?_
  refine ((announce_follows (sys_actor_target_follows me uid _ _)).lift _).bind fun _ => ?_
  exact reply_follows _ _ _ _ (by simp)

theorem promoted_follows (gid uid : Int) : Follows env gid (do
    let membersToNotify ← (announce false gid
      (sys_actor_target me uid (str " made ") (str " an admin"))).lift
    (deliver_all (admin_notice me gid uid) membersToNotify).lift
    reply fd .SUCCESS (str "Made admin") (u32 me) : Prog member_writes Unit) := by
  refine ((announce_follows (sys_actor_target_follows me uid _ _)).lift _).bind fun members => ?_
  exact ((deliver_all_follows (by simp [admin_notice]) members).lift _).bind fun _ =>
    reply_follows _ _ _ _ (by simp)

theorem removed_follows (gid uid : Int) : Follows env gid (do
    let _ ← (announce false gid (sys_actor_target me uid (str " removed ") (str " from the group"))).lift
    (deliver (removed_notice gid) uid).lift
    let remainingMembers ← (remaining_members false gid).lift
    (deliver_all (member_removed_notice gid uid) remainingMembers).lift
    reply fd .SUCCESS (str "Removed") (u32 me) : Prog member_writes Unit) := by
  refine ((announce_follows (sys_actor_target_follows me uid _ _)).lift _).bind fun _ => ?_
  refine ((deliver_follows (by simp [removed_notice]) uid).lift _).bind fun _ => ?_
  refine ((locked_read_follows _).lift _).bind fun members => ?_
  exact ((deliver_all_follows (by simp [member_removed_notice]) members).lift _).bind fun _ =>
    reply_follows _ _ _ _ (by simp)

theorem renamed_follows (gid : Int) (newName : Bytes) : Follows env gid (do
    let membersToNotify ← (announce false gid
      (sys_actor me (str " renamed the group to \"" ++ newName ++ str "\""))).lift
    (deliver_all (renamed_notice me gid newName) membersToNotify).lift
    reply fd .SUCCESS (str "Renamed") (u32 me) : Prog rename_writes Unit) := by
  refine ((announce_follows (sys_actor_follows me _)).lift _).bind fun members => ?_
  exact ((deliver_all_follows (by simp [renamed_notice]) members).lift _).bind fun _ =>
    reply_follows _ _ _ _ (by simp)

theorem invite_to_group_waiting (gid uid : Int) :
    Waiting env ((Command.invite_to_group gid uid).groupCondition me) fd me (.invite_to_group gid uid) 2
      (invite_to_group false fd me gid uid) :=
  waiting_checked (checked_invite me gid uid) (by simp) (str "Invite failed") (by simp)
    (fun _ _ hp => hp.2) (fun _ hw => hw.1 (by simp) (fun _ => _) rfl) (invited_follows fd me gid uid)

theorem make_admin_waiting (gid uid : Int) :
    Waiting env ((Command.make_admin gid uid).groupCondition me) fd me (.make_admin gid uid) 2
      (make_admin false fd me gid uid) :=
  waiting_checked (checked_make_admin me gid uid) (by simp) (str "Not permitted") (by simp)
    (fun _ _ hp => hp.2) (fun _ hw => hw.1 (by simp) (fun _ => _) rfl) (promoted_follows fd me gid uid)

theorem remove_from_group_waiting (gid uid : Int) :
    Waiting env ((Command.remove_from_group gid uid).groupCondition me) fd me (.remove_from_group gid uid) 2
      (remove_from_group false fd me gid uid) :=
  waiting_checked (checked_remove me gid uid) (by simp) (str "Not permitted") (by simp)
    (fun _ _ hp => hp.2) (fun _ hw => hw.1 (by simp) (fun _ => _) rfl) (removed_follows fd me gid uid)

theorem rename_group_waiting (gid : Int) (newName : Bytes) :
    Waiting env ((Command.rename_group gid newName).groupCondition me) fd me (.rename_group gid newName) 1
      (rename_group false fd me gid newName) := by
  refine waiting_section (by simp [Unlocked, Op.isLock, Op.isUnlock]) fun w _ => ?_
  have hstep : ∀ ms, (Command.rename_group gid newName).inGroups me ms w.groupView =
      if w.mem.hasMember gid me then
        (false, ⟨(rename gid newName w.mem.g_groups).find?, w.mem.g_next_group_id⟩)
      else (true, w.groupView) := fun ms => checked_rename me gid newName ms w
  cases hmember : w.mem.hasMember gid me with
  | false =>
    refine ⟨false, w, by simp [hmember], NoErrors.refl w, 0, ?_, ?_⟩
    · rw [hstep, hmember]
      rfl
    · rw [hstep, hmember]
      exact refusal_settled _ _
  | true =>
    refine ⟨true, { w with mem := { w.mem with g_groups := rename gid newName w.mem.g_groups } },
      by simp [hmember, Var.modify], noErrors_of_out rfl, 0, ?_, ?_⟩
    · rw [hstep, hmember]
      rfl
    · rw [hstep, hmember]
      exact follows_settled (fun _ _ hp => hp) (Guarded.bind (.pure ()) fun _ =>
        renamed_follows fd me gid newName)

theorem accept_group_invite_waiting (gid : Int) :
    Waiting env ((Command.accept_group_invite gid).groupCondition me) fd me (.accept_group_invite gid) 1
      (accept_group_invite false fd me gid) := by
  refine waiting_section (p := do
    let known ← read fun s => s.g_groups.count gid
    modify .g_groups (add_member gid me)
    pure known) (by simp [Unlocked, Op.isLock, Op.isUnlock]) fun w _ => ?_
  refine ⟨w.mem.g_groups.count gid, { w with mem := { w.mem with
    g_groups := add_member gid me w.mem.g_groups } }, rfl, noErrors_of_out rfl, 0, ?_, ?_⟩
  · rw [Command.inGroups, ← adjust_view]
    rfl
  · have hknown : w.mem.g_groups.count gid = (w.groupView.groups gid).isSome := rfl
    rw [Command.inGroups, hknown]
    cases w.groupView.groups gid with
    | none => exact refusal_settled _ _
    | some g =>
      refine ⟨moves_of_aside (R := fun _ => True) ?_, fun h => Bool.noConfusion h⟩
      simp [andNext, notify_joined, Op.aside]

theorem leave_view (w : World) (gid : Int) :
    (⟨(leave gid me w.mem.g_groups).find?, w.mem.g_next_group_id⟩ : GroupView) = w.groupView.leave gid me := by
  refine congrArg (GroupView.mk · _) (funext fun k => ?_)
  by_cases hk : k = gid
  · subst hk
    rw [if_pos rfl, leave]
    show _ = (w.mem.g_groups.find? k).bind _
    cases hg : w.mem.g_groups.find? k with
    | none => exact hg
    | some g =>
      dsimp only [Option.bind_some]
      split
      · rw [UMap.find?_erase, if_pos rfl]
      · rw [UMap.find?_set, if_pos rfl]
  · rw [if_neg hk, leave]
    show _ = w.mem.g_groups.find? k
    split
    · split
      · rw [UMap.find?_erase, if_neg hk]
      · rw [UMap.find?_set, if_neg hk]
    · rfl

theorem leave_group_waiting (gid : Int) :
    Waiting env ((Command.leave_group gid).groupCondition me) fd me (.leave_group gid) 1
      (leave_group false fd me gid) := by
  refine waiting_section (by simp [Unlocked, Op.isLock, Op.isUnlock]) fun w _ => ?_
  refine ⟨(w.mem.g_groups.count gid, w.mem.g_groups.count gid && !(leave gid me w.mem.g_groups).count gid),
    { w with mem := { w.mem with g_groups := leave gid me w.mem.g_groups } }, rfl, noErrors_of_out rfl,
    0, ?_, ?_⟩
  · rw [Command.inGroups, ← leave_view]
    rfl
  · refine ⟨moves_of_aside (R := fun _ => True) ?_, fun h => Bool.noConfusion h⟩
    simp [andNext, Op.aside, Command.inGroups]

/-- After the record is inserted: the second section inserts the same record, if it finds it. -/
theorem announce_group_follows (name : Bytes) (memberIds : List Int) {gid : Int} (hgid : gid ≠ -1) :
    (announce_group false fd me name memberIds gid).Guarded env
      ((insertsAgain me gid name memberIds).and (lookupFinds gid)) (Aside false) := by
  have hpopulate : (populate_group false me gid name memberIds).Guarded env
      ((insertsAgain me gid name memberIds).and (lookupFinds gid)) (Aside false) := by
    refine Guarded.locked (by simp [Unlocked, Op.isLock, Op.isUnlock]) fun w hw => ?_
    have hfound := hw.1 (List.Subset.refl _) pure (by rw [lift_self, bind_pure]; rfl)
    refine ⟨congrArg (GroupView.mk · _) (funext fun k => ?_), fun _ => noErrors_of_out rfl⟩
    refine (UMap.find?_set ..).trans ?_
    split
    · next hk => rw [hk, hfound]; rfl
    · rfl
  have hrest : Follows env gid (do
      reply fd .SUCCESS (created_reply me gid name memberIds) (u32 me)
      let _ ← announce false gid (sys_actor me (str " created the group"))
      pure () : Prog announce_writes Unit) :=
    (reply_follows _ _ _ _ (by simp)).bind fun _ =>
      (announce_follows (sys_actor_follows me _)).bind fun _ => .pure ()
  rw [announce_group, if_neg hgid]
  exact (hpopulate.lift _).bind fun _ => ⟨hrest.closed, hrest.moves.mono fun _ _ hp => hp.2⟩

/-- The section that inserts the record: from then on the group exists. -/
theorem create_group_section_waiting (name : Option Bytes) (tick : Nat) (memberIds : List Int) :
    Waiting env ((Command.create_group name memberIds).groupCondition me) fd me
      (.create_group name memberIds) 1 ((do
        let gid ← (create_group_mem me (name_at (env.clock_ms tick) name) memberIds).lift
        andNext (announce_group false fd me (name_at (env.clock_ms tick) name) memberIds (gid.getD (-1))).lift :
          Prog create_group_writes Outcome)) := by
  refine waiting_section (p := do
    let gid ← read fun s => s.g_next_group_id
    modify .g_next_group_id succ_int
    modify .g_groups fun g => g.set gid (new_group gid (name_at (env.clock_ms tick) name) me memberIds)
    pure (some gid)) (by simp [Unlocked, Op.isLock, Op.isUnlock]) fun w _ => ?_
  refine ⟨some w.mem.g_next_group_id, { w with mem := { w.mem with
    g_next_group_id := succ_int w.mem.g_next_group_id
    g_groups := w.mem.g_groups.set w.mem.g_next_group_id
      (new_group w.mem.g_next_group_id (name_at (env.clock_ms tick) name) me memberIds) } }, rfl,
    noErrors_of_out rfl, tick, ?_, ?_⟩
  · rw [Command.inGroups]
    refine congrArg (GroupView.mk · _) (funext fun k => ?_)
    exact UMap.find?_set ..
  · rw [Command.inGroups]
    show Settled env _ fd me (w.mem.g_next_group_id == -1) (andNext
      (announce_group false fd me (name_at (env.clock_ms tick) name) memberIds w.mem.g_next_group_id).lift)
    by_cases hfailed : w.mem.g_next_group_id = -1
    · rw [announce_group, if_pos hfailed, hfailed]
      exact refusal_settled (str "Failed to create group") (by simp)
    · rw [beq_eq_false_iff_ne.mpr hfailed]
      refine ⟨?_, fun h => Bool.noConfusion h⟩
      have hfollows : (announce_group false fd me (name_at (env.clock_ms tick) name) memberIds
          w.mem.g_next_group_id).Guarded env _ _ := announce_group_follows fd me _ memberIds hfailed
      have hfollows := hfollows.lift (T := create_group_writes) (by simp)
      have hmoves := (Guarded.bind hfollows fun _ => .pure Outcome.next).moves
      exact hmoves.mono fun _ _ hp => ⟨(hp _).1 _, (hp _).2⟩

theorem create_group_waiting (name : Option Bytes) (memberIds : List Int) : ∃ n,
    Waiting env ((Command.create_group name memberIds).groupCondition me) fd me
      (.create_group name memberIds) n (create_group false fd me name memberIds) := by
  cases name with
  | some name => exact ⟨1, create_group_section_waiting fd me (some name) 0 memberIds⟩
  | none =>
    refine ⟨2, fun out hout => (by cases hout), fun w hw => ⟨noErrors_of_out rfl, .inl ⟨rfl, ?_⟩⟩⟩
    exact create_group_section_waiting fd me none w.ticks memberIds

end Cases

/-! ## The cases alone

A handler that nobody interrupts does what the request does as a single step. -/

/-- The frames that were sent between two states. -/
def framesBetween (w w' : World) : List Frame := w'.out.drop w.out.length

/-- Whether one of the frames is an `ERROR`. -/
def refusedBy (frames : List Frame) : Bool := frames.any fun f => f.type = .ERROR

/-- Whether an `ERROR` was sent between two states. -/
def refusedBetween (w w' : World) : Bool := refusedBy (framesBetween w w')

/-- The requests that are processed at the same time. -/
def Command.isGroupRequest : Command → Bool
  | .create_group .. | .invite_to_group .. | .accept_group_invite _ | .rename_group ..
  | .remove_from_group .. | .make_admin .. | .leave_group _ => true
  | _ => false

/-- From `w` to `w'` the request was served as a single step, at the time `ms`. -/
structure Served (me ms : Int) (c : Command) (w w' : World) : Prop where
  view : w'.groupView = (c.inGroups me ms w.groupView).2
  answer : refusedBetween w w' = (c.inGroups me ms w.groupView).1

section Alone

variable {env : Env} {w w' : World} {S : List Field} (fd me : Int) {c : Command} {ms : Int}

theorem not_refused (h : NoErrors w w') : refusedBetween w w' = false := by
  obtain ⟨new, hout, hnew⟩ := h
  rw [refusedBetween, framesBetween, hout, List.drop_left]
  simpa [refusedBy] using hnew

/-- A refusal, alone. -/
theorem refusal_served (text : Bytes) (h : .out ∈ S)
    (hrefuses : c.inGroups me ms w.groupView = (true, w.groupView)) :
    Ensures env w (andNext (reply fd .ERROR text (u32 me) h) : Prog S Outcome) fun _ w' =>
      Served me ms c w w' := by
  refine ⟨?_, ?_⟩
  · rw [hrefuses]
    rfl
  · rw [hrefuses, refusedBetween]
    simp [andNext, reply, framesBetween, refusedBy]

/-- What follows an act, alone: the group is known and stays so. -/
theorem follows_alone {gid : Int} {α : Type} {p : Prog S α} (hp : Follows env gid p)
    (hfound : w.mem.g_groups.count gid = true) :
    Ensures env w p fun _ w' => w'.groupView = w.groupView ∧ NoErrors w w' := by
  have hcount : ∀ w' : World, w'.groupView = w.groupView → w'.mem.g_groups.count gid = true := by
    intro w' hview
    have hsame : (w'.groupView.groups gid).isSome = (w.groupView.groups gid).isSome := by rw [hview]
    exact hsame.trans hfound
  refine hp.moves.run (I := fun w' => w'.groupView = w.groupView ∧ NoErrors w w') (fun p w' h => ?_)
    (fun w' w'' haside h => ⟨haside.view.trans h.1, h.2.trans (haside.errors rfl)⟩)
    ⟨rfl, NoErrors.refl w⟩
  exact ⟨fun _ _ _ => hcount w' h.1, fun _ _ _ => hcount w' h.1⟩

/-- A check and an act, alone. -/
theorem checked_served {check : ServerState → Bool} {act : Groups → Groups} {gid : Int}
    (hstep : Checked c me check act) (hg : .var .g_groups ∈ S) (text : Bytes) (hout : .out ∈ S)
    {rest : Prog S Unit} (hrest : Follows env gid rest)
    (hknown : check w.mem = true → (act w.mem.g_groups).count gid = true) :
    Ensures env w (locked (read check) >>= fun ok => andNext (if !ok then
      reply fd .ERROR text (u32 me) hout else locked (modify .g_groups act hg) >>= fun _ => rest))
      fun _ w' => Served me ms c w w' := by
  refine Ensures.bind (R := fun ok w₁ => ok = check w.mem ∧ w₁ = w) ⟨by simp, by simp⟩ fun ok w₁ h₁ => ?_
  obtain ⟨rfl, rfl⟩ := h₁
  have hnow := hstep ms w₁
  cases hcheck : check w₁.mem with
  | false =>
    rw [hcheck] at hnow
    exact refusal_served fd me text hout hnow
  | true =>
    rw [hcheck] at hnow
    have hact : Ensures env w₁ (locked (modify .g_groups act hg) : Prog S Unit) fun _ w₂ =>
        w₂ = { w₁ with mem := { w₁.mem with g_groups := act w₁.mem.g_groups } } := by
      rw [Ensures, run_locked, run_modify]
      rfl
    refine Ensures.bind (hact.bind fun _ w₂ h₂ => ?_) fun _ w' h' => ensures_pure h'
    subst h₂
    refine (follows_alone hrest (hknown hcheck)).mono fun _ w' h => ⟨?_, ?_⟩
    · rw [hnow, h.1]
      rfl
    · rw [hnow]
      exact not_refused h.2

theorem count_adjust (g : Groups) (gid k : Int) (f : Group → Group) :
    UMap.count (g.adjust gid f) k = g.count k := by
  rw [UMap.count, UMap.find?_adjust, UMap.count]
  split
  · next hk => rw [hk, Option.isSome_map]
  · rfl

/-- A section that serves the request, and what follows it, alone. -/
theorem section_served {α : Type} {p : Prog S α} {f : α → Prog S Outcome} (a : α) (w₁ : World)
    (hrun : p.run env w = (a, w₁)) (hout : w₁.out = w.out)
    (hview : w₁.groupView = (c.inGroups me ms w.groupView).2)
    (hrest : Ensures env w₁ (f a) fun _ w' => w'.groupView = w₁.groupView ∧
      refusedBetween w₁ w' = (c.inGroups me ms w.groupView).1) :
    Ensures env w (locked p >>= f) fun _ w' => Served me ms c w w' := by
  rw [Ensures, run_bind, run_locked, hrun]
  obtain ⟨hsame, hanswer⟩ := hrest
  refine ⟨hsame.trans hview, ?_⟩
  rw [← hanswer, refusedBetween, refusedBetween, framesBetween, framesBetween, hout]

/-- An answer that leaves the groups alone and refuses nothing. -/
theorem aside_alone {p : Prog S Outcome} (hp : p.Always (Op.aside false) fun _ => True) :
    Ensures env w p fun _ w' => w'.groupView = w.groupView ∧ refusedBetween w w' = false := by
  have haside : Ensures env w p fun _ w' => Aside false w w' :=
    hp.rel (R := fun _ => True) Aside.refl Aside.trans fun _ w ho => ho.exec env w
  exact haside.mono fun _ _ h => ⟨h.view, not_refused (h.errors rfl)⟩

theorem refusal_alone (text : Bytes) (h : .out ∈ S) :
    Ensures env w (andNext (reply fd .ERROR text (u32 me) h) : Prog S Outcome) fun _ w' =>
      w'.groupView = w.groupView ∧ refusedBetween w w' = true := by
  refine ⟨rfl, ?_⟩
  rw [refusedBetween]
  simp [andNext, reply, framesBetween, refusedBy]

theorem rename_group_served (gid : Int) (newName : Bytes) :
    Ensures env w (rename_group false fd me gid newName) fun _ w' =>
      Served me ms (.rename_group gid newName) w w' := by
  have hstep : (Command.rename_group gid newName).inGroups me ms w.groupView =
      if w.mem.hasMember gid me then
        (false, ⟨(rename gid newName w.mem.g_groups).find?, w.mem.g_next_group_id⟩)
      else (true, w.groupView) := checked_rename me gid newName ms w
  cases hmember : w.mem.hasMember gid me with
  | false =>
    rw [hmember] at hstep
    refine section_served me false w (by simp [hmember]) rfl (by rw [hstep]; rfl) ?_
    rw [hstep]
    exact refusal_alone fd me _ _
  | true =>
    rw [hmember] at hstep
    refine section_served me true ({ w with mem := { w.mem with
      g_groups := rename gid newName w.mem.g_groups } }) (by simp [hmember, Var.modify]) rfl
      (by rw [hstep]; rfl) ?_
    rw [hstep]
    refine Ensures.bind (follows_alone (renamed_follows fd me gid newName) ?_) fun _ w' h =>
      ensures_pure ⟨h.1, not_refused h.2⟩
    exact (count_adjust ..).trans (known_of_any hmember)

theorem accept_group_invite_served (gid : Int) :
    Ensures env w (accept_group_invite false fd me gid) fun _ w' =>
      Served me ms (.accept_group_invite gid) w w' := by
  refine section_served me (p := do
    let known ← read fun s => s.g_groups.count gid
    modify .g_groups (add_member gid me)
    pure known) (w.mem.g_groups.count gid) ({ w with mem := { w.mem with
      g_groups := add_member gid me w.mem.g_groups } }) rfl rfl ?_ ?_
  · rw [Command.inGroups, ← adjust_view]
    rfl
  · have hknown : w.mem.g_groups.count gid = (w.groupView.groups gid).isSome := rfl
    rw [Command.inGroups, hknown]
    cases w.groupView.groups gid with
    | none => exact refusal_alone fd me _ _
    | some g => exact aside_alone (by simp [andNext, notify_joined, Op.aside])

theorem leave_group_served (gid : Int) :
    Ensures env w (leave_group false fd me gid) fun _ w' => Served me ms (.leave_group gid) w w' := by
  refine section_served me
    (w.mem.g_groups.count gid, w.mem.g_groups.count gid && !(leave gid me w.mem.g_groups).count gid)
    ({ w with mem := { w.mem with g_groups := leave gid me w.mem.g_groups } }) rfl rfl ?_ ?_
  · rw [Command.inGroups, ← leave_view]
    rfl
  · rw [Command.inGroups]
    exact aside_alone (by simp [andNext, Op.aside])

/-- After the record is inserted, alone. -/
theorem announce_group_alone (name : Bytes) (memberIds : List Int) {gid : Int} (hgid : gid ≠ -1)
    (hfound : w.mem.g_groups.find? gid = some (new_group gid name me memberIds)) :
    Ensures env w (announce_group false fd me name memberIds gid) fun _ w' =>
      w'.groupView = w.groupView ∧ NoErrors w w' := by
  have hstays : ∀ w' : World, w'.groupView = w.groupView →
      w'.mem.g_groups.find? gid = some (new_group gid name me memberIds) := fun w' hview =>
    (congrFun (congrArg GroupView.groups hview) gid).trans hfound
  have hcount : ∀ w' : World, w'.groupView = w.groupView → w'.mem.g_groups.count gid = true := by
    intro w' hview
    rw [UMap.count, hstays w' hview]
    rfl
  refine (announce_group_follows fd me name memberIds hgid).moves.run
    (I := fun w' => w'.groupView = w.groupView ∧ NoErrors w w') (fun p w' h => ?_)
    (fun w' w'' haside h => ⟨haside.view.trans h.1, h.2.trans (haside.errors rfl)⟩)
    ⟨rfl, NoErrors.refl w⟩
  exact ⟨fun _ _ _ => hstays w' h.1, fun _ _ _ => hcount w' h.1, fun _ _ _ => hcount w' h.1⟩

/-- `CREATE_GROUP` once it has the name. -/
theorem create_group_section_served (name : Option Bytes) (memberIds : List Int) :
    Ensures env w (do
      let gid ← (create_group_mem me (name_at ms name) memberIds).lift
      andNext (announce_group false fd me (name_at ms name) memberIds (gid.getD (-1))).lift :
        Prog create_group_writes Outcome) fun _ w' => Served me ms (.create_group name memberIds) w w' := by
  refine section_served me (p := do
    let gid ← read fun s => s.g_next_group_id
    modify .g_next_group_id succ_int
    modify .g_groups fun g => g.set gid (new_group gid (name_at ms name) me memberIds)
    pure (some gid)) (some w.mem.g_next_group_id) ({ w with mem := { w.mem with
      g_next_group_id := succ_int w.mem.g_next_group_id
      g_groups := w.mem.g_groups.set w.mem.g_next_group_id
        (new_group w.mem.g_next_group_id (name_at ms name) me memberIds) } }) rfl rfl ?_ ?_
  · rw [Command.inGroups]
    refine congrArg (GroupView.mk · _) (funext fun k => ?_)
    exact UMap.find?_set ..
  · rw [Command.inGroups]
    by_cases hfailed : w.mem.g_next_group_id = -1
    · have hanswer : (w.groupView.next == -1) = true := beq_iff_eq.mpr hfailed
      rw [hanswer, hfailed, Option.getD_some, announce_group, if_pos rfl]
      exact refusal_alone fd me (str "Failed to create group") (by simp)
    · have hanswer : (w.groupView.next == -1) = false := beq_eq_false_iff_ne.mpr hfailed
      have hagain : Ensures env { w with mem := { w.mem with
          g_next_group_id := succ_int w.mem.g_next_group_id
          g_groups := w.mem.g_groups.set w.mem.g_next_group_id
            (new_group w.mem.g_next_group_id (name_at ms name) me memberIds) } } _ _ :=
        announce_group_alone fd me (name_at ms name) memberIds hfailed (by rw [UMap.find?_set, if_pos rfl])
      rw [hanswer]
      exact Ensures.bind (hagain.lift _) fun _ w' h => ensures_pure ⟨h.1, not_refused h.2⟩

theorem create_group_served (name : Option Bytes) (memberIds : List Int) :
    Ensures env w (create_group false fd me name memberIds) fun _ w' =>
      Served me (env.clock_ms w.ticks) (.create_group name memberIds) w w' := by
  cases name with
  | some name => exact create_group_section_served fd me (some name) memberIds
  | none =>
    have hsection : Ensures env { w with ticks := w.ticks + 1 } _ fun _ w' =>
        Served me (env.clock_ms w.ticks) (.create_group none memberIds) { w with ticks := w.ticks + 1 } w' :=
      create_group_section_served fd me none memberIds
    exact ⟨hsection.view, hsection.answer⟩

/-- **Alone, a group request is a single step.** -/
theorem perform_served (rid : Int) (hc : c.isGroupRequest = true) :
    Ensures env w (perform false fd me rid c) fun _ w' => Served me (env.clock_ms w.ticks) c w w' := by
  cases c with
  | create_group name memberIds => exact (create_group_served fd me name memberIds).lift (by decide)
  | invite_to_group gid uid =>
    refine (checked_served fd me (checked_invite me gid uid) (by simp) (str "Invite failed") (by simp)
      (invited_follows fd me gid uid) fun h => ?_).lift (by decide)
    rw [put_member_of_count uid (known_of_any h)]
    exact (count_adjust ..).trans (known_of_any h)
  | accept_group_invite gid => exact (accept_group_invite_served fd me gid).lift (by decide)
  | rename_group gid newName => exact (rename_group_served fd me gid newName).lift (by decide)
  | remove_from_group gid uid =>
    refine (checked_served fd me (checked_remove me gid uid) (by simp) (str "Not permitted") (by simp)
      (removed_follows fd me gid uid) fun h => ?_).lift (by decide)
    refine (count_adjust ..).trans ?_
    by_cases huid : uid = me
    · rwa [if_pos huid] at h
    · rw [if_neg huid] at h
      exact known_of_any h
  | make_admin gid uid =>
    refine (checked_served fd me (checked_make_admin me gid uid) (by simp) (str "Not permitted") (by simp)
      (promoted_follows fd me gid uid) fun h => ?_).lift (by decide)
    exact (count_adjust ..).trans (known_of_any h)
  | leave_group gid => exact (leave_group_served fd me gid).lift (by decide)
  | _ => cases hc

end Alone

end ChatApp
