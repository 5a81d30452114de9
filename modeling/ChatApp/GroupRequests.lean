/-
`GroupRequests.lean` -- the group requests as single steps, and what their handlers do around them.

Without a database a group request is one change to `g_groups` with one answer: `Command.inGroups` says
which. Its handler takes several critical sections for it: it checks in one and acts in a later one, and
then it announces, looking the group up with `operator[]`, which would create it. Here is the single step,
the condition under which each section does what the single step would, and that everything after the
act leaves the groups alone.
-/
import ChatApp.Concurrent
import ChatApp.Refusals

set_option autoImplicit false

namespace ChatApp

open Prog PostgresPersistence handle_client

/-! ## The requests, each as one step -/

/-- What the group requests work on: `g_groups`, as a function, and `g_next_group_id`. -/
structure GroupView where
  groups : Int → Option Group
  next : Int

/-- The groups of a state. -/
def World.groupView (w : World) : GroupView := ⟨w.mem.g_groups.find?, w.mem.g_next_group_id⟩

namespace GroupView

variable (v : GroupView) (gid uid : Int)

/-- `uid` is a member of a known group. -/
def hasMember : Bool := (v.groups gid).any fun g => g.members.count uid

/-- `uid` is an admin of a known group. -/
def hasAdmin : Bool := (v.groups gid).any fun g => g.admins.get uid

/-- Change one group, if it is known. -/
def adjust (f : Group → Group) : GroupView :=
  { v with groups := fun k => if k = gid then (v.groups k).map f else v.groups k }

/-- Take a member away, and with the last member the group; a group that is not known stays so. -/
def leave : GroupView :=
  { v with groups := fun k =>
      if k = gid then (v.groups k).bind fun g =>
        if (g.members.erase uid).empty then none else some { g with members := g.members.erase uid }
      else v.groups k }

end GroupView

/-- The name of a new group, made at the time `ms` if none was given. -/
def name_at (ms : Int) (name : Option Bytes) : Bytes := name.getD (str "group_" ++ to_string (ms / 1000))

/-- A group request of `me`, done at once at the time `ms`: whether it is refused, and the groups after
it. -/
def Command.inGroups (me ms : Int) : Command → GroupView → Bool × GroupView
  | .create_group name memberIds, v =>
    (v.next == -1,
      ⟨fun k => if k = v.next then some (new_group v.next (name_at ms name) me memberIds) else v.groups k,
        succ_int v.next⟩)
  | .invite_to_group gid uid, v =>
    if v.hasMember gid me then
      (false, v.adjust gid fun g => { g with members := g.members.set uid true })
    else (true, v)
  | .accept_group_invite gid, v =>
    ((v.groups gid).isNone, v.adjust gid fun g => { g with members := g.members.set me true })
  | .rename_group gid newName, v =>
    if v.hasMember gid me then (false, v.adjust gid fun g => { g with name := newName }) else (true, v)
  | .remove_from_group gid uid, v =>
    if (if uid = me then (v.groups gid).isSome else v.hasAdmin gid me) then
      (false, v.adjust gid fun g =>
        { g with members := g.members.erase uid, admins := g.admins.erase uid })
    else (true, v)
  | .make_admin gid uid, v =>
    if v.hasAdmin gid me then
      (false, v.adjust gid fun g => { g with admins := g.admins.set uid true })
    else (true, v)
  | .leave_group gid, v =>
    (false, v.leave gid me)
  | _, v => (false, v)

/-! ## Conditions on entering a section -/

namespace Condition

/-- The program `q` is entered only in a state in `I`. -/
def entered {T : List Field} {β : Type} (q : Prog T β) (I : World → Prop) : Condition where
  Holds {S α} p w := ∀ (h : T ⊆ S) (k : β → Prog S α), p = q.lift h >>= k → I w
  of_bind p f w hp h k hk := by
    refine hp h (fun b => k b >>= f) ?_
    rw [hk, bind_assoc]
  of_lift p hsub w hp h k hk := by
    refine hp (List.Subset.trans h hsub) (fun b => (k b).lift hsub) ?_
    rw [hk, lift_bind, lift_lift]

/-- Both conditions. -/
def and (C D : Condition) : Condition where
  Holds p w := C.Holds p w ∧ D.Holds p w
  of_bind p f w hp := ⟨C.of_bind p f w hp.1, D.of_bind p f w hp.2⟩
  of_lift p h w hp := ⟨C.of_lift p h w hp.1, D.of_lift p h w hp.2⟩

/-- All conditions of a family. -/
def all {ι : Type} (C : ι → Condition) : Condition where
  Holds p w := ∀ i, (C i).Holds p w
  of_bind p f w hp i := (C i).of_bind p f w (hp i)
  of_lift p h w hp i := (C i).of_lift p h w (hp i)

end Condition

/-- What a lookup with `operator[]` may write. -/
abbrev touch_writes : List Field := [.var .g_groups]

/-- `g_groups[gid];` -/
def touch_group (gid : Int) : Prog touch_writes Unit := modify .g_groups fun g => g.touch gid

/-- `operator[]` finds the group. -/
def lookupFinds (gid : Int) : Condition :=
  (Condition.entered (members_to_notify false gid) fun w => w.mem.g_groups.count gid = true).and
    (Condition.entered (touch_group gid) fun w => w.mem.g_groups.count gid = true)

/-- The second section of `CREATE_GROUP` finds the record that the first inserted. -/
def insertsAgain (me gid : Int) (name : Bytes) (memberIds : List Int) : Condition :=
  Condition.entered (populate_group false me gid name memberIds) fun w =>
    w.mem.g_groups.find? gid = some (new_group gid name me memberIds)

/-- The condition on the handler of a group request of `me`: what it checked still holds when it acts,
`CREATE_GROUP` finds the record it has inserted, and `operator[]` finds the group. -/
def Command.groupCondition (me : Int) : Command → Condition
  | .create_group name memberIds => Condition.all fun gid =>
    (Condition.all fun ms => insertsAgain me gid (name_at ms name) memberIds).and (lookupFinds gid)
  | .invite_to_group gid uid =>
    (Condition.entered (persist_member false gid uid) fun w => w.mem.hasMember gid me = true).and
      (lookupFinds gid)
  | .remove_from_group gid uid =>
    (Condition.entered (persist_removal false gid uid) fun w =>
      (if uid = me then w.mem.g_groups.count gid else w.mem.hasAdmin gid me) = true).and (lookupFinds gid)
  | .make_admin gid uid =>
    (Condition.entered (persist_admin false gid uid) fun w => w.mem.hasAdmin gid me = true).and
      (lookupFinds gid)
  | .rename_group gid _ => lookupFinds gid
  | _ => .none

/-! ## What leaves the groups alone -/

/-- The groups are as they were, and `ERROR` is sent only if the request is `refused`. -/
structure Aside (refused : Bool) (w w' : World) : Prop where
  view : w'.groupView = w.groupView
  errors : refused = false → NoErrors w w'

/-- The operation leaves the groups alone, and sends an `ERROR` only if the request is `refused`. -/
@[simp] def Op.aside (refused : Bool) {β : Type} : Op β → Prop
  | .modify .g_groups _ | .modify .g_next_group_id _ => False
  | .send _ type _ _ => refused = true ∨ type ≠ .ERROR
  | _ => True

section Rules

variable {refused : Bool} {env : Env} {C : Condition} {S : List Field} {α β : Type} {R : α → Prop}
  {w w' w'' : World}

theorem Aside.refl (w : World) : Aside refused w w := ⟨rfl, fun _ => NoErrors.refl w⟩

theorem Aside.trans (h : Aside refused w w') (h' : Aside refused w' w'') : Aside refused w w'' :=
  ⟨h'.view.trans h.view, fun hr => (h.errors hr).trans (h'.errors hr)⟩

theorem Op.aside.exec {o : Op β} (ho : o.aside refused) (env : Env) (w : World) :
    Aside refused w (o.exec env w).2 := by
  cases o with
  | send fd type payload userId =>
    refine ⟨rfl, fun hr => ⟨[_], rfl, fun f hf => ?_⟩⟩
    rw [List.mem_singleton.mp hf]
    exact ho.resolve_left (by simp [hr])
  | modify x f =>
    cases x with
    | g_groups => exact ho.elim
    | g_next_group_id => exact ho.elim
    | _ => exact ⟨rfl, fun _ => NoErrors.refl w⟩
  | _ => exact ⟨rfl, fun _ => NoErrors.refl w⟩

theorem moves_of_aside {p : Prog S α} (hp : p.Always (Op.aside refused) R) :
    p.Moves env C (Aside refused) :=
  .of_always hp Aside.refl (fun _ _ _ => Aside.trans) fun _ w ho => ho.exec env w

/-- A part of a handler that leaves the groups alone. -/
theorem aside_guarded {p : Prog S α} (hclosed : p.Closed)
    (hp : p.Always (Op.aside refused) fun _ => True) : p.Guarded env C (Aside refused) :=
  ⟨hclosed, moves_of_aside hp⟩

end Rules

/-! ## After the act

Everything that follows looks at the groups, and writes only frames, queues and logs. -/

section After

variable {env : Env} {S : List Field} {gid : Int}

/-- What follows the act of an accepted request on the group `gid`. -/
abbrev Follows (env : Env) (gid : Int) {S : List Field} {α : Type} (p : Prog S α) : Prop :=
  p.Guarded env (lookupFinds gid) (Aside false)

/-- A lookup that finds the group changes nothing. -/
theorem touched_aside {w : World} (hfound : w.mem.g_groups.count gid = true) :
    Aside false w { w with mem := { w.mem with g_groups := w.mem.g_groups.touch gid } } := by
  rw [UMap.touch, if_pos hfound]
  exact Aside.refl w

theorem members_to_notify_follows : Follows env gid (members_to_notify false gid) := by
  refine Guarded.locked (by simp [Unlocked, Op.isLock, Op.isUnlock]) fun w hw => ?_
  have hfound : w.mem.g_groups.count gid = true := by
    refine hw.1 (List.Subset.refl _) pure ?_
    rw [lift_self, bind_pure]
    rfl
  exact touched_aside hfound

theorem reply_follows (fd : Int) {type : MessageType} (payload : Bytes) (userId : UInt32)
    (h : .out ∈ S) (htype : type ≠ .ERROR) :
    Follows env gid (reply fd type payload userId h : Prog S Unit) :=
  aside_guarded (closed_of_unlocked (by simp [Unlocked, Op.isLock, Op.isUnlock])) (by simp [Op.aside, htype])

/-- A section that only reads. -/
theorem locked_read_follows {β : Type} (f : ServerState → β) :
    Follows env gid (locked (read f) : Prog S β) :=
  aside_guarded (closed_locked (by simp [Unlocked, Op.isLock, Op.isUnlock])) (by simp [Op.aside])

theorem now_ms_follows : Follows env gid (now_ms : Prog S Int) :=
  aside_guarded (closed_of_unlocked (by simp [Unlocked, Op.isLock, Op.isUnlock])) (by simp [Op.aside])

theorem deliver_follows {m : PendingMsg} (hm : m.type ≠ .ERROR) (uid : Int) :
    Follows env gid (deliver m uid) := by
  have henqueue : Follows env gid (enqueue_offline uid m) :=
    aside_guarded (closed_locked (by simp [Unlocked, Op.isLock, Op.isUnlock])) (by simp [enqueue_offline, Op.aside])
  exact (locked_read_follows _).bind fun _ => .ite (fun _ => reply_follows _ _ _ _ hm) fun _ => henqueue.lift _

theorem deliver_all_follows {m : PendingMsg} (hm : m.type ≠ .ERROR) (uids : List Int) :
    Follows env gid (deliver_all m uids) :=
  .forM fun uid _ => deliver_follows hm uid

/-- An announcement: the text is made in sections that only read. -/
theorem announce_follows {sys : Prog [] Bytes} (hsys : Follows env gid sys) :
    Follows env gid (announce false gid sys) := by
  refine now_ms_follows.bind fun ts_ms => (hsys.lift _).bind fun text => ?_
  refine Guarded.bind (.pure ()) fun _ => (members_to_notify_follows.lift _).bind fun members => ?_
  have hframe : (system_message gid text ts_ms).type ≠ .ERROR := by simp [system_message]
  exact ((deliver_all_follows hframe members).lift _).bind fun _ => .pure members

theorem sys_actor_follows (me : Int) (rest : Bytes) : Follows env gid (sys_actor me rest) :=
  (locked_read_follows _).bind fun actor => .pure (actor ++ rest)

theorem sys_actor_target_follows (me uid : Int) (verb rest : Bytes) :
    Follows env gid (sys_actor_target me uid verb rest) :=
  (locked_read_follows _).bind fun names => .pure (names.1 ++ verb ++ names.2 ++ rest)

/-- The notice to an invited user looks the group up without the lock. -/
theorem notify_invited_follows (me uid : Int) : Follows env gid (notify_invited me gid uid) := by
  refine (locked_read_follows _).bind fun invited_fd => .when ?_
  have htouch : Follows env gid (touch_group gid) := by
    refine ⟨closed_of_unlocked (by simp [touch_group, Unlocked, Op.isLock, Op.isUnlock]), ?_⟩
    refine .op _ _ (fun w hw => ?_) fun w _ => .pure ()
    exact touched_aside (hw.2 (List.Subset.refl _) pure rfl)
  refine (htouch.lift (T := [.var .g_groups, .out]) (by simp)).bind fun _ => ?_
  have hread : Follows env gid (read fun s => (s.g_groups.get gid).name : Prog [.var .g_groups, .out] Bytes) :=
    aside_guarded (closed_of_unlocked (by simp [Unlocked, Op.isLock, Op.isUnlock])) (by simp [Op.aside])
  exact hread.bind fun name => reply_follows _ _ _ _ (by simp)

end After

end ChatApp
