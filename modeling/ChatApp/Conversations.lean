/-
`Conversations.lean` -- the database holds what was said.

A conversation is what two users said to each other since one of them last deleted it, a transcript what the members of
a group said to it. Both are read off the frames that came. In a run in which no statement fails the tables of
messages hold exactly these, in the order in which they were said, whatever else happens; and a history reply lists the
newest of them. Announcements of the server have no sender that is a user, and are in no transcript.
-/
import ChatApp.HistoryReplies
import ChatApp.Ownership

set_option autoImplicit false

namespace ChatApp

open Prog PostgresPersistence handle_client

/-! ## What was said -/

/-- What the command of the session `me` does to the conversation of `a` and `b`. A message to nobody, or from
nobody, is not kept; the time is that at which the handler begins, in whole seconds. -/
def Command.converse (env : Env) (w : World) (a b me : Int) (c : Command) (said : List MessageRow) : List MessageRow :=
  match c with
  | .direct_message recipientId message =>
    if is_pair a b me recipientId && w.db.tables.hasUser me && w.db.tables.hasUser recipientId then
      said ++ [⟨me, recipientId, escape_string message, env.clock_ms w.ticks / 1000 * 1000⟩]
    else said
  | .delete_conversation other => if is_pair a b me other then [] else said
  | _ => said

/-- What the command of the session `me` adds to the transcript of a group. The time is read after two queries. -/
def Command.discuss (env : Env) (w : World) (gid me : Int) (c : Command) (said : List GroupMessageRow) :
    List GroupMessageRow :=
  match c with
  | .group_message groupId message =>
    if groupId = gid && w.db.tables.isMember gid me then
      said ++ [⟨gid, me, escape_string message, env.clock_ms (w.ticks + 2)⟩]
    else said
  | _ => said

/-- The command of an event, with the session it comes in. -/
def Event.said {α : Type} (w : World) (e : Event) (f : Int → Command → α → α) (said : α) : α :=
  match e.command true w with
  | some (fd, _, c) => f (w.session fd) c said
  | none => said

theorem said_command {α : Type} {w : World} {e : Event} {fd rid : Int} {c : Command}
    (h : e.command true w = some (fd, rid, c)) (f : Int → Command → α → α) (said : α) :
    e.said w f said = f (w.session fd) c said := by
  rw [Event.said, h]

theorem said_none {α : Type} {w : World} {e : Event} (h : e.command true w = none) (f : Int → Command → α → α)
    (said : α) : e.said w f said = said := by
  rw [Event.said, h]

/-- The conversation of `a` and `b` after the run. -/
def conversation (env : Env) (a b : Int) (before : List MessageRow) (tr : List (Taken World Event)) :
    List MessageRow :=
  tr.foldl (fun said t => t.event.said t.before (Command.converse env t.before a b) said) before

/-- The transcript of the group after the run. -/
def transcript (env : Env) (gid : Int) (before : List GroupMessageRow) (tr : List (Taken World Event)) :
    List GroupMessageRow :=
  tr.foldl (fun said t => t.event.said t.before (Command.discuss env t.before gid) said) before

/-- What is stored of the conversation. -/
def Tables.conversed (d : Tables) (a b : Int) : List MessageRow :=
  d.messages.filter fun r => is_pair a b r.from_user_id r.to_user_id

/-- What is stored of the transcript. -/
def Tables.discussed (d : Tables) (gid : Int) : List GroupMessageRow :=
  d.group_messages.filter fun r => r.group_id = gid

/-! ## One command -/

section Commands

variable {env : Env} {w w' : World} {a b gid : Int} (fd me : Int)

/-- A statement that is made, where nothing fails. -/
theorem saved_ensures {S : List Field} (t : Table) (q : Statement t Unit) (h : .table t ∈ S) (hs : env.SqlSucceeds)
    (htx : w.db.tx = none) : Ensures env w (execute t q h : Prog S (Option Unit)) fun _ w' =>
      w'.db.tables = t.put (q w.db.tables).2 w.db.tables := by
  refine (execute_of_none t q h htx).mono fun r w' h => ?_
  rcases h with ⟨hfails, -⟩ | ⟨-, -, hdb⟩
  · exact absurd hfails (by simp [hs w.ticks])
  · rw [hdb]

/-- `DIRECT_MESSAGE` makes one statement about messages, with the time at which it begins. -/
theorem direct_message_ensures (recipientId : Int) (message : Bytes) (hs : env.SqlSucceeds) (htx : w.db.tx = none) :
    Ensures env w (direct_message true fd me recipientId message) fun _ w' => w'.db.tables.messages =
      (insert_message me recipientId (escape_string message) (env.clock_ms w.ticks / 1000 * 1000) w.db.tables).2 := by
  refine Ensures.bind (R := fun ms w₁ => ms = env.clock_ms w.ticks ∧ w₁.db = w.db) ⟨rfl, rfl⟩ ?_
  rintro _ w₁ ⟨rfl, hdb⟩
  have hsave : Ensures env w₁ (save_message me recipientId message (env.clock_ms w.ticks / 1000 * 1000))
      fun _ w₂ => w₂.db.tables.messages = _ :=
    (saved_ensures .messages _ _ hs (hdb ▸ htx)).bind fun _ w₂ h => ensures_pure (congrArg Tables.messages h)
  refine Ensures.bind (R := fun _ w₂ => w₂.db.tables.messages = _) (ensures_when
    (fun _ => (hsave.lift _).bind fun _ _ h => ensures_pure h) fun h => absurd h (by decide)) fun _ w₂ h₂ => ?_
  refine ((ensures_frame _).lift _).bind fun _ w₃ h₃ => ?_
  have hsame : w₃.db.tables.messages = w₂.db.tables.messages := h₃ (.table .messages) (by simp)
  show w₃.db.tables.messages = _
  rw [hsame, h₂, hdb]
  rfl

/-- `DELETE_CONVERSATION` makes one statement. -/
theorem delete_conversation_ensures (other : Int) (hs : env.SqlSucceeds) (htx : w.db.tx = none) :
    Ensures env w (handle_client.delete_conversation true fd me other) fun _ w' =>
      w'.db.tables.messages = (delete_messages me other w.db.tables).2 := by
  have hdelete : Ensures env w (PostgresPersistence.delete_conversation me other) fun _ w₁ =>
      w₁.db.tables.messages = _ :=
    (saved_ensures .messages _ _ hs htx).bind fun _ w₁ h => ensures_pure (congrArg Tables.messages h)
  refine (hdelete.lift _).bind fun success w₁ h₁ => ?_
  cases success <;> exact h₁

/-- A query takes one tick. -/
theorem select_ticks {S : List Field} {β : Type} (q : Tables → β) (hs : env.SqlSucceeds) (htx : w.db.tx = none) :
    Ensures env w (select q : Prog S (Option β)) fun r w' =>
      w'.db = w.db ∧ w'.ticks = w.ticks + 1 ∧ r = some (q w.db.tables) := by
  have hselect : Ensures env w (select q : Prog S (Option β)) _ := select_ensures q hs htx
  exact ⟨hselect.2.1, rfl, hselect.2.2⟩

/-- The recipients are found, with two queries, for a member only. -/
theorem recipients_ensures (hs : env.SqlSucceeds) (htx : w.db.tx = none) :
    Ensures env w (recipients true me gid) fun members w' => w'.db = w.db ∧
      (w.db.tables.isMember gid me = true → members.isSome = true ∧ w'.ticks = w.ticks + 2) ∧
      (w.db.tables.isMember gid me = false → members = none) := by
  refine Ensures.bind (R := fun ok w₁ => w₁.db = w.db ∧ w₁.ticks = w.ticks + 1 ∧ ok = w.db.tables.isMember gid me)
    ((select_ticks _ hs htx).bind ?_) ?_
  · rintro _ w₁ ⟨hdb, hticks, rfl⟩
    exact ensures_pure ⟨hdb, hticks, rfl⟩
  rintro _ w₁ ⟨hdb, hticks, rfl⟩
  cases hmember : w.db.tables.isMember gid me with
  | false => exact ensures_pure ⟨hdb, fun h => absurd h (by simp), fun _ => rfl⟩
  | true =>
    refine Ensures.bind (R := fun _ w₂ => w₂.db = w.db ∧ w₂.ticks = w.ticks + 2)
      ((select_ticks _ hs (hdb ▸ htx)).bind ?_) ?_
    · rintro _ w₂ ⟨hdb₂, hticks₂, -⟩
      exact ensures_pure ⟨hdb₂.trans hdb, by omega⟩
    · rintro _ w₂ ⟨hdb₂, hticks₂⟩
      exact ensures_pure ⟨hdb₂, fun _ => ⟨rfl, hticks₂⟩, fun h => absurd h (by simp)⟩

/-- `GROUP_MESSAGE` of a member makes one statement about group messages, and of anybody else none. -/
theorem group_message_ensures (message : Bytes) (hs : env.SqlSucceeds) (htx : w.db.tx = none) :
    Ensures env w (group_message true fd me gid message) fun _ w' => w'.db.tables.group_messages =
      if w.db.tables.isMember gid me then
        (insert_group_message gid me (escape_string message) (env.clock_ms (w.ticks + 2)) w.db.tables).2
      else w.db.tables.group_messages := by
  refine ((recipients_ensures me hs htx).lift _).bind ?_
  rintro members w₁ ⟨hdb, hsome, hnone⟩
  cases hmember : w.db.tables.isMember gid me with
  | false =>
    rw [hnone hmember, if_neg (by simp), ← hdb]
    rfl
  | true =>
    obtain ⟨hfound, hticks⟩ := hsome hmember
    obtain ⟨uids, rfl⟩ := Option.isSome_iff_exists.mp hfound
    rw [if_pos rfl]
    refine Ensures.bind (R := fun ms w₂ => ms = env.clock_ms (w.ticks + 2) ∧ w₂.db = w.db)
      ⟨by rw [← hticks]; rfl, hdb⟩ ?_
    rintro _ w₂ ⟨rfl, hdb₂⟩
    have hsave : Ensures env w₂ (save_group_message gid me message (env.clock_ms (w.ticks + 2)))
        fun _ w₃ => w₃.db.tables.group_messages = _ :=
      (saved_ensures .group_messages _ _ hs (hdb₂ ▸ htx)).bind fun _ w₃ h =>
        ensures_pure (congrArg Tables.group_messages h)
    refine Ensures.bind (R := fun _ w₃ => w₃.db.tables.group_messages = _) (ensures_when
      (fun _ => (hsave.lift _).bind fun _ _ h => ensures_pure h) fun h => absurd h (by decide)) fun _ w₃ h₃ => ?_
    refine ((ensures_frame _).lift _).bind fun _ w₄ h₄ => ?_
    have hsame : w₄.db.tables.group_messages = w₃.db.tables.group_messages := h₄ (.table .group_messages) (by simp)
    show w₄.db.tables.group_messages = _
    rw [hsame, h₃, hdb₂]
    rfl

end Commands

/-! ## One step -/

section Steps

variable {env : Env} {w w' : World} {e : Event} (a b gid : Int)

/-- The conversation after `DIRECT_MESSAGE`. -/
theorem conversed_insert (d : Tables) (me recipientId : Int) (content : Bytes) (timestamp : Int) :
    ((insert_message me recipientId content timestamp d).2.filter fun r => is_pair a b r.from_user_id r.to_user_id) =
      if is_pair a b me recipientId && d.hasUser me && d.hasUser recipientId then
        d.conversed a b ++ [⟨me, recipientId, content, timestamp⟩]
      else d.conversed a b := by
  rw [insert_message]
  cases hpair : is_pair a b me recipientId with
  | false =>
    rw [Bool.false_and, Bool.false_and, if_neg Bool.false_ne_true]
    split
    · exact filter_snoc d.messages hpair
    · rfl
  | true =>
    rw [Bool.true_and]
    split
    · rw [List.filter_append, List.filter_cons_of_pos (by simpa using hpair)]
      rfl
    · rfl

/-- The conversation after `DELETE_CONVERSATION`. -/
theorem conversed_delete (d : Tables) (me other : Int) :
    ((delete_messages me other d).2.filter fun r => is_pair a b r.from_user_id r.to_user_id) =
      if is_pair a b me other then [] else d.conversed a b := by
  rw [delete_messages, List.filter_filter]
  by_cases hpair : is_pair a b me other = true
  · rw [if_pos hpair, List.filter_eq_nil_iff]
    intro r _ hr
    simp only [is_pair, MessageRow.between, Bool.and_eq_true, Bool.or_eq_true, Bool.not_eq_true',
      Bool.or_eq_false_iff, decide_eq_true_eq] at hr hpair
    grind
  · rw [if_neg hpair]
    refine List.filter_congr fun r _ => ?_
    cases hr : is_pair a b r.from_user_id r.to_user_id with
    | false => rfl
    | true =>
      simp only [is_pair, MessageRow.between, Bool.and_eq_true, Bool.or_eq_true, decide_eq_true_eq] at hr hpair ⊢
      grind

/-- The transcript after `GROUP_MESSAGE` of a member, whose row names a group and a user. -/
theorem discussed_insert {d : Tables} (hd : d.Valid) {groupId me : Int} (hmember : d.isMember groupId me = true)
    (content : Bytes) (timestamp : Int) :
    ((insert_group_message groupId me content timestamp d).2.filter fun r => r.group_id = gid) =
      if groupId = gid then d.discussed gid ++ [⟨gid, me, content, timestamp⟩] else d.discussed gid := by
  obtain ⟨r, hr, hkeys⟩ := List.any_eq_true.mp hmember
  have hkeys' : r.group_id = groupId ∧ r.user_id = me := by simpa using hkeys
  have hrefs := hd.members_refs r hr
  rw [hkeys'.1, hkeys'.2] at hrefs
  rw [insert_group_message, if_pos (by rw [hrefs.1, hrefs.2]; rfl)]
  by_cases hgid : groupId = gid
  · subst hgid
    rw [if_pos rfl, List.filter_append, List.filter_cons_of_pos (by simp)]
    rfl
  · rw [if_neg hgid]
    exact filter_snoc d.group_messages (by simpa using hgid)

/-- **The conversation after a step** is what was said before, and what the command of the step says. -/
theorem Server.conversed_step (hs : env.SqlSucceeds) (htx : w.db.tx = none)
    (hstep : Server.step true env w e = some w') :
    w'.db.tables.conversed a b = e.said w (Command.converse env w a b) (w.db.tables.conversed a b) := by
  have hquiet : ∀ {w w' : World}, Field.Same (.table .messages) w w' →
      w'.db.tables.conversed a b = w.db.tables.conversed a b := fun h => congrArg (List.filter _) h
  cases Server.move_of_step true env hstep with
  | accepted fd valid unused => rfl
  | performed fd me rid r c opened command =>
    have hme : w.session fd = me := UMap.get_of_find? opened
    rw [said_command command, hquiet (finish_frame fd _ (by simp)), hme]
    cases c with
    | direct_message recipientId message =>
      have hstored : Ensures env w (direct_message true fd me recipientId message) _ :=
        direct_message_ensures fd me recipientId message hs htx
      rw [perform, run_lift, Tables.conversed, hstored]
      exact conversed_insert a b w.db.tables me recipientId _ _
    | delete_conversation other =>
      have hdeleted : Ensures env w (handle_client.delete_conversation true fd me other) _ :=
        delete_conversation_ensures fd me other hs htx
      rw [perform, run_lift, Tables.conversed, hdeleted]
      exact conversed_delete a b w.db.tables me other
    | _ => exact hquiet (perform_effect true fd me rid _ htx (by simp [Command.effect, Command.writes]))
  | refused fd me r opened invalid =>
    have hnone : Event.command true w (.request fd r) = none := by simp [Event.command, invalid]
    rw [said_none hnone]
    exact hquiet ((run_frame env (invalid_header fd) w (by simp)).trans (end_connection_frame fd _ (by simp)))
  | hungup fd me opened => exact hquiet (end_connection_frame fd w (by simp))

/-- Other commands than `GROUP_MESSAGE` leave the transcripts alone. -/
theorem Server.group_messages_same (hvalid : w.db.tables.Valid) (htx : w.db.tx = none)
    (hstep : Server.step true env w e = some w')
    (hc : ∀ fd rid c, e.command true w = some (fd, rid, c) → ∀ groupId message, c ≠ .group_message groupId message) :
    w'.db.tables.group_messages = w.db.tables.group_messages := by
  have hrule : Transactional (fun d => d.Valid ∧ d.group_messages = w.db.tables.group_messages) Tables.Follows :=
    transactional_valid_rows fun now before h => h
  refine (Server.holds_of_step hrule hstep (holds_of_none ⟨hvalid, rfl⟩ htx) ?_).now.2
  intro fd rid c hcommand β t q hissues d hd
  have hlawful := hissues.lawful d hd.1
  refine ⟨⟨hlawful.valid, ?_⟩, hlawful⟩
  cases hissues with
  | spoken groupId message timestamp => exact absurd rfl (hc fd rid _ hcommand groupId message)
  | announced c groupId text timestamp => exact (announcement_refused hd.1 groupId text timestamp).trans hd.2
  | _ => exact hd.2

/-- A step with a command performs it. -/
theorem Server.performed_of_command {fd rid : Int} {c : Command} (hstep : Server.step true env w e = some w')
    (hcommand : e.command true w = some (fd, rid, c)) :
    w' = finish env fd ((perform true fd (w.session fd) rid c).run env w) := by
  cases Server.move_of_step true env hstep with
  | performed fd' me rid' r c' opened command =>
    rw [command] at hcommand
    cases hcommand
    rw [show w.session fd = me from UMap.get_of_find? opened]
  | refused fd' me r opened invalid => simp [Event.command, invalid] at hcommand
  | accepted | hungup => cases hcommand

/-- **The transcript after a step**, likewise. -/
theorem Server.discussed_step (hs : env.SqlSucceeds) (hvalid : w.db.tables.Valid) (htx : w.db.tx = none)
    (hstep : Server.step true env w e = some w') :
    w'.db.tables.discussed gid = e.said w (Command.discuss env w gid) (w.db.tables.discussed gid) := by
  have hquiet := fun hc => congrArg (List.filter fun r => r.group_id = gid)
    (Server.group_messages_same hvalid htx hstep hc)
  cases hcommand : e.command true w with
  | none =>
    rw [said_none hcommand]
    exact hquiet fun fd rid c h => by rw [hcommand] at h; cases h
  | some cmd =>
    obtain ⟨fd, rid, c⟩ := cmd
    rw [said_command hcommand]
    cases c with
    | group_message groupId message =>
      have hfinish : w'.db.tables.group_messages = ((perform true fd (w.session fd) rid
          (.group_message groupId message)).run env w).2.db.tables.group_messages := by
        rw [Server.performed_of_command hstep hcommand]
        exact finish_frame (x := .table .group_messages) fd _ (by simp)
      have hstored : Ensures env w (group_message true fd (w.session fd) groupId message) _ :=
        group_message_ensures fd (w.session fd) message hs htx
      rw [Tables.discussed, hfinish, perform, run_lift, hstored, Command.discuss]
      cases hmember : w.db.tables.isMember groupId (w.session fd) with
      | true =>
        rw [if_pos rfl, discussed_insert gid hvalid hmember]
        by_cases hgid : groupId = gid
        · subst hgid
          simp [hmember]
        · simp [hgid]
      | false =>
        rw [if_neg Bool.false_ne_true, if_neg]
        · rfl
        · intro hboth
          simp only [Bool.and_eq_true, decide_eq_true_eq] at hboth
          rw [hboth.1, hboth.2] at hmember
          cases hmember
    | _ =>
      refine hquiet fun fd' rid' c' h groupId message hc' => ?_
      rw [hcommand] at h
      cases h
      cases hc'

end Steps

/-! ## Runs -/

/-- The tables hold what was said since a start. -/
structure StoredAsSaid (env : Env) (start : Tables) (tr : List (Taken World Event)) (d : Tables) : Prop where
  conversations : ∀ a b, d.conversed a b = conversation env a b (start.conversed a b) tr
  transcripts : ∀ gid, d.discussed gid = transcript env gid (start.discussed gid) tr

section Run

variable {env₀ env : Env} {C : World → Event → Prop} {w₀ w : World} {tr : List (Taken World Event)}

/-- One more step. -/
theorem StoredAsSaid.step {start : Tables} {x y : World} {e : Event} (h : StoredAsSaid env start tr x.db.tables)
    (hs : env.SqlSucceeds) (hvalid : x.db.tables.Valid) (htx : x.db.tx = none)
    (hstep : Server.step true env x e = some y) : StoredAsSaid env start (tr ++ [⟨x, e, y⟩]) y.db.tables where
  conversations a b := by
    rw [Server.conversed_step a b hs htx hstep, h.conversations a b, conversation, conversation, List.foldl_append]
    rfl
  transcripts gid := by
    rw [Server.discussed_step gid hs hvalid htx hstep, h.transcripts gid, transcript, transcript, List.foldl_append]
    rfl

theorem said_of_run (booted : Booted true env₀ w₀) (succeeds : env.SqlSucceeds) (run : Server.Run true env C w₀ tr w) :
    StoredAsSaid env w₀.db.tables tr w.db.tables ∧ w.db.tx = none := by
  have hvalid : w₀.db.tables.Valid := (booted.holds transactional_schema fun _ h => h).now
  have hall := run.history (I := fun past x => StoredAsSaid env w₀.db.tables past x.db.tables ∧ x.db.tables.Valid ∧
    x.db.tx = none) ⟨⟨fun _ _ => rfl, fun _ => rfl⟩, hvalid, booted.tx_none⟩ ?_
  · exact ⟨hall.1, hall.2.2⟩
  rintro past x e y ⟨hsaid, hx, htx⟩ - hstep
  have hy : y.db.Holds Tables.Valid Tables.Follows := Server.holds_of_step transactional_schema hstep
    (holds_of_none hx htx) fun fd rid c _ β t q hissues d hd => ⟨(hissues.lawful d hd).valid, hissues.lawful d hd⟩
  exact ⟨hsaid.step succeeds hx htx hstep, hy.now, Server.step_tx htx hstep⟩

/-- **The database holds what was said**, where no statement fails: each conversation since it was last deleted, and
each transcript from the beginning, in the order of the frames. -/
theorem stored_as_said (booted : Booted true env₀ w₀) (succeeds : env.SqlSucceeds)
    (run : Server.Run true env C w₀ tr w) : StoredAsSaid env w₀.db.tables tr w.db.tables :=
  (said_of_run booted succeeds run).1

/-- **A history reply lists what was said**: the newest messages of the conversation, and of the transcript for a
member, as they were said in the run. -/
theorem histories_as_said (booted : Booted true env₀ w₀) (succeeds : env.SqlSucceeds)
    (run : Server.Run true env C w₀ tr w) (fd me rid n : Int) (limit : 0 ≤ n) :
    (∀ other, ∃ entries, Newest MessageRow.timestamp (conversation env me other (w₀.db.tables.conversed me other) tr)
        n.toNat entries ∧
      Answered env w fd me rid (.get_conversation_history other n) (conversation_reply entries)) ∧
    ∀ gid, ((w.db.tables.membersOf gid).any fun m => m.id = me) = true →
      ∃ entries, Newest GroupMessageRow.timestamp (transcript env gid (w₀.db.tables.discussed gid) tr) n.toNat entries ∧
        Answered env w fd me rid (.get_group_history gid n) (group_reply gid entries) := by
  obtain ⟨hsaid, htx⟩ := said_of_run booted succeeds run
  have hopen : w.db.aborted = false := by rw [Database.aborted, htx]; rfl
  constructor
  · intro other
    rw [← hsaid.conversations me other]
    exact ⟨_, newest_order_by_desc_limit _ _ _, conversation_answered fd me rid other limit succeeds hopen⟩
  · intro gid hmember
    rw [← hsaid.transcripts gid]
    exact ⟨_, newest_order_by_desc_limit _ _ _, group_answered fd me rid limit succeeds hopen hmember⟩

end Run

/-- User 1 says something, user 2 deletes it and says something else, to user 1 and to a group of its own. -/
def hi_and_ho : List Event :=
  two_users ++ [.send 5 .DIRECT_MESSAGE "recipientId=2&message=hi", .send 6 .DELETE_CONVERSATION "otherUserId=1",
    .send 6 .DIRECT_MESSAGE "recipientId=1&message=ho", .send 6 .CREATE_GROUP "name=g",
    .send 6 .GROUP_MESSAGE "groupId=1&message=ho", .send 5 .GROUP_MESSAGE "groupId=1&message=hi"]

theorem hi_and_ho_run : ∃ tr w, Server.Run true Env.calm (fun _ _ => True) loaded tr w ∧
    w.db.tables.messages = [⟨2, 1, str "ho", 0⟩] ∧ w.db.tables.group_messages = [⟨1, 2, str "ho", 0⟩] := by
  have hexec : (Run.exec (Run.guard (Server.step true Env.calm) fun _ _ => true) loaded hi_and_ho).map
      (fun w => (w.db.tables.messages, w.db.tables.group_messages)) =
        some ([⟨2, 1, str "ho", 0⟩], [⟨1, 2, str "ho", 0⟩]) := by decide
  obtain ⟨tr, w, run, hrows⟩ := run_of_exec hexec
  exact ⟨tr, w, run.mono fun _ _ _ => trivial, Prod.mk.inj hrows⟩

theorem stored_as_said_deleted : ∃ tr, ∃ w : World, w.db.tables.messages = [⟨2, 1, str "ho", 0⟩] ∧
    StoredAsSaid Env.calm loaded.db.tables tr w.db.tables := by
  obtain ⟨tr, w, run, hrows⟩ := hi_and_ho_run
  exact ⟨tr, w, hrows.1, stored_as_said booted_loaded Env.calm_sqlSucceeds run⟩

theorem histories_as_said_deleted : ∃ tr, ∃ w : World, ∃ entries, w.db.tables.messages = [⟨2, 1, str "ho", 0⟩] ∧
    Newest MessageRow.timestamp (conversation Env.calm 1 2 (loaded.db.tables.conversed 1 2) tr) 50 entries ∧
      Answered Env.calm w 5 1 1 (.get_conversation_history 2 50) (conversation_reply entries) := by
  obtain ⟨tr, w, run, hrows⟩ := hi_and_ho_run
  obtain ⟨entries, hentries⟩ :=
    (histories_as_said booted_loaded Env.calm_sqlSucceeds run 5 1 1 50 (by decide)).1 2
  exact ⟨tr, w, entries, hrows.1, hentries⟩

end ChatApp
