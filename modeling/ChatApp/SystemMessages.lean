/-
`SystemMessages.lean` -- what the client makes of the system messages of a group.

The server announces a change of a group as a sentence, in which it writes the names of the users, the new name of the
group or a nickname. `handleIncomingMessage` of `ui/activity/GroupChatActivity.kt` shows the sentence and reads it:
when it contains the words of a removal or of a promotion, the name that stands between them is looked up among the
members, without regard to case, and the row is deleted or changed. Another coroutine stores the message at the same
time, and enters the phone's user as a member, if that row is missing.

The platform's characters are a parameter: which bytes make a character, which characters are blank, and which are
equal but for case.
-/
import ChatApp.GroupChatActivity
import ChatApp.HandleGroups
import ChatApp.NumberedItems
import ChatApp.Substrings

set_option autoImplicit false

namespace ChatApp.Room

open Substrings

/-! ## The platform's strings -/

/-- The characters of the platform, as far as the client relies on them. An ASCII character is a byte that is never
part of another one. -/
structure Strings (α : Type) where
  /-- The string that the bytes stand for. -/
  read : Bytes → List α
  /-- The character of an ASCII byte. -/
  ascii : UInt8 → α
  /-- `Char.isWhitespace`. -/
  isWhitespace : α → Bool
  /-- `Char.equals(other, ignoreCase = true)`. -/
  alike : α → α → Bool
  read_nil : read [] = []
  read_ascii : ∀ a x b, x < 128 → read (a ++ x :: b) = read a ++ ascii x :: read b
  ascii_injective : Function.Injective ascii
  ascii_letter : ∀ x, 97 ≤ x → x ≤ 122 → isWhitespace (ascii x) = false
  alike_refl : ∀ x, alike x x = true
  alike_blank : ∀ x y, alike x y = true → isWhitespace x = isWhitespace y

/-- A text was understood as a removal of the member with that name, as a promotion, or as neither. -/
inductive Reading (α : Type) where
  | removal (name : List α)
  | promotion (name : List α)
  | nothing

namespace Strings

variable {α : Type} [DecidableEq α] (K : Strings α)

/-- A literal of the source. -/
def word (w : String) : List α := (str w).map K.ascii

/-- What the patterns `X removed Y from the group` and `X made Y an admin` find. -/
def reading (message : List α) : Reading α :=
  if K.word " removed " <:+: message ∧ K.word " from the group" <:+: message then
    match between K.isWhitespace (K.word " removed ") (K.word " from the group") message with
    | some removedUsername => .removal removedUsername
    | none => .nothing
  else if K.word " made " <:+: message ∧ K.word " an admin" <:+: message then
    match between K.isWhitespace (K.word " made ") (K.word " an admin") message with
    | some adminUsername => .promotion adminUsername
    | none => .nothing
  else .nothing

/-- `find { it.username.equals(name, ignoreCase = true) }`. -/
def find (members : List GroupMember) (name : List α) : Option GroupMember :=
  members.find? fun m => equals K.alike (K.read m.username) name

/-! ASCII text, which is read as it is. -/

/-- A capital letter becomes a small one. -/
def lower (x : UInt8) : UInt8 := if 65 ≤ x && x ≤ 90 then x + 32 else x

/-- A blank of ASCII. -/
def blank (x : UInt8) : Bool := x = 32 || 9 ≤ x && x ≤ 13 || 28 ≤ x && x ≤ 31

theorem blank_lower (x : UInt8) : blank (lower x) = blank x := by
  unfold blank lower
  grind

/-- A platform for ASCII text. -/
def plain : Strings UInt8 where
  read := id
  ascii := id
  isWhitespace := blank
  alike x y := lower x = lower y
  read_nil := rfl
  read_ascii _ _ _ _ := rfl
  ascii_injective := Function.injective_id
  ascii_letter := by
    intro x hlo hhi
    unfold blank
    grind
  alike_refl _ := decide_eq_true rfl
  alike_blank := by
    intro x y h
    rw [← blank_lower x, ← blank_lower y, of_decide_eq_true h]

end Strings

/-! ## The coroutines -/

namespace GroupChatActivity

section Functions

variable {α : Type} [DecidableEq α] (K : Strings α)

/-- The coroutine that reads a system message. -/
def update_members (groupId : Int) (message : Bytes) : Dao Unit :=
  match K.reading (K.read message) with
  | .removal removedUsername => do
    let members ← getMembersList groupId
    match K.find members removedUsername with
    | some member => removeMember groupId member.userId
    | none => pure ()
  | .promotion adminUsername => do
    let members ← getMembersList groupId
    match K.find members adminUsername with
    | some member => updateMember { member with isAdmin := true }
    | none => pure ()
  | .nothing => pure ()

/-- The coroutines that `handleIncomingMessage` starts for the tables, where `networkUserId` is
`networkManager.getUserId()`. -/
def started (c : Chat) (networkUserId now : Int) (payload : Bytes) : Dao Unit × Dao Unit :=
  match incoming c now payload with
  | none => (pure (), pure ())
  | some (senderId, message, timestamp) =>
    (receiveMessage networkUserId senderId message (to_millis timestamp) (some c.groupId) none,
      if senderId = 0 then update_members K c.groupId message else pure ())

end Functions

/-- What the screen of a group reads of a message to it. -/
theorem incoming_group_message {c : Chat} {senderId : Int} {text : Bytes} (now timestamp : Int) (htext : 38 ∉ text)
    (hgid : Fits 32 c.groupId) (hsender : Fits 32 senderId) :
    incoming c now (serialize_kv [(str "groupId", to_string c.groupId), (str "senderId", to_string senderId),
      (str "message", text), (str "timestamp", to_string timestamp)]) =
        some (senderId, text, (toLongOrNull (to_string timestamp)).getD now) := by
  have hgroup : toIntOrNull (to_string c.groupId) = some c.groupId := toNumberOrNull_to_string hgid
  have hsender : toIntOrNull (to_string senderId) = some senderId := toNumberOrNull_to_string hsender
  obtain ⟨hto, hfrom, hmessage, hstamp⟩ := group_values htext c.groupId senderId timestamp
  unfold incoming
  simp only [hto, hfrom, hmessage, hstamp, Option.bind_some, hgroup, hsender]
  simp [guard]

end GroupChatActivity

/-! ## The sentences -/

/-- What the server announces to a group. -/
inductive Announcement where
  | created
  | added (target : Bytes)
  | renamed (newName : Bytes)
  | nickname (actorId targetId : Int) (nick target : Bytes)
  | removed (target : GroupMember)
  | promoted (target : GroupMember)

namespace Announcement

/-- The sentence. -/
def text (actor : Bytes) : Announcement → Bytes
  | created => actor ++ str " created the group"
  | added target => actor ++ str " added " ++ target ++ str " to the group"
  | renamed newName => actor ++ str " renamed the group to \"" ++ newName ++ str "\""
  | nickname actorId targetId nick target => handle_client.nickname_text actorId targetId nick actor target
  | removed target => actor ++ str " removed " ++ target.username ++ str " from the group"
  | promoted target => actor ++ str " made " ++ target.username ++ str " an admin"

/-- The rows of the members as they should be after the change. -/
def done (groupId : Int) (members : UMap (Int × Int) GroupMember) : Announcement → UMap (Int × Int) GroupMember
  | removed target => members.erase (groupId, target.userId)
  | promoted target => members.set (groupId, target.userId) { target with isAdmin := true }
  | _ => members

/-- Who is removed or promoted is a member. -/
def About (groupId : Int) (members : UMap (Int × Int) GroupMember) : Announcement → Prop
  | removed target => members.find? (groupId, target.userId) = some target
  | promoted target => members.find? (groupId, target.userId) = some target
  | _ => True

end Announcement

end ChatApp.Room

namespace ChatApp

open handle_client Room

/-- **The handlers announce these sentences**, with the names that the server knows. -/
theorem sentences_announced {env : Env} {w : World} (me uid : Int) (newName : Bytes) :
    let actor := w.mem.username_or me (str "User" ++ to_string (u32 me).toNat)
    let name := w.mem.username_or uid (str "User" ++ to_string uid)
    ((sys_actor me (str " created the group")).run env w).1 = Announcement.created.text actor ∧
    ((sys_actor_target me uid (str " added ") (str " to the group")).run env w).1
      = (Announcement.added name).text actor ∧
    ((sys_actor me (str " renamed the group to \"" ++ newName ++ str "\"")).run env w).1
      = (Announcement.renamed newName).text actor ∧
    ∀ target : GroupMember, target.username = name →
      ((sys_actor_target me uid (str " removed ") (str " from the group")).run env w).1
        = (Announcement.removed target).text actor ∧
      ((sys_actor_target me uid (str " made ") (str " an admin")).run env w).1
        = (Announcement.promoted target).text actor := by
  refine ⟨rfl, rfl, ?_, ?_⟩
  · show _ ++ (_ ++ _ ++ _) = _ ++ _ ++ _ ++ _
    simp only [List.append_assoc]
    rfl
  · rintro target htarget
    rw [Announcement.text, Announcement.text, htarget]
    exact ⟨rfl, rfl⟩

end ChatApp
