/-
`TypedText.lean` -- what arrives of what the user types.

Each request of the client has its own payload, and each handler its own keys. They fit together: a text without
a `&` is read back byte for byte, whatever else it holds, and so are the ids and the list of members. Nothing
escapes a `&`, and no value that is parsed holds one, so a text with a `&` never arrives as it was typed. An
id below 0 is printed as the `uint32_t` it becomes on its way through the native serializer, and `std::stoi`
does not take that back.
-/
import ChatApp.ClientRequests
import ChatApp.Faults

set_option autoImplicit false

namespace ChatApp

/-- A call of one of the methods that take a text. -/
inductive Typed where
  | register (username password email phone : Bytes)
  | sendChatMessage (recipientId : Int32) (message : Bytes)
  | sendGroupMessage (groupId : Int32) (message : Bytes)
  | sendFriendRequest (friendUsername : Bytes)
  | searchUsers (query : Bytes)
  | createGroup (groupName : Bytes) (memberIds : List Int32)
  deriving DecidableEq

namespace Typed

/-- The payload that is sent. -/
def payload : Typed → Bytes
  | .register username password email phone => NetworkManager.register username password email phone
  | .sendChatMessage recipientId message => NetworkManager.sendChatMessage recipientId message
  | .sendGroupMessage groupId message => NetworkManager.sendGroupMessage groupId message
  | .sendFriendRequest friendUsername => NetworkManager.sendFriendRequest friendUsername
  | .searchUsers query => NetworkManager.searchUsers query
  | .createGroup groupName memberIds => NetworkManager.createGroup groupName memberIds

/-- What the handler reads is what was given: each text under its key, the ids after `std::stoi`, the
members one by one. -/
def Arrives (t : Typed) : Prop :=
  match t with
  | .register username password email phone =>
    field t.payload "username" = username ∧ field t.payload "password" = CryptoUtils.sha256 password ∧
      field t.payload "email" = email ∧ field t.payload "phone" = phone
  | .sendChatMessage recipientId message =>
    stoi (field t.payload "recipientId") = .ok recipientId.toInt ∧ field t.payload "message" = message
  | .sendGroupMessage groupId message =>
    stoi (field t.payload "groupId") = .ok groupId.toInt ∧ field t.payload "message" = message
  | .sendFriendRequest friendUsername =>
    handle_client.friend_request_target t.payload = .ok (.username friendUsername)
  | .searchUsers query => field t.payload "query" = query
  | .createGroup groupName memberIds =>
    handle_client.create_group_fields t.payload = .ok (some groupName, memberIds.map Int32.toInt)

/-- No text holds a `&`, and the recipient's id is not below 0. -/
def Plain : Typed → Prop
  | .register username _ email phone => 38 ∉ username ∧ 38 ∉ email ∧ 38 ∉ phone
  | .sendChatMessage recipientId message => 0 ≤ recipientId.toInt ∧ 38 ∉ message
  | .sendGroupMessage _ message => 38 ∉ message
  | .sendFriendRequest friendUsername => 38 ∉ friendUsername
  | .searchUsers query => 38 ∉ query
  | .createGroup groupName _ => 38 ∉ groupName

end Typed

/-! ## The payloads as pairs -/

section Items

variable {username password email phone message query groupName : Bytes} {id : Int32}

theorem register_items : NetworkManager.register username password email phone
    = serialize_kv [(str "username", username), (str "password", CryptoUtils.sha256 password),
      (str "email", email), (str "phone", phone)] := by
  simp [NetworkManager.register, serialize_kv, str, List.intercalate_cons_cons]

/-- The serializer writes the message first: its key is the smaller one. -/
theorem sendChatMessage_items : NetworkManager.sendChatMessage id message
    = serialize_kv [(str "message", message), (str "recipientId", to_string id.toUInt32.toNat)] := by
  rw [NetworkManager.sendChatMessage, MessageSerializer.serializeChatMessage, MessageSerializer.serialize_eq]
  have hkeys : str "message" ≠ str "recipientId" ∧ str "message" < str "recipientId" := by decide
  rw [MessageSerializer.assign, MessageSerializer.assign, if_neg hkeys.1, if_pos hkeys.2]

theorem sendGroupMessage_items : NetworkManager.sendGroupMessage id message
    = serialize_kv [(str "groupId", to_string id.toInt), (str "message", message)] := by
  simp [NetworkManager.sendGroupMessage, serialize_kv, str, List.intercalate_cons_cons]

theorem sendFriendRequest_items :
    NetworkManager.sendFriendRequest username = serialize_kv [(str "username", username)] := by
  simp [NetworkManager.sendFriendRequest, serialize_kv, str]

theorem searchUsers_items : NetworkManager.searchUsers query = serialize_kv [(str "query", query)] := by
  simp [NetworkManager.searchUsers, serialize_kv, str]

theorem createGroup_items (memberIds : List Int32) : NetworkManager.createGroup groupName memberIds
    = serialize_kv [(str "name", groupName),
      (str "members", [44].intercalate (memberIds.map fun id => to_string id.toInt))] := by
  simp [NetworkManager.createGroup, serialize_kv, str, List.intercalate_cons_cons]

end Items

/-! ## Numbers -/

/-- An id is read back as it was printed with its sign. -/
theorem stoi_int (id : Int32) : stoi (to_string id.toInt) = .ok id.toInt :=
  stoi_to_string id.le_toInt id.toInt_lt

/-- An id that was printed as a `uint32_t` is read back unless it is below 0; `std::stoi` throws then. -/
theorem stoi_unsigned (id : Int32) :
    stoi (to_string id.toUInt32.toNat) = .ok id.toInt ↔ 0 ≤ id.toInt := by
  have hvalue : id.toInt = if 2 * id.toUInt32.toNat < 2 ^ 32 then (id.toUInt32.toNat : Int)
      else (id.toUInt32.toNat : Int) - (2 ^ 32 : Nat) := BitVec.toInt_eq_toNat_cond id.toBitVec
  have hlt := id.toUInt32.toNat_lt
  rw [stoi_to_string_eq]
  by_cases hsmall : 2 * id.toUInt32.toNat < 2 ^ 32
  · rw [if_pos hsmall] at hvalue
    rw [if_neg (by omega), hvalue]
    exact ⟨fun _ => by omega, fun _ => rfl⟩
  · rw [if_neg hsmall] at hvalue
    rw [if_pos (by omega)]
    refine ⟨fun h => ?_, fun h => by omega⟩
    cases h

/-- The list of members holds digits, signs and commas. -/
theorem notMem_members (memberIds : List Int32) :
    38 ∉ ([44] : Bytes).intercalate (memberIds.map fun id => to_string id.toInt) := by
  induction memberIds with
  | nil => exact List.not_mem_nil
  | cons id ids ih =>
    have hid : 38 ∉ to_string id.toInt := notMem_to_string (by decide)
    cases ids with
    | nil =>
      rw [List.map_singleton, List.intercalate_singleton]
      exact hid
    | cons id' ids =>
      rw [List.map_cons] at ih
      rw [List.map_cons, List.map_cons, List.intercalate_cons_cons]
      simpa [hid] using ih

theorem mapM_stoi (memberIds : List Int32) :
    (memberIds.map fun id => to_string id.toInt).mapM stoi = .ok (memberIds.map Int32.toInt) := by
  induction memberIds with
  | nil => rfl
  | cons id ids ih =>
    rw [List.map_cons, List.mapM_cons, stoi_int, ih]
    rfl

/-- The members are read back one by one. -/
theorem read_members (memberIds : List Int32) :
    ((getlines 44 (([44] : Bytes).intercalate (memberIds.map fun id => to_string id.toInt))).filter
      (· ≠ [])).mapM stoi = .ok (memberIds.map Int32.toInt) := by
  have htoken : ∀ l ∈ memberIds.map (fun id => to_string id.toInt), 44 ∉ l ∧ l ≠ [] := by
    intro l hl
    obtain ⟨id, -, rfl⟩ := List.mem_map.mp hl
    exact ⟨notMem_to_string (by decide), to_string_ne_nil _⟩
  have hkept : (memberIds.map fun id => to_string id.toInt).filter (· ≠ [])
      = memberIds.map fun id => to_string id.toInt :=
    List.filter_eq_self.mpr fun l hl => decide_eq_true (htoken l hl).2
  rw [getlines_intercalate (fun l hl => (htoken l hl).1) fun l hl => (htoken l hl).2, hkept]
  exact mapM_stoi memberIds

/-! ## What arrives -/

namespace Typed

variable {t : Typed}

/-- The pairs of a chat message, read. -/
theorem read_chat {id : Int32} {message : Bytes} (hmessage : 38 ∉ message) :
    parse_kv (NetworkManager.sendChatMessage id message)
      = ((∅ : UMap Bytes Bytes).set (str "message") message).set (str "recipientId")
        (to_string id.toUInt32.toNat) := by
  rw [sendChatMessage_items]
  refine parse_serialize fun p hp => ?_
  rcases List.mem_pair.mp hp with rfl | rfl
  · exact readable_text (by decide) hmessage
  · exact readable_number (by decide) _

/-- **What is to arrive must be plain**: a text with a `&` does not arrive. -/
theorem plain_of_arrives (h : t.Arrives) : t.Plain := by
  -- what a handler reads holds no `&`
  have hread : ∀ {payload text : Bytes} {key : String}, field payload key = text → 38 ∉ text :=
    fun h => h ▸ notMem_value _ _
  cases t with
  | register username password email phone =>
    obtain ⟨husername, -, hemail, hphone⟩ := h
    exact ⟨hread husername, hread hemail, hread hphone⟩
  | sendChatMessage recipientId message =>
    obtain ⟨hid, hmessage⟩ := h
    have hplain := hread hmessage
    have hvalue : field (Typed.sendChatMessage recipientId message).payload "recipientId"
        = to_string recipientId.toUInt32.toNat := by
      rw [field, payload, read_chat hplain, UMap.get_set, if_pos rfl]
    rw [hvalue] at hid
    exact ⟨(stoi_unsigned recipientId).mp hid, hplain⟩
  | sendGroupMessage groupId message => exact hread h.2
  | sendFriendRequest friendUsername =>
    have htarget : handle_client.friend_request_target (Typed.sendFriendRequest friendUsername).payload
        = .ok (.username friendUsername) := h
    unfold handle_client.friend_request_target at htarget
    split at htarget
    · exact hread (handle_client.Target.username.inj ((pure_ok_iff ..).mp htarget))
    split at htarget
    · obtain ⟨id, -, hid⟩ := (bind_ok_iff ..).mp htarget
      cases hid
    · cases htarget
  | searchUsers query => exact hread h
  | createGroup groupName memberIds =>
    obtain ⟨ids, -, hfields⟩ := (bind_ok_iff ..).mp h
    have hname := congrArg Prod.fst ((pure_ok_iff ..).mp hfields)
    simp only at hname
    split at hname
    · exact hread (Option.some.inj hname)
    · cases hname

/-- **What is plain arrives**: nothing but a `&` gets a text wrong. -/
theorem arrives_of_plain (h : t.Plain) : t.Arrives := by
  cases t with
  | register username password email phone =>
    obtain ⟨husername, hemail, hphone⟩ := h
    have hhash : 38 ∉ CryptoUtils.sha256 password := fun hmem =>
      absurd (CryptoUtils.mem_sha256 hmem) (by decide)
    have hpairs : parse_kv (NetworkManager.register username password email phone)
        = ((((∅ : UMap Bytes Bytes).set (str "username") username).set (str "password")
          (CryptoUtils.sha256 password)).set (str "email") email).set (str "phone") phone := by
      rw [register_items]
      refine parse_serialize fun p hp => ?_
      simp only [List.mem_cons, List.not_mem_nil, or_false] at hp
      rcases hp with rfl | rfl | rfl | rfl
      · exact readable_text (by decide) husername
      · exact readable_text (by decide) hhash
      · exact readable_text (by decide) hemail
      · exact readable_text (by decide) hphone
    simp [Arrives, payload, field, hpairs, str]
  | sendChatMessage recipientId message =>
    obtain ⟨hid, hmessage⟩ := h
    have hread := (stoi_unsigned recipientId).mpr hid
    simpa [Arrives, payload, field, read_chat hmessage, str] using hread
  | sendGroupMessage groupId message =>
    have hpairs : parse_kv (NetworkManager.sendGroupMessage groupId message)
        = ((∅ : UMap Bytes Bytes).set (str "groupId") (to_string groupId.toInt)).set (str "message") message := by
      rw [sendGroupMessage_items]
      refine parse_serialize fun p hp => ?_
      rcases List.mem_pair.mp hp with rfl | rfl
      · exact readable_number (by decide) _
      · exact readable_text (by decide) h
    have hread := stoi_int groupId
    simpa [Arrives, payload, field, hpairs, str] using hread
  | sendFriendRequest friendUsername =>
    have hpairs : parse_kv (NetworkManager.sendFriendRequest friendUsername)
        = (∅ : UMap Bytes Bytes).set (str "username") friendUsername := by
      rw [sendFriendRequest_items]
      refine parse_serialize fun p hp => ?_
      rw [List.mem_singleton.mp hp]
      exact readable_text (by decide) h
    have hfield : has_field (Typed.sendFriendRequest friendUsername).payload "username" = true := by
      rw [has_field, payload, hpairs, UMap.count, UMap.find?_set, if_pos rfl]
      rfl
    rw [Arrives, handle_client.friend_request_target, if_pos hfield, field, payload, hpairs, UMap.get_set,
      if_pos rfl]
    rfl
  | searchUsers query =>
    have hpairs : parse_kv (NetworkManager.searchUsers query)
        = (∅ : UMap Bytes Bytes).set (str "query") query := by
      rw [searchUsers_items]
      refine parse_serialize fun p hp => ?_
      rw [List.mem_singleton.mp hp]
      exact readable_text (by decide) h
    rw [Arrives, field, payload, hpairs, UMap.get_set, if_pos rfl]
  | createGroup groupName memberIds =>
    have hpairs : parse_kv (NetworkManager.createGroup groupName memberIds)
        = ((∅ : UMap Bytes Bytes).set (str "name") groupName).set (str "members")
          ([44].intercalate (memberIds.map fun id => to_string id.toInt)) := by
      rw [createGroup_items]
      refine parse_serialize fun p hp => ?_
      rcases List.mem_pair.mp hp with rfl | rfl
      · exact readable_text (by decide) h
      · exact readable_text (by decide) (notMem_members memberIds)
    have hmembers : field (Typed.createGroup groupName memberIds).payload "members"
        = [44].intercalate (memberIds.map fun id => to_string id.toInt) := by
      rw [field, payload, hpairs, UMap.get_set, if_pos rfl]
    have hname : has_field (Typed.createGroup groupName memberIds).payload "name" = true ∧
        field (Typed.createGroup groupName memberIds).payload "name" = groupName := by
      simp [has_field, field, payload, hpairs, UMap.count, str]
    rw [Arrives, handle_client.create_group_fields, hmembers, read_members, if_pos hname.1, hname.2]
    rfl

/-- **What the user types arrives if, and only if, it is plain.** -/
theorem arrives_iff_plain (t : Typed) : t.Arrives ↔ t.Plain := ⟨plain_of_arrives, arrives_of_plain⟩

/-- **An ampersand is lost**: of `a&b` the server reads `a`. -/
theorem not_arrives : ¬∀ t : Typed, t.Arrives := by
  intro h
  have hread : field (Typed.sendChatMessage 2 (str "a&b")).payload "message" = str "a" := by decide
  have hmessage := (h (.sendChatMessage 2 (str "a&b"))).2
  rw [hread] at hmessage
  exact absurd hmessage (by decide)

end Typed

end ChatApp
