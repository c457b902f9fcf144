import SecureChat.SignalMessages
import SecureChat.JsonSizes
import SecureChat.Base64Url
import SecureChat.BigEndian
/-!
# ControlPackets — private chat controls as packets of one size

A control is written without its two ids.  The length of its text, the text and random bytes make 16 KiB, which are
sent as base64.  A receiver takes the text out, puts in the ids of the two who are authenticated, and reads it as a
message.  Every packet has the same length (`length_encodePrivateChatControl`), and the text that was put into a packet
is taken out of it (`unpack_pack`).
-/
namespace SecureChat
namespace Signals

open PlaintextPadding (Units ascii chars utf8Length)
open JsonText (Value Entries put keys hexValue isFinite finiteEntries WellFormed WellFormedEntries print)
open Utf16 (utf8Encode utf8Decode)

def privateChatControlPrefix : Units := key "CHATCTRL:v2:"

def privateControlPacketBytes : ℕ := 16 * 1024

def privateControlLengthBytes : ℕ := 4

def privateControlTypes : List String := [
  "delivery_receipt", "message_delete", "message_edit", "message_reaction", "message_pin", "typing_indicator",
  "disappearing_timer", "shared_phone", "shared_profile_name", "view_once_opened", "session_reset_request"]

def isPrivateControlType (type : Units) : Bool := privateControlTypes.any fun t => decide (key t = type)

def isPrivateChatControl (plaintext : Units) : Bool :=
  decide (plaintext.take privateChatControlPrefix.length = privateChatControlPrefix)

/-! ## Packing -/

/-- The bytes of a packet: `random` fills it up. -/
def packet (random : ℕ → UInt8) (encoded : List UInt8) : List UInt8 :=
  BigEndian.bytes privateControlLengthBytes encoded.length ++ encoded ++
    (List.range' (privateControlLengthBytes + encoded.length)
      (privateControlPacketBytes - (privateControlLengthBytes + encoded.length))).map random

def pack (random : ℕ → UInt8) (encoded : List UInt8) : Except Failure Units :=
  if privateControlPacketBytes - privateControlLengthBytes < encoded.length then
    .error (.argument "Control is too large")
  else .ok (privateChatControlPrefix ++ ascii (Base64Url.encode (packet random encoded)))

/-- `map.remove(name)` -/
def removeKey (name : String) (json : Entries) : Entries := json.filter fun e => decide (e.1 ≠ key name)

def protectedJson (control : SignalMessage) : Entries :=
  removeKey "recipientId" (removeKey "senderId" control.toJson)

def encodePrivateChatControl (random : ℕ → UInt8) (control : SignalMessage) : Except Failure Units :=
  if isPrivateControlType control.type = false then .error (.argument "Unsupported control")
  else if control.base.senderId = [] ∨ control.base.recipientId = [] ∨
      control.base.senderId = control.base.recipientId then
    .error (.argument "Sender and recipient must be distinct, non-empty identities")
  else
    match JsonText.encode (.obj (protectedJson control)) with
    | none => .error .unencodable
    | some text => pack random (utf8Encode text)

/-! ## Unpacking -/

def percent : UInt16 := 37

/-- `%` and two digits stand for a unit, which is not `%`. -/
def unescape : Units → Option Units
  | [] => some []
  | u :: l =>
    if u = percent then
      match l with
      | a :: b :: rest =>
        (hexValue a).bind fun d => (hexValue b).bind fun e =>
          if d * 16 + e = percent.toNat then none
          else (unescape rest).map fun t => UInt16.ofNat (d * 16 + e) :: t
      | _ => none
    else (unescape l).map fun t => u :: t

def base64Digit (c : Char) : Option ℕ :=
  if c = '+' then some 62 else if c = '/' then some 63 else Base64Url.digit c

/-- `base64Url.decode(base64Url.normalize(text))` -/
def base64UrlDecode (text : Units) : Option (List UInt8) :=
  (unescape text).bind fun t => Base64Url.decode base64Digit true (chars t)

def unpack (plaintext : Units) : Except Failure (List UInt8) :=
  if isPrivateChatControl plaintext = false then .error (.format "Not a private chat control")
  else
    let encoded := plaintext.drop privateChatControlPrefix.length
    if encoded = [] ∨ privateControlPacketBytes * 2 < encoded.length then
      .error (.format "Invalid private chat control size")
    else
      match base64UrlDecode encoded with
      | none => .error .unreadable
      | some packet =>
        if packet.length ≠ privateControlPacketBytes then .error (.format "Invalid private chat control packet size")
        else
          let payloadLength := BigEndian.value (packet.take privateControlLengthBytes)
          if payloadLength < 2 ∨ privateControlPacketBytes - privateControlLengthBytes < payloadLength then
            .error (.format "Invalid private chat control payload size")
          else .ok ((packet.drop privateControlLengthBytes).take payloadLength)

def authenticated (senderId recipientId : Units) (json : Entries) : Entries :=
  put (put json (key "senderId") (.str senderId)) (key "recipientId") (.str recipientId)

def controlJson (bytes : List UInt8) : Except Failure Entries :=
  match utf8Decode bytes with
  | none => .error .unreadable
  | some text =>
    (SignalMessage.decodeMap "Invalid control object" text).bind fun json =>
      match get json "type" with
      | .str type =>
        if isPrivateControlType type = true then .ok json
        else .error (.format "Unsupported private control type")
      | _ => .error (.format "Unsupported private control type")

/-- `SignalMessage.decode(jsonEncode(json))` -/
def reread (json : Entries) : Except Failure SignalMessage :=
  match JsonText.encode (.obj json) with
  | none => .error .unencodable
  | some raw => SignalMessage.decode raw

def isControlPayload : SignalMessage → Bool
  | .unknown _ | .encryptedMessage _ => false
  | _ => true

def decodePrivateChatControl (plaintext authenticatedSenderId localRecipientId : Units) :
    Except Failure SignalMessage :=
  (unpack plaintext).bind fun bytes =>
    (controlJson bytes).bind fun json =>
      (reread (authenticated authenticatedSenderId localRecipientId json)).bind fun signal =>
        if isControlPayload signal = true then .ok signal else .error (.format "Invalid private control payload")

/-! ## Packets -/

section
variable {random : ℕ → UInt8} {encoded : List UInt8}

theorem length_packet (h : encoded.length ≤ privateControlPacketBytes - privateControlLengthBytes) :
    (packet random encoded).length = privateControlPacketBytes := by
  have hsum : privateControlLengthBytes + encoded.length ≤ privateControlPacketBytes :=
    Nat.add_le_of_le_sub' (by decide) h
  rw [packet, List.length_append, List.length_append, BigEndian.length_bytes, List.length_map, List.length_range']
  exact Nat.add_sub_cancel' hsum

def encodedUnits : ℕ := (privateControlPacketBytes + 2) / 3 * 4

theorem length_ascii_encode (bytes : List UInt8) :
    (ascii (Base64Url.encode bytes)).length = (bytes.length + 2) / 3 * 4 := by
  rw [ascii, List.length_map, Base64Url.length_encode]

/-- A text of base64 is made of its alphabet and `=`. -/
theorem mem_encode {c : Char} {bytes : List UInt8} (h : c ∈ Base64Url.encode bytes) :
    c ∈ '=' :: Base64Url.alphabet := by
  rcases List.mem_append.1 h with h | h
  · obtain ⟨n, -, rfl⟩ := List.mem_map.1 h
    exact List.mem_cons_of_mem _ (Base64Url.character_mem n)
  · rw [List.eq_of_mem_replicate h]
    exact List.mem_cons_self

theorem unit_of_alphabet {c : Char} (h : c ∈ '=' :: Base64Url.alphabet) :
    (UInt16.ofNat c.toNat).toNat = c.toNat ∧ UInt16.ofNat c.toNat ≠ percent := by
  have hall : ('=' :: Base64Url.alphabet).all (fun c => decide (c.toNat < 128 ∧ c.toNat ≠ 37)) = true := by
    decide +kernel
  obtain ⟨hlt, hne⟩ := of_decide_eq_true (List.all_eq_true.1 hall c h)
  have hnat : (UInt16.ofNat c.toNat).toNat = c.toNat :=
    UInt16.toNat_ofNat_of_lt (Nat.lt_of_lt_of_le hlt (by decide))
  refine ⟨hnat, fun hpercent => hne ?_⟩
  rw [← hnat, hpercent]
  rfl

theorem unescape_plain : ∀ {l : Units}, (∀ u ∈ l, u ≠ percent) → unescape l = some l
  | [], _ => rfl
  | u :: l, h => by
    have hstep : unescape (u :: l) = (unescape l).map fun t => u :: t := by
      rw [unescape.eq_def]
      exact if_neg (h u List.mem_cons_self)
    rw [hstep, unescape_plain fun v hv => h v (List.mem_cons_of_mem u hv), Option.map_some]

theorem base64Digit_character (n : ℕ) (h : n < 64) : base64Digit (Base64Url.character n) = some n := by
  have hne : ∀ c ∉ Base64Url.alphabet, Base64Url.character n ≠ c := fun c hc heq =>
    hc (heq ▸ Base64Url.character_mem n)
  rw [base64Digit, if_neg (hne '+' (by decide)), if_neg (hne '/' (by decide)), Base64Url.digit_character h]

theorem base64UrlDecode_encode (bytes : List UInt8) :
    base64UrlDecode (ascii (Base64Url.encode bytes)) = some bytes := by
  have hplain : ∀ u ∈ ascii (Base64Url.encode bytes), u ≠ percent := by
    intro u hu
    obtain ⟨c, hc, rfl⟩ := List.mem_map.1 hu
    exact (unit_of_alphabet (mem_encode hc)).2
  rw [base64UrlDecode, unescape_plain hplain, Option.bind_some,
    PlaintextPadding.chars_ascii fun _ hc => (unit_of_alphabet (mem_encode hc)).1,
    Base64Url.decode_encode_padded base64Digit_character]

theorem isPrivateChatControl_append (l : Units) : isPrivateChatControl (privateChatControlPrefix ++ l) = true := by
  rw [isPrivateChatControl, List.take_left, decide_eq_true_eq]

theorem unpack_pack (htwo : 2 ≤ encoded.length)
    (h : encoded.length ≤ privateControlPacketBytes - privateControlLengthBytes) :
    unpack (privateChatControlPrefix ++ ascii (Base64Url.encode (packet random encoded))) = .ok encoded := by
  have hpacket : (packet random encoded).length = privateControlPacketBytes := length_packet h
  have hlength : (ascii (Base64Url.encode (packet random encoded))).length = encodedUnits := by
    rw [length_ascii_encode, hpacket, encodedUnits]
  have hsize : ¬ (ascii (Base64Url.encode (packet random encoded)) = [] ∨
      privateControlPacketBytes * 2 < (ascii (Base64Url.encode (packet random encoded))).length) := by
    rw [hlength]
    rintro (hnil | hlong)
    · rw [hnil] at hlength
      exact absurd hlength (by decide)
    · exact absurd hlong (by decide)
  have htake : (packet random encoded).take privateControlLengthBytes =
      BigEndian.bytes privateControlLengthBytes encoded.length := by
    rw [packet, List.append_assoc]
    exact List.take_left' (BigEndian.length_bytes _ _)
  have hvalue : BigEndian.value ((packet random encoded).take privateControlLengthBytes) = encoded.length := by
    rw [htake]
    refine BigEndian.value_bytes (Nat.lt_of_le_of_lt h (by decide))
  have hdrop : ((packet random encoded).drop privateControlLengthBytes).take encoded.length = encoded := by
    rw [packet, List.append_assoc, List.drop_left' (BigEndian.length_bytes _ _), List.take_left]
  unfold unpack
  rw [isPrivateChatControl_append, if_neg (by decide), List.drop_left]
  dsimp only
  rw [if_neg hsize, base64UrlDecode_encode]
  dsimp only
  rw [if_neg (not_not.2 hpacket), hvalue, if_neg (by omega), hdrop]

end

/-! ## Maps -/

theorem get_removeKey (name name' : String) : ∀ l : Entries,
    get (removeKey name l) name' = if name = name' then .null else get l name'
  | [] => by simp [removeKey, get]
  | (k, v) :: l => by
    have ih := get_removeKey name name' l
    rw [removeKey] at ih ⊢
    by_cases hk : k = key name
    · rw [List.filter_cons_of_neg (by simpa using hk), ih, get]
      by_cases hname : name = name'
      · rw [if_pos hname, if_pos hname]
      · have hne : k ≠ key name' := fun h => hname (key_inj.1 (hk.symm.trans h))
        rw [if_neg hname, if_neg hname, if_neg hne]
    · rw [List.filter_cons_of_pos (by simpa using hk), get, get, ih]
      by_cases hname : name = name'
      · subst hname
        rw [if_pos rfl, if_pos rfl, if_neg hk]
      · rw [if_neg hname, if_neg hname]

theorem wellFormedEntries_filter (p : Units × Value → Bool) : ∀ {l : Entries}, WellFormedEntries l →
    WellFormedEntries (l.filter p)
  | [], _ => trivial
  | e :: l, h => by
    rw [List.filter_cons]
    split
    · exact ⟨h.1, wellFormedEntries_filter p h.2⟩
    · exact wellFormedEntries_filter p h.2

theorem finiteEntries_filter (p : Units × Value → Bool) : ∀ {l : Entries}, finiteEntries l = true →
    finiteEntries (l.filter p) = true
  | [], _ => rfl
  | e :: l, h => by
    obtain ⟨he, hl⟩ := Bool.and_eq_true_iff.1 h
    rw [List.filter_cons]
    split
    · exact Bool.and_eq_true_iff.2 ⟨he, finiteEntries_filter p hl⟩
    · exact finiteEntries_filter p hl

theorem Printable.removeKey {json : Entries} (h : Printable json) (name : String) : Printable (removeKey name json) :=
  ⟨(List.filter_sublist.map Prod.fst).nodup h.nodup, wellFormedEntries_filter _ h.values,
    finiteEntries_filter _ h.finite⟩

theorem get_authenticated (senderId recipientId : Units) (json : Entries) (name : String) :
    get (authenticated senderId recipientId json) name =
      if "recipientId" = name then .str recipientId else if "senderId" = name then .str senderId
      else get json name := by
  rw [authenticated, get_put, get_put]

theorem Printable.authenticated {json : Entries} (h : Printable json) (senderId recipientId : Units) :
    Printable (authenticated senderId recipientId json) :=
  (h.put (key "senderId") (v := .str senderId) trivial rfl).put (key "recipientId") (v := .str recipientId) trivial rfl

theorem controlJson_encode {json : Entries} {type : Units} (h : Printable json) (htype : get json "type" = .str type)
    (hcontrol : isPrivateControlType type = true) : controlJson (utf8Encode (print (.obj json))) = .ok json := by
  have hmap : SignalMessage.decodeMap "Invalid control object" (print (.obj json)) = .ok json := by
    rw [SignalMessage.decodeMap, h.decode]
  rw [controlJson, JsonText.utf8Decode_print h.finite]
  dsimp only
  rw [hmap]
  show (match get json "type" with
    | .str type =>
      if isPrivateControlType type = true then (.ok json : Except Failure Entries)
      else .error (.format "Unsupported private control type")
    | _ => .error (.format "Unsupported private control type")) = _
  rw [htype]
  exact if_pos hcontrol

theorem reread_eq {json : Entries} (h : Printable json) :
    reread json = if SignalMessage.maxEncodedBytes < utf8Length (print (.obj json)) then
        .error (.format "Signal frame exceeds the 256 KiB limit")
      else SignalMessage.fromJson json := by
  have hmap : SignalMessage.decodeMap "Signal frame must be a JSON object" (print (.obj json)) = .ok json := by
    rw [SignalMessage.decodeMap, h.decode]
  rw [reread, h.encode]
  dsimp only
  rw [SignalMessage.decode, JsonText.length_utf8Encode, hmap]
  rfl

/-! ## Controls -/

def DistinctIdentities (m : SignalBase) : Prop := m.senderId ≠ [] ∧ m.recipientId ≠ [] ∧ m.senderId ≠ m.recipientId

theorem not_distinctIdentities {m : SignalBase} :
    ¬ DistinctIdentities m ↔ m.senderId = [] ∨ m.recipientId = [] ∨ m.senderId = m.recipientId := by
  unfold DistinctIdentities
  tauto

theorem Printable.protectedJson {control : SignalMessage} (h : Printable control.toJson) :
    Printable (protectedJson control) := (h.removeKey "senderId").removeKey "recipientId"

theorem get_protectedJson (control : SignalMessage) (name : String) :
    get (protectedJson control) name = if "recipientId" = name then .null else if "senderId" = name then .null
      else get control.toJson name := by
  rw [protectedJson, get_removeKey, get_removeKey]

variable {random : ℕ → UInt8} {control : SignalMessage} {plaintext : Units}

/-- **What is encoded**: a control of one of the types, between two who are not the same, whose text fits. -/
theorem encodePrivateChatControl_eq_ok (h : Printable control.toJson) :
    encodePrivateChatControl random control = .ok plaintext ↔
      isPrivateControlType control.type = true ∧ DistinctIdentities control.base ∧
      utf8Length (print (.obj (protectedJson control))) ≤ privateControlPacketBytes - privateControlLengthBytes ∧
      plaintext = privateChatControlPrefix ++
        ascii (Base64Url.encode (packet random (utf8Encode (print (.obj (protectedJson control)))))) := by
  unfold encodePrivateChatControl
  rw [h.protectedJson.encode]
  cases htype : isPrivateControlType control.type with
  | false => simp
  | true =>
    by_cases hids : DistinctIdentities control.base
    · rw [if_neg (by decide), if_neg fun hsame => not_distinctIdentities.2 hsame hids]
      dsimp only
      rw [pack, JsonText.length_utf8Encode]
      by_cases hfits : utf8Length (print (.obj (protectedJson control))) ≤
          privateControlPacketBytes - privateControlLengthBytes
      · rw [if_neg (Nat.not_lt.2 hfits), Except.ok.injEq]
        exact ⟨fun heq => ⟨rfl, hids, hfits, heq.symm⟩, fun heq => heq.2.2.2.symm⟩
      · rw [if_pos (Nat.lt_of_not_le hfits)]
        exact ⟨fun heq => (by cases heq), fun heq => absurd heq.2.2.1 hfits⟩
    · rw [if_neg (by decide), if_pos (not_distinctIdentities.1 hids)]
      exact ⟨fun heq => (by cases heq), fun heq => absurd heq.2.1 hids⟩

/-- **Every packet has one length**, whatever is in it. -/
theorem length_encodePrivateChatControl (h : Printable control.toJson)
    (hok : encodePrivateChatControl random control = .ok plaintext) :
    plaintext.length = privateChatControlPrefix.length + encodedUnits := by
  obtain ⟨-, -, hfits, rfl⟩ := (encodePrivateChatControl_eq_ok h).1 hok
  rw [← JsonText.length_utf8Encode] at hfits
  rw [List.length_append, length_ascii_encode, length_packet hfits, encodedUnits]

theorem decode_encodePrivateChatControl (h : Printable control.toJson)
    (htype : get control.toJson "type" = .str control.type)
    (hok : encodePrivateChatControl random control = .ok plaintext) (senderId recipientId : Units) :
    decodePrivateChatControl plaintext senderId recipientId =
      (reread (authenticated senderId recipientId (protectedJson control))).bind fun signal =>
        if isControlPayload signal = true then .ok signal else .error (.format "Invalid private control payload") := by
  obtain ⟨hcontrol, -, hfits, rfl⟩ := (encodePrivateChatControl_eq_ok h).1 hok
  have htwo := JsonText.two_le_utf8Length_print h.protectedJson.finite
  rw [← JsonText.length_utf8Encode] at hfits htwo
  have hget : get (protectedJson control) "type" = .str control.type := by
    rw [get_protectedJson, if_neg (by decide), if_neg (by decide), htype]
  rw [decodePrivateChatControl, unpack_pack htwo hfits, Except.bind, controlJson_encode h.protectedJson hget hcontrol]
  rfl

end Signals
end SecureChat
