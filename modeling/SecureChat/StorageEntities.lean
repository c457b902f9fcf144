import SecureChat.Base64Url
import SecureChat.Json
import SecureChat.MessageEnvelope
/-!
# StorageEntities — the records of the local database and their documents

Every record is stored as a document with one field for each of its own.  What `toJson` writes `fromJson` reads back.
-/
namespace SecureChat
namespace Storage

open GroupControl (Text)
open Envelope (StorageMessageContentType)
open Json (Fields get asString? asString asBool? toInt? toInt asList asMap strings? strings orNull unlessNull)

/-! ### Values by name -/

def toLower (c : Char) : Char := if c = 'K' then 'k' else c.toLower

def toLowerCase (t : Text) : Text := t.map toLower

def toUpperCase (t : Text) : Text := t.map Char.toUpper

/-- The first value that `raw` names, in any case and with any underscores; what is not a text names nothing. -/
def enumByName {α : Type} (values : List α) (name : α → Text) (raw : Json) (fallback : α) : α :=
  match raw with
  | .str t =>
    (values.find? fun value =>
      decide (name value = t ∨ toUpperCase (name value) = t ∨ toLowerCase (name value) = toLowerCase t ∨
        toLowerCase (name value) = toLowerCase (t.filter fun c => decide (c ≠ '_')))).getD fallback
  | _ => fallback

def contentTypes : List StorageMessageContentType := [.text, .image, .file, .voiceNote, .system, .deleted, .poll]

def contentTypeName : StorageMessageContentType → Text
  | .text => "text".toList
  | .image => "image".toList
  | .file => "file".toList
  | .voiceNote => "voiceNote".toList
  | .system => "system".toList
  | .deleted => "deleted".toList
  | .poll => "poll".toList

inductive StorageMessageStatus
  | sending | sent | delivered | read | failed
deriving DecidableEq

namespace StorageMessageStatus

def values : List StorageMessageStatus := [.sending, .sent, .delivered, .read, .failed]

def name : StorageMessageStatus → Text
  | .sending => "sending".toList
  | .sent => "sent".toList
  | .delivered => "delivered".toList
  | .read => "read".toList
  | .failed => "failed".toList

end StorageMessageStatus

inductive TrustLevel
  | untrusted | trustedUnverified | trustedVerified
deriving DecidableEq

namespace TrustLevel

def values : List TrustLevel := [.untrusted, .trustedUnverified, .trustedVerified]

def name : TrustLevel → Text
  | .untrusted => "untrusted".toList
  | .trustedUnverified => "trustedUnverified".toList
  | .trustedVerified => "trustedVerified".toList

end TrustLevel

inductive ScheduledRecipientOutcome
  | sent | encryptionFailed | deliveryFailed | failed
deriving DecidableEq

namespace ScheduledRecipientOutcome

def values : List ScheduledRecipientOutcome := [.sent, .encryptionFailed, .deliveryFailed, .failed]

def name : ScheduledRecipientOutcome → Text
  | .sent => "sent".toList
  | .encryptionFailed => "encryptionFailed".toList
  | .deliveryFailed => "deliveryFailed".toList
  | .failed => "failed".toList

/-- By the exact name only. -/
def ofJson (raw : Json) : ScheduledRecipientOutcome :=
  (values.find? fun value => decide (asString raw = some (name value))).getD .failed

end ScheduledRecipientOutcome

@[simp] theorem enumByName_contentType (v w : StorageMessageContentType) :
    enumByName contentTypes contentTypeName (.str (contentTypeName v)) w = v := by
  cases v <;> rfl

@[simp] theorem enumByName_status (v w : StorageMessageStatus) :
    enumByName StorageMessageStatus.values StorageMessageStatus.name (.str v.name) w = v := by
  cases v <;> rfl

@[simp] theorem enumByName_trustLevel (v w : TrustLevel) :
    enumByName TrustLevel.values TrustLevel.name (.str v.name) w = v := by
  cases v <;> rfl

@[simp] theorem outcome_ofJson_name (v : ScheduledRecipientOutcome) : ScheduledRecipientOutcome.ofJson (.str v.name) = v := by
  cases v <;> rfl

/-! ### Content -/

structure ConversationEntity where
  id : Text
  peerId : Text
  peerName : Text
  peerPhone : Text
  lastMessage : Option Text := none
  lastMessageTimestamp : Option ℤ := none
  lastMessageType : Option Text := none
  lastMessageOutgoing : Bool := false
  lastMessageStatus : Option Text := none
  unreadCount : ℤ := 0
  isMuted : Bool := false
  isPinned : Bool := false
  isGroup : Bool := false
  groupMembers : Option Text := none
  contactNote : Option Text := none
  customNotificationUri : Option Text := none
  isArchived : Bool := false
  disappearingDuration : ℤ := 0
  groupAdmins : Option Text := none
  isFavorite : Bool := false
  isLocked : Bool := false
  isExportEnabled : Bool := false
  manuallyUnread : Bool := false
  isReadOnly : Bool := false
  groupDescription : Option Text := none
  groupPhoto : Option Text := none
  draft : Option Text := none
deriving DecidableEq

namespace ConversationEntity

def toJson (e : ConversationEntity) : Fields :=
  [("id", .str e.id), ("peerId", .str e.peerId), ("peerName", .str e.peerName), ("peerPhone", .str e.peerPhone),
   ("lastMessage", orNull .str e.lastMessage), ("lastMessageTimestamp", orNull .int e.lastMessageTimestamp),
   ("lastMessageType", orNull .str e.lastMessageType), ("lastMessageOutgoing", .bool e.lastMessageOutgoing),
   ("lastMessageStatus", orNull .str e.lastMessageStatus), ("unreadCount", .int e.unreadCount),
   ("isMuted", .bool e.isMuted), ("isPinned", .bool e.isPinned), ("isGroup", .bool e.isGroup),
   ("groupMembers", orNull .str e.groupMembers), ("contactNote", orNull .str e.contactNote),
   ("customNotificationUri", orNull .str e.customNotificationUri), ("isArchived", .bool e.isArchived),
   ("disappearingDuration", .int e.disappearingDuration), ("groupAdmins", orNull .str e.groupAdmins),
   ("isFavorite", .bool e.isFavorite), ("isLocked", .bool e.isLocked), ("isExportEnabled", .bool e.isExportEnabled),
   ("manuallyUnread", .bool e.manuallyUnread), ("isReadOnly", .bool e.isReadOnly)] ++
  unlessNull "groupDescription" .str e.groupDescription ++
  unlessNull "groupPhoto" .str e.groupPhoto ++
  unlessNull "draft" .str e.draft ++
  []

def fromJson (json : Fields) : Option ConversationEntity := do
  return {
    id := (← asString? (get json "id")).getD []
    peerId := (← asString? (get json "peerId")).getD []
    peerName := (← asString? (get json "peerName")).getD []
    peerPhone := (← asString? (get json "peerPhone")).getD []
    lastMessage := ← asString? (get json "lastMessage")
    lastMessageTimestamp := ← toInt? (get json "lastMessageTimestamp")
    lastMessageType := ← asString? (get json "lastMessageType")
    lastMessageOutgoing := (← asBool? (get json "lastMessageOutgoing")).getD false
    lastMessageStatus := ← asString? (get json "lastMessageStatus")
    unreadCount := (← toInt? (get json "unreadCount")).getD 0
    isMuted := (← asBool? (get json "isMuted")).getD false
    isPinned := (← asBool? (get json "isPinned")).getD false
    isGroup := (← asBool? (get json "isGroup")).getD false
    groupMembers := ← asString? (get json "groupMembers")
    contactNote := ← asString? (get json "contactNote")
    customNotificationUri := ← asString? (get json "customNotificationUri")
    isArchived := (← asBool? (get json "isArchived")).getD false
    disappearingDuration := (← toInt? (get json "disappearingDuration")).getD 0
    groupAdmins := ← asString? (get json "groupAdmins")
    isFavorite := (← asBool? (get json "isFavorite")).getD false
    isLocked := (← asBool? (get json "isLocked")).getD false
    isExportEnabled := (← asBool? (get json "isExportEnabled")).getD false
    manuallyUnread := (← asBool? (get json "manuallyUnread")).getD false
    isReadOnly := (← asBool? (get json "isReadOnly")).getD false
    groupDescription := ← asString? (get json "groupDescription")
    groupPhoto := ← asString? (get json "groupPhoto")
    draft := ← asString? (get json "draft") }

@[simp] theorem fromJson_toJson (e : ConversationEntity) : fromJson e.toJson = some e := by
  cases e
  simp [fromJson, toJson]

end ConversationEntity

structure MessageEntity where
  id : Text
  conversationId : Text
  senderId : Text
  content : Text
  contentType : StorageMessageContentType
  timestamp : ℤ
  status : StorageMessageStatus
  replyToId : Option Text := none
  isOutgoing : Bool
  isStarred : Bool := false
  expiresAt : Option ℤ := none
  editedAt : Option ℤ := none
  editHistory : Option Text := none
  reactions : Option Text := none
  caption : Option Text := none
  isViewOnce : Bool := false
  isViewed : Bool := false
  isMediaPreviewDeferred : Bool := false
  isPinned : Bool := false
  pinnedAt : Option ℤ := none
  receiptRecipients : Option (List Text) := none
  deliveredTo : List Text := []
  readBy : List Text := []
deriving DecidableEq

namespace MessageEntity

def toJson (e : MessageEntity) : Fields :=
  [("id", .str e.id), ("conversationId", .str e.conversationId), ("senderId", .str e.senderId),
   ("content", .str e.content), ("contentType", .str (contentTypeName e.contentType)),
   ("timestamp", .int e.timestamp), ("status", .str e.status.name), ("replyToId", orNull .str e.replyToId),
   ("isOutgoing", .bool e.isOutgoing), ("isStarred", .bool e.isStarred), ("expiresAt", orNull .int e.expiresAt),
   ("editedAt", orNull .int e.editedAt), ("editHistory", orNull .str e.editHistory),
   ("reactions", orNull .str e.reactions), ("caption", orNull .str e.caption), ("isViewOnce", .bool e.isViewOnce),
   ("isViewed", .bool e.isViewed), ("isMediaPreviewDeferred", .bool e.isMediaPreviewDeferred),
   ("isPinned", .bool e.isPinned), ("pinnedAt", orNull .int e.pinnedAt),
   ("receiptRecipients", orNull strings e.receiptRecipients), ("deliveredTo", strings e.deliveredTo),
   ("readBy", strings e.readBy)]

def fromJson (json : Fields) : Option MessageEntity := do
  return {
    id := (← asString? (get json "id")).getD []
    conversationId := (← asString? (get json "conversationId")).getD []
    senderId := (← asString? (get json "senderId")).getD []
    content := (← asString? (get json "content")).getD []
    contentType := enumByName contentTypes contentTypeName (get json "contentType") .text
    timestamp := (← toInt? (get json "timestamp")).getD 0
    status := enumByName StorageMessageStatus.values StorageMessageStatus.name (get json "status") .sending
    replyToId := ← asString? (get json "replyToId")
    isOutgoing := (← asBool? (get json "isOutgoing")).getD false
    isStarred := (← asBool? (get json "isStarred")).getD false
    expiresAt := ← toInt? (get json "expiresAt")
    editedAt := ← toInt? (get json "editedAt")
    editHistory := ← asString? (get json "editHistory")
    reactions := ← asString? (get json "reactions")
    caption := ← asString? (get json "caption")
    isViewOnce := (← asBool? (get json "isViewOnce")).getD false
    isViewed := (← asBool? (get json "isViewed")).getD false
    isMediaPreviewDeferred := (← asBool? (get json "isMediaPreviewDeferred")).getD false
    isPinned := (← asBool? (get json "isPinned")).getD false
    pinnedAt := ← toInt? (get json "pinnedAt")
    receiptRecipients := ← strings? (get json "receiptRecipients")
    deliveredTo := (← strings? (get json "deliveredTo")).getD []
    readBy := (← strings? (get json "readBy")).getD [] }

@[simp] theorem fromJson_toJson (e : MessageEntity) : fromJson e.toJson = some e := by
  cases e
  simp [fromJson, toJson]

end MessageEntity

structure ContactEntity where
  id : Text
  phoneNumber : Text
  phoneHash : Text
  displayName : Text
  isRegistered : Bool
  avatarUri : Option Text := none
  lastSeen : Option ℤ := none
  addedManually : Bool := false
deriving DecidableEq

namespace ContactEntity

def toJson (e : ContactEntity) : Fields :=
  [("id", .str e.id), ("phoneNumber", .str e.phoneNumber), ("phoneHash", .str e.phoneHash),
   ("displayName", .str e.displayName), ("isRegistered", .bool e.isRegistered),
   ("avatarUri", orNull .str e.avatarUri), ("lastSeen", orNull .int e.lastSeen),
   ("addedManually", .bool e.addedManually)]

def fromJson (json : Fields) : Option ContactEntity := do
  return {
    id := (← asString? (get json "id")).getD []
    phoneNumber := (← asString? (get json "phoneNumber")).getD []
    phoneHash := (← asString? (get json "phoneHash")).getD []
    displayName := (← asString? (get json "displayName")).getD []
    isRegistered := (← asBool? (get json "isRegistered")).getD false
    avatarUri := ← asString? (get json "avatarUri")
    lastSeen := ← toInt? (get json "lastSeen")
    addedManually := (← asBool? (get json "addedManually")).getD false }

@[simp] theorem fromJson_toJson (e : ContactEntity) : fromJson e.toJson = some e := by
  cases e
  simp [fromJson, toJson]

end ContactEntity

structure CallLogEntity where
  id : Text
  peerId : Text
  peerName : Text
  callType : Text
  direction : Text
  status : Text
  timestamp : ℤ
  duration : ℤ := 0
  groupId : Option Text := none
deriving DecidableEq

namespace CallLogEntity

def toJson (e : CallLogEntity) : Fields :=
  [("id", .str e.id), ("peerId", .str e.peerId), ("peerName", .str e.peerName), ("callType", .str e.callType),
   ("direction", .str e.direction), ("status", .str e.status), ("timestamp", .int e.timestamp),
   ("duration", .int e.duration)] ++
  unlessNull "groupId" .str e.groupId ++
  []

def fromJson (json : Fields) : Option CallLogEntity := do
  return {
    id := (← asString? (get json "id")).getD []
    peerId := (← asString? (get json "peerId")).getD []
    peerName := (← asString? (get json "peerName")).getD []
    callType := (← asString? (get json "callType")).getD []
    direction := (← asString? (get json "direction")).getD []
    status := (← asString? (get json "status")).getD []
    timestamp := (← toInt? (get json "timestamp")).getD 0
    duration := (← toInt? (get json "duration")).getD 0
    groupId := ← asString? (get json "groupId") }

@[simp] theorem fromJson_toJson (e : CallLogEntity) : fromJson e.toJson = some e := by
  cases e
  simp [fromJson, toJson]

end CallLogEntity

structure ScheduledMessageEntity where
  id : Text
  messageContent : Text
  repeatType : Text
  repeatDays : Option Text := none
  hour : ℤ
  minute : ℤ
  recipientIds : Text
  recipientNames : Text
  recipientDisplayNames : Option (List Text) := none
  isEnabled : Bool := true
  nextTriggerTime : ℤ
  createdAt : ℤ
deriving DecidableEq

namespace ScheduledMessageEntity

def toJson (e : ScheduledMessageEntity) : Fields :=
  [("id", .str e.id), ("messageContent", .str e.messageContent), ("repeatType", .str e.repeatType),
   ("repeatDays", orNull .str e.repeatDays), ("hour", .int e.hour), ("minute", .int e.minute),
   ("recipientIds", .str e.recipientIds), ("recipientNames", .str e.recipientNames)] ++
  unlessNull "recipientDisplayNames" strings e.recipientDisplayNames ++
  [("isEnabled", .bool e.isEnabled), ("nextTriggerTime", .int e.nextTriggerTime), ("createdAt", .int e.createdAt)]

def fromJson (now : ℤ) (json : Fields) : Option ScheduledMessageEntity := do
  return {
    id := (← asString? (get json "id")).getD []
    messageContent := (← asString? (get json "messageContent")).getD []
    repeatType := (← asString? (get json "repeatType")).getD "ONCE".toList
    repeatDays := ← asString? (get json "repeatDays")
    hour := (← toInt? (get json "hour")).getD 0
    minute := (← toInt? (get json "minute")).getD 0
    recipientIds := (← asString? (get json "recipientIds")).getD []
    recipientNames := (← asString? (get json "recipientNames")).getD []
    recipientDisplayNames := ← strings? (get json "recipientDisplayNames")
    isEnabled := (← asBool? (get json "isEnabled")).getD true
    nextTriggerTime := (← toInt? (get json "nextTriggerTime")).getD 0
    createdAt := (← toInt? (get json "createdAt")).getD now }

@[simp] theorem fromJson_toJson (now : ℤ) (e : ScheduledMessageEntity) : fromJson now e.toJson = some e := by
  cases e
  simp [fromJson, toJson]

end ScheduledMessageEntity

structure ScheduledMessageRecipientResult where
  recipientId : Text
  recipientName : Text
  outcome : ScheduledRecipientOutcome
  wasLocked : Bool := false
deriving DecidableEq

namespace ScheduledMessageRecipientResult

def toJson (e : ScheduledMessageRecipientResult) : Fields :=
  [("recipientId", .str e.recipientId), ("recipientName", .str e.recipientName), ("outcome", .str e.outcome.name),
   ("wasLocked", .bool e.wasLocked)]

def fromJson (json : Fields) : Option ScheduledMessageRecipientResult := do
  return {
    recipientId := ← asString (get json "recipientId")
    recipientName := ← asString (get json "recipientName")
    outcome := .ofJson (get json "outcome")
    wasLocked := (← asBool? (get json "wasLocked")).getD false }

@[simp] theorem fromJson_toJson (e : ScheduledMessageRecipientResult) : fromJson e.toJson = some e := by
  cases e
  simp [fromJson, toJson]

end ScheduledMessageRecipientResult

def recipientResult (value : Json) : Option ScheduledMessageRecipientResult :=
  (asMap value).bind ScheduledMessageRecipientResult.fromJson

@[simp] theorem mapM_recipientResult (l : List ScheduledMessageRecipientResult) :
    l.mapM (recipientResult ∘ fun value => Json.obj value.toJson) = some l := by
  have hread := Json.mapM_map (f := fun value : ScheduledMessageRecipientResult => Json.obj value.toJson)
    (g := recipientResult) (fun value => by simp [recipientResult]) l
  simpa using hread

structure ScheduledMessageHistoryEntity where
  id : Text
  planId : Text
  messageContent : Text
  contentRetained : Bool := true
  repeatType : Text
  repeatDays : Option Text := none
  scheduledAt : ℤ
  executedAt : ℤ
  completedAt : ℤ
  recipients : List ScheduledMessageRecipientResult
deriving DecidableEq

namespace ScheduledMessageHistoryEntity

def toJson (e : ScheduledMessageHistoryEntity) : Fields :=
  [("id", .str e.id), ("planId", .str e.planId), ("messageContent", .str e.messageContent),
   ("contentRetained", .bool e.contentRetained), ("repeatType", .str e.repeatType),
   ("repeatDays", orNull .str e.repeatDays), ("scheduledAt", .int e.scheduledAt), ("executedAt", .int e.executedAt),
   ("completedAt", .int e.completedAt), ("recipients", .arr (e.recipients.map fun value => .obj value.toJson))]

def fromJson (json : Fields) : Option ScheduledMessageHistoryEntity := do
  return {
    id := ← asString (get json "id")
    planId := ← asString (get json "planId")
    messageContent := ← asString (get json "messageContent")
    contentRetained := (← asBool? (get json "contentRetained")).getD true
    repeatType := ← asString (get json "repeatType")
    repeatDays := ← asString? (get json "repeatDays")
    scheduledAt := ← toInt (get json "scheduledAt")
    executedAt := ← toInt (get json "executedAt")
    completedAt := ← toInt (get json "completedAt")
    recipients := ← (← asList (get json "recipients")).mapM recipientResult }

@[simp] theorem fromJson_toJson (e : ScheduledMessageHistoryEntity) : fromJson e.toJson = some e := by
  cases e
  simp [fromJson, toJson]

end ScheduledMessageHistoryEntity

structure ExportLogEntity where
  id : Text
  groupId : Text
  actorUserId : Text
  actorDisplayName : Text
  eventType : Text
  timestamp : ℤ
  messageCount : ℤ
  firstMsgTs : Option ℤ := none
  lastMsgTs : Option ℤ := none
deriving DecidableEq

namespace ExportLogEntity

def toJson (e : ExportLogEntity) : Fields :=
  [("id", .str e.id), ("groupId", .str e.groupId), ("actorUserId", .str e.actorUserId),
   ("actorDisplayName", .str e.actorDisplayName), ("eventType", .str e.eventType), ("timestamp", .int e.timestamp),
   ("messageCount", .int e.messageCount), ("firstMsgTs", orNull .int e.firstMsgTs),
   ("lastMsgTs", orNull .int e.lastMsgTs)]

def fromJson (json : Fields) : Option ExportLogEntity := do
  return {
    id := (← asString? (get json "id")).getD []
    groupId := (← asString? (get json "groupId")).getD []
    actorUserId := (← asString? (get json "actorUserId")).getD []
    actorDisplayName := (← asString? (get json "actorDisplayName")).getD []
    eventType := (← asString? (get json "eventType")).getD []
    timestamp := (← toInt? (get json "timestamp")).getD 0
    messageCount := (← toInt? (get json "messageCount")).getD 0
    firstMsgTs := ← toInt? (get json "firstMsgTs")
    lastMsgTs := ← toInt? (get json "lastMsgTs") }

@[simp] theorem fromJson_toJson (e : ExportLogEntity) : fromJson e.toJson = some e := by
  cases e
  simp [fromJson, toJson]

end ExportLogEntity

structure PendingTimerUpdateEntity where
  id : Text
  conversationId : Text
  targetUserId : Text
  duration : ℤ
  createdAt : ℤ
deriving DecidableEq

namespace PendingTimerUpdateEntity

def toJson (e : PendingTimerUpdateEntity) : Fields :=
  [("id", .str e.id), ("conversationId", .str e.conversationId), ("targetUserId", .str e.targetUserId),
   ("duration", .int e.duration), ("createdAt", .int e.createdAt)]

def fromJson (now : ℤ) (json : Fields) : Option PendingTimerUpdateEntity := do
  return {
    id := (← asString? (get json "id")).getD []
    conversationId := (← asString? (get json "conversationId")).getD []
    targetUserId := (← asString? (get json "targetUserId")).getD []
    duration := (← toInt? (get json "duration")).getD 0
    createdAt := (← toInt? (get json "createdAt")).getD now }

@[simp] theorem fromJson_toJson (now : ℤ) (e : PendingTimerUpdateEntity) : fromJson now e.toJson = some e := by
  cases e
  simp [fromJson, toJson]

end PendingTimerUpdateEntity

/-! ### Keys -/

/-- The characters that stand for `+` and `/` in addresses. -/
def urlSafe (c : Char) : Char := if c = '+' then '-' else if c = '/' then '_' else c

def standard (c : Char) : Char := if c = '-' then '+' else if c = '_' then '/' else c

def base64Encode (bytes : List UInt8) : Text := (Base64Url.encode bytes).map standard

def base64Decode (t : Text) : Option (List UInt8) :=
  if t.length % 4 = 0 then Base64Url.decode Base64Url.digit true (t.map urlSafe) else none

def byte : Json → Option UInt8
  | .int n => if 0 ≤ n ∧ n < 256 then some (UInt8.ofNat n.toNat) else none
  | _ => none

def isInt : Json → Bool
  | .int _ => true
  | _ => false

/-- `_bytes`.  A key consists of bytes here; a list with another int, which the source would keep and could not write
again, does not load. -/
def bytes (raw : Json) : Option (List UInt8) :=
  match raw with
  | .arr items => (items.filter isInt).mapM byte
  | .str t => if t = [] then some [] else base64Decode t
  | _ => some []

def integers (raw : Json) : Option (List ℤ) :=
  match raw with
  | .null => some []
  | .arr items => items.mapM toInt
  | _ => none

@[simp] theorem integers_ints (l : List ℤ) : integers (.arr (l.map .int)) = some l :=
  Json.mapM_map (g := toInt) (fun _ => rfl) l

theorem urlSafe_standard : ∀ {c : Char}, c ∈ '=' :: Base64Url.alphabet → urlSafe (standard c) = c := by
  have hall : ('=' :: Base64Url.alphabet).all (fun c => decide (urlSafe (standard c) = c)) = true := by decide +kernel
  intro c h
  exact of_decide_eq_true (List.all_eq_true.1 hall c h)

theorem mem_encode {l : List UInt8} {c : Char} (h : c ∈ Base64Url.encode l) : c ∈ '=' :: Base64Url.alphabet := by
  rcases List.mem_append.1 h with h | h
  · obtain ⟨n, -, rfl⟩ := List.mem_map.1 h
    exact List.mem_cons_of_mem _ (Base64Url.character_mem n)
  · rw [List.eq_of_mem_replicate h]
    exact List.mem_cons_self

@[simp] theorem bytes_base64Encode (l : List UInt8) : bytes (.str (base64Encode l)) = some l := by
  have hlength : (base64Encode l).length % 4 = 0 := by
    rw [base64Encode, List.length_map]
    exact Base64Url.length_encode_mod l
  have hurl : (base64Encode l).map urlSafe = Base64Url.encode l := by
    have hid : (Base64Url.encode l).map (urlSafe ∘ standard) = (Base64Url.encode l).map id :=
      List.map_congr_left fun c hc => urlSafe_standard (mem_encode hc)
    rw [base64Encode, List.map_map, hid, List.map_id]
  have hread : base64Decode (base64Encode l) = some l := by
    rw [base64Decode, if_pos hlength, hurl]
    exact Base64Url.decode_encode_padded (fun n hn => Base64Url.digit_character hn) true l
  have hbytes : bytes (.str (base64Encode l)) =
      if base64Encode l = [] then some [] else base64Decode (base64Encode l) := rfl
  rw [hbytes]
  split
  · rename_i hnil
    rw [hnil] at hread
    exact hread
  · exact hread

structure IdentityEntity where
  addressName : Text
  identityKey : List UInt8
  trustLevel : TrustLevel
deriving DecidableEq

namespace IdentityEntity

def toJson (e : IdentityEntity) : Fields :=
  [("addressName", .str e.addressName), ("identityKey", .str (base64Encode e.identityKey)),
   ("trustLevel", .str e.trustLevel.name)]

def fromJson (json : Fields) : Option IdentityEntity := do
  return {
    addressName := (← asString? (get json "addressName")).getD []
    identityKey := ← bytes (get json "identityKey")
    trustLevel := enumByName TrustLevel.values TrustLevel.name (get json "trustLevel") .untrusted }

@[simp] theorem fromJson_toJson (e : IdentityEntity) : fromJson e.toJson = some e := by
  cases e
  simp [fromJson, toJson]

end IdentityEntity

structure PreKeyEntity where
  id : Int64
  record : List UInt8
deriving DecidableEq

namespace PreKeyEntity

def toJson (e : PreKeyEntity) : Fields :=
  [("id", .int e.id.toInt), ("record", .str (base64Encode e.record))]

def fromJson (json : Fields) : Option PreKeyEntity := do
  return {
    id := Int64.ofInt ((← toInt? (get json "id")).getD 0)
    record := ← bytes (get json "record") }

@[simp] theorem fromJson_toJson (e : PreKeyEntity) : fromJson e.toJson = some e := by
  cases e
  simp [fromJson, toJson]

end PreKeyEntity

structure SignedPreKeyEntity where
  id : Int64
  record : List UInt8
  createdAt : ℤ
deriving DecidableEq

namespace SignedPreKeyEntity

def toJson (e : SignedPreKeyEntity) : Fields :=
  [("id", .int e.id.toInt), ("record", .str (base64Encode e.record)), ("createdAt", .int e.createdAt)]

def fromJson (json : Fields) : Option SignedPreKeyEntity := do
  return {
    id := Int64.ofInt ((← toInt? (get json "id")).getD 0)
    record := ← bytes (get json "record")
    createdAt := (← toInt? (get json "createdAt")).getD 0 }

@[simp] theorem fromJson_toJson (e : SignedPreKeyEntity) : fromJson e.toJson = some e := by
  cases e
  simp [fromJson, toJson]

end SignedPreKeyEntity

structure VodozemacAccountEntity where
  pickle : Text
  fallbackPublishedAt : Option ℤ := none
deriving DecidableEq

namespace VodozemacAccountEntity

def toJson (e : VodozemacAccountEntity) : Fields :=
  [("pickle", .str e.pickle)] ++
  unlessNull "fallbackPublishedAt" .int e.fallbackPublishedAt ++
  []

def fromJson (json : Fields) : Option VodozemacAccountEntity := do
  return {
    pickle := (← asString? (get json "pickle")).getD []
    fallbackPublishedAt := ← toInt? (get json "fallbackPublishedAt") }

@[simp] theorem fromJson_toJson (e : VodozemacAccountEntity) : fromJson e.toJson = some e := by
  cases e
  simp [fromJson, toJson]

end VodozemacAccountEntity

structure VodozemacSessionEntity where
  peerId : Text
  sessionId : Text
  pickle : Text
  lastUsedAt : ℤ
deriving DecidableEq

namespace VodozemacSessionEntity

def toJson (e : VodozemacSessionEntity) : Fields :=
  [("peerId", .str e.peerId), ("sessionId", .str e.sessionId), ("pickle", .str e.pickle),
   ("lastUsedAt", .int e.lastUsedAt)]

def fromJson (json : Fields) : Option VodozemacSessionEntity := do
  return {
    peerId := (← asString? (get json "peerId")).getD []
    sessionId := (← asString? (get json "sessionId")).getD []
    pickle := (← asString? (get json "pickle")).getD []
    lastUsedAt := (← toInt? (get json "lastUsedAt")).getD 0 }

@[simp] theorem fromJson_toJson (e : VodozemacSessionEntity) : fromJson e.toJson = some e := by
  cases e
  simp [fromJson, toJson]

end VodozemacSessionEntity

structure VodozemacGroupSessionEntity where
  groupId : Text
  sessionId : Text
  pickle : Text
deriving DecidableEq

namespace VodozemacGroupSessionEntity

def toJson (e : VodozemacGroupSessionEntity) : Fields :=
  [("groupId", .str e.groupId), ("sessionId", .str e.sessionId), ("pickle", .str e.pickle)]

def fromJson (json : Fields) : Option VodozemacGroupSessionEntity := do
  return {
    groupId := (← asString? (get json "groupId")).getD []
    sessionId := (← asString? (get json "sessionId")).getD []
    pickle := (← asString? (get json "pickle")).getD [] }

@[simp] theorem fromJson_toJson (e : VodozemacGroupSessionEntity) : fromJson e.toJson = some e := by
  cases e
  simp [fromJson, toJson]

end VodozemacGroupSessionEntity

structure VodozemacInboundGroupSessionEntity where
  groupId : Text
  senderId : Text
  sessionId : Text
  pickle : Text
  highestMessageIndex : ℤ
  seenMessageIndexes : List ℤ := []
deriving DecidableEq

namespace VodozemacInboundGroupSessionEntity

def toJson (e : VodozemacInboundGroupSessionEntity) : Fields :=
  [("groupId", .str e.groupId), ("senderId", .str e.senderId), ("sessionId", .str e.sessionId),
   ("pickle", .str e.pickle), ("highestMessageIndex", .int e.highestMessageIndex),
   ("seenMessageIndexes", .arr (e.seenMessageIndexes.map .int))]

def fromJson (json : Fields) : Option VodozemacInboundGroupSessionEntity := do
  return {
    groupId := (← asString? (get json "groupId")).getD []
    senderId := (← asString? (get json "senderId")).getD []
    sessionId := (← asString? (get json "sessionId")).getD []
    pickle := (← asString? (get json "pickle")).getD []
    highestMessageIndex := (← toInt? (get json "highestMessageIndex")).getD (-1)
    seenMessageIndexes := ← integers (get json "seenMessageIndexes") }

@[simp] theorem fromJson_toJson (e : VodozemacInboundGroupSessionEntity) : fromJson e.toJson = some e := by
  cases e
  simp [fromJson, toJson]

end VodozemacInboundGroupSessionEntity

structure SessionEntity where
  id : Text
  record : List UInt8
deriving DecidableEq

namespace SessionEntity

def toJson (e : SessionEntity) : Fields :=
  [("id", .str e.id), ("record", .str (base64Encode e.record))]

def fromJson (json : Fields) : Option SessionEntity := do
  return {
    id := (← asString? (get json "id")).getD []
    record := ← bytes (get json "record") }

@[simp] theorem fromJson_toJson (e : SessionEntity) : fromJson e.toJson = some e := by
  cases e
  simp [fromJson, toJson]

end SessionEntity

structure SenderKeyEntity where
  groupId : Text
  senderId : Text
  deviceId : ℤ
  record : List UInt8
  updatedAt : ℤ
deriving DecidableEq

namespace SenderKeyEntity

def toJson (e : SenderKeyEntity) : Fields :=
  [("groupId", .str e.groupId), ("senderId", .str e.senderId), ("deviceId", .int e.deviceId),
   ("record", .str (base64Encode e.record)), ("updatedAt", .int e.updatedAt)]

def fromJson (json : Fields) : Option SenderKeyEntity := do
  return {
    groupId := (← asString? (get json "groupId")).getD []
    senderId := (← asString? (get json "senderId")).getD []
    deviceId := (← toInt? (get json "deviceId")).getD 0
    record := ← bytes (get json "record")
    updatedAt := (← toInt? (get json "updatedAt")).getD 0 }

@[simp] theorem fromJson_toJson (e : SenderKeyEntity) : fromJson e.toJson = some e := by
  cases e
  simp [fromJson, toJson]

end SenderKeyEntity

@[simp] theorem getD_unlessZero (n : ℤ) : (if n = 0 then none else some n).getD 0 = n := by
  by_cases h : n = 0
  · simp [h]
  · simp [h]

structure PendingSignalEntity where
  id : Text
  encodedSignal : Text
  createdAt : ℤ
  attempts : ℤ := 0
  messageId : Option Text := none
  recipientId : Option Text := none
  retainUntilReceipt : Bool := false
  sendCount : ℤ := 0
  lastSentAt : Option ℤ := none
deriving DecidableEq

namespace PendingSignalEntity

def toJson (e : PendingSignalEntity) : Fields :=
  [("id", .str e.id), ("encodedSignal", .str e.encodedSignal), ("createdAt", .int e.createdAt),
   ("attempts", .int e.attempts)] ++
  unlessNull "messageId" .str e.messageId ++
  unlessNull "recipientId" .str e.recipientId ++
  [("retainUntilReceipt", .bool e.retainUntilReceipt)] ++
  unlessNull "sendCount" .int (if e.sendCount = 0 then none else some e.sendCount) ++
  unlessNull "lastSentAt" .int e.lastSentAt ++
  []

def fromJson (json : Fields) : Option PendingSignalEntity := do
  return {
    id := (← asString? (get json "id")).getD []
    encodedSignal := (← asString? (get json "encodedSignal")).getD []
    createdAt := (← toInt? (get json "createdAt")).getD 0
    attempts := (← toInt? (get json "attempts")).getD 0
    messageId := ← asString? (get json "messageId")
    recipientId := ← asString? (get json "recipientId")
    retainUntilReceipt := (← asBool? (get json "retainUntilReceipt")).getD false
    sendCount := (← toInt? (get json "sendCount")).getD 0
    lastSentAt := ← toInt? (get json "lastSentAt") }

@[simp] theorem fromJson_toJson (e : PendingSignalEntity) : fromJson e.toJson = some e := by
  cases e
  simp [fromJson, toJson]

end PendingSignalEntity

end Storage
end SecureChat
