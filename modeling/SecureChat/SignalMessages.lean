import SecureChat.SignalFields
/-!
# SignalMessages — the messages on the wire

Each message has a type, two ids and a time, and fields of its own.  It is written as a map literal and read field by
field; the type says which reader reads a map, and what has another type is kept as it is.
-/
namespace SecureChat
namespace Signals

open PlaintextPadding (Units)
open JsonText (Value Entries)

structure SignalBase where
  senderId : Units
  recipientId : Units
  timestamp : DateTime

namespace SignalBase

def fromJson (sender recipient : String) (json : Entries) : Except Failure SignalBase :=
  .mk <$> text (get json "senderId") sender <*> text (get json "recipientId") recipient <*> dt (get json "timestamp")

/-- `_base` -/
def fields (type : String) (m : SignalBase) : Fields :=
  [("type", .text (key type)), ("senderId", .text m.senderId), ("recipientId", .text m.recipientId),
    ("timestamp", .date m.timestamp)]

end SignalBase

def capabilitiesOf : Value → List Units
  | .arr l => ((textsOf l).filter fun u => decide (u ≠ [] ∧ u.length ≤ 32)).take 8
  | _ => []

structure SharedPhoneSignal extends SignalBase where
  phoneNumber : Units

namespace SharedPhoneSignal

def fromJson (json : Entries) : Except Failure SharedPhoneSignal :=
  .mk <$> SignalBase.fromJson "" "" json <*> text (get json "phoneNumber") ""

def fields (m : SharedPhoneSignal) : Fields :=
  m.toSignalBase.fields "shared_phone" ++ [("phoneNumber", Content.text m.phoneNumber)]

end SharedPhoneSignal

structure SharedProfileNameSignal extends SignalBase where
  displayName : Units

namespace SharedProfileNameSignal

def fromJson (json : Entries) : Except Failure SharedProfileNameSignal :=
  .mk <$> SignalBase.fromJson "" "" json <*> text (get json "displayName") ""

def fields (m : SharedProfileNameSignal) : Fields :=
  m.toSignalBase.fields "shared_profile_name" ++ [("displayName", Content.text m.displayName)]

end SharedProfileNameSignal

structure ViewOnceOpenedSignal extends SignalBase where
  messageId : Units

namespace ViewOnceOpenedSignal

def fromJson (json : Entries) : Except Failure ViewOnceOpenedSignal :=
  .mk <$> SignalBase.fromJson "" "" json <*> text (get json "messageId") ""

def fields (m : ViewOnceOpenedSignal) : Fields :=
  m.toSignalBase.fields "view_once_opened" ++ [("messageId", Content.text m.messageId)]

end ViewOnceOpenedSignal

structure SdpOfferSignal extends SignalBase where
  sdp : Units
  callType : Units
  e2ee : Option Units

namespace SdpOfferSignal

def fromJson (json : Entries) : Except Failure SdpOfferSignal :=
  .mk <$> SignalBase.fromJson "" "" json <*> text (get json "sdp") "" <*> text (get json "callType") "VOICE" <*>
    asString? (get json "e2ee")

def fields (m : SdpOfferSignal) : Fields :=
  m.toSignalBase.fields "sdp_offer" ++ [("sdp", Content.text m.sdp), ("callType", Content.text m.callType)] ++
    unlessNull "e2ee" Content.text m.e2ee

end SdpOfferSignal

structure SdpAnswerSignal extends SignalBase where
  sdp : Units
  e2ee : Option Units

namespace SdpAnswerSignal

def fromJson (json : Entries) : Except Failure SdpAnswerSignal :=
  .mk <$> SignalBase.fromJson "" "" json <*> text (get json "sdp") "" <*> asString? (get json "e2ee")

def fields (m : SdpAnswerSignal) : Fields :=
  m.toSignalBase.fields "sdp_answer" ++ [("sdp", Content.text m.sdp)] ++ unlessNull "e2ee" Content.text m.e2ee

end SdpAnswerSignal

structure IceCandidateSignal extends SignalBase where
  candidate : Units
  sdpMid : Option Units
  sdpMLineIndex : Int64
  e2ee : Option Units

namespace IceCandidateSignal

def fromJson (json : Entries) : Except Failure IceCandidateSignal :=
  .mk <$> SignalBase.fromJson "" "" json <*> text (get json "candidate") "" <*> asString? (get json "sdpMid") <*>
    integer (get json "sdpMLineIndex") 0 <*> asString? (get json "e2ee")

def fields (m : IceCandidateSignal) : Fields :=
  m.toSignalBase.fields "ice_candidate" ++
    [("candidate", Content.text m.candidate), ("sdpMid", Content.orNull m.sdpMid),
      ("sdpMLineIndex", Content.number m.sdpMLineIndex)] ++ unlessNull "e2ee" Content.text m.e2ee

end IceCandidateSignal

structure EncryptedSignalMessage extends SignalBase where
  envelope : Units
  deliveryId : Option Units
  deliveryToken : Option Units

namespace EncryptedSignalMessage

def fromJson (json : Entries) : Except Failure EncryptedSignalMessage :=
  .mk <$> SignalBase.fromJson "" "" json <*> text (get json "envelope") "" <*> asString? (get json "deliveryId") <*>
    asString? (get json "deliveryToken")

def fields (m : EncryptedSignalMessage) : Fields :=
  m.toSignalBase.fields "encrypted_message" ++ [("envelope", Content.text m.envelope)] ++
    unlessNull "deliveryId" Content.text m.deliveryId ++ unlessNull "deliveryToken" Content.text m.deliveryToken

end EncryptedSignalMessage

structure DeliveryTransportAckSignal extends SignalBase where
  deliveryToken : Units

namespace DeliveryTransportAckSignal

def fromJson (json : Entries) : Except Failure DeliveryTransportAckSignal :=
  .mk <$> SignalBase.fromJson "" "server" json <*> text (get json "deliveryToken") ""

def fields (m : DeliveryTransportAckSignal) : Fields :=
  m.toSignalBase.fields "delivery_transport_ack" ++ [("deliveryToken", Content.text m.deliveryToken)]

end DeliveryTransportAckSignal

structure GroupMessageFanoutSignal where
  senderId : Units
  timestamp : DateTime
  groupId : Units
  recipientPayloads : Table Units Units

namespace GroupMessageFanoutSignal

def toSignalBase (m : GroupMessageFanoutSignal) : SignalBase := ⟨m.senderId, key "server", m.timestamp⟩

def fromJson (json : Entries) : Except Failure GroupMessageFanoutSignal :=
  .mk <$> text (get json "senderId") "" <*> dt (get json "timestamp") <*> text (get json "groupId") "" <*>
    .ok (stringMap (get json "recipientPayloads"))

def fields (m : GroupMessageFanoutSignal) : Fields :=
  m.toSignalBase.fields "group_message_fanout" ++
    [("groupId", Content.text m.groupId), ("recipientPayloads", Content.table m.recipientPayloads)]

end GroupMessageFanoutSignal

structure FileTransferSignal extends SignalBase where
  fileName : Units
  mimeType : Units
  fileSize : Int64
  data : Units
  groupId : Option Units
  groupName : Option Units
  transferId : Option Units
  chunkIndex : Int64
  totalChunks : Int64
  caption : Option Units
  isViewOnce : Bool
  originalMessageId : Option Units
  absoluteExpiresAt : Option DateTime
  encryption : Option Units

namespace FileTransferSignal

def fromJson (json : Entries) : Except Failure FileTransferSignal :=
  .mk <$> SignalBase.fromJson "" "" json <*> text (get json "fileName") "" <*>
    text (get json "mimeType") "application/octet-stream" <*> integer (get json "fileSize") 0 <*>
    text (get json "data") "" <*> asString? (get json "groupId") <*> asString? (get json "groupName") <*>
    asString? (get json "transferId") <*> integer (get json "chunkIndex") 0 <*>
    integer (get json "totalChunks") 1 <*> asString? (get json "caption") <*> flag (get json "isViewOnce") <*>
    asString? (get json "originalMessageId") <*> dtUnlessNull (get json "absoluteExpiresAt") <*>
    asString? (get json "encryption")

def fields (m : FileTransferSignal) : Fields :=
  m.toSignalBase.fields "file_transfer" ++
    [("fileName", Content.text m.fileName), ("mimeType", Content.text m.mimeType),
      ("fileSize", Content.number m.fileSize), ("data", Content.text m.data)] ++
    unlessNull "groupId" Content.text m.groupId ++ unlessNull "groupName" Content.text m.groupName ++
    unlessNull "transferId" Content.text m.transferId ++
    [("chunkIndex", Content.number m.chunkIndex), ("totalChunks", Content.number m.totalChunks)] ++
    unlessNull "caption" Content.text m.caption ++ [("isViewOnce", Content.flag m.isViewOnce)] ++
    unlessNull "originalMessageId" Content.text m.originalMessageId ++
    unlessNull "absoluteExpiresAt" Content.date m.absoluteExpiresAt ++
    unlessNull "encryption" Content.text m.encryption

end FileTransferSignal

structure GroupNotificationSignal extends SignalBase where
  groupId : Units
  groupName : Units
  action : Units
  groupMembers : List Units
  targetMemberId : Option Units
  description : Option Units
  photo : Option Units

namespace GroupNotificationSignal

def fromJson (json : Entries) : Except Failure GroupNotificationSignal :=
  .mk <$> SignalBase.fromJson "" "" json <*> text (get json "groupId") "" <*> text (get json "groupName") "" <*>
    text (get json "action") "" <*> .ok (stringList (get json "groupMembers")) <*>
    asString? (get json "targetMemberId") <*> asString? (get json "description") <*> asString? (get json "photo")

def fields (m : GroupNotificationSignal) : Fields :=
  m.toSignalBase.fields "group_notification" ++
    [("groupId", Content.text m.groupId), ("groupName", Content.text m.groupName), ("action", Content.text m.action),
      ("groupMembers", Content.texts m.groupMembers)] ++ unlessNull "targetMemberId" Content.text m.targetMemberId ++
    unlessNull "description" Content.text m.description ++ unlessNull "photo" Content.text m.photo

end GroupNotificationSignal

structure AdminEncryptedLogSignal extends SignalBase where
  groupId : Units
  eventType : Units
  adminPayloads : Table Units Units

namespace AdminEncryptedLogSignal

def fromJson (json : Entries) : Except Failure AdminEncryptedLogSignal :=
  .mk <$> SignalBase.fromJson "" "server" json <*> text (get json "groupId") "" <*>
    text (get json "eventType") "" <*> .ok (stringMap (get json "adminPayloads"))

def fields (m : AdminEncryptedLogSignal) : Fields :=
  m.toSignalBase.fields "admin_encrypted_log" ++
    [("groupId", Content.text m.groupId), ("eventType", Content.text m.eventType),
      ("adminPayloads", Content.table m.adminPayloads)]

end AdminEncryptedLogSignal

structure DeliveryReceiptSignal extends SignalBase where
  messageId : Units
  status : Units
  capabilities : List Units

namespace DeliveryReceiptSignal

def fromJson (json : Entries) : Except Failure DeliveryReceiptSignal :=
  .mk <$> SignalBase.fromJson "" "" json <*> text (get json "messageId") "" <*> text (get json "status") "" <*>
    .ok (capabilitiesOf (get json "capabilities"))

def fields (m : DeliveryReceiptSignal) : Fields :=
  m.toSignalBase.fields "delivery_receipt" ++
    [("messageId", Content.text m.messageId), ("status", Content.text m.status)] ++
    ifTrue (decide (m.capabilities ≠ [])) "capabilities" (Content.texts m.capabilities)

end DeliveryReceiptSignal

structure MessageDeleteSignal extends SignalBase where
  messageId : Units

namespace MessageDeleteSignal

def fromJson (json : Entries) : Except Failure MessageDeleteSignal :=
  .mk <$> SignalBase.fromJson "" "" json <*> text (get json "messageId") ""

def fields (m : MessageDeleteSignal) : Fields :=
  m.toSignalBase.fields "message_delete" ++ [("messageId", Content.text m.messageId)]

end MessageDeleteSignal

structure MessageEditSignal extends SignalBase where
  messageId : Units
  newContent : Units

namespace MessageEditSignal

def fromJson (json : Entries) : Except Failure MessageEditSignal :=
  .mk <$> SignalBase.fromJson "" "" json <*> text (get json "messageId") "" <*> text (get json "newContent") ""

def fields (m : MessageEditSignal) : Fields :=
  m.toSignalBase.fields "message_edit" ++
    [("messageId", Content.text m.messageId), ("newContent", Content.text m.newContent)]

end MessageEditSignal

structure MessageReactionSignal extends SignalBase where
  messageId : Units
  emoji : Units
  remove : Bool

namespace MessageReactionSignal

def fromJson (json : Entries) : Except Failure MessageReactionSignal :=
  .mk <$> SignalBase.fromJson "" "" json <*> text (get json "messageId") "" <*> text (get json "emoji") "" <*>
    flag (get json "remove")

def fields (m : MessageReactionSignal) : Fields :=
  m.toSignalBase.fields "message_reaction" ++
    [("messageId", Content.text m.messageId), ("emoji", Content.text m.emoji), ("remove", Content.flag m.remove)]

end MessageReactionSignal

structure MessagePinSignal extends SignalBase where
  messageId : Units
  isPinned : Bool
  pinnedAt : Option DateTime
  groupId : Option Units

namespace MessagePinSignal

def fromJson (json : Entries) : Except Failure MessagePinSignal :=
  .mk <$> SignalBase.fromJson "" "" json <*> text (get json "messageId") "" <*> flag (get json "isPinned") <*>
    dtUnlessNull (get json "pinnedAt") <*> asString? (get json "groupId")

def fields (m : MessagePinSignal) : Fields :=
  m.toSignalBase.fields "message_pin" ++
    [("messageId", Content.text m.messageId), ("isPinned", Content.flag m.isPinned)] ++
    unlessNull "pinnedAt" Content.date m.pinnedAt ++ unlessNull "groupId" Content.text m.groupId

end MessagePinSignal

structure TypingIndicatorSignal extends SignalBase where
  isTyping : Bool

namespace TypingIndicatorSignal

def fromJson (json : Entries) : Except Failure TypingIndicatorSignal :=
  .mk <$> SignalBase.fromJson "" "" json <*> flag (get json "isTyping")

def fields (m : TypingIndicatorSignal) : Fields :=
  m.toSignalBase.fields "typing_indicator" ++ [("isTyping", Content.flag m.isTyping)]

end TypingIndicatorSignal

structure PresenceUpdateSignal extends SignalBase where
  isOnline : Bool
  lastSeen : Option DateTime
  hideLastSeen : Bool

namespace PresenceUpdateSignal

def fromJson (json : Entries) : Except Failure PresenceUpdateSignal :=
  .mk <$> SignalBase.fromJson "" "" json <*> flag (get json "isOnline") <*> dtOrNull (get json "lastSeen") <*>
    flag (get json "hideLastSeen")

def fields (m : PresenceUpdateSignal) : Fields :=
  m.toSignalBase.fields "presence_update" ++
    [("isOnline", Content.flag m.isOnline), ("lastSeen", Content.dateOrZero m.lastSeen),
      ("hideLastSeen", Content.flag m.hideLastSeen)]

end PresenceUpdateSignal

structure PresenceSubscribeSignal extends SignalBase

namespace PresenceSubscribeSignal

def fromJson (json : Entries) : Except Failure PresenceSubscribeSignal := .mk <$> SignalBase.fromJson "" "" json

def fields (m : PresenceSubscribeSignal) : Fields := m.toSignalBase.fields "presence_subscribe"

end PresenceSubscribeSignal

structure PresenceUnsubscribeSignal extends SignalBase

namespace PresenceUnsubscribeSignal

def fromJson (json : Entries) : Except Failure PresenceUnsubscribeSignal := .mk <$> SignalBase.fromJson "" "" json

def fields (m : PresenceUnsubscribeSignal) : Fields := m.toSignalBase.fields "presence_unsubscribe"

end PresenceUnsubscribeSignal

structure DisappearingTimerSignal extends SignalBase where
  durationMs : Int64
  conversationId : Units

namespace DisappearingTimerSignal

def fromJson (json : Entries) : Except Failure DisappearingTimerSignal :=
  .mk <$> SignalBase.fromJson "" "" json <*> integer (get json "duration") 0 <*> text (get json "conversationId") ""

def fields (m : DisappearingTimerSignal) : Fields :=
  m.toSignalBase.fields "disappearing_timer" ++
    [("duration", Content.number m.durationMs), ("conversationId", Content.text m.conversationId)]

end DisappearingTimerSignal

structure CallControlSignal extends SignalBase where
  action : Units
  messageId : Option Units
  groupId : Option Units

namespace CallControlSignal

def fromJson (json : Entries) : Except Failure CallControlSignal :=
  .mk <$> SignalBase.fromJson "" "" json <*> text (get json "action") "" <*> asString? (get json "messageId") <*>
    asString? (get json "groupId")

def fields (m : CallControlSignal) : Fields :=
  m.toSignalBase.fields "call_control" ++ [("action", Content.text m.action)] ++
    unlessNull "messageId" Content.text m.messageId ++ unlessNull "groupId" Content.text m.groupId

end CallControlSignal

structure CallControlAckSignal extends SignalBase where
  messageId : Units
  action : Units

namespace CallControlAckSignal

def fromJson (json : Entries) : Except Failure CallControlAckSignal :=
  .mk <$> SignalBase.fromJson "server" "" json <*> text (get json "messageId") "" <*> text (get json "action") ""

def fields (m : CallControlAckSignal) : Fields :=
  m.toSignalBase.fields "call_control_ack" ++
    [("messageId", Content.text m.messageId), ("action", Content.text m.action)]

end CallControlAckSignal

structure SessionResetRequestSignal extends SignalBase where
  reason : Units

namespace SessionResetRequestSignal

def fromJson (json : Entries) : Except Failure SessionResetRequestSignal :=
  .mk <$> SignalBase.fromJson "" "" json <*> text (get json "reason") ""

def fields (m : SessionResetRequestSignal) : Fields :=
  m.toSignalBase.fields "session_reset_request" ++ [("reason", Content.text m.reason)]

end SessionResetRequestSignal

structure ServerShutdownSignal extends SignalBase where
  message : Units

namespace ServerShutdownSignal

def fromJson (json : Entries) : Except Failure ServerShutdownSignal :=
  .mk <$> SignalBase.fromJson "server" "broadcast" json <*> text (get json "message") ""

def fields (m : ServerShutdownSignal) : Fields :=
  m.toSignalBase.fields "server_shutdown" ++ [("message", Content.text m.message)]

end ServerShutdownSignal

structure GroupCallInviteSignal extends SignalBase where
  groupId : Units
  callType : Units
  callId : Units
  participants : List Units
  mediaE2ee : Bool

namespace GroupCallInviteSignal

def fromJson (json : Entries) : Except Failure GroupCallInviteSignal :=
  .mk <$> SignalBase.fromJson "" "" json <*> text (get json "groupId") "" <*> text (get json "callType") "VOICE" <*>
    text (get json "callId") "" <*> .ok (stringList (get json "participants")) <*> flag (get json "mediaE2ee")

def fields (m : GroupCallInviteSignal) : Fields :=
  m.toSignalBase.fields "group_call_invite" ++
    [("groupId", Content.text m.groupId), ("callType", Content.text m.callType), ("callId", Content.text m.callId),
      ("participants", Content.texts m.participants), ("mediaE2ee", Content.flag m.mediaE2ee)]

end GroupCallInviteSignal

structure GroupCallMemberJoinedSignal extends SignalBase where
  groupCallId : Units
  joinedMemberId : Units

namespace GroupCallMemberJoinedSignal

def fromJson (json : Entries) : Except Failure GroupCallMemberJoinedSignal :=
  .mk <$> SignalBase.fromJson "" "" json <*> text (get json "groupCallId") "" <*>
    text (get json "joinedMemberId") ""

def fields (m : GroupCallMemberJoinedSignal) : Fields :=
  m.toSignalBase.fields "group_call_member_joined" ++
    [("groupCallId", Content.text m.groupCallId), ("joinedMemberId", Content.text m.joinedMemberId)]

end GroupCallMemberJoinedSignal

structure GroupCallMemberLeftSignal extends SignalBase where
  groupCallId : Units
  groupId : Units
  leftMemberId : Units

namespace GroupCallMemberLeftSignal

def fromJson (json : Entries) : Except Failure GroupCallMemberLeftSignal :=
  .mk <$> SignalBase.fromJson "server" "" json <*> text (get json "groupCallId") "" <*>
    text (get json "groupId") "" <*> text (get json "leftMemberId") ""

def fields (m : GroupCallMemberLeftSignal) : Fields :=
  m.toSignalBase.fields "group_call_member_left" ++
    [("groupCallId", Content.text m.groupCallId), ("groupId", Content.text m.groupId),
      ("leftMemberId", Content.text m.leftMemberId)]

end GroupCallMemberLeftSignal

structure GroupCallCoordinatorChangedSignal extends SignalBase where
  groupCallId : Units
  groupId : Units
  newCoordinatorId : Units
  previousCoordinatorId : Units

namespace GroupCallCoordinatorChangedSignal

def fromJson (json : Entries) : Except Failure GroupCallCoordinatorChangedSignal :=
  .mk <$> SignalBase.fromJson "server" "" json <*> text (get json "groupCallId") "" <*>
    text (get json "groupId") "" <*> text (get json "newCoordinatorId") "" <*>
    text (get json "previousCoordinatorId") ""

def fields (m : GroupCallCoordinatorChangedSignal) : Fields :=
  m.toSignalBase.fields "group_call_coordinator_changed" ++
    [("groupCallId", Content.text m.groupCallId), ("groupId", Content.text m.groupId),
      ("newCoordinatorId", Content.text m.newCoordinatorId),
      ("previousCoordinatorId", Content.text m.previousCoordinatorId)]

end GroupCallCoordinatorChangedSignal

structure GroupCallJoinRequestSignal extends SignalBase where
  groupId : Units
  callId : Units
  callType : Units
  mediaE2ee : Bool

namespace GroupCallJoinRequestSignal

def fromJson (json : Entries) : Except Failure GroupCallJoinRequestSignal :=
  .mk <$> SignalBase.fromJson "" "" json <*> text (get json "groupId") "" <*> text (get json "callId") "" <*>
    text (get json "callType") "VOICE" <*> flag (get json "mediaE2ee")

def fields (m : GroupCallJoinRequestSignal) : Fields :=
  m.toSignalBase.fields "group_call_join_request" ++
    [("groupId", Content.text m.groupId), ("callId", Content.text m.callId), ("callType", Content.text m.callType),
      ("mediaE2ee", Content.flag m.mediaE2ee)]

end GroupCallJoinRequestSignal

structure GroupCallErrorSignal extends SignalBase where
  groupId : Units
  callId : Units
  code : Units

namespace GroupCallErrorSignal

def fromJson (json : Entries) : Except Failure GroupCallErrorSignal :=
  .mk <$> SignalBase.fromJson "" "" json <*> text (get json "groupId") "" <*> text (get json "callId") "" <*>
    text (get json "code") ""

def fields (m : GroupCallErrorSignal) : Fields :=
  m.toSignalBase.fields "group_call_error" ++
    [("groupId", Content.text m.groupId), ("callId", Content.text m.callId), ("code", Content.text m.code)]

end GroupCallErrorSignal

structure GroupCallStatusQuerySignal extends SignalBase where
  groupId : Units

namespace GroupCallStatusQuerySignal

def fromJson (json : Entries) : Except Failure GroupCallStatusQuerySignal :=
  .mk <$> SignalBase.fromJson "" "server" json <*> text (get json "groupId") ""

def fields (m : GroupCallStatusQuerySignal) : Fields :=
  m.toSignalBase.fields "group_call_status_query" ++ [("groupId", Content.text m.groupId)]

end GroupCallStatusQuerySignal

structure GroupCallStatusResponseSignal extends SignalBase where
  groupId : Units
  isActive : Bool
  callId : Option Units
  coordinatorId : Option Units
  callType : Option Units
  participants : List Units
  mediaE2ee : Bool

namespace GroupCallStatusResponseSignal

def fromJson (json : Entries) : Except Failure GroupCallStatusResponseSignal :=
  .mk <$> SignalBase.fromJson "server" "" json <*> text (get json "groupId") "" <*> flag (get json "isActive") <*>
    asString? (get json "callId") <*> asString? (get json "coordinatorId") <*> asString? (get json "callType") <*>
    .ok (stringList (get json "participants")) <*> flag (get json "mediaE2ee")

def fields (m : GroupCallStatusResponseSignal) : Fields :=
  m.toSignalBase.fields "group_call_status_response" ++
    [("groupId", Content.text m.groupId), ("isActive", Content.flag m.isActive)] ++
    unlessNull "callId" Content.text m.callId ++ unlessNull "coordinatorId" Content.text m.coordinatorId ++
    unlessNull "callType" Content.text m.callType ++
    [("participants", Content.texts m.participants), ("mediaE2ee", Content.flag m.mediaE2ee)]

end GroupCallStatusResponseSignal

structure UnknownSignalMessage extends SignalBase where
  rawType : Units
  raw : Entries

def UnknownSignalMessage.fromJson (json : Entries) : Except Failure UnknownSignalMessage :=
  .mk <$> SignalBase.fromJson "" "" json <*> text (get json "type") "unknown" <*> .ok json

inductive SignalMessage
  | sharedPhone (m : SharedPhoneSignal)
  | sharedProfileName (m : SharedProfileNameSignal)
  | viewOnceOpened (m : ViewOnceOpenedSignal)
  | sdpOffer (m : SdpOfferSignal)
  | sdpAnswer (m : SdpAnswerSignal)
  | iceCandidate (m : IceCandidateSignal)
  | encryptedMessage (m : EncryptedSignalMessage)
  | deliveryTransportAck (m : DeliveryTransportAckSignal)
  | groupMessageFanout (m : GroupMessageFanoutSignal)
  | fileTransfer (m : FileTransferSignal)
  | groupNotification (m : GroupNotificationSignal)
  | adminEncryptedLog (m : AdminEncryptedLogSignal)
  | deliveryReceipt (m : DeliveryReceiptSignal)
  | messageDelete (m : MessageDeleteSignal)
  | messageEdit (m : MessageEditSignal)
  | messageReaction (m : MessageReactionSignal)
  | messagePin (m : MessagePinSignal)
  | typingIndicator (m : TypingIndicatorSignal)
  | presenceUpdate (m : PresenceUpdateSignal)
  | presenceSubscribe (m : PresenceSubscribeSignal)
  | presenceUnsubscribe (m : PresenceUnsubscribeSignal)
  | disappearingTimer (m : DisappearingTimerSignal)
  | callControl (m : CallControlSignal)
  | callControlAck (m : CallControlAckSignal)
  | sessionResetRequest (m : SessionResetRequestSignal)
  | serverShutdown (m : ServerShutdownSignal)
  | groupCallInvite (m : GroupCallInviteSignal)
  | groupCallMemberJoined (m : GroupCallMemberJoinedSignal)
  | groupCallMemberLeft (m : GroupCallMemberLeftSignal)
  | groupCallCoordinatorChanged (m : GroupCallCoordinatorChangedSignal)
  | groupCallJoinRequest (m : GroupCallJoinRequestSignal)
  | groupCallError (m : GroupCallErrorSignal)
  | groupCallStatusQuery (m : GroupCallStatusQuerySignal)
  | groupCallStatusResponse (m : GroupCallStatusResponseSignal)
  | unknown (m : UnknownSignalMessage)

namespace SignalMessage

def base : SignalMessage → SignalBase
  | .sharedPhone m => m.toSignalBase
  | .sharedProfileName m => m.toSignalBase
  | .viewOnceOpened m => m.toSignalBase
  | .sdpOffer m => m.toSignalBase
  | .sdpAnswer m => m.toSignalBase
  | .iceCandidate m => m.toSignalBase
  | .encryptedMessage m => m.toSignalBase
  | .deliveryTransportAck m => m.toSignalBase
  | .groupMessageFanout m => m.toSignalBase
  | .fileTransfer m => m.toSignalBase
  | .groupNotification m => m.toSignalBase
  | .adminEncryptedLog m => m.toSignalBase
  | .deliveryReceipt m => m.toSignalBase
  | .messageDelete m => m.toSignalBase
  | .messageEdit m => m.toSignalBase
  | .messageReaction m => m.toSignalBase
  | .messagePin m => m.toSignalBase
  | .typingIndicator m => m.toSignalBase
  | .presenceUpdate m => m.toSignalBase
  | .presenceSubscribe m => m.toSignalBase
  | .presenceUnsubscribe m => m.toSignalBase
  | .disappearingTimer m => m.toSignalBase
  | .callControl m => m.toSignalBase
  | .callControlAck m => m.toSignalBase
  | .sessionResetRequest m => m.toSignalBase
  | .serverShutdown m => m.toSignalBase
  | .groupCallInvite m => m.toSignalBase
  | .groupCallMemberJoined m => m.toSignalBase
  | .groupCallMemberLeft m => m.toSignalBase
  | .groupCallCoordinatorChanged m => m.toSignalBase
  | .groupCallJoinRequest m => m.toSignalBase
  | .groupCallError m => m.toSignalBase
  | .groupCallStatusQuery m => m.toSignalBase
  | .groupCallStatusResponse m => m.toSignalBase
  | .unknown m => m.toSignalBase

def type : SignalMessage → Units
  | .sharedPhone _ => key "shared_phone"
  | .sharedProfileName _ => key "shared_profile_name"
  | .viewOnceOpened _ => key "view_once_opened"
  | .sdpOffer _ => key "sdp_offer"
  | .sdpAnswer _ => key "sdp_answer"
  | .iceCandidate _ => key "ice_candidate"
  | .encryptedMessage _ => key "encrypted_message"
  | .deliveryTransportAck _ => key "delivery_transport_ack"
  | .groupMessageFanout _ => key "group_message_fanout"
  | .fileTransfer _ => key "file_transfer"
  | .groupNotification _ => key "group_notification"
  | .adminEncryptedLog _ => key "admin_encrypted_log"
  | .deliveryReceipt _ => key "delivery_receipt"
  | .messageDelete _ => key "message_delete"
  | .messageEdit _ => key "message_edit"
  | .messageReaction _ => key "message_reaction"
  | .messagePin _ => key "message_pin"
  | .typingIndicator _ => key "typing_indicator"
  | .presenceUpdate _ => key "presence_update"
  | .presenceSubscribe _ => key "presence_subscribe"
  | .presenceUnsubscribe _ => key "presence_unsubscribe"
  | .disappearingTimer _ => key "disappearing_timer"
  | .callControl _ => key "call_control"
  | .callControlAck _ => key "call_control_ack"
  | .sessionResetRequest _ => key "session_reset_request"
  | .serverShutdown _ => key "server_shutdown"
  | .groupCallInvite _ => key "group_call_invite"
  | .groupCallMemberJoined _ => key "group_call_member_joined"
  | .groupCallMemberLeft _ => key "group_call_member_left"
  | .groupCallCoordinatorChanged _ => key "group_call_coordinator_changed"
  | .groupCallJoinRequest _ => key "group_call_join_request"
  | .groupCallError _ => key "group_call_error"
  | .groupCallStatusQuery _ => key "group_call_status_query"
  | .groupCallStatusResponse _ => key "group_call_status_response"
  | .unknown m => m.rawType

def fields : SignalMessage → Fields
  | .sharedPhone m => m.fields
  | .sharedProfileName m => m.fields
  | .viewOnceOpened m => m.fields
  | .sdpOffer m => m.fields
  | .sdpAnswer m => m.fields
  | .iceCandidate m => m.fields
  | .encryptedMessage m => m.fields
  | .deliveryTransportAck m => m.fields
  | .groupMessageFanout m => m.fields
  | .fileTransfer m => m.fields
  | .groupNotification m => m.fields
  | .adminEncryptedLog m => m.fields
  | .deliveryReceipt m => m.fields
  | .messageDelete m => m.fields
  | .messageEdit m => m.fields
  | .messageReaction m => m.fields
  | .messagePin m => m.fields
  | .typingIndicator m => m.fields
  | .presenceUpdate m => m.fields
  | .presenceSubscribe m => m.fields
  | .presenceUnsubscribe m => m.fields
  | .disappearingTimer m => m.fields
  | .callControl m => m.fields
  | .callControlAck m => m.fields
  | .sessionResetRequest m => m.fields
  | .serverShutdown m => m.fields
  | .groupCallInvite m => m.fields
  | .groupCallMemberJoined m => m.fields
  | .groupCallMemberLeft m => m.fields
  | .groupCallCoordinatorChanged m => m.fields
  | .groupCallJoinRequest m => m.fields
  | .groupCallError m => m.fields
  | .groupCallStatusQuery m => m.fields
  | .groupCallStatusResponse m => m.fields
  | .unknown _ => []

def toJson : SignalMessage → Entries
  | .unknown m => m.raw
  | m => mapLiteral m.fields

def readers : List (String × (Entries → Except Failure SignalMessage)) := [
  ("sdp_offer", fun json => .sdpOffer <$> SdpOfferSignal.fromJson json),
  ("sdp_answer", fun json => .sdpAnswer <$> SdpAnswerSignal.fromJson json),
  ("ice_candidate", fun json => .iceCandidate <$> IceCandidateSignal.fromJson json),
  ("encrypted_message", fun json => .encryptedMessage <$> EncryptedSignalMessage.fromJson json),
  ("delivery_transport_ack", fun json => .deliveryTransportAck <$> DeliveryTransportAckSignal.fromJson json),
  ("group_message_fanout", fun json => .groupMessageFanout <$> GroupMessageFanoutSignal.fromJson json),
  ("file_transfer", fun json => .fileTransfer <$> FileTransferSignal.fromJson json),
  ("group_notification", fun json => .groupNotification <$> GroupNotificationSignal.fromJson json),
  ("admin_encrypted_log", fun json => .adminEncryptedLog <$> AdminEncryptedLogSignal.fromJson json),
  ("delivery_receipt", fun json => .deliveryReceipt <$> DeliveryReceiptSignal.fromJson json),
  ("message_delete", fun json => .messageDelete <$> MessageDeleteSignal.fromJson json),
  ("message_edit", fun json => .messageEdit <$> MessageEditSignal.fromJson json),
  ("message_reaction", fun json => .messageReaction <$> MessageReactionSignal.fromJson json),
  ("message_pin", fun json => .messagePin <$> MessagePinSignal.fromJson json),
  ("typing_indicator", fun json => .typingIndicator <$> TypingIndicatorSignal.fromJson json),
  ("presence_update", fun json => .presenceUpdate <$> PresenceUpdateSignal.fromJson json),
  ("presence_subscribe", fun json => .presenceSubscribe <$> PresenceSubscribeSignal.fromJson json),
  ("presence_unsubscribe", fun json => .presenceUnsubscribe <$> PresenceUnsubscribeSignal.fromJson json),
  ("disappearing_timer", fun json => .disappearingTimer <$> DisappearingTimerSignal.fromJson json),
  ("shared_phone", fun json => .sharedPhone <$> SharedPhoneSignal.fromJson json),
  ("shared_profile_name", fun json => .sharedProfileName <$> SharedProfileNameSignal.fromJson json),
  ("view_once_opened", fun json => .viewOnceOpened <$> ViewOnceOpenedSignal.fromJson json),
  ("call_control", fun json => .callControl <$> CallControlSignal.fromJson json),
  ("call_control_ack", fun json => .callControlAck <$> CallControlAckSignal.fromJson json),
  ("session_reset_request", fun json => .sessionResetRequest <$> SessionResetRequestSignal.fromJson json),
  ("server_shutdown", fun json => .serverShutdown <$> ServerShutdownSignal.fromJson json),
  ("group_call_invite", fun json => .groupCallInvite <$> GroupCallInviteSignal.fromJson json),
  ("group_call_member_joined", fun json => .groupCallMemberJoined <$> GroupCallMemberJoinedSignal.fromJson json),
  ("group_call_member_left", fun json => .groupCallMemberLeft <$> GroupCallMemberLeftSignal.fromJson json),
  ("group_call_coordinator_changed",
    fun json => .groupCallCoordinatorChanged <$> GroupCallCoordinatorChangedSignal.fromJson json),
  ("group_call_join_request", fun json => .groupCallJoinRequest <$> GroupCallJoinRequestSignal.fromJson json),
  ("group_call_error", fun json => .groupCallError <$> GroupCallErrorSignal.fromJson json),
  ("group_call_status_query", fun json => .groupCallStatusQuery <$> GroupCallStatusQuerySignal.fromJson json),
  ("group_call_status_response",
    fun json => .groupCallStatusResponse <$> GroupCallStatusResponseSignal.fromJson json)]

def fromJson (json : Entries) : Except Failure SignalMessage :=
  (asString? (get json "type")).bind fun type =>
    match readers.find? fun r => decide (type = some (key r.1)) with
    | some r => r.2 json
    | none => .unknown <$> UnknownSignalMessage.fromJson json

def maxEncodedBytes : ℕ := 256 * 1024

def decodeMap (otherwise : String) (text : Units) : Except Failure Entries :=
  match JsonText.decode text with
  | some (.obj l) => .ok l
  | some _ => .error (.format otherwise)
  | none => .error .unreadable

def decode (raw : Units) : Except Failure SignalMessage :=
  if maxEncodedBytes < (Utf16.utf8Encode raw).length then .error (.format "Signal frame exceeds the 256 KiB limit")
  else (decodeMap "Signal frame must be a JSON object" raw).bind fromJson

/-- `encode()`: a number that is not finite has no text. -/
def encode (m : SignalMessage) : Except Failure Units :=
  match JsonText.encode (.obj m.toJson) with
  | some text => .ok text
  | none => .error .unencodable

end SignalMessage
end Signals
end SecureChat
