import SecureChat.KeyedTable
import SecureChat.MessageReactions
import SecureChat.StorageEntities
/-!
# ChatControls — what a device does with a private chat control

Eleven kinds of control reach a device inside the encrypted channel with a peer; the sender is the one whose session
decrypted them.  Each names messages and conversations by ids of the sender's choice, and each handler has checks of its
own before it writes.

Left out: the notifications that are shown, and the tables that no control reads or writes.
-/
namespace SecureChat
namespace ChatControl

open Envelope (StorageMessageContentType)
open GroupControl (Text trim isWhitespace)
open MessageReactions (IsValid applyMessageReaction)
open Storage (ContactEntity ConversationEntity PendingSignalEntity StorageMessageStatus toUpperCase)
open scoped GroupControl

/-- A row of the messages; its reactions and its edit history are known by the documents that they decode to. -/
structure Message where
  id : Text
  conversationId : Text
  senderId : Text
  content : Text
  contentType : StorageMessageContentType
  timestamp : ℤ
  status : StorageMessageStatus
  replyToId : Option Text := none
  isOutgoing : Bool
  isStarred : Bool := false
  expiresAt : Option ℤ := none
  editedAt : Option ℤ := none
  editHistory : Option (List Text) := none
  reactions : Option Json := none
  caption : Option Text := none
  isViewOnce : Bool := false
  isViewed : Bool := false
  isMediaPreviewDeferred : Bool := false
  isPinned : Bool := false
  pinnedAt : Option ℤ := none
  receiptRecipients : Option (List Text) := none
  deliveredTo : List Text := []
  readBy : List Text := []

abbrev Conversations := Keyed ConversationEntity.id

abbrev Messages := Keyed Message.id

structure Device where
  conversations : Conversations := .empty
  messages : Messages := .empty
  contacts : Table Text ContactEntity := .empty
  pendingSignals : Table Text PendingSignalEntity := .empty
  cryptoState : Table Text Text := .empty
  typing : Text → Bool := fun _ => false

structure Session where
  userId : Option Text
  isLoggedIn : Bool := true
  shareReadReceipts : Bool := true

/-- What the handlers use besides the tables: the clock, whether the directory confirms the number of a peer within the
limits on asking it, the text of a notice about the timer, and hashes as text. -/
structure Service where
  now : ℤ
  isValidMessageReaction : IsValid
  verifies : Text → Text → Bool
  timerNotice : Device → ConversationEntity → Text → ℤ → Text
  timerNoticeId : Text → Text → ℤ → ℤ → Text

inductive Body
  | delivery_receipt (messageId status : Text) (capabilities : List Text)
  | message_delete (messageId : Text)
  | message_edit (messageId newContent : Text)
  | message_reaction (messageId emoji : Text) (remove : Bool)
  | message_pin (messageId : Text) (isPinned : Bool) (pinnedAt : Option ℤ) (groupId : Option Text)
  | typing_indicator (isTyping : Bool)
  | disappearing_timer (durationMs : ℤ) (conversationId : Text)
  | shared_phone (phoneNumber : Text)
  | shared_profile_name (displayName : Text)
  | view_once_opened (messageId : Text)
  | session_reset_request (reason : Text)

structure Control where
  senderId : Text
  recipientId : Text
  timestamp : ℤ
  body : Body

/-! ## The tables -/

namespace Device

variable (d : Device)

def setConversations (conversations : Conversations) : Device := { d with conversations := conversations }

def setMessages (messages : Messages) : Device := { d with messages := messages }

def setPendingSignals (pendingSignals : Table Text PendingSignalEntity) : Device :=
  { d with pendingSignals := pendingSignals }

def setCryptoState (cryptoState : Table Text Text) : Device := { d with cryptoState := cryptoState }

def setTyping (userId : Text) (isTyping : Bool) : Device :=
  { d with typing := Function.update d.typing userId isTyping }

def getByPeerId (peerId : Text) : Option ConversationEntity :=
  d.conversations.values.find? fun c => decide (c.peerId = peerId)

def patchMessage (id : Text) (f : Message → Message) : Device := d.setMessages (d.messages.patch id f)

def patchConversation (id : Text) (f : ConversationEntity → ConversationEntity) : Device :=
  d.setConversations (d.conversations.patch id f)

end Device

def csv (value : Option Text) : LinkedSet Text := Csv.csv ',' value

/-- The members of a group, without the blanks around them. -/
def trimmed (ids : List Text) : List Text := (ids.map trim).filter fun id => decide (id ≠ [])

def peerClockTolerance : ℤ := 5 * 60 * 1000

def _boundedTimestamp (now peerTimestamp : ℤ) : ℤ := if now + peerClockTolerance < peerTimestamp then now
    else peerTimestamp

section Handlers

variable (S : Service) (session : Session)

def _senderAllowed (conversation : Option ConversationEntity) (authenticatedSenderId : Text) : Bool :=
  match conversation, session.userId with
  | some c, some localUserId =>
    if authenticatedSenderId = [] ∨ authenticatedSenderId = localUserId then false
    else if ¬ c.isGroup then decide (c.peerId = authenticatedSenderId)
    else decide (localUserId ∈ csv c.groupMembers) && decide (authenticatedSenderId ∈ csv c.groupMembers)
  | _, _ => false

/-! ## Receipts -/

def localPeerCapabilities : List Text :=
  ["blob-v1".toList, "blob-v2".toList, "call-e2ee-v1".toList, "pad-v1".toList]

def capabilityKey (capability userId : Text) : Text := "peer-capability:".toList ++ capability ++ ':' :: userId

/-- `PeerCapabilities.record` -/
def record (userId : Text) (capabilities : List Text) (state : Table Text Text) : Table Text Text :=
  if userId = [] then state
  else
    localPeerCapabilities.foldl (fun state capability =>
      let key := capabilityKey capability userId
      let known := (state.get key).isSome
      if capability ∈ capabilities ∧ ¬ known then state.assign key "1".toList
      else if capability ∉ capabilities ∧ known then state.remove key
      else state) state

def codeUnits (t : Text) : List ℕ :=
  t.flatMap fun c =>
    if c.toNat < 0x10000 then [c.toNat]
    else [0xD800 + (c.toNat - 0x10000) / 0x400, 0xDC00 + (c.toNat - 0x10000) % 0x400]

/-- `toList()..sort()` -/
def sorted (ids : LinkedSet Text) : List Text := ids.elems.insertionSort fun a b => codeUnits a ≤ codeUnits b

def expectedRecipients (m : Message) (c : ConversationEntity) (recipientId localUserId : Text) :
    Option (Option (List Text)) :=
  match m.receiptRecipients with
  | some ids =>
    let expected := (trimmed ids).filter fun id => decide (id ≠ localUserId)
    if recipientId ∈ expected then some (some expected) else none
  | none =>
    if c.isGroup then
      let members := trimmed ((c.groupMembers.getD []).splitOn ',')
      if localUserId ∈ members ∧ recipientId ∈ members then some none else none
    else some (some [c.peerId])

def receipts (m : Message) (c : ConversationEntity) (recipientId : Text) (isRead : Bool) :
    LinkedSet Text × LinkedSet Text :=
  let legacy := m.receiptRecipients.isNone && !c.isGroup
  let read := LinkedSet.ofList m.readBy
  let read := if legacy ∧ m.status = .read then read.insert recipientId else read
  let delivered := LinkedSet.ofList m.deliveredTo
  let delivered := if legacy ∧ m.status = .delivered then delivered.insert recipientId else delivered
  let read := if isRead then read.insert recipientId else read
  (read, read.elems.foldl (fun s id => s.insert id) (delivered.insert recipientId))

def aggregate (expected : Option (List Text)) (read delivered : LinkedSet Text) : StorageMessageStatus :=
  match expected with
  | none => .sent
  | some ids =>
    if ids = [] then .sent
    else if ids.all fun id => decide (id ∈ read) then .read
    else if ids.all fun id => decide (id ∈ delivered) then .delivered
    else .sent

def received (m : Message) (c : ConversationEntity) (recipientId : Text) (isRead : Bool)
    (expected : Option (List Text)) : Message :=
  let r := receipts m c recipientId isRead
  { m with status := aggregate expected r.1 r.2, deliveredTo := sorted r.2, readBy := sorted r.1 }

def recordDeliveryReceipt (messageId recipientId : Text) (isRead : Bool) (localUserId : Text) (d : Device) :
    Option Device :=
  if localUserId = [] ∨ recipientId = [] ∨ recipientId = localUserId then none
  else
    match d.messages.get messageId with
    | none => none
    | some m =>
      if ¬ m.isOutgoing ∨ m.senderId ≠ localUserId then none
      else
        match d.conversations.get m.conversationId with
        | none => none
        | some c =>
          if ¬ c.isGroup ∧ recipientId ≠ c.peerId then none
          else
            match expectedRecipients m c recipientId localUserId with
            | none => none
            | some expected =>
              let m' := received m c recipientId isRead expected
              let d' := d.setMessages (d.messages.insert m')
              some (if c.lastMessageTimestamp = some m.timestamp then
                  d'.setConversations (d.conversations.insert { c with lastMessageStatus := some m'.status.name })
                else d')

/-- `deleteDelivered`: the copies that were kept for this recipient. -/
def keptFor (messageId recipientId : Text) (signal : PendingSignalEntity) : Bool :=
  signal.retainUntilReceipt && signal.messageId == some messageId && signal.recipientId == some recipientId

def deleteDelivered (messageId recipientId : Text) (d : Device) : Device :=
  d.setPendingSignals (d.pendingSignals.filter fun x => !keptFor messageId recipientId x.2)

def reported (status : Text) : Option Bool :=
  if toUpperCase status = "READ".toList then some session.shareReadReceipts
  else if toUpperCase status = "DELIVERED".toList then some false
  else none

def _receipt (senderId messageId status : Text) (capabilities : List Text) (d : Device) : Device :=
  match session.userId with
  | none => d
  | some localUserId =>
    let d' := d.setCryptoState (record senderId capabilities d.cryptoState)
    match (reported session status).bind fun isRead => recordDeliveryReceipt messageId senderId isRead
      localUserId d' with
    | none => d'
    | some d'' => deleteDelivered messageId senderId d''

/-! ## Messages -/

def named (messageId : Text) (d : Device) : Option (Message × Option ConversationEntity) :=
  (d.messages.get messageId).map fun m => (m, d.conversations.get m.conversationId)

def deletedContent : Text := "Bu mesaj silindi".toList

def _delete (senderId messageId : Text) (d : Device) : Device :=
  match named messageId d with
  | none => d
  | some (m, conversation) =>
    if m.senderId ≠ senderId ∨ ¬ _senderAllowed session conversation senderId then d
    else d.patchMessage messageId fun m => { m with content := deletedContent, contentType := .deleted }

def maxEditLength : ℕ := 10000

def _edit (senderId messageId newContent : Text) (timestamp : ℤ) (d : Device) : Device :=
  let content := trim newContent
  match named messageId d with
  | none => d
  | some (m, conversation) =>
    if m.senderId ≠ senderId ∨ m.contentType ≠ .text ∨ content = [] ∨ maxEditLength < GroupControl.length content ∨
        ¬ _senderAllowed session conversation senderId then d
    else
      d.patchMessage messageId fun current =>
        { current with
            content := content
            editedAt := some (_boundedTimestamp S.now timestamp)
            editHistory := some [m.content] }

/-- `applyReaction`: a deleted message takes none. -/
def reactedMessage (userId emoji : Text) (remove : Bool) (m : Message) : Message :=
  if userId = [] ∨ ¬ S.isValidMessageReaction emoji ∨ m.contentType = .deleted then m
  else { m with reactions := applyMessageReaction S.isValidMessageReaction m.reactions userId emoji remove }

def _reaction (senderId messageId emoji : Text) (remove : Bool) (d : Device) : Device :=
  match named messageId d with
  | none => d
  | some (_, conversation) =>
    if ¬ S.isValidMessageReaction emoji ∨ ¬ _senderAllowed session conversation senderId then d
    else d.patchMessage messageId (reactedMessage S senderId emoji remove)

/-- `_canPin`, as a condition on the message. -/
def Message.canPin (m : Message) (now : ℤ) : Bool :=
  decide (m.contentType ≠ .deleted) && m.expiresAt.all fun at' => decide (now < at')

def Message.otherPin (m other : Message) (now : ℤ) : Bool :=
  decide (other.conversationId = m.conversationId) && decide (other.id ≠ m.id) && other.isPinned && other.canPin now

def pinnedMessage (isPinned : Bool) (pinnedAt : Option ℤ) (m : Message) : Message :=
  { m with isPinned := isPinned, pinnedAt := if isPinned then some (pinnedAt.getD S.now) else none }

def oldestPin (m : Message) (d : Device) : Option Message :=
  ((d.messages.values.filter fun other =>
    decide (other.conversationId = m.conversationId) && other.isPinned).insertionSort fun a b =>
      a.timestamp ≤ b.timestamp).head?

def updatePinned (messageId : Text) (isPinned : Bool) (pinnedAt : Option ℤ) (d : Device) : Device :=
  match d.messages.get messageId with
  | none => d
  | some m =>
    if isPinned ∧ (¬ m.canPin S.now ∨ (oldestPin m d).any fun other => m.otherPin other S.now) then d
    else d.patchMessage messageId (pinnedMessage S isPinned pinnedAt)

def _pin (senderId messageId : Text) (isPinned : Bool) (pinnedAt : Option ℤ) (groupId : Option Text) (d : Device) :
    Device :=
  match named messageId d with
  | some (_, some c) =>
    if ¬ _senderAllowed session (some c) senderId then d
    else if c.isGroup ∧ (senderId ∉ csv c.groupAdmins ∨ (groupId.isSome ∧ groupId ≠ some c.id)) then d
    else updatePinned S messageId isPinned pinnedAt d
  | _ => d

def markOutgoingViewOnceOpened (messageId opener : Text) (d : Device) : Device :=
  match named messageId d with
  | some (m, some c) =>
    if ¬ m.isViewOnce ∨ ¬ m.isOutgoing ∨ m.isViewed then d
    else if (if c.isGroup then decide (opener ∈ (c.groupMembers.getD []).splitOn ',') else decide
      (c.peerId = opener)) then
      d.patchMessage messageId fun m => { m with isViewed := true }
    else d
  | _ => d

/-! ## The timer -/

def _allowedTimerDurations : List ℤ :=
  [0, 60 * 60 * 1000, 24 * 60 * 60 * 1000, 7 * 24 * 60 * 60 * 1000, 30 * 24 * 60 * 60 * 1000]

def timerConversation (senderId conversationId : Text) (d : Device) : Option ConversationEntity :=
  match (if conversationId = [] then none else d.conversations.get conversationId).filter (·.isGroup) with
  | some group => some group
  | none => d.getByPeerId senderId

def expiring (conversationId : Text) (duration windowStart now : ℤ) (m : Message) : Message :=
  if m.conversationId = conversationId ∧ ¬ m.isOutgoing ∧ m.expiresAt = none ∧ windowStart ≤ m.timestamp ∧
      m.timestamp ≤ now then
    { m with expiresAt := some (m.timestamp + duration) }
  else m

theorem id_expiring (conversationId : Text) (duration windowStart now : ℤ) (m : Message) :
    (expiring conversationId duration windowStart now m).id = m.id := by
  unfold expiring
  split <;> rfl

def applyRetroactiveExpiry (conversationId : Text) (duration windowStart now : ℤ) (d : Device) : Device :=
  d.setMessages (d.messages.map (expiring conversationId duration windowStart now) (id_expiring _ _ _ _))

def timerMessage (id conversationId content : Text) (timestamp : ℤ) : Message where
  id := id
  conversationId := conversationId
  senderId := "SYSTEM".toList
  content := content
  contentType := .system
  timestamp := timestamp
  status := .delivered
  isOutgoing := false

def previewed (content : Text) (timestamp : ℤ) (c : ConversationEntity) : ConversationEntity :=
  { c with
      lastMessage := some content
      lastMessageTimestamp := some timestamp
      lastMessageType := some (Storage.contentTypeName .system)
      lastMessageOutgoing := false
      lastMessageStatus := some StorageMessageStatus.delivered.name }

def _timer (senderId : Text) (durationMs : ℤ) (conversationId : Text) (timestamp : ℤ) (d : Device) : Device :=
  match timerConversation senderId conversationId d with
  | none => d
  | some c =>
    if durationMs ∉ _allowedTimerDurations ∨ ¬ _senderAllowed session (some c) senderId then d
    else
      let d₁ := d.patchConversation c.id fun c => { c with disappearingDuration := durationMs }
      let content := S.timerNotice d₁ c senderId durationMs
      let messageId := S.timerNoticeId c.id senderId durationMs timestamp
      let at' := _boundedTimestamp S.now timestamp
      let d₂ :=
        if (d₁.messages.get messageId).isSome then d₁
        else
          (d₁.setMessages (d₁.messages.insert (timerMessage messageId c.id content at'))).patchConversation c.id
            (previewed content at')
      if 0 < durationMs then applyRetroactiveExpiry c.id durationMs (S.now - 60000) S.now d₂ else d₂

/-! ## Names and numbers -/

def isHex (c : Char) : Bool := c.isDigit || ('a' ≤ c && c ≤ 'f') || ('A' ≤ c && c ≤ 'F')

def isUuid (t : Text) : Bool :=
  let parts := t.splitOn '-'
  parts.map List.length == [8, 4, 4, 4, 12] && parts.all fun part => part.all isHex

def isOpaquePeerName (name : Text) (peerId : Option Text) : Bool :=
  let clean := trim name
  decide (clean = []) || peerId == some clean || isUuid clean

def isControl (c : Char) : Bool := c.toNat ≤ 0x1F || (0x7F ≤ c.toNat && c.toNat ≤ 0x9F)

def isInvisible (c : Char) : Bool :=
  (0x200B ≤ c.toNat && c.toNat ≤ 0x200F) || (0x202A ≤ c.toNat && c.toNat ≤ 0x202E) ||
    (0x2060 ≤ c.toNat && c.toNat ≤ 0x2069) || c.toNat == 0xFEFF

def collapse : Text → Text
  | [] => []
  | [c] => if isWhitespace c then [' '] else [c]
  | c :: c' :: t =>
    if isWhitespace c then
      if isWhitespace c' then collapse (c' :: t) else ' ' :: collapse (c' :: t)
    else c :: collapse (c' :: t)

def maxNameLength : ℕ := 40

/-- `sanitize` of a shared name. -/
def sanitize (raw : Text) : Option Text :=
  let cleaned := trim (collapse ((raw.map fun c => if isControl c then ' ' else c).filter fun c => !isInvisible c))
  let bounded := if maxNameLength < cleaned.length then trim (cleaned.take maxNameLength) else cleaned
  let withoutMarker := trim (bounded.dropWhile (· = '~'))
  if withoutMarker = [] ∨ isOpaquePeerName withoutMarker none then none else some withoutMarker

def sentNameKey (userId : Text) : Text := "profile_name_sent:".toList ++ userId

def receivedNameKey (userId : Text) : Text := "peer_profile_name:".toList ++ userId

def isUnnamedContact (c : ContactEntity) : Bool :=
  c.addedManually && (decide (trim c.displayName = []) || decide (trim c.displayName = trim c.phoneNumber))

def updatePeerIdentity (id name phone : Text) (d : Device) : Device :=
  d.patchConversation id fun c => { c with peerName := name, peerPhone := phone }

def replaceable (c : ConversationEntity) (peerId : Text) : Bool :=
  isOpaquePeerName c.peerName (some peerId) || c.peerName.head? == some '~' || decide (c.peerName = c.peerPhone)

/-- `ProfileNameSharingService.accept` -/
def acceptProfileName (senderId recipientId displayName : Text) (d : Device) : Device :=
  match sanitize displayName with
  | none => d
  | some name =>
    if ¬ session.isLoggedIn ∨ session.userId ≠ some recipientId ∨ senderId = [] ∨ session.userId = some senderId then d
    else
      let d' := d.setCryptoState (d.cryptoState.assign (receivedNameKey senderId) name)
      match d'.getByPeerId senderId with
      | none => d'
      | some c =>
        let label := '~' :: name
        if c.isGroup ∨ (d'.contacts.get senderId).any (fun contact => !isUnnamedContact contact) then d'
        else if replaceable c senderId ∧ c.peerName ≠ label then updatePeerIdentity c.id label c.peerPhone d'
        else d'

def digitsOf (input : Text) : Text := input.filter Char.isDigit

def normalizePhoneDigits (input : Text) : Text :=
  let digits := digitsOf input
  if "05".toList.isPrefixOf digits ∧ digits.length = 11 then "90".toList ++ digits.drop 1
  else if digits.head? = some '5' ∧ digits.length = 10 then "90".toList ++ digits
  else digits

/-- `+`, a digit that is not zero and six to fourteen more. -/
def isPhone (t : Text) : Bool :=
  match t with
  | '+' :: c :: rest =>
    c.isDigit && decide (c ≠ '0') && rest.all Char.isDigit && decide (6 ≤ rest.length ∧ rest.length ≤ 14)
  | _ => false

def knownPhone (contact : Option ContactEntity) (conversation : Option ConversationEntity) : Option Text :=
  match contact.filter fun c => decide (c.phoneNumber ≠ []) with
  | some c => some c.phoneNumber
  | none => conversation.map ConversationEntity.peerPhone

def nameWith (contact : Option ContactEntity) (conversation : Option ConversationEntity) (phone : Text) : Text :=
  match contact.filter fun c => decide (c.displayName ≠ []) with
  | some c => c.displayName
  | none =>
    match conversation.filter fun c => c.peerName.head? == some '~' with
    | some c => c.peerName
    | none => phone

def phoneWith (contact : Option ContactEntity) (phone : Text) : Text :=
  match contact.filter fun c => decide (c.phoneNumber ≠ []) with
  | some c => c.phoneNumber
  | none => phone

/-- `PhoneNumberSharingService.accept` -/
def acceptPhone (senderId recipientId phone : Text) (d : Device) : Device :=
  if ¬ session.isLoggedIn ∨ session.userId ≠ some recipientId ∨ senderId = [] ∨ session.userId = some senderId ∨
      16 < phone.length ∨ ¬ isPhone phone then d
  else
    let contact := d.contacts.get senderId
    let conversation := d.getByPeerId senderId
    if conversation.any ConversationEntity.isGroup then d
    else if (knownPhone contact conversation).map normalizePhoneDigits ≠ some (phone.drop 1) ∧
        ¬ S.verifies senderId phone then d
    else
      let name := nameWith contact conversation phone
      let displayPhone := phoneWith contact phone
      match conversation with
      | none =>
        d.setConversations (d.conversations.insert
          { id := senderId, peerId := senderId, peerName := name, peerPhone := displayPhone })
      | some c =>
        if c.peerName ≠ name ∨ c.peerPhone ≠ displayPhone then updatePeerIdentity c.id name displayPhone d else d

/-! ## The controls -/

def _typingIfAllowed (senderId : Text) (isTyping : Bool) (d : Device) : Device :=
  match d.getByPeerId senderId with
  | none => d
  | some c => if c.isGroup ∨ ¬ _senderAllowed session (some c) senderId then d else d.setTyping senderId isTyping

def _sessionResetRequest (senderId recipientId : Text) (d : Device) : Device :=
  if session.userId ≠ some recipientId then d
  else d.setCryptoState (d.cryptoState.remove (sentNameKey senderId))

def _handle (signal : Control) (d : Device) : Device :=
  match signal.body with
  | .delivery_receipt messageId status capabilities =>
    _receipt session signal.senderId messageId status capabilities d
  | .message_delete messageId => _delete session signal.senderId messageId d
  | .message_edit messageId newContent =>
    _edit S session signal.senderId messageId newContent signal.timestamp d
  | .message_reaction messageId emoji remove => _reaction S session signal.senderId messageId
      emoji remove d
  | .message_pin messageId isPinned pinnedAt groupId =>
    _pin S session signal.senderId messageId isPinned pinnedAt groupId d
  | .typing_indicator isTyping => _typingIfAllowed session signal.senderId isTyping d
  | .disappearing_timer durationMs conversationId =>
    _timer S session signal.senderId durationMs conversationId signal.timestamp d
  | .shared_phone phoneNumber =>
    acceptPhone S session signal.senderId signal.recipientId phoneNumber d
  | .shared_profile_name displayName =>
    acceptProfileName session signal.senderId signal.recipientId displayName d
  | .view_once_opened messageId => markOutgoingViewOnceOpened messageId signal.senderId d
  | .session_reset_request _ =>
    _sessionResetRequest session signal.senderId signal.recipientId d

/-- What `_encrypted` does with a private chat control: it is taken from the direct channel only, and bound to the
sender whose session decrypted it and to the local user.  `decoded` is what its packet holds. -/
def privateChatControl (isGroup : Bool) (senderId recipientId : Text) (decoded : Option (ℤ × Body)) (d : Device) :
    Device :=
  match session.userId, decoded with
  | some localUserId, some (timestamp, body) =>
    if isGroup ∨ localUserId ≠ recipientId ∨ senderId = localUserId then d
    else _handle S session ⟨senderId, localUserId, timestamp, body⟩ d
  | _, _ => d

end Handlers

end ChatControl
end SecureChat
