import SecureChat.GroupAdmins
import SecureChat.IncomingMessageHandler
import SecureChat.MessageEnvelope
/-!
# MessageRoutes — where an incoming message is stored

Direct conversations and groups share one table: a conversation with a user is kept under the user's id, a group under
the id its creator chose.  Text comes in a direct envelope, in a group envelope routed inside a direct one, or in a
group envelope of the old kind; files come in chunks and by attachment pointers, each in several formats of its own.
One step handles one signal.  Ghosts of a stored message say which group it was sent to and whether its sender and the
local user were on the roster of its conversation when it was handled.
-/
namespace SecureChat
namespace Routes

open GroupControl
open Incoming (EncryptedSignal)

def startsWith (lead : String) (text : Text) : Bool := lead.toList.isPrefixOf text

/-- The ciphers over a key store `K`, the JSON behind the formats, the hashes, and the labels of peers. -/
structure Formats (K : Type) where
  decryptDirect : K → Text → Text → Option (K × Text)
  decryptGroup : K → Text → Text → Text → Option (K × Text)
  processSenderKeyDistribution : K → Text → Text → K
  groupRoutingToken : Text → Text
  routeJson : Text → Option (Text × Text)
  controlJson : Text → Option (GroupNotificationSignal × Text)
  pointerJson : Text → Option (Option Text)
  photoAccepted : Text → Bool
  storedLabel : Text → Text
  fallbackId : EncryptedSignal Text → Text
  blobTransferId : Text → Text → Text

/-- Where a row stands and whose it is; what else it holds decides about neither. -/
structure Message where
  conversationId : Text
  senderId : Text
  isOutgoing : Bool
  sentTo : Option Text
  rostered : Bool
deriving DecidableEq

structure ReceivedFile where
  transferId : Text
  senderId : Text
  groupId : Option Text
  originalMessageId : Option Text
  rostered : Bool
deriving DecidableEq

structure Phone (K : Type) where
  device : Device
  keys : K
  blocked : Text → Bool
  seenMessageIds : List Text
  messages : Table Text Message
  incomingBlobs : Table Text ReceivedFile

structure FileTransferSignal where
  senderId : Text
  recipientId : Text
  groupId : Option Text
  transferId : Text
  encryption : Option Text
  data : Text

structure Opened where
  conversationId : Text
  isGroup : Bool
  plaintext : Text

def tokenLeads : List Text := ["MEGOLM:v1:".toList, "GROUPSK:v2:".toList, "GROUPMETA:v1:".toList]

def groupRoutingTokenFromEnvelope (envelope : Text) : Option Text :=
  match tokenLeads.find? fun lead => lead.isPrefixOf envelope with
  | none => none
  | some lead =>
    let rest := envelope.drop lead.length
    let token := rest.takeWhile (· ≠ ':')
    if ':' ∈ rest ∧ token ≠ [] then some token else none

def directDecryptionPeer (envelope senderId recipientId : Text) : Text :=
  if startsWith "E2EE:v1:LOCAL_AES_GCM:" envelope then recipientId else senderId

def isGroupEnvelope (envelope : Text) : Bool :=
  startsWith "GROUPMETA:v1:" envelope || startsWith "GROUPSK:v1:" envelope || startsWith "GROUPSK:v2:" envelope

def isPrivateGroupRoute (plaintext : Text) : Bool := startsWith "GROUPROUTE:v3:" plaintext

def isPrivateGroupControl (plaintext : Text) : Bool := startsWith "GROUPCTRL:v2:" plaintext

def isOpaqueGroupRoutingToken (value : Text) : Bool :=
  let token := if value.getLast? = some '=' then value.dropLast else value
  decide (token.length = 43) && token.all fun c => c.isAlphanum || c == '_' || c == '-'

def blobPointerPrefix : Text := "BLOBPTR:v1:".toList

def rostered (d : Device) (groupId senderId : Text) : Bool :=
  match d.conversations.get groupId, d.userId with
  | some group, some userId => group.isGroup && decide (senderId ∈ group.members) && decide (userId ∈ group.members)
  | _, _ => false

def _members (csv : Option Text) : List Text :=
  match csv with
  | none => []
  | some csv => (LinkedSet.ofList (((csv.splitOn ',').map trim).filter fun member => decide (member ≠ []))).elems

def newConversation (peerName : Text) (isGroup : Bool) (groupMembers groupAdmins : Option Text) :
    ConversationEntity where
  peerName
  isGroup
  groupMembers
  groupAdmins
  groupDescription := none
  groupPhoto := none
  isArchived := false
  isExportEnabled := false
  isReadOnly := false

def addConversation (d : Device) (id : Text) (c : ConversationEntity) : Device :=
  { d with conversations := d.conversations.put id c }

/-- `_preparePrivateGroupCall`: a group that is not there is created as by a CREATE.  The route that it keeps for the
call is a `callRoute` of a file. -/
def _preparePrivateGroupCall (photoAccepted : Text → Bool) (d : Device) (control : GroupNotificationSignal) : Device :=
  match d.userId, control.targetMemberId with
  | some _, some routingToken =>
    if isOpaqueGroupRoutingToken routingToken = true ∧ d.conversations.get control.groupId = none then
      d._groupNotification photoAccepted
        { control with action := .CREATE, targetMemberId := none, description := none, photo := none }
    else d
  | _, _ => d

namespace Formats

variable {K : Type} (f : Formats K)

def decodePrivateGroupRoute (plaintext : Text) : Option (Text × Text) :=
  if isPrivateGroupRoute plaintext then
    (f.routeJson plaintext).filter fun route =>
      decide (route.1 ≠ [] ∧ groupRoutingTokenFromEnvelope route.2 = some (f.groupRoutingToken route.1))
  else none

def decodePrivateGroupControl (plaintext senderId : Text) : Option GroupNotificationSignal :=
  if isPrivateGroupControl plaintext then
    ((f.controlJson plaintext).filter fun control =>
      decide (control.1.senderId = senderId ∧ control.2 = f.groupRoutingToken control.1.groupId)).map Prod.fst
  else none

def _localGroupId (d : Device) (envelope : Text) : Option Text :=
  if startsWith "GROUPSK:v1:" envelope then
    match envelope.splitOn ':' with
    | [_, _, groupId, _, _] => if groupId = [] then none else some groupId
    | _ => none
  else
    match groupRoutingTokenFromEnvelope envelope with
    | none => none
    | some token => (d.conversations.entries.find? fun group =>
      group.2.isGroup && decide (f.groupRoutingToken group.1 = token)).map Prod.fst

/-- `PrivateGroupCallRoutes.resolve`: a group the local user is in, by the route of a call or by its token. -/
def resolve (d : Device) (token : Text) (callRoute : Option Text) : Option Text :=
  let joined (groupId : Text) := rostered d groupId (d.userId.getD [])
  match callRoute.filter joined with
  | some groupId => some groupId
  | none => (d.conversations.entries.find? fun group =>
    group.2.isGroup && joined group.1 && decide (f.groupRoutingToken group.1 = token)).map Prod.fst

end Formats

namespace Phone

variable {K : Type} (f : Formats K) (s : Phone K)

/-- The part of `_encrypted` inside its `try`. -/
def opened (e : EncryptedSignal Text) : K × Option Opened :=
  if isGroupEnvelope e.envelope then
    match f._localGroupId s.device e.envelope with
    | none => (s.keys, none)
    | some groupId =>
      match f.decryptGroup s.keys e.senderId groupId e.envelope with
      | none => (s.keys, none)
      | some (keys, plaintext) => (keys, some ⟨groupId, true, plaintext⟩)
  else
    match f.decryptDirect s.keys (directDecryptionPeer e.envelope e.senderId e.recipientId) e.envelope with
    | none => (s.keys, none)
    | some (keys, plaintext) =>
      if isPrivateGroupRoute plaintext then
        match f.decodePrivateGroupRoute plaintext with
        | none => (keys, none)
        | some (groupId, groupEnvelope) =>
          if rostered s.device groupId e.senderId = false then (keys, none)
          else
            match f.decryptGroup keys e.senderId groupId groupEnvelope with
            | none => (keys, none)
            | some (keys, plaintext) => (keys, some ⟨groupId, true, plaintext⟩)
      else (keys, some ⟨e.senderId, false, plaintext⟩)

def insert (messageId : Text) (m : Message) (peerName : Text) : Phone K :=
  { s with
    device :=
      match s.device.conversations.get m.conversationId with
      | some _ => s.device
      | none => addConversation s.device m.conversationId
        (newConversation peerName m.sentTo.isSome (if m.sentTo.isSome then some m.senderId else none) none)
    messages := s.messages.put messageId m }

def incomingName (m : Message) : Text := if m.sentTo.isSome then m.conversationId else f.storedLabel m.senderId

def senderKeyAllowed (senderId plaintext : Text) : Bool :=
  let rest := plaintext.drop (if startsWith "SKDM:v2:" plaintext then 8 else 5)
  ':' ∈ rest && rostered s.device (rest.takeWhile (· ≠ ':')) senderId

/-- `FileTransferManager.acceptBlobPointer`: the pointer is kept until its attachment is fetched. -/
def acceptBlobPointer (senderId : Text) (groupId : Option Text) (payload : Text) : Phone K :=
  match f.pointerJson payload with
  | none => s
  | some originalMessageId =>
    let messageId := trim (originalMessageId.getD [])
    let transferId := f.blobTransferId senderId messageId
    if messageId = [] ∨ (s.incomingBlobs.get transferId).isSome then s
    else
      { s with
        incomingBlobs := s.incomingBlobs.put transferId
          ⟨transferId, senderId, groupId, some messageId, rostered s.device (groupId.getD senderId) senderId⟩ }

def storeText (e : EncryptedSignal Text) (o : Opened) (messageId : Text) : Phone K :=
  if messageId ∈ s.seenMessageIds then s
  else
    let seen : Phone K := { s with seenMessageIds := messageId :: s.seenMessageIds }
    if (s.messages.get messageId).isSome then seen
    else
      let m : Message := ⟨o.conversationId, e.senderId, false, if o.isGroup then some o.conversationId else none,
        rostered s.device o.conversationId e.senderId⟩
      seen.insert messageId m (incomingName f m)

/-- What `_encrypted` does with a text.  A chat control or a vote changes what rows say, never whose they are or where
they stand; a shared number may open a conversation (`ensureConversation`), and a media key goes to the calls. -/
def dispatch (e : EncryptedSignal Text) (o : Opened) : Phone K :=
  if startsWith "CALLKEY:v1:" o.plaintext then s
  else if isPrivateGroupControl o.plaintext then
    if s.device.userId ≠ some e.recipientId then s
    else
      match f.decodePrivateGroupControl o.plaintext e.senderId with
      | none => s
      | some signal =>
        if signal.action = .PREPARE_CALL then
          { s with device := _preparePrivateGroupCall f.photoAccepted s.device signal }
        else { s with device := s.device._groupNotification f.photoAccepted signal }
  else if s.blocked e.senderId then s
  else if startsWith "CHATCTRL:v2:" o.plaintext then s
  else if startsWith "SKDM:" o.plaintext then
    if s.senderKeyAllowed e.senderId o.plaintext then
      { s with keys := f.processSenderKeyDistribution s.keys e.senderId o.plaintext }
    else s
  else if blobPointerPrefix.isPrefixOf o.plaintext then
    s.acceptBlobPointer f e.senderId (if o.isGroup then some o.conversationId else none)
      (o.plaintext.drop blobPointerPrefix.length)
  else
    let parsed := Envelope.parseMessageEnvelope o.plaintext
    if parsed.pollVote.isSome then s else s.storeText f e o (parsed.messageId.getD (f.fallbackId e))

def _encrypted (e : EncryptedSignal Text) : Phone K :=
  match s.opened f e with
  | (keys, none) => { s with keys }
  | (keys, some o) => ({ s with keys } : Phone K).dispatch f e o

end Phone

namespace FileTransferSignal

variable (x : FileTransferSignal)

def isRouted : Bool :=
  decide (x.encryption ∈ ["flutter-file-v3-group", "flutter-file-v4-group", "flutter-file-v5-group",
    "flutter-file-v6-blob-group"].map fun version : String => some version.toList)

def isBlob : Bool :=
  decide (x.encryption ∈ ["flutter-file-v6-blob", "flutter-file-v6-blob-group"].map fun version : String =>
    some version.toList)

end FileTransferSignal

namespace Phone

variable {K : Type} (f : Formats K) (s : Phone K)

def openedFile (x : FileTransferSignal) (callRoute : Option Text) : K × Option (Option Text × Text) :=
  if x.isRouted then
    match f.decryptDirect s.keys (directDecryptionPeer x.data x.senderId x.recipientId) x.data with
    | none => (s.keys, none)
    | some (keys, plaintext) =>
      match f.decodePrivateGroupRoute plaintext with
      | none => (keys, none)
      | some (groupId, groupEnvelope) =>
        match f.decryptGroup keys x.senderId groupId groupEnvelope with
        | none => (keys, none)
        | some (keys, plaintext) => (keys, some (some groupId, plaintext))
  else
    let groupId :=
      if x.isBlob then none
      else if x.encryption = some "flutter-file-v2-group".toList then
        (groupRoutingTokenFromEnvelope x.data).bind fun token => f.resolve s.device token callRoute
      else x.groupId
    match groupId with
    | some groupId =>
      match f.decryptGroup s.keys x.senderId groupId x.data with
      | none => (s.keys, none)
      | some (keys, plaintext) => (keys, some (some groupId, plaintext))
    | none =>
      if x.encryption = some "flutter-file-v2-group".toList then (s.keys, none)
      else
        match f.decryptDirect s.keys x.senderId x.data with
        | none => (s.keys, none)
        | some (keys, plaintext) =>
          if x.isBlob ∧ isPrivateGroupRoute plaintext then (keys, none) else (keys, some (none, plaintext))

/-- `MediaMessageService._persistIncoming`. -/
def _persistIncoming (received : ReceivedFile) : Phone K :=
  if s.blocked received.senderId then s
  else
    let original := trim (received.originalMessageId.getD [])
    let messageId := if original = [] then "file-".toList ++ received.transferId else original
    if (s.messages.get messageId).isSome then s
    else
      let m : Message :=
        ⟨received.groupId.getD received.senderId, received.senderId, false, received.groupId, received.rostered⟩
      s.insert messageId m (incomingName f m)

/-- A chunk, or an attachment pointer in place of one.  `completed` is the message id that the manifest names, if the
transfer is complete with this chunk. -/
def receiveFile (x : FileTransferSignal) (callRoute : Option Text) (completed : Option (Option Text)) : Phone K :=
  match s.openedFile f x callRoute with
  | (keys, none) => { s with keys }
  | (keys, some (groupId, plaintext)) =>
    let onRoster := rostered s.device (groupId.getD x.senderId) x.senderId
    let s : Phone K := { s with keys }
    if x.isBlob then
      match f.pointerJson plaintext with
      | none => s
      | some originalMessageId =>
        { s with
          incomingBlobs := s.incomingBlobs.put x.transferId
            ⟨x.transferId, x.senderId, groupId, originalMessageId, onRoster⟩ }
    else
      match completed with
      | none => s
      | some originalMessageId => s._persistIncoming f ⟨x.transferId, x.senderId, groupId, originalMessageId, onRoster⟩

def fetchBlob (transferId : Text) : Phone K :=
  match s.incomingBlobs.get transferId with
  | none => s
  | some received =>
    ({ s with incomingBlobs := s.incomingBlobs.remove transferId } : Phone K)._persistIncoming f received

/-- Whom `SendMessageUseCase` sends a message in a conversation to. -/
def recipients (conversationId : Text) : List Text :=
  match s.device.conversations.get conversationId, s.device.userId with
  | some group, some userId =>
    if group.isGroup then (_members group.groupMembers).filter fun id => decide (id ≠ userId) else [conversationId]
  | _, _ => [conversationId]

def sendMessage (messageId conversationId : Text) : Phone K :=
  match s.device.userId with
  | none => s
  | some userId =>
    let m : Message := ⟨conversationId, userId, true, none, false⟩
    match s.device.conversations.get conversationId with
    | none => s.insert messageId m conversationId
    | some group =>
      if group.isGroup = true ∧ ¬ userId ∈ _members group.groupMembers then s
      else s.insert messageId m conversationId

/-- `ContactService.ensureConversation`, and what `PhoneNumberSharingService.accept` writes for a number that it has
verified. -/
def ensureConversation (contactId displayName : Text) : Phone K :=
  match s.device.conversations.get contactId with
  | some c =>
    if c.isGroup then s
    else { s with device := s.device.patch contactId fun c => { c with peerName := displayName } }
  | none => { s with device := addConversation s.device contactId (newConversation displayName false none none) }

/-- `ContactService.createGroup` does not take an id that is in use. -/
def createGroup (groupId groupName : Text) (ids : List Text) : Phone K :=
  match s.device.conversations.get groupId, s.device.userId with
  | none, some userId =>
    { s with
      device := addConversation s.device groupId
        (newConversation groupName true (some (join (userId :: ids))) (some userId)) }
  | _, _ => s

end Phone

inductive Event
  | encrypted (e : EncryptedSignal Text)
  | notification (signal : GroupNotificationSignal)
  | file (x : FileTransferSignal) (callRoute : Option Text) (completed : Option (Option Text))
  | fetchBlob (transferId : Text)
  | sendMessage (messageId conversationId : Text)
  | ensureConversation (contactId displayName : Text)
  | createGroup (groupId groupName : Text) (ids : List Text)
  | act (groupId : Text) (act : Act)

def Phone.step {K : Type} (f : Formats K) (s : Phone K) : Event → Option (Phone K)
  | .encrypted e => some (s._encrypted f e)
  | .notification signal =>
    some { s with device := s.device._groupNotification f.photoAccepted signal }
  | .file x callRoute completed => some (s.receiveFile f x callRoute completed)
  | .fetchBlob transferId => some (s.fetchBlob f transferId)
  | .sendMessage id conversationId => some (s.sendMessage id conversationId)
  | .ensureConversation contactId name => some (s.ensureConversation contactId name)
  | .createGroup groupId name ids => some (s.createGroup groupId name ids)
  | .act groupId act =>
    match s.device.perform groupId act with
    | none => some s
    | some (own, _) => some { s with device := own }

end Routes
end SecureChat
