import SecureChat.ChatControls
import SecureChat.Runs
/-!
# ConversationPreview — the message that the list of conversations shows

Each conversation keeps a copy of its last message: a text, a time and a type.  Whatever writes a message writes the
copy too, on its own: what arrives and what is sent overwrite it, whichever is newer; a change of one's own reads the
newest message again, one of the peer's leaves the copy as it is; and what expires is replaced by the newest that is
left.  `preview_current` says which steps keep the copy that of the newest message.

A step runs from its first write to its last here.  Left out: the ids that a runtime remembers having seen, with which
a message is dropped again like one that is stored.
-/
namespace SecureChat
namespace ChatControl

open Envelope (StorageMessageContentType)
open GroupControl (Text trim)
open Runs (Meets run)
open Storage (ConversationEntity StorageMessageStatus contentTypeName)

def viewOncePreviewLabel : Text := "Tek gösterimlik mesaj".toList

def conversationPreview (content : Text) (isViewOnce : Bool) (contentType : StorageMessageContentType) : Text :=
  if isViewOnce then viewOncePreviewLabel
  else
    match contentType with
    | .poll => "Anket".toList
    | .image => "Fotoğraf".toList
    | .file => "Dosya".toList
    | .voiceNote => "Sesli mesaj".toList
    | _ => content

def Message.preview (m : Message) : Text := conversationPreview m.content m.isViewOnce m.contentType

/-! ## The writers -/

def withLastMessage (message : Text) (timestamp : ℤ) (type : Option StorageMessageContentType) (outgoing : Option Bool)
    (status : Option StorageMessageStatus) (c : ConversationEntity) : ConversationEntity :=
  { c with
      lastMessage := some message
      lastMessageTimestamp := some timestamp
      lastMessageType := (type.map contentTypeName).or c.lastMessageType
      lastMessageOutgoing := outgoing.getD c.lastMessageOutgoing
      lastMessageStatus := (status.map StorageMessageStatus.name).or c.lastMessageStatus }

def updateLastMessageById (conversationId message : Text) (timestamp : ℤ) (type : Option StorageMessageContentType)
    (outgoing : Option Bool) (status : Option StorageMessageStatus) (d : Device) : Device :=
  d.patchConversation conversationId (withLastMessage message timestamp type outgoing status)

def _withoutLastMessage (c : ConversationEntity) : ConversationEntity :=
  { c with
      lastMessage := none
      lastMessageTimestamp := none
      lastMessageType := none
      lastMessageOutgoing := false
      lastMessageStatus := none }

def clearLastMessage (conversationId : Text) (d : Device) : Device :=
  d.patchConversation conversationId _withoutLastMessage

/-- The newest message of a conversation: the first of those that are sorted by their time. -/
def latest (conversationId : Text) (d : Device) : Option Message :=
  ((d.messages.values.filter fun m => decide (m.conversationId = conversationId)).insertionSort fun a b =>
    b.timestamp ≤ a.timestamp).head?

def store (m : Message) (text : Text) (status : Option StorageMessageStatus) (d : Device) : Device :=
  updateLastMessageById m.conversationId text m.timestamp (some m.contentType) (some m.isOutgoing) status
    (d.setMessages (d.messages.insert m))

def openConversation (c : ConversationEntity) (d : Device) : Device :=
  if (d.conversations.get c.id).isSome then d else d.setConversations (d.conversations.insert c)

def unread (peerId : Text) (c : ConversationEntity) : ConversationEntity :=
  if c.peerId = peerId then { c with unreadCount := c.unreadCount + 1 } else c

theorem id_unread (peerId : Text) (c : ConversationEntity) : (unread peerId c).id = c.id := by
  unfold unread
  split <;> rfl

def incrementUnreadCount (peerId : Text) (d : Device) : Device :=
  d.setConversations (d.conversations.map (unread peerId) (id_unread peerId))

/-- A message that was decrypted, with what is known of its conversation if it is the first one. -/
structure Arrival where
  messageId : Text
  conversationId : Text
  senderId : Text
  content : Text
  contentType : StorageMessageContentType := .text
  timestamp : ℤ
  replyToId : Option Text := none
  expiresAt : Option ℤ := none
  isViewOnce : Bool := false
  isGroup : Bool := false
  peerName : Text := []
  peerPhone : Text := []

def Arrival.message (x : Arrival) (timestamp : ℤ) : Message where
  id := x.messageId
  conversationId := x.conversationId
  senderId := x.senderId
  content := x.content
  contentType := x.contentType
  timestamp := timestamp
  status := .delivered
  replyToId := x.replyToId
  isOutgoing := false
  expiresAt := x.expiresAt
  isViewOnce := x.isViewOnce

def Arrival.conversation (x : Arrival) : ConversationEntity where
  id := x.conversationId
  peerId := x.conversationId
  peerName := x.peerName
  peerPhone := x.peerPhone
  isGroup := x.isGroup
  groupMembers := if x.isGroup then some x.senderId else none

/-- A file on its way in or out: its content names it, `caption` and `fileName` are cleaned. -/
structure Media where
  messageId : Text
  conversationId : Text
  senderId : Text
  content : Text
  mimeType : Text
  caption : Option Text
  fileName : Text
  isVoiceNote : Bool
  isViewOnce : Bool
  expiresAt : Option ℤ := none
  isMediaPreviewDeferred : Bool := false
  receiptRecipients : Option (List Text) := none
  isGroup : Bool := false
  peerName : Text := []

namespace Media

variable (x : Media)

def _contentType : StorageMessageContentType :=
  if x.isVoiceNote then .voiceNote else if "image/".toList.isPrefixOf x.mimeType then .image else .file

def _preview : Text :=
  if x.isViewOnce then viewOncePreviewLabel
  else if x.isVoiceNote then "Sesli mesaj".toList
  else
    match x.caption with
    | none => if "image/".toList.isPrefixOf x.mimeType then "Fotoğraf".toList else x.fileName
    | some clean => (if "image/".toList.isPrefixOf x.mimeType then "Fotoğraf · ".toList else "Dosya · ".toList) ++ clean

def message (now : ℤ) (status : StorageMessageStatus) (isOutgoing : Bool) : Message where
  id := x.messageId
  conversationId := x.conversationId
  senderId := x.senderId
  content := x.content
  contentType := x._contentType
  timestamp := now
  status := status
  isOutgoing := isOutgoing
  expiresAt := x.expiresAt
  caption := if x.isVoiceNote then none else x.caption
  isViewOnce := x.isViewOnce
  isMediaPreviewDeferred := x.isMediaPreviewDeferred
  receiptRecipients := x.receiptRecipients

def conversation : ConversationEntity where
  id := x.conversationId
  peerId := x.conversationId
  peerName := x.peerName
  peerPhone := []
  isGroup := x.isGroup
  groupMembers := if x.isGroup then some x.senderId else none

end Media

structure SendMessageRequest where
  messageId : Text
  conversationId : Text
  content : Text
  contentType : StorageMessageContentType := .text
  replyToId : Option Text := none
  isViewOnce : Bool := false

section Writers

variable (S : Service) (session : Session)

/-- What `_encrypted` does with a message. -/
def _encrypted (x : Arrival) (d : Device) : Device :=
  if (d.messages.get x.messageId).isSome then d
  else
    let m := x.message (_boundedTimestamp S.now x.timestamp)
    incrementUnreadCount x.conversationId (store m m.preview none (openConversation x.conversation d))

def _persistIncoming (x : Media) (d : Device) : Device :=
  if (d.messages.get x.messageId).isSome then d
  else
    incrementUnreadCount x.conversationId
      (store (x.message S.now .delivered false) x._preview none (openConversation x.conversation d))

def _persistOutgoing (x : Media) (status : StorageMessageStatus) (d : Device) : Device :=
  store (x.message S.now status true) x._preview (some status) d

/-- The message that `SendMessageUseCase` writes before it is sent. -/
def SendMessageRequest.message (request : SendMessageRequest) (senderId : Text) (recipients : List Text)
    (expiresAt : Option ℤ) : Message where
  id := request.messageId
  conversationId := request.conversationId
  senderId := senderId
  content := request.content
  contentType := request.contentType
  timestamp := S.now
  status := .sending
  isOutgoing := true
  receiptRecipients := some recipients
  replyToId := request.replyToId
  expiresAt := expiresAt
  isViewOnce := request.isViewOnce

def _members (c : ConversationEntity) : LinkedSet Text :=
  LinkedSet.ofList (trimmed ((c.groupMembers.map fun members => members.splitOn ',').getD []))

/-- `SendMessageUseCase.call`, as far as it writes what is shown.  A conversation that is not there is made without the
type of its last message. -/
def send (request : SendMessageRequest) (d : Device) : Device :=
  match session.userId with
  | none => d
  | some senderId =>
    if senderId = [] then d
    else
      match d.conversations.get request.conversationId with
      | none =>
        let m := request.message S senderId [request.conversationId] none
        (d.setMessages (d.messages.insert m)).setConversations (d.conversations.insert
          { id := request.conversationId
            peerId := request.conversationId
            peerName := request.conversationId
            peerPhone := []
            lastMessage := some m.preview
            lastMessageTimestamp := some S.now })
      | some c =>
        if c.isGroup ∧ senderId ∉ _members c then d
        else
          let recipients := if c.isGroup then (_members c).elems.filter fun id => decide (id ≠ senderId)
            else [request.conversationId]
          let m := request.message S senderId recipients
            (if 0 < c.disappearingDuration then some (S.now + c.disappearingDuration) else none)
          store m m.preview (some .sending) d

def Message.refreshed (m : Message) : Text := if m.contentType = .deleted then deletedContent else m.preview

def _refreshLastMessage (conversationId : Text) (d : Device) : Device :=
  match latest conversationId d with
  | none => clearLastMessage conversationId d
  | some m =>
    updateLastMessageById conversationId m.refreshed m.timestamp (some m.contentType) (some m.isOutgoing)
      (some m.status) d

def deletedMessage (m : Message) : Message := { m with content := deletedContent, contentType := .deleted }

def editedMessage (content : Text) (editedAt : ℤ) (before : Text) (m : Message) : Message :=
  { m with content := content, editedAt := some editedAt, editHistory := some [before] }

def _context (messageId : Text) (d : Device) : Option (Message × ConversationEntity) :=
  match session.userId with
  | none => none
  | some userId =>
    if userId = [] then none
    else (d.messages.get messageId).bind fun m => (d.conversations.get m.conversationId).map fun c => (m, c)

def editWindow : ℤ := 15 * 60 * 1000

/-- `edit`; whether every copy was sent is up to the network. -/
def edit (messageId newContent : Text) (sent : Bool) (d : Device) : Device :=
  let clean := trim newContent
  match _context session messageId d with
  | none => d
  | some (m, _) =>
    if clean = [] ∨ maxEditLength < GroupControl.length clean ∨ ¬ m.isOutgoing ∨ m.contentType ≠ .text ∨ m.isViewOnce ∨
        editWindow < S.now - m.timestamp ∨ ¬ sent then d
    else _refreshLastMessage m.conversationId (d.patchMessage messageId (editedMessage clean S.now m.content))

def deleteForEveryone (messageId : Text) (sent : Bool) (d : Device) : Device :=
  match _context session messageId d with
  | none => d
  | some (m, _) =>
    if ¬ m.isOutgoing ∨ ¬ sent then d
    else _refreshLastMessage m.conversationId (d.patchMessage messageId deletedMessage)

def removeMessage (messageId : Text) (d : Device) : Device :=
  d.setMessages (d.messages.filter fun m => decide (m.id ≠ messageId))

def deleteLocally (messageId : Text) (d : Device) : Device :=
  match d.messages.get messageId with
  | none => d
  | some m => _refreshLastMessage m.conversationId (removeMessage messageId d)

def _systemMessage (id groupId content : Text) (timestamp : ℤ) (d : Device) : Device :=
  if (d.messages.get id).isSome then d
  else
    let at' := _boundedTimestamp S.now timestamp
    updateLastMessageById groupId content at' none none none
      (d.setMessages (d.messages.insert (timerMessage id groupId content at')))

def expired (now : ℤ) (m : Message) : Bool := m.expiresAt.any fun at' => decide (at' ≤ now)

def recomputed (d : Device) (c : ConversationEntity) : ConversationEntity :=
  match latest c.id d with
  | none => _withoutLastMessage c
  | some m => withLastMessage m.preview m.timestamp (some m.contentType) (some m.isOutgoing) (some m.status) c

def recomputedIfAffected (expired : List Message) (d : Device) (c : ConversationEntity) : ConversationEntity :=
  if expired.any fun m => decide (m.conversationId = c.id) then recomputed d c else c

theorem id_recomputed (d : Device) (c : ConversationEntity) : (recomputed d c).id = c.id := by
  unfold recomputed
  cases latest c.id d <;> rfl

theorem id_recomputedIfAffected (l : List Message) (d : Device) (c : ConversationEntity) :
    (recomputedIfAffected l d c).id = c.id := by
  unfold recomputedIfAffected
  split
  · exact id_recomputed d c
  · rfl

def deleteExpiredMessages (now : ℤ) (d : Device) : Device :=
  let gone := d.messages.values.filter (expired now)
  let d' := d.setMessages (d.messages.filter fun m => !expired now m)
  d'.setConversations (d'.conversations.map (recomputedIfAffected gone d') (id_recomputedIfAffected gone d'))

end Writers

end ChatControl
end SecureChat
