import SecureChat.DartInt
/-!
# MessageEnvelope — the text a message is sent as

`buildEnvelopeContent` puts the fields of a message in front of its content, each behind a lead of its own and up to a
colon; a field that is absent leaves nothing.  `parseMessageEnvelope` takes the leads off again, in the same order.  The
content is not escaped, so content that starts with the lead of an absent field is read as that field.
-/
namespace SecureChat
namespace Envelope

open GroupControl (Text trim)

inductive StorageMessageContentType
  | text | image | file | voiceNote | system | deleted | poll
deriving DecidableEq

structure SendMessageRequest where
  content : Text
  replyToId : Option Text
  contentType : StorageMessageContentType
  isViewOnce : Bool
  mentionedUserIds : List Text

structure PollVoteReference where
  pollMessageId : Text
  optionIndex : Int64
deriving DecidableEq

structure ParsedMessageEnvelope where
  messageId : Option Text
  replyToId : Option Text
  content : Text
  contentType : StorageMessageContentType
  pollVote : Option PollVoteReference
  absoluteExpiresAt : Option Int64
  isViewOnce : Bool
  mentionedUserIds : List Text
deriving DecidableEq

def msgIdLead : Text := "MSGID:".toList

def replyLead : Text := "REPLY:".toList

def expiryLead : Text := "EXP:".toList

def viewOnceLead : Text := "VIEWONCE:".toList

def mentionLead : Text := "MENTION:".toList

def pollVoteLead : Text := "POLLVOTE:".toList

def pollLead : Text := "POLL:".toList

def newMessageId (micros : Int64) (random : List (Fin 16)) : Text :=
  DartInt.print micros ++ '-' :: random.map fun d : Fin 16 => Nat.digitChar d.val

def mentionedIds (isGroup : Bool) (ids : List Text) : List Text :=
  if isGroup then
    (LinkedSet.ofList ((ids.map fun id => trim (id.filter fun c => !(c == ',') && !(c == ':'))).filter fun id =>
      decide (id ≠ []))).elems
  else []

def buildEnvelopeContent (messageId : Text) (request : SendMessageRequest) (isGroup : Bool)
    (expiresAt : Option Int64) : Text :=
  let reply := match request.replyToId with
    | none => []
    | some replyToId => replyLead ++ replyToId ++ [':']
  let expiry := match expiresAt with
    | none => []
    | some expiresAt => expiryLead ++ DartInt.print expiresAt ++ [':']
  let viewOnce := if request.isViewOnce then viewOnceLead else []
  let mentions := Csv.join ',' (mentionedIds isGroup request.mentionedUserIds)
  let mentionPart := if mentions = [] then [] else mentionLead ++ mentions ++ [':']
  let type := if request.contentType = .poll then pollLead else []
  msgIdLead ++ messageId ++ [':'] ++ reply ++ expiry ++ viewOnce ++ mentionPart ++ type ++ request.content

def consumeValue (input lead : Text) : Option Text × Text :=
  if lead <+: input then
    let rest := input.drop lead.length
    if ':' ∈ rest then (some (rest.takeWhile (· ≠ ':')), (rest.dropWhile (· ≠ ':')).tail) else (none, input)
  else (none, input)

def pollVote (remaining : Text) : Option PollVoteReference :=
  if pollVoteLead <+: remaining then
    let parts := (remaining.drop pollVoteLead.length).splitOn ':'
    match parts with
    | first :: second :: _ => (DartInt.tryParse second).map fun option => ⟨first, option⟩
    | _ => none
  else none

def parseMentions (value : Text) : List Text := ((value.splitOn ',').map trim).filter fun id => decide (id ≠ [])

def parseMessageEnvelope (content : Text) : ParsedMessageEnvelope :=
  let message := consumeValue content msgIdLead
  let reply := consumeValue message.2 replyLead
  let expiry := consumeValue reply.2 expiryLead
  let absoluteExpiresAt := DartInt.tryParse (expiry.1.getD [])
  let isViewOnce := decide (viewOnceLead <+: expiry.2)
  let remaining := if viewOnceLead <+: expiry.2 then expiry.2.drop viewOnceLead.length else expiry.2
  let mention := consumeValue remaining mentionLead
  let mentionedUserIds := (mention.1.map parseMentions).getD []
  match pollVote mention.2 with
  | some vote =>
    { messageId := message.1, replyToId := none, content := [], contentType := .text, pollVote := some vote,
      absoluteExpiresAt, isViewOnce, mentionedUserIds }
  | none =>
    let isPoll := decide (pollLead <+: mention.2)
    { messageId := message.1, replyToId := reply.1
      content := if isPoll then mention.2.drop pollLead.length else mention.2
      contentType := if isPoll then .poll else .text
      pollVote := none, absoluteExpiresAt, isViewOnce, mentionedUserIds }

end Envelope
end SecureChat
