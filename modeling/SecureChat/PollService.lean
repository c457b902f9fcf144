import SecureChat.AsyncTasks
import SecureChat.DartInt
import SecureChat.Json
import SecureChat.MessageEnvelope
/-!
# PollService — polls and the votes that change them

A poll is a message whose content is a document with the question, the options and the voters of each.  A vote of the
local user reads it, sends the vote to the others and writes the whole document back; if it could not be sent to all of
them it writes back the one that it had read.  A vote that arrives reads and writes the document too.

The content of a message is known here by the document that it decodes to; one that decodes to none is refused like
`null`.  Left out: the texts and the encryption of what is sent, and the groups' keys.
-/
namespace SecureChat
namespace Polls

open Async
open GroupControl (Text trim)
open Envelope (StorageMessageContentType)
open Program (get modify)
open scoped GroupControl

def validPoll (question : Text) (options : List Text) : Bool :=
  (trim question ≠ [] && GroupControl.length (trim question) ≤ 500) &&
    (2 ≤ options.length && options.length ≤ 4) &&
    options.all fun option => trim option ≠ [] && GroupControl.length option ≤ 200

structure PollData where
  question : Text
  options : List Text
  singleChoice : Bool
  votes : Table ℤ (LinkedSet Text)
  valid : validPoll question options = true

namespace PollData

def make (question : Text) (options : List Text) (singleChoice : Bool) (votes : Table ℤ (LinkedSet Text)) :
    Option PollData :=
  if h : validPoll question options = true then some ⟨question, options, singleChoice, votes, h⟩ else none

def voted (p : PollData) (user : Text) (i : ℤ) : Bool := decide (user ∈ (p.votes.get i).getD .empty)

/-- `(json['options'] as List?)?.whereType<String>()`, trimmed. -/
def optionsOf : Json → Option (List Text)
  | .null => some []
  | .arr items => some ((items.filterMap Json.asString).map trim)
  | _ => none

def readVoters (count : ℕ) (entry : String × Json) : Option (ℤ × LinkedSet Text) :=
  match (DartInt.tryParse entry.1.toList).map Int64.toInt, entry.2 with
  | some index, .arr items =>
    if 0 ≤ index ∧ index < count then
      some (index, .ofList ((items.filterMap Json.asString).filter fun id => decide (id ≠ [])))
    else none
  | _, _ => none

def votesOf (count : ℕ) : Json → Table ℤ (LinkedSet Text)
  | .obj fields => .ofList (fields.filterMap (readVoters count))
  | _ => .empty

def parse (raw : Json) : Option PollData := do
  let json ← Json.asMap raw
  let options ← optionsOf (Json.get json "options")
  let question ← Json.asString? (Json.get json "question")
  let singleChoice ← Json.asBool? (Json.get json "singleChoice")
  make (question.getD []) options (singleChoice.getD true) (votesOf options.length (Json.get json "votes"))

def someVoters (voters : LinkedSet Text) : Option (LinkedSet Text) := if voters.elems.isEmpty then none else some voters

def toggled (p : PollData) (userId : Text) (optionIndex : ℤ) : Table ℤ (LinkedSet Text) :=
  let wasSelected := p.voted userId optionIndex
  let others := if p.singleChoice then p.votes.filterMapValues fun voters => some (voters.erase userId) else p.votes
  let selected := (others.get optionIndex).getD .empty
  (others.assign optionIndex (if wasSelected then selected else selected.insert userId)).filterMapValues someVoters

def toggleVote (p : PollData) (userId : Text) (optionIndex : ℤ) : Option PollData :=
  if userId = [] ∨ optionIndex < 0 ∨ p.options.length ≤ optionIndex then none
  else some { p with votes := p.toggled userId optionIndex }

/-- `'${entry.key}': entry.value` -/
def writeVoters (entry : ℤ × LinkedSet Text) : String × Json :=
  (String.ofList (DartInt.print (Int64.ofInt entry.1)), Json.strings entry.2.elems)

def encode (p : PollData) : Json := .obj [
  ("question", .str (trim p.question)),
  ("options", Json.strings (p.options.map trim)),
  ("singleChoice", .bool p.singleChoice),
  ("votes", .obj (p.votes.entries.map writeVoters))]

end PollData

structure Message where
  conversationId : Text
  contentType : StorageMessageContentType
  content : Json

structure Conversation where
  peerId : Text
  isGroup : Bool := false
  groupMembers : Option Text := none

def Conversation.members (c : Conversation) : List Text :=
  (LinkedSet.ofList (((((c.groupMembers.getD []).splitOn ',').map trim).filter fun member =>
    decide (member ≠ [])))).elems

/-- A vote that was written, with the number of writes of its poll before. -/
structure Vote where
  message : Text
  user : Text
  optionIndex : ℤ
  version : ℕ
deriving DecidableEq

/-- The messages.  The last two fields are history: how often each message was written, and the votes that were written,
in this order, without those that did not succeed. -/
structure Device where
  messages : Text → Option Message
  writes : Text → ℕ := fun _ => 0
  cast : List Vote := []

namespace Device

def updateContent (id : Text) (content : Json) (d : Device) : Device where
  messages := Function.update d.messages id
    ((d.messages id).map fun m => { m with content := content, contentType := .poll })
  writes := Function.update d.writes id (d.writes id + 1)
  cast := d.cast

def setCast (cast : List Vote) (d : Device) : Device := { d with cast := cast }

def castVote (vote : Vote) (content : Json) (d : Device) : Device :=
  (d.updateContent vote.message content).setCast (d.cast ++ [vote])

def withdraw (vote : Vote) (d : Device) : Device := d.setCast (d.cast.filter (· ≠ vote))

end Device

structure Reading where
  message : Text
  version : ℕ
  found : Option Message

/-- What is awaited before a vote is written. -/
inductive Prepare
  | getById
  | getConversation
  | ensureConnected
  | distributeGroupSenderKey
  | encryptGroup
  | encryptDirect
deriving DecidableEq

inductive Wait where
  | preparing (reading : Reading) (step : Prepare)
  | updateContent (reading : Reading) (user : Text) (optionIndex : ℤ)
  | send (reading : Reading) (vote : Vote)
  | restore (reading : Reading) (vote : Vote)

/-- Whether a step has succeeded; a lookup of the conversation finds it as it is then. -/
structure Answer where
  yes : Bool := true
  conversation : Option Conversation := none

abbrev Call (α : Type) := Program Answer Wait Device Unit α

def on (w : Wait) : Call Answer := Program.wait () w

def writeVote (reading : Reading) (user : Text) (optionIndex : ℤ) (content : Json) : Call Vote :=
  .await (.updateContent reading user optionIndex)
    (fun _ d => d.castVote ⟨reading.message, user, optionIndex, d.writes reading.message⟩ content)
    (fun _ d => .pure ⟨reading.message, user, optionIndex, d.writes reading.message⟩) (.throw ())

section Voting

variable (reading : Reading)

def encryptAll : List Text → Call Unit
  | [] => pure ()
  | _ :: rest => do
    let _ ← on (.preparing reading .encryptDirect)
    encryptAll rest

def signals (userId : Text) (conversation : Conversation) : Call (Option (List Text)) := do
  let connected ← on (.preparing reading .ensureConnected)
  if ¬ connected.yes then pure none
  else if conversation.isGroup then
    let members := conversation.members.filter (· ≠ userId)
    if members = [] then pure none
    else do
      let _ ← on (.preparing reading .distributeGroupSenderKey)
      let _ ← on (.preparing reading .encryptGroup)
      encryptAll reading members
      pure (some members)
  else do
    encryptAll reading [conversation.peerId]
    pure (some [conversation.peerId])

/-- A round, in which the vote is sent to each; it goes on after one that was not sent. -/
def sendAll (vote : Vote) : List Text → Bool → Call Bool
  | [], allSent => pure allSent
  | _ :: rest, allSent => do
    let sent ← on (.send reading vote)
    sendAll vote rest (allSent && sent.yes)

def sendRounds (vote : Vote) (recipients : List Text) : ℕ → Call Bool
  | 0 => pure false
  | attempts + 1 => do
    let allSent ← sendAll reading vote recipients true
    if allSent then pure true else sendRounds vote recipients attempts

/-- The vote is written, sent and, if it could not be sent, taken back.  A vote that ends with an exception has not
succeeded either. -/
def deliver (userId : Text) (optionIndex : ℤ) (poll updated : PollData) (recipients : List Text) : Call Bool := do
  let vote ← writeVote reading userId optionIndex updated.encode
  let result ← (sendRounds reading vote recipients 3).attempt
  match result with
  | .ok true => pure true
  | .ok false =>
    .await (.restore reading vote) (fun _ d => (d.updateContent reading.message poll.encode).withdraw vote)
      (fun _ _ => .pure false) do
        modify (·.withdraw vote)
        .throw ()
  | .error _ => do
    modify (·.withdraw vote)
    .throw ()

/-- `vote`, of the user who is logged in. -/
def vote (userId : Option Text) (pollMessageId : Text) (optionIndex : ℤ) : Call Bool :=
  match userId.filter (· ≠ []) with
  | none => pure false
  | some user => do
    let d ← get
    let reading : Reading := ⟨pollMessageId, d.writes pollMessageId, d.messages pollMessageId⟩
    let _ ← on (.preparing reading .getById)
    match reading.found.filter (·.contentType = .poll) with
    | none => pure false
    | some message =>
      match PollData.parse message.content with
      | none => .throw ()
      | some poll =>
        match poll.toggleVote user optionIndex with
        | none => .throw ()
        | some updated => do
          let found ← on (.preparing reading .getConversation)
          match found.conversation with
          | none => pure false
          | some conversation => do
            let prepared ← (signals reading user conversation).attempt
            match prepared with
            | .ok (some recipients) => deliver reading user optionIndex poll updated recipients
            | _ => pure false

end Voting

section Incoming

def _senderAllowed (localUserId : Option Text) (conversation : Option Conversation) (senderId : Text) : Bool :=
  match conversation, localUserId with
  | some c, some userId =>
    if senderId = [] ∨ senderId = userId then false
    else if ¬ c.isGroup then decide (c.peerId = senderId)
    else decide (userId ∈ Csv.csv ',' c.groupMembers) && decide (senderId ∈ Csv.csv ',' c.groupMembers)
  | _, _ => false

/-- `_applyPollVote`; the local user is the one who is logged in when the conversation is found. -/
def _applyPollVote (localUserId : Option Text) (pollMessageId : Text) (optionIndex : ℤ)
    (senderId authenticatedConversationId : Text) : Call Unit := do
  let d ← get
  let reading : Reading := ⟨pollMessageId, d.writes pollMessageId, d.messages pollMessageId⟩
  let _ ← on (.preparing reading .getById)
  match reading.found with
  | none => pure ()
  | some message => do
    let found ← on (.preparing reading .getConversation)
    if message.conversationId ≠ authenticatedConversationId ∨ message.contentType ≠ .poll ∨
        ¬ _senderAllowed localUserId found.conversation senderId then pure ()
    else
      match (PollData.parse message.content).bind fun poll => poll.toggleVote senderId optionIndex with
      | none => pure ()
      | some updated => do
        let _ ← (writeVote reading senderId optionIndex updated.encode).attempt
        pure ()

end Incoming

inductive Event where
  | vote (userId : Option Text) (pollMessageId : Text) (optionIndex : ℤ)
  | incoming (localUserId : Option Text) (pollMessageId : Text) (optionIndex : ℤ)
      (senderId authenticatedConversationId : Text)

def program : Event → Call Unit
  | .vote userId pollMessageId optionIndex => do
    let _ ← vote userId pollMessageId optionIndex
    pure ()
  | .incoming localUserId pollMessageId optionIndex senderId authenticatedConversationId =>
    _applyPollVote localUserId pollMessageId optionIndex senderId authenticatedConversationId

def tasks : Tasks Answer Wait Device Unit Event := ⟨program, fun _ _ _ => true⟩

abbrev State := Tasks.State Answer Wait Device Unit Event

def start (messages : Text → Option Message) : Device := { messages := messages }

/-! ## A poll -/

def samplePoll : PollData where
  question := "Lunch?".toList
  options := ["yes".toList, "no".toList]
  singleChoice := true
  votes := .empty
  valid := by decide

def sampleMessages (id : Text) : Option Message :=
  if id = "m".toList then some ⟨"c".toList, .poll, samplePoll.encode⟩ else none

example : (samplePoll.toggleVote "veli".toList 1).map (·.voted "veli".toList 1) = some true := by decide

def go (i : ℕ) : Pool.Label Event (Option Answer) := .step i (some {})

def refuse (i : ℕ) : Pool.Label Event (Option Answer) := .step i (some { yes := false })

def talk (i : ℕ) : Pool.Label Event (Option Answer) :=
    .step i (some { conversation := some { peerId := "veli".toList } })

end Polls
end SecureChat
