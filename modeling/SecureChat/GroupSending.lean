import SecureChat.AsyncTasks
import SecureChat.GroupControl
/-!
# GroupSending — group sends beside removals and resets

A group send reads the roster once.  It then sends the CREATE control to every recipient, distributes the sender key,
encrypts the message for the group, wraps the ciphertext for each recipient, and hands the wrapped envelopes over.  All
of these steps are awaited; meanwhile other sends, the key rotation, a local removal or the control of another admin
may go on.  What `VodozemacCryptoService` does under the lock of a group is one step here.

`Phone` is the device of `GroupControl` with the message index of each Megolm session, and with a history: what was
handed over and taken (`outbox`), when a session was created, and since when a member is off the roster.

Left out: the send to a single peer, the texts of the messages, and the envelopes that the management of a group and
the controls send themselves.
-/
namespace SecureChat
namespace GroupSending

open Async
open scoped GroupControl
open GroupControl (Text ConversationEntity GroupNotificationSignal Action)
open Program (modify catching whenever)

structure SenderKey where
  sessionId : ℕ
  index : ℕ
deriving DecidableEq

structure GroupCiphertext where
  sessionId : ℕ
  index : ℕ
deriving DecidableEq

def SenderKey.Opens (key : SenderKey) (message : GroupCiphertext) : Prop :=
  key.sessionId = message.sessionId ∧ key.index ≤ message.index

instance (key : SenderKey) (message : GroupCiphertext) : Decidable (key.Opens message) :=
  inferInstanceAs (Decidable (_ ∧ _))

inductive Plaintext
  | control (action : Action) (memberIds : List Text)
  | distribution (key : SenderKey)
  | route (message : GroupCiphertext)
deriving DecidableEq

/-- An envelope for one recipient; `removedAt` is since when the recipient was off the roster as it was encrypted. -/
structure Envelope where
  groupId : Text
  recipientId : Text
  plaintext : Plaintext
  removedAt : Option ℕ
deriving DecidableEq

/-- What happened to an envelope: it was handed over, while its recipient was off the roster since `removedAt`, or it
was taken. -/
inductive Event
  | sent (envelope : Envelope) (removedAt : Option ℕ)
  | accepted (envelope : Envelope)
deriving DecidableEq

structure PendingSenderKey where
  key : SenderKey
  delivered : LinkedSet Text

structure Phone where
  device : GroupControl.Device
  messageIndex : ℕ → ℕ := fun _ => 0
  pendingRotations : Table Text PendingSenderKey := .empty
  outbox : List Event := []
  createdAt : ℕ → ℕ := fun _ => 0
  removedAt : Text → Text → Option ℕ := fun _ _ => none
  now : ℕ := 0

def _members (csv : Option Text) : List Text :=
  (LinkedSet.ofList (((Csv.pieces ',' (csv.getD [])).map GroupControl.trim).filter fun id => decide (id ≠ []))).elems

namespace Phone

variable (s : Phone) (groupId : Text)

def roster : List Text := _members ((s.device.conversations.get groupId).bind fun c => c.groupMembers)

def updateGroupMembers (ids : List Text) : Phone :=
  let next := { s with device := s.device.updateGroupMembers groupId ids, now := s.now + 1 }
  { next with
    removedAt := fun k id =>
      if k ≠ groupId then s.removedAt k id
      else if id ∈ next.roster groupId then none
      else if id ∈ s.roster groupId then some next.now
      else s.removedAt k id }

def updateDevice (f : GroupControl.Device → GroupControl.Device) : Phone := { s with device := f s.device }

def withGroupSession : Phone × ℕ :=
  let sessions := s.device.groupSessions.withGroupSession groupId
  ({ s with
     device := { s.device with groupSessions := sessions.1 }
     createdAt := if (s.device.groupSessions.stored.get groupId).isSome then s.createdAt
       else Function.update s.createdAt sessions.2 s.now }, sessions.2)

def createSenderKeyDistribution : Phone × SenderKey :=
  let opened := s.withGroupSession groupId
  (opened.1, ⟨opened.2, opened.1.messageIndex opened.2⟩)

def encryptGroup : Phone × GroupCiphertext :=
  let opened := s.withGroupSession groupId
  ({ opened.1 with messageIndex := Function.update opened.1.messageIndex opened.2 (opened.1.messageIndex opened.2 + 1) },
    ⟨opened.2, opened.1.messageIndex opened.2⟩)

def resetLocalSenderKey : Phone := s.updateDevice fun d => d.resetGroupSession groupId

def putPending (pending : PendingSenderKey) : Phone :=
  { s with pendingRotations := s.pendingRotations.put groupId pending }

def deletePending : Phone := { s with pendingRotations := s.pendingRotations.remove groupId }

def handOver (envelope : Envelope) : Phone :=
  { s with outbox := .sent envelope (s.removedAt envelope.groupId envelope.recipientId) :: s.outbox }

def accept (envelope : Envelope) : Phone := { s with outbox := .accepted envelope :: s.outbox }

end Phone

inductive Op
  | getById | insertMessage | updateLastMessage | ensureConnected | groupRoutingToken | padGroup | deleteForMessage
  | updateStatus | reportFailure | delay | updateGroupAdmins | updateArchived | systemMessage | deleteSenderKeys
  | removals | fanout | getPending | putPending | deletePending
  | encryptDirect (recipientId : Text) (plaintext : Plaintext)
  | send (envelope : Envelope)
  | createSenderKeyDistribution
  | encryptGroup
  | resetLocalSenderKey
  | updateGroupMembers (ids : List Text)
deriving DecidableEq

/-- How far a send or a rotation has come: whom it has still to encrypt something for, and what it relies on. -/
inductive Stage
  | outside
  | preparing (recipients : List Text)
  | distributing (key : SenderKey) (recipients served : List Text)
  | routing (message : GroupCiphertext) (routed : List Envelope) (left : List Text)
  | fanningOut (signals : List Envelope)
  | rotating (left : List Text)

def Stage.pending : Stage → List Text
  | .outside => []
  | .preparing recipients => recipients
  | .distributing _ recipients _ => recipients
  | .routing _ _ left => left
  | .fanningOut _ => []
  | .rotating left => left

/-- An awaited step, with the group it is about and how far its call has come. -/
structure Wait where
  op : Op
  groupId : Text
  stage : Stage

inductive Error
  | stepFailed | stateError | notAGroup

abbrev Prog := Program Bool Wait Phone Error

def transact {α : Type} (w : Wait) (f : Phone → Phone × α) : Prog α :=
  .await w (fun _ s => (f s).1) (fun _ s => .pure (f s).2) (.throw .stepFailed)

def perform (w : Wait) (f : Phone → Phone) : Prog Unit := transact w fun s => (f s, ())

def query {α : Type} (w : Wait) (f : Phone → α) : Prog α := transact w fun s => (s, f s)

def idle (w : Wait) : Prog Unit := transact w fun s => (s, ())

def sessionUserId : Prog (Option Text) := do
  let s ← Program.get
  return s.device.userId

def getById (groupId : Text) : Prog (Option ConversationEntity) :=
  query ⟨.getById, groupId, .outside⟩ fun s => s.device.conversations.get groupId

def encryptDirect (groupId recipientId : Text) (plaintext : Plaintext) (stage : Stage) : Prog Envelope :=
  query ⟨.encryptDirect recipientId plaintext, groupId, stage⟩ fun s =>
    ⟨groupId, recipientId, plaintext, s.removedAt groupId recipientId⟩

def sendSignal (envelope : Envelope) (stage : Stage) : Prog Bool := do
  modify fun s => s.handOver envelope
  .await ⟨.send envelope, envelope.groupId, stage⟩ (fun sent s => if sent then s.accept envelope else s)
    (fun sent _ => .pure sent) (.throw .stepFailed)

def targets (senderId : Text) (ids : List Text) : List Text :=
  (LinkedSet.ofList (ids.filter fun id => decide (id ≠ senderId))).elems

def controlsTo (groupId : Text) (payload : Plaintext) (recipients : List Text) : List Text → Prog Unit
  | [] => pure ()
  | recipientId :: rest => do
    let envelope ← encryptDirect groupId recipientId payload (.preparing recipients)
    let delivered ← sendSignal envelope (.preparing recipients)
    if delivered then controlsTo groupId payload recipients rest else .throw .stateError

/-- `PrivateGroupControlSender.send`. -/
def sendControl (senderId groupId : Text) (action : Action) (memberIds recipients : List Text) : Prog Unit := do
  let members := (LinkedSet.ofList (memberIds.filter fun id => decide (id ≠ []))).elems
  let targets := targets senderId (recipients.filter fun id => decide (id ≠ []))
  if 256 < members.length then .throw .stateError
  else do
    idle ⟨.groupRoutingToken, groupId, .preparing targets⟩
    controlsTo groupId (.control action members) targets targets

def keyTo (groupId : Text) (key : SenderKey) (recipients : List Text) : List Text → List Text → Prog Unit
  | _, [] => pure ()
  | served, member :: rest => do
    let encrypted ← encryptDirect groupId member (.distribution key) (.distributing key recipients served)
    let sent ← sendSignal encrypted (.distributing key recipients served)
    if sent then keyTo groupId key recipients (member :: served) rest else .throw .stateError

def distributeGroupSenderKey (senderId groupId : Text) (members : List Text) : Prog SenderKey := do
  let targets := targets senderId members
  let key ← transact ⟨.createSenderKeyDistribution, groupId, .preparing targets⟩ fun s =>
    s.createSenderKeyDistribution groupId
  keyTo groupId key targets [] targets
  return key

/-- `encryptGroupWire`: the padding policy is asked first, the routing token last. -/
def encryptGroupWire (groupId : Text) (key : SenderKey) (recipients : List Text) : Prog GroupCiphertext := do
  idle ⟨.padGroup, groupId, .distributing key recipients recipients⟩
  let message ← transact ⟨.encryptGroup, groupId, .distributing key recipients recipients⟩ fun s =>
    s.encryptGroup groupId
  idle ⟨.groupRoutingToken, groupId, .routing message [] recipients⟩
  return message

def routeTo (groupId : Text) (message : GroupCiphertext) : List Envelope → List Text → Prog (List Envelope)
  | routed, [] => pure routed
  | routed, recipientId :: rest => do
    let envelope ← encryptDirect groupId recipientId (.route message) (.routing message routed (recipientId :: rest))
    routeTo groupId message (routed ++ [envelope]) rest

def prepare (senderId groupId : Text) (members recipients : List Text) : Prog (List Envelope) := do
  sendControl senderId groupId .CREATE (senderId :: members) members
  let key ← distributeGroupSenderKey senderId groupId members
  let wireEnvelope ← encryptGroupWire groupId key recipients
  if recipients = [] then .throw .stateError else routeTo groupId wireEnvelope [] recipients

def attemptAll (signals : List Envelope) : Bool → List Envelope → Prog Bool
  | allSent, [] => pure allSent
  | allSent, signal :: rest => do
    let sent ← sendSignal signal (.fanningOut signals)
    attemptAll signals (allSent && sent) rest

inductive SendMessageOutcome
  | sent | deliveryFailed | encryptionFailed

def conclude (groupId : Text) (outcome : SendMessageOutcome) : Prog SendMessageOutcome := do
  idle ⟨.updateStatus, groupId, .outside⟩
  return outcome

def attempts (groupId : Text) (signals : List Envelope) : ℕ → Prog SendMessageOutcome
  | 0 => do
    let allSent ← attemptAll signals true signals
    if allSent then conclude groupId .sent else conclude groupId .deliveryFailed
  | left + 1 => do
    let allSent ← attemptAll signals true signals
    if allSent then conclude groupId .sent
    else do
      idle ⟨.delay, groupId, .fanningOut signals⟩
      idle ⟨.ensureConnected, groupId, .fanningOut signals⟩
      attempts groupId signals left

/-- `SendMessageUseCase.call` for a group. -/
def call (maxRetryCount : ℕ) (groupId : Text) : Prog SendMessageOutcome := do
  match ← sessionUserId with
  | none => .throw .stateError
  | some senderId =>
    if senderId = [] then .throw .stateError
    else do
      match (← getById groupId).filter fun c => c.isGroup with
      | none => .throw .notAGroup
      | some conversation =>
        let members := _members conversation.groupMembers
        if ¬ senderId ∈ members then return .deliveryFailed
        else do
          let recipients := members.filter fun id => decide (id ≠ senderId)
          idle ⟨.insertMessage, groupId, .preparing recipients⟩
          idle ⟨.updateLastMessage, groupId, .preparing recipients⟩
          idle ⟨.ensureConnected, groupId, .preparing recipients⟩
          match ← (prepare senderId groupId members recipients).attempt with
          | .ok signals => attempts groupId signals maxRetryCount
          | .error _ =>
            idle ⟨.deleteForMessage, groupId, .outside⟩
            idle ⟨.updateStatus, groupId, .outside⟩
            (idle ⟨.reportFailure, groupId, .outside⟩).catching (pure ())
            return .encryptionFailed

def rotateTo (groupId : Text) (pending : PendingSenderKey) : List Text → Prog Bool
  | [] => do
    perform ⟨.deletePending, groupId, .outside⟩ fun s => s.deletePending groupId
    return true
  | member :: rest =>
    if member ∈ pending.delivered then rotateTo groupId pending rest
    else do
      let next := { pending with delivered := pending.delivered.insert member }
      let delivered ← (show Prog Bool from do
        let envelope ← encryptDirect groupId member (.distribution pending.key) (.rotating (member :: rest))
        let sent ← sendSignal envelope (.rotating (member :: rest))
        whenever (sent = true) (perform ⟨.putPending, groupId, .rotating (member :: rest)⟩ fun s =>
          s.putPending groupId next)
        return sent).attempt
      match delivered with
      | .ok true => rotateTo groupId next rest
      | .ok false | .error _ => return false

def _newPendingKey (groupId : Text) (members : List Text) : Prog PendingSenderKey := do
  perform ⟨.resetLocalSenderKey, groupId, .rotating members⟩ fun s => s.resetLocalSenderKey groupId
  let key ← transact ⟨.createSenderKeyDistribution, groupId, .rotating members⟩ fun s =>
    s.createSenderKeyDistribution groupId
  return { key := key, delivered := .empty }

/-- `SenderKeyRotationService.rotate`. -/
def rotate (groupId : Text) : Prog Bool := do
  let senderId ← sessionUserId
  let group ← getById groupId
  match senderId, group.filter fun c => c.isGroup with
  | some senderId, some group =>
    let members := (_members group.groupMembers).filter fun id => decide (id ≠ senderId)
    let existing ← query ⟨.getPending, groupId, .rotating members⟩ fun s => s.pendingRotations.get groupId
    let pending ← match existing with
      | some pending => pure pending
      | none => _newPendingKey groupId members
    perform ⟨.putPending, groupId, .rotating members⟩ fun s => s.putPending groupId pending
    rotateTo groupId pending members
  | _, _ => return false

def _split (value : Option Text) : List Text := Csv.pieces ',' (value.getD [])

structure AdminState where
  userId : Text
  members : List Text
  admins : List Text

def _adminState (groupId : Text) : Prog AdminState := do
  match ← sessionUserId with
  | none => .throw .stateError
  | some userId =>
    match (← getById groupId).filter fun c => c.isGroup with
    | none => .throw .stateError
    | some group =>
      let members := _split group.groupMembers
      let storedAdmins := _split group.groupAdmins
      let admins := if storedAdmins = [] then members.take 1 else storedAdmins
      if userId ∈ members ∧ userId ∈ admins then return { userId := userId, members := members, admins := admins }
      else .throw .stateError

def writeMembers (groupId : Text) (ids : List Text) : Prog Unit :=
  perform ⟨.updateGroupMembers ids, groupId, .outside⟩ fun s => s.updateGroupMembers groupId ids

def writeAdmins (groupId : Text) (ids : List Text) : Prog Unit :=
  perform ⟨.updateGroupAdmins, groupId, .outside⟩ fun s => s.updateDevice fun d => d.updateGroupAdmins groupId ids

def recordRemoval (groupId memberId : Text) : Prog Unit :=
  perform ⟨.removals, groupId, .outside⟩ fun s => s.updateDevice fun d => d.record groupId memberId

def resetLocalSenderKey (groupId : Text) : Prog Unit :=
  perform ⟨.resetLocalSenderKey, groupId, .outside⟩ fun s => s.resetLocalSenderKey groupId

/-- `GroupManagementService.removeMember`. -/
def removeMember (groupId memberId : Text) : Prog Unit := do
  let state ← _adminState groupId
  if memberId = state.userId ∨ ¬ memberId ∈ state.members then .throw .stateError
  else do
    writeMembers groupId (state.members.filter fun id => decide (id ≠ memberId))
    whenever (memberId ∈ state.admins) (writeAdmins groupId (state.admins.filter fun id => decide (id ≠ memberId)))
    recordRemoval groupId memberId
    resetLocalSenderKey groupId
    idle ⟨.fanout, groupId, .outside⟩

def clearRemovals (groupId : Text) : List Text → Prog Unit
  | [] => pure ()
  | member :: rest => do
    perform ⟨.removals, groupId, .outside⟩ fun s => s.updateDevice fun d => d.clear groupId member
    clearRemovals groupId rest

def maximumMembers : ℕ := 256

/-- `GroupManagementService.addMembers`. -/
def addMembers (groupId : Text) (newMemberIds : List Text) : Prog Unit := do
  let state ← _adminState groupId
  let additions := (LinkedSet.ofList (newMemberIds.filter fun id => decide (id ≠ [] ∧ ¬ id ∈ state.members))).elems
  if additions = [] ∨ maximumMembers < state.members.length + additions.length then .throw .stateError
  else do
    writeMembers groupId (state.members ++ additions)
    clearRemovals groupId additions
    idle ⟨.fanout, groupId, .outside⟩

def _rotateOwnGroupKey (groupId : Text) : Prog Unit := do
  match ← sessionUserId with
  | none => return ()
  | some _ => resetLocalSenderKey groupId

def removedFrom (groupId : Text) : Prog (List Text) :=
  query ⟨.removals, groupId, .outside⟩ fun s => s.device.removedFrom groupId

def mergeGroup (signal : GroupNotificationSignal) (group : ConversationEntity) : Prog Unit := do
  if ¬ signal.senderId ∈ group.effectiveAdmins then return ()
  else do
    let removed ← removedFrom signal.groupId
    writeMembers signal.groupId
      (LinkedSet.ofList (group.members.elems ++ signal.groupMembers.filter fun id => !removed.contains id)).elems

def addMember (signal : GroupNotificationSignal) : Prog Unit := do
  clearRemovals signal.groupId signal.targetMemberId.toList
  let removed ← removedFrom signal.groupId
  writeMembers signal.groupId (signal.groupMembers.filter fun id => !removed.contains id)
  idle ⟨.systemMessage, signal.groupId, .outside⟩

def forget (groupId memberId : Text) : Prog Unit := do
  idle ⟨.deleteSenderKeys, groupId, .outside⟩
  recordRemoval groupId memberId
  _rotateOwnGroupKey groupId

def memberRemoved (signal : GroupNotificationSignal) (group : ConversationEntity) : Prog Unit := do
  match signal.targetMemberId with
  | none => return ()
  | some target =>
    let localUserId ← sessionUserId
    writeMembers signal.groupId signal.groupMembers
    whenever (target ∈ group.admins)
      (writeAdmins signal.groupId (group.admins.elems.filter fun id => decide (id ≠ target)))
    if some target = localUserId then do
      perform ⟨.updateArchived, signal.groupId, .outside⟩ fun s =>
        s.updateDevice fun d => d.patch signal.groupId fun c => { c with isArchived := true }
      idle ⟨.systemMessage, signal.groupId, .outside⟩
    else do
      idle ⟨.systemMessage, signal.groupId, .outside⟩
      forget signal.groupId target

def memberLeft (signal : GroupNotificationSignal) (group : ConversationEntity) : Prog Unit := do
  if ¬ signal.senderId ∈ group.members then return ()
  else do
    writeMembers signal.groupId (group.members.elems.filter fun id => decide (id ≠ signal.senderId))
    writeAdmins signal.groupId (group.admins.elems.filter fun id => decide (id ≠ signal.senderId))
    forget signal.groupId signal.senderId
    idle ⟨.systemMessage, signal.groupId, .outside⟩

def _groupNotification (signal : GroupNotificationSignal) : Prog Unit := do
  match ← getById signal.groupId with
  | none => return ()
  | some group =>
    match signal.action with
    | .CREATE => mergeGroup signal group
    | .ADD_MEMBER => whenever (GroupControl.Device.admits signal group = true) (addMember signal)
    | .REMOVE_MEMBER => whenever (GroupControl.Device.admits signal group = true) (memberRemoved signal group)
    | .LEAVE_GROUP => whenever (GroupControl.Device.admits signal group = true) (memberLeft signal group)
    | _ => return ()

inductive Call
  | send (groupId : Text)
  | rotate (groupId : Text)
  | removeMember (groupId memberId : Text)
  | addMembers (groupId : Text) (newMemberIds : List Text)
  | control (signal : GroupNotificationSignal)

def program (maxRetryCount : ℕ) : Call → Prog Unit
  | .send groupId => do
    let _ ← call maxRetryCount groupId
    return ()
  | .rotate groupId => do
    let _ ← rotate groupId
    return ()
  | .removeMember groupId memberId => removeMember groupId memberId
  | .addMembers groupId ids => addMembers groupId ids
  | .control signal => _groupNotification signal

def tasks (maxRetryCount : ℕ) : Tasks Bool Wait Phone Error Call where
  program := program maxRetryCount
  ready _ _ _ := true

end GroupSending
end SecureChat
