import SecureChat.CallControls
import SecureChat.CallMediaKeys
/-!
# GroupCalls — the handlers of a group call

The coordinator's side (invitations, join requests, departures, key rotation) and the member's side (an invitation, the
acceptance, the peers it is told of, a new coordinator).  All signals of a group call go through `queueGroupSignal`; an
internal call that is awaited gives the event loop a turn before its caller goes on (`awaited`).
-/
namespace SecureChat
namespace Calls

open Async
open GroupControl (Text)
open Program (get modify whenever)

/-- The caller of an asynchronous function goes on in a later turn of the event loop, whatever comes of the call. -/
def awaited {α : Type} (p : Call α) : Call α := do
  let result ← p.attempt
  let _ ← on .resumed
  match result with
  | .ok a => pure a
  | .error _ => fail

/-- The candidates that came too early for a peer are given to its engine, in order; a refused one is buffered again. -/
def replayGroupCandidates (peerId : Text) : List IceCandidateSignal → Call Unit
  | [] => pure ()
  | signal :: rest => do
    let result ← (on (.addGroupIceCandidate signal)).attempt
    match result with
    | .ok _ => replayGroupCandidates peerId rest
    | .error _ => do
      modify fun m => { m with
        pendingGroupIce := m.pendingGroupIce.assign peerId ((m.pendingGroupIce.get peerId).getD [] ++ [signal]) }
      replayGroupCandidates peerId rest

def replayGroupIce (peerId : Text) : Call Unit := do
  let m ← get
  modify fun m => { m with pendingGroupIce := m.pendingGroupIce.remove peerId }
  replayGroupCandidates peerId ((m.pendingGroupIce.get peerId).getD [])

section Device

variable (D : Device)

def offerToGroupPeer (peerId : Text) : Call Unit := do
  let m ← get
  match m.current with
  | none => pure ()
  | some session =>
    if ¬ D.hasGroupMedia ∨ ¬ m.isCurrentGroupCall session.callId ∨ ¬ m.groupMediaReady ∨
      peerId ∈ m.offeredGroupPeers then
      pure ()
    else do
      modify fun m => { m with offeredGroupPeers := m.offeredGroupPeers.insert peerId }
      let offer ← on (.createOffer peerId)
      let sent ← on (.sendOffer peerId offer.text)
      if sent.yes then replayGroupIce peerId else fail

def acceptGroupPeerOffer (peerId offerSdp : Text) : Call Unit := do
  let m ← get
  match m.current with
  | none => pure ()
  | some session =>
    if ¬ D.hasGroupMedia ∨ ¬ session.isGroupCall then pure ()
    else do
      modify fun m => { m with offeredGroupPeers := m.offeredGroupPeers.insert peerId }
      let answer ← on (.acceptOffer peerId offerSdp)
      let sent ← on (.sendAnswer peerId answer.text)
      if sent.yes then replayGroupIce peerId else fail

def announcePair (memberId peerId : Text) : Call Unit := do
  let first ← on (.sendMemberJoined memberId peerId)
  if ¬ first.yes then fail
  else do
    let second ← on (.sendMemberJoined peerId memberId)
    if ¬ second.yes then fail else pure ()

def announceMember (memberId : Text) : List Text → Call Unit
  | [] => pure ()
  | peerId :: rest => do
    whenever (peerId ≠ memberId) (announcePair memberId peerId)
    announceMember memberId rest

def connectNewGroupMember (memberId : Text) : Call Unit := do
  let m ← get
  match m.current with
  | none => pure ()
  | some session =>
    if ¬ m.isCurrentGroupCall session.callId ∨ ¬ D.hasGroupMedia ∨ memberId ∈ m.joinedGroupPeers then pure ()
    else do
      modify fun m => { m with joinedGroupPeers := m.joinedGroupPeers.insert memberId }
      let rotated ← awaited (rotateMediaKey D session.peerIds)
      if ¬ rotated then fail
      else do
        let m ← get
        announceMember memberId m.joinedGroupPeers.elems
        offerToGroupPeer D memberId

def removeGroupPeer (peerId : Text) : Call Unit := do
  let m ← get
  match m.current with
  | none => pure ()
  | some session =>
    if ¬ session.isGroupCall ∨ ¬ peerId ∈ session.peerIds then pure ()
    else do
      modify fun m => { m with
        joinedGroupPeers := m.joinedGroupPeers.erase peerId, offeredGroupPeers := m.offeredGroupPeers.erase peerId }
      let _ ← awaiting (writing session (.removePeer peerId) (.removePeer peerId))
      modify fun m => { m with
        pendingGroupOffers := m.pendingGroupOffers.remove peerId, pendingGroupIce := m.pendingGroupIce.remove peerId }
      setSession session (.removePeer peerId)
      let peers := session.peerIds.filter (· ≠ peerId)
      if peers = [] then finish .ended .hangup false
      else do
        let m ← get
        whenever m.isGroupCoordinator do
          let rotated ← awaited (rotateMediaKey D peers)
          whenever (¬ rotated) (finish .failed .hangup true)

def handleGroupMemberLeft (signal : GroupCallMemberLeftSignal) : Call Unit := do
  let m ← get
  whenever (some signal.groupId = m.currentGroupRoutingToken ∧
      m.current.any fun s => s.isGroupCall && s.callId = signal.groupCallId) do
    removeGroupPeer D signal.leftMemberId

def handleCoordinatorChanged (signal : GroupCallCoordinatorChangedSignal) : Call Unit := do
  let m ← get
  match m.current with
  | none => pure ()
  | some session =>
    if ¬ session.isGroupCall ∨ session.callId ≠ signal.groupCallId ∨
        some signal.groupId ≠ m.currentGroupRoutingToken then pure ()
    else do
      modify fun m => { m with isGroupCoordinator := signal.newCoordinatorId = D.userId }
      let change (name : Text) := Change.coordinator signal.newCoordinatorId name signal.previousCoordinatorId
      let name ← awaiting {
        op := .peerName (session.groupId.getD [])
        writes := fun a => some (session, change a.text) }
      setSession session (change name.text)
      let m ← get
      if m.isGroupCoordinator then do
        let rotated ← awaited (rotateMediaKey D (session.peerIds.filter (· ≠ signal.previousCoordinatorId)))
        whenever (¬ rotated) (finish .failed .hangup true)
      else
        match m.pendingMediaKeys.get (session.callId, signal.newCoordinatorId) with
        | none => pure ()
        | some pending => do
          modify fun m => m.takePendingMediaKey session.callId signal.newCoordinatorId
          let _ ← applyIncomingMediaKeyNow D pending.senderId (some pending.mediaKey)
          pure ()

/-- Whether the session's list has room for one more member; a group without a validator adds nobody. -/
def hasRoom (session : CallSession) : Bool :=
  D.hasMemberValidator && session.peerIds.length < maxGroupCallParticipants - 1

/-- The validator's word on who asks to join; the copy of the session is written back if the list grows. -/
def validateJoin (session : CallSession) (senderId : Text) : Call Answer :=
  if D.hasMemberValidator then
    awaiting {
      op := .validMember (session.groupId.getD []) senderId
      writes := fun a =>
        if a.yes ∧ ¬ senderId ∈ session.peerIds ∧ hasRoom D session then some (session, .addPeer senderId) else none }
  else pure {}

def handleGroupJoinRequest (signal : GroupCallJoinRequestSignal) : Call Unit := do
  let m ← get
  match m.current with
  | none => pure ()
  | some session =>
    if ¬ m.isCurrentGroupCall session.callId ∨ ¬ m.isGroupCoordinator ∨
        some signal.groupId ≠ m.currentGroupRoutingToken ∨ signal.callId ≠ session.callId ∨
        signal.callType ≠ some session.callType then pure ()
    else do
      let valid ← validateJoin D session signal.senderId
      if ¬ valid.yes ∨ (¬ signal.senderId ∈ session.peerIds ∧ ¬ hasRoom D session) then pure ()
      else do
        whenever (¬ signal.senderId ∈ session.peerIds) (setSession session (.addPeer signal.senderId))
        let m ← get
        if m.mediaEncryptionRequired ∧ ¬ signal.mediaE2ee then fail
        else connectNewGroupMember D signal.senderId

def handleGroupMemberJoined (signal : GroupCallMemberJoinedSignal) : Call Unit := do
  let m ← get
  match m.current with
  | none => pure ()
  | some session =>
    if ¬ session.isGroupCall ∨ ¬ m.isCurrentGroupCall session.callId ∨ m.isGroupCoordinator ∨
        signal.senderId ≠ session.peerId ∨ session.callId ≠ signal.groupCallId ∨ signal.joinedMemberId = D.userId then
      pure ()
    else if ¬ signal.joinedMemberId ∈ session.peerIds ∧
      maxGroupCallParticipants - 1 ≤ session.peerIds.length then pure ()
    else do
      whenever (¬ signal.joinedMemberId ∈ session.peerIds) (setSession session (.addPeer signal.joinedMemberId))
      let m ← get
      if signal.joinedMemberId ∈ m.joinedGroupPeers then pure ()
      else do
        modify fun m => { m with joinedGroupPeers := m.joinedGroupPeers.insert signal.joinedMemberId }
        whenever m.groupMediaReady do
          match m.pendingGroupOffers.get signal.joinedMemberId with
          | some offer => do
            modify fun m => { m with pendingGroupOffers := m.pendingGroupOffers.remove signal.joinedMemberId }
            acceptGroupPeerOffer D signal.joinedMemberId offer
          | none => whenever (D.userId < signal.joinedMemberId) (offerToGroupPeer D signal.joinedMemberId)

def handleGroupError (signal : GroupCallErrorSignal) : Call Unit := do
  let m ← get
  whenever (m.isCurrentGroupCall signal.callId ∧ signal.senderId = "server".toList ∧
      some signal.groupId = m.currentGroupRoutingToken) do
    finish .failed .hangup true

def handleGroupStatus (signal : GroupCallStatusResponseSignal) : Call Unit := do
  let m ← get
  whenever (signal.senderId = "server".toList ∧ m.current.any (·.isGroupCall) ∧
      some signal.groupId = m.currentGroupRoutingToken ∧ ¬ signal.isActive) do
    finish .ended .hangup false

def Manager.resetGroupSetup (m : Manager) : Manager :=
  { m with
    terminalTimer := false, pendingGroupOffers := .empty, pendingGroupIce := .empty, joinedGroupPeers := .empty,
    offeredGroupPeers := .empty, groupMediaReady := false, mediaKeyReady := false, groupSetups := m.groupSetups + 1 }

def invitedPeers (signal : GroupCallInviteSignal) : List Text :=
  ((LinkedSet.ofList (signal.senderId :: signal.participants.filter (· ≠ D.userId))).elems.filter
    fun id => id ≠ [] ∧ id ≠ D.userId).take (maxGroupCallParticipants - 1)

def sayBusy (signal : GroupCallInviteSignal) : Call Unit := do
  let _ ← sendControl plain signal.senderId .busy false (some signal.groupId)
  let _ ← sendControl plain "server".toList .hangup false (some signal.groupId)
  pure ()

def recordBusyGroupCall (signal : GroupCallInviteSignal) (localGroupId : Text) : Call Unit := do
  let _ ← on (.peerName localGroupId)
  let _ ← on (.busyCall signal.callId)
  pure ()

/-- An invitation that comes while a call is live. -/
def refuseGroupInvite (signal : GroupCallInviteSignal) (localGroupId : Text) : Call Unit := do
  Program.catching (sayBusy signal) (pure ())
  Program.catching (recordBusyGroupCall signal localGroupId) (pure ())

def Manager.setUpInvite (m : Manager) (signal : GroupCallInviteSignal) : Manager :=
  { m.resetGroupSetup with
    terminating := false, isGroupCoordinator := false, mediaKey := none, mediaEncryptionActive := false,
    mediaEncryptionRequired := signal.mediaE2ee, currentGroupRoutingToken := some signal.groupId }

/-- The key that was staged for the invitation is applied, or dropped with the others of its call; the answer is whether
one was applied. -/
def takeStagedKey (signal : GroupCallInviteSignal) : Call Bool := do
  let m ← get
  modify fun m => m.takePendingMediaKey signal.callId signal.senderId
  match m.pendingMediaKeys.get (signal.callId, signal.senderId) with
  | none => do
    whenever (¬ m.mediaEncryptionRequired) (modify fun m => m.dropPendingMediaKeysForCall signal.callId)
    pure false
  | some pending =>
    if m.mediaEncryptionRequired then do
      let _ ← awaited (applyIncomingMediaKeyNow D pending.senderId (some pending.mediaKey))
      pure true
    else do
      modify fun m => m.dropPendingMediaKeysForCall signal.callId
      pure false

def invitedSession (signal : GroupCallInviteSignal) (localGroupId name : Text) (now : ℤ) : CallSession :=
  { callId := signal.callId, peerId := signal.senderId, peerName := name, callType := callTypeOf signal.callType,
    direction := .incoming, state := .ringing, createdAt := some now, isGroupCall := true, groupId := some localGroupId,
    peerIds := invitedPeers D signal }

def beginInvite (signal : GroupCallInviteSignal) (localGroupId : Text) : Call Unit := do
  modify fun m => m.setUpInvite signal
  let name ← awaiting { op := .peerName localGroupId, beginning := some (signal.callId, true) }
  let m ← get
  beginSession (invitedSession D signal localGroupId name.text m.now)
  whenever m.lateJoining (modify fun m => m.dropPendingMediaKeysForCall signal.callId)
  let applied ← takeStagedKey D signal
  let m ← get
  whenever (¬ (applied ∧ m.current.any (·.isTerminal))) do
    let _ ← on (.reportIncoming signal.callId)
    startRingTimeout

def validateInviter (localGroupId senderId : Text) : Call Answer :=
  if localGroupId ≠ [] ∧ D.hasMemberValidator then on (.validMember localGroupId senderId) else pure {}

def handleGroupInvite (signal : GroupCallInviteSignal) : Call Unit := do
  let m ← get
  if m.currentGroupRoutingToken = some signal.groupId ∧ m.hasLiveCall then pure ()
  else if D.isBlocked signal.senderId then do
    Program.catching (on .dismissPendingIncoming) (pure ())
  else do
    let localGroup ← on (.localGroupId signal.groupId)
    let valid ← validateInviter D localGroup.text signal.senderId
    if localGroup.text = [] ∨ ¬ valid.yes then do
      let _ ← sendControl plain "server".toList .hangup false (some signal.groupId)
      pure ()
    else do
      let m ← get
      if m.hasLiveCall then refuseGroupInvite signal localGroup.text else beginInvite D signal localGroup.text

def sendInvites (mediaE2ee : Bool) : List Text → Call Bool
  | [] => pure true
  | peerId :: rest => do
    let sent ← on (.sendInvite peerId mediaE2ee)
    let allSent ← sendInvites mediaE2ee rest
    pure (sent.yes && allSent)

/-- `initiateGroupCall` once the media engine is set up. -/
def inviteGroup (callId : Text) (recipients : List Text) : Call Unit := do
  let mediaKey ← awaited (prepareMediaEncryption D callId recipients)
  modify fun m => { m with mediaEncryptionRequired := mediaKey.isSome }
  let m ← get
  whenever (m.isCurrentGroupCall callId) do
    modify fun m => { m with groupMediaReady := true }
    let allSent ← sendInvites mediaKey.isSome recipients
    if ¬ allSent then fail
    else do
      let m ← get
      match m.current with
      | none => pure ()
      | some session =>
        whenever (m.isCurrentGroupCall callId ∧ session.state = .initiating) do
          setSession session (.state .ringing)
          startRingTimeout

/-- `initiateGroupCall` after its session has begun. -/
def setUpGroupCall (callId groupId : Text) (recipients : List Text) : Call Unit := do
  let _ ← on (.reportOutgoing callId)
  let ready ← on .ensureConnected
  if ¬ ready.yes then fail
  else do
    let token ← on (.routingToken groupId)
    let m ← get
    whenever (m.isCurrentGroupCall callId) do
      modify fun m => { m with currentGroupRoutingToken := some token.text }
      let ready ← on .ensureConnected
      if ¬ ready.yes then fail
      else do
        let _ ← on .fetchIceServers
        let _ ← on .initializeGroupMedia
        let m ← get
        if m.isCurrentGroupCall callId then inviteGroup D callId recipients
        else whenever (m.currentCallId = some callId) do
          let _ ← on .closeGroupMedia

def initiateGroupCall (groupId groupName : Text) (peerIds : List Text) (callType : CallType) : Call Unit := do
  let m ← get
  let recipients := (LinkedSet.ofList (peerIds.filter (· ≠ D.userId))).elems
  if m.hasLiveCall ∨ ¬ D.hasGroupMedia ∨ recipients = [] ∨ maxGroupCallParticipants < recipients.length + 1 then pure ()
  else do
    modify fun m => { m.resetGroupSetup with
      terminating := false, isGroupCoordinator := true, mediaKey := none, mediaEncryptionActive := false,
      mediaEncryptionRequired := false }
    let n ← draw
    let callId := D.newId n
    beginSession {
      callId := callId, peerId := groupId, peerName := groupName, callType := callType, direction := .outgoing,
      state := .initiating, createdAt := some m.now, isGroupCall := true, groupId := some groupId,
      peerIds := recipients }
    Program.catching (setUpGroupCall D callId groupId recipients) (finish .failed .hangup true)

/-- An offer that came before the acceptance; one of a peer the coordinator has not named yet waits on. -/
def acceptPendingOffer (peerId offerSdp : Text) : Call Unit := do
  let m ← get
  match m.current with
  | none => fail
  | some session =>
    if peerId ∈ session.peerIds then awaited (acceptGroupPeerOffer D peerId offerSdp)
    else modify fun m => { m with pendingGroupOffers := m.pendingGroupOffers.assign peerId offerSdp }

def acceptPendingOffers : List (Text × Text) → Call Unit
  | [] => pure ()
  | entry :: rest => do
    acceptPendingOffer D entry.1 entry.2
    acceptPendingOffers rest

def offerToPeers : List Text → Call Unit
  | [] => pure ()
  | peerId :: rest => do
    whenever (D.userId < peerId) (awaited (offerToGroupPeer D peerId))
    offerToPeers rest

def connectJoinedPeers : Call Unit := do
  let m ← get
  modify fun m => { m with pendingGroupOffers := .empty }
  acceptPendingOffers D m.pendingGroupOffers.entries
  let m ← get
  offerToPeers D m.joinedGroupPeers.elems

/-- A late member asks to join before it has a key: it tries its frame encryption with a key of its own. -/
def requestLateJoin (session : CallSession) : Call Unit := do
  let m ← get
  whenever m.mediaEncryptionRequired do
    let key ← CallMediaKey.generate D session.callId 0
    let _ ← on (.enableMediaEncryption key)
  let m ← get
  let sent ← on (.sendJoinRequest session.peerId m.mediaEncryptionRequired)
  if ¬ sent.yes then fail else pure ()

def enableRequiredKey : Call Unit := do
  let m ← get
  whenever m.mediaEncryptionRequired do
    match m.mediaKey with
    | none => fail
    | some key => do
      let _ ← on (.enableMediaEncryption key)

/-- What the member says of its media encryption; a late member has said it before. -/
def sendCapability (session : CallSession) : Call Answer := do
  let m ← get
  if m.lateJoining then pure {} else on (.sendJoinRequest session.peerId m.mediaEncryptionActive)

/-- `_acceptGroupCall` once the call's media key is there. -/
def completeGroupAccept (session : CallSession) : Call Unit := do
  enableRequiredKey
  modify fun m => { m with groupMediaReady := true }
  let capability ← sendCapability session
  if ¬ capability.yes then fail
  else do
    let m ← get
    let _ ← sendControl plain session.peerId .accept false m.currentGroupRoutingToken
    queueGroupSignal (connectJoinedPeers D)

/-- `_acceptGroupCall` after the session is connecting. -/
def setUpGroupAccept (session : CallSession) : Call Unit := do
  let ready ← on .ensureConnected
  if ¬ ready.yes then fail
  else do
    let _ ← on .fetchIceServers
    let _ ← on .initializeGroupMedia
    let m ← get
    if ¬ m.isCurrentGroupCall session.callId then
      whenever (m.currentCallId = some session.callId) do
        let _ ← on .closeGroupMedia
    else do
      whenever m.lateJoining (requestLateJoin D session)
      let m ← get
      whenever (m.mediaEncryptionRequired ∧ ¬ m.mediaEncryptionActive) do
        let _ ← on (.mediaKeyReady m.groupSetups)
      let m ← get
      whenever (m.isCurrentGroupCall session.callId) (completeGroupAccept D session)

def acceptGroupCall (session : CallSession) : Call Unit := do
  if ¬ D.hasGroupMedia then pure ()
  else do
    modify fun m => { m with ringTimer := false }
    setSession session (.state .connecting)
    startRingTimeout
    Program.catching (setUpGroupAccept D session) (finish .failed .hangup true)

end Device

end Calls
end SecureChat
