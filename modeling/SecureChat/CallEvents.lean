import SecureChat.GroupCalls
/-!
# CallEvents — direct calls, and what starts a handler

`initiateCall`, `acceptCall`, the handlers of the signals of a direct call, the dispatch of signals and native actions,
and the pool of handlers (`tasks`).
-/
namespace SecureChat
namespace Calls

open Async
open scoped GroupControl
open GroupControl (Text)
open Program (get modify whenever)

/-- A candidate is given to the engine; what follows holds the rest in its hands meanwhile. -/
def addIceCandidate (signal : IceCandidateSignal) (rest : List IceCandidateSignal) : Call Unit := do
  let _ ← awaiting { op := .addIceCandidate signal, candidates := signal :: rest }
  modify fun m => { m with given := signal :: m.given }

/-- The loop of `_replayPendingIce`. -/
def replayCandidates : List IceCandidateSignal → Call Unit
  | [] => pure ()
  | signal :: rest => do
    let result ← (addIceCandidate signal rest).attempt
    match result with
    | .ok _ => replayCandidates rest
    | .error _ => do
      modify fun m => { m with pendingIce := m.pendingIce ++ [signal] }
      replayCandidates rest

def replayPendingIce : Call Unit := do
  let m ← get
  modify fun m => { m with pendingIce := [] }
  replayCandidates m.pendingIce

section Device

variable (D : Device)

/-- `initiateCall` after its session has begun. -/
def offerCall (session : CallSession) : Call Unit := do
  let _ ← on (.reportOutgoing session.callId)
  let ready ← on .ensureConnected
  if ¬ ready.yes then fail
  else do
    let _ ← on .fetchIceServers
    let offer ← on (.createOffer session.peerId)
    let sent ← awaiting {
      op := .sendOffer session.peerId offer.text
      writes := fun a => if a.yes then some (session, .state .ringing) else none }
    if ¬ sent.yes then fail
    else do
      setSession session (.state .ringing)
      startRingTimeout

def initiateCall (peerId peerName : Text) (callType : CallType) : Call Unit := do
  let m ← get
  if m.hasLiveCall then pure ()
  else do
    modify fun m => { m with terminating := false }
    let n ← draw
    let session : CallSession := {
      callId := D.newId n, peerId := peerId, peerName := peerName, callType := callType, direction := .outgoing,
      state := .initiating, createdAt := some m.now }
    beginSession session
    Program.catching (offerCall session) (finish .failed .hangup false)

/-- `_acceptCall` of a direct call once its session is connecting. -/
def answerCall (session : CallSession) (offer : Text) : Call Unit := do
  let _ ← sendControl plain session.peerId .accept false none
  let _ ← on .fetchIceServers
  modify fun m => { m with remoteDescription := true }
  let answer ← on (.acceptOffer session.peerId offer)
  let sent ← on (.sendAnswer session.peerId answer.text)
  if ¬ sent.yes then fail
  else do
    modify fun m => { m with pendingOffer := none }
    replayPendingIce

def acceptDirectCall (session : CallSession) : Call Unit := do
  let m ← get
  match m.pendingOffer with
  | none => pure ()
  | some offer => do
    modify fun m => { m with ringTimer := false }
    setSession session (.state .connecting)
    Program.catching (answerCall session offer) (finish .failed .hangup true)

/-- The native side is told before the call is accepted; if it is lost meanwhile nothing is accepted. -/
def answerNative (session : CallSession) (fromNative : Bool) : Call Unit := do
  let accepting (last : Bool) (op : Op) : Wait :=
    { op := op, writes := fun _ => if last then some (session, .state .connecting) else none, guarded := true }
  let _ ← awaiting (accepting fromNative .incomingNativeReport)
  whenever (¬ fromNative) do
    let _ ← awaiting (accepting true (.answerNative session.callId))

/-- `_acceptCall`. -/
def acceptCallNow (fromNative : Bool) : Call Unit := do
  let m ← get
  match m.current with
  | none => pure ()
  | some session =>
    if session.direction ≠ .incoming ∨ session.state ≠ .ringing then pure ()
    else do
      let answered ← (answerNative session fromNative).attempt
      match answered with
      | .error _ => pure ()
      | .ok _ => do
        let m ← get
        if m.currentCallId ≠ some session.callId ∨ m.current.any (·.isTerminal) then pure ()
        else if session.isGroupCall then acceptGroupCall D session
        else acceptDirectCall session

/-- `_acceptCallOnce`: a second acceptance waits for the one under way. -/
def acceptCallOnce (fromNative : Bool) : Call Unit := do
  let m ← get
  if m.acceptingCall then do
    let _ ← on .acceptingCall
    pure ()
  else do
    modify fun m => { m with acceptingCall := true }
    let result ← (acceptCallNow D fromNative).attempt
    let _ ← on .resumed
    modify fun m => { m with acceptingCall := false }
    match result with
    | .ok _ => pure ()
    | .error _ => fail

def acceptCall : Call Unit := acceptCallOnce D false

def acceptSecondaryCall : Call Unit := do
  let m ← get
  match m.secondary, m.secondaryOffer with
  | some secondary, some offer => do
    awaited endCall
    modify fun m => { m with secondary := none, secondaryOffer := none, pendingOffer := some offer }
    beginSession secondary
    acceptCall D
  | _, _ => pure ()

def rejectSecondaryCall : Call Unit := do
  let m ← get
  match m.secondary with
  | none => pure ()
  | some secondary => do
    let _ ← sendControl plain secondary.peerId .reject true none
    let _ ← on (.saveLog secondary .rejected 0)
    modify fun m => { m with secondary := none, secondaryOffer := none }

def lateInvite (active : ActiveGroupCall) : GroupCallInviteSignal :=
  { senderId := active.coordinatorId, groupId := active.routingToken, callId := active.callId,
    callType := some active.callType, participants := [], mediaE2ee := active.mediaE2ee }

def canJoin (expected active : ActiveGroupCall) : Bool :=
  active.callId = expected.callId && active.routingToken = expected.routingToken &&
    active.coordinatorId ≠ D.userId &&
    (active.participants.length < maxGroupCallParticipants || active.participants.contains D.userId)

def inviteAndAccept (active : ActiveGroupCall) : Call Unit := do
  awaited (handleGroupInvite D (lateInvite active))
  awaited (acceptCall D)

def joinLate (active : ActiveGroupCall) : Call Unit := do
  modify fun m => { m with lateJoining := true }
  let result ← (inviteAndAccept D active).attempt
  modify fun m => { m with lateJoining := false }
  match result with
  | .ok _ => pure ()
  | .error _ => fail

def joinActiveGroupCall (expected : ActiveGroupCall) : Call Unit := do
  let m ← get
  match m.current.filter (fun s => !s.isTerminal) with
  | some current =>
    whenever (¬ m.terminating ∧ current.callId = expected.callId ∧ current.state = .ringing ∧
        current.direction = .incoming) do
      acceptCall D
  | none => do
    let answer ← on (.activeGroupCall expected.groupId)
    let m ← get
    match answer.call with
    | none => pure ()
    | some active => whenever (canJoin D expected active ∧ ¬ m.hasLiveCall) (joinLate D active)

def handleGroupOffer (session : CallSession) (signal : SdpOfferSignal) : Call Unit := do
  let m ← get
  whenever (m.isCurrentGroupCall session.callId) do
    if ¬ m.groupMediaReady ∨ ¬ signal.senderId ∈ session.peerIds then
      whenever (m.pendingGroupOffers.card < maxGroupCallParticipants - 1) do
        modify fun m => { m with pendingGroupOffers := m.pendingGroupOffers.assign signal.senderId signal.sdp }
    else acceptGroupPeerOffer D signal.senderId signal.sdp

def refuseOffer (incoming : CallSession) : Call Unit := do
  Program.catching (sendControl plain incoming.peerId .busy false none) (pure ())
  Program.catching (on (.busyCall incoming.callId)) (pure ())

/-- The id of an incoming call: a new one, or, while a call is live, one that tells repeated offers from each other. -/
def incomingCallId (current : Option Text) (signal : SdpOfferSignal) : Call Text := do
  let m ← get
  if m.hasLiveCall then pure (D.busyKey current signal.senderId signal.sdp)
  else do
    let n ← draw
    pure (D.newId n)

def ringDirectCall (current : Option Text) (signal : SdpOfferSignal) : Call Unit := do
  let callId ← incomingCallId D current signal
  let name ← awaiting { op := .peerName signal.senderId, beginning := some (callId, false) }
  let m ← get
  let incoming : CallSession := {
    callId := callId, peerId := signal.senderId, peerName := name.text, callType := callTypeOf signal.callType,
    direction := .incoming, state := .ringing, createdAt := some m.now }
  if m.hasLiveCall then refuseOffer incoming
  else do
    modify fun m => { m with terminating := false, pendingOffer := some signal.sdp, pendingIce := [] }
    beginSession incoming
    let _ ← on (.reportIncoming callId)
    let _ ← sendControl plain signal.senderId .ringing false none
    startRingTimeout

def isGroupPeer (current : Option CallSession) (senderId : Text) : Call Bool :=
  match current with
  | none => pure false
  | some session =>
    if ¬ session.isGroupCall then pure false
    else if senderId ∈ session.peerIds then pure true
    else if D.hasMemberValidator then do
      let valid ← on (.validMember (session.groupId.getD []) senderId)
      pure valid.yes
    else pure false

def handleOffer (signal : SdpOfferSignal) : Call Unit := do
  let m ← get
  if m.hasLiveCall ∧ m.current.any (fun s => !s.isGroupCall && s.peerId = signal.senderId) then pure ()
  else do
    let groupPeer ← isGroupPeer D m.current signal.senderId
    match groupPeer, m.current with
    | true, some session => handleGroupOffer D session signal
    | _, _ =>
      if D.isBlocked signal.senderId then do
        Program.catching (on .dismissPendingIncoming) (pure ())
      else ringDirectCall D m.currentCallId signal

def applyGroupAnswer (signal : SdpAnswerSignal) : Call Unit := do
  let _ ← on (.applyAnswer signal.senderId signal.sdp)
  replayGroupIce signal.senderId

def handleGroupAnswer (session : CallSession) (signal : SdpAnswerSignal) : Call Unit := do
  let m ← get
  whenever (m.isCurrentGroupCall session.callId ∧ signal.senderId ∈ session.peerIds) do
    Program.catching (applyGroupAnswer signal) (finish .failed .hangup true)

def applyDirectAnswer (signal : SdpAnswerSignal) : Call Unit := do
  modify fun m => { m with remoteDescription := true }
  let _ ← on (.applyAnswer signal.senderId signal.sdp)
  replayPendingIce

def handleDirectAnswer (session : CallSession) (signal : SdpAnswerSignal) : Call Unit := do
  whenever (session.peerId = signal.senderId ∧ session.direction = .outgoing) do
    modify fun m => { m with ringTimer := false }
    setSession session (.state .connecting)
    Program.catching (applyDirectAnswer signal) (finish .failed .hangup true)

def handleAnswer (signal : SdpAnswerSignal) : Call Unit := do
  let m ← get
  match m.current with
  | none => pure ()
  | some session => if session.isGroupCall then handleGroupAnswer session signal else handleDirectAnswer session signal

def Manager.bufferGroupIce (m : Manager) (signal : IceCandidateSignal) : Manager :=
  let pending := (m.pendingGroupIce.get signal.senderId).getD []
  if (m.pendingGroupIce.card < maxGroupCallParticipants - 1 ∨ (m.pendingGroupIce.get signal.senderId).isSome) ∧
      pending.length < 64 then
    { m with pendingGroupIce := m.pendingGroupIce.assign signal.senderId (pending ++ [signal]) }
  else m

def handleGroupIce (session : CallSession) (signal : IceCandidateSignal) : Call Unit := do
  let m ← get
  whenever (m.isCurrentGroupCall session.callId) do
    Program.catching (on (.addGroupIceCandidate signal)) (modify fun m => m.bufferGroupIce signal)

def handleDirectIce (session : CallSession) (signal : IceCandidateSignal) : Call Unit := do
  if session.peerId ≠ signal.senderId then pure ()
  else if session.state = .ringing ∧ session.direction = .incoming then
    modify fun m => { m with pendingIce := m.pendingIce ++ [signal] }
  else do
    Program.catching (addIceCandidate signal []) (modify fun m => { m with pendingIce := m.pendingIce ++ [signal] })

def handleIce (signal : IceCandidateSignal) : Call Unit := do
  let m ← get
  match m.current with
  | none => pure ()
  | some session => if session.isGroupCall then handleGroupIce session signal else handleDirectIce session signal

def handleGroupControl (session : CallSession) (signal : CallControlSignal) : Call Unit := do
  let m ← get
  if ¬ m.isCurrentGroupCall session.callId ∨ signal.groupId = none ∨ signal.groupId ≠ m.currentGroupRoutingToken then
    pure ()
  else
    match signal.action with
    | .accept =>
      whenever (m.isGroupCoordinator ∧ ¬ m.mediaEncryptionRequired ∧ signal.senderId ∈ session.peerIds) do
        connectNewGroupMember D signal.senderId
    | .reject | .busy => removeGroupPeer D signal.senderId
    | .hangup =>
      if signal.senderId = "server".toList then finish .ended .hangup false else removeGroupPeer D signal.senderId
    | _ => pure ()

def handleDirectControl (session : CallSession) (signal : CallControlSignal) : Call Unit := do
  if signal.groupId ≠ none ∨ session.peerId ≠ signal.senderId then pure ()
  else
    match signal.action with
    | .accept => do
      modify fun m => { m with ringTimer := false }
      whenever (session.state = .ringing) (setSession session (.state .connecting))
    | .reject => finish .rejected .hangup false
    | .busy => finish .busy .hangup false
    | .hangup => finish .ended .hangup false
    | .cameraOff => setSession session (.remoteCamera false)
    | .cameraOn => setSession session (.remoteCamera true)
    | _ => pure ()

def handleControl (signal : CallControlSignal) : Call Unit := do
  let m ← get
  match m.current with
  | none => pure ()
  | some session =>
    if session.isGroupCall then handleGroupControl D session signal else handleDirectControl session signal

/-- Signals of a direct call are handled at once, those of a group call in the queue. -/
def dispatch (queued : Bool) (operation : Call Unit) : Call Unit :=
  if queued then queueGroupSignal operation else operation

def handleSignal (signal : Signal) : Call Unit := do
  let m ← get
  let inGroup := m.current.any (·.isGroupCall)
  match signal with
  | .offer signal => dispatch inGroup (handleOffer D signal)
  | .answer signal => dispatch inGroup (handleAnswer signal)
  | .ice signal => dispatch inGroup (handleIce signal)
  | .control signal => dispatch (signal.groupId.isSome || inGroup) (handleControl D signal)
  | .invite signal => queueGroupSignal (handleGroupInvite D signal)
  | .joinRequest signal => queueGroupSignal (handleGroupJoinRequest D signal)
  | .error signal => queueGroupSignal (handleGroupError signal)
  | .memberJoined signal => queueGroupSignal (handleGroupMemberJoined D signal)
  | .memberLeft signal => queueGroupSignal (handleGroupMemberLeft D signal)
  | .coordinatorChanged signal => queueGroupSignal (handleCoordinatorChanged D signal)
  | .status signal => queueGroupSignal (handleGroupStatus signal)

def rememberRoute (callId : Text) (type : NativeCallActionType) : Call Unit :=
  whenever (type = .speakerOn ∨ type = .speakerOff) do
    modify fun m => { m with earlyNativeSpeaker := some (callId, type = .speakerOn) }

def handleNativeAction (callId : Text) (type : NativeCallActionType) : Call Unit := do
  let m ← get
  match m.current.filter (fun s => s.callId = callId) with
  | none => rememberRoute callId type
  | some session =>
    match type with
    | .answer => acceptCallOnce D true
    | .stop => if isUnansweredIncomingCall session then rejectCall else endCall
    | .mute => whenever (¬ session.isMuted) toggleMute
    | .unmute => whenever session.isMuted toggleMute
    | .speakerOn => whenever (¬ session.isSpeakerOn) (setSession session (.speaker true))
    | .speakerOff => whenever session.isSpeakerOn (setSession session (.speaker false))
    | .openCall => pure ()

end Device

/-- What starts a handler: the user, a signal, a message, the engines, the native side, a timer, the clock. -/
inductive Event where
  | initiateCall (peerId peerName : Text) (callType : CallType)
  | initiateGroupCall (groupId groupName : Text) (peerIds : List Text) (callType : CallType)
  | joinActiveGroupCall (expected : ActiveGroupCall)
  | acceptCall
  | rejectCall
  | endCall
  | acceptSecondaryCall
  | rejectSecondaryCall
  | toggleMute
  | toggleSpeaker
  | toggleCamera
  | switchCamera
  | signal (signal : Signal)
  | mediaKey (senderId : Text) (payload : Option CallMediaKey)
  | mediaState (state : MediaConnectionState)
  | peerState (peerId : Text) (state : MediaConnectionState)
  | nativeAction (callId : Text) (type : NativeCallActionType)
  | ringTimeout
  | reconnectTimeout
  | terminalTimeout
  | clock (now : ℤ)

def program (D : Device) : Event → Call Unit
  | .initiateCall peerId peerName callType => initiateCall D peerId peerName callType
  | .initiateGroupCall groupId groupName peerIds callType => initiateGroupCall D groupId groupName peerIds callType
  | .joinActiveGroupCall expected => joinActiveGroupCall D expected
  | .acceptCall => acceptCall D
  | .rejectCall => rejectCall
  | .endCall => endCall
  | .acceptSecondaryCall => acceptSecondaryCall D
  | .rejectSecondaryCall => rejectSecondaryCall
  | .toggleMute => toggleMute
  | .toggleSpeaker => toggleSpeaker
  | .toggleCamera => toggleCamera
  | .switchCamera => switchCamera
  | .signal signal => handleSignal D signal
  | .mediaKey senderId payload => applyIncomingMediaKey D senderId payload
  | .mediaState state => handleMediaState state
  | .peerState peerId state => handleGroupPeerState peerId state
  | .nativeAction callId type => handleNativeAction D callId type
  | .ringTimeout => onRingTimeout
  | .reconnectTimeout => onReconnectTimeout
  | .terminalTimeout => onTerminalTimer
  | .clock now => modify fun m => { m with now := now }

/-- Which answers an awaited step can get: a turn comes when all before it are done, a key is waited for until it is
there, and the engine refuses a candidate before it has a remote description. -/
def ready (w : Wait) (answer : Option Answer) (m : Manager) : Bool :=
  match w.op, answer with
  | .turn ticket _, some _ => decide (m.groupSignals.served = ticket) && !m.groupSignals.failed
  | .turn _ _, none => m.groupSignals.failed
  | .resumed, none => false
  | .mediaKeyReady setup, some _ => decide (m.groupSetups ≠ setup) || m.mediaKeyReady
  | .acceptingCall, some _ => !m.acceptingCall
  | .addIceCandidate _, some _ => m.remoteDescription
  | _, _ => true

def tasks (D : Device) : Tasks Answer Wait Manager Unit Event where
  program := program D
  ready := ready

abbrev State := Tasks.State Answer Wait Manager Unit Event

abbrev Step := Pool.Label Event (Option Answer)

def initial : State := ⟨{}, []⟩

def phone : Device :=
  { userId := "ali".toList, hasGroupMedia := true, hasMemberValidator := true, canDistribute := true,
    isBlocked := fun _ => false, newId := fun n => [Char.ofNat (97 + n)],
    randomKey := fun n => List.replicate 32 (UInt8.ofNat n), busyKey := fun _ _ id => id }

def outgoingCall : List Step := [.start (.initiateCall "veli".toList "Veli".toList .voice), .step 0 none]

def endsAs (i : ℕ) : List Step := .start .endCall :: .step i none :: List.replicate 5 (.step i (some {}))

end Calls
end SecureChat
