import SecureChat.AsyncTasks
import SecureChat.CallModels
/-!
# CallManager — the state of `CallManager`, and how a call ends

The manager's fields under the source's names, with what it has published (`sessions`), the media keys it has sent
(`keysSent`), the candidates its media engine has taken (`given`) and the calls it was asked to end (`asked`), newest
first.  Handlers are programs (`Async.Program`): they run at once up to an awaited step, which is in `Op`.  A `Wait` is
an awaited step with what the handler is in the middle of meanwhile.

Left out: the logs of failures, the UI's own streams, `dispose`, and the acknowledgement table of `_sendControl`, whose
answers are those of the step `controlAck`.
-/
namespace SecureChat
namespace Calls

open Async
open GroupControl (Text)
open Program (get modify whenever)

/-- What a build and its collaborators fix: who is logged in, which of the optional collaborators there are, who is
blocked, and what is drawn at random. -/
structure Device where
  userId : Text
  hasGroupMedia : Bool
  hasMemberValidator : Bool
  canDistribute : Bool
  isBlocked : Text → Bool
  newId : ℕ → Text
  randomKey : ℕ → List UInt8
  busyKey : Option Text → Text → Text → Text

structure PendingCallMediaKey where
  senderId : Text
  mediaKey : CallMediaKey
  receivedAt : ℤ
deriving DecidableEq

/-- What the session stream has shown; `changes` is `none` where a call begins, and where there is no session. -/
structure Publication where
  session : Option CallSession
  changes : Option (List Change)
deriving DecidableEq

/-- `_groupSignalTail`: operations have tickets, and one that throws leaves the tail failed. -/
structure GroupSignals where
  issued : ℕ := 0
  served : ℕ := 0
  failed : Bool := false

structure Manager where
  current : Option CallSession := none
  secondary : Option CallSession := none
  pendingOffer : Option Text := none
  secondaryOffer : Option Text := none
  ringTimer : Bool := false
  reconnectTimer : Bool := false
  terminalTimer : Bool := false
  terminating : Bool := false
  speakerDefaultedCallId : Option Text := none
  earlyNativeSpeaker : Option (Text × Bool) := none
  pendingIce : List IceCandidateSignal := []
  acceptingCall : Bool := false
  lateJoining : Bool := false
  isGroupCoordinator : Bool := false
  currentGroupRoutingToken : Option Text := none
  mediaKey : Option CallMediaKey := none
  mediaEncryptionActive : Bool := false
  mediaEncryptionRequired : Bool := false
  pendingMediaKeys : Table (Text × Text) PendingCallMediaKey := .empty
  pendingGroupOffers : Table Text Text := .empty
  pendingGroupIce : Table Text (List IceCandidateSignal) := .empty
  joinedGroupPeers : LinkedSet Text := .empty
  offeredGroupPeers : LinkedSet Text := .empty
  groupMediaReady : Bool := false
  mediaKeyReady : Bool := false
  groupSetups : ℕ := 0
  groupSignals : GroupSignals := {}
  sessions : List Publication := []
  keysSent : List (Text × CallMediaKey) := []
  remoteDescription : Bool := false
  given : List IceCandidateSignal := []
  asked : List Text := []
  now : ℤ := 0
  drawn : ℕ := 0

inductive Op where
  | reportOutgoing (callId : Text)
  | reportIncoming (callId : Text)
  | incomingNativeReport
  | answerNative (callId : Text)
  | setSpeakerNative (callId : Text) (enabled : Bool)
  | endNative (callId : Text)
  | dismissPendingIncoming
  | ensureConnected
  | fetchIceServers
  | createOffer (peerId : Text)
  | acceptOffer (peerId offerSdp : Text)
  | applyAnswer (peerId answerSdp : Text)
  | addIceCandidate (signal : IceCandidateSignal)
  | setMuted (muted : Bool)
  | setSpeakerOn (enabled : Bool)
  | setCameraEnabled (enabled : Bool)
  | switchCamera
  | closeMedia
  | initializeGroupMedia
  | addGroupIceCandidate (signal : IceCandidateSignal)
  | enableMediaEncryption (key : CallMediaKey)
  | rotateMediaKey (key : CallMediaKey)
  | removePeer (peerId : Text)
  | closeGroupMedia
  | sendOffer (peerId sdp : Text)
  | sendAnswer (peerId sdp : Text)
  | sendInvite (peerId : Text) (mediaE2ee : Bool)
  | sendJoinRequest (peerId : Text) (mediaE2ee : Bool)
  | sendMemberJoined (recipientId joinedMemberId : Text)
  | sendControl (peerId : Text) (action : ControlAction) (groupId : Option Text)
  | controlAck
  | peerName (id : Text)
  | localGroupId (routingToken : Text)
  | validMember (groupId peerId : Text)
  | routingToken (groupId : Text)
  | activeGroupCall (groupId : Text)
  | distribute (recipientId : Text) (key : CallMediaKey) (rest : List Text)
  | missedCall (callId : Text)
  | busyCall (callId : Text)
  | saveLog (session : CallSession) (state : CallState) (duration : ℤ)
  | turn (ticket : ℕ) (queued : Option CallSession)
  | mediaKeyReady (setup : ℕ)
  | acceptingCall
  | resumed

def Op.isTurn : Op → Bool
  | .turn _ _ => true
  | _ => false

/-- What an awaited step answers: whether it did what was asked, and what was asked for. -/
structure Answer where
  yes : Bool := true
  text : Text := []
  call : Option ActiveGroupCall := none

/-- An awaited step, and what the handler is in the middle of: the session it is ending, the copy of a session it writes
back on an answer, the call it begins on the answer, the candidates in its hands. -/
structure Wait where
  op : Op
  ending : Option CallSession := none
  writes : Answer → Option (CallSession × Change) := fun _ => none
  guarded : Bool := false
  beginning : Option (Text × Bool) := none
  candidates : List IceCandidateSignal := []

abbrev Call (α : Type) := Program Answer Wait Manager Unit α

def awaiting (w : Wait) : Call Answer := Program.wait () w

def on (op : Op) : Call Answer := awaiting { op := op }

def fail {α : Type} : Call α := .throw ()

namespace Manager

def hasLiveCall (m : Manager) : Bool := m.current.any fun s => !s.isTerminal

def isCurrentGroupCall (m : Manager) (callId : Text) : Bool :=
  !m.terminating && m.current.any fun s => s.callId = callId && s.isGroupCall && !s.isTerminal

def currentCallId (m : Manager) : Option Text := m.current.map (·.callId)

/-- A session becomes the current one and is published; a native route that came too early is applied to it. -/
def setSession (m : Manager) (session : CallSession) (changes : Option (List Change)) : Manager :=
  match m.earlyNativeSpeaker with
  | some (callId, enabled) =>
    if callId = session.callId then
      let routed := if session.isTerminal then session else (Change.speaker enabled).apply session
      let route := if session.isTerminal then [] else [Change.speaker enabled]
      { m with
        earlyNativeSpeaker := none, current := some routed,
        sessions := ⟨some routed, changes.map (· ++ route)⟩ :: m.sessions }
    else { m with current := some session, sessions := ⟨some session, changes⟩ :: m.sessions }
  | none => { m with current := some session, sessions := ⟨some session, changes⟩ :: m.sessions }

def dropPendingMediaKeysForCall (m : Manager) (callId : Text) : Manager :=
  { m with pendingMediaKeys := m.pendingMediaKeys.filter fun e => decide (e.2.mediaKey.callId ≠ callId) }

end Manager

def beginSession (session : CallSession) : Call Unit := modify fun m => m.setSession session none

def setSession (session : CallSession) (change : Change) : Call Unit :=
  modify fun m => m.setSession (change.apply session) (some [change])

def draw : Call ℕ := do
  let m ← get
  modify fun m => { m with drawn := m.drawn + 1 }
  pure m.drawn

section Control

variable (w : Op → Wait)

def awaitAck (sent : Answer) : Call Bool := do
  if sent.yes then do
    let acked ← awaiting (w .controlAck)
    pure acked.yes
  else pure false

def sendReliably (peerId : Text) (action : ControlAction) (groupId : Option Text) : ℕ → Call Bool
  | 0 => pure false
  | n + 1 => do
    let sent ← awaiting (w (.sendControl peerId action groupId))
    let acked ← awaitAck w sent
    if acked then pure true
    else do
      let _ ← awaiting (w .ensureConnected)
      sendReliably peerId action groupId n

def sendControl (peerId : Text) (action : ControlAction) (reliable : Bool) (groupId : Option Text) : Call Bool := do
  if reliable then sendReliably w peerId action groupId 3
  else do
    let sent ← awaiting (w (.sendControl peerId action groupId))
    pure sent.yes

def sendControls (action : ControlAction) (groupId : Option Text) : List Text → Call Unit
  | [] => pure ()
  | peer :: rest => do
    let _ ← sendControl w peer action true groupId
    sendControls action groupId rest

end Control

def endingOf (session : CallSession) (op : Op) : Wait := { op := op, ending := some session }

/-- What `_finish` does at once. -/
def Manager.terminate (m : Manager) (session : CallSession) : Manager :=
  { m.dropPendingMediaKeysForCall session.callId with
    terminating := true, groupMediaReady := false, mediaKeyReady := true, mediaKey := none,
    mediaEncryptionActive := false, mediaEncryptionRequired := false, ringTimer := false }

/-- `_finish`: the media of a group call stop, a call that was missed is noted, and the peers are told. -/
def tellPeers (session : CallSession) (finalState : CallState) (action : ControlAction) (notifyPeer : Bool) :
    Call Unit := do
  whenever session.isGroupCall do
    let _ ← awaiting (endingOf session .closeGroupMedia)
  whenever (session.direction = .incoming ∧ session.state = .ringing ∧ finalState ≠ .rejected ∧ finalState ≠ .busy) do
    let _ ← awaiting (endingOf session (.missedCall session.callId))
  modify fun m => { m with reconnectTimer := false }
  whenever (notifyPeer ∧ session.isGroupCall) do
    let m ← get
    let _ ← sendControl (endingOf session) "server".toList .hangup false m.currentGroupRoutingToken
    sendControls (endingOf session) action m.currentGroupRoutingToken session.peerIds
  whenever (notifyPeer ∧ ¬ session.isGroupCall) do
    let _ ← sendControl (endingOf session) session.peerId action true none

def closeCall (session : CallSession) : Call Unit := do
  whenever (¬ session.isGroupCall) do
    let _ ← awaiting (endingOf session .closeMedia)
    modify fun m => { m with remoteDescription := false }
  let _ ← awaiting (endingOf session (.endNative session.callId))

def savingOf (session : CallSession) (finalState : CallState) (duration : ℤ) : Wait :=
  { endingOf session (.saveLog session finalState duration) with
    writes := fun _ => some (session, .finished finalState duration) }

def Manager.ended (m : Manager) : Manager := { m with pendingOffer := none, pendingIce := [], terminalTimer := true }

/-- `_finish`, from the closing of the media on. -/
def finishSession (session : CallSession) (finalState : CallState) (action : ControlAction) (notifyPeer : Bool) :
    Call Unit := do
  tellPeers session finalState action notifyPeer
  let m ← get
  let duration := (session.startTime.map fun start => m.now - start).getD 0
  closeCall session
  let _ ← awaiting (savingOf session finalState duration)
  setSession session (.finished finalState duration)
  modify Manager.ended

def finish (finalState : CallState) (action : ControlAction) (notifyPeer : Bool) : Call Unit := do
  let m ← get
  match m.current with
  | none => pure ()
  | some session => do
    modify fun m => { m with asked := session.callId :: m.asked }
    if m.terminating then pure ()
    else do
      modify fun m => m.terminate session
      finishSession session finalState action notifyPeer

def onTerminalTimer : Call Unit := do
  let m ← get
  whenever m.terminalTimer do
    modify fun m => { m with
      terminalTimer := false, current := none, currentGroupRoutingToken := none,
      sessions := ⟨none, none⟩ :: m.sessions, terminating := false }

def endCall : Call Unit := finish .ended .hangup true

def rejectCall : Call Unit := finish .rejected .reject true

def startRingTimeout : Call Unit := modify fun m => { m with ringTimer := true }

def onRingTimeout : Call Unit := do
  let m ← get
  whenever m.ringTimer do
    modify fun m => { m with ringTimer := false }
    match m.current with
    | none => pure ()
    | some session =>
      if session.isTerminal then pure ()
      else if session.state = .ringing ∨ session.state = .initiating then finish .noAnswer .hangup true
      else finish .failed .hangup true

def onReconnectTimeout : Call Unit := do
  let m ← get
  whenever m.reconnectTimer do
    modify fun m => { m with reconnectTimer := false }
    finish .failed .hangup true

def Manager.served (m : Manager) : Manager :=
  { m with groupSignals := { m.groupSignals with served := m.groupSignals.served + 1 } }

def runGroupSignal (operation : Call Unit) : Call Unit := do
  let result ← operation.attempt
  let _ ← on .resumed
  match result with
  | .ok _ => pure ()
  | .error _ => do
    let m ← get
    whenever (m.current.any (·.isGroupCall)) (finish .failed .hangup true)

/-- `_queueGroupSignal`: one operation after the other, each only while its call is the current one. -/
def queueGroupSignal (operation : Call Unit) : Call Unit := do
  let m ← get
  modify fun m => { m with groupSignals := { m.groupSignals with issued := m.groupSignals.issued + 1 } }
  let _ ← on (.turn m.groupSignals.issued m.current)
  let latest ← get
  if m.currentCallId.isSome ∧ latest.currentCallId ≠ m.currentCallId then modify Manager.served
  else do
    let outcome ← (runGroupSignal operation).attempt
    match outcome with
    | .ok _ => modify Manager.served
    | .error _ => do
      modify fun m => { m with groupSignals := { m.groupSignals with failed := true } }
      fail

end Calls
end SecureChat
