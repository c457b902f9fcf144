import SecureChat.CallManager
/-!
# CallControls — mute, speaker, camera and the events of the media engine

`toggleMute`, `toggleCamera` and `switchCamera` copy the session, wait, and write the copy back; `_requestSpeaker` reads
the session again after it has waited.
-/
namespace SecureChat
namespace Calls

open Async
open GroupControl (Text)
open Program (get modify whenever)

def plain (op : Op) : Wait := { op := op }

def writing (session : CallSession) (change : Change) (op : Op) : Wait :=
  { op := op, writes := fun _ => some (session, change) }

def toggleMute : Call Unit := do
  let m ← get
  match m.current with
  | none => pure ()
  | some session =>
    if session.isTerminal then pure ()
    else do
      let muted := !session.isMuted
      let _ ← awaiting (writing session (.muted muted) (.setMuted muted))
      setSession session (.muted muted)

def requestSpeaker (callId : Text) (enabled : Bool) : Call Unit := do
  let m ← get
  whenever (m.current.any fun s => s.callId = callId && !s.isTerminal) do
    let handledNatively ← on (.setSpeakerNative callId enabled)
    whenever (¬ handledNatively.yes) do
      let _ ← on (.setSpeakerOn enabled)
    let m ← get
    match m.current with
    | none => pure ()
    | some latest =>
      if latest.callId ≠ callId ∨ latest.isTerminal then pure ()
      else setSession latest (.speaker enabled)

def toggleSpeaker : Call Unit := do
  let m ← get
  match m.current with
  | none => pure ()
  | some session => if session.isTerminal then pure () else requestSpeaker session.callId (!session.isSpeakerOn)

/-- `_routeVideoToSpeakerOnce`; the request runs on its own, from the next turn of the event loop on. -/
def routeVideoToSpeakerOnce (session : CallSession) : Call Unit := do
  let m ← get
  if session.callType ≠ .video ∨ m.speakerDefaultedCallId = some session.callId then pure ()
  else do
    modify fun m => { m with speakerDefaultedCallId := some session.callId }
    let _ ← on .resumed
    requestSpeaker session.callId true

def toggleCamera : Call Unit := do
  let m ← get
  match m.current with
  | none => pure ()
  | some session =>
    if session.callType ≠ .video then pure ()
    else do
      let enabled := !session.isCameraEnabled
      let _ ← awaiting (writing session (.camera enabled) (.setCameraEnabled enabled))
      setSession session (.camera enabled)
      let m ← get
      let _ ← sendControl plain session.peerId (if enabled then .cameraOn else .cameraOff) false
        (if session.isGroupCall then m.currentGroupRoutingToken else none)
      pure ()

def switchCamera : Call Unit := do
  let m ← get
  match m.current with
  | none => pure ()
  | some session =>
    if session.callType ≠ .video then pure ()
    else do
      let _ ← awaiting (writing session .otherCamera .switchCamera)
      setSession session .otherCamera

def handleMediaState (state : MediaConnectionState) : Call Unit := do
  let m ← get
  match m.current with
  | none => pure ()
  | some session =>
    if session.isTerminal then pure ()
    else
      match state with
      | .connected => do
        modify fun m => { m with ringTimer := false, reconnectTimer := false }
        setSession session (.connected m.now)
        routeVideoToSpeakerOnce session
      | .disconnected =>
        whenever (session.state = .active) do
          setSession session (.state .reconnecting)
          modify fun m => { m with reconnectTimer := true }
      | .failed => finish .failed .hangup true
      | .closed => whenever (¬ m.terminating) (finish .ended .hangup false)
      | _ => pure ()

def peerChange (peerId : Text) (state : MediaConnectionState) (now : ℤ) : Change :=
  match state with
  | .connected => .peerConnected peerId now
  | .failed | .closed => .peerGone peerId
  | _ => .sameConnected

def handleGroupPeerState (peerId : Text) (state : MediaConnectionState) : Call Unit := do
  let m ← get
  match m.current with
  | none => pure ()
  | some session =>
    if ¬ session.isGroupCall ∨ session.isTerminal ∨ m.terminating then pure ()
    else do
      whenever (state = .connected) (modify fun m => { m with ringTimer := false })
      setSession session (peerChange peerId state m.now)
      whenever (state = .connected ∧ session.state ≠ .active) (routeVideoToSpeakerOnce session)

end Calls
end SecureChat
