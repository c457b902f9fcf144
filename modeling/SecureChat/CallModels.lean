import Mathlib.Data.Int.Notation
import SecureChat.Collections
import SecureChat.GroupControl
/-!
# CallModels — call sessions, media keys and call signals

The data of `call_models.dart`, `call_media_key.dart` and of the call signals of `signal_message.dart`.  `Change` lists
the ways a handler changes a session: each is one use of `copyWith`, and `Change.apply` is what it gives.
-/
namespace SecureChat
namespace Calls

open GroupControl (Text)

inductive CallType where
  | voice | video
deriving DecidableEq

def maxGroupCallParticipants : ℕ := 8

inductive CallDirection where
  | incoming | outgoing
deriving DecidableEq

inductive CallState where
  | idle | initiating | ringing | connecting | active | reconnecting | ended | rejected | busy | failed | noAnswer
deriving DecidableEq

def CallState.isTerminal : CallState → Bool
  | .ended | .rejected | .busy | .failed | .noAnswer => true
  | _ => false

structure CallSession where
  callId : Text
  peerId : Text
  peerName : Text
  callType : CallType
  direction : CallDirection
  state : CallState
  createdAt : Option ℤ := none
  startTime : Option ℤ := none
  duration : Option ℤ := none
  isMuted : Bool := false
  isSpeakerOn : Bool := false
  isCameraEnabled : Bool := true
  isUsingFrontCamera : Bool := true
  isRemoteCameraEnabled : Bool := true
  isGroupCall : Bool := false
  groupId : Option Text := none
  peerIds : List Text := []
  connectedPeerIds : List Text := []
deriving DecidableEq

namespace CallSession

def isTerminal (s : CallSession) : Bool := s.state.isTerminal

end CallSession

def isUnansweredIncomingCall (s : CallSession) : Bool :=
  s.direction = .incoming && (s.state = .ringing || s.state = .initiating)

inductive Change where
  | state (state : CallState)
  | muted (muted : Bool)
  | speaker (enabled : Bool)
  | camera (enabled : Bool)
  | otherCamera
  | remoteCamera (enabled : Bool)
  | connected (now : ℤ)
  | addPeer (id : Text)
  | removePeer (id : Text)
  | coordinator (id name previous : Text)
  | peerConnected (id : Text) (now : ℤ)
  | peerGone (id : Text)
  | sameConnected
  | finished (state : CallState) (duration : ℤ)
deriving DecidableEq

/-- The session that `copyWith` gives. -/
def Change.apply (s : CallSession) : Change → CallSession
  | .state value => { s with state := value }
  | .muted value => { s with isMuted := value }
  | .speaker enabled => { s with isSpeakerOn := enabled }
  | .camera enabled => { s with isCameraEnabled := enabled }
  | .otherCamera => { s with isUsingFrontCamera := !s.isUsingFrontCamera }
  | .remoteCamera enabled => { s with isRemoteCameraEnabled := enabled }
  | .connected now => { s with state := .active, startTime := some (s.startTime.getD now) }
  | .addPeer id => { s with peerIds := s.peerIds ++ [id] }
  | .removePeer id => { s with
      peerIds := s.peerIds.filter (· ≠ id), connectedPeerIds := s.connectedPeerIds.filter (· ≠ id) }
  | .coordinator id name previous => { s with
      peerId := id, peerName := name, peerIds := s.peerIds.filter (· ≠ previous) }
  | .peerConnected id now => { s with
      connectedPeerIds := ((LinkedSet.ofList s.connectedPeerIds).insert id).elems, state := .active,
      startTime := some (s.startTime.getD now) }
  | .peerGone id => { s with
      connectedPeerIds := ((LinkedSet.ofList s.connectedPeerIds).erase id).elems }
  | .sameConnected => { s with connectedPeerIds := (LinkedSet.ofList s.connectedPeerIds).elems }
  | .finished final duration => { s with state := final, duration := some duration }

structure CallMediaKey where
  callId : Text
  epoch : ℕ
  key : List UInt8
deriving DecidableEq

inductive ControlAction where
  | accept | reject | busy | hangup | cameraOff | cameraOn | ringing
  | other (action : Text)
deriving DecidableEq

structure SdpOfferSignal where
  senderId : Text
  sdp : Text
  callType : Option CallType

structure SdpAnswerSignal where
  senderId : Text
  sdp : Text

structure IceCandidateSignal where
  senderId : Text
  candidate : Text
  sdpMid : Option Text
  sdpMLineIndex : ℤ
deriving DecidableEq

structure CallControlSignal where
  senderId : Text
  action : ControlAction
  groupId : Option Text

structure GroupCallInviteSignal where
  senderId : Text
  groupId : Text
  callId : Text
  callType : Option CallType
  participants : List Text
  mediaE2ee : Bool

structure GroupCallJoinRequestSignal where
  senderId : Text
  groupId : Text
  callId : Text
  callType : Option CallType
  mediaE2ee : Bool

structure GroupCallErrorSignal where
  senderId : Text
  groupId : Text
  callId : Text

structure GroupCallMemberJoinedSignal where
  senderId : Text
  groupCallId : Text
  joinedMemberId : Text

structure GroupCallMemberLeftSignal where
  groupId : Text
  groupCallId : Text
  leftMemberId : Text

structure GroupCallCoordinatorChangedSignal where
  groupId : Text
  groupCallId : Text
  newCoordinatorId : Text
  previousCoordinatorId : Text

structure GroupCallStatusResponseSignal where
  senderId : Text
  groupId : Text
  isActive : Bool

/-- A signal that is addressed to the user; a call type no client knows is `none`. -/
inductive Signal where
  | offer (signal : SdpOfferSignal)
  | answer (signal : SdpAnswerSignal)
  | ice (signal : IceCandidateSignal)
  | control (signal : CallControlSignal)
  | invite (signal : GroupCallInviteSignal)
  | joinRequest (signal : GroupCallJoinRequestSignal)
  | error (signal : GroupCallErrorSignal)
  | memberJoined (signal : GroupCallMemberJoinedSignal)
  | memberLeft (signal : GroupCallMemberLeftSignal)
  | coordinatorChanged (signal : GroupCallCoordinatorChangedSignal)
  | status (signal : GroupCallStatusResponseSignal)

structure ActiveGroupCall where
  groupId : Text
  routingToken : Text
  callId : Text
  coordinatorId : Text
  callType : CallType
  mediaE2ee : Bool
  participants : List Text

inductive MediaConnectionState where
  | newConnection | connecting | connected | disconnected | failed | closed
deriving DecidableEq

inductive NativeCallActionType where
  | answer | stop | mute | unmute | speakerOn | speakerOff | openCall
deriving DecidableEq

def callTypeOf (wire : Option CallType) : CallType := if wire = some .video then .video else .voice

end Calls
end SecureChat
