import SecureChat.AsyncTasks
import SecureChat.CallModels
import SecureChat.ConversationPreview
import SecureChat.Utf16
/-!
# MissedCallTracker — which calls are recorded and notified as missed

The tracker has a timer of its own for each call that rings here, which starts when the system shows the call.  The
timer, the end of a call that still rings, and a call that comes while the line is busy all trigger it; it then writes
the conversation and shows a notification, and remembers both by the id of the call.  The handlers are programs
(`Async.Program`) that run at once up to an awaited step; a step says which call it is about.

`records` and `presented` say what was written and what was shown, `seen`, `dialed` and `refused` which calls there
were, and `accepted`, `declined`, `ended` and `busied` what has become of them.  Left out: what an accepted call's media
do, the keys of group calls, and `close()`.
-/
namespace SecureChat
namespace MissedCalls

open Async
open Calls (CallDirection CallSession CallState CallType ControlAction)
open ChatControl (Conversations _withoutLastMessage)
open Envelope (StorageMessageContentType)
open GroupControl (Text)
open Program (get modify whenever)
open Storage (ConversationEntity contentTypeName)

structure MissedCallNotification where
  id : ℕ
  callId : Text
  peerId : Text
  peerName : Text
  callType : CallType
  silent : Bool
  isGroupCall : Bool
deriving DecidableEq

def stableNotificationId (value : Text) : ℕ :=
  let hash := (Utf16.units value).foldl (fun hash codeUnit =>
    ((hash ^^^ codeUnit.toNat) * 0x01000193) &&& 0x7fffffff) 0x811c9dc5
  3000 + if hash = 0 then 1 else hash

/-- A missed call was written to a conversation, whose unread count rose by so much. -/
structure Record where
  callId : Text
  conversation : Text
  rise : ℤ
deriving DecidableEq

structure Alarm where
  session : CallSession
  due : ℤ

/-- In milliseconds: the tracker's timer, how long a call rings, and the time that an incoming one rings longer. -/
def timeout : ℤ := 30000
def ringTimeout : ℤ := 60000
def incomingRingGrace : ℤ := 5000

/-- The fields of the call manager and of the tracker; below them the history. -/
structure State where
  current : Option CallSession := none
  pendingOffer : Bool := false
  terminating : Bool := false
  ringTimer : Option ℤ := none
  terminalTimer : Bool := false
  acceptingCall : Bool := false
  busyCalls : Table Text ℤ := .empty
  timers : Table Text Alarm := .empty
  recorded : LinkedSet Text := .empty
  notified : LinkedSet Text := .empty
  pending : Table Text ℕ := .empty
  outcomes : Table ℕ Bool := .empty
  issued : ℕ := 0
  conversations : Conversations := .empty
  now : ℤ := 0
  seen : List Text := []
  dialed : List Text := []
  refused : List Text := []
  busied : List Text := []
  accepted : List Text := []
  declined : List Text := []
  ended : List Text := []
  records : List Record := []
  presented : List MissedCallNotification := []

inductive Op where
  | reportIncoming (session : CallSession)
  | sendRinging
  | accepting (session : CallSession) (last : Bool)
  | connect
  | closeGroupMedia (session : CallSession) (final : CallState)
  | endCall
  | sendBusy (session : CallSession)
  | saveLog (session : CallSession)
  | joined (callId : Text) (operation : ℕ)
  | load (session : CallSession)
  | lookUp (session : CallSession) (found : Option Text)
  | record (session : CallSession) (conversation : Text)
  | presenting (session : CallSession)
  | settled (session : CallSession)

structure Wait where
  op : Op
  ending : Option CallSession := none

structure Answer where
  text : Text := []

abbrev Call (α : Type) := Program Answer Wait State Unit α

def during (ending : Option CallSession) (op : Op) : Call Answer := Program.wait () ⟨op, ending⟩

def on (op : Op) : Call Answer := during none op

namespace State

variable (s : State)

def hasLiveCall : Bool := s.current.any fun t => !t.isTerminal

def cancel (callId : Text) : State := { s with timers := s.timers.remove callId }

def start (session : CallSession) : State :=
  { s with timers := (s.timers.remove session.callId).assign session.callId ⟨session, s.now + timeout⟩ }

def rings : Bool := s.current.any fun t => t.direction = .incoming && t.state = .ringing

def startRingTimeout : State :=
  { s with ringTimer := some (s.now + if s.rings then ringTimeout + incomingRingGrace else ringTimeout) }

def begin (callId : Text) : State :=
  { s with pending := s.pending.assign callId s.issued, issued := s.issued + 1 }

def settle (operation : ℕ) (outcome : Bool) : State :=
  { s with outcomes := s.outcomes.assign operation outcome }

def unreadCount (id : Text) : ℤ := ((s.conversations.get id).map (·.unreadCount)).getD 0

end State

/-! ## The tracker -/

/-- `recordMissedCall` of the conversations. -/
def missed (message : Text) (timestamp : ℤ) (c : ConversationEntity) : ConversationEntity :=
  { _withoutLastMessage c with
      lastMessage := some message
      lastMessageTimestamp := some timestamp
      lastMessageType := some (contentTypeName .system)
      lastMessageOutgoing := false
      unreadCount := c.unreadCount + 1 }

def State.recordMissedCall (s : State) (callId id message : Text) (timestamp : ℤ) : State :=
  let written : State := { s with conversations := s.conversations.patch id (missed message timestamp) }
  { written with
      records := if (s.conversations.get id).isSome
        then ⟨callId, id, written.unreadCount id - s.unreadCount id⟩ :: s.records else s.records }

def targetId (session : CallSession) : Option Text :=
  (if session.isGroupCall then session.groupId else some session.peerId).filter (· ≠ [])

def conversationOf (session : CallSession) (target : Text) (conversations : Conversations) :
    Option ConversationEntity :=
  if session.isGroupCall then conversations.get target
  else conversations.values.find? fun c => decide (c.peerId = target)

def notification (session : CallSession) (target : Text) (conversation : Option ConversationEntity) :
    MissedCallNotification where
  id := stableNotificationId target
  callId := session.callId
  peerId := target
  peerName := if session.isGroupCall then (conversation.map (·.peerName)).getD session.peerName else session.peerName
  callType := session.callType
  silent := decide (session.state = .busy)
  isGroupCall := session.isGroupCall

def State.present (s : State) (shown : MissedCallNotification) : State :=
  { s with recorded := s.recorded.insert shown.callId, presented := shown :: s.presented }

section Tracker

variable (ending : Option CallSession)

def showMissedCall (session : CallSession) (shown : MissedCallNotification) : Call Unit := do
  modify (·.present shown)
  let _ ← during ending (.presenting session)
  modify fun s => { s with notified := s.notified.insert session.callId }

/-- The write of the conversation that was found, at the time when it is asked for. -/
def writeMissedCall (session : CallSession) (id message : Text) (timestamp : ℤ) : Call Unit :=
  .await ⟨.record session id, ending⟩ (fun _ s => s.recordMissedCall session.callId id message timestamp)
    (fun _ _ => .pure ()) (.throw ())

def recordAndNotify (session : CallSession) : Call Unit :=
  match targetId session with
  | none => pure ()
  | some target => do
    let strings ← during ending (.load session)
    let s ← get
    let conversation := conversationOf session target s.conversations
    let _ ← during ending (.lookUp session (conversation.map (·.id)))
    let s ← get
    match conversation with
    | some c => do
      whenever (¬ session.callId ∈ s.recorded) (writeMissedCall ending session c.id strings.text s.now)
      showMissedCall ending session (notification session target conversation)
    | none => showMissedCall ending session (notification session target conversation)

def triggerNow (session : CallSession) : Call Unit := do
  modify (·.cancel session.callId)
  let s ← get
  if session.callId ∈ s.notified then pure ()
  else
    match s.pending.get session.callId with
    | some operation => do
      let _ ← during ending (.joined session.callId operation)
      pure ()
    | none => do
      modify (·.begin session.callId)
      let result ← (recordAndNotify ending session).attempt
      modify (·.settle s.issued result.isOk)
      let _ ← during ending (.settled session)
      modify fun s => { s with pending := s.pending.remove session.callId }
      match result with
      | .ok _ => pure ()
      | .error _ => .throw ()

end Tracker

def trackerTimeout (callId : Text) : Call Unit := do
  let s ← get
  match s.timers.get callId with
  | none => pure ()
  | some alarm => whenever (alarm.due ≤ s.now) (triggerNow none alarm.session)

/-! ## The calls -/

def isMissed (session : CallSession) (final : CallState) : Bool :=
  session.direction = .incoming && session.state = .ringing && final ≠ .rejected && final ≠ .busy

def State.beginEnding (s : State) (session : CallSession) : State :=
  { s with
      terminating := true
      ringTimer := none
      ended := if session.direction = .incoming then session.callId :: s.ended else s.ended }

def State.endWith (s : State) (session : CallSession) (final : CallState) : State :=
  { s with current := some { session with state := final }, pendingOffer := false, terminalTimer := true }

/-- The rest of `_finish`: the others are told, the media are closed and the log is written. -/
def endSession (session : CallSession) (final : CallState) : Call Unit := do
  let _ ← during (some session) .endCall
  modify (·.endWith session final)

def recordMissed (session : CallSession) (final : CallState) : Call Unit :=
  if isMissed session final then triggerNow (some session) session else modify (·.cancel session.callId)

def finish (final : CallState) : Call Unit := do
  let s ← get
  match s.current with
  | none => pure ()
  | some session =>
    if s.terminating then pure ()
    else do
      modify (·.beginEnding session)
      whenever session.isGroupCall do
        let _ ← during (some session) (.closeGroupMedia session final)
      recordMissed session final
      endSession session final

def State.ring (s : State) (session : CallSession) : State :=
  { s with
      terminating := false
      pendingOffer := !session.isGroupCall
      current := some session
      seen := session.callId :: s.seen }

/-- A call rings: the system shows it, then the tracker's timer starts, then the timer of the call. -/
def ring (session : CallSession) : Call Unit := do
  modify (·.ring session)
  let _ ← on (.reportIncoming session)
  modify (·.start session)
  whenever (¬ session.isGroupCall) do
    let _ ← on .sendRinging
  modify State.startRingTimeout

def State.forgetOld (s : State) : State :=
  { s with busyCalls := s.busyCalls.filter fun x => decide (s.now - x.2 ≤ 120000) }

def State.claim (s : State) (session : CallSession) (key : Text) : State :=
  let others := if 128 ≤ s.busyCalls.card
    then s.busyCalls.filter fun x => decide (s.busyCalls.entries.head? ≠ some x) else s.busyCalls
  { s with busyCalls := others.assign key s.now, busied := session.callId :: s.busied }

def recordBusyCall (session : CallSession) (key : Text) : Call Unit := do
  modify State.forgetOld
  let s ← get
  if (s.busyCalls.get key).isSome then pure ()
  else do
    modify (·.claim session key)
    Program.catching (do
      let _ ← on (.saveLog session)
      triggerNow none { session with state := .busy })
      (modify fun s => { s with busyCalls := s.busyCalls.remove key })

/-- An offer or an invitation; while there is another call the line is busy. -/
def handleIncoming (session : CallSession) (key : Text) : Call Unit := do
  let s ← get
  if s.hasLiveCall then do
    modify fun s => { s with refused := session.callId :: s.refused }
    let _ ← (on (.sendBusy session)).attempt
    recordBusyCall session key
  else ring { session with direction := .incoming, state := .ringing }

/-- `initiateCall`, up to where it begins. -/
def dial (session : CallSession) : Call Unit := do
  let s ← get
  whenever (¬ s.hasLiveCall) (modify fun s =>
    { s with
        terminating := false
        current := some { session with direction := .outgoing, state := .initiating }
        dialed := session.callId :: s.dialed })

def State.accept (s : State) (session : CallSession) : State :=
  { s.cancel session.callId with
      ringTimer := if session.isGroupCall then some (s.now + ringTimeout) else none
      current := some { session with state := .connecting }
      accepted := session.callId :: s.accepted }

/-- The call that the acceptance is about is still the current one, and has not ended. -/
def State.stillThere (s : State) (session : CallSession) : Bool :=
  s.current.any fun t => t.callId = session.callId && !t.isTerminal

def answerNative (session : CallSession) (fromNative : Bool) : Call Unit := do
  let _ ← on (.accepting session fromNative)
  whenever (¬ fromNative) do
    let _ ← on (.accepting session true)

/-- `_acceptCall` once the system has answered. -/
def acceptAnswered (session : CallSession) : Call Unit := do
  let s ← get
  if ¬ s.stillThere session ∨ ¬ (session.isGroupCall ∨ s.pendingOffer) then pure ()
  else do
    modify (·.accept session)
    Program.catching (do
      let _ ← on .connect
      modify fun s => { s with pendingOffer := false }) (finish .failed)

def acceptCallNow (fromNative : Bool) : Call Unit := do
  let s ← get
  match s.current with
  | none => pure ()
  | some session =>
    if session.direction ≠ .incoming ∨ session.state ≠ .ringing then pure ()
    else do
      let answered ← (answerNative session fromNative).attempt
      match answered with
      | .error _ => pure ()
      | .ok _ => acceptAnswered session

def acceptCall (fromNative : Bool) : Call Unit := do
  let s ← get
  whenever (¬ s.acceptingCall) do
    modify fun s => { s with acceptingCall := true }
    let _ ← (acceptCallNow fromNative).attempt
    modify fun s => { s with acceptingCall := false }

def State.decline (s : State) : State :=
  match s.current with
  | some session => if s.terminating then s else { s with declined := session.callId :: s.declined }
  | none => s

def rejectCall : Call Unit := do
  modify State.decline
  finish .rejected

def onRingTimeout : Call Unit := do
  let s ← get
  whenever (s.ringTimer.any fun due => due ≤ s.now) do
    modify fun s => { s with ringTimer := none }
    match s.current with
    | none => pure ()
    | some session =>
      if session.isTerminal then pure ()
      else if session.state = .ringing ∨ session.state = .initiating then finish .noAnswer
      else finish .failed

def handleControl (action : ControlAction) : Call Unit := do
  let s ← get
  match s.current with
  | none => pure ()
  | some session =>
    if session.isGroupCall then whenever (action = .hangup) (finish .ended)
    else
      match action with
      | .accept => modify fun s =>
        { s with
            ringTimer := none
            current := some (if session.state = .ringing then { session with state := .connecting } else session) }
      | .reject => finish .rejected
      | .busy => finish .busy
      | .hangup => finish .ended
      | _ => pure ()

def onMediaFailed : Call Unit := do
  let s ← get
  whenever s.hasLiveCall (finish .failed)

def onTerminalTimer : Call Unit := do
  let s ← get
  whenever s.terminalTimer (modify fun s => { s with current := none, terminating := false, terminalTimer := false })

inductive Event where
  | incoming (session : CallSession) (key : Text)
  | dial (session : CallSession)
  | acceptCall (fromNative : Bool)
  | rejectCall
  | endCall
  | control (action : ControlAction)
  | mediaFailed
  | ringTimeout
  | trackerTimeout (callId : Text)
  | terminalTimeout
  | write (conversations : Conversations)
  | clock (now : ℤ)

def program : Event → Call Unit
  | .incoming session key => handleIncoming session key
  | .dial session => dial session
  | .acceptCall fromNative => acceptCall fromNative
  | .rejectCall => rejectCall
  | .endCall => finish .ended
  | .control action => handleControl action
  | .mediaFailed => onMediaFailed
  | .ringTimeout => onRingTimeout
  | .trackerTimeout callId => trackerTimeout callId
  | .terminalTimeout => onTerminalTimer
  | .write conversations => modify fun s => { s with conversations := conversations }
  | .clock now => modify fun s => { s with now := now }

/-- Who waits for an operation gets its outcome; that a result is handed on does not fail. -/
def ready (w : Wait) (answer : Option Answer) (s : State) : Bool :=
  match w.op, answer with
  | .joined _ operation, answer => s.outcomes.get operation == some answer.isSome
  | .settled _, none => false
  | _, _ => true

def tasks : Tasks Answer Wait State Unit Event where
  program := program
  ready := ready

abbrev Pool := Tasks.State Answer Wait State Unit Event

abbrev Step := SecureChat.Pool.Label Event (Option Answer)

def initial : Pool := ⟨{}, []⟩

end MissedCalls
end SecureChat
