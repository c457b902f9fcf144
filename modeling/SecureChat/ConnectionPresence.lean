import Mathlib.Logic.Function.Basic
import SecureChat.Collections
import SecureChat.Connections
/-!
# ConnectionPresence — the presence of `ConnectionManager`

The handlers that emit or change presence: `addConnection`, `removeConnection`, `subscribePresence`,
`unsubscribePresence` and `handlePresenceUpdate`.  They run in coroutines of their own, so each operation on a shared
map and each frame sent is a step; the iteration over the subscribers takes them as they are when it begins.  `frames`
is what has been sent to a session that was open, and whether its sender hid the last-seen time at that moment.
-/
namespace SecureChat
namespace Presence

variable {U : Type}

/-- A `presence_update` frame; the recipient is `none` for `"subscriber"`. -/
structure Frame (U : Type) where
  senderId : U
  recipientId : Option U
  timestamp : ℕ
  isOnline : Bool
  lastSeen : ℕ
  hideLastSeen : Bool
deriving DecidableEq

structure Sent (U : Type) where
  receiver : U
  frame : Frame U
  hidden : Bool
deriving DecidableEq

structure Manager (U : Type) where
  connections : U → Connections
  lastSeenMap : U → Option ℕ
  foregroundUsers : U → Bool
  presenceSubscribers : Table U (LinkedSet U)
  hideLastSeenUsers : U → Bool
  frames : List (Sent U)

def maxPresenceSubscriptions : ℕ := 512

/-- A call of a handler, before each of its steps. -/
inductive Handler (U : Type) where
  | connecting (userId : U) (session : ℕ) (callCapable : Bool)
  | disconnecting (userId : U) (session : Option ℕ)
  | leaving (userId : U)
  | leftForeground (userId : U)
  | leftAt (userId : U) (now : ℕ)
  | cleaning (userId : U)
  | updating (userId : U) (isOnline hideLastSeen : Bool)
  | updatingForeground (userId : U) (isOnline hideLastSeen : Bool)
  | updatingLastSeen (userId : U) (hideLastSeen : Bool)
  | announcing (userId : U) (isOnline hideLastSeen : Bool)
  | notifying (frame : Frame U) (subscribers : List U) (cleans : Bool)
  | subscribing (subscriberId targetUserId : U)
  | adding (subscriberId targetUserId : U)
  | responding (requesterId targetUserId : U)
  | answering (requesterId targetUserId : U) (session : ℕ) (isOnline : Bool)
  | sending (requesterId : U) (session : ℕ) (frame : Frame U)
  | unsubscribing (subscriberId targetUserId : U)
  | finished
deriving DecidableEq

/-- What a step finds: the time, the number of other users with a connection, and whether the frame is lost. -/
structure Reading where
  now : ℕ
  others : ℕ
  lost : Bool

inductive Request (U : Type) where
  | addConnection (userId : U) (session : ℕ) (callCapable : Bool)
  | removeConnection (userId : U) (session : Option ℕ)
  | handlePresenceUpdate (userId : U) (isOnline hideLastSeen : Bool)
  | subscribePresence (subscriberId targetUserId : U)
  | unsubscribePresence (subscriberId targetUserId : U)

def spawn : Request U → Handler U
  | .addConnection userId session callCapable => .connecting userId session callCapable
  | .removeConnection userId session => .disconnecting userId session
  | .handlePresenceUpdate userId isOnline hideLastSeen => .updating userId isOnline hideLastSeen
  | .subscribePresence subscriberId targetUserId => .subscribing subscriberId targetUserId
  | .unsubscribePresence subscriberId targetUserId => .unsubscribing subscriberId targetUserId

namespace Manager

def init : Manager U where
  connections _ := Connections.init
  lastSeenMap _ := none
  foregroundUsers _ := false
  presenceSubscribers := Table.empty
  hideLastSeenUsers _ := false
  frames := []

def deliver (receiver : U) (frame : Frame U) (s : Manager U) : Manager U :=
  { s with frames := ⟨receiver, frame, s.hideLastSeenUsers frame.senderId⟩ :: s.frames }

variable [DecidableEq U]

def connected (userId : U) (s : Manager U) : Bool := (s.connections userId).current.isSome

/-- `presenceSubscribers[targetUserId]`. -/
def subscribers (targetUserId : U) (s : Manager U) : LinkedSet U :=
  (s.presenceSubscribers.get targetUserId).getD LinkedSet.empty

def subscriptionCount (subscriberId : U) (s : Manager U) : ℕ :=
  s.presenceSubscribers.countP fun subscribers => decide (subscriberId ∈ subscribers)

def lastFrame (userId target : U) (s : Manager U) : Option (Frame U) :=
  (s.frames.find? fun x => decide (x.receiver = userId ∧ x.frame.senderId = target)).map Sent.frame

def setConnections (userId : U) (c : Connections) (s : Manager U) : Manager U :=
  { s with connections := Function.update s.connections userId c }

def setForeground (userId : U) (b : Bool) (s : Manager U) : Manager U :=
  { s with foregroundUsers := Function.update s.foregroundUsers userId b }

def setLastSeen (userId : U) (now : ℕ) (s : Manager U) : Manager U :=
  { s with lastSeenMap := Function.update s.lastSeenMap userId (some now) }

def setHideLastSeen (userId : U) (b : Bool) (s : Manager U) : Manager U :=
  { s with hideLastSeenUsers := Function.update s.hideLastSeenUsers userId b }

def addSubscriber (subscriberId targetUserId : U) (s : Manager U) : Manager U :=
  { s with presenceSubscribers :=
    s.presenceSubscribers.put targetUserId ((s.subscribers targetUserId).insert subscriberId) }

/-- `unsubscribePresence`; a target without subscribers keeps no entry. -/
def removeSubscriber (subscriberId targetUserId : U) (s : Manager U) : Manager U :=
  match s.presenceSubscribers.get targetUserId with
  | none => s
  | some subscribers =>
    let left := subscribers.erase subscriberId
    { s with presenceSubscribers :=
      if left.card = 0 then s.presenceSubscribers.remove targetUserId
      else s.presenceSubscribers.put targetUserId left }

def cleanupSubscriptions (userId : U) (s : Manager U) : Manager U :=
  { s with presenceSubscribers :=
    s.presenceSubscribers.filterMapValues fun subscribers => some (subscribers.erase userId) }

/-- `notifyPresenceChange`, up to the first frame. -/
def notifyPresenceChange (frame : Frame U) (cleans : Bool) (s : Manager U) : Handler U :=
  .notifying frame (s.subscribers frame.senderId).elems cleans

def exec (s : Manager U) (h : Handler U) (e : Reading) : Option (Manager U × Handler U) :=
  match h with
  | .connecting userId session callCapable =>
    match (s.connections userId).admitSession e.others session callCapable with
    | none => some (s, .finished)
    | some (_, c) => some (s.setConnections userId c, .finished)
  | .disconnecting userId session =>
    let removed := (s.connections userId).remove session
    if removed.1 then some (s.setConnections userId removed.2, .leaving userId) else some (s, .finished)
  | .leaving userId => some (s.setForeground userId false, .leftForeground userId)
  | .leftForeground userId => some (s.setLastSeen userId e.now, .leftAt userId e.now)
  | .leftAt userId now =>
    if s.hideLastSeenUsers userId then some (s, .cleaning userId)
    else some (s, s.notifyPresenceChange ⟨userId, none, e.now, false, now, false⟩ true)
  | .cleaning userId => some (s.cleanupSubscriptions userId, .finished)
  | .updating userId isOnline hideLastSeen =>
    some (s.setHideLastSeen userId hideLastSeen, .updatingForeground userId isOnline hideLastSeen)
  | .updatingForeground userId isOnline hideLastSeen =>
    some (s.setForeground userId isOnline,
      if isOnline then .announcing userId isOnline hideLastSeen else .updatingLastSeen userId hideLastSeen)
  | .updatingLastSeen userId hideLastSeen =>
    some (s.setLastSeen userId e.now, .announcing userId false hideLastSeen)
  | .announcing userId isOnline hideLastSeen =>
    if hideLastSeen then some (s, s.notifyPresenceChange ⟨userId, none, e.now, isOnline, 0, true⟩ false)
    else
      let lastSeen := if isOnline then e.now else (s.lastSeenMap userId).getD e.now
      some (s, s.notifyPresenceChange ⟨userId, none, e.now, isOnline, lastSeen, false⟩ false)
  | .notifying frame [] cleans => some (s, if cleans then .cleaning frame.senderId else .finished)
  | .notifying frame (subscriberId :: rest) cleans =>
    if s.connected subscriberId ∧ e.lost = false then
      some (s.deliver subscriberId frame, .notifying frame rest cleans)
    else some (s, .notifying frame rest cleans)
  | .subscribing subscriberId targetUserId =>
    if maxPresenceSubscriptions ≤ s.subscriptionCount subscriberId then some (s, .finished)
    else some (s, .adding subscriberId targetUserId)
  | .adding subscriberId targetUserId =>
    some (s.addSubscriber subscriberId targetUserId, .responding subscriberId targetUserId)
  | .responding requesterId targetUserId =>
    match (s.connections requesterId).current with
    | none => some (s, .finished)
    | some session => some (s, .answering requesterId targetUserId session (s.foregroundUsers targetUserId))
  | .answering requesterId targetUserId session isOnline =>
    if s.hideLastSeenUsers targetUserId then
      some (s, .sending requesterId session ⟨targetUserId, some requesterId, e.now, isOnline, 0, true⟩)
    else
      let lastSeen := if isOnline then e.now else (s.lastSeenMap targetUserId).getD 0
      some (s, .sending requesterId session ⟨targetUserId, some requesterId, e.now, isOnline, lastSeen, false⟩)
  | .sending requesterId session frame =>
    if (s.connections requesterId).current = some session ∧ e.lost = false then
      some (s.deliver requesterId frame, .finished)
    else some (s, .finished)
  | .unsubscribing subscriberId targetUserId => some (s.removeSubscriber subscriberId targetUserId, .finished)
  | .finished => none

end Manager

end Presence
end SecureChat
