import SecureChat.GroupCallSessionStore
import SecureChat.ThreadPool
/-!
# GroupCallDeparture — how members leave a group call

A member leaves by disconnecting, by a HANGUP, or because its join is refused for want of media encryption.  Each
handler does this in several operations on the store: it takes a snapshot of the call, takes its member out, reads what
remains, and ends the call or hands the coordinator's role on.  Between them other handlers run.
-/
namespace SecureChat
namespace GroupCall

/-- Where a departure goes on: a HANGUP is about one call, a disconnect about all the user was found in. -/
inductive Route
  | hangup
  | disconnect (rest : List ActiveCall)
deriving DecidableEq

inductive Handler
  | disconnecting (userId : String)
  | scanning (userId : String) (pending : List String) (affectedCalls : List ActiveCall)
  | hangingUp (senderId groupId : String)
  | joining (groupId callId coordinatorId callType senderId : String) (capable : Bool)
  | removing (userId : String) (active : ActiveCall) (route : Route)
  | reading (userId : String) (active : ActiveCall) (route : Route)
  | ending (userId : String) (active : ActiveCall) (route : Route)
  | transferring (userId : String) (active : ActiveCall) (candidate : String) (route : Route)
  | refusing (groupId senderId : String)
  | notifying (groupId : String)
  | finished
deriving DecidableEq

inductive Request
  | disconnect (userId : String)
  | hangup (senderId groupId : String)
  | join (groupId callId coordinatorId callType senderId : String) (capable : Bool)

def Request.handler : Request → Handler
  | .disconnect u => .disconnecting u
  | .hangup u g => .hangingUp u g
  | .join g c o t u e => .joining g c o t u e

structure Reading where
  now : ℤ
  online : List String

def Reading.connected (r : Reading) (userId : String) : Bool := decide (userId ∈ r.online)

def Route.next (userId : String) : Route → Handler
  | .hangup => .finished
  | .disconnect [] => .finished
  | .disconnect (active :: rest) => .removing userId active (.disconnect rest)

/-- What a handler decides once its member is out and it has read the call again. -/
def settle (r : Reading) (userId : String) (active : ActiveCall) (route : Route) (refreshed : Option ActiveCall) :
    Handler :=
  let remaining := (refreshed.map fun c => c.participants.elems.filter fun u => decide (u ≠ userId)).getD []
  if remaining.length ≤ 1 then .ending userId active route
  else if active.coordinatorId = userId then
    let joined := (refreshed.map fun c => c.joinedParticipants).getD LinkedSet.empty
    match remaining.find? fun u => decide (u ∈ joined) && r.connected u with
    | none => .ending userId active route
    | some candidate => .transferring userId active candidate route
  else route.next userId

/-- A disconnect's hand-over asks again whether the candidate is connected, a HANGUP's does not. -/
def Route.onlineFilter (r : Reading) : Route → String → Bool
  | .hangup => fun _ => true
  | .disconnect _ => r.connected

def Handler.exec (s : Store) (h : Handler) (r : Reading) : Option (Store × Handler) :=
  match h with
  | .disconnecting userId =>
    let s := s.purgeExpired r.now
    some (s, .scanning userId (s.active.entries.map Prod.fst) [])
  | .scanning userId [] calls => some (s, (Route.disconnect calls).next userId)
  | .scanning userId (g :: gs) calls =>
    match s.active.get g with
    | none => some (s, .scanning userId gs calls)
    | some c =>
      if userId ∈ c.participants ∨ c.coordinatorId = userId then some (s, .scanning userId gs (calls ++ [c]))
      else some (s, .scanning userId gs calls)
  | .hangingUp senderId g =>
    let read := s.get r.now g
    match read.2 with
    | none => some (read.1, .finished)
    | some active =>
      if ¬ senderId ∈ active.participants then some (read.1, .finished)
      else some (read.1, .removing senderId active .hangup)
  | .joining g c o t u e =>
    let joined := s.confirmJoin g c o t u e r.now
    some (joined.1, if joined.2 = .ENCRYPTION_REQUIRED then .refusing g u else .finished)
  | .removing userId active route =>
    some ((s.removeParticipant active.groupId userId r.now).1, .reading userId active route)
  | .reading userId active route =>
    let read := s.get r.now active.groupId
    some (read.1, settle r userId active route read.2)
  | .ending userId active route => some (s.endCall active.groupId (some active.instanceId), route.next userId)
  | .transferring userId active candidate route =>
    some ((s.transferCoordinator active.groupId candidate (route.onlineFilter r) r.now).1, route.next userId)
  | .refusing g u => some ((s.removeParticipant g u r.now).1, .notifying g)
  | .notifying g => some ((s.get r.now g).1, .finished)
  | .finished => none

abbrev Server := Pool Store Handler

abbrev serve : Server → Pool.Label Request Reading → Option Server := Pool.step Request.handler Handler.exec

def ActiveCall.without (c : ActiveCall) (u : String) : ActiveCall :=
  { c with
    participants := c.participants.erase u
    joinedParticipants := c.joinedParticipants.erase u
    mediaE2eeParticipants := c.mediaE2eeParticipants.erase u }

def ActiveCall.joinedBy (c : ActiveCall) (u : String) (e : Bool) : ActiveCall :=
  { c with
    participants := c.participants.insert u
    joinedParticipants := c.joinedParticipants.insert u
    mediaE2eeParticipants := if e then c.mediaE2eeParticipants.insert u else c.mediaE2eeParticipants.erase u }

def Handler.closes (c : ActiveCall) : Handler → Prop
  | .ending _ active _ => active.groupId = c.groupId
  | .reading u active _ => active.groupId = c.groupId ∧ (c.participants.erase u).card ≤ 1
  | _ => False

def Handler.hands (c : ActiveCall) : Handler → Prop
  | .reading u active _ => active.groupId = c.groupId ∧ active.coordinatorId = u
  | .transferring _ active candidate _ => active.groupId = c.groupId ∧ candidate ∈ c.joinedParticipants
  | _ => False

instance (c : ActiveCall) : DecidablePred (Handler.closes c)
  | .ending _ active _ => inferInstanceAs (Decidable (active.groupId = c.groupId))
  | .reading u active _ =>
    inferInstanceAs (Decidable (active.groupId = c.groupId ∧ (c.participants.erase u).card ≤ 1))
  | .disconnecting _ | .scanning _ _ _ | .hangingUp _ _ | .joining _ _ _ _ _ _ | .removing _ _ _
  | .transferring _ _ _ _ | .refusing _ _ | .notifying _ | .finished => inferInstanceAs (Decidable False)

instance (c : ActiveCall) : DecidablePred (Handler.hands c)
  | .reading u active _ =>
      inferInstanceAs (Decidable (active.groupId = c.groupId ∧ active.coordinatorId = u))
  | .transferring _ active candidate _ =>
    inferInstanceAs (Decidable (active.groupId = c.groupId ∧ candidate ∈ c.joinedParticipants))
  | .disconnecting _ | .scanning _ _ _ | .hangingUp _ _ | .joining _ _ _ _ _ _ | .removing _ _ _ | .ending _ _ _
  | .refusing _ _ | .notifying _ | .finished => inferInstanceAs (Decidable False)

def Sized (c : ActiveCall) (hs : List Handler) : Prop := 2 ≤ c.participants.card ∨ ∃ h ∈ hs, h.closes c

/-- The call is coordinated by a joined member, or some handler ends it or hands it over. -/
def Led (c : ActiveCall) (hs : List Handler) : Prop :=
  c.coordinatorId ∈ c.joinedParticipants ∨ ∃ h ∈ hs, h.closes c ∨ h.hands c

instance (c : ActiveCall) (hs : List Handler) : Decidable (Sized c hs) :=
  inferInstanceAs (Decidable (2 ≤ c.participants.card ∨ ∃ h ∈ hs, h.closes c))

instance (c : ActiveCall) (hs : List Handler) : Decidable (Led c hs) :=
  inferInstanceAs (Decidable (c.coordinatorId ∈ c.joinedParticipants ∨ ∃ h ∈ hs, h.closes c ∨ h.hands c))

/-- The condition on a step, with the other handlers: nobody leaves, joins or fails to take over such that the call is
without a joined coordinator and no other handler ends it or hands it over. -/
def Handler.safe (s : Store) (h : Handler) (r : Reading) (others : List Handler) : Prop :=
  match h with
  | .removing u active _ =>
    ∀ c ∈ (s.get r.now active.groupId).2, u ∈ c.participants →
      active.coordinatorId = u ∨ (c.participants.erase u).card ≤ 1 ∨ Led (c.without u) others
  | .transferring _ active candidate route =>
    ∀ c ∈ (s.get r.now active.groupId).2, candidate ∈ c.joinedParticipants →
      route.onlineFilter r candidate = true ∨ Led c others
  | .joining g c o t u e =>
    ∀ call ∈ (s.get r.now g).2, (s.confirmJoin g c o t u e r.now).2 = .ADDED ∨
      (s.confirmJoin g c o t u e r.now).2 = .ALREADY_PRESENT → Led (call.joinedBy u e) others
  | .refusing g u =>
    ∀ c ∈ (s.get r.now g).2, u ∈ c.participants → Sized (c.without u) others ∧ Led (c.without u) others
  | _ => True

instance (s : Store) (h : Handler) (r : Reading) (others : List Handler) : Decidable (h.safe s r others) := by
  cases h <;> unfold Handler.safe <;> infer_instance

end GroupCall
end SecureChat
