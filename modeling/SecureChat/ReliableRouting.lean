import SecureChat.Connections
import SecureChat.ReliableLedger
import SecureChat.Runs
/-!
# ReliableRouting — reliable envelopes of one recipient, from `routeMessage` to a session

`routeMessage` enqueues, then looks up the recipient's session, then sends; `addConnection` registers a session, then
drains the queue to it.  Whatever is queued is therefore covered for the registered session: it has been sent to it, or
its drain is still to send it, or a `routeMessage` call is.  Calls of `routeMessage` and sessions are numbered, and
every socket send may fail.
-/
namespace SecureChat
namespace Reliable

open Redis Runs

/-- Where a call of `routeMessage` stands after the enqueue: before the lookup, or before the send. -/
inductive Route (τ μ : Type) where
  | idle
  | lookup (token : τ) (deliverable : μ)
  | sending (token : τ) (deliverable : μ) (session : ℕ)
  | done
deriving DecidableEq

variable {τ π μ : Type}

def Route.finished : Route τ μ → Bool
  | .idle | .done => true
  | _ => false

def Queued.payload : Queued π → Option π
  | .written p | .existing p => some p
  | .full => none

/-- The recipient's queue and sessions.  `sent` and `failed` are what happened on each socket; `accepted` is the time of
the last enqueue of a token that was accepted, `acked` whether it was acknowledged since, and `latest` the latest
reading of any clock so far. -/
structure Routing (τ π μ : Type) where
  queue : Queue τ π
  connections : Connections
  drains : ℕ → Drain τ π
  sent : ℕ → List (τ × μ)
  failed : ℕ → Bool
  routes : ℕ → Route τ μ
  accepted : τ → Option ℕ
  acked : τ → Bool
  latest : ℤ

inductive Routing.Event (τ π : Type) where
  | route (i : ℕ) (token : τ) (payload : π) (now : ℤ)
  | lookup (i : ℕ)
  | send (i : ℕ) (sendOk : Bool)
  | connect (n : ℕ) (callCapable : Bool) (others : ℕ) (shuttingDown : Bool)
  | drain (n : ℕ) (now : ℤ) (sendOk : Bool)
  | abandon (n : ℕ)
  | disconnect (session : Option ℕ)
  | acknowledge (token : τ)
  | elapse (micros : ℕ)

/-- `nowMs - offlineQueueTtlSeconds * 1000`. -/
def ServerPrivacy.cutoff (P : ServerPrivacy π μ) (now : ℤ) : ℤ := now - P.offlineQueueTtlSeconds * 1000

namespace Routing

def setRoute (i : ℕ) (r : Route τ μ) (s : Routing τ π μ) : Routing τ π μ :=
  { s with routes := Function.update s.routes i r }

def setDrain (n : ℕ) (d : Drain τ π) (s : Routing τ π μ) : Routing τ π μ :=
  { s with drains := Function.update s.drains n d }

def socket (n : ℕ) (out : Sent τ μ) (s : Routing τ π μ) : Routing τ π μ :=
  match out with
  | .nothing => s
  | .frame t m => { s with sent := Function.update s.sent n ((t, m) :: s.sent n) }
  | .failed => { s with failed := Function.update s.failed n true }

def latestAt (n : ℕ) (now : ℤ) (s : Routing τ π μ) : ℤ :=
  match s.drains n with
  | .purging => max s.latest now
  | _ => s.latest

variable [LinearOrder τ]

def init : Routing τ π μ where
  queue := Queue.empty
  connections := Connections.init
  drains _ := .idle
  sent _ := []
  failed _ := false
  routes _ := .idle
  accepted _ := none
  acked _ := false
  latest := 0

/-- `queueReliableMessage`: the enqueue script, and the stored envelope opened again. -/
def enqueue (P : ServerPrivacy π μ) (i : ℕ) (t : τ) (p : π) (now : ℤ) (s : Routing τ π μ) : Routing τ π μ :=
  let (answer, q) := s.queue.enqueue P t p (P.cutoff now)
  let s' := { s with queue := q, latest := max s.latest now }
  let s' := match answer with
    | .written _ =>
      { s' with accepted := Function.update s.accepted t (some s.queue.nowMs), acked :=
        Function.update s.acked t false }
    | _ => s'
  match answer.payload.bind P.openQueue with
  | none => s'
  | some m => s'.setRoute i (.lookup t m)

def step (P : ServerPrivacy π μ) (s : Routing τ π μ) : Event τ π → Option (Routing τ π μ)
  | .route i t p now => if (s.routes i).finished then some (s.enqueue P i t p now) else none
  | .lookup i =>
    match s.routes i with
    | .lookup t m =>
      match s.connections.current with
      | none => some (s.setRoute i .done)
      | some n => some (s.setRoute i (.sending t m n))
    | _ => none
  | .send i sendOk =>
    match s.routes i with
    | .sending t m n => some ((s.setRoute i .done).socket n (if sendOk then .frame t m else .failed))
    | _ => none
  | .connect n callCapable others shuttingDown =>
    match s.drains n with
    | .idle =>
      if shuttingDown then some s
      else match s.connections.admitSession others n callCapable with
        | none => some s
        | some (_, c) => some { s.setDrain n .purging with connections := c }
    | _ => none
  | .drain n now sendOk =>
    match drainStep P (P.cutoff now) sendOk s.queue (s.drains n) with
    | none => none
    | some (d, q, out) =>
      some (({ s with queue := q, latest := s.latestAt n now }.setDrain n d).socket n out)
  | .abandon n => if (s.drains n).finished then none else some (s.setDrain n .done)
  | .disconnect session => some { s with connections := (s.connections.remove session).2 }
  | .acknowledge t => some { s with queue := (s.queue.acknowledge t).2, acked := Function.update s.acked t true }
  | .elapse d =>
    let q := s.queue.tick d
    some { s with queue := q, latest := max s.latest q.nowMs }

end Routing

def Drain.covers (d : Drain τ π) (t : τ) (p : π) : Prop :=
  match d with
  | .purging | .listing => True
  | .reading tokens => t ∈ tokens
  | .sending rest | .unindexing _ rest => (t, some p) ∈ rest
  | .idle | .done => False

instance [DecidableEq τ] [DecidableEq π] (t : τ) (p : π) : ∀ d : Drain τ π, Decidable (d.covers t p)
  | .purging | .listing => inferInstanceAs (Decidable True)
  | .reading tokens => inferInstanceAs (Decidable (t ∈ tokens))
  | .sending rest | .unindexing _ rest => inferInstanceAs (Decidable ((t, some p) ∈ rest))
  | .idle | .done => inferInstanceAs (Decidable False)

/-- **The condition under which routing keeps its promises**: a drain takes no token out of the index whose item is
stored, and the drain of the registered session is given up, for a failed Redis call, only when what it was still to
send has been sent. -/
def Routing.Sound [LinearOrder τ] (P : ServerPrivacy π μ) (s : Routing τ π μ) : Routing.Event τ π → Prop
  | .drain n _ _ => ∀ t ∈ (s.drains n).zremNext, s.queue.item t = none
  | .abandon n => s.connections.current = some n → s.failed n = false →
    ∀ t ∈ s.queue.index.keys, ∀ i ∈ s.queue.item t, (s.drains n).covers t i.val →
      ∀ m ∈ P.openQueue i.val, (t, m) ∈ s.sent n
  | _ => True

instance [LinearOrder τ] [DecidableEq π] [DecidableEq μ] (P : ServerPrivacy π μ) (s : Routing τ π μ) :
    ∀ e, Decidable (s.Sound P e)
  | .drain n _ _ => inferInstanceAs (Decidable (∀ t ∈ (s.drains n).zremNext, s.queue.item t = none))
  | .abandon n => inferInstanceAs (Decidable (s.connections.current = some n → s.failed n = false →
    ∀ t ∈ s.queue.index.keys, ∀ i ∈ s.queue.item t, (s.drains n).covers t i.val →
      ∀ m ∈ P.openQueue i.val, (t, m) ∈ s.sent n))
  | .route .. | .lookup _ | .send .. | .connect .. | .disconnect _ | .acknowledge _ | .elapse _ =>
    inferInstanceAs (Decidable True)

end Reliable
end SecureChat
