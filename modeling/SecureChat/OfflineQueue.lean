import Mathlib
import SecureChat.Connections
import SecureChat.Redis
import SecureChat.Runs
/-!
# OfflineQueue — frames outside the reliable path, from `routeMessage` to a session

`routeMessage` looks the recipient's session up first and queues afterwards, when it found none or its send failed;
`addConnection` registers a session first and drains the queues afterwards.  Each queue (messages, file transfers) is a
sorted set whose members are the sealed frames themselves.  Calls of `routeMessage` and sessions are numbered; a call
takes one step for each lookup, send or Redis command, and so does a drain.
-/
namespace SecureChat
namespace Offline

open Redis Runs

/-- The types `MessageTypes` tells apart. -/
inductive MessageType where
  | typingIndicator | presenceUpdate | presenceSubscribe | presenceUnsubscribe | audioData | videoData
  | fileTransfer
  | sdpOffer | sdpAnswer | iceCandidate | callControl
  | groupCallInvite
  | encryptedMessage
  | other (type : String)
deriving DecidableEq

namespace MessageType

def transient : List MessageType :=
  [typingIndicator, presenceUpdate, presenceSubscribe, presenceUnsubscribe, audioData, videoData]

def pendingCall : List MessageType := [sdpOffer, sdpAnswer, iceCandidate, callControl]

def requiresCallHandler : List MessageType := pendingCall ++ [groupCallInvite]

end MessageType

inductive Bucket where
  | message
  | file
deriving DecidableEq

def offlineQueueMaxMessages : ℕ := 1000

def offlineQueueMaxBytes : ℕ := 50 * 1024 * 1024

def offlineFileMaxBytes : ℕ := 10 * 1024 * 1024

def Bucket.maxBytes : Bucket → ℕ
  | .message => offlineQueueMaxBytes
  | .file => offlineFileMaxBytes

/-- What the path uses of `ServerPrivacy` and `MessageTypes`.  `sealQueue k` is the seal under the nonce of call `k`:
it opens again, and nonces do not repeat. -/
structure ServerPrivacy (π μ : Type) where
  offlineQueueTtlSeconds : ℕ
  offlineFileTtlSeconds : ℕ
  sealQueue : ℕ → μ → π
  openQueue : π → Option μ
  len : π → ℕ
  extract : μ → Option MessageType
  extractTimestamp : μ → Option ℤ
  open_seal : ∀ k m, openQueue (sealQueue k m) = some m
  seal_fresh : ∀ k k' m m', sealQueue k m = sealQueue k' m' → k = k' ∧ m = m'

variable {π μ : Type}

namespace ServerPrivacy

def isTransient (P : ServerPrivacy π μ) (m : μ) : Bool :=
    (P.extract m).any (fun t => decide (t ∈ MessageType.transient))

def requiresCallHandler (P : ServerPrivacy π μ) (m : μ) : Bool :=
  (P.extract m).any (fun t => decide (t ∈ MessageType.requiresCallHandler))

def bucket (P : ServerPrivacy π μ) (m : μ) : Bucket :=
  if P.extract m = some .fileTransfer then .file else .message

def ttlSeconds (P : ServerPrivacy π μ) : Bucket → ℕ
  | .message => P.offlineQueueTtlSeconds
  | .file => P.offlineFileTtlSeconds

def sdpOfferMaxAgeMs : ℤ := 30000

/-- An SDP offer that is too old at `now`, by its own timestamp. -/
def stale (P : ServerPrivacy π μ) (now : ℤ) (m : μ) : Bool :=
  decide (P.extract m = some .sdpOffer) && (P.extractTimestamp m).any (fun ts => decide (sdpOfferMaxAgeMs < now - ts))

end ServerPrivacy

/-- A call of `routeMessage`; `routed`, `dropped` and `queued` are its three ends. -/
inductive Route (μ : Type) where
  | idle
  | looking (m : μ)
  | sending (m : μ) (session : ℕ)
  | queueing (m : μ)
  | trimming (m : μ)
  | expiring (m : μ)
  | routed (m : μ)
  | dropped (m : μ)
  | queued (m : μ)
deriving DecidableEq

/-- `deliverOfflineMessages`: before the clock is read, before a bucket is read, in the loop over what was read, or
between a send and its `ZREM`. -/
inductive Drain (π : Type) where
  | idle
  | starting
  | listing (now : ℤ) (bucket : Bucket)
  | sending (now : ℤ) (bucket : Bucket) (rest : List π)
  | removing (now : ℤ) (bucket : Bucket) (p : π) (rest : List π)
  | done
deriving DecidableEq

def Route.finished : Route μ → Bool
  | .idle | .routed _ | .dropped _ | .queued _ => true
  | _ => false

def Drain.finished : Drain π → Bool
  | .idle | .done => true
  | _ => false

inductive Verdict (μ : Type) where
  | discard
  | leave
  | deliver (m : μ)
deriving DecidableEq

def verdict (P : ServerPrivacy π μ) (callCapable : Bool) (now : ℤ) (p : π) : Verdict μ :=
  match P.openQueue p with
  | none => .discard
  | some m =>
    if P.stale now m then .discard
    else if !callCapable && P.requiresCallHandler m then .leave
    else .deliver m

/-- One recipient.  `sent` is what was sent to each session, by its envelope; `discarded` what a drain took out of a
queue without sending it, with the drain's clock reading. -/
structure State (π μ : Type) where
  nowMs : ℕ
  queue : Bucket → Coll π ℤ
  connections : Connections
  callCapable : ℕ → Bool
  drains : ℕ → Drain π
  routes : ℕ → Route μ
  sent : ℕ → List π
  discarded : List (π × ℤ)

inductive Event (μ : Type) where
  | route (i : ℕ) (m : μ)
  | lookup (i : ℕ)
  | send (i : ℕ) (sendOk : Bool)
  | queue (i : ℕ) (now : ℤ)
  | trim (i : ℕ)
  | expire (i : ℕ)
  | connect (n : ℕ) (callCapable : Bool) (others : ℕ) (shuttingDown : Bool)
  | drain (n : ℕ) (now : ℤ) (sendOk : Bool)
  | abandon (n : ℕ)
  | disconnect (session : Option ℕ)
  | elapse (ms : ℕ)

/-- How many of the oldest members go before the rest fits: the loop of `TRIM_TRANSIENT_QUEUE_SCRIPT`. -/
def overflow (P : ServerPrivacy π μ) (maxBytes : ℕ) : List π → ℕ → ℕ
  | [], _ => 0
  | p :: rest, total =>
    let total := total - P.len p
    if total ≤ maxBytes then 1 else overflow P maxBytes rest total + 1

section Queue

variable [LinearOrder π]

/-- `ZREMRANGEBYRANK key 0 (n - 1)`. -/
def removeOldest (n : ℕ) (c : Coll π ℤ) : Coll π ℤ := (c.zrange.take n).foldl (fun c p => c.del p) c

/-- `TRIM_TRANSIENT_QUEUE_SCRIPT`. -/
def trim (P : ServerPrivacy π μ) (maxBytes : ℕ) (c : Coll π ℤ) : Coll π ℤ :=
  let c := removeOldest (c.card - offlineQueueMaxMessages) c
  let total := (c.zrange.map P.len).sum
  if total ≤ maxBytes then c else removeOldest (overflow P maxBytes c.zrange total) c

end Queue

namespace State

def setRoute (i : ℕ) (r : Route μ) (s : State π μ) : State π μ := { s with routes := Function.update s.routes i r }

def setDrain (n : ℕ) (d : Drain π) (s : State π μ) : State π μ := { s with drains := Function.update s.drains n d }

def setQueue (b : Bucket) (c : Coll π ℤ) (s : State π μ) : State π μ :=
  { s with queue := Function.update s.queue b c }

def deliver (n : ℕ) (p : π) (s : State π μ) : State π μ :=
  { s with sent := Function.update s.sent n (p :: s.sent n) }

def init : State π μ where
  nowMs := 0
  queue _ := Coll.empty
  connections := Connections.init
  callCapable _ := false
  drains _ := .idle
  routes _ := .idle
  sent _ := []
  discarded := []

variable [LinearOrder π]

/-- One step of `deliverOfflineMessages` on session `n`. -/
def drainStep (P : ServerPrivacy π μ) (n : ℕ) (now : ℤ) (sendOk : Bool) (s : State π μ) : Option (State π μ) :=
  match s.drains n with
  | .idle | .done => none
  | .starting => some (s.setDrain n (.listing now .message))
  | .listing now b => some (s.setDrain n (.sending now b (s.queue b).zrange))
  | .sending now .message [] => some (s.setDrain n (.listing now .file))
  | .sending _ .file [] => some (s.setDrain n .done)
  | .sending now b (p :: rest) =>
    match verdict P (s.callCapable n) now p with
    | .discard =>
      some { (s.setQueue b ((s.queue b).del p)).setDrain n (.sending now b rest) with
        discarded := (p, now) :: s.discarded }
    | .leave => some (s.setDrain n (.sending now b rest))
    | .deliver _ =>
      if sendOk then some ((s.deliver n p).setDrain n (.removing now b p rest)) else some (s.setDrain n .done)
  | .removing now b p rest => some ((s.setQueue b ((s.queue b).del p)).setDrain n (.sending now b rest))

def step (P : ServerPrivacy π μ) (s : State π μ) : Event μ → Option (State π μ)
  | .route i m =>
    match s.routes i with
    | .idle =>
      -- a reliable envelope takes the other path
      if P.extract m = some .encryptedMessage then none else some (s.setRoute i (.looking m))
    | _ => none
  | .lookup i =>
    match s.routes i with
    | .looking m =>
      match s.connections.current with
      | none => some (s.setRoute i (.queueing m))
      | some n =>
        if s.connections.messageOnly n && P.requiresCallHandler m then some (s.setRoute i (.queueing m))
        else some (s.setRoute i (.sending m n))
    | _ => none
  | .send i sendOk =>
    match s.routes i with
    | .sending m n =>
      if sendOk then some ((s.deliver n (P.sealQueue i m)).setRoute i (.routed m))
      else some (s.setRoute i (.queueing m))
    | _ => none
  | .queue i now =>
    match s.routes i with
    | .queueing m =>
      if P.isTransient m then some (s.setRoute i (.dropped m))
      else
        let b := P.bucket m
        some ((s.setQueue b ((s.queue b).put (P.sealQueue i m) now)).setRoute i (.trimming m))
    | _ => none
  | .trim i =>
    match s.routes i with
    | .trimming m =>
      let b := P.bucket m
      some ((s.setQueue b (trim P b.maxBytes (s.queue b))).setRoute i (.expiring m))
    | _ => none
  | .expire i =>
    match s.routes i with
    | .expiring m =>
      let b := P.bucket m
      some ((s.setQueue b ((s.queue b).expire (s.nowMs + P.ttlSeconds b * 1000))).setRoute i (.queued m))
    | _ => none
  | .connect n callCapable others shuttingDown =>
    match s.drains n with
    | .idle =>
      if shuttingDown then some s
      else match s.connections.admitSession others n callCapable with
        | none => some s
        | some (_, c) =>
          some { s.setDrain n .starting with
            connections := c, callCapable := Function.update s.callCapable n callCapable }
    | _ => none
  | .drain n now sendOk => s.drainStep P n now sendOk
  | .abandon n => if (s.drains n).finished then none else some (s.setDrain n .done)
  | .disconnect session => some { s with connections := (s.connections.remove session).2 }
  | .elapse d => some { s with nowMs := s.nowMs + d, queue := fun b => (s.queue b).sweep (s.nowMs + d) }

end State

end Offline
end SecureChat
