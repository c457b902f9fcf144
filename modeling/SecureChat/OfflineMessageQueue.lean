import SecureChat.KeyedTable
import SecureChat.Runs
import SecureChat.StorageEntities
/-!
# OfflineMessageQueue — the outbox of encrypted signals

One `OfflineMessageQueue` over the table of pending signals.  `sendReliably` stores its signal, sends it and records the
answer; other callers only store theirs; a flush walks over what the table held when it began.  Each write and each send
is a step of its own, with the steps of others in between.

`getAll` sorts by the time of creation and leaves the order of equal times open.  Its clock reading is taken with the
snapshot: no other step depends on it.  `flushEnqueuedSignals` waits for a running flush and calls `flushQueue`, which
may be called at any time here.  The ids of signals are random or counted, and none is used twice.
-/
namespace SecureChat
namespace Outbox

open GroupControl (Text)
open Runs
open Storage (PendingSignalEntity)

/-! ## Signals and their transport -/

def utf8Length : Text → ℕ
  | [] => 0
  | c :: cs => c.utf8Size + utf8Length cs

/-- What the queue uses of `SignalMessage`: `parse` is `jsonDecode` with the `fromJson` of the type. -/
structure SignalMessage (σ : Type) where
  parse : Text → Option σ
  encode : σ → Text
  recipientId : σ → Text
  parse_encode : ∀ m, (parse (encode m)).map recipientId = some (recipientId m)

namespace SignalMessage

variable {σ : Type} (S : SignalMessage σ)

def maxEncodedBytes : ℕ := 256 * 1024

/-- `none` is a `FormatException`. -/
def decode (raw : Text) : Option σ := if maxEncodedBytes < utf8Length raw then none else S.parse raw

def fits (m : σ) : Bool := decide (utf8Length (S.encode m) ≤ maxEncodedBytes)

/-- `_sendNow`, the answer of the transport. -/
def send (connected : Bool) (m : σ) : Bool := connected && S.fits m

end SignalMessage

/-! ## The table -/

abbrev PendingSignals := Keyed PendingSignalEntity.id

namespace PendingSignals

def delete (id : Text) (t : PendingSignals) : PendingSignals := t.filter fun p => decide (p.id ≠ id)

def delivered (messageId recipientId : Text) (p : PendingSignalEntity) : Bool :=
  p.retainUntilReceipt && decide (p.messageId = some messageId) && decide (p.recipientId = some recipientId)

def deleteDelivered (messageId recipientId : Text) (t : PendingSignals) : PendingSignals :=
  t.filter fun p => !delivered messageId recipientId p

def markSent (id : Text) (sentAtMillis : ℤ) (t : PendingSignals) : PendingSignals :=
  t.patch id fun p =>
    { p with
      sendCount := p.sendCount + 1
      lastSentAt := some sentAtMillis }

def incrementAttempts (id : Text) (t : PendingSignals) : PendingSignals :=
  t.patch id fun p => { p with attempts := p.attempts + 1 }

/-- The answers that `getAll` may give. -/
def Lists (t : PendingSignals) (snapshot : List PendingSignalEntity) : Prop :=
  snapshot.Perm t.values ∧ snapshot.Pairwise fun p q => p.createdAt ≤ q.createdAt

instance (t : PendingSignals) (snapshot : List PendingSignalEntity) : Decidable (t.Lists snapshot) :=
  inferInstanceAs (Decidable (_ ∧ _))

end PendingSignals

/-! ## The queue -/

def reliableOutboxRetention : ℤ := 30 * 24 * 60 * 60 * 1000

def resendDelay (sendCount : ℤ) : ℤ :=
  if sendCount ≤ 1 then 0
  else
    let minutes : ℤ := 2 ^ (max 0 (min 9 (sendCount - 2))).toNat
    max 1 (min 360 minutes) * 60000

def resendDue (p : PendingSignalEntity) (now : ℤ) : Bool :=
  match p.lastSentAt with
  | none => true
  | some last => !p.retainUntilReceipt || decide (last + resendDelay p.sendCount ≤ now)

def expired (now : ℤ) (p : PendingSignalEntity) : Bool :=
  p.retainUntilReceipt && decide (p.createdAt < now - reliableOutboxRetention)

/-- `_flush` at the head of its loop, after the deletion of an entry whose message is then marked, between an accepted
send and its record, between a refused send and its count, and behind the loop. -/
inductive Phase where
  | next (rest : List PendingSignalEntity)
  | failing (messageId : Text) (rest : List PendingSignalEntity)
  | recording (p : PendingSignalEntity) (rest : List PendingSignalEntity)
  | counting (p : PendingSignalEntity)
  | returning

/-- A flush, with what it has handed to the transport and how many steps it has taken. -/
structure Flush where
  now : ℤ
  snapshot : List PendingSignalEntity
  phase : Phase
  sent : ℕ := 0
  handed : List PendingSignalEntity := []
  taken : ℕ := 0

inductive Outcome where
  | returned (sent remaining : ℕ)
  | threw
deriving DecidableEq

/-- A call of `sendReliably`. -/
inductive Call (σ : Type) where
  | idle
  | sending (p : PendingSignalEntity) (signal : σ)
  | recording (p : PendingSignalEntity) (sent : Bool)
  | finished

/-- `enqueued` is what has been stored and `transmitted` the ids of what the transport has taken, newest first. -/
structure OfflineMessageQueue (σ : Type) where
  pendingSignals : PendingSignals
  activeFlush : Option Flush
  ended : List (Flush × Outcome)
  calls : ℕ → Call σ
  failed : List Text
  enqueued : List PendingSignalEntity
  transmitted : List Text

inductive Event (σ : Type) where
  | enqueue (signals : List PendingSignalEntity)
  | sendReliably (i : ℕ) (signal : σ) (deliveryId messageId : Text) (createdAt : ℤ)
  | send (i : ℕ) (connected : Bool)
  | record (i : ℕ) (now : ℤ)
  | abandon (i : ℕ)
  | acknowledgeReceipt (messageId recipientId : Text)
  | flushQueue (now : ℤ) (snapshot : List PendingSignalEntity)
  | flush (connected : Bool)
  | fail
  | restart

/-- `^[A-Za-z0-9_-]{43}$`. -/
def isDeliveryId (t : Text) : Bool :=
  decide (t.length = 43) && t.all fun c => c.isAlphanum || decide (c = '_') || decide (c = '-')

namespace OfflineMessageQueue

variable {σ : Type}

def start (t : PendingSignals) : OfflineMessageQueue σ where
  pendingSignals := t
  activeFlush := none
  ended := []
  calls _ := .idle
  failed := []
  enqueued := t.values
  transmitted := []

def setPendingSignals (t : PendingSignals) (s : OfflineMessageQueue σ) : OfflineMessageQueue σ :=
  { s with pendingSignals := t }

def put (p : PendingSignalEntity) (s : OfflineMessageQueue σ) : OfflineMessageQueue σ :=
  { s with
    pendingSignals := s.pendingSignals.insert p
    enqueued := p :: s.enqueued }

def setCall (i : ℕ) (c : Call σ) (s : OfflineMessageQueue σ) : OfflineMessageQueue σ :=
  { s with calls := Function.update s.calls i c }

def transmit (p : PendingSignalEntity) (s : OfflineMessageQueue σ) : OfflineMessageQueue σ :=
  { s with transmitted := p.id :: s.transmitted }

def advance (f : Flush) (phase : Phase) (s : OfflineMessageQueue σ) : OfflineMessageQueue σ :=
  { s with
    activeFlush := some { f with
      phase := phase
      taken := f.taken + 1 } }

def finish (f : Flush) (outcome : Outcome) (s : OfflineMessageQueue σ) : OfflineMessageQueue σ :=
  { s with
    activeFlush := none
    ended := ({ f with taken := f.taken + 1 }, outcome) :: s.ended }

def markFailed (messageId : Text) (s : OfflineMessageQueue σ) : OfflineMessageQueue σ :=
  { s with failed := messageId :: s.failed }

def Fresh (s : OfflineMessageQueue σ) (id : Text) : Prop := ∀ p ∈ s.enqueued, p.id ≠ id

instance (s : OfflineMessageQueue σ) (id : Text) : Decidable (s.Fresh id) :=
  inferInstanceAs (Decidable (∀ _ ∈ _, _))

/-- One step of `_flush`. -/
def flushStep (S : SignalMessage σ) (connected : Bool) (f : Flush) (s : OfflineMessageQueue σ) :
    OfflineMessageQueue σ :=
  match f.phase with
  | .next [] => s.advance f .returning
  | .next (p :: rest) =>
    if expired f.now p then
      (s.setPendingSignals (s.pendingSignals.delete p.id)).advance f
        (p.messageId.elim (.next rest) fun messageId => .failing messageId rest)
    else if resendDue p f.now then
      match S.decode p.encodedSignal with
      | none => s.finish f .threw
      | some signal =>
        if S.send connected signal then
          (s.transmit p).advance { f with handed := p :: f.handed } (.recording p rest)
        else s.advance { f with handed := p :: f.handed } (.counting p)
    else s.advance f (.next rest)
  | .failing messageId rest => (s.markFailed messageId).advance f (.next rest)
  | .recording p rest =>
    (s.setPendingSignals
      (if p.retainUntilReceipt then s.pendingSignals.markSent p.id f.now else s.pendingSignals.delete p.id)).advance
        { f with sent := f.sent + 1 } (.next rest)
  | .counting p =>
    (s.setPendingSignals (s.pendingSignals.incrementAttempts p.id)).advance f .returning
  | .returning => s.finish f (.returned f.sent s.pendingSignals.values.length)

/-- The entry that `sendReliably` stores. -/
def reliable (S : SignalMessage σ) (signal : σ) (deliveryId messageId : Text) (createdAt : ℤ) :
    PendingSignalEntity where
  id := deliveryId
  encodedSignal := S.encode signal
  createdAt := createdAt
  messageId := some messageId
  recipientId := some (S.recipientId signal)
  retainUntilReceipt := true

def step (S : SignalMessage σ) (s : OfflineMessageQueue σ) : Event σ → Option (OfflineMessageQueue σ)
  | .enqueue signals =>
    if (signals.map PendingSignalEntity.id).Nodup ∧ ∀ p ∈ signals, s.Fresh p.id then
      some (signals.foldl (fun s p => s.put p) s)
    else none
  | .sendReliably i signal deliveryId messageId createdAt =>
    match s.calls i with
    | .idle =>
      let p := reliable S signal deliveryId messageId createdAt
      if isDeliveryId deliveryId = true ∧ s.Fresh deliveryId then some ((s.put p).setCall i (.sending p signal))
      else none
    | _ => none
  | .send i connected =>
    match s.calls i with
    | .sending p signal =>
      if S.send connected signal then some ((s.transmit p).setCall i (.recording p true))
      else some (s.setCall i (.recording p false))
    | _ => none
  | .record i now =>
    match s.calls i with
    | .recording p true => some ((s.setPendingSignals (s.pendingSignals.markSent p.id now)).setCall i .finished)
    | .recording p false => some ((s.setPendingSignals (s.pendingSignals.incrementAttempts p.id)).setCall i .finished)
    | _ => none
  -- a storage operation of the call throws
  | .abandon i =>
    match s.calls i with
    | .sending _ _ | .recording _ _ => some (s.setCall i .finished)
    | _ => none
  | .acknowledgeReceipt messageId recipientId =>
    some (s.setPendingSignals (s.pendingSignals.deleteDelivered messageId recipientId))
  | .flushQueue now snapshot =>
    match s.activeFlush with
    | some _ => some s
    | none =>
      if s.pendingSignals.Lists snapshot then some
        { s with activeFlush := some ⟨now, snapshot, .next snapshot, 0, [], 0⟩ }
      else none
  | .flush connected => s.activeFlush.map fun f => s.flushStep S connected f
  -- a storage operation of the flush throws
  | .fail => s.activeFlush.map fun f => s.finish f .threw
  | .restart =>
    some { s with
      activeFlush := none
      calls := fun i => match s.calls i with
        | .idle => .idle
        | _ => .finished }

end OfflineMessageQueue

end Outbox
end SecureChat
