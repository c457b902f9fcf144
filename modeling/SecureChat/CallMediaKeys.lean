import SecureChat.CallManager
/-!
# CallMediaKeys — the media key of a group call

`_prepareMediaEncryption`, `_rotateMediaKey`, and what a member does with a key that comes in: apply it, or stage it
until the call or its coordinator is known.  A payload is the key that `CallMediaKey.tryParse` reads from it.
-/
namespace SecureChat
namespace Calls

open Async
open GroupControl (Text)
open Program (get modify whenever)

/-- `_pendingMediaKeyTtl`, in milliseconds. -/
def pendingMediaKeyTtl : ℤ := 120000

def pendingMediaKeyLimit : ℕ := 16

section Device

variable (D : Device)

def CallMediaKey.generate (callId : Text) (epoch : ℕ) : Call CallMediaKey := do
  let n ← draw
  pure { callId := callId, epoch := epoch, key := D.randomKey n }

def CallMediaKey.rotate (key : CallMediaKey) : Call CallMediaKey := CallMediaKey.generate D key.callId (key.epoch + 1)

def distribute (key : CallMediaKey) (recipientId : Text) (rest : List Text) : Call Bool := do
  let answer ← (on (.distribute recipientId key rest)).attempt
  match answer with
  | .ok answer =>
    if answer.yes then do
      modify fun m => { m with keysSent := (recipientId, key) :: m.keysSent }
      pure true
    else pure false
  | .error _ => pure false

/-- The loop over the recipients: it stops at the first who does not get the key. -/
def distributeAll (key : CallMediaKey) : List Text → Call Bool
  | [] => pure true
  | recipient :: rest => do
    let delivered ← distribute key recipient rest
    if delivered then distributeAll key rest else pure false

def prepareMediaEncryption (callId : Text) (recipients : List Text) : Call (Option CallMediaKey) := do
  if ¬ D.canDistribute then pure none
  else do
    let mediaKey ← CallMediaKey.generate D callId 0
    let delivered ← distributeAll mediaKey recipients
    if ¬ delivered then do
      modify fun m => { m with mediaEncryptionActive := false }
      pure none
    else do
      let result ← (on (.enableMediaEncryption mediaKey)).attempt
      match result with
      | .error _ => do
        modify fun m => { m with mediaEncryptionActive := false }
        pure none
      | .ok _ => do
        modify fun m => { m with mediaKey := some mediaKey, mediaEncryptionActive := true }
        pure (some mediaKey)

def rotateTo (rotated : CallMediaKey) : Call Bool := do
  let result ← (on (.rotateMediaKey rotated)).attempt
  match result with
  | .ok _ => do
    modify fun m => { m with mediaKey := some rotated }
    pure true
  | .error _ => do
    modify fun m => { m with mediaEncryptionActive := false }
    pure false

def rotateMediaKey (recipients : List Text) : Call Bool := do
  let m ← get
  if ¬ m.mediaEncryptionActive then pure true
  else
    match m.mediaKey with
    | none => pure false
    | some current =>
      if ¬ m.isGroupCoordinator ∨ ¬ D.hasGroupMedia ∨ ¬ D.canDistribute then pure false
      else do
        let rotated ← current.rotate D
        let delivered ← distributeAll rotated ((LinkedSet.ofList recipients).elems.filter (· ≠ D.userId))
        if delivered then rotateTo rotated else pure false

/-- Of two entries the one that came earlier, the second of two that came at the same time. -/
def older (a b : (Text × Text) × PendingCallMediaKey) : (Text × Text) × PendingCallMediaKey :=
  if a.2.receivedAt < b.2.receivedAt then a else b

def Manager.stageIncomingMediaKey (m : Manager) (senderId : Text) (mediaKey : CallMediaKey) : Manager :=
  let kept := m.pendingMediaKeys.filter fun e => decide (m.now - e.2.receivedAt ≤ pendingMediaKeyTtl)
  let room :=
    match kept.entries with
    | [] => kept
    | e :: rest => if pendingMediaKeyLimit ≤ kept.card then kept.remove (rest.foldl older e).1 else kept
  { m with pendingMediaKeys := room.assign (mediaKey.callId, senderId) ⟨senderId, mediaKey, m.now⟩ }

def Manager.takePendingMediaKey (m : Manager) (callId senderId : Text) : Manager :=
  { m with pendingMediaKeys := m.pendingMediaKeys.remove (callId, senderId) }

def installMediaKey (mediaKey : CallMediaKey) (first : Bool) : Call Bool := do
  let result ← (on (if first then .enableMediaEncryption mediaKey else .rotateMediaKey mediaKey)).attempt
  match result with
  | .error _ => do
    modify fun m => { m with mediaEncryptionActive := false }
    finish .failed .hangup true
    pure false
  | .ok _ => do
    modify fun m => { m with mediaKey := some mediaKey, mediaEncryptionActive := true, mediaKeyReady := true }
    pure true

/-- `_applyIncomingMediaKey`. -/
def applyIncomingMediaKeyNow (senderId : Text) (payload : Option CallMediaKey) : Call Bool := do
  match payload with
  | none => pure false
  | some mediaKey =>
    if ¬ D.hasGroupMedia then pure false
    else do
      let m ← get
      match m.current with
      | none => do
        modify fun m => m.stageIncomingMediaKey senderId mediaKey
        pure true
      | some session =>
        if session.isTerminal ∧ session.callId ≠ mediaKey.callId then do
          modify fun m => m.stageIncomingMediaKey senderId mediaKey
          pure true
        else if ¬ session.isGroupCall ∨ session.isTerminal ∨ mediaKey.callId ≠ session.callId ∨
            ¬ m.mediaEncryptionRequired ∨ m.isGroupCoordinator then pure false
        else if senderId ≠ session.peerId then do
          modify fun m => m.stageIncomingMediaKey senderId mediaKey
          pure false
        else
          match m.mediaKey with
          | none => installMediaKey mediaKey true
          | some current =>
            if mediaKey.epoch < current.epoch then pure false
            else if mediaKey.epoch = current.epoch then
              if mediaKey = current then pure true
              else do
                finish .failed .hangup true
                pure false
            else installMediaKey mediaKey false

def applyIncomingMediaKey (senderId : Text) (payload : Option CallMediaKey) : Call Unit :=
  queueGroupSignal do
    let _ ← applyIncomingMediaKeyNow D senderId payload
    pure ()

end Device

end Calls
end SecureChat
