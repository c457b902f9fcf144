import Mathlib.Data.List.Basic
import Mathlib.Logic.Function.Basic
import SecureChat.AsyncProgram
/-!
# IncomingMessageHandler — a delivered envelope, from the wire to its transport acknowledgement

`IncomingMessageHandler` handles the envelopes one after the other.  Every `await` of `_encryptedWithTransportAck`,
`_encrypted` and `_decryptDirect` is a step that may fail or at which the process may stop; what stands between two of
them runs at once.  Texts (ids, tokens, envelopes, plaintexts) are `ν`; a session is `S`, the account `A`, the inbound
group sessions `G`, the rows that only controls write `δ`.

The ghosts say which tokens an attempt has decrypted (`consumed`), which of these it holds without a record
(`critical`), which message id is marked as seen but not stored (`unsaved`), and what became of every envelope.
-/
namespace SecureChat
namespace Incoming

open Async

inductive CryptoErrorKind where
  | none
  | generic
  | pickle
  | decode
  | missingMessageKey
  | invalidMessage
  | messageGap
  | session
  | identityMismatch
deriving DecidableEq

def CryptoErrorKind.indicatesUnusableSession : CryptoErrorKind → Bool
  | .invalidMessage | .messageGap | .session => true
  | _ => false

/-- The exceptions, as far as they are told apart; `failure` is a step that fails. -/
inductive Error where
  | failure
  | format
  | state
  | crypto (kind : CryptoErrorKind)
  | unusable
  | identityChanged
deriving DecidableEq

structure EncryptedSignal (ν : Type) where
  senderId : ν
  recipientId : ν
  timestamp : ℕ
  envelope : ν
  deliveryToken : Option ν
deriving DecidableEq

/-- A plaintext of a session; `invalid` cannot be decoded. -/
inductive Direct (ν : Type) where
  | invalid
  | route (groupId groupEnvelope : ν)
  | plain

inductive Visible (ν : Type) where
  | chatControl
  | senderKey (groupId : ν)
  | blobPointer (payload : ν)
  | pollVote (pollMessageId vote : ν)
  | message (messageId : Option ν) (content : ν) (isPoll : Bool)

/-- What `_encrypted` dispatches a plaintext on. -/
inductive Content (ν : Type) where
  | callMediaKey
  | groupControl
  | visible (v : Visible ν)

structure Conversation (ν : Type) where
  peerId : ν
  isGroup : Bool
  groupMembers : List ν
  lastMessage : Option ν
  lastMessageTimestamp : Option ℕ
  unreadCount : ℕ

structure Message (ν : Type) where
  conversationId : ν
  senderId : ν
  content : ν
  isPoll : Bool
  timestamp : ℕ

/-- The rows that the rest of the application writes too.  The sessions of a peer are the newest first. -/
structure App (ν S A G δ : Type) where
  sessions : ν → List (ν × S)
  account : Option A
  identities : ν → Option ν
  groups : G
  conversations : ν → Option (Conversation ν)
  blocked : ν → Bool
  rest : δ

/-- A write of a control or of the rest of the application.  It may change the row of a message, but not delete it. -/
structure Write (ν S A G δ : Type) where
  app : App ν S A G δ → App ν S A G δ
  messages : (ν → Option (Message ν)) → ν → Option (Message ν)
  keeps : ∀ m id, (m id).isSome → (messages m id).isSome

def Write.ofApp {ν S A G δ : Type} (f : App ν S A G δ → App ν S A G δ) : Write ν S A G δ := ⟨f, id, fun _ _ h => h⟩

def Write.putMessage {ν S A G δ : Type} [DecidableEq ν] (messageId : ν) (m : Message ν) : Write ν S A G δ where
  app := id
  messages rows := Function.update rows messageId (some m)
  keeps rows id h := by
    rw [Function.update_apply]
    split
    · rfl
    · exact h

/-- As a ghost, why an envelope counts as processed; an `applied` one takes this many writes. -/
inductive Verdict (ν : Type) where
  | stored (messageId : ν)
  | applied (writes : ℕ)
  | discarded
  | undecryptable
deriving DecidableEq

structure ProcessedDelivery (ν : Type) where
  senderId : ν
  messageId : Option ν
  expiresAt : ℕ
  verdict : Verdict ν
deriving DecidableEq

structure State (ν S A G δ : Type) where
  app : App ν S A G δ
  messages : ν → Option (Message ν)
  processed : List (ν × ProcessedDelivery ν)
  seenMessageIds : List ν
  processedDeliveriesSincePrune : ℕ
  sessionResetSentAt : ν → Option ℕ
  critical : Option ν
  unsaved : Option ν
  consumed : List ν
  refused : List ν
  remembered : ν → Option (ProcessedDelivery ν)
  applied : List (ν × ℕ)
  inserts : List ν
  acks : List (ν × Verdict ν)

/-- The formats, the ciphers and the controls, each of which is a list of writes, and the configuration of the handler.
-/
structure Config (ν S A G δ : Type) where
  userId : Option ν
  validToken : ν → Bool
  isGroupEnvelope : ν → Bool
  localGroupId : ν → (ν → Option (Conversation ν)) → Option ν
  directDecryptionPeer : EncryptedSignal ν → ν
  parseEnvelope : ν → Option (Bool × ν)
  decrypt : S → Bool × ν → Except CryptoErrorKind (S × ν)
  createAccount : A
  createInboundSession : A → ν → ν → Except CryptoErrorKind (A × (ν × S) × ν)
  decryptGroup : G → ν → ν → ν → Option (G × ν)
  acceptSenderKey : G → ν → ν → Option G
  direct : ν → Direct ν
  validGroupText : ν → Bool
  content : ν → Content ν
  groupControl : ν → ν → Option (List (Write ν S A G δ))
  chatControl : ν → ν → Option (List (Write ν S A G δ))
  applyCallMediaKey : Option (ν → ν → Write ν S A G δ)
  acceptBlobPointer : Option (ν → Option ν → ν → Write ν S A G δ)
  pointerMessageId : ν → Option ν
  toggleVote : ν → ν → ν → Option ν
  fallbackId : EncryptedSignal ν → ν

/-- What a step gets from outside: the time, the identity of a fetched bundle, whether a frame was sent, a session
opened, a transport there. -/
structure Answer (ν : Type) where
  now : ℕ
  identity : Option ν
  ok : Bool

/-- The steps whose answer decides whether a decrypted envelope is lost. -/
inductive Point (ν : Type) where
  | step
  | lookup (token : ν)
  | inner (token : Option ν) (groupId senderId envelope : ν)
  | blobPointer (token : Option ν)

def processedDeliveryRetention : ℕ := 30 * 24 * 60 * 60 * 1000

def maxProcessedDeliveries : ℕ := 50000

def pruneInterval : ℕ := 128

def sessionResetInterval : ℕ := 60 * 1000

def peerClockTolerance : ℕ := 5 * 60 * 1000

def boundedTimestamp (now timestamp : ℕ) : ℕ := if now + peerClockTolerance < timestamp then now else timestamp

variable {ν S A G δ α : Type} [DecidableEq ν]

namespace State

/-- An attempt has decrypted the envelope of `token`. -/
def consume (token : Option ν) (s : State ν S A G δ) : State ν S A G δ :=
  { s with critical := token, consumed := token.toList ++ s.consumed }

def setSessions (peerId : ν) (l : List (ν × S)) (s : State ν S A G δ) : State ν S A G δ :=
  { s with app.sessions := Function.update s.app.sessions peerId l }

/-- `upsert`, with a use stamp after all others. -/
def upsertSession (peerId sessionId : ν) (session : S) (s : State ν S A G δ) : State ν S A G δ :=
  s.setSessions peerId ((sessionId, session) :: (s.app.sessions peerId).filter (fun x => decide (x.1 ≠ sessionId)))

def pinIdentity (peerId identity : ν) (s : State ν S A G δ) : State ν S A G δ :=
  { s with app.identities := Function.update s.app.identities peerId (some identity) }

def deleteProcessed (token : ν) (s : State ν S A G δ) : State ν S A G δ :=
  { s with processed := s.processed.filter (fun x => decide (x.1 ≠ token)) }

def record (token : ν) (s : State ν S A G δ) : Option (ProcessedDelivery ν) :=
  (s.processed.find? fun x => decide (x.1 = token)).map Prod.snd

def remember (token : ν) (r : ProcessedDelivery ν) (s : State ν S A G δ) : State ν S A G δ :=
  { s with
    processed := (token, r) :: s.processed.filter (fun x => decide (x.1 ≠ token))
    remembered := Function.update s.remembered token (some r)
    critical := none }

/-- `_pruneProcessedDeliveries`. -/
def prune (now : ℕ) (s : State ν S A G δ) : State ν S A G δ :=
  let retained := s.processed.filter (fun x => decide (now < x.2.expiresAt))
  { s with
    processed := if retained.length ≤ maxProcessedDeliveries then retained
      else (retained.mergeSort fun x y => decide (x.2.expiresAt ≤ y.2.expiresAt)).drop
        (retained.length - maxProcessedDeliveries) }

def write (w : Write ν S A G δ) (s : State ν S A G δ) : State ν S A G δ :=
  { s with app := w.app s.app, messages := w.messages s.messages }

def apply (token : Option ν) (i : ℕ) (w : Write ν S A G δ) (s : State ν S A G δ) : State ν S A G δ :=
  { s.write w with applied := token.toList.map (fun t => (t, i)) ++ s.applied }

def insertMessage (id : ν) (m : Message ν) (s : State ν S A G δ) : State ν S A G δ :=
  { s with messages := Function.update s.messages id (some m), inserts := id :: s.inserts, unsaved := none }

def insertConversation (id : ν) (c : Conversation ν) (s : State ν S A G δ) : State ν S A G δ :=
  { s with app.conversations := Function.update s.app.conversations id (some c) }

def updateConversation (id : ν) (f : Conversation ν → Conversation ν) (s : State ν S A G δ) : State ν S A G δ :=
  { s with
    app.conversations := Function.update s.app.conversations id ((s.app.conversations id).map f) }

def isMember (groupId userId : ν) (s : State ν S A G δ) : Bool :=
  (s.app.conversations groupId).any fun c => c.isGroup && decide (userId ∈ c.groupMembers)

end State

abbrev Handler (ν S A G δ α : Type) := Program (Answer ν) (Point ν) (State ν S A G δ) Error α

def query (g : State ν S A G δ → α) : Handler ν S A G δ α :=
  .await .step (fun _ s => s) (fun _ s => .pure (g s)) (.throw .failure)

def write (f : State ν S A G δ → State ν S A G δ) : Handler ν S A G δ Unit :=
  .await .step (fun _ => f) (fun _ _ => .pure ()) (.throw .failure)

def writeAt (f : ℕ → State ν S A G δ → State ν S A G δ) : Handler ν S A G δ Unit :=
  .await .step (fun i => f i.now) (fun _ _ => .pure ()) (.throw .failure)

def ask : Handler ν S A G δ (Answer ν) :=
  .await .step (fun _ s => s) (fun i _ => .pure i) (.throw .failure)

section Crypto

variable (P : Config ν S A G δ)

inductive Tried (ν : Type) where
  | opened (plaintext : ν)
  | failed (lastError : Option CryptoErrorKind) (duplicate : Bool)

/-- The sessions in their order; `withSession` stores the ratchet before the plaintext is returned. -/
def trySessions (token : Option ν) (senderId : ν) (message : Bool × ν) :
    List ν → Option CryptoErrorKind → Bool → Handler ν S A G δ (Tried ν)
  | [], lastError, duplicate => pure (.failed lastError duplicate)
  | sessionId :: rest, _, duplicate => do
    match ← query fun s => (s.app.sessions senderId).lookup sessionId with
    | none => .throw .state
    | some session =>
      match P.decrypt session message with
      | .ok (session, plaintext) => do
        write fun s => (s.upsertSession senderId sessionId session).consume token
        pure (.opened plaintext)
      | .error kind => trySessions token senderId message rest (some kind) (duplicate || kind = .missingMessageKey)

def ensurePinned (senderId : ν) : Handler ν S A G δ Unit := do
  let pinned ← query fun s => s.app.identities senderId
  if pinned.isSome then pure ()
  else do
    let fetched ← ask
    match fetched.identity with
    | none => .throw .state
    | some identity => write (State.pinIdentity senderId identity)

/-- `_acceptInboundSession`; a `SecureChatCryptoException` is a value. -/
def acceptInboundSession (token : Option ν) (senderId body : ν) :
    Handler ν S A G δ (Except CryptoErrorKind ν) := do
  ensurePinned senderId
  match ← query fun s => s.app.identities senderId with
  | none => .throw .state
  | some identity => do
    let account ← query fun s => s.app.account.getD P.createAccount
    match P.createInboundSession account identity body with
    | .error kind => pure (.error kind)
    | .ok (account, (sessionId, session), plaintext) => do
      write fun s => (s.upsertSession senderId sessionId session).consume token
      write fun s => { s with app.account := some account }
      pure (.ok plaintext)

/-- The end of `_decryptDirect` for an envelope that nothing has opened. -/
def unopened (senderId : ν) (lastError : Option CryptoErrorKind) (duplicate : Bool) : Handler ν S A G δ ν :=
  if duplicate then .throw (.crypto .missingMessageKey)
  else match lastError with
    | none => do
      write (State.setSessions senderId [])
      .throw .unusable
    | some kind => if kind.indicatesUnusableSession then .throw .unusable else .throw (.crypto kind)

def decryptDirect (token : Option ν) (senderId envelope : ν) : Handler ν S A G δ ν :=
  match P.parseEnvelope envelope with
  | none => .throw .format
  | some message => do
    let sessionIds ← query fun s => (s.app.sessions senderId).map Prod.fst
    match ← trySessions P token senderId message sessionIds none false with
    | .opened plaintext => pure plaintext
    | .failed lastError duplicate =>
      if message.1 && !duplicate then do
        match ← acceptInboundSession P token senderId message.2 with
        | .ok plaintext => pure plaintext
        | .error .identityMismatch => do
          let _ ← ask
          .throw .identityChanged
        | .error kind => unopened senderId (some kind) false
      else unopened senderId lastError duplicate

/-- `decryptGroup`: the replay window moves with the session. -/
def decryptGroup (l : Point ν) (token : Option ν) (senderId groupId envelope : ν) : Handler ν S A G δ ν :=
  .await l
    (fun _ s => match P.decryptGroup s.app.groups groupId senderId envelope with
      | none => s
      | some (g, _) => { s with app.groups := g }.consume token)
    (fun _ s => match P.decryptGroup s.app.groups groupId senderId envelope with
      | none => .throw .state
      | some (_, plaintext) => if P.validGroupText plaintext then .pure plaintext else .throw .format)
    (.throw .failure)

end Crypto

/-- What `_encrypted` returns; as a ghost, whether an exception or a missing transport has rejected the envelope. -/
inductive Result (ν : Type) where
  | rejected (failed : Bool)
  | processed (messageId : Option ν) (deliveryReceiptRequired : Bool) (verdict : Verdict ν)

inductive End where
  | acknowledged
  | unacknowledged
  | refused
  | failed
deriving DecidableEq

structure Opened (ν : Type) where
  plaintext : ν
  conversationId : ν
  isGroup : Bool

section Handler

variable (P : Config ν S A G δ)

/-- `directDecryptionPeer`, `_decryptDirect`, `decryptGroup`: the `try` of `_encrypted`; `none` is `rejected()`. -/
def openEnvelope (signal : EncryptedSignal ν) : Handler ν S A G δ (Option (Opened ν)) :=
  if P.isGroupEnvelope signal.envelope then do
    match ← query fun s => P.localGroupId signal.envelope s.app.conversations with
    | none => pure none
    | some groupId => do
      let plaintext ← decryptGroup P .step signal.deliveryToken signal.senderId groupId signal.envelope
      pure (some ⟨plaintext, groupId, true⟩)
  else do
    let plaintext ← decryptDirect P signal.deliveryToken (P.directDecryptionPeer signal) signal.envelope
    match P.direct plaintext with
    | .invalid => .throw .format
    | .plain => pure (some ⟨plaintext, signal.senderId, false⟩)
    | .route groupId groupEnvelope => do
      let known ← query fun s => s.isMember groupId signal.senderId && P.userId.any fun me => s.isMember groupId me
      if !known then pure none
      else do
        let plaintext ← decryptGroup P (.inner signal.deliveryToken groupId signal.senderId groupEnvelope)
          signal.deliveryToken signal.senderId groupId groupEnvelope
        pure (some ⟨plaintext, groupId, true⟩)

/-- `_recoverFromDecryptFailure`: the user is told, a fresh session is opened, the peer is asked for one. -/
def recoverFromDecryptFailure (signal : EncryptedSignal ν) (error : Error) : Handler ν S A G δ Unit := do
  let i ← ask
  let peerId := P.directDecryptionPeer signal
  let due (s : State ν S A G δ) : Bool :=
    decide (error = .unusable) && P.userId.any (fun me => decide (peerId ≠ me)) &&
      (s.sessionResetSentAt peerId).all fun last => decide (last + sessionResetInterval ≤ i.now)
  .sync (fun s => if due s then
      { s with sessionResetSentAt := Function.update s.sessionResetSentAt peerId (some i.now) } else s)
    fun s => if due s then do
      let opened ← ask
      if opened.ok then do
        let _ ← ask
        pure ()
      else pure ()
    else pure ()

def applyWrites (token : Option ν) : ℕ → List (Write ν S A G δ) → Handler ν S A G δ Unit
  | _, [] => pure ()
  | i, w :: ws => do
    write (State.apply token i w)
    applyWrites token (i + 1) ws

/-- A control in its `try`: data that cannot be decoded is rejected, and so is one that fails. -/
def applyControl (token : Option ν) (control : Option (List (Write ν S A G δ))) :
    Handler ν S A G δ (Result ν) := do
  let result ← Program.attempt (match control with
    | none => .throw .format
    | some ws => applyWrites token 0 ws)
  match result with
  | .ok _ => pure (.processed none false (.applied (control.elim 0 List.length)))
  | .error e => pure (.rejected (decide (e ≠ .format)))

/-- `processSenderKeyDistribution`; what fails in it is swallowed. -/
def processSenderKey (token : Option ν) (senderId plaintext : ν) : Handler ν S A G δ (Verdict ν) :=
  .await .step
    (fun _ s => match P.acceptSenderKey s.app.groups senderId plaintext with
      | none => s
      | some g => s.apply token 0 (.ofApp fun app => { app with groups := g }))
    (fun _ s => match P.acceptSenderKey s.app.groups senderId plaintext with
      | none => .pure .discarded
      | some _ => .pure (.applied 1))
    (.pure (.applied 1))

def acceptSenderKey (token : Option ν) (senderId groupId plaintext : ν) : Handler ν S A G δ (Verdict ν) := do
  let allowed ← query fun s => s.isMember groupId senderId && P.userId.any fun me => s.isMember groupId me
  if allowed then processSenderKey P token senderId plaintext else pure .discarded

def blobPointer (signal : EncryptedSignal ν) (groupId : Option ν) (payload : ν) : Handler ν S A G δ (Result ν) :=
  match P.acceptBlobPointer with
  | none => pure (.rejected false)
  | some store => do
    let i ← (.await (.blobPointer signal.deliveryToken) (fun _ s => s) (fun i _ => .pure i) (.throw .failure) :
      Handler ν S A G δ (Answer ν))
    if !i.ok then pure (.rejected true)
    else match P.pointerMessageId payload with
      | none => pure (.processed none false .discarded)
      | some messageId => do
        write (State.apply signal.deliveryToken 0 (store signal.senderId groupId payload))
        pure (.processed (some messageId) true (.applied 1))

def senderAllowed (conversation : Option (Conversation ν)) (senderId : ν) : Bool :=
  conversation.any fun c => P.userId.any fun me => decide (senderId ≠ me) &&
    (if c.isGroup then decide (me ∈ c.groupMembers) && decide (senderId ∈ c.groupMembers)
    else decide (c.peerId = senderId))

/-- A vote in its `try`: one that cannot be counted and a write that fails are swallowed. -/
def countVote (token : Option ν) (senderId pollMessageId vote : ν) (message : Message ν) :
    Handler ν S A G δ (Verdict ν) :=
  match P.toggleVote message.content senderId vote with
  | none => pure .discarded
  | some content =>
    .await .step
      (fun _ s => s.apply token 0 (.putMessage pollMessageId { message with content := content }))
      (fun _ _ => .pure (.applied 1)) (.pure (.applied 1))

def applyPollVote (token : Option ν) (senderId conversationId pollMessageId vote : ν) :
    Handler ν S A G δ (Verdict ν) := do
  match ← query fun s => s.messages pollMessageId with
  | none => pure .discarded
  | some message => do
    let conversation ← query fun s => s.app.conversations message.conversationId
    if message.conversationId = conversationId ∧ message.isPoll ∧ senderAllowed P conversation senderId then
      countVote P token senderId pollMessageId vote message
    else pure .discarded

def resolveIdentity (o : Opened ν) : Handler ν S A G δ (Option (Answer ν)) :=
  if o.isGroup then pure none
  else do
    let identity ← ask
    pure (some identity)

def ensureConversation (senderId : ν) (o : Opened ν) : Handler ν S A G δ Unit := do
  let _ ← resolveIdentity o
  let conversation ← query fun s => s.app.conversations o.conversationId
  if conversation.isSome then pure ()
  else write (State.insertConversation o.conversationId
    ⟨o.conversationId, o.isGroup, if o.isGroup then [senderId] else [], none, none, 0⟩)

def storeMessage (signal : EncryptedSignal ν) (o : Opened ν) (messageId content : ν) (isPoll : Bool) :
    Handler ν S A G δ Unit := do
  ensureConversation signal.senderId o
  writeAt fun now => State.insertMessage messageId
    ⟨o.conversationId, signal.senderId, content, isPoll, boundedTimestamp now signal.timestamp⟩
  writeAt fun now => State.updateConversation o.conversationId fun c => { c with
    lastMessage := some content, lastMessageTimestamp := some (boundedTimestamp now signal.timestamp) }
  write (State.updateConversation o.conversationId fun c => { c with unreadCount := c.unreadCount + 1 })
  let _ ← ask
  pure ()

/-- The message branch of `_encrypted`. -/
def acceptMessage (signal : EncryptedSignal ν) (o : Opened ν) (parsedId : Option ν) (content : ν) (isPoll : Bool) :
    Handler ν S A G δ (Result ν) :=
  let messageId := parsedId.getD (P.fallbackId signal)
  let duplicate : Result ν :=
    .processed parsedId (parsedId.isSome && signal.deliveryToken.isSome) (.stored messageId)
  -- `_seenMessageIds.add`
  .sync (fun s => if messageId ∈ s.seenMessageIds then s
      else { s with seenMessageIds := messageId :: s.seenMessageIds, unsaved := some messageId })
    fun s =>
      if messageId ∈ s.seenMessageIds then pure duplicate
      else do
        let existing ← query fun s => s.messages messageId
        if existing.isSome then .sync (fun s => { s with unsaved := none }) fun _ => pure duplicate
        else do
          storeMessage signal o messageId content isPoll
          pure (.processed parsedId parsedId.isSome (.stored messageId))

/-- `_encrypted` once the envelope is open. -/
def dispatch (signal : EncryptedSignal ν) (o : Opened ν) : Handler ν S A G δ (Result ν) :=
  let token := signal.deliveryToken
  match P.content o.plaintext with
  | .callMediaKey =>
    if P.userId ≠ some signal.recipientId then pure (.rejected false)
    else match P.applyCallMediaKey with
      | none => pure (.rejected false)
      | some apply => do
        applyWrites token 0 [apply signal.senderId o.plaintext]
        pure (.processed none false (.applied 1))
  | .groupControl =>
    if P.userId ≠ some signal.recipientId then pure (.rejected false)
    else applyControl token (P.groupControl o.plaintext signal.senderId)
  | .visible v => do
    let blocked ← query fun s => s.app.blocked signal.senderId
    if blocked then pure (.processed none false .discarded)
    else match v with
      | .chatControl =>
        if o.isGroup ∨ P.userId ≠ some signal.recipientId ∨ P.userId = some signal.senderId then pure (.rejected false)
        else applyControl token (P.chatControl o.plaintext signal.senderId)
      | .senderKey groupId => do
        let verdict ← acceptSenderKey P token signal.senderId groupId o.plaintext
        pure (.processed none false verdict)
      | .blobPointer payload => blobPointer P signal (if o.isGroup then some o.conversationId else none) payload
      | .pollVote pollMessageId vote => do
        let verdict ← applyPollVote P token signal.senderId o.conversationId pollMessageId vote
        pure (.processed none false verdict)
      | .message messageId content isPoll => acceptMessage P signal o messageId content isPoll

def encrypted (signal : EncryptedSignal ν) : Handler ν S A G δ (Result ν) := do
  match ← Program.attempt (openEnvelope P signal) with
  | .ok none => pure (.rejected false)
  | .ok (some o) => dispatch P signal o
  | .error e => do
    recoverFromDecryptFailure P signal e
    if e = .unusable then pure (.processed none false .undecryptable)
    else pure (.rejected (decide (e ≠ .format)))

def processedDelivery (token : ν) : Handler ν S A G δ (Option (ProcessedDelivery ν)) :=
  .await (.lookup token) (fun _ s => s)
    (fun i s => match s.record token with
      | none => pure none
      | some r =>
        if r.expiresAt ≤ i.now then do
          write (State.deleteProcessed token)
          pure none
        else pure (some r))
    (.throw .failure)

def rememberProcessedDelivery (token senderId : ν) (messageId : Option ν) (verdict : Verdict ν) :
    Handler ν S A G δ Unit :=
  .await .step (fun i => State.remember token ⟨senderId, messageId, i.now + processedDeliveryRetention, verdict⟩)
    (fun _ _ => .sync (fun s => { s with processedDeliveriesSincePrune := s.processedDeliveriesSincePrune + 1 })
      fun s =>
        if s.processedDeliveriesSincePrune + 1 < pruneInterval then pure ()
        else .sync (fun s => { s with processedDeliveriesSincePrune := 0 })
          fun _ => .await .step (fun i => State.prune i.now) (fun _ _ => .pure ()) (.throw .failure))
    (.throw .failure)

def sendDeliveredReceipt : Handler ν S A G δ Bool :=
  if P.userId.isNone then pure false
  else do
    let i ← ask
    pure i.ok

def sendTransportAck (token : ν) (verdict : Verdict ν) : Handler ν S A G δ End :=
  if P.userId.isNone then pure .unacknowledged
  else .await .step (fun i s => if i.ok then { s with acks := (token, verdict) :: s.acks } else s)
    (fun i _ => .pure (if i.ok then .acknowledged else .unacknowledged)) (.throw .failure)

def acknowledge (token : ν) (receipt : Bool) (verdict : Verdict ν) : Handler ν S A G δ End := do
  let receiptSent ← if receipt then sendDeliveredReceipt P else pure true
  if receiptSent then sendTransportAck P token verdict else pure .unacknowledged

def encryptedWithTransportAck (signal : EncryptedSignal ν) : Handler ν S A G δ End :=
  match signal.deliveryToken with
  | none => do
    match ← encrypted P signal with
    | .rejected failed => pure (if failed then .failed else .refused)
    | .processed messageId required _ => do
      let _ ← if required && messageId.isSome then sendDeliveredReceipt P else pure true
      pure .unacknowledged
  | some token =>
    if !P.validToken token then pure .unacknowledged
    else do
      match ← processedDelivery token with
      | some previous =>
        if previous.senderId ≠ signal.senderId then pure .unacknowledged
        else acknowledge P token previous.messageId.isSome previous.verdict
      | none => do
        match ← encrypted P signal with
        | .rejected failed => pure (if failed then .failed else .refused)
        | .processed messageId required verdict => do
          rememberProcessedDelivery token signal.senderId messageId verdict
          acknowledge P token (required && messageId.isSome) verdict

end Handler

/-- What the rest of the application does between two steps; `start` of the handler prunes too. -/
inductive Outside (ν S A G δ : Type) where
  | write (w : Write ν S A G δ)
  | prune (now : ℕ)

/-- The handler as a process: a call ends with nothing held, the end of the process loses what is in memory. -/
def handler (P : Config ν S A G δ) :
    Process (Answer ν) (Point ν) (State ν S A G δ) Error End (EncryptedSignal ν) (Outside ν S A G δ) where
  program := encryptedWithTransportAck P
  finish _ r s := { s with
    critical := none
    unsaved := none
    refused := match r with
      | .ok .refused => s.critical.toList ++ s.refused
      | _ => s.refused }
  stop s := { s with
    seenMessageIds := [], processedDeliveriesSincePrune := 0, sessionResetSentAt := fun _ => none
    critical := none, unsaved := none }
  outside
    | .write w, s => s.write w
    | .prune now, s => s.prune now

end Incoming
end SecureChat
