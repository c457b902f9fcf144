import Mathlib.Data.List.Sort
import SecureChat.AsyncTasks
import SecureChat.DartInt
import SecureChat.KeyedTable
import SecureChat.RatchetPositions
/-!
# VodozemacCryptoService — sessions, pinned identities and what is sent and received with them

The sessions with a peer, the peer's pinned identity and the local session of a group are rows of the database.  Every
operation on a peer or a group holds that one's lock: it reads a row, lets the native library advance it, writes it back
and only then returns.  A stop of the process ends all operations and loses the locks, and keeps the rows.

The native library is a parameter (`Ratchets`), and a pickle is known by the session that it holds; `Lawful` is what the
library documents about the keys that a session sends with.  A key is known by its bytes.

Left out: the padding of the plaintexts, and what a group message or a group key does to the inbound sessions of the
group (see `GroupReplayWindow`).
-/
namespace SecureChat
namespace PeerSessions

open Async
open GroupControl (Text)
open Program (get modify)
open scoped GroupControl

structure Identity where
  signingKey : Text
  identityKey : Text
deriving DecidableEq

structure OlmPreKeyBundle where
  identity : Identity
  oneTimeKey : Text
deriving DecidableEq

inductive CryptoErrorKind
  | none
  | generic
  | pickle
  | decode
  | missingMessageKey
  | invalidMessage
  | messageGap
  | session
  | identityMismatch
deriving DecidableEq

def CryptoErrorKind.indicatesUnusableSession (kind : CryptoErrorKind) : Bool :=
  kind = .invalidMessage || kind = .messageGap || kind = .session

inductive OlmType
  | preKey
  | message
deriving DecidableEq

structure OlmEnvelope where
  type : OlmType
  body : Text
deriving DecidableEq

inductive Fault where
  | crypto (kind : CryptoErrorKind)
  | peerIdentityChanged (peerId : Text)
  | sessionUnusable (peerId : Text)
  | reviewStale
  | stateError
  | format
  | other
deriving DecidableEq

/-! ## The native library -/

/-- The calls on an account `A`, a session `S` and a group session `G`; a number is the random value that a call draws.
The last three fields say what a session sends with next. -/
structure Ratchets (A S G : Type) where
  createAccount : ℕ → A
  identityKeys : A → Identity
  createOutboundSession : A → Text → Text → ℕ → Except CryptoErrorKind S
  createInboundSession : A → Text → Text → Except CryptoErrorKind (A × S × Text)
  sessionId : S → Text
  encrypt : ℕ → Text → S → S × OlmEnvelope
  decrypt : OlmEnvelope → S → Except CryptoErrorKind (S × Text)
  createGroupSession : ℕ → G
  groupSessionId : G → Text
  sessionKey : G → Text
  encryptGroup : Text → G → G × Text
  groupRoutingToken : Text → Text
  position : S → Position
  groupChain : G → ℕ
  groupIndex : G → ℕ

namespace Ratchets

variable {A S G : Type}

def groupPosition (V : Ratchets A S G) (g : G) : Position := ⟨some (V.groupChain g), V.groupIndex g⟩

def nextKey (V : Ratchets A S G) (draw : ℕ) (s : S) : ℕ × ℕ :=
  match (V.position s).chain with
  | some c => (c, (V.position s).index)
  | none => (draw, 0)

/-- What the library documents: a session that was created from a bundle, and a group session, is on a chain of its own;
one that was created from a message, or has received one of a new chain, begins a chain with its next message; each
message has the next index of its chain. -/
structure Lawful (V : Ratchets A S G) : Prop where
  outbound {a : A} {k o : Text} {draw : ℕ} {s : S} :
    V.createOutboundSession a k o draw = .ok s → V.position s = ⟨some draw, 0⟩
  inbound {a a' : A} {k m t : Text} {s : S} :
    V.createInboundSession a k m = .ok (a', s, t) → (V.position s).chain = none
  encrypt (draw : ℕ) (t : Text) (s : S) :
    V.position (V.encrypt draw t s).1 = ⟨some (V.nextKey draw s).1, (V.nextKey draw s).2 + 1⟩
  decrypt {m : OlmEnvelope} {s s' : S} {t : Text} :
    V.decrypt m s = .ok (s', t) → V.position s' = V.position s ∨ (V.position s').chain = none
  group (draw : ℕ) : V.groupPosition (V.createGroupSession draw) = ⟨some draw, 0⟩
  encryptGroup (t : Text) (g : G) :
    V.groupPosition (V.encryptGroup t g).1 = ⟨some (V.groupChain g), V.groupIndex g + 1⟩

end Ratchets

/-! ## The rows -/

/-- A session; `establishedWith` is history: the identity whose key it was created with. -/
structure SessionRow (S : Type) where
  peerId : Text
  sessionId : Text
  session : S
  lastUsedAt : ℤ
  establishedWith : Identity

abbrev SessionRow.key {S : Type} (row : SessionRow S) : Text × Text := (row.peerId, row.sessionId)

structure GroupRow (G : Type) where
  groupId : Text
  sessionId : Text
  session : G

inductive Lock where
  | direct (peerId : Text)
  | group (groupId : Text)
deriving DecidableEq

inductive Key where
  | direct (peerId sessionId : Text)
  | group (groupId : Text)
deriving DecidableEq

def Key.lock : Key → Lock
  | .direct peerId _ => .direct peerId
  | .group groupId => .group groupId

/-- `PeerIdentityReview`; the objects are told apart by a number. -/
structure Review where
  id : ℕ
  peerId : Text
  previousIdentity : Option Identity
  currentIdentity : Identity
  localIdentity : Identity
deriving DecidableEq

def Review.identityChanged (review : Review) : Bool := review.previousIdentity ≠ some review.currentIdentity

/-- An encryption: the session before it, what was drawn for it, and the plaintext. -/
inductive Release (S G : Type) where
  | direct (peerId sessionId : Text) (before : S) (draw : ℕ) (plaintext : Text)
  | group (groupId : Text) (before : G) (plaintext : Text)

namespace Release

variable {A S G : Type} (V : Ratchets A S G)

def key : Release S G → ℕ × ℕ
  | .direct _ _ before draw _ => V.nextKey draw before
  | .group _ before _ => (V.groupChain before, V.groupIndex before)

def plaintext : Release S G → Text
  | .direct _ _ _ _ plaintext | .group _ _ plaintext => plaintext

end Release

/-- A pin that was written: what was pinned before, and the approval that it is for with the identity that was presented
then. -/
structure PinChange where
  peerId : Text
  previous : Option Identity
  identity : Identity
  approval : Option (Review × Identity)

/-- A message that was encrypted or accepted: the identity that its session was established with, and the pin then. -/
structure Message where
  peerId : Text
  establishedWith : Identity
  pinned : Option Identity

/-- The rows, what is in memory, and the values drawn so far, each under its lock.  The rest is history: the encryptions,
those whose session was written after them, and those that were returned; the rows that were written; the pins that
were written; and the messages with their pins. -/
structure Device (A S G : Type) where
  identities : Text → Option Identity := fun _ => none
  account : Option A := none
  sessions : Keyed (SessionRow.key (S := S)) := .empty
  groups : Text → Option (GroupRow G) := fun _ => none
  runtime : ℕ := 0
  chained : Lock → ℕ := fun _ => 0
  done : Lock → ℕ := fun _ => 0
  reviews : ℕ := 0
  issued : List Review := []
  drawn : List Lock := []
  encrypted : List (Release S G) := []
  stored : List (Release S G) := []
  returned : List (Release S G) := []
  writtenSessions : List (SessionRow S) := []
  writtenGroups : List (GroupRow G) := []
  pins : List PinChange := []
  messages : List Message := []

namespace Device

variable {A S G : Type}

/-- `forPeer`, the last used first. -/
def forPeer (peerId : Text) (d : Device A S G) : List (SessionRow S) :=
  (d.sessions.values.filter fun row => decide (row.peerId = peerId)).insertionSort fun a b =>
    b.lastUsedAt ≤ a.lastUsedAt

def setSessions (sessions : Keyed (SessionRow.key (S := S))) (d : Device A S G) : Device A S G :=
  { d with sessions := sessions }

def upsertSession (row : SessionRow S) (release : Option (Release S G)) (d : Device A S G) : Device A S G :=
  { d with
    sessions := d.sessions.insert row, writtenSessions := row :: d.writtenSessions,
    stored := d.stored ++ release.toList }

def deleteSessionsForPeer (peerId : Text) (d : Device A S G) : Device A S G :=
  d.setSessions (d.sessions.filter fun row => decide (row.peerId ≠ peerId))

def upsertGroup (row : GroupRow G) (release : Option (Release S G)) (d : Device A S G) : Device A S G :=
  { d with
    groups := Function.update d.groups row.groupId (some row), writtenGroups := row :: d.writtenGroups,
    stored := d.stored ++ release.toList }

def deleteGroup (groupId : Text) (d : Device A S G) : Device A S G :=
  { d with groups := Function.update d.groups groupId none }

def insertIdentity (peerId : Text) (identity : Identity) (approval : Option (Review × Identity)) (d : Device A S G) :
    Device A S G :=
  { d with
    identities := Function.update d.identities peerId (some identity),
    pins := ⟨peerId, d.identities peerId, identity, approval⟩ :: d.pins }

def setAccount (account : A) (d : Device A S G) : Device A S G := { d with account := some account }

def draw (lock : Lock) (d : Device A S G) : Device A S G := { d with drawn := d.drawn ++ [lock] }

def encrypt (release : Release S G) (d : Device A S G) : Device A S G := { d with encrypted := release :: d.encrypted }

def giveBack (release : Release S G) (d : Device A S G) : Device A S G := { d with returned := release :: d.returned }

def exchange (peerId : Text) (establishedWith : Identity) (d : Device A S G) : Device A S G :=
  { d with messages := ⟨peerId, establishedWith, d.identities peerId⟩ :: d.messages }

def chain (lock : Lock) (d : Device A S G) : Device A S G :=
  { d with chained := Function.update d.chained lock (d.chained lock + 1) }

def release (lock : Lock) (d : Device A S G) : Device A S G :=
  { d with done := Function.update d.done lock (d.done lock + 1) }

def setReviews (reviews : ℕ) (issued : List Review) (d : Device A S G) : Device A S G :=
  { d with reviews := reviews, issued := issued }

def stop (d : Device A S G) : Device A S G :=
  { d with runtime := d.runtime + 1, chained := fun _ => 0, done := fun _ => 0, issued := [] }

end Device

/-! ## What is awaited -/

@[ext] structure Turn where
  runtime : ℕ
  lock : Lock
  ticket : ℕ
deriving DecidableEq

/-- What an operation that holds its lock is in the middle of: the pin of the peer that it has read; a change of an
approved identity; a row that is being written, with the one that it replaces; or the return. -/
inductive Point (S G : Type) where
  | step
  | knowing (pin : Option Identity)
  | clearing
  | storing (row : SessionRow S) (base : Option (SessionRow S)) (release : Option (Release S G))
  | storingGroup (row : GroupRow G) (base : Option (GroupRow G)) (release : Option (Release S G))
  | returning (release : Option (Release S G)) (establishedWith : Option Identity)

inductive Wait (S G : Type) where
  | queued (t : Turn)
  | held (t : Turn) (p : Point S G)

def Wait.turn {S G : Type} : Wait S G → Turn
  | .queued t | .held t _ => t

structure Answer where
  bundle : Option OlmPreKeyBundle := none
  now : ℤ := 0

abbrev Call (A S G α : Type) := Program Answer (Wait S G) (Device A S G) Fault α

section Calls

variable {A S G α : Type} (V : Ratchets A S G)

def on (t : Turn) (p : Point S G) : Call A S G Answer := Program.wait .other (.held t p)

def read (t : Turn) (p : Point S G) (f : Answer → Device A S G → α) : Call A S G α :=
  .await (.held t p) (fun _ d => d) (fun a d => .pure (f a d)) (.throw .other)

def write (t : Turn) (p : Point S G) (f : Device A S G → Device A S G) : Call A S G Unit :=
  .await (.held t p) (fun _ d => f d) (fun _ _ => .pure ()) (.throw .other)

def random (t : Turn) : Call A S G ℕ := .sync (Device.draw t.lock) fun d => .pure d.drawn.length

def protect (lock : Lock) (operation : Turn → Call A S G α) : Call A S G α := do
  let t ← .sync (Device.chain lock) fun d => .pure ⟨d.runtime, lock, d.chained lock⟩
  let _ ← Program.wait .other (.queued t)
  let result ← (operation t).attempt
  modify (Device.release lock)
  match result with
  | .ok a => pure a
  | .error e => .throw e

/-! ## The store -/

def withAccount (t : Turn) (p : Point S G) (action : A → Call A S G (A × α)) : Call A S G α := do
  let pickle ← read t p fun _ d => d.account
  let account ← match pickle with
    | some account => pure account
    | none => do
      let draw ← random t
      pure (V.createAccount draw)
  let result ← action account
  write t p (Device.setAccount result.1)
  pure result.2

def sessionIdsForPeer (t : Turn) (peerId : Text) : Call A S G (List Text) :=
  read t .step fun _ d => (d.forPeer peerId).map SessionRow.sessionId

def nextUseStamp (now : ℤ) (rows : List (SessionRow S)) : ℤ :=
  rows.foldl (fun stamp row => if stamp ≤ row.lastUsedAt then row.lastUsedAt + 1 else stamp) now

def upsert (t : Turn) (row : SessionRow S) (base : Option (SessionRow S)) (release : Option (Release S G)) :
    Call A S G Unit := do
  let stamp ← read t (.storing row base release) fun a d => nextUseStamp a.now (d.forPeer row.peerId)
  write t (.storing row base release) (Device.upsertSession { row with lastUsedAt := stamp } release)

/-- What an action makes of a session: its successor, the encryption that it was, if it was one, and a result. -/
structure Advance (S R α : Type) where
  session : S
  release : Option R
  result : α

def withSession (t : Turn) (peerId sessionId : Text)
    (action : SessionRow S → Call A S G (Advance S (Release S G) α)) : Call A S G α := do
  let stored ← read t .step fun _ d => d.sessions.get (peerId, sessionId)
  match stored with
  | none => .throw .stateError
  | some row => do
    let out ← action row
    upsert t { row with session := out.session } (some row) out.release
    pure out.result

def persistNewSession (t : Turn) (peerId : Text) (session : S) (identity : Identity) : Call A S G Unit :=
  upsert t ⟨peerId, V.sessionId session, session, 0, identity⟩ none none

def deleteSessionsForPeer (t : Turn) (p : Point S G) (peerId : Text) : Call A S G Unit :=
  write t p (Device.deleteSessionsForPeer peerId)

def withGroupSession (t : Turn) (groupId : Text) (action : G → Call A S G (Advance G (Release S G) α)) :
    Call A S G α := do
  let stored ← read t .step fun _ d => d.groups groupId
  let session ← match stored with
    | some row => pure row.session
    | none => do
      let draw ← random t
      pure (V.createGroupSession draw)
  let out ← action session
  let row : GroupRow G := ⟨groupId, V.groupSessionId out.session, out.session⟩
  write t (.storingGroup row stored out.release) (Device.upsertGroup row out.release)
  pure out.result

/-! ## The review of an identity -/

def getIdentity (t : Turn) (p : Point S G) (peerId : Text) : Call A S G (Option Identity) :=
  read t p fun _ d => d.identities peerId

def insertIdentity (t : Turn) (pin : Option Identity) (peerId : Text) (identity : Identity)
    (approval : Option (Review × Identity)) : Call A S G Unit :=
  write t (.knowing pin) (Device.insertIdentity peerId identity approval)

def fetch (t : Turn) (p : Point S G) : Call A S G (Option OlmPreKeyBundle) := read t p fun a _ => a.bundle

def requireBundle (t : Turn) (p : Point S G) : Call A S G OlmPreKeyBundle := do
  let bundle ← fetch t p
  match bundle with
  | some bundle => pure bundle
  | none => .throw .stateError

def localIdentityBytes (t : Turn) (p : Point S G) : Call A S G Identity :=
  withAccount V t p fun account => pure (account, V.identityKeys account)

def reviewPeerIdentity (peerId : Text) : Call A S G Unit :=
  protect (.direct peerId) fun t => do
    let bundle ← requireBundle t .step
    let previous ← getIdentity t .step peerId
    let localIdentity ← localIdentityBytes V t .step
    modify fun d =>
      d.setReviews (d.reviews + 1) (⟨d.reviews, peerId, previous, bundle.identity, localIdentity⟩ :: d.issued)

def approvePeerIdentity (review : Review) : Call A S G Unit :=
  protect (.direct review.peerId) fun t => do
    let d ← get
    if ¬ review ∈ d.issued then .throw .reviewStale
    else do
      modify fun d => d.setReviews d.reviews (d.issued.filter (· ≠ review))
      let bundle ← requireBundle t .step
      let previous ← getIdentity t .step review.peerId
      let localIdentity ← localIdentityBytes V t (.knowing previous)
      if bundle.identity ≠ review.currentIdentity ∨ previous ≠ review.previousIdentity ∨
          localIdentity ≠ review.localIdentity then .throw .reviewStale
      else do
        insertIdentity t previous review.peerId review.currentIdentity (some (review, bundle.identity))
        if review.identityChanged then deleteSessionsForPeer t .clearing review.peerId else pure ()

/-! ## The sessions -/

def createOutbound (t : Turn) (recipientId : Text) (bundle : OlmPreKeyBundle) : Call A S G Bool := do
  withAccount V t (.knowing (some bundle.identity)) fun account => do
    let draw ← random t
    match V.createOutboundSession account bundle.identity.identityKey bundle.oneTimeKey draw with
    | .error kind => .throw (.crypto kind)
    | .ok session => do
      persistNewSession V t recipientId session bundle.identity
      pure (account, ())
  pure true

def createOutboundSession (t : Turn) (recipientId : Text) : Call A S G Bool := do
  let fetched ← fetch t .step
  match fetched with
  | none => pure false
  | some bundle => do
    let pinned ← getIdentity t .step recipientId
    match pinned with
    | some pin =>
      if pin ≠ bundle.identity then do
        let _ ← on t .step
        .throw (.peerIdentityChanged recipientId)
      else createOutbound V t recipientId bundle
    | none => do
      insertIdentity t none recipientId bundle.identity none
      createOutbound V t recipientId bundle

def ensureSessionUnlocked (t : Turn) (recipientId : Text) (force : Bool) : Call A S G Bool :=
  if force then do
    deleteSessionsForPeer t .step recipientId
    createOutboundSession V t recipientId
  else do
    let ids ← sessionIdsForPeer t recipientId
    if ids = [] then createOutboundSession V t recipientId else pure true

def ensureSession (recipientId : Text) (force : Bool) : Call A S G Bool :=
  protect (.direct recipientId) fun t => ensureSessionUnlocked V t recipientId force

def resetPeerSession (peerId : Text) : Call A S G Unit :=
  protect (.direct peerId) fun t => deleteSessionsForPeer t .step peerId

def openFreshSession (peerId : Text) : Call A S G Bool :=
  protect (.direct peerId) fun t => createOutboundSession V t peerId

def rebuildPeerSession (peerId : Text) : Call A S G Bool :=
  protect (.direct peerId) fun t => do
    deleteSessionsForPeer t .step peerId
    ensureSessionUnlocked V t peerId true

/-! ## Direct messages -/

def directPrefix : Text := "OLM:v1:".toList

def OlmType.digit : OlmType → Char
  | .preKey => '0'
  | .message => '1'

def encodeDirect (envelope : OlmEnvelope) : Text := directPrefix ++ envelope.type.digit :: ':' :: envelope.body

def readType (digits : Text) : Option OlmType :=
  match DartInt.tryParse digits with
  | some n => if n = 0 then some .preKey else if n = 1 then some .message else none
  | none => none

/-- The head of `_decryptDirect`. -/
def parseDirect (envelope : Text) : Option OlmEnvelope :=
  if ¬ directPrefix.isPrefixOf envelope then none
  else
    let rest := envelope.drop directPrefix.length
    let digits := rest.takeWhile (· ≠ ':')
    if digits = [] ∨ digits = rest then none
    else (readType digits).map fun type => ⟨type, rest.drop (digits.length + 1)⟩

def encryptWith (t : Turn) (plaintext : Text) (row : SessionRow S) :
    Call A S G (Advance S (Release S G) (OlmEnvelope × Release S G × Identity)) := do
  let draw ← random t
  let release : Release S G := .direct row.peerId row.sessionId row.session draw plaintext
  modify (Device.encrypt release)
  let sealed := V.encrypt draw plaintext row.session
  pure ⟨sealed.1, some release, (sealed.2, release, row.establishedWith)⟩

def encryptDirect (recipientId plaintext : Text) : Call A S G Text :=
  protect (.direct recipientId) fun t => do
    let established ← ensureSessionUnlocked V t recipientId false
    if ¬ established then .throw .stateError
    else do
      let ids ← sessionIdsForPeer t recipientId
      match ids with
      | [] => .throw .stateError
      | sessionId :: _ => do
        let sent ← withSession t recipientId sessionId (encryptWith V t plaintext)
        let _ ← on t (.returning (some sent.2.1) (some sent.2.2))
        modify fun d => (d.giveBack sent.2.1).exchange recipientId sent.2.2
        pure (encodeDirect sent.1)

def openWith (message : OlmEnvelope) (row : SessionRow S) :
    Call A S G (Advance S (Release S G) (Text × Identity)) :=
  match V.decrypt message row.session with
  | .ok opened => pure ⟨opened.1, none, (opened.2, row.establishedWith)⟩
  | .error kind => .throw (.crypto kind)

def accept (t : Turn) (senderId : Text) (identity : Identity) (plaintext : Text) : Call A S G Text := do
  let _ ← on t (.returning none (some identity))
  modify (Device.exchange senderId identity)
  pure plaintext

/-- The known sessions are tried in order; where none opens the message, the last error and whether the key of the
message was used already. -/
def tryAll (t : Turn) (senderId : Text) (message : OlmEnvelope) :
    List Text → Option CryptoErrorKind → Bool → Call A S G (Except (Option CryptoErrorKind × Bool) Text)
  | [], lastError, duplicate => pure (.error (lastError, duplicate))
  | id :: ids, _, duplicate => do
    let result ← (withSession t senderId id (openWith V message)).attempt
    match result with
    | .ok opened => do
      let plaintext ← accept t senderId opened.2 opened.1
      pure (.ok plaintext)
    | .error (.crypto kind) => tryAll t senderId message ids (some kind) (duplicate || kind = .missingMessageKey)
    | .error e => .throw e

def acceptInboundSession (t : Turn) (senderId preKeyBody : Text) : Call A S G Text := do
  let pinned ← getIdentity t .step senderId
  match pinned with
  | some _ => pure ()
  | none => do
    let bundle ← requireBundle t (.knowing none)
    insertIdentity t none senderId bundle.identity none
  let identity ← getIdentity t .step senderId
  match identity with
  | none => .throw .other
  | some identity => do
    let plaintext ← withAccount V t (.knowing (some identity)) fun account =>
      match V.createInboundSession account identity.identityKey preKeyBody with
      | .error kind => .throw (.crypto kind)
      | .ok result => do
        persistNewSession V t senderId result.2.1 identity
        pure (result.1, result.2.2)
    accept t senderId identity plaintext

/-- The end of `_decryptDirect`, where nothing has opened the message. -/
def conclude (t : Turn) (senderId : Text) (lastError : Option CryptoErrorKind) (duplicate : Bool) : Call A S G Text :=
  if duplicate then .throw (.crypto .missingMessageKey)
  else
    match lastError with
    | none => do
      deleteSessionsForPeer t .step senderId
      .throw (.sessionUnusable senderId)
    | some kind => .throw (if kind.indicatesUnusableSession then .sessionUnusable senderId else .crypto kind)

def decryptDirect (senderId envelope : Text) : Call A S G Text :=
  protect (.direct senderId) fun t =>
    match parseDirect envelope with
    | none => .throw .format
    | some message => do
      let ids ← sessionIdsForPeer t senderId
      let tried ← tryAll V t senderId message ids none false
      match tried with
      | .ok plaintext => pure plaintext
      | .error (lastError, duplicate) =>
        if message.type = .preKey ∧ ¬ duplicate then do
          let result ← (acceptInboundSession V t senderId message.body).attempt
          match result with
          | .ok plaintext => pure plaintext
          | .error (.crypto .identityMismatch) => do
            let _ ← on t .step
            .throw (.peerIdentityChanged senderId)
          | .error (.crypto kind) => conclude t senderId (some kind) duplicate
          | .error e => .throw e
        else conclude t senderId lastError duplicate

/-! ## Group messages -/

def groupPrefix : Text := "MEGOLM:v1:".toList

def distributionPrefix : Text := "SKDM:v2:".toList

def createSenderKeyDistribution (groupId : Text) : Call A S G Text :=
  protect (.group groupId) fun t => do
    let sessionKey ← withGroupSession V t groupId fun session => pure ⟨session, none, V.sessionKey session⟩
    pure (distributionPrefix ++ groupId ++ ':' :: sessionKey)

/-- `_encryptGroupWire` -/
def encryptGroup (groupId plaintext : Text) : Call A S G Text :=
  protect (.group groupId) fun t => do
    let result ← withGroupSession V t groupId fun session => do
      let release : Release S G := .group groupId session plaintext
      modify (Device.encrypt release)
      let sealed := V.encryptGroup plaintext session
      pure ⟨sealed.1, some release, (release, V.groupSessionId sealed.1, sealed.2)⟩
    let _ ← on t (.returning (some result.1) none)
    modify (Device.giveBack result.1)
    pure (groupPrefix ++ V.groupRoutingToken groupId ++ ':' :: result.2.1 ++ ':' :: result.2.2)

/-- `decryptGroup` and `processSenderKeyDistribution`: a row of another table is read and written. -/
def receiveGroup (groupId : Text) : Call A S G Unit :=
  protect (.group groupId) fun t => do
    let _ ← on t .step
    let _ ← on t .step
    let _ ← on t .step

def resetLocalSenderKey (groupId : Text) : Call A S G Unit :=
  protect (.group groupId) fun t => write t .step (Device.deleteGroup groupId)

end Calls

inductive Event where
  | reviewPeerIdentity (peerId : Text)
  | approvePeerIdentity (review : Review)
  | ensureSession (recipientId : Text) (force : Bool)
  | resetPeerSession (peerId : Text)
  | openFreshSession (peerId : Text)
  | rebuildPeerSession (peerId : Text)
  | encryptDirect (recipientId plaintext : Text)
  | decryptDirect (senderId envelope : Text)
  | createSenderKeyDistribution (groupId : Text)
  | encryptGroup (groupId plaintext : Text)
  | receiveGroup (groupId : Text)
  | resetLocalSenderKey (groupId : Text)
  | stop

section System

variable {A S G : Type} (V : Ratchets A S G)

def ignore {α : Type} (call : Call A S G α) : Call A S G Unit := do
  let _ ← call
  pure ()

def program : Event → Call A S G Unit
  | .reviewPeerIdentity peerId => reviewPeerIdentity V peerId
  | .approvePeerIdentity review => approvePeerIdentity V review
  | .ensureSession recipientId force => ignore (ensureSession V recipientId force)
  | .resetPeerSession peerId => resetPeerSession peerId
  | .openFreshSession peerId => ignore (openFreshSession V peerId)
  | .rebuildPeerSession peerId => ignore (rebuildPeerSession V peerId)
  | .encryptDirect recipientId plaintext => ignore (encryptDirect V recipientId plaintext)
  | .decryptDirect senderId envelope => ignore (decryptDirect V senderId envelope)
  | .createSenderKeyDistribution groupId => ignore (createSenderKeyDistribution V groupId)
  | .encryptGroup groupId plaintext => ignore (encryptGroup V groupId plaintext)
  | .receiveGroup groupId => receiveGroup groupId
  | .resetLocalSenderKey groupId => resetLocalSenderKey groupId
  | .stop => modify Device.stop

/-- An operation of a process that has stopped does not go on, and the lock goes to the first of those that queue. -/
def ready (w : Wait S G) (answer : Option Answer) (d : Device A S G) : Bool :=
  decide (w.turn.runtime = d.runtime) &&
    match w with
    | .queued t => answer.isSome && decide (d.done t.lock = t.ticket)
    | .held _ _ => true

def tasks : Tasks Answer (Wait S G) (Device A S G) Fault Event := ⟨program V, ready⟩

abbrev State (A S G : Type) := Tasks.State Answer (Wait S G) (Device A S G) Fault Event

end System

end PeerSessions
end SecureChat
