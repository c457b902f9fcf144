import Mathlib
import SecureChat.AsyncProgram
import SecureChat.Base64Url
import SecureChat.PosixPath
import SecureChat.Sha256
/-!
# FileTransferManager — how incoming files are handled

A peer sends a file in chunks, or a pointer to a sealed attachment.  Handling either is a program whose awaited steps
change the file system or ask something of it, of the crypto service or of the network.  What a step brings is up to the
prior state of the transfer and to its surroundings, and it may throw.
-/
namespace SecureChat
namespace FileTransfer

open PosixPath (child)

/-- What an awaited step does to the file system; `ask` leaves it as it is. -/
inductive Action
  | create (directory : String)
  | write (file : String)
  | rename (source target : String)
  | delete (entity : String)
  | ask
deriving DecidableEq

/-- The characters of `[\p{L}\p{N}]` and what `trim` leaves of a text; a slash and NUL are neither letters nor numbers.
-/
structure Unicode where
  letterOrNumber : Char → Bool
  trim : String → String
  slash : letterOrNumber '/' = false
  nul : letterOrNumber '\x00' = false

def replaceDots : List Char → List Char
  | '.' :: '.' :: cs => '_' :: replaceDots cs
  | c :: cs => c :: replaceDots cs
  | [] => []

def units (c : Char) : ℕ := if c.toNat < 0x10000 then 1 else 2

/-- `substring(0, n)`, in UTF-16 code units; half a character is written as U+FFFD. -/
def takeUnits : ℕ → List Char → List Char
  | 0, _ => []
  | _ + 1, [] => []
  | n + 1, c :: cs =>
    if units c = 1 then c :: takeUnits n cs
    else
      match n with
      | 0 => ['\uFFFD']
      | n + 1 => c :: takeUnits n cs

/-- `[^\p{L}\p{N}._-]` becomes `_`, and so does `..`. -/
def replaceUnsafe (u : Unicode) (base : List Char) : List Char :=
  replaceDots (base.map fun c => if u.letterOrNumber c = true ∨ c ∈ ['.', '_', '-'] then c else '_')

def shorten (safe : List Char) : List Char := if 100 < (safe.map units).sum then takeUnits 100 safe else safe

def sanitizeFileName (u : Unicode) (value : String) : String :=
  let base := (value.toList.splitOnP fun c => decide (c = '/' ∨ c = '\\')).getLastD []
  let shortened := shorten (replaceUnsafe u base)
  if shortened = [] then "dosya" else String.ofList shortened

structure FileTransferSignal where
  senderId : String
  recipientId : String
  timestamp : String
  fileName : String
  mimeType : String
  fileSize : ℤ
  data : String
  groupId : Option String
  transferId : Option String
  chunkIndex : ℤ
  totalChunks : ℤ
  caption : Option String
  isViewOnce : Bool
  originalMessageId : Option String
  absoluteExpiresAt : Option ℤ
  encryption : Option String
deriving DecidableEq

structure TransferMetadata where
  senderId : String
  fileName : String
  mimeType : String
  fileSize : ℤ
  totalChunks : ℤ
  groupId : Option String
  caption : Option String
  isViewOnce : Bool
  originalMessageId : Option String
  absoluteExpiresAt : Option ℤ
  encryption : Option String
deriving Inhabited

namespace TransferMetadata

def fromSignal (u : Unicode) (signal : FileTransferSignal) : TransferMetadata where
  senderId := signal.senderId
  fileName := sanitizeFileName u signal.fileName
  mimeType := signal.mimeType
  fileSize := signal.fileSize
  totalChunks := signal.totalChunks
  groupId := signal.groupId
  caption := signal.caption
  isViewOnce := signal.isViewOnce
  originalMessageId := signal.originalMessageId
  absoluteExpiresAt := signal.absoluteExpiresAt
  encryption := signal.encryption

def mergeSignal (m : TransferMetadata) (signal : FileTransferSignal) : TransferMetadata :=
  { m with
    caption := signal.caption <|> m.caption
    isViewOnce := m.isViewOnce || signal.isViewOnce
    originalMessageId := signal.originalMessageId <|> m.originalMessageId
    absoluteExpiresAt := signal.absoluteExpiresAt <|> m.absoluteExpiresAt }

abbrev Matches (m other : TransferMetadata) : Prop :=
  m.senderId = other.senderId ∧ m.fileName = other.fileName ∧ m.mimeType = other.mimeType ∧
    m.fileSize = other.fileSize ∧ m.totalChunks = other.totalChunks ∧ m.groupId = other.groupId ∧
      m.encryption = other.encryption

end TransferMetadata

structure ManifestJson where
  name : String
  size : ℤ
  messageId : Option String
deriving Inhabited

structure PrivateFileManifest where
  fileName : String
  fileSize : ℤ
  originalMessageId : Option String

def PrivateFileManifest.fromJson (u : Unicode) (json : ManifestJson) : PrivateFileManifest :=
  ⟨sanitizeFileName u json.name, json.size, json.messageId⟩

structure PointerJson where
  sealedSize : ℤ
  manifest : ManifestJson
deriving Inhabited

/-- What an awaited step brings, whatever it is asked for. -/
structure Answer where
  flag : Bool
  millis : ℤ
  length : ℤ
  senderId : String
  groupId : String
  resolved : Option String
  stored : TransferMetadata
  manifest : ManifestJson
  pointer : PointerJson
deriving Inhabited

abbrev Io := Async.Program Answer Action Unit Unit

structure ReceivedFile where
  transferId : String
  file : String
  fileName : String
  senderId : String
  fileSize : ℤ
  originalMessageId : Option String
  groupId : Option String

namespace Io

variable {α : Type}

def act (a : Action) : Io Unit := .await a (fun _ s => s) (fun _ _ => .pure ()) (.throw ())

def ask (f : Answer → α) : Io α := .await .ask (fun _ s => s) (fun i _ => .pure (f i)) (.throw ())

def wait : Io Unit := ask fun _ => ()

def fail : Io α := .throw ()

def orElse (p h : Io α) : Io α := do
  match ← p.attempt with
  | .ok a => pure a
  | .error _ => h

/-- `try … finally`. -/
def finallyDo (p : Io α) (f : Io Unit) : Io α := do
  let r ← p.attempt
  f
  match r with
  | .ok a => pure a
  | .error _ => fail

/-- `if (await entity.exists()) await entity.delete()`. -/
def deleteIfThere (entity : String) : Io Unit := do
  if ← ask Answer.flag then act (.delete entity)

/-- `_sealPaths`, `_resealPath` and `_openPath`: the result is written beside its place and renamed. -/
def writeBeside (output suffix : String) : Io Unit := do
  let temporary := output ++ suffix
  act (.write temporary)
  orElse wait do
    wait
    deleteIfThere temporary
    fail
  wait
  act (.rename temporary output)

end Io

open Io

/-- The directory of the application's files, by a path the system reads to its end. -/
structure FilesDirectory where
  path : String
  no_nul : ¬ '\x00' ∈ path.toList

structure FileTransferManager where
  filesDirectory : FilesDirectory
  unicode : Unicode
  chunkSize : ℤ
  maximumFileSize : ℤ
  vault : Bool
  attachments : Bool
  blobDownloadDelays : ℕ
  closing : Bool

def maximumGroupChunkSize : ℤ := 48 * 1024

def groupWireVersion : String := "flutter-file-v5-group"

def blobWireVersion : String := "flutter-file-v6-blob"

def blobGroupWireVersion : String := "flutter-file-v6-blob-group"

def startsWith (head : String) (text : Option String) : Bool := text.any fun t => head.toList.isPrefixOf t.toList

def legacyTransferId (signal : FileTransferSignal) : String :=
  String.ofList (Base64Url.withoutPadding (Base64Url.encode (Base64Url.utf8
    (signal.senderId ++ ":" ++ signal.timestamp ++ ":" ++ signal.fileName))))

namespace FileTransferSignal

def isBlob (signal : FileTransferSignal) : Bool :=
  decide (signal.encryption = some blobWireVersion ∨ signal.encryption = some blobGroupWireVersion)

def privateWire (signal : FileTransferSignal) : Bool :=
  startsWith "flutter-file-v2-" signal.encryption || startsWith "flutter-file-v3-" signal.encryption ||
    startsWith "flutter-file-v4-" signal.encryption || decide (signal.encryption = some groupWireVersion)

def id (signal : FileTransferSignal) : String := signal.transferId.getD (legacyTransferId signal)

end FileTransferSignal

namespace FileTransferManager

variable (m : FileTransferManager)

def incomingParts : String := child m.filesDirectory.path "incoming_parts"

def incomingBlobs : String := child m.filesDirectory.path "incoming_blobs"

def receivedFiles : String := child m.filesDirectory.path "received_files"

def transferChunkSize (signal : FileTransferSignal) : ℤ :=
  if signal.encryption = some groupWireVersion then min m.chunkSize maximumGroupChunkSize else m.chunkSize

abbrev Rejects (signal : FileTransferSignal) : Prop :=
  (signal.fileSize < 0 ∨
    signal.fileSize > if signal.privateWire then m.maximumFileSize + m.chunkSize - 1 else m.maximumFileSize) ∨
  (signal.totalChunks < 1 ∨ signal.chunkIndex < 0 ∨ signal.chunkIndex ≥ signal.totalChunks) ∨
  (signal.privateWire = true ∧ signal.fileSize ≠ signal.totalChunks * m.transferChunkSize signal)

/-- The stored metadata of the transfer, or the new one; `none` if the chunk does not belong to it. -/
def loadMetadata (signal : FileTransferSignal) (partDirectory : String) : Io (Option TransferMetadata) := do
  let metadata := child partDirectory "metadata.secure"
  let expected := TransferMetadata.fromSignal m.unicode signal
  if ← ask Answer.flag then
    let stored ← ask Answer.stored
    if stored.Matches expected then
      act (.write metadata)
      return some (stored.mergeSignal signal)
    else
      act (.delete partDirectory)
      return none
  else
    act (.write metadata)
    return some expected

def countParts : ℕ → ℕ → ℤ → Io (ℕ × ℤ)
  | 0, completed, receivedBytes => pure (completed, receivedBytes)
  | n + 1, completed, receivedBytes => do
    if ← ask Answer.flag then
      let length ← ask Answer.length
      countParts n (completed + 1) (receivedBytes + length)
    else countParts n completed receivedBytes

/-- `$millisecondsSinceEpoch_$fileName`. -/
def outputPath (fileName : String) (now : ℤ) : String := child m.receivedFiles (toString now ++ "_" ++ fileName)

def resolveGroup (signal : FileTransferSignal) (privateGroupV2 privateGroupV3 : Bool) : Io (Option String) :=
  if privateGroupV3 then ask fun a => some a.groupId
  else if privateGroupV2 then ask Answer.resolved
  else pure signal.groupId

abbrev WrongSize (signal : FileTransferSignal) (bytes : ℤ) : Prop :=
  bytes > m.transferChunkSize signal ∨
    (signal.chunkIndex < signal.totalChunks - 1 ∧ bytes ≠ m.transferChunkSize signal)

def giveUp {α : Type} (partDirectory : String) : Io (Option α) := do
  act (.delete partDirectory)
  return none

def storeReceived (signal : FileTransferSignal) (partDirectory fileName : String) (fileSize : ℤ)
    (originalMessageId groupId : Option String) : Io (Option ReceivedFile) := do
  act (.create m.receivedFiles)
  let now ← ask Answer.millis
  let output := m.outputPath fileName now
  if m.vault then writeBeside output ".sealing"
  else
    act (.write output)
    wait
  act (.delete partDirectory)
  return some ⟨signal.id, output, fileName, signal.senderId, fileSize, originalMessageId, groupId⟩

def storePrivate (signal : FileTransferSignal) (partDirectory : String) (groupId : Option String) (receivedBytes : ℤ) :
    Io (Option ReceivedFile) := do
  let json ← ask Answer.manifest
  let manifest := PrivateFileManifest.fromJson m.unicode json
  if manifest.fileSize > m.maximumFileSize ∨ manifest.fileSize ≠ receivedBytes then giveUp partDirectory
  else m.storeReceived signal partDirectory manifest.fileName manifest.fileSize manifest.originalMessageId groupId

/-- The transfer is complete: its manifest or its caption is decrypted and the file put together. -/
def finishParts (signal : FileTransferSignal) (partDirectory : String) (stored : TransferMetadata)
    (privateGroupV3 : Bool) (groupId : Option String) (receivedBytes : ℤ) : Io (Option ReceivedFile) :=
  if signal.privateWire then
    if receivedBytes > signal.fileSize ∨ stored.caption = none then giveUp partDirectory
    else if privateGroupV3 then do
      let routed ← ask Answer.groupId
      if some routed ≠ groupId then giveUp partDirectory
      else m.storePrivate signal partDirectory groupId receivedBytes
    else m.storePrivate signal partDirectory groupId receivedBytes
  else if receivedBytes ≠ signal.fileSize then giveUp partDirectory
  else do
    if stored.caption.isSome then wait
    m.storeReceived signal partDirectory stored.fileName signal.fileSize stored.originalMessageId groupId

/-- The chunk is decrypted, kept, and the transfer finished if it was the last one missing. -/
def receiveContent (signal : FileTransferSignal) (partDirectory : String) (stored : TransferMetadata) :
    Io (Option ReceivedFile) := do
  let privateGroupV2 := decide (stored.encryption = some "flutter-file-v2-group")
  let privateGroupV3 := decide (stored.encryption = some "flutter-file-v3-group" ∨
    stored.encryption = some "flutter-file-v4-group" ∨ stored.encryption = some groupWireVersion)
  let groupId ← resolveGroup signal privateGroupV2 privateGroupV3
  if privateGroupV2 ∧ groupId = none then giveUp partDirectory
  else
    let bytes ← ask Answer.length
    if m.WrongSize signal bytes then giveUp partDirectory
    else
      act (.write (child partDirectory (toString signal.chunkIndex ++ ".part")))
      let parts ← countParts signal.totalChunks.toNat 0 0
      let disposed ← ask Answer.flag
      if disposed ∨ (parts.1 : ℤ) ≠ signal.totalChunks then return none
      else m.finishParts signal partDirectory stored privateGroupV3 groupId parts.2

/-- The part of `_receiveChunkSerial` inside its `try`. -/
def receivePart (signal : FileTransferSignal) (partDirectory : String) : Io (Option ReceivedFile) := do
  act (.create partDirectory)
  match ← m.loadMetadata signal partDirectory with
  | none => return none
  | some stored => m.receiveContent signal partDirectory stored

/-- What `HttpAttachmentTransport.download` sends, and writes beside its target. -/
def send (target : String) : Io Unit := do
  let partialFile := target ++ ".download"
  wait
  act (.write partialFile)
  orElse wait do
    wait
    deleteIfThere partialFile
    fail
  act (.rename partialFile target)

/-- `_withAuth`: a request that is not authorized is sent once more with a new token. -/
def download (target : String) : Io Unit := do
  wait
  orElse (send target) do
    let unauthorized ← ask Answer.flag
    if unauthorized then
      wait
      send target
    else fail

inductive Fetch
  | closed
  | fetched
  | failed (notFound : Bool)

def fetch (sealedFile : String) : ℕ → Fetch → Io Fetch
  | 0, last => pure last
  | n + 1, _ => do
    wait
    if ← ask Answer.flag then return .closed
    match ← (download sealedFile).attempt with
    | .ok _ => return .fetched
    | .error _ =>
      let notFound ← ask Answer.flag
      if notFound then return .failed true
      fetch sealedFile n (.failed false)

def completeBlob (transferId senderId : String) (groupId : Option String) (pointer : PointerJson)
    (sealedFile pending : String) : Io (Option ReceivedFile) :=
  finallyDo (do
    match ← fetch sealedFile m.blobDownloadDelays .fetched with
    | .closed => return none
    | .failed notFound =>
      if notFound then act (.delete pending)
      fail
    | .fetched =>
      let sealedLength ← ask Answer.length
      if sealedLength ≠ pointer.sealedSize then fail
      else
        let manifest := PrivateFileManifest.fromJson m.unicode pointer.manifest
        act (.create m.receivedFiles)
        let now ← ask Answer.millis
        let output := m.outputPath manifest.fileName now
        orElse (writeBeside output (if m.vault then ".sealing" else ".opening")) do
          deleteIfThere pending
          fail
        let plaintextLength ← ask Answer.length
        if plaintextLength ≠ manifest.fileSize then
          act (.delete output)
          act (.delete pending)
          fail
        else
          act (.delete pending)
          return some {
            transferId := transferId
            file := output
            fileName := manifest.fileName
            senderId := senderId
            fileSize := manifest.fileSize
            originalMessageId := manifest.originalMessageId
            groupId := groupId })
    (deleteIfThere sealedFile)

def pendingPath (transferId : String) : String := child m.incomingBlobs (transferId ++ ".pending")

def sealedPath (transferId : String) : String := child m.incomingBlobs (transferId ++ ".blob")

def pointerGroup (signal : FileTransferSignal) : Io (Option String) :=
  if signal.encryption = some blobGroupWireVersion then ask fun a => some a.groupId else pure none

def receiveBlob (signal : FileTransferSignal) (transferId : String) : Io (Option ReceivedFile) :=
  if m.attachments = false ∨ signal.totalChunks ≠ 1 ∨ signal.chunkIndex ≠ 0 then pure none
  else
    orElse (do
      act (.create m.incomingBlobs)
      let groupId ← pointerGroup signal
      let pointer ← ask Answer.pointer
      act (.write (m.pendingPath transferId))
      m.completeBlob transferId signal.senderId groupId pointer (m.sealedPath transferId) (m.pendingPath transferId)) do
      orElse wait (pure ())
      wait
      return none

def receiveChunkSerial (signal : FileTransferSignal) (transferId : String) : Io (Option ReceivedFile) :=
  if signal.isBlob then m.receiveBlob signal transferId
  else if m.Rejects signal then pure none
  else
    let partDirectory := child m.incomingParts transferId
    finallyDo
      (orElse (m.receivePart signal partDirectory) do
        orElse wait (pure ())
        deleteIfThere partDirectory
        return none)
      wait

def receiveChunk (signal : FileTransferSignal) : Io (Option ReceivedFile) :=
  if m.closing then pure none
  else do
    wait
    m.receiveChunkSerial signal signal.id

def downloadPending (transferId senderId : String) (groupId : Option String) (pointer : PointerJson)
    (pending : String) :
    Io Unit := do
  if ← ask Answer.flag then return
  orElse (do
    let _ ← m.completeBlob transferId senderId groupId pointer (m.sealedPath transferId) pending
    return)
    (orElse wait (pure ()))

/-- The name an accepted pointer is kept under: the digest of its sender and message. -/
def pointerTransferId (senderId messageId : String) : String :=
  "bp-" ++ String.ofList (Sha256.hex (Sha256.digest (Base64Url.utf8 (senderId ++ "\x00" ++ messageId))))

/-- `acceptBlobPointer` with the download it starts; `payload` is `none` if it is not a pointer. -/
def acceptBlobPointer (senderId : String) (groupId : Option String) (payload : Option PointerJson) :
    Io (Option String) :=
  if m.attachments = false ∨ m.closing = true then pure none
  else
    match payload with
    | none => fail
    | some pointer =>
      match pointer.manifest.messageId.map m.unicode.trim with
      | none => fail
      | some messageId =>
        if messageId = "" then fail
        else do
          let transferId := pointerTransferId senderId messageId
          let pending := m.pendingPath transferId
          act (.create m.incomingBlobs)
          let downloading ← ask Answer.flag
          let there ← ask Answer.flag
          if ¬ downloading ∧ ¬ there then act (.write pending)
          m.downloadPending transferId senderId groupId pointer pending
          return some messageId

/-- A pending file as the staging directory lists it, by the id in its name. -/
structure Entry where
  transferId : String
  plain : PosixPath.Plain (transferId ++ ".pending").toList

/-- `_retryPendingBlobs` over the pending files the directory lists. -/
def retryPendingBlobs : List Entry → Io Unit
  | [] => pure ()
  | entry :: entries => do
    let closing ← ask Answer.flag
    if closing then return
    let receiving ← ask Answer.flag
    if ¬ receiving then
      orElse (do
        let pointer ← ask Answer.pointer
        let senderId ← ask Answer.senderId
        let groupId ← ask Answer.resolved
        m.downloadPending entry.transferId senderId groupId pointer (m.pendingPath entry.transferId))
        (orElse wait (pure ()))
    retryPendingBlobs entries

end FileTransferManager
end FileTransfer
end SecureChat
