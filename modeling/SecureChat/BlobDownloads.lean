import SecureChat.Collections
import SecureChat.Runs
/-!
# BlobDownloads — attachments that are fetched by a pointer

A pointer is delivered, acknowledged, downloaded and stored as a message by four parties of one process that go on step
by step: the handler of incoming envelopes, which takes them one at a time, a download for each transfer, the retry of
what is still pending, and the subscriber of received files, which stores them one at a time.  The pending records, the
received files, the rows and the tokens of processed deliveries survive when the process stops; the rest is lost.

A transfer id is the digest of the sender and the message id; it is these two here.  The retry takes one record at a
time: `retrying` is what it has read and not started yet.  `acked`, `failed` and `orphans` are the history: which
attachments were acknowledged, which were given up by a rule, and the files that were left behind, because their message
was already stored or their record already deleted.

Left out: the closing of the manager, the steps of disk and database that fail, and the older wire of `_receiveBlob`.
-/
namespace SecureChat
namespace BlobDownloads

abbrev Text := List Char

structure TransferId where
  senderId : Text
  messageId : Text
deriving DecidableEq

structure BlobPointer where
  id : Text
  sealedSize : ℕ
  fileName : Text
  fileSize : ℕ
deriving DecidableEq

/-- A pending record; its file is empty until it is written. -/
inductive PendingFile
  | truncated
  | record (pointer : BlobPointer)
deriving DecidableEq

structure Path where
  millis : ℕ
  fileName : Text
deriving DecidableEq

structure MessageEntity where
  senderId : Text
  filePath : Option Path
deriving DecidableEq

structure ReceivedFile where
  transferId : TransferId
  file : Path
deriving DecidableEq

inductive Handling
  | processedDelivery (token : Text) (transferId : TransferId) (pointer : BlobPointer)
  | createStaging (token : Text) (transferId : TransferId) (pointer : BlobPointer)
  | pendingExists (token : Text) (transferId : TransferId) (pointer : BlobPointer)
  | writePending (token : Text) (transferId : TransferId) (pointer : BlobPointer)
  | remember (token : Text) (transferId : TransferId)
  | deliveredReceipt (transferId : TransferId)
  | transportAck (transferId : TransferId)
deriving DecidableEq

inductive Downloading
  | delay (left : List ℕ)
  | download (left : List ℕ)
  | deleteMissing
  | sealedLength
  | createDirectory
  | reseal (output : Path)
  | invalidExists
  | deleteInvalid
  | outputLength (output : Path)
  | deleteOutput (output : Path)
  | deleteMismatched
  | deletePending (output : Path)
  | sealedExists
  | deleteSealed
deriving DecidableEq

inductive Persisting
  | isBlocked (received : ReceivedFile)
  | deleteFile (received : ReceivedFile)
  | getMessage (received : ReceivedFile)
  | getConversation (received : ReceivedFile)
  | insertConversation (received : ReceivedFile)
  | deferPreview (received : ReceivedFile)
  | insert (received : ReceivedFile)
  | publish
deriving DecidableEq

/-- What a step answers: whether it did what was asked or found what was asked for, whether the server has no such
attachment, and a length or the time. -/
structure Answer where
  yes : Bool := true
  notFound : Bool := false
  number : ℕ := 0
deriving DecidableEq

structure Phone where
  pending : Table TransferId PendingFile := .empty
  files : Table Path TransferId := .empty
  messages : Table Text MessageEntity := .empty
  processed : Table Text TransferId := .empty
  handler : Option Handling := none
  downloads : Table TransferId (BlobPointer × Downloading) := .empty
  retrying : Option (TransferId × BlobPointer) := none
  incoming : List ReceivedFile := []
  persister : Option Persisting := none
  acked : List TransferId := []
  failed : List TransferId := []
  orphans : List Path := []

inductive Event
  | deliver (token : Text) (transferId : TransferId) (pointer : BlobPointer)
  | handle (answer : Answer)
  | retry (transferId : TransferId)
  | startRetry
  | download (transferId : TransferId) (answer : Answer)
  | persist (answer : Answer)
  | stop
deriving DecidableEq

def Persisting.received : Persisting → Option ReceivedFile
  | .isBlocked r | .deleteFile r | .getMessage r | .getConversation r | .insertConversation r | .deferPreview r
  | .insert r => some r
  | .publish => none

def Downloading.next (lastError : Bool) : List ℕ → Downloading
  | [] => if lastError then .sealedExists else .sealedLength
  | first :: left => if 0 < first then .delay left else .download left

namespace Phone

variable (s : Phone) (delays : List ℕ)

/-- The received files that only the memory of the process holds. -/
def carried : List ReceivedFile := (s.persister.bind Persisting.received).toList ++ s.incoming

/-- `_downloadPending`: a transfer is downloaded once at a time. -/
def _downloadPending (t : TransferId) (pointer : BlobPointer) : Phone :=
  if (s.downloads.get t).isSome then s
  else { s with downloads := s.downloads.put t (pointer, .next false delays) }

def setHandler (h : Option Handling) : Phone := { s with handler := h }

def setDownload (t : TransferId) (pointer : BlobPointer) (d : Downloading) : Phone :=
  { s with downloads := s.downloads.put t (pointer, d) }

def setPersister (p : Option Persisting) : Phone := { s with persister := p }

def setFiles (files : Table Path TransferId) : Phone := { s with files := files }

def writePending (t : TransferId) (pointer : BlobPointer) : Phone :=
  { s with pending := s.pending.put t (.record pointer) }

/-- The pending record is deleted, and the file is on its way to the subscriber; without a record the deletion fails,
and the file stays where it is. -/
def receive (r : ReceivedFile) : Phone :=
  if (s.pending.get r.transferId).isSome then
    { s with pending := s.pending.remove r.transferId, incoming := s.incoming ++ [r] }
  else { s with orphans := r.file :: s.orphans }

def giveUp (t : TransferId) : Phone :=
  if (s.pending.get t).isSome then { s with pending := s.pending.remove t, failed := t :: s.failed } else s

/-- The handler of a delivery, with `acceptBlobPointer`. -/
def handle (answer : Answer) : Handling → Phone
  | .processedDelivery token t pointer =>
    match s.processed.get token with
    | some previous =>
      if previous.senderId ≠ t.senderId then s.setHandler none else s.setHandler (some (.deliveredReceipt previous))
    | none => s.setHandler (some (.createStaging token t pointer))
  | .createStaging token t pointer =>
    if (s.downloads.get t).isSome then s.setHandler (some (.remember token t))
    else s.setHandler (some (.pendingExists token t pointer))
  | .pendingExists token t pointer =>
    match s.pending.get t with
    | some _ => (s._downloadPending delays t pointer).setHandler (some (.remember token t))
    | none => { s with pending := s.pending.put t .truncated, handler := some (.writePending token t pointer) }
  | .writePending token t pointer =>
    ((s.writePending t pointer)._downloadPending delays t pointer).setHandler (some (.remember token t))
  | .remember token t =>
    { s with processed := s.processed.put token t, handler := some (.deliveredReceipt t) }
  | .deliveredReceipt t =>
    if answer.yes then { s with acked := t :: s.acked, handler := some (.transportAck t) } else s.setHandler none
  | .transportAck _ => s.setHandler none

/-- `_completeBlob`, within `_downloadPending`. -/
def download (t : TransferId) (pointer : BlobPointer) (answer : Answer) : Downloading → Phone
  | .delay left => s.setDownload t pointer (.download left)
  | .download left =>
    if answer.yes then s.setDownload t pointer .sealedLength
    else if answer.notFound then s.setDownload t pointer .deleteMissing
    else s.setDownload t pointer (.next true left)
  | .deleteMissing => (s.giveUp t).setDownload t pointer .sealedExists
  | .sealedLength =>
    if answer.number = pointer.sealedSize then s.setDownload t pointer .createDirectory
    else s.setDownload t pointer .sealedExists
  | .createDirectory => s.setDownload t pointer (.reseal ⟨answer.number, pointer.fileName⟩)
  | .reseal output =>
    if answer.yes then (s.setFiles (s.files.put output t)).setDownload t pointer (.outputLength output)
    else s.setDownload t pointer .invalidExists
  | .invalidExists =>
    if (s.pending.get t).isSome then s.setDownload t pointer .deleteInvalid else s.setDownload t pointer .sealedExists
  | .deleteInvalid => (s.giveUp t).setDownload t pointer .sealedExists
  | .outputLength output =>
    if answer.number = pointer.fileSize then s.setDownload t pointer (.deletePending output)
    else s.setDownload t pointer (.deleteOutput output)
  | .deleteOutput output => (s.setFiles (s.files.remove output)).setDownload t pointer .deleteMismatched
  | .deleteMismatched => (s.giveUp t).setDownload t pointer .sealedExists
  | .deletePending output => (s.receive ⟨t, output⟩).setDownload t pointer .sealedExists
  | .sealedExists =>
    if answer.yes then s.setDownload t pointer .deleteSealed else { s with downloads := s.downloads.remove t }
  | .deleteSealed => { s with downloads := s.downloads.remove t }

/-- `_persistIncoming`. -/
def persist (answer : Answer) : Persisting → Phone
  | .isBlocked r =>
    if answer.yes then s.setPersister (some (.deleteFile r)) else s.setPersister (some (.getMessage r))
  | .deleteFile r =>
    { s with files := s.files.remove r.file, failed := r.transferId :: s.failed, persister := none }
  | .getMessage r =>
    if (s.messages.get r.transferId.messageId).isSome then { s with orphans := r.file :: s.orphans, persister := none }
    else s.setPersister (some (.getConversation r))
  | .getConversation r =>
    if answer.yes then s.setPersister (some (.deferPreview r)) else s.setPersister (some (.insertConversation r))
  | .insertConversation r => s.setPersister (some (.deferPreview r))
  | .deferPreview r => s.setPersister (some (.insert r))
  | .insert r =>
    { s with
      messages := s.messages.put r.transferId.messageId ⟨r.transferId.senderId, some r.file⟩
      persister := some .publish }
  | .publish => s.setPersister none

def stop : Phone :=
  { s with handler := none, downloads := .empty, retrying := none, incoming := [], persister := none }

def step : Event → Option Phone
  | .deliver token t pointer =>
    match s.handler with
    | none => some (s.setHandler (some (.processedDelivery token t pointer)))
    | some _ => none
  | .handle answer => s.handler.map (s.handle delays answer)
  | .retry t =>
    match s.retrying, s.pending.get t with
    | none, some (.record pointer) => some { s with retrying := some (t, pointer) }
    | _, _ => none
  | .startRetry => s.retrying.map fun r => { s with retrying := none }._downloadPending delays r.1 r.2
  | .download t answer => (s.downloads.get t).map fun d => s.download t d.1 answer d.2
  | .persist answer =>
    match s.persister, s.incoming with
    | some p, _ => some (s.persist answer p)
    | none, r :: rest => some { s with incoming := rest, persister := some (.isBlocked r) }
    | none, [] => none
  | .stop => some s.stop

end Phone

end BlobDownloads
end SecureChat
