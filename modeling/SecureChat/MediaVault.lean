import SecureChat.BigEndian
import SecureChat.Chunks
import SecureChat.Collections
/-!
# MediaVault — the container that media files are kept in

A container is a header (a magic value, a base nonce, the record size) and records: the plaintext in pieces of one size,
each encrypted under a nonce of its own and bound to the header, its place and whether it is the last.  A writer streams
what it is given into a file, another seals a buffer at once; one reader serves both, and the operations on files put a
reader before a writer.
-/
namespace SecureChat
namespace MediaVault

abbrev Bytes := List UInt8

def _magic : Bytes := [0x53, 0x43, 0x4D, 0x45, 0x44, 0x49, 0x41, 0x31]

def headerLength : ℕ := 8 + 12 + 4

def recordSize : ℕ := 64 * 1024

def tagLength : ℕ := 16

def maxRecordSize : ℕ := 16 * 1024 * 1024

/-- ChaCha20-Poly1305 under one key: `encrypt nonce aad plaintext` is the ciphertext and its tag. -/
structure Aead where
  encrypt : Bytes → Bytes → Bytes → Bytes × Bytes
  decrypt : Bytes → Bytes → Bytes → Bytes → Option Bytes
  length_cipherText : ∀ nonce aad plain, (encrypt nonce aad plain).1.length = plain.length
  length_mac : ∀ nonce aad plain, (encrypt nonce aad plain).2.length = tagLength

inductive MediaError
  | format (message : String)
  | authentication
  | fileSystem
deriving DecidableEq

def plaintextLength (sealedLength : ℕ) (record : ℕ) : Except MediaError ℤ :=
  let body : ℤ := sealedLength - headerLength
  if body < tagLength then .error (.format "Truncated media file")
  else
    let records := (body + record + tagLength - 1) / (record + tagLength)
    .ok (body - records * tagLength)

def _header (baseNonce : Bytes) (record : ℕ) : Bytes := _magic ++ baseNonce ++ BigEndian.bytes 4 record

def _nonceFor (baseNonce : Bytes) (index : ℕ) : Bytes :=
  baseNonce.take 8 ++ List.zipWith (· ^^^ ·) (baseNonce.drop 8) (BigEndian.bytes 4 index)

def _aad (header : Bytes) (index : ℕ) (last : Bool) : Bytes :=
  header ++ BigEndian.bytes 4 index ++ [if last then 1 else 0]

def Aead.record (A : Aead) (baseNonce : Bytes) (index : ℕ) (last : Bool) (plain : Bytes) : Bytes :=
  let box := A.encrypt (_nonceFor baseNonce index) (_aad (_header baseNonce recordSize) index last) plain
  box.1 ++ box.2

structure SealWriter where
  baseNonce : Bytes
  buffer : Bytes
  index : ℕ
  started : Bool
  sink : Bytes

namespace SealWriter

variable (A : Aead) (w : SealWriter)

def new (baseNonce : Bytes) : SealWriter := ⟨baseNonce, [], 0, false, []⟩

def start : SealWriter :=
  if w.started then w else { w with started := true, sink := w.sink ++ _header w.baseNonce recordSize }

def withBuffer (buffer : Bytes) : SealWriter := { w with buffer }

def _writeRecord (plain : Bytes) (last : Bool) : SealWriter :=
  { w with sink := w.sink ++ A.record w.baseNonce w.index last plain, index := w.index + 1 }

def drain (w : SealWriter) : SealWriter :=
  if recordSize < w.buffer.length then
    drain ((w.withBuffer (w.buffer.drop recordSize))._writeRecord A (w.buffer.take recordSize) false)
  else w
termination_by w.buffer.length
decreasing_by
  simp only [_writeRecord, withBuffer, List.length_drop, recordSize] at *
  omega

def add (bytes : Bytes) : SealWriter := (w.start.withBuffer (w.buffer ++ bytes)).drain A

/-- The last record, which is empty only if the file is. -/
def close : SealWriter := (w.start.withBuffer [])._writeRecord A w.buffer true

end SealWriter

/-- The records of `_sealBuffer` from an offset on. -/
def sealLoop (A : Aead) (baseNonce plaintext : Bytes) (offset index : ℕ) : Bytes :=
  let stop := min (offset + recordSize) plaintext.length
  if stop = plaintext.length then A.record baseNonce index true ((plaintext.take stop).drop offset)
  else
    A.record baseNonce index false ((plaintext.take stop).drop offset) ++ sealLoop A baseNonce plaintext stop (index + 1)
termination_by plaintext.length - offset
decreasing_by
  simp only [recordSize] at *
  omega

def _sealBuffer (A : Aead) (baseNonce plaintext : Bytes) : Bytes :=
  _header baseNonce recordSize ++ sealLoop A baseNonce plaintext 0 0

/-- The records of a container; `rest` is what is not read yet. -/
def parseRecords {σ : Type} (A : Aead) (header baseNonce : Bytes) (record total : ℕ) (emit : σ → Bytes → σ)
    (rest : Bytes) (offset index : ℕ) (sawLast : Bool) (out : σ) : Except MediaError σ :=
  if offset < total then
    let length := min (total - offset) (record + tagLength)
    if length < tagLength then .error (.format "Truncated media record")
    else
      let bytes := rest.take length
      if bytes.length ≠ length then .error (.format "Short media read")
      else
        let last := decide (offset + length = total)
        match A.decrypt (_nonceFor baseNonce index) (_aad header index last) (bytes.take (length - tagLength))
            (bytes.drop (length - tagLength)) with
        | none => .error .authentication
        | some plain =>
          parseRecords A header baseNonce record total emit (rest.drop length) (offset + length) (index + 1) last
            (emit out plain)
  else if sawLast then .ok out
  else .error (.format "Missing final media record")
termination_by total - offset
decreasing_by
  simp only [tagLength] at *
  omega

def _parseSealed {σ : Type} (A : Aead) (bytes : Bytes) (emit : σ → Bytes → σ) (out : σ) : Except MediaError σ :=
  let header := bytes.take headerLength
  if header.length ≠ headerLength then .error (.format "Truncated media header")
  else if header.take 8 ≠ _magic then .error (.format "Not a sealed media file")
  else
    let baseNonce := (header.drop 8).take 12
    let record := BigEndian.value (header.drop 20)
    if record = 0 ∨ maxRecordSize < record then .error (.format "Invalid media record size")
    else
      parseRecords A header baseNonce record bytes.length emit (bytes.drop headerLength) headerLength 0 false out

def _openBuffer (A : Aead) (bytes : Bytes) : Except MediaError Bytes := _parseSealed A bytes (· ++ ·) []

/-! ## Files -/

abbrev Files := Table String Bytes

def writeBeside (files : Files) (output suffix : String) (write : Files → Except MediaError Bytes) :
    Files × Except MediaError Unit :=
  let temporary := output ++ suffix
  let files := files.put temporary []
  match write files with
  | .error e => (files.remove temporary, .error e)
  | .ok bytes => ((files.remove temporary).put output bytes, .ok ())

def _readSealed {σ : Type} (A : Aead) (files : Files) (source : String) (emit : σ → Bytes → σ) (out : σ) :
    Except MediaError σ :=
  match files.get source with
  | none => .error .fileSystem
  | some bytes => _parseSealed A bytes emit out

/-- One source after the other; `openRead` is how a plain file is read in pieces. -/
def addSources (A : Aead) (openRead : Bytes → List Bytes) (files : Files) (isSealed : Bool) :
    List String → SealWriter → Except MediaError SealWriter
  | [], w => .ok w
  | source :: sources, w =>
    let added :=
      if isSealed then _readSealed A files source (SealWriter.add A) w
      else
        match files.get source with
        | none => .error .fileSystem
        | some bytes => .ok ((openRead bytes).foldl (SealWriter.add A) w)
    match added with
    | .error e => .error e
    | .ok w => addSources A openRead files isSealed sources w

def _sealPaths (A : Aead) (openRead : Bytes → List Bytes) (baseNonce : Bytes) (files : Files) (sources : List String)
    (output : String) (isSealed : Bool) : Files × Except MediaError Unit :=
  writeBeside files output ".sealing" fun files =>
    (addSources A openRead files isSealed sources (.new baseNonce)).map fun w => (w.close A).sink

def _resealPath (foreign own : Aead) (baseNonce : Bytes) (files : Files) (source output : String) :
    Files × Except MediaError Unit :=
  writeBeside files output ".sealing" fun files =>
    (_readSealed foreign files source (SealWriter.add own) (.new baseNonce)).map fun w => (w.close own).sink

def _openPath (A : Aead) (files : Files) (source output : String) : Files × Except MediaError Unit :=
  writeBeside files output ".opening" fun files => _readSealed A files source (· ++ ·) []

end MediaVault
end SecureChat
