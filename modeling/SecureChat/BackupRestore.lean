import SecureChat.AsyncTasks
import SecureChat.DartInt
import SecureChat.Json
/-!
# BackupRestore — a backup replaces the local data

`restoreBackup` decrypts a file, counts the wrong passwords, and then replaces the tables of the database, writes whose
data they are and, where nobody is logged in, installs the profile of the backup.  Only the tables are replaced in one
transaction; what comes after is written step by step.

Every change of the data is kept in a log with the restore that has made it.  So the data as they would be without a
restore can be told: the log is replayed without its changes.

Left out: the cipher and the compression, as a file is known by the document that it decodes to with a password; the
rows of the tables; and what the platform says of its own errors.
-/
namespace SecureChat
namespace Backup

open Async
open GroupControl (Text)
open Program (get modify whenever)

/-- An exception: one that the code throws itself, another `FormatException`, or any other. -/
inductive Fault where
  | format (message : String)
  | malformed
  | other
deriving DecidableEq

inductive RestoreResult where
  | success
  | wrongPassword (remainingAttempts : Int64)
  | attemptsExhausted (deleted : Bool)
  | failure (message : String)
deriving DecidableEq

/-- What the `catch` clauses make of an exception. -/
def Fault.message : Fault → String
  | .format message => "Yedek dosyası bozuk: " ++ message
  | .malformed => "Yedek dosyası bozuk: "
  | .other => "Yedek uygulanamadı: "

/-- A file: the hash of its bytes, and what they decode to with a password.  `none` is a wrong password, and a document
that is none has no content. -/
structure BackupFile where
  fingerprint : Text
  decrypt : Text → Option (Option Json)

def BackupFile.attemptKey (file : BackupFile) : Text := "backup_attempt:".toList ++ file.fingerprint

/-! ## The session -/

structure SessionStore where
  userId : Option Text := none
  displayName : Option Text := none
  phoneNumber : Option Text := none
  profilePhotoUri : Option Text := none
  accessToken : Option Text := none
  refreshToken : Option Text := none
  sharePhoneNumber : Bool := false
deriving DecidableEq

/-- `_BackupProfile` -/
structure Profile where
  userId : Text
  displayName : Text
  phoneNumber : Text
  photoUri : Text
deriving DecidableEq

def nonEmpty (t : Option Text) : Option Text := t.filter fun t => decide (t ≠ [])

namespace SessionStore

def isLoggedIn (s : SessionStore) : Bool := s.userId.isSome && (nonEmpty s.accessToken).isSome

def validateRestoreAccount (s : SessionStore) (backupUserId : Text) : Except Fault Unit :=
  if (nonEmpty s.userId).any (· ≠ backupUserId) then .error (.format "Backup account UUID does not match")
  else if ((nonEmpty s.accessToken).isSome || (nonEmpty s.refreshToken).isSome) &&
      (!s.isLoggedIn || decide (s.userId ≠ some backupUserId)) then
    .error (.format "Invalid local authentication state")
  else .ok ()

/-- `restoreProfileAndPersist`, in memory. -/
def restoreProfile (profile : Profile) (s : SessionStore) : SessionStore where
  userId := some profile.userId
  displayName := some profile.displayName
  phoneNumber := some profile.phoneNumber
  profilePhotoUri := nonEmpty (some profile.photoUri)
  accessToken := s.accessToken
  refreshToken := s.refreshToken
  sharePhoneNumber := if s.userId ≠ some profile.userId then false else s.sharePhoneNumber

end SessionStore

structure Account where
  profile : Profile
  initialUserId : Option Text
  wasLoggedIn : Bool
deriving DecidableEq

/-- `validateAccount` -/
def Account.validate (account : Account) (s : SessionStore) : Except Fault Unit := do
  s.validateRestoreAccount account.profile.userId
  if s.userId ≠ account.initialUserId ∨ s.isLoggedIn ≠ account.wasLoggedIn then
    .error (.format "Account changed during restore")
  else .ok ()

def Account.accepts (account : Account) (s : SessionStore) : Bool :=
  match account.validate s with
  | .ok _ => true
  | .error _ => false

/-! ## The document -/

def currentVersion : ℤ := 3

def readRoot : Option Json → Except Fault Json.Fields
  | none => .error .malformed
  | some (.obj fields) => .ok fields
  | some _ => .error (.format "Invalid backup root")

def readVersion (root : Json.Fields) : Except Fault ℤ :=
  match Json.get root "version" with
  | .null => .ok 1
  | .int v => if 1 ≤ v ∧ v ≤ currentVersion then .ok v else .error (.format "Desteklenmeyen yedek sürümü: ")
  | _ => .error (.format "Desteklenmeyen yedek sürümü: ")

def isHex (c : Char) : Bool := c.isDigit || ('a' ≤ c && c ≤ 'f') || ('A' ≤ c && c ≤ 'F')

def isUuid (t : Text) : Bool :=
  let parts := t.splitOn '-'
  parts.map List.length == [8, 4, 4, 4, 12] && parts.all fun part => part.all isHex

def profileField (profile : Json.Fields) (name : String) : Except Fault Text :=
  match Json.asString? (Json.get profile name) with
  | some t => .ok (t.getD [])
  | none => .error (.format ("Profile " ++ name ++ " is invalid"))

/-- `_BackupProfile.parse` -/
def parseProfile : Json → Except Fault Profile
  | .obj profile =>
    match (Json.asString (Json.get profile "userId")).filter isUuid with
    | none => .error (.format "Profile account UUID is invalid")
    | some userId => do
      let displayName ← profileField profile "displayName"
      let phoneNumber ← profileField profile "phoneNumber"
      let photoUri ← profileField profile "profilePhotoUri"
      .ok ⟨userId, displayName, phoneNumber, photoUri⟩
  | _ => .error (.format "Profile is missing")

/-- `?? const []` -/
def orEmpty : Json → Json
  | .null => .arr []
  | json => json

/-- `_upgradeKotlinV1`; the collections that it leaves empty are not read any more. -/
def upgradeKotlinV1 (root : Json.Fields) : Json.Fields :=
  ("schema", .int 1) :: ["conversations", "messages", "contacts"].map fun key => (key, orEmpty (Json.get root key))

def historyKeys : List String :=
  ["conversations", "messages", "contacts", "callLogs", "scheduledMessages", "scheduledMessageHistory", "exportLogs",
    "pendingTimerUpdates"]

def securityKeys : List String :=
  ["identities", "preKeys", "signedPreKeys", "sessions", "senderKeys", "pendingSignals"]

def isRow : Json → Bool
  | .obj _ => true
  | _ => false

def isRows : Json → Bool
  | .arr rows => rows.all isRow
  | _ => false

def historyOnly (source : Json.Fields) : Except Fault Json.Fields :=
  match Json.get source "schema" with
  | .int 1 =>
    match historyKeys.find? fun key => !isRows (orEmpty (Json.get source key)) with
    | some key => .error (.format ("Invalid history collection: " ++ key))
    | none => .ok <| ("schema", .int 1) :: historyKeys.map (fun key => (key, orEmpty (Json.get source key))) ++
      securityKeys.map (fun key => (key, .arr [])) ++ [("cryptoState", .obj [])]
  | _ => .error (.format "Unsupported database schema")

def readDatabase (version : ℤ) (root : Json.Fields) : Except Fault Json.Fields :=
  if version = 1 then historyOnly (upgradeKotlinV1 root)
  else
    match Json.get root "database" with
    | .obj database => historyOnly database
    | _ => .error (.format "Database snapshot is missing")

/-! ## The data -/

/-- What the database makes of a document, and what it keeps of its tables when they are replaced. -/
structure Storage (T : Type) where
  fromJson : Json.Fields → Option T
  preserveLocalSecurityState : T → T → T

/-- The tables, whose they are, and the session in memory and in its file. -/
structure Data (T : Type) where
  tables : T
  owner : Option Text
  session : SessionStore
  sessionFile : Option SessionStore

namespace Data

variable {T : Type}

def setTables (tables : T) (x : Data T) : Data T := { x with tables := tables }

def setOwner (owner : Text) (x : Data T) : Data T := { x with owner := some owner }

def setSession (session : SessionStore) (x : Data T) : Data T := { x with session := session }

def setSessionFile (file : SessionStore) (x : Data T) : Data T := { x with sessionFile := some file }

end Data

structure Change (T : Type) where
  restore : Option ℕ
  apply : Data T → Data T

/-- The data after some changes. -/
def replay {T : Type} (data : Data T) (changes : List (Change T)) : Data T :=
  changes.foldl (fun x c => c.apply x) data

/-- The data and the counters of the attempts.  The last three fields are history: the changes of the data, how many
restores have begun, and which of them have ended without success. -/
structure Device (T : Type) where
  data : Data T
  attempts : Text → Option Text := fun _ => none
  log : List (Change T) := []
  restores : ℕ := 0
  failed : List ℕ := []

namespace Device

variable {T : Type}

def change (restore : Option ℕ) (f : Data T → Data T) (d : Device T) : Device T :=
  { d with data := f d.data, log := d.log ++ [⟨restore, f⟩] }

def setAttempts (attempts : Text → Option Text) (d : Device T) : Device T := { d with attempts := attempts }

def putAttempt (key : Text) (value : Option Text) (d : Device T) : Device T :=
  d.setAttempts (Function.update d.attempts key value)

def begin (d : Device T) : Device T := { d with restores := d.restores + 1 }

def fail (restore : ℕ) (d : Device T) : Device T := { d with failed := restore :: d.failed }

end Device

/-! ## The restore -/

/-- What is awaited until the tables are replaced. -/
inductive Prepare
  | readAsBytes
  | fingerprint
  | getAttempts
  | decrypt
  | putAttempts
  | deleteFile
  | replaceFromPortableJson
deriving DecidableEq

/-- What a restore waits for.  At `resumed` and `profileRestored` a future is complete, and only its end is awaited. -/
inductive Wait where
  | preparing (restore : ℕ) (step : Prepare)
  | resumed (restore : ℕ) (account : Account)
  | putOwner (restore : ℕ)
  | profileRestored (restore : ℕ)
  | persist (restore : ℕ)
  | deleteAttempts (restore : ℕ)
deriving DecidableEq

abbrev Call (T α : Type) := Program Unit Wait (Device T) Fault α

section Restore

variable {T : Type}

def on (w : Wait) : Call T Unit := Program.wait .other w

def write (w : Wait) (f : Device T → Device T) : Call T Unit :=
  .await w (fun _ d => f d) (fun _ _ => .pure ()) (.throw .other)

def orThrow {α : Type} : Except Fault α → Call T α
  | .ok a => .pure a
  | .error e => .throw e

variable (S : Storage T) (restore : ℕ)

def maximumAttempts : Int64 := 5

def getAttempts (key : Text) : Call T Int64 :=
  .await (.preparing restore .getAttempts) (fun _ d => d)
    (fun _ d => .pure ((DartInt.tryParse ((d.attempts key).getD ['0'])).getD 0)) (.throw .other)

/-- `_delete` -/
def deleteFile : Call T Bool := do
  let deleted ← (on (.preparing restore .deleteFile)).attempt
  match deleted with
  | .ok _ => pure true
  | .error _ => pure false

def wrongPassword (key : Text) (attempts : Int64) : Call T RestoreResult := do
  let next := attempts + 1
  write (.preparing restore .putAttempts) (·.putAttempt key (some (DartInt.print next)))
  if maximumAttempts ≤ next then do
    write (.preparing restore .putAttempts) (·.putAttempt key none)
    let deleted ← deleteFile restore
    pure (.attemptsExhausted deleted)
  else pure (.wrongPassword (maximumAttempts - next))

/-- `replaceFromPortableJson`; the account is validated within the transaction. -/
def replaceTables (account : Account) (replacement : T) : Call T Unit :=
  .await (.preparing restore .replaceFromPortableJson)
    (fun _ d =>
      if account.accepts d.data.session then
        d.change (some restore) fun x => x.setTables (S.preserveLocalSecurityState replacement x.tables)
      else d)
    (fun _ d => orThrow (account.validate d.data.session)) (.throw .other)

/-- `restoreProfileAndPersist`; the session is encoded when its write is chained. -/
def restoreProfileAndPersist (profile : Profile) : Call T Unit := do
  modify (·.change (some restore) fun x => x.setSession (x.session.restoreProfile profile))
  on (.profileRestored restore)
  let d ← get
  write (.persist restore) (·.change (some restore) fun x => x.setSessionFile d.data.session)

def finish (key : Text) (account : Account) : Call T Unit := do
  .await (.resumed restore account) (fun _ d => d) (fun _ d => orThrow (account.validate d.data.session))
    (.throw .other)
  write (.putOwner restore) (·.change (some restore) fun x => x.setOwner account.profile.userId)
  whenever (¬ account.wasLoggedIn) (restoreProfileAndPersist restore account.profile)
  write (.deleteAttempts restore) (·.putAttempt key none)

/-- The body of the `try`. -/
def restoreDocument (key : Text) (clear : Option Json) : Call T Unit := do
  let root ← orThrow (readRoot clear)
  let version ← orThrow (readVersion root)
  let profile ← orThrow (parseProfile (Json.get root "profile"))
  let d ← get
  orThrow (d.data.session.validateRestoreAccount profile.userId)
  let account : Account := ⟨profile, d.data.session.userId, d.data.session.isLoggedIn⟩
  let database ← orThrow (readDatabase version root)
  match S.fromJson database with
  | none => .throw .other
  | some replacement => do
    replaceTables S restore account replacement
    finish restore key account

def restoreBackup (file : BackupFile) (password : Text) : Call T RestoreResult := do
  let encrypted ← (on (.preparing restore .readAsBytes)).attempt
  match encrypted with
  | .error _ => pure (.failure "Dosya okunamadı: ")
  | .ok _ => do
    on (.preparing restore .fingerprint)
    let attempts ← getAttempts restore file.attemptKey
    if maximumAttempts ≤ attempts then do
      let deleted ← deleteFile restore
      pure (.attemptsExhausted deleted)
    else do
      on (.preparing restore .decrypt)
      match file.decrypt password with
      | none => wrongPassword restore file.attemptKey attempts
      | some clear => do
        let result ← (restoreDocument S restore file.attemptKey clear).attempt
        match result with
        | .ok _ => pure .success
        | .error fault => pure (.failure fault.message)

end Restore

/-- A restore; another change of the data, which a write of the database, a login or a logout makes; or another change
of the counters. -/
inductive Event (T : Type) where
  | restore (file : BackupFile) (password : Text)
  | other (f : Data T → Data T)
  | attempts (f : (Text → Option Text) → Text → Option Text)

variable {T : Type} (S : Storage T)

def program : Event T → Call T Unit
  | .restore file password => do
    let restore ← .sync Device.begin fun d => .pure d.restores
    let result ← (restoreBackup S restore file password).attempt
    match result with
    | .ok .success => pure ()
    | _ => modify (·.fail restore)
  | .other f => modify (·.change none f)
  | .attempts f => modify fun d => d.setAttempts (f d.attempts)

def ready (w : Wait) (answer : Option Unit) (_ : Device T) : Bool :=
  match w, answer with
  | .resumed _ _, none | .profileRestored _, none => false
  | _, _ => true

def tasks : Tasks Unit Wait (Device T) Fault (Event T) := ⟨program S, ready⟩

abbrev State (T : Type) := Tasks.State Unit Wait (Device T) Fault (Event T)

def start (data : Data T) (attempts : Text → Option Text) : Device T := { data := data, attempts := attempts }

/-! ## A backup -/

/-- The collections as they are read, with those of the local security state that there were. -/
def sampleStorage : Storage Json.Fields where
  fromJson := some
  preserveLocalSecurityState replacement current :=
    replacement.filter (fun field => decide (field.1 ∈ historyKeys)) ++
      current.filter fun field => decide (field.1 ∈ securityKeys)

def sampleAccount : Text := "01234567-89ab-cdef-0123-456789abcdef".toList

def sampleDocument : Json := .obj [
  ("version", .int 3),
  ("profile", .obj [("userId", .str sampleAccount), ("displayName", .str "Ali".toList)]),
  ("database", .obj [("schema", .int 1), ("conversations", .arr [.obj [("id", .str ['c'])]])])]

def sampleFile : BackupFile where
  fingerprint := ['f']
  decrypt password := if password = "correct-password".toList then some (some sampleDocument) else none

def sampleData : Data Json.Fields := ⟨[], none, {}, none⟩

example : (readRoot (some sampleDocument)).toOption.bind
  (fun root => (parseProfile (Json.get root "profile")).toOption) =
    some ⟨sampleAccount, "Ali".toList, [], []⟩ := by decide +kernel

def go (i : ℕ) : Pool.Label (Event Json.Fields) (Option Unit) := .step i (some ())

def refuse (i : ℕ) : Pool.Label (Event Json.Fields) (Option Unit) := .step i none

end Backup
end SecureChat
