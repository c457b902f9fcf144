import Mathlib.Data.Int.Notation
import SecureChat.Transaction
/-!
# RecoveryAuthService — recovery of an account by its e-mail address

The rows of one account and the transactions of the recovery service on them, statement by statement.  Texts and byte
strings are `ν` and `β`, an absent text (`""`) is `none`; ciphers and keyed hashes are seen through, so a challenge is
found by its purpose and id and its proof is compared as it is.  Times are milliseconds.
-/
namespace SecureChat
namespace Recovery

inductive Purpose where
  | enroll
  | login
  | complete
deriving DecidableEq

inductive Mode (ν : Type) where
  | preserve
  | replace
  | other (text : ν)
deriving DecidableEq

inductive Protocol (ν : Type) where
  | olm
  | other (text : ν)
deriving DecidableEq

structure Context (β ν : Type) where
  userId : Option ν
  email : ν
  epoch : Option ν
  nonce : Option ν
  protocol : Option (Protocol ν)
  identity : Option β
  registrationId : ℤ
  version : Option ν
deriving DecidableEq

structure RecoveryVerify (ν : Type) where
  challengeId : ν
  otp : ν
  signature : ν
deriving DecidableEq

structure RecoveryEnrollmentChallenge (ν : Type) where
  challengeId : ν
  nonce : ν
  credentialEpoch : ν
  identityProtocol : Protocol ν
  expiresIn : ℕ
deriving DecidableEq

structure RecoveryGrant (β ν : Type) where
  recoveryToken : ν
  userId : ν
  identityProtocol : Option (Protocol ν)
  identityPublicKey : Option β
  registrationId : ℤ
  expiresIn : ℕ
  registrationLock : Bool
deriving DecidableEq

structure RecoveryComplete (ν : Type) where
  recoveryToken : ν
  completionId : ν
  mode : Mode ν
  identityProtocol : Protocol ν
  identityPublicKey : ν
  registrationId : ℤ
  signature : ν
  lockProof : Option ν
deriving DecidableEq

structure RecoveryCredentials (ν : Type) where
  userId : ν
  token : ν
  refreshToken : ν
  identityReplaced : Bool
deriving DecidableEq

/-- The account's row in `users`. -/
structure Users (β ν : Type) where
  credentialEpoch : ν
  refreshGeneration : ν
  identityPublicKey : Option β
  olmIdentityKey : Option β
  signingPublicKey : Option β
  registrationId : Option ℤ
  recoveryIdentityPin : Option β
  recoveryIdentityProtocol : Option (Protocol ν)
  registrationLockVerifier : Option ν
  registrationLockFailures : ℕ
  registrationLockUntil : Option ℕ
deriving DecidableEq

structure Challenge (β ν : Type) where
  context : Context β ν
  proof : ν
  attempts : ℕ
  expiresAt : ℕ
deriving DecidableEq

structure Receipt (ν : Type) where
  requestHash : ν
  epoch : ν
  response : RecoveryCredentials ν
  expiresAt : ℕ
deriving DecidableEq

structure Binding (ν : Type) where
  email : ν
  version : ν
deriving DecidableEq

inductive Quota where
  | enrollAccount
  | enrollEmail
  | loginEmail
deriving DecidableEq

/-- `RegistrationLock.Check`. -/
inductive Check where
  | notRequired
  | passed
  | failed (remaining : ℕ)
  | locked (retryAfterSeconds : ℕ)
deriving DecidableEq

/-- What the service has done with a proof: `consume` compared it with a challenge, and `RegistrationLock.check`
reported `report` at `now`, after it evaluated the proof as `right` or did not; `reset` is the setting or clearing of
the lock. -/
inductive Note (ν : Type) where
  | compared (purpose : Purpose) (id : ν) (right : Bool)
  | checked (now : ℕ) (right : Option Bool) (report : Check)
  | reset
deriving DecidableEq

/-- The rows of the account `userId`.  `quota` counts the requests of an account or an address in an hour.  The `notes`
are no row but a ghost of the statements. -/
structure Db (β ν : Type) where
  userId : ν
  users : Option (Users β ν)
  oneTimePrekeys : List (ν × β)
  fallbackKeys : List (β × β)
  binding : Option (Binding ν)
  challenges : Purpose → ν → Option (Challenge β ν)
  receipts : ν → Option (Receipt ν)
  quota : Quota → ν → ℕ → ℕ
  notes : List (Note ν)

structure CompletionPreimage (ν : Type) where
  recoveryToken : ν
  completionId : ν
  userId : ν
  mode : Mode ν
  identityProtocol : Protocol ν
  identityPublicKey : ν
  registrationId : ℤ

structure EnrollmentPreimage (ν : Type) where
  challengeId : ν
  nonce : Option ν
  userId : Option ν
  epoch : Option ν
  email : ν
  protocol : Option (Protocol ν)

/-- `saneId` is `[A-Za-z0-9_-]{43}`, `decodeKey` reads a canonical base64 text of 32 bytes, `validProof` is the form of
a lock proof; the tokens take the random id of the token last. -/
structure Crypto (β ν : Type) where
  saneId : ν → Bool
  size : β → ℕ
  decodeKey : ν → Option β
  verify : β → CompletionPreimage ν → ν → Bool
  verifyEnrollment : β → EnrollmentPreimage ν → ν → Bool
  validProof : ν → Bool
  verifier : ν → ν → ν
  requestHash : RecoveryComplete ν → ν
  issueToken : ν → ν → ν → ν
  issueRefreshToken : ν → ν → ν → ν → ν

/-- The random values of one call: the new epoch and generation, and the ids of the two tokens. -/
structure Fresh (ν : Type) where
  epoch : ν
  generation : ν
  tokenId : ν
  refreshId : ν
deriving DecidableEq

/-- How a call of `complete` ends; `locked` is the `RegistrationLockException`, `rejected` is `null`. -/
inductive Outcome (ν : Type) where
  | success (response : RecoveryCredentials ν)
  | rejected
  | locked (check : Check)
deriving DecidableEq

structure Account (β ν : Type) where
  epoch : ν
  protocol : Protocol ν
  key : Option β
  registrationId : ℤ
deriving DecidableEq

def maxFailures : ℕ := 10

def lockout : ℕ := 24 * 60 * 60 * 1000

def maxAttempts : ℕ := 5

def receiptTtl : ℕ := 5 * 60 * 1000

def challengeTtl : ℕ := 600

def grantTtl : ℕ := 300

def hour : ℕ := 3600000

def quotaLimit : ℕ := 5

def identityLength : ℕ := 32

def olmRecoveryRegistrationId : ℤ := 1

variable {β ν ρ : Type} [DecidableEq β] [DecidableEq ν]

def completionPreimage (userId : ν) (r : RecoveryComplete ν) : CompletionPreimage ν where
  recoveryToken := r.recoveryToken
  completionId := r.completionId
  userId := userId
  mode := r.mode
  identityProtocol := r.identityProtocol
  identityPublicKey := r.identityPublicKey
  registrationId := r.registrationId

def enrollmentPreimage (id : ν) (c : Context β ν) : EnrollmentPreimage ν where
  challengeId := id
  nonce := c.nonce
  userId := c.userId
  epoch := c.epoch
  email := c.email
  protocol := c.protocol

namespace Db

/-- The account that `lockAccount` reads. -/
def account (userId : ν) (db : Db β ν) : Option (Account β ν) :=
  if userId = db.userId then
    db.users.map fun u =>
      { epoch := u.credentialEpoch
        protocol := .olm
        key := u.signingPublicKey
        registrationId := match u.registrationId with
          | some id => if 1 ≤ id ∧ id ≤ 16383 then id else olmRecoveryRegistrationId
          | none => olmRecoveryRegistrationId }
  else none

def live (purpose : Purpose) (id : ν) (now : ℕ) (db : Db β ν) : Option (Challenge β ν) :=
  (db.challenges purpose id).filter fun c => decide (now < c.expiresAt) && decide (c.attempts < maxAttempts)

def setChallenge (purpose : Purpose) (id : ν) (c : Option (Challenge β ν)) (db : Db β ν) : Db β ν :=
  { db with challenges := Function.update db.challenges purpose (Function.update (db.challenges purpose) id c) }

def note (n : Note ν) (db : Db β ν) : Db β ν := { db with notes := db.notes ++ [n] }

def updateUsers (f : Users β ν → Users β ν) (db : Db β ν) : Db β ν := { db with users := db.users.map f }

/-- `deleteChallenges`: all of the account's. -/
def deleteChallenges (userId : ν) (db : Db β ν) : Db β ν :=
  { db with challenges := fun purpose id =>
      (db.challenges purpose id).filter fun c => decide (c.context.userId ≠ some userId) }

/-- `binding` by the account's index. -/
def bindingOf (userId : ν) (db : Db β ν) : Option (Binding ν) := if userId = db.userId then db.binding else none

/-- `binding` by the index of the address. -/
def bindingBy (email : ν) (db : Db β ν) : Option (Binding ν) := db.binding.filter fun bound =>
    decide (bound.email = email)

/-- `currentBinding`: the context of the challenge is still that of the account. -/
def currentBinding (context : Context β ν) (account : Account β ν) (userId : ν) (db : Db β ν) : Bool :=
  (db.bindingOf userId).any fun bound =>
    decide (some bound.version = context.version) && decide (bound.email = context.email) &&
    decide (some account.epoch = context.epoch) && decide (some account.protocol = context.protocol) &&
    decide (account.key = context.identity)

end Db

abbrev Transaction (β ν ρ : Type) := Tx ℕ (Db β ν) ρ

def lockAccount (userId : ν) (k : Option (Account β ν) → Transaction β ν ρ) : Transaction β ν ρ :=
  .lock (.read fun _ db => k (db.account userId))

/-- `lockAccount` of a caller that may be another account, with the row `other`. -/
def lockCaller (userId : ν) (other : Option (Account β ν)) (k : Option (Account β ν) → Transaction β ν ρ) :
    Transaction β ν ρ :=
  .lock (.read fun _ db => k (if userId = db.userId then db.account userId else other))

/-- `read`: a challenge as it is committed. -/
def readChallenge (P : Crypto β ν) (purpose : Purpose) (id : ν) (k : Option (Challenge β ν) → Transaction β ν ρ) :
    Transaction β ν ρ :=
  if P.saneId id then .read fun now db => k (db.live purpose id now) else k none

/-- `consume`: the attempt counts even if the proof is wrong; a right proof deletes the challenge. -/
def consume (purpose : Purpose) (id proof : ν) (k : Option (Context β ν) → Transaction β ν ρ) : Transaction β ν ρ :=
  .read fun now db =>
    match db.live purpose id now with
    | none => k none
    | some c =>
      .write (fun db => (db.setChallenge purpose id (some { c with attempts := c.attempts + 1 })).note
          (.compared purpose id (decide (c.proof = proof))))
        (if c.proof ≠ proof then k none
        else .read fun _ db =>
          match db.challenges purpose id with
          | none => .rollback
          | some c => .write (Db.setChallenge purpose id none) (k (some c.context)))

/-- `quota`: whether this hour's count was below the limit; if so, one more is counted. -/
def quota (purpose : Quota) (value : ν) (limit : ℕ) (k : Bool → Transaction β ν ρ) : Transaction β ν ρ :=
  .read fun now db =>
    if db.quota purpose value (now / hour) < limit then
      .write (fun db => { db with quota := Function.update db.quota purpose (Function.update (db.quota purpose) value
        (Function.update (db.quota purpose value) (now / hour) (db.quota purpose value (now / hour) + 1))) }) (k true)
    else k false

/-- `store`: a new challenge, for `ttl` seconds. -/
def store (purpose : Purpose) (id : ν) (context : Context β ν) (proof : ν) (ttl : ℕ) (k : Transaction β ν ρ) :
    Transaction β ν ρ :=
  .read fun now db =>
    match db.challenges purpose id with
    | some _ => .rollback
    | none => .write (Db.setChallenge purpose id (some ⟨context, proof, 0, now + ttl * 1000⟩)) k

/-- `insertBinding`, of the account; `taken` says that another account has the address. -/
def insertBinding (email version : ν) (taken : Bool) (k : Bool → Transaction β ν ρ) : Transaction β ν ρ :=
  .read fun _ db =>
    -- `ON CONFLICT DO NOTHING`
    if taken ∨ db.binding ≠ none then k false
    else .write (fun db => { db with binding := some ⟨email, version⟩ }) (k true)

def requestEnrollment (P : Crypto β ν) (userId epoch email id nonce otp : ν) :
    Transaction β ν (Option (RecoveryEnrollmentChallenge ν)) :=
  lockAccount userId fun account =>
    match account with
    | none => .commit none
    | some account =>
      if account.epoch ≠ epoch ∨ account.key.all (fun key => decide (P.size key ≠ identityLength)) then .commit none
      else quota .enrollAccount userId quotaLimit fun allowed =>
        if !allowed then .commit none
        else quota .enrollEmail email quotaLimit fun allowed =>
          if !allowed then .commit none
          else .read fun _ db =>
            if db.bindingOf userId ≠ none then .commit none
            else
              let context : Context β ν :=
                ⟨some userId, email, epoch, nonce, account.protocol, account.key, account.registrationId, none⟩
              store .enroll id context otp challengeTtl
                (.commit (some ⟨id, nonce, epoch, account.protocol, challengeTtl⟩))

/-- `verifyEnrollment`.  A challenge of this account's counts the guesses of the others too: they hold the lock of
another row and wait for that of the challenge, which is the one lock here. -/
def verifyEnrollment (P : Crypto β ν) (userId epoch : ν) (r : RecoveryVerify ν) (version : ν) (taken : Bool)
    (other : Option (Account β ν)) : Transaction β ν Bool :=
  lockCaller userId other fun account =>
    match account with
    | none => .commit false
    | some account =>
      if account.epoch ≠ epoch then .commit false
      else consume .enroll r.challengeId r.otp fun context =>
        match context with
        | none => .commit false
        | some context =>
          if context.userId ≠ some userId ∨ context.epoch ≠ some epoch ∨ context.protocol ≠ some account.protocol ∨
              context.identity ≠ account.key ∨ account.key.all (fun key =>
                decide (P.size key ≠ identityLength) ||
                  !P.verifyEnrollment key (enrollmentPreimage r.challengeId context) r.signature) then
            .commit false
          else insertBinding context.email version taken fun inserted => .commit inserted

def deadContext (email : ν) : Context β ν := ⟨none, email, none, none, none, none, 0, none⟩

/-- `requestLogin`; the result is `deliver`.  The quota row is locked before the account's: the two are one lock here.
-/
def requestLogin (P : Crypto β ν) (email id otp : ν) : Transaction β ν Bool :=
  .lock (quota .loginEmail email quotaLimit fun allowed =>
    if !allowed then .commit false
    else .read fun _ db =>
      match db.bindingBy email with
      | none => store .login id (deadContext email) otp challengeTtl (.commit false)
      | some bound => lockAccount db.userId fun account =>
        let context : Context β ν :=
          match account with
          | none => deadContext email
          | some account =>
            if account.key.any (fun key => decide (P.size key = identityLength)) then
              ⟨some db.userId, bound.email, account.epoch, none, account.protocol, account.key, account.registrationId,
                bound.version⟩
            else deadContext email
        store .login id context otp challengeTtl (.commit context.userId.isSome))

/-- `verifyLogin`.  A dead challenge has no account to lock, only its own row. -/
def verifyLogin (P : Crypto β ν) (r : RecoveryVerify ν) (token : ν) : Transaction β ν (Option (RecoveryGrant β ν)) :=
  readChallenge P .login r.challengeId fun preview =>
    match preview with
    | none => .commit none
    | some preview =>
      .lock (.read fun _ db =>
        let account := preview.context.userId.bind fun userId => db.account userId
        consume .login r.challengeId r.otp fun context =>
          match context with
          | none => .commit none
          | some context =>
            match account, context.userId with
            | some account, some userId =>
              .read fun _ db =>
                if !db.currentBinding context account userId then .commit none
                else store .complete token context token grantTtl (.read fun _ db =>
                  .commit (some ⟨token, userId, context.protocol, context.identity, context.registrationId, grantTtl,
                    db.users.any fun u => u.registrationLockVerifier.isSome⟩))
            | _, _ => .commit none)

/-- `RegistrationLock.update`. -/
def updateLock (failures : ℕ) (until_ : Option ℕ) : Db β ν → Db β ν :=
  Db.updateUsers fun u => { u with registrationLockFailures := failures, registrationLockUntil := until_ }

/-- The end of a check, with what it writes. -/
def report (now : ℕ) (right : Option Bool) (c : Check) (f : Db β ν → Db β ν) (k : Check → Transaction β ν ρ) :
    Transaction β ν ρ :=
  .write (fun db => (f db).note (.checked now right c)) (k c)

/-- `RegistrationLock.check`. -/
def checkLock (P : Crypto β ν) (userId : ν) (proof : Option ν) (k : Check → Transaction β ν ρ) : Transaction β ν ρ :=
  .read fun now db =>
    match db.users with
    | none => report now none .notRequired id k
    | some u =>
      match u.registrationLockVerifier with
      | none => report now none .notRequired id k
      | some stored =>
        match u.registrationLockUntil.filter (fun t => decide (now < t)) with
        | some t => report now none (.locked (max 1 ((t - now) / 1000))) id k
        | none =>
          if (proof.filter P.validProof).map (P.verifier userId) = some stored then
            if u.registrationLockFailures ≠ 0 ∨ u.registrationLockUntil ≠ none then
              report now (some true) .passed (updateLock 0 none) k
            else report now (some true) .passed id k
          else if maxFailures ≤ u.registrationLockFailures + 1 then
            report now (some false) (.locked (lockout / 1000)) (updateLock 0 (some (now + lockout))) k
          else
            report now (some false) (.failed (maxFailures - (u.registrationLockFailures + 1)))
              (updateLock (u.registrationLockFailures + 1) none) k

/-- `receipt`: the answer to a request that was completed before. -/
def receipt (P : Crypto β ν) (r : RecoveryComplete ν) : Transaction β ν (Outcome ν) :=
  .read fun now db =>
    match db.receipts r.recoveryToken with
    | none => .commit .rejected
    | some saved =>
      if saved.expiresAt ≤ now ∨ saved.requestHash ≠ P.requestHash r then .commit .rejected
      else lockAccount saved.response.userId fun account =>
        match account with
        | none => .commit .rejected
        | some account =>
          .read fun now db =>
            if (db.receipts r.recoveryToken).any (fun x => decide (now < x.expiresAt)) ∧ saved.epoch =
              account.epoch then
              .commit (.success saved.response)
            else .commit .rejected

def replaceIdentity (r : RecoveryComplete ν) (key : β) (k : Transaction β ν ρ) : Transaction β ν ρ :=
  .write (fun db => { db with oneTimePrekeys := [] }) (.write (fun db => { db with fallbackKeys := [] })
    (.write (Db.updateUsers fun u => { u with
      identityPublicKey := none
      registrationId := some r.registrationId
      recoveryIdentityPin := some key
      recoveryIdentityProtocol := some r.identityProtocol
      olmIdentityKey := none
      signingPublicKey := none }) k))

def finish (P : Crypto β ν) (r : RecoveryComplete ν) (userId : ν) (f : Fresh ν) : Transaction β ν (Outcome ν) :=
  .write (Db.updateUsers fun u => { u with credentialEpoch := f.epoch, refreshGeneration := f.generation })
    (.write (Db.deleteChallenges userId)
      (.read fun now db =>
        let response : RecoveryCredentials ν :=
          { userId := userId
            token := P.issueToken userId f.epoch f.tokenId
            refreshToken := P.issueRefreshToken userId f.epoch f.generation f.refreshId
            identityReplaced := decide (r.mode = .replace) }
        match db.receipts r.recoveryToken with
        | some _ => .rollback
        | none => .write (fun db => { db with
            receipts := Function.update db.receipts r.recoveryToken
              (some ⟨P.requestHash r, f.epoch, response, now + receiptTtl⟩) })
            (.commit (.success response))))

/-- What `complete` does once it holds the account and has consumed the challenge. -/
def completeConsumed (P : Crypto β ν) (r : RecoveryComplete ν) (f : Fresh ν) (account : Account β ν)
    (context : Context β ν) (userId : ν) : Transaction β ν (Outcome ν) :=
  .read fun _ db =>
    if !db.currentBinding context account userId then .commit .rejected
    else if (r.mode ≠ .preserve ∧ r.mode ≠ .replace) ∨ r.identityProtocol ≠ .olm ∨
        ¬(1 ≤ r.registrationId ∧ r.registrationId ≤ 16383) then .commit .rejected
    else match P.decodeKey r.identityPublicKey with
      | none => .commit .rejected
      | some key =>
        if !P.verify key (completionPreimage userId r) r.signature then .commit .rejected
        else if r.mode = .preserve ∧ (r.identityProtocol ≠ account.protocol ∨ some key ≠ account.key ∨
            r.registrationId ≠ account.registrationId) then .commit .rejected
        else if r.mode = .replace then replaceIdentity r key (finish P r userId f)
        else finish P r userId f

def complete (P : Crypto β ν) (r : RecoveryComplete ν) (f : Fresh ν) : Transaction β ν (Outcome ν) :=
  if !P.saneId r.completionId then .commit .rejected
  else readChallenge P .complete r.recoveryToken fun preview =>
    match preview with
    | none => receipt P r
    | some preview =>
      match preview.context.userId with
      | none => .rollback
      | some userId =>
        lockAccount userId fun account =>
          match account with
          | none => .commit .rejected
          | some account =>
            let consumed : Transaction β ν (Outcome ν) :=
              consume .complete r.recoveryToken r.recoveryToken fun context =>
                match context with
                | none => receipt P r
                | some context => completeConsumed P r f account context userId
            if r.mode = .replace then
              checkLock P userId r.lockProof fun lock =>
                match lock with
                | .notRequired | .passed => consumed
                | .failed n => .commit (.locked (.failed n))
                | .locked t => .commit (.locked (.locked t))
            else consumed

end Recovery
end SecureChat
