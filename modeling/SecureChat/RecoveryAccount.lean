import SecureChat.RecoveryAuthService
import SecureChat.TransactionCalls
/-!
# RecoveryAccount — all the transactions on the rows of one account

Registration, the uploads of `OlmPreKeyStore`, the rotations of `CredentialState` and the registration lock write the
rows that a recovery reads.  `program` has them next to the calls of the recovery service itself.
-/
namespace SecureChat
namespace Recovery

variable {β ν ρ : Type} [DecidableEq β] [DecidableEq ν]

/-- Registration: `claimAccount` with `bindRegistrationRecoveryEmail`.  The result is whether the address is bound. -/
def register (email : Option ν) (version : ν) (taken : Bool) (f : Fresh ν) : Transaction β ν Bool :=
  .lock (.read fun _ db =>
    match db.users with
    | some _ => .rollback
    | none =>
      .write (fun db => { db with
        users := some ⟨f.epoch, f.generation, none, none, none, none, none, none, none, 0, none⟩ })
        (match email with
        | none => .commit false
        | some email => insertBinding email version taken fun bound => .commit bound))

/-- The `users` row under its lock; without one a call fails with "Unknown account". -/
def lockUsers (userId : ν) (k : Users β ν → Transaction β ν ρ) : Transaction β ν ρ :=
  .lock (.read fun _ db =>
    match db.users with
    | none => .rollback
    | some u => if userId = db.userId then k u else .rollback)

/-- `PreKeyIdentityGuard.check`: "Superseded credential epoch". -/
def guard (expectedEpoch : Option ν) (u : Users β ν) (k : Transaction β ν ρ) : Transaction β ν ρ :=
  if expectedEpoch.any (fun epoch => decide (epoch ≠ u.credentialEpoch)) then .rollback else k

def setIdentity (P : Crypto β ν) (userId : ν) (identityKey signingKey : β) (expectedEpoch : Option ν) :
    Transaction β ν Unit :=
  if P.size identityKey ≠ identityLength ∨ P.size signingKey ≠ identityLength then .rollback
  else lockUsers userId fun u => guard expectedEpoch u
    (if u.recoveryIdentityProtocol = some .olm ∧ u.recoveryIdentityPin.any (fun pin => decide (pin ≠ signingKey)) then
      .rollback
    else if u.olmIdentityKey.any (fun old => decide (old ≠ identityKey)) then .rollback
    else if u.signingPublicKey.any (fun old => decide (old ≠ signingKey)) then .rollback
    else .write (Db.updateUsers fun u =>
      { u with olmIdentityKey := some identityKey, signingPublicKey := some signingKey })
      (.commit ()))

def signatureLength : ℕ := 64

def setFallbackKey (P : Crypto β ν) (userId : ν) (publicKey signature : β) (expectedEpoch : Option ν) :
    Transaction β ν Unit :=
  if P.size publicKey ≠ identityLength ∨ P.size signature ≠ signatureLength then .rollback
  else lockUsers userId fun u => guard expectedEpoch u
    (.write (fun db => { db with fallbackKeys := [(publicKey, signature)] }) (.commit ()))

def addOneTimeKeys (P : Crypto β ν) (userId : ν) (keys : List (ν × β)) (expectedEpoch : Option ν) :
    Transaction β ν Unit :=
  if keys = [] then .commit ()
  else if keys.any (fun key => decide (P.size key.2 ≠ identityLength)) ∨ ¬(keys.map Prod.fst).Nodup then .rollback
  else lockUsers userId fun u => guard expectedEpoch u
    (.read fun _ db =>
      if db.oneTimePrekeys.any (fun row => keys.any fun key => decide (key.1 = row.1 ∧ key.2 ≠ row.2)) then .rollback
      -- `ON CONFLICT (user_id, key_id) DO NOTHING`
      else .write (fun db => { db with
        oneTimePrekeys := db.oneTimePrekeys ++
          keys.filter (fun key => db.oneTimePrekeys.all fun row => decide (row.1 ≠ key.1)) }) (.commit ()))

/-- `rotateCredentialEpoch`: `WHERE credential_epoch = COALESCE(?, credential_epoch)`. -/
def rotateCredentialEpoch (userId : ν) (expectedEpoch : Option ν) (f : Fresh ν) : Transaction β ν Bool :=
  .lock (.read fun _ db =>
    if userId = db.userId ∧
      db.users.any (fun u => decide (u.credentialEpoch = expectedEpoch.getD u.credentialEpoch)) then
      .write (Db.updateUsers fun u => { u with credentialEpoch := f.epoch, refreshGeneration := f.generation })
        (.commit true)
    else .commit false)

def rotateRefreshGeneration (userId presented : ν) (f : Fresh ν) : Transaction β ν Bool :=
  .lock (.read fun _ db =>
    if userId = db.userId ∧ db.users.any (fun u => decide (u.refreshGeneration = presented)) then
      .write (Db.updateUsers fun u => { u with refreshGeneration := f.generation }) (.commit true)
    else .commit false)

/-- `RegistrationLock.set` and `RegistrationLock.clear`. -/
def setLock (verifier : Option ν) (db : Db β ν) : Db β ν :=
  (db.updateUsers fun u => { u with
    registrationLockVerifier := verifier, registrationLockFailures := 0, registrationLockUntil := none }).note .reset

def updateRegistrationLock (P : Crypto β ν) (userId epoch : ν) (proof : Option ν) : Transaction β ν Bool :=
  lockAccount userId fun account =>
    match account with
    | none => .commit false
    | some account =>
      if account.epoch ≠ epoch then .commit false
      else match proof with
        | none => .write (setLock none) (.commit true)
        | some proof =>
          if P.validProof proof then .write (setLock (some (P.verifier userId proof))) (.commit true) else .commit false

inductive Op (β ν : Type) where
  | register (email : Option ν) (version : ν) (taken : Bool) (f : Fresh ν)
  | setIdentity (userId : ν) (identityKey signingKey : β) (expectedEpoch : Option ν)
  | setFallbackKey (userId : ν) (publicKey signature : β) (expectedEpoch : Option ν)
  | addOneTimeKeys (userId : ν) (keys : List (ν × β)) (expectedEpoch : Option ν)
  | rotateCredentialEpoch (userId : ν) (expectedEpoch : Option ν) (f : Fresh ν)
  | rotateRefreshGeneration (userId presented : ν) (f : Fresh ν)
  | updateRegistrationLock (userId epoch : ν) (proof : Option ν)
  | requestEnrollment (userId epoch email id nonce otp : ν)
  | verifyEnrollment (userId epoch : ν) (r : RecoveryVerify ν) (version : ν) (taken : Bool)
      (other : Option (Account β ν))
  | requestLogin (email id otp : ν)
  | verifyLogin (r : RecoveryVerify ν) (token : ν)
  | complete (r : RecoveryComplete ν) (f : Fresh ν)
deriving DecidableEq

inductive Answer (β ν : Type) where
  | ok
  | yes (b : Bool)
  | enrollment (c : Option (RecoveryEnrollmentChallenge ν))
  | delivered (deliver : Bool)
  | grant (g : Option (RecoveryGrant β ν))
  | completed (o : Outcome ν)
deriving DecidableEq

def program (P : Crypto β ν) : Op β ν → Transaction β ν (Answer β ν)
  | .register email version taken f => (register email version taken f).map .yes
  | .setIdentity userId identityKey signingKey epoch =>
      (setIdentity P userId identityKey signingKey epoch).map fun _ => .ok
  | .setFallbackKey userId publicKey signature epoch =>
      (setFallbackKey P userId publicKey signature epoch).map fun _ => .ok
  | .addOneTimeKeys userId keys epoch => (addOneTimeKeys P userId keys epoch).map fun _ => .ok
  | .rotateCredentialEpoch userId epoch f => (rotateCredentialEpoch userId epoch f).map .yes
  | .rotateRefreshGeneration userId presented f => (rotateRefreshGeneration userId presented f).map .yes
  | .updateRegistrationLock userId epoch proof => (updateRegistrationLock P userId epoch proof).map .yes
  | .requestEnrollment userId epoch email id nonce otp =>
    (requestEnrollment P userId epoch email id nonce otp).map .enrollment
  | .verifyEnrollment userId epoch r version taken other =>
    (verifyEnrollment P userId epoch r version taken other).map .yes
  | .requestLogin email id otp => (requestLogin P email id otp).map .delivered
  | .verifyLogin r token => (verifyLogin P r token).map .grant
  | .complete r f => (complete P r f).map .completed

def Db.unregistered (userId : ν) : Db β ν where
  userId := userId
  users := none
  oneTimePrekeys := []
  fallbackKeys := []
  binding := none
  challenges _ _ := none
  receipts _ := none
  quota _ _ _ := 0
  notes := []

end Recovery
end SecureChat
