import Mathlib.Data.List.Basic
import Mathlib.Logic.Function.Basic
/-!
# OlmPreKeyStore — one account's prekeys: uploads, bundle fetches, recovery

The rows of one account and the calls that touch them.  An upload is `unconsumedCount`, then three transactions; each of
these locks the `users` row with its first statement, and a transaction that is a single write is one step here.
`addOneTimeKeys` is not: fetches delete rows between its conflict check, its inserts and its commit, and do not take the
lock.  `fetchBundle` is three statements on their own.  A recovery that replaces the account locks `users` and takes
effect at its commit.

Every key carries, as a ghost, the generation it was uploaded in: how many replacements had been committed.  Key ids are
`ι`, byte strings `κ`.
-/
namespace SecureChat
namespace PreKeys

structure Tagged (α : Type) where
  value : α
  generation : ℕ
deriving DecidableEq

structure FallbackKey (κ : Type) where
  publicKey : κ
  signature : κ
deriving DecidableEq

structure OneTimeKey (ι κ : Type) where
  keyId : ι
  publicKey : κ
deriving DecidableEq

structure Bundle (ι κ : Type) where
  identityKey : Tagged κ
  signingKey : Tagged κ
  oneTimeKey : Option (Tagged (OneTimeKey ι κ))
  fallbackKey : Option (Tagged (FallbackKey κ))
deriving DecidableEq

structure PreKeyUploadRequest (ι κ : Type) where
  olmIdentityKey : κ
  olmSigningKey : κ
  olmFallbackKey : Option (FallbackKey κ)
  olmOneTimeKeys : List (OneTimeKey ι κ)

def keyLength : ℕ := 32

def signatureLength : ℕ := 64

def maxOneTimePrekeys : ℕ := 200

def maxStoredOneTimePrekeys : ℕ := 1000

/-- What the checks read of a byte string and of a key id (not empty, at most 64 characters). -/
structure Format (ι κ : Type) where
  size : κ → ℕ
  saneKeyId : ι → Bool

/-- `recovery_identity_protocol`. -/
inductive Protocol where
  | olm
  | legacy
deriving DecidableEq

/-- The account's rows in `users`, `olm_one_time_prekeys` (in the order of `id`) and `olm_fallback_keys`. -/
structure Account (ι κ : Type) where
  olmIdentityKey : Option (Tagged κ)
  signingPublicKey : Option (Tagged κ)
  recoveryIdentityPin : Option κ
  recoveryIdentityProtocol : Option Protocol
  credentialEpoch : ℕ
  oneTimeKeys : List (Tagged (OneTimeKey ι κ))
  fallbackKey : Option (Tagged (FallbackKey κ))
  generation : ℕ

inductive Answer (ι : Type) where
  | ok
  | invalidPrekeyMaterial
  | prekeyPoolFull
  | identityRecoveryRequired
  | prekeyConflict (keyId : ι)
  | badRequest
  | noAnswer
deriving DecidableEq

variable {ι κ : Type} [DecidableEq ι] [DecidableEq κ]

def PreKeyUploadRequest.hasSaneKeyMaterial (F : Format ι κ) (r : PreKeyUploadRequest ι κ) : Bool :=
  decide (F.size r.olmIdentityKey = keyLength) && decide (F.size r.olmSigningKey = keyLength) &&
  decide (r.olmOneTimeKeys.length ≤ maxOneTimePrekeys) && decide (r.olmOneTimeKeys.map OneTimeKey.keyId).Nodup &&
  r.olmOneTimeKeys.all (fun k => F.saneKeyId k.keyId && decide (F.size k.publicKey = keyLength)) &&
  r.olmFallbackKey.all (fun k => decide (F.size k.publicKey = keyLength) && decide
    (F.size k.signature = signatureLength))

namespace Account

omit [DecidableEq ι] [DecidableEq κ] in
/-- `PreKeyIdentityGuard.check`: the epoch the caller was authenticated with is still the account's. -/
def guard (epoch : ℕ) (a : Account ι κ) : Bool := decide (epoch = a.credentialEpoch)

omit [DecidableEq ι] in
def setIdentity (F : Format ι κ) (identityKey signingKey : κ) (epoch : ℕ) (a : Account ι κ) :
    Except (Answer ι) (Account ι κ) :=
  if F.size identityKey ≠ keyLength ∨ F.size signingKey ≠ keyLength then .error .badRequest
  else if !a.guard epoch then .error .badRequest
  else if a.recoveryIdentityProtocol = some .olm ∧
    a.recoveryIdentityPin.any (fun pin => decide (pin ≠ signingKey)) = true
    then .error .identityRecoveryRequired
  else if a.olmIdentityKey.any (fun old => decide (old.value ≠ identityKey)) = true then
    .error .identityRecoveryRequired
  else if a.signingPublicKey.any (fun old => decide (old.value ≠ signingKey)) = true then
    .error .identityRecoveryRequired
  else .ok { a with
    olmIdentityKey := some ⟨identityKey, a.generation⟩
    signingPublicKey := some ⟨signingKey, a.generation⟩ }

omit [DecidableEq ι] [DecidableEq κ] in
def setFallbackKey (F : Format ι κ) (key : FallbackKey κ) (epoch : ℕ) (a : Account ι κ) :
    Except (Answer ι) (Account ι κ) :=
  if F.size key.publicKey ≠ keyLength ∨ F.size key.signature ≠ signatureLength then .error .badRequest
  else if !a.guard epoch then .error .badRequest
  else .ok { a with fallbackKey := some ⟨key, a.generation⟩ }

/-- The conflict check of `addOneTimeKeys`: a stored key id with other material. -/
def conflict (keys : List (OneTimeKey ι κ)) (a : Account ι κ) : Option ι :=
  (a.oneTimeKeys.find? (fun row => keys.any (fun k =>
    decide (k.keyId = row.value.keyId) && decide (k.publicKey ≠ row.value.publicKey)))).map (fun row => row.value.keyId)

omit [DecidableEq κ] in
def hasKeyId (keyId : ι) (rows : List (Tagged (OneTimeKey ι κ))) : Bool :=
  rows.any (fun row => decide (row.value.keyId = keyId))

omit [DecidableEq κ] in
/-- The row a fetch consumes: the first that no other statement has locked (`FOR UPDATE SKIP LOCKED`). -/
def nextKey (locked : List ι) (a : Account ι κ) : Option (Tagged (OneTimeKey ι κ)) :=
  a.oneTimeKeys.find? (fun row => decide (row.value.keyId ∉ locked))

omit [DecidableEq ι] [DecidableEq κ] in
/-- What `complete` does to the account when it replaces it. -/
def replace (key : κ) (a : Account ι κ) : Account ι κ where
  olmIdentityKey := none
  signingPublicKey := none
  recoveryIdentityPin := some key
  recoveryIdentityProtocol := some .olm
  credentialEpoch := a.credentialEpoch + 1
  oneTimeKeys := []
  fallbackKey := none
  generation := a.generation + 1

end Account

/-- A call of the upload route: before each of its statements or transactions; `inserting` holds the rows it has
inserted and not committed. -/
inductive Upload (ι κ : Type) where
  | idle
  | counting (request : PreKeyUploadRequest ι κ) (epoch : ℕ)
  | identity (request : PreKeyUploadRequest ι κ) (epoch : ℕ)
  | fallback (request : PreKeyUploadRequest ι κ) (epoch : ℕ)
  | locking (keys : List (OneTimeKey ι κ)) (epoch : ℕ)
  | checking (keys : List (OneTimeKey ι κ))
  | inserting (rest : List (OneTimeKey ι κ)) (inserted : List (Tagged (OneTimeKey ι κ)))
  | done (answer : Answer ι)

/-- A call of `fetchBundle`: before each of its statements. -/
inductive Fetch (ι κ : Type) where
  | idle
  | identity
  | oneTimeKey (identityKey signingKey : Tagged κ)
  | fallback (identityKey signingKey : Tagged κ) (oneTimeKey : Option (Tagged (OneTimeKey ι κ)))
  | done (bundle : Option (Bundle ι κ))
deriving DecidableEq

/-- The account, the `users` row lock that outlives a step, and the calls.  `consumed` is what fetches have deleted. -/
structure State (ι κ : Type) where
  account : Account ι κ
  lock : Option ℕ
  uploads : ℕ → Upload ι κ
  fetches : ℕ → Fetch ι κ
  consumed : List (Tagged (OneTimeKey ι κ))

inductive Event (ι κ : Type) where
  | upload (i : ℕ) (request : PreKeyUploadRequest ι κ) (epoch : ℕ)
  | advance (i : ℕ)
  | miscount (i : ℕ)
  | abort (i : ℕ)
  | fetch (j : ℕ)
  | read (j : ℕ) (locked : List ι)
  | fail (j : ℕ)
  | replace (key : κ)
  | rotate

namespace State

omit [DecidableEq ι] [DecidableEq κ] in
def init : State ι κ where
  account := ⟨none, none, none, none, 0, [], none, 0⟩
  lock := none
  uploads _ := .idle
  fetches _ := .idle
  consumed := []

omit [DecidableEq ι] [DecidableEq κ] in
def setUpload (i : ℕ) (u : Upload ι κ) (s : State ι κ) : State ι κ :=
  { s with uploads := Function.update s.uploads i u }

omit [DecidableEq ι] [DecidableEq κ] in
def setFetch (j : ℕ) (f : Fetch ι κ) (s : State ι κ) : State ι κ :=
  { s with fetches := Function.update s.fetches j f }

omit [DecidableEq ι] [DecidableEq κ] in
def transaction (i : ℕ) (write : Except (Answer ι) (Account ι κ)) (next : Upload ι κ) (s : State ι κ) :
    Option (State ι κ) :=
  match s.lock with
  | some _ => none
  | none =>
    match write with
    | .error answer => some (s.setUpload i (.done answer))
    | .ok a => some { s.setUpload i next with account := a }

def advance (F : Format ι κ) (i : ℕ) (s : State ι κ) : Option (State ι κ) :=
  match s.uploads i with
  | .counting r e =>
    if maxStoredOneTimePrekeys < s.account.oneTimeKeys.length + r.olmOneTimeKeys.length then
      some (s.setUpload i (.done .prekeyPoolFull))
    else some (s.setUpload i (.identity r e))
  | .identity r e =>
    s.transaction i (s.account.setIdentity F r.olmIdentityKey r.olmSigningKey e) (.fallback r e)
  | .fallback r e =>
    match r.olmFallbackKey with
    | none => some (s.setUpload i (.locking r.olmOneTimeKeys e))
    | some key => s.transaction i (s.account.setFallbackKey F key e) (.locking r.olmOneTimeKeys e)
  | .locking [] _ => some (s.setUpload i (.done .ok))
  | .locking keys e =>
    if keys.all (fun k => decide (F.size k.publicKey = keyLength)) && decide (keys.map OneTimeKey.keyId).Nodup then
      match s.lock with
      | some _ => none
      | none =>
        if s.account.guard e then some { s.setUpload i (.checking keys) with lock := some i }
        else some (s.setUpload i (.done .badRequest))
    else some (s.setUpload i (.done .badRequest))
  | .checking keys =>
    match s.account.conflict keys with
    | some keyId => some { s.setUpload i (.done (.prekeyConflict keyId)) with lock := none }
    | none => some (s.setUpload i (.inserting keys []))
  | .inserting (k :: rest) inserted =>
    -- `ON CONFLICT (user_id, key_id) DO NOTHING`
    if Account.hasKeyId k.keyId s.account.oneTimeKeys || Account.hasKeyId k.keyId inserted then
      some (s.setUpload i (.inserting rest inserted))
    else some (s.setUpload i (.inserting rest (inserted ++ [⟨k, s.account.generation⟩])))
  | .inserting [] inserted =>
    some { s.setUpload i (.done .ok) with
      account := { s.account with oneTimeKeys := s.account.oneTimeKeys ++ inserted }
      lock := none }
  | .idle | .done _ => none

omit [DecidableEq ι] [DecidableEq κ] in
/-- `unconsumedCount` fails, and the route compares its 0. -/
def miscount (i : ℕ) (s : State ι κ) : Option (State ι κ) :=
  match s.uploads i with
  | .counting r e =>
    if maxStoredOneTimePrekeys < 0 + r.olmOneTimeKeys.length then some (s.setUpload i (.done .prekeyPoolFull))
    else some (s.setUpload i (.identity r e))
  | _ => none

omit [DecidableEq κ] in
def read (j : ℕ) (locked : List ι) (s : State ι κ) : Option (State ι κ) :=
  match s.fetches j with
  | .identity =>
    match s.account.olmIdentityKey, s.account.signingPublicKey with
    | some identityKey, some signingKey => some (s.setFetch j (.oneTimeKey identityKey signingKey))
    | _, _ => some (s.setFetch j (.done none))
  | .oneTimeKey identityKey signingKey =>
    match s.account.nextKey locked with
    | none => some (s.setFetch j (.fallback identityKey signingKey none))
    | some row => some { s.setFetch j (.fallback identityKey signingKey (some row)) with
        account := { s.account with
          oneTimeKeys := s.account.oneTimeKeys.filter (fun r => decide (r.value.keyId ≠ row.value.keyId)) }
        consumed := row :: s.consumed }
  | .fallback identityKey signingKey oneTimeKey =>
    match oneTimeKey, s.account.fallbackKey with
    | none, none => some (s.setFetch j (.done none))
    | _, fallbackKey => some (s.setFetch j (.done (some ⟨identityKey, signingKey, oneTimeKey, fallbackKey⟩)))
  | .idle | .done _ => none

def release (i : ℕ) (lock : Option ℕ) : Option ℕ := if lock = some i then none else lock

def step (F : Format ι κ) (s : State ι κ) : Event ι κ → Option (State ι κ)
  | .upload i r e =>
    match s.uploads i with
    | .idle =>
      some (s.setUpload i (if r.hasSaneKeyMaterial F then .counting r e else .done .invalidPrekeyMaterial))
    | _ => none
  | .advance i => s.advance F i
  | .miscount i => s.miscount i
  | .abort i =>
    match s.uploads i with
    | .idle | .done _ => none
    | _ => some { s.setUpload i (.done .noAnswer) with lock := release i s.lock }
  | .fetch j =>
    match s.fetches j with
    | .idle => some (s.setFetch j .identity)
    | _ => none
  | .read j locked => s.read j locked
  | .fail j =>
    match s.fetches j with
    | .idle | .done _ => none
    | _ => some (s.setFetch j (.done none))
  | .replace key =>
    match s.lock with
    | some _ => none
    | none => some { s with account := s.account.replace key }
  | .rotate =>
    match s.lock with
    | some _ => none
    | none => some { s with account := { s.account with credentialEpoch := s.account.credentialEpoch + 1 } }

end State

end PreKeys
end SecureChat
