import SecureChat.Collections
import SecureChat.ThreadPool
/-!
# UserRegistry — the account registry and its two caches

`UserRegistry` and `AccountDeletion.execute`: accounts are rows of the table `users`, and the process holds them in
`cacheByUserId` and `cacheByDirectoryToken`.  Requests run on threads of their own, so each database transaction and each
operation on a concurrent map is a step.  A transaction holds the locks of the rows it writes until it commits, and what
it writes is seen at once; one that throws has written nothing.

Left out: `membershipVersion`, and of the other steps of a deletion everything but whether one of them failed.
-/
namespace SecureChat
namespace Registry

variable {U T K : Type}

structure RegisteredUser (U T K : Type) where
  userId : U
  directoryToken : T
  directoryKeyId : Option K
deriving DecidableEq

/-- What a row holds of its account's identities: whether the columns are not null. -/
structure Identities where
  olmIdentityKey : Bool := false
  identityPublicKey : Bool := false
  recoveryIdentityPin : Bool := false
deriving DecidableEq

structure Row (T K : Type) where
  directoryToken : T
  directoryKeyId : Option K
  identities : Identities

/-- The table `users`; its directory tokens are unique. -/
structure Users (U T K : Type) [DecidableEq U] where
  rows : Table U (Row T K)
  unique : ∀ u v row row', rows.get u = some row → rows.get v = some row' →
    row.directoryToken = row'.directoryToken → u = v

/-- The server's side of the private directory: the id of its key, and the canonical form of a token it accepts. -/
structure Directory (T K : Type) where
  keyId : K
  validateToken : T → Option T
  canonical : ∀ t t', validateToken t = some t' → validateToken t' = some t'

namespace Users

variable [DecidableEq U] {d d' : Users U T K} {u v : U} {row : Row T K}

def record (u : U) (row : Row T K) : RegisteredUser U T K := ⟨u, row.directoryToken, row.directoryKeyId⟩

def findByUserId (u : U) (d : Users U T K) : Option (RegisteredUser U T K) := (d.rows.get u).map (record u)

def delete (u : U) (d : Users U T K) : Users U T K where
  rows := d.rows.remove u
  unique v w row row' hv hw :=
    d.unique v w row row' (Table.get_filter_eq_some.1 hv).1 (Table.get_filter_eq_some.1 hw).1

variable [DecidableEq T]

def findByDirectoryToken (t : T) (d : Users U T K) : Option (RegisteredUser U T K) :=
  (d.rows.entries.find? fun e => decide (e.2.directoryToken = t)).map fun e => record e.1 e.2

def write (u : U) (row : Row T K) (d : Users U T K) : Option (Users U T K) :=
  if h : ∀ e ∈ d.rows.entries, e.2.directoryToken = row.directoryToken → e.1 = u then
    some {
      rows := d.rows.put u row
      unique := by
        intro v w a b hv hw hab
        rw [Table.get_put] at hv hw
        split at hv
        · split at hw
          · subst v w
            rfl
          · cases hv
            rename_i hvu _
            exact hvu.trans (h (w, b) (Table.get_eq_some.1 hw) hab.symm).symm
        · split at hw
          · cases hw
            rename_i hwu
            exact (h (v, a) (Table.get_eq_some.1 hv) hab).trans hwu.symm
          · exact d.unique v w a b hv hw hab }
  else none

/-- `INSERT … ON CONFLICT DO NOTHING`. -/
def insertUser (user : RegisteredUser U T K) (d : Users U T K) : Option (Users U T K) :=
  match d.rows.get user.userId with
  | some _ => none
  | none => d.write user.userId ⟨user.directoryToken, user.directoryKeyId, {}⟩

/-- The row of `user`, if it still has the token that `user` has. -/
def compareAndSet (user : RegisteredUser U T K) (t : T) (keyId : Option K) (d : Users U T K) : Option (Users U T K) :=
  match d.rows.get user.userId with
  | none => none
  | some row =>
    if row.directoryToken = user.directoryToken then
      d.write user.userId { row with directoryToken := t, directoryKeyId := keyId }
    else none

/-- Whether a row gives its token away: its account can be sent no message, and is not being recovered. -/
def releases (user : RegisteredUser U T K) (d : Users U T K) : Bool :=
  (d.rows.get user.userId).any fun row =>
    !row.identities.olmIdentityKey && (row.identities.identityPublicKey || !row.identities.recoveryIdentityPin)

def setIdentities (u : U) (identities : Identities) (d : Users U T K) : Option (Users U T K) :=
  match d.rows.get u with
  | none => none
  | some row => d.write u { row with identities := identities }

end Users

structure UserRegistry (U T K : Type) [DecidableEq U] where
  users : Users U T K
  cacheByDirectoryToken : Table T (RegisteredUser U T K)
  cacheByUserId : Table U (RegisteredUser U T K)

inductive CacheStep (U T K : Type) where
  | removeToken (user : RegisteredUser U T K)
  | putToken (user : RegisteredUser U T K)
  | putUser (user : RegisteredUser U T K)
deriving DecidableEq

def CacheStep.user : CacheStep U T K → RegisteredUser U T K
  | .removeToken user | .putToken user | .putUser user => user

def cache (user : RegisteredUser U T K) : List (CacheStep U T K) := [.putToken user, .putUser user]

def recache (user migrated : RegisteredUser U T K) : List (CacheStep U T K) := .removeToken user :: cache migrated

/-- A request, before each of its steps; `attempts` is what a deletion has left of its attempts to purge. -/
inductive Operation (U T K : Type) where
  | registering (userId : U)
  | updating (userId : U) (directoryToken : T)
  | findingUser (userId : U) (directoryToken : T)
  | lookingUp (current : RegisteredUser U T K) (token : T)
  | findingOwner (current : RegisteredUser U T K) (token : T)
  | reclaiming (owner claimant : RegisteredUser U T K) (token : T)
  | replacing (user : RegisteredUser U T K) (token : T)
  | caching (steps : List (CacheStep U T K))
  | deleting (userId : U)
  | purging (userId : U) (attempts : ℕ)
  | purgingToken (userId : U) (removed : RegisteredUser U T K) (attempts : ℕ)
  | purged (userId : U) (attempts : ℕ)
  | identifying (userId : U) (identities : Identities)
  | finished
deriving DecidableEq

inductive Request (U T : Type) where
  | register (userId : U)
  | updateOwnDirectoryToken (userId : U) (directoryToken : T)
  | deleteAccount (userId : U)
  | setIdentities (userId : U) (identities : Identities)

def spawn : Request U T → Operation U T K
  | .register userId => .registering userId
  | .updateOwnDirectoryToken userId directoryToken => .updating userId directoryToken
  | .deleteAccount userId => .deleting userId
  | .setIdentities userId identities => .identifying userId identities

/-- What a step finds: the placeholder drawn for a token, and whether its transaction throws or, after a purge, another
of the deletion's steps has failed. -/
structure Reading (T : Type) where
  pendingDirectoryToken : T
  fails : Bool

def transientPurgeAttempts : ℕ := 3

namespace UserRegistry

variable [DecidableEq U] [DecidableEq T] [DecidableEq K]

def apply (s : UserRegistry U T K) : CacheStep U T K → UserRegistry U T K
  | .removeToken user =>
    if s.cacheByDirectoryToken.get user.directoryToken = some user then
      { s with cacheByDirectoryToken := s.cacheByDirectoryToken.remove user.directoryToken }
    else s
  | .putToken user => { s with cacheByDirectoryToken := s.cacheByDirectoryToken.put user.directoryToken user }
  | .putUser user => { s with cacheByUserId := s.cacheByUserId.put user.userId user }

def loadFromDb (users : Users U T K) : UserRegistry U T K where
  users := users
  cacheByDirectoryToken := Table.ofList (users.rows.entries.map fun e => (e.2.directoryToken, Users.record e.1 e.2))
  cacheByUserId := Table.ofList (users.rows.entries.map fun e => (e.1, Users.record e.1 e.2))

def setUsers (s : UserRegistry U T K) (users : Users U T K) : UserRegistry U T K := { s with users := users }

/-- `ConcurrentHashMap.remove`. -/
def removeUserId (s : UserRegistry U T K) (userId : U) : UserRegistry U T K :=
  { s with cacheByUserId := s.cacheByUserId.remove userId }

end UserRegistry

section Device

variable [DecidableEq U] [DecidableEq T] [DecidableEq K] (D : Directory T K)

/-- `updateOwnDirectoryToken` once the account is known: the token is validated, and an account that has it is done. -/
def validate (current : RegisteredUser U T K) (directoryToken : T) : Operation U T K :=
  match D.validateToken directoryToken with
  | none => .finished
  | some token =>
    if current.directoryToken = token ∧ current.directoryKeyId = some D.keyId then .finished
    else .lookingUp current token

def claim (current : RegisteredUser U T K) (token : T) : Option (RegisteredUser U T K) → Operation U T K
  | none => .replacing current token
  | some owner => if owner.userId ≠ current.userId then .reclaiming owner current token else .replacing current token

def released (owner : RegisteredUser U T K) (pending : T) : RegisteredUser U T K := ⟨owner.userId, pending, none⟩

def migrated (user : RegisteredUser U T K) (token : T) : RegisteredUser U T K := ⟨user.userId, token, some D.keyId⟩

/-- The transaction of `replaceDirectoryToken`. -/
def replaceRow (users : Users U T K) (user : RegisteredUser U T K) (token : T) : Option (Users U T K) :=
  (D.validateToken token).bind fun valid => users.compareAndSet user valid (some D.keyId)

/-- The transaction of `reclaimFromLegacyAccount`. -/
def reclaimRows (users : Users U T K) (owner claimant : RegisteredUser U T K) (token pending : T) :
    Option (Users U T K) :=
  if users.releases owner then
    (users.compareAndSet ⟨owner.userId, token, none⟩ pending none).bind fun users =>
      users.compareAndSet claimant token (some D.keyId)
  else none

def exec (s : UserRegistry U T K) (operation : Operation U T K) (e : Reading T) :
    Option (UserRegistry U T K × Operation U T K) :=
  match operation with
  | .registering userId =>
    let candidate : RegisteredUser U T K := ⟨userId, e.pendingDirectoryToken, none⟩
    match if e.fails then none else s.users.insertUser candidate with
    | none => some (s, .finished)
    | some users => some (s.setUsers users, .caching (cache candidate))
  | .updating userId directoryToken =>
    match s.cacheByUserId.get userId with
    | some current => some (s, validate D current directoryToken)
    | none => some (s, .findingUser userId directoryToken)
  | .findingUser userId directoryToken =>
    match if e.fails then none else s.users.findByUserId userId with
    | none => some (s, .finished)
    | some current => some (s, validate D current directoryToken)
  | .lookingUp current token =>
    match s.cacheByDirectoryToken.get token with
    | some owner => some (s, claim current token (some owner))
    | none => some (s, .findingOwner current token)
  | .findingOwner current token =>
    if e.fails then some (s, .finished)
    else some (s, claim current token (s.users.findByDirectoryToken token))
  | .reclaiming owner claimant token =>
    match if e.fails then none else reclaimRows D s.users owner claimant token e.pendingDirectoryToken with
    | none => some (s, .finished)
    | some users => some (s.setUsers users, .caching
        (recache owner (released owner e.pendingDirectoryToken) ++ recache claimant (migrated D claimant token)))
  | .replacing user token =>
    match if e.fails then none else replaceRow D s.users user token with
    | none => some (s, .finished)
    | some users => some (s.setUsers users, .caching (recache user (migrated D user token)))
  | .caching [] => some (s, .finished)
  | .caching (step :: steps) => some (s.apply step, .caching steps)
  | .deleting userId =>
    if e.fails then some (s, .finished)
    else some (s.setUsers (s.users.delete userId), .purging userId (transientPurgeAttempts - 1))
  | .purging userId attempts =>
    match s.cacheByUserId.get userId with
    | none => some (s, .purged userId attempts)
    | some removed => some (s.removeUserId userId, .purgingToken userId removed attempts)
  | .purgingToken userId removed n => some (s.apply (.removeToken removed), .purged userId n)
  | .purged userId (attempts + 1) =>
    if e.fails then some (s, .purging userId attempts) else some (s, .finished)
  | .purged _ 0 => some (s, .finished)
  | .identifying userId identities =>
    match if e.fails then none else s.users.setIdentities userId identities with
    | none => some (s, .finished)
    | some users => some (s.setUsers users, .finished)
  | .finished => none

abbrev State (U T K : Type) [DecidableEq U] := Pool (UserRegistry U T K) (Operation U T K)

abbrev Step (U T : Type) := Pool.Label (Request U T) (Reading T)

def step : State U T K → Step U T → Option (State U T K) := Pool.step spawn (exec D)

end Device

def Quiescent [DecidableEq U] (q : State U T K) : Prop := ∀ g ∈ q.threads, g = .finished

structure Consistent [DecidableEq U] [DecidableEq T] (s : UserRegistry U T K) : Prop where
  byUserId : ∀ u, s.cacheByUserId.get u = s.users.findByUserId u
  byDirectoryToken : ∀ t r, s.cacheByDirectoryToken.get t = some r ↔
    r.directoryToken = t ∧ s.users.findByUserId r.userId = some r

end Registry
end SecureChat
