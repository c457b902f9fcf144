import Mathlib.Data.Finset.Basic
import Mathlib.Data.List.Sort
import SecureChat.UserRegistry
/-!
# DirectorySnapshots — the shared snapshot of the private directory

`DirectorySnapshotCache` over the threads of `UserRegistry`, with `membershipVersion`: a request that has written an
account's entry of `cacheByUserId` counts the change in a step of its own.  A snapshot request reads the version, the
cache, the accounts without keys and the accounts of the registry in steps of their own, in this order, and may be
overtaken between any two of them.  The view of the registry that a build iterates is weakly consistent: the entry of
each account is read at some moment of the iteration.

A sealed user id is what it opens to with the token of its label.  `invalidate` is left out, which only tests call.
-/
namespace SecureChat
namespace Snapshots

open Registry

variable {U T K L E : Type}

structure PrivateDirectoryEntry (U L : Type) where
  label : L
  user : Option U
deriving DecidableEq

/-- What a process builds its snapshots with: its directory, the labels, and the digest under its nonce. -/
structure Service (U T K L E : Type) where
  directory : Directory T K
  label : T → L
  decoyLabel : K → ℕ → L
  digest : K → ℕ → Option (Finset U) → E

/-- `read` is what the build has found in the registry; the code keeps the entries only. -/
structure Built (U T K L E : Type) where
  entries : List (PrivateDirectoryEntry U L)
  hidden : Option (Finset U)
  version : ℕ
  keyId : K
  builtAtMillis : ℕ
  etag : E
  read : List (U × Option (RegisteredUser U T K))

structure SnapshotView (U L E : Type) where
  entries : List (PrivateDirectoryEntry U L)
  etag : Option E

/-- A snapshot request, before each of its steps. -/
inductive Snapshot (U T K L E : Type) where
  | asking (requesterId : U)
  | versioning (requesterId : U) (nowMillis : ℕ)
  | checking (requesterId : U) (nowMillis version : ℕ)
  | locking (requesterId : U) (nowMillis version : ℕ)
  | rechecking (requesterId : U) (nowMillis version : ℕ)
  | querying (requesterId : U) (nowMillis version : ℕ)
  | building (requesterId : U) (nowMillis version : ℕ) (hidden : Option (Finset U))
      (read : List (U × Option (RegisteredUser U T K)))
  | publishing (requesterId : U) (nowMillis : ℕ) (built : Built U T K L E)
  | answering (requesterId : U) (nowMillis : ℕ) (built : Built U T K L E)
  | answered (requesterId : U) (nowMillis : ℕ) (built : Built U T K L E) (view : SnapshotView U L E)
  | failed

/-- A request to the registry, one that has still to count its change of an account, or a snapshot request. -/
inductive Thread (U T K L E : Type) where
  | operation (op : Operation U T K)
  | counting (userId : U) (op : Operation U T K)
  | snapshot (x : Snapshot U T K L E)

inductive Request (U T : Type) where
  | change (r : Registry.Request U T)
  | snapshotFor (requesterId : U)

def spawn : Request U T → Thread U T K L E
  | .change r => .operation (Registry.spawn r)
  | .snapshotFor requesterId => .snapshot (.asking requesterId)

/-- What a step finds: the time that has passed, the account whose entry an iteration finds next, and what the steps of
the registry find. -/
structure Look (U T : Type) where
  elapsed : ℕ
  visit : Option U
  reading : Reading T

def paddingBucket : ℕ := 256

def ttlMillis : ℕ := 60000

def paddedSize (realCount : ℕ) : ℕ := (realCount / paddingBucket + 1) * paddingBucket

section Build

variable [LinearOrder U] [DecidableEq K] (P : Service U T K L E)

def sealUserId (token : T) (userId : U) : PrivateDirectoryEntry U L := ⟨P.label token, some userId⟩

def decoyEntry (index : ℕ) : PrivateDirectoryEntry U L := ⟨P.decoyLabel P.directory.keyId index, none⟩

def privateDirectorySnapshot (read : List (U × Option (RegisteredUser U T K))) : List (RegisteredUser U T K) :=
  ((read.filterMap Prod.snd).filter fun r => decide (r.directoryKeyId = some P.directory.keyId)).insertionSort
    fun r r' => r.userId ≤ r'.userId

def messageable (users : List (RegisteredUser U T K)) : Option (Finset U) → List (RegisteredUser U T K)
  | none => users
  | some hidden => users.filter fun r => decide (r.userId ∉ hidden)

variable [LinearOrder L]

def sortByLabel (entries : List (PrivateDirectoryEntry U L)) : List (PrivateDirectoryEntry U L) :=
  entries.insertionSort fun e e' => e.label ≤ e'.label

def build (read : List (U × Option (RegisteredUser U T K))) (hidden : Option (Finset U)) :
    List (PrivateDirectoryEntry U L) :=
  let real := (messageable (privateDirectorySnapshot P read) hidden).map fun r => sealUserId P r.directoryToken r.userId
  sortByLabel (real ++ (List.range' real.length (paddedSize real.length - real.length)).map (decoyEntry P))

def built (nowMillis version : ℕ) (hidden : Option (Finset U)) (read : List (U × Option (RegisteredUser U T K))) :
    Built U T K L E where
  entries := build P read hidden
  hidden := hidden
  version := version
  keyId := P.directory.keyId
  builtAtMillis := nowMillis
  etag := P.digest P.directory.keyId version hidden
  read := read

/-- The entry that `withOwnEntry` adds, if it adds one. -/
def ownEntry (hidden : Option (Finset U)) (requester : Option (RegisteredUser U T K)) :
    Option (PrivateDirectoryEntry U L) :=
  match requester, hidden with
  | some r, some hidden =>
    if r.userId ∈ hidden ∧ r.directoryKeyId = some P.directory.keyId then some (sealUserId P r.directoryToken r.userId)
    else none
  | _, _ => none

/-- `withOwnEntry`; the shared list is answered with its tag, any other without one. -/
def view (b : Built U T K L E) (requester : Option (RegisteredUser U T K)) : SnapshotView U L E :=
  match ownEntry P b.hidden requester with
  | some own => ⟨sortByLabel (b.entries ++ [own]), none⟩
  | none => ⟨b.entries, some b.etag⟩

end Build

def Built.isFresh [DecidableEq K] (version : ℕ) (keyId : K) (nowMillis : ℕ) (b : Built U T K L E) : Bool :=
  decide (b.version = version ∧ b.keyId = keyId ∧ nowMillis < b.builtAtMillis + ttlMillis)

structure Server (U T K L E : Type) [DecidableEq U] where
  registry : UserRegistry U T K
  membershipVersion : ℕ
  cached : Option (Built U T K L E)
  locked : Bool
  now : ℕ

/-- The account whose entry the operation has just written, if this is the last step before the count. -/
def counted : Operation U T K → Option U
  | .caching (.putUser user :: _) => some user.userId
  | .purgingToken userId _ _ => some userId
  | _ => none

def Passed {β : Type} (read : List (U × β)) (u : U) : Prop := u ∈ read.map Prod.fst

instance {β : Type} [DecidableEq U] (read : List (U × β)) (u : U) : Decidable (Passed read u) :=
  inferInstanceAs (Decidable (u ∈ read.map Prod.fst))

namespace Server

section Init

variable [DecidableEq U] [DecidableEq T] [DecidableEq K]

def init (users : Users U T K) : Server U T K L E where
  registry := UserRegistry.loadFromDb users
  membershipVersion := users.rows.card
  cached := none
  locked := false
  now := 0

def pass (n : ℕ) (s : Server U T K L E) : Server U T K L E := { s with now := s.now + n }

def setLocked (b : Bool) (s : Server U T K L E) : Server U T K L E := { s with locked := b }

def setRegistry (r : UserRegistry U T K) (s : Server U T K L E) : Server U T K L E := { s with registry := r }

/-- `membershipVersion.incrementAndGet`. -/
def count (s : Server U T K L E) : Server U T K L E := { s with membershipVersion := s.membershipVersion + 1 }

/-- `cached = built`, at the end of the synchronized block. -/
def publish (b : Built U T K L E) (s : Server U T K L E) : Server U T K L E :=
  { s with
    cached := some b
    locked := false }

/-- `OlmPreKeyStore.keylessUsers`. -/
def keylessUsers (s : Server U T K L E) : Finset U :=
  (s.registry.users.rows.entries.filterMap fun e => if e.2.identities.olmIdentityKey then none else some e.1).toFinset

def directoryEntryOf (D : Directory T K) (u : U) (s : Server U T K L E) : Option (RegisteredUser U T K) :=
  (s.registry.cacheByUserId.get u).filter fun r => decide (r.directoryKeyId = some D.keyId)

end Init

variable [LinearOrder U] [DecidableEq T] [DecidableEq K] [LinearOrder L] (P : Service U T K L E)

def fresh (s : Server U T K L E) (nowMillis version : ℕ) : Option (Built U T K L E) :=
  s.cached.filter (Built.isFresh version P.directory.keyId nowMillis)

def advance (s : Server U T K L E) (e : Look U T) :
    Snapshot U T K L E → Option (Server U T K L E × Snapshot U T K L E)
  | .asking requesterId => some (s, .versioning requesterId s.now)
  | .versioning requesterId now => some (s, .checking requesterId now s.membershipVersion)
  | .checking requesterId now version =>
    match s.fresh P now version with
    | some b => some (s, .answering requesterId now b)
    | none => some (s, .locking requesterId now version)
  | .locking requesterId now version =>
    if s.locked then none else some (s.setLocked true, .rechecking requesterId now version)
  | .rechecking requesterId now version =>
    match s.fresh P now version with
    | some b => some (s.setLocked false, .answering requesterId now b)
    | none => some (s, .querying requesterId now version)
  | .querying requesterId now version =>
    some (s, .building requesterId now version (if e.reading.fails then none else some s.keylessUsers) [])
  | .building requesterId now version hidden read =>
    match e.visit with
    | some u =>
      if Passed read u then none
      else some (s, .building requesterId now version hidden ((u, s.registry.cacheByUserId.get u) :: read))
    | none =>
      -- an entry that cannot be sealed fails the request
      if e.reading.fails then some (s.setLocked false, .failed)
      else if ∀ x ∈ s.registry.cacheByUserId.entries, Passed read x.1 then
        some (s, .publishing requesterId now (built P now version hidden read))
      else none
  | .publishing requesterId now b => some (s.publish b, .answering requesterId now b)
  | .answering requesterId now b =>
    some (s, .answered requesterId now b (view P b (s.directoryEntryOf P.directory requesterId)))
  | .answered _ _ _ _ | .failed => none

def exec (s : Server U T K L E) (t : Thread U T K L E) (e : Look U T) :
    Option (Server U T K L E × Thread U T K L E) :=
  match t with
  | .operation op =>
    (Registry.exec P.directory s.registry op e.reading).map fun next =>
      ((s.pass e.elapsed).setRegistry next.1, (counted op).elim (.operation next.2) fun u => .counting u next.2)
  | .counting _ op => some ((s.pass e.elapsed).count, .operation op)
  | .snapshot x => ((s.pass e.elapsed).advance P e x).map fun next => (next.1, .snapshot next.2)

end Server

section Step

variable [LinearOrder U] [DecidableEq T] [DecidableEq K] [LinearOrder L] (P : Service U T K L E)

abbrev State (U T K L E : Type) [LinearOrder U] := Pool (Server U T K L E) (Thread U T K L E)

abbrev Step (U T : Type) := Pool.Label (Request U T) (Look U T)

def init (users : Users U T K) : State U T K L E := ⟨.init users, []⟩

def step : State U T K L E → Step U T → Option (State U T K L E) := Pool.step spawn (Server.exec P)

end Step

end Snapshots
end SecureChat
