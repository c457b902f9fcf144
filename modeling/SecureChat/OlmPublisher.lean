import Mathlib.Data.Int.Notation
import SecureChat.PreKeyPending
import SecureChat.VodozemacStore
/-!
# OlmPublisher — publication attempts, inbound sessions and the prekey server

The client's record, any number of `publishIfNeeded` and inbound-session calls on it, and the server of
`OlmPreKeyStore`.  Call `c` posts upload `c`; from then on the server takes its own steps, whether or not the call still
waits.  A call suspends where the source awaits: before it reads the pickle, while it uploads, before it writes the
pickle and before it marks the fallback key.  `throw` is any exception: a rejection, a lost answer, a time limit.
-/
namespace SecureChat
namespace Publisher

open Olm

variable {α κ : Type}

def targetOneTimeKeys : ℕ := 50

def replenishThreshold : ℕ := 20

def fallbackRotationInterval : ℤ := 7 * 24 * 60 * 60 * 1000

def shouldRotateFallback (fallbackPublishedAt : Option ℤ) (now : ℤ) : Bool :=
  fallbackPublishedAt.all fun t => decide (fallbackRotationInterval ≤ now - t)

/-- A publication inside its `withAccount`: the record it read, its account and its request. -/
structure Attempt (α κ : Type) where
  base : Option α
  account : α
  request : PreKeys.PreKeyUploadRequest ℕ κ

/-- An inbound session inside its `withAccount`, which used `key`. -/
structure Receipt (α κ : Type) where
  base : Option α
  account : α
  key : κ

inductive Call (α κ : Type) where
  | idle
  | opening (fallbackPublishedAt : Option ℤ) (now : ℤ)
  | uploading (attempt : Attempt α κ) (now : ℤ)
  | writing (attempt : Attempt α κ) (published : Option ℤ)
  | marking (now : ℤ)
  | receiving (receipt : Receipt α κ)
  | done

def Call.attempt : Call α κ → Option (Attempt α κ)
  | .uploading a _ | .writing a _ => some a
  | _ => none

def Call.unposted : Call α κ → Option (Attempt α κ)
  | .uploading a _ => some a
  | _ => none

def Call.receipt : Call α κ → Option (Receipt α κ)
  | .receiving r => some r
  | _ => none

/-- `started` is a ghost: the calls begun so far. -/
structure State (α κ : Type) where
  record : Option α
  fallbackPublishedAt : Option ℤ
  calls : ℕ → Call α κ
  started : List ℕ
  server : PreKeys.State ℕ κ

/-- `identityKeys` are those of the account a call creates if there is none, `fresh` the one-time keys it generates. -/
inductive Event (κ : Type) where
  | publish (c : ℕ) (createAccountIfMissing : Bool) (now : ℤ)
  | withAccount (c : ℕ) (identityKeys : κ × κ) (fresh : ℕ → κ) (fallbackKey : κ)
  | post (c : ℕ) (epoch : ℕ)
  | answer (c : ℕ)
  | tooManyRequests (c : ℕ)
  | throw (c : ℕ)
  | writePickle (c : ℕ)
  | markFallbackPublished (c : ℕ)
  | receive (c : ℕ) (identityKeys : κ × κ) (key : κ)
  | server (e : PreKeys.Event ℕ κ)

/-- The account `withAccount` opens. -/
def openAccount (V : Vodozemac α κ) (identityKeys : κ × κ) (record : Option α) : α :=
  record.getD (V.createAccount identityKeys)

def replenish (V : Vodozemac α κ) (fresh : ℕ → κ) (a : α) : α :=
  if V.storedOneTimeKeyCount a < replenishThreshold then
    V.generateOneTimeKeys ((List.range (targetOneTimeKeys - V.storedOneTimeKeyCount a)).map fresh) a
  else a

/-- The callback of `_publish` up to its upload. -/
def prepare (V : Vodozemac α κ) (record : Option α) (identityKeys : κ × κ) (rotate : Bool) (fresh : ℕ → κ)
    (fallbackKey : κ) : Attempt α κ :=
  let a := replenish V fresh (openAccount V identityKeys record)
  let account := if rotate then V.generateFallbackKey fallbackKey a else a
  { base := record
    account := account
    request := {
      olmIdentityKey := (V.identityKeys account).1
      olmSigningKey := (V.identityKeys account).2
      olmFallbackKey := if rotate then some ⟨fallbackKey, V.sign account fallbackKey⟩ else none
      olmOneTimeKeys := (V.unpublishedOneTimeKeys a).map fun k => ⟨k.keyId, k.publicKey⟩ } }

namespace State

def init : State α κ := ⟨none, none, fun _ => .idle, [], PreKeys.State.init⟩

def setCall (c : ℕ) (x : Call α κ) (s : State α κ) : State α κ := { s with calls := Function.update s.calls c x }

def setServer (s : State α κ) (server : PreKeys.State ℕ κ) : State α κ := { s with server := server }

def step [DecidableEq κ] (V : Vodozemac α κ) (F : PreKeys.Format ℕ κ) (s : State α κ) : Event κ → Option (State α κ)
  | .publish c createAccountIfMissing now =>
    match s.calls c with
    | .idle =>
      if !createAccountIfMissing && s.record.isNone then none
      else some { s.setCall c (.opening s.fallbackPublishedAt now) with started := c :: s.started }
    | _ => none
  | .withAccount c identityKeys fresh fallbackKey =>
    match s.calls c with
    | .opening publishedAt now =>
      let a := prepare V s.record identityKeys (shouldRotateFallback publishedAt now) fresh fallbackKey
      if a.request.olmOneTimeKeys.isEmpty && a.request.olmFallbackKey.isNone && publishedAt.isSome then
        some (s.setCall c (.writing a none))
      else some (s.setCall c (.uploading a now))
    | _ => none
  | .post c epoch =>
    match s.calls c with
    | .uploading a _ => (PreKeys.State.step F s.server (.upload c a.request epoch)).map s.setServer
    | _ => none
  | .answer c =>
    match s.calls c with
    | .uploading a now =>
      if (s.server.uploads c).accepted then
        some (s.setCall c (.writing { a with account := V.markKeysAsPublished a.account }
          (if a.request.olmFallbackKey.isSome then some now else none)))
      else none
    | _ => none
  | .tooManyRequests c =>
    match s.calls c with
    | .uploading a _ => if (s.server.uploads c).posted then none else some (s.setCall c (.writing a none))
    | _ => none
  | .throw c =>
    match s.calls c with
    | .idle | .done => none
    | _ => some (s.setCall c .done)
  | .writePickle c =>
    match s.calls c with
    | .writing a (some now) => some { s.setCall c (.marking now) with record := some a.account }
    | .writing a none => some { s.setCall c .done with record := some a.account }
    | .receiving r => some { s.setCall c .done with record := some r.account }
    | _ => none
  | .markFallbackPublished c =>
    match s.calls c with
    | .marking now =>
      some { s.setCall c .done with fallbackPublishedAt := if s.record.isSome then some now else s.fallbackPublishedAt }
    | _ => none
  | .receive c identityKeys key =>
    match s.calls c with
    | .idle =>
      match V.createInboundSession key (openAccount V identityKeys s.record) with
      | some a => some { s.setCall c (.receiving ⟨s.record, a, key⟩) with started := c :: s.started }
      | none => some { s.setCall c .done with started := c :: s.started }
    | _ => none
  | .server e =>
    match e with
    | .upload _ _ _ => none
    | _ => (PreKeys.State.step F s.server e).map s.setServer

end State

/-! ## What the server can serve -/

def recordPrevious (V : Vodozemac α κ) : Option α → Option κ
  | none => none
  | some a => V.previousFallbackKey a

def Supports (V : Vodozemac α κ) (record : Option α) (k : κ) : Prop :=
  recordFallback V record = some k ∨ recordPrevious V record = some k

/-- **Every key the server can serve has its private half in the record**, a fallback key as the current or as the one
before it. -/
structure Backed (V : Vodozemac α κ) (s : State α κ) : Prop where
  pool : ∀ k ∈ s.server.account.pool, k ∈ recordKeys V s.record
  fallback : ∀ k, s.server.account.fallback = some k → Supports V s.record k

/-- Nothing was added to the record since a call read `base`. -/
def Unadded (V : Vodozemac α κ) (s : State α κ) (base : Option α) : Prop :=
  (∀ k ∈ recordKeys V s.record, k ∈ recordKeys V base) ∧ recordFallback V s.record = recordFallback V base ∧
    recordPrevious V s.record = recordPrevious V base

/-- The server has the key in its pool or may still get it there: from an upload it works on, or from one not yet
posted. -/
def Served (s : State α κ) (k : κ) : Prop :=
  k ∈ s.server.account.pool ∨ ∃ d ∈ s.started, k ∈ (s.server.uploads d).pending ∨
    (s.server.uploads d).posted = false ∧ ∃ a ∈ (s.calls d).unposted, k ∈ a.request.keys

/-- An attempt that ends with an exception leaves nothing of its own behind: a refused upload no fallback key, and one
that was accepted or goes on only one-time keys of the record it read. -/
def Abandonable (V : Vodozemac α κ) (s : State α κ) (c : ℕ) (a : Attempt α κ) : Prop :=
  if (s.server.uploads c).posted then
    if (s.server.uploads c).rejected then ∀ k ∈ s.server.account.fallback, a.request.fallback ≠ some k
    else a.request.fallback = none ∧ ∀ k ∈ a.request.keys, k ∈ recordKeys V a.base
  else True

def Superseding (V : Vodozemac α κ) (s : State α κ) (a : Attempt α κ) : Prop :=
  a.request.fallback = none ∨ ∀ k ∈ s.server.account.fallback, recordPrevious V a.base = some k →
    recordFallback V a.base = some k ∨ a.request.fallback = some k

/-- **The condition under which the pool is backed.** -/
def Sound (V : Vodozemac α κ) (s : State α κ) : Event κ → Prop
  | .throw c => ∀ a ∈ (s.calls c).attempt, Abandonable V s c a
  | .writePickle c => (∀ a ∈ (s.calls c).attempt, Unadded V s a.base ∧ Superseding V s a) ∧
      ∀ r ∈ (s.calls c).receipt, Unadded V s r.base ∧ ¬Served s r.key
  | _ => True

section

variable [DecidableEq κ] (V : Vodozemac α κ) (s : State α κ)

instance (k : κ) : Decidable (Supports V s.record k) := inferInstanceAs (Decidable (_ ∨ _))

instance (base : Option α) : Decidable (Unadded V s base) :=
  inferInstanceAs (Decidable ((∀ k ∈ recordKeys V s.record, k ∈ recordKeys V base) ∧ _ ∧ _))

instance (k : κ) : Decidable (Served s k) :=
  inferInstanceAs (Decidable (_ ∨ ∃ d ∈ s.started, _ ∨ _ ∧ ∃ a ∈ (s.calls d).unposted, k ∈ a.request.keys))

instance (c : ℕ) (a : Attempt α κ) : Decidable (Abandonable V s c a) := by
  unfold Abandonable
  infer_instance

instance (a : Attempt α κ) : Decidable (Superseding V s a) :=
  inferInstanceAs (Decidable (_ ∨ ∀ k ∈ s.server.account.fallback, _ → _))

instance : ∀ e, Decidable (Sound V s e)
  | .throw c => inferInstanceAs (Decidable (∀ a ∈ (s.calls c).attempt, Abandonable V s c a))
  | .writePickle c => inferInstanceAs (Decidable ((∀ a ∈ (s.calls c).attempt, Unadded V s a.base ∧ Superseding V s a) ∧
      ∀ r ∈ (s.calls c).receipt, Unadded V s r.base ∧ ¬Served s r.key))
  | .publish .. | .withAccount .. | .post .. | .answer _ | .tooManyRequests _ | .markFallbackPublished _
  | .receive .. | .server _ => inferInstanceAs (Decidable True)

end

end Publisher
end SecureChat
