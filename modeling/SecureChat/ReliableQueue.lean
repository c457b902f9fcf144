import Mathlib
import SecureChat.Redis
/-!
# ReliableQueue — the reliable delivery queue: its scripts and its drain

`ConnectionManager`'s reliable queue of one recipient.  Four kinds of Redis keys: the index (a sorted set of delivery
tokens), one item per token (the sealed frame), the order key (the last score) and the meta hash
(`deliveryToken -> "<byte>:<itemKey>"`).  The enqueue, acknowledge and purge scripts run atomically;
`deliverReliableMessages` is a sequence of separate Redis calls and socket sends, one `drainStep` each.

Item keys are an HMAC of the recipient and the token, so an item is named here by its token.  Scores and the Redis
clock are microseconds: the scripts' milliseconds with three decimals.  A cutoff is milliseconds of the caller's clock.
-/
namespace SecureChat
namespace Reliable

open Redis

def offlineQueueMaxMessages : ℕ := 1000

def offlineQueueMaxBytes : ℕ := 50 * 1024 * 1024

/-- What the queue uses of `ServerPrivacy`: the configured retention, a sealed frame's `string.len`, and
`openQueue`, which throws (`none`) on an envelope it cannot open. -/
structure ServerPrivacy (π μ : Type) where
  offlineQueueTtlSeconds : ℕ
  ttlRange : 60 ≤ offlineQueueTtlSeconds ∧ offlineQueueTtlSeconds ≤ 3600
  len : π → ℕ
  openQueue : π → Option μ

def plainPrivacy : ServerPrivacy ℕ ℕ := ⟨900, by decide, id, some⟩

structure Meta (τ : Type) where
  size : ℕ
  itemKey : τ
deriving DecidableEq

structure Queue (τ π : Type) where
  clock : ℕ
  index : Coll τ ℤ
  item : τ → Option (Volatile π)
  order : Option (Volatile ℤ)
  metaHash : Coll τ (Meta τ)

/-- `ENQUEUE_RELIABLE_SCRIPT`'s answer: `{1, payload}`, `{0, payload}`, `{-1, ''}`. -/
inductive Queued (π : Type) where
  | written (payload : π)
  | existing (payload : π)
  | full
deriving DecidableEq

variable {τ π μ : Type}

namespace Queue

def empty : Queue τ π := ⟨0, Coll.empty, fun _ => none, none, Coll.empty⟩

def nowMs (q : Queue τ π) : ℕ := q.clock / 1000

def tick (d : ℕ) (q : Queue τ π) : Queue τ π :=
  let now := (q.clock + d) / 1000
  { clock := q.clock + d
    index := q.index.sweep now
    item := fun t => Volatile.sweep now (q.item t)
    order := Volatile.sweep now q.order
    metaHash := q.metaHash.sweep now }

def total (q : Queue τ π) : ℕ := (q.metaHash.vals.map Meta.size).sum

variable [LinearOrder τ]

def delItem (t : τ) (q : Queue τ π) : Queue τ π := { q with item := Function.update q.item t none }

/-- `ZREM index token`. -/
def zrem (t : τ) (q : Queue τ π) : Queue τ π := { q with index := q.index.del t }

/-- `HDEL meta token`. -/
def hdel (t : τ) (q : Queue τ π) : Queue τ π := { q with metaHash := q.metaHash.del t }

/-- `DEL index order meta`. -/
def delKeys (q : Queue τ π) : Queue τ π := { q with index := Coll.empty, order := none, metaHash := Coll.empty }

/-- The tokens the scripts take for expired: `ZRANGEBYSCORE index -inf cutoff`. -/
def expired (cutoff : ℤ) (q : Queue τ π) : List τ := q.index.zrangeByScore (cutoff * 1000)

/-- The body of the purge loop: item and ledger entry through the meta hash, then the index token. -/
def dropExpired (q : Queue τ π) (t : τ) : Queue τ π :=
  match q.metaHash.lookup t with
  | some m => ((q.delItem m.itemKey).hdel t).zrem t
  | none => q.zrem t

/-- `PURGE_EXPIRED_FRAGMENT`. -/
def purgeExpired (cutoff : ℤ) (q : Queue τ π) : Queue τ π := (q.expired cutoff).foldl dropExpired q

def nextScore (q : Queue τ π) : ℤ :=
  let previous := (q.order.map Volatile.val).getD 0
  if (q.clock : ℤ) ≤ previous then previous + 1 else q.clock

def store (P : ServerPrivacy π μ) (token : τ) (payload : π) (q : Queue τ π) : Queue τ π :=
  let score := q.nextScore
  let ttl := q.nowMs + P.offlineQueueTtlSeconds * 1000
  { q with
    order := some ⟨score, some ttl⟩
    item := Function.update q.item token (some ⟨payload, some ttl⟩)
    index := (q.index.put token score).expire ttl
    metaHash := (q.metaHash.put token ⟨P.len payload, token⟩).expire ttl }

/-- `ENQUEUE_RELIABLE_SCRIPT`. -/
def enqueue (P : ServerPrivacy π μ) (token : τ) (payload : π) (cutoff : ℤ) (q : Queue τ π) :
    Queued π × Queue τ π :=
  match q.item token with
  | some existing => (.existing existing.val, q)
  | none =>
    let q := q.purgeExpired cutoff
    if offlineQueueMaxMessages ≤ q.index.card then (.full, q)
    else if offlineQueueMaxBytes < q.total + P.len payload then (.full, q)
    else (.written payload, q.store P token payload)

/-- `ACK_RELIABLE_SCRIPT`. -/
def acknowledge (token : τ) (q : Queue τ π) : Bool × Queue τ π :=
  let removed := (q.item token).isSome
  let unindexed := decide (token ∈ q.index.keys)
  let q := ((q.delItem token).zrem token).hdel token
  (removed || unindexed, if q.index.card = 0 then q.delKeys else q)

/-- `PURGE_RELIABLE_SCRIPT`. -/
def purge (cutoff : ℤ) (q : Queue τ π) : Queue τ π :=
  let q := q.purgeExpired cutoff
  if q.index.card = 0 then q.delKeys else q

end Queue

/-- Where a call of `deliverReliableMessages` stands: before the purge, `ZRANGE` or `MGET`, in the loop over the tokens,
or between `DEL item` and `ZREM index` of an item that cannot be opened. -/
inductive Drain (τ π : Type) where
  | idle
  | purging
  | listing
  | reading (tokens : List τ)
  | sending (rest : List (τ × Option π))
  | unindexing (token : τ) (rest : List (τ × Option π))
  | done
deriving DecidableEq

inductive Sent (τ μ : Type) where
  | nothing
  | frame (token : τ) (message : μ)
  | failed
deriving DecidableEq

def Drain.finished : Drain τ π → Bool
  | .idle | .done => true
  | _ => false

/-- `mget` of the items of a list of tokens. -/
def mget (q : Queue τ π) (tokens : List τ) : List (τ × Option π) :=
  tokens.map (fun t => (t, (q.item t).map Volatile.val))

/-- One step of `deliverReliableMessages`: one Redis call or one send.  `cutoff` is read at the purge, `sendOk` is the
socket's answer to a send. -/
def drainStep [LinearOrder τ] (P : ServerPrivacy π μ) (cutoff : ℤ) (sendOk : Bool) (q : Queue τ π) :
    Drain τ π → Option (Drain τ π × Queue τ π × Sent τ μ)
  | .idle | .done => none
  | .purging => some (.listing, q.purge cutoff, .nothing)
  | .listing => some (.reading q.index.zrange, q, .nothing)
  | .reading tokens => some (.sending (mget q tokens), q, .nothing)
  | .sending [] => some (.done, q, .nothing)
  | .sending ((t, none) :: rest) => some (.sending rest, q.zrem t, .nothing)
  | .sending ((t, some envelope) :: rest) =>
    match P.openQueue envelope with
    | none => some (.unindexing t rest, q.delItem t, .nothing)
    | some m => if sendOk then some (.sending rest, q, .frame t m) else some (.done, q, .failed)
  | .unindexing t rest => some (.sending rest, q.zrem t, .nothing)

def Drain.zremNext : Drain τ π → Option τ
  | .sending ((t, none) :: _) => some t
  | .unindexing t _ => some t
  | _ => none

end Reliable
end SecureChat
