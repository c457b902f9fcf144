import Mathlib.Data.Int.Basic
import Mathlib.Logic.Function.Basic
import SecureChat.Collections
import SecureChat.ThreadPool
/-!
# CredentialState — an account's credential epoch and refresh generation

The `users` row of an account holds a credential epoch, which every token carries, and a refresh generation, which a
refresh token also carries.  Server instances keep a short-lived copy of the row, and Redis keeps the successor of a
rotated generation for a while.  Requests of any instance work on these in single statements, in any order.
-/
namespace SecureChat
namespace Credentials

/-- The values are random 128-bit strings in the source; here they are numbered as they are drawn. -/
structure Snapshot where
  credentialEpoch : ℕ
  refreshGeneration : ℕ
deriving DecidableEq

structure CachedSnapshot where
  snapshot : Snapshot
  loadedAtMs : ℤ

def CACHE_TTL_MS : ℤ := 10000

inductive Kind
  | rotated
  | redeemed
  | reauthenticated
deriving DecidableEq

/-- What a presented refresh token was found to yield, with the row as the deciding statement left it and the epochs
whose rotation had returned by then. -/
structure Yield where
  presented : Snapshot
  kind : Kind
  issued : Snapshot
  row : Snapshot
  returned : List (ℕ × ℕ)
deriving DecidableEq

structure Acceptance where
  instanceId : ℕ
  epoch : ℕ
  returned : List (ℕ × ℕ)
deriving DecidableEq

/-- The row with every `UPDATE` it has seen, as what it replaced and by what. -/
structure Users where
  row : Snapshot
  nextValue : ℕ
  updates : List (Snapshot × Snapshot)

namespace Users

def write (u : Users) (next : Snapshot) (nextValue : ℕ) : Users := ⟨next, nextValue, u.updates ++ [(u.row, next)]⟩

/-- `UPDATE users SET refresh_generation = ? WHERE refresh_generation = ?`. -/
def rotateRefreshGeneration (u : Users) (presentedGeneration : ℕ) : Option Users :=
  if u.row.refreshGeneration = presentedGeneration then
    some (u.write ⟨u.row.credentialEpoch, u.nextValue⟩ (u.nextValue + 1))
  else none

/-- `UPDATE users SET credential_epoch = ?, refresh_generation = ? WHERE credential_epoch = COALESCE(?, …)`. -/
def rotateCredentialEpoch (u : Users) (expectedEpoch : Option ℕ) : Users :=
  if expectedEpoch.getD u.row.credentialEpoch = u.row.credentialEpoch then
    u.write ⟨u.nextValue, u.nextValue + 1⟩ (u.nextValue + 2)
  else u

def earlierEpochs (u : Users) : List ℕ :=
  (u.updates.map fun w => w.1.credentialEpoch).filter fun e => decide (e ≠ u.row.credentialEpoch)

end Users

/-- The row, the successors in Redis, the instances' cached copies and the refresh tokens handed out; then what tokens
yielded, what checks accepted, and by instance the epochs whose rotation has dropped the cached copy or has returned. -/
structure Account where
  users : Users
  graces : Table ℕ ℕ
  cache : ℕ → Option CachedSnapshot
  tokens : List Snapshot
  yields : List Yield
  accepted : List Acceptance
  dropped : List (ℕ × ℕ)
  returned : List (ℕ × ℕ)

namespace Account

def registered : Account where
  users := ⟨⟨0, 1⟩, 2, []⟩
  graces := Table.empty
  cache := fun _ => none
  tokens := []
  yields := []
  accepted := []
  dropped := []
  returned := []

abbrev row (a : Account) : Snapshot := a.users.row

def forget (a : Account) (i : ℕ) : Account := { a with cache := Function.update a.cache i none }

def yield (a : Account) (presented : Snapshot) (kind : Kind) (issued : Snapshot) : Account :=
  { a with yields := a.yields ++ [⟨presented, kind, issued, a.row, a.returned⟩] }

end Account

inductive Purpose
  | access (epoch : ℕ)
  | refresh (token : Snapshot)
  | reauth (token : Snapshot)
deriving DecidableEq

def Purpose.epoch : Purpose → ℕ
  | .access e => e
  | .refresh token => token.credentialEpoch
  | .reauth token => token.credentialEpoch

def Purpose.token : Purpose → Option Snapshot
  | .access _ => none
  | .refresh token => some token
  | .reauth token => some token

inductive Task
  | verifying (p : Purpose)
  | looking (p : Purpose) (returned : List (ℕ × ℕ))
  | loading (p : Purpose) (returned : List (ℕ × ℕ)) (now : ℤ)
  | filling (p : Purpose) (returned : List (ℕ × ℕ)) (now : ℤ) (loaded : Snapshot)
  | proving (token : Snapshot)
  | refetching (token : Snapshot)
  | rotating (token : Snapshot) (kind : Kind) (generation : ℕ)
  | forgetting (token : Snapshot) (kind : Kind) (previous : ℕ) (rotated : Option Snapshot)
  | remembering (previous : ℕ) (rotated : Snapshot)
  | redeeming (token : Snapshot)
  | clearing (token : Snapshot) (successor : ℕ)
  | comparing (token : Snapshot) (successor : ℕ)
  | answering (issued : Snapshot)
  | revoking (expectedEpoch : Option ℕ)
  | invalidating (earlier : List ℕ)
  | returning (earlier : List ℕ)
  | dropping
  | issuing
  | lapsing (generation : ℕ)
  | finished
deriving DecidableEq

/-- `refused`: the statement was not carried out; `lost`: it was, but its answer did not arrive. -/
inductive Fault
  | none
  | refused
  | lost
deriving DecidableEq

/-- What an operation reads of its environment: the clock, how its connection fares and whether the signature under a
device challenge holds. -/
structure Reading where
  now : ℤ
  fault : Fault
  proved : Bool

/-- What `accessClaims` and `refreshClaims` do with the snapshot they have. -/
def conclude (i : ℕ) (a : Account) (p : Purpose) (returned : List (ℕ × ℕ)) (state : Snapshot) : Account × Task :=
  if p.epoch ≠ state.credentialEpoch then (a, .finished)
  else
    match p with
    | .access epoch => ({ a with accepted := a.accepted ++ [⟨i, epoch, returned⟩] }, .finished)
    | .refresh token => (a, .rotating token .rotated token.refreshGeneration)
    | .reauth token => (a, .proving token)

def Account.fill (a : Account) (i : ℕ) (now : ℤ) (loaded : Snapshot) : Account :=
  { a with cache := Function.update a.cache i (some ⟨loaded, now⟩) }

theorem Account.cache_forget (a : Account) (i j : ℕ) : (a.forget i).cache j = if j = i then none else a.cache j :=
  Function.update_apply a.cache i none j

theorem Account.cache_fill (a : Account) (i j : ℕ) (now : ℤ) (loaded : Snapshot) :
    (a.fill i now loaded).cache j = if j = i then some ⟨loaded, now⟩ else a.cache j :=
  Function.update_apply a.cache i (some ⟨loaded, now⟩) j

def fresh (now : ℤ) (c : CachedSnapshot) : Bool := decide (now - c.loadedAtMs < CACHE_TTL_MS)

/-- One statement or memory operation of a request on instance `i`. -/
def Task.exec (i : ℕ) (a : Account) (r : Reading) : Task → Option (Account × Task)
  -- a refresh token passes the signature check if it was handed out
  | .verifying p => some (a, if p.token.all fun t => decide (t ∈ a.tokens) then .looking p a.returned else .finished)
  -- `cachedSnapshot`: look, load, fill
  | .looking p returned =>
    match (a.cache i).filter (fresh r.now) with
    | some c => some (conclude i a p returned c.snapshot)
    | none => some (a, .loading p returned r.now)
  | .loading p returned now => some (a, if r.fault = .none then .filling p returned now a.row else .finished)
  | .filling p returned now loaded =>
    some (conclude i (a.fill i now loaded) p returned loaded)
  -- `DeviceReauth.reauthenticate` after the claims
  | .proving token =>
    if r.fault = .none ∧ r.proved = true then some (a.forget i, .refetching token) else some (a, .finished)
  | .refetching token =>
    if r.fault = .none ∧ a.row.credentialEpoch = token.credentialEpoch then
      some (a, .rotating token .reauthenticated a.row.refreshGeneration)
    else some (a, .finished)
  -- `rotateRefreshGeneration`: the `UPDATE`, then `forget` and `rememberRotation`
  | .rotating token kind generation =>
    if r.fault = .refused then some (a, .finished)
    else
      match a.users.rotateRefreshGeneration generation with
      | some users =>
        let a := { a with users := users }
        if r.fault = .lost then some (a, .finished)
        else some (a.yield token kind users.row, .forgetting token kind generation (some users.row))
      | none => some (a, if r.fault = .none then .forgetting token kind generation none else .finished)
  | .forgetting _ _ previous (some rotated) => some (a.forget i, .remembering previous rotated)
  | .forgetting token kind _ none => some (a.forget i, if kind = .rotated then .redeeming token else .finished)
  | .remembering previous rotated =>
    some (if r.fault = .refused then a else { a with graces := a.graces.put previous rotated.refreshGeneration },
      .answering rotated)
  -- `redeemLostRotation`: `GETDEL`, `forget`, `SELECT`
  | .redeeming token =>
    if r.fault = .refused then some (a, .finished)
    else
      match a.graces.get token.refreshGeneration with
      | none => some (a, .finished)
      | some successor =>
        some ({ a with graces := a.graces.remove token.refreshGeneration },
          if r.fault = .lost then .finished else .clearing token successor)
  | .clearing token successor => some (a.forget i, .comparing token successor)
  | .comparing token successor =>
    if r.fault = .none ∧ a.row.refreshGeneration = successor then
      some (a.yield token .redeemed a.row, .answering a.row)
    else some (a, .finished)
  | .answering issued => some ({ a with tokens := a.tokens ++ [issued] }, .finished)
  -- `rotateCredentialEpoch`: the `UPDATE`, then `invalidateEverywhere`
  | .revoking expectedEpoch =>
    if r.fault = .refused then some (a, .finished)
    else
      let users := a.users.rotateCredentialEpoch expectedEpoch
      some ({ a with users := users }, if r.fault = .lost then .finished else .invalidating users.earlierEpochs)
  | .invalidating earlier =>
    some ({ a.forget i with dropped := a.dropped ++ earlier.map fun e => (i, e) }, .returning earlier)
  | .returning earlier => some ({ a with returned := a.returned ++ earlier.map fun e => (i, e) }, .finished)
  -- `forget` alone: an announcement from another instance, or room made in the cache
  | .dropping => some (a.forget i, .finished)
  -- `issueRefreshToken` at a sign-in
  | .issuing => some (if r.fault = .none then { a with tokens := a.tokens ++ [a.row] } else a, .finished)
  -- Redis lets an entry go: its time is up, or it is evicted
  | .lapsing generation => some ({ a with graces := a.graces.remove generation }, .finished)
  | .finished => none

structure Thread where
  instanceId : ℕ
  task : Task
deriving DecidableEq

def Thread.exec (a : Account) (t : Thread) (r : Reading) : Option (Account × Thread) :=
  (t.task.exec t.instanceId a r).map fun next => (next.1, ⟨t.instanceId, next.2⟩)

inductive Demand
  | check (epoch : ℕ)
  | refresh (token : Snapshot)
  | reauthenticate (token : Snapshot)
  | rotateCredentialEpoch (expectedEpoch : Option ℕ)
  | forget
  | signIn
  | lapse (generation : ℕ)

def Demand.task : Demand → Task
  | .check epoch => .verifying (.access epoch)
  | .refresh token => .verifying (.refresh token)
  | .reauthenticate token => .verifying (.reauth token)
  | .rotateCredentialEpoch e => .revoking e
  | .forget => .dropping
  | .signIn => .issuing
  | .lapse g => .lapsing g

structure Request where
  instanceId : ℕ
  demand : Demand

def Request.thread (r : Request) : Thread := ⟨r.instanceId, r.demand.task⟩

abbrev System := Pool Account Thread

abbrev serve : System → Pool.Label Request Reading → Option System := Pool.step Request.thread Thread.exec

def registered : System := ⟨Account.registered, []⟩

inductive Effect (i : ℕ) (a : Account) : Task → Account → Task → Prop
  | quits (t : Task) : Effect i a t a .finished
  | verified (p : Purpose) (h : ∀ t ∈ p.token, t ∈ a.tokens) : Effect i a (.verifying p) a (.looking p a.returned)
  | missed (p : Purpose) (returned : List (ℕ × ℕ)) (now : ℤ) :
      Effect i a (.looking p returned) a (.loading p returned now)
  | hit (p : Purpose) (returned : List (ℕ × ℕ)) (c : CachedSnapshot) (h : a.cache i = some c) :
      Effect i a (.looking p returned) (conclude i a p returned c.snapshot).1 (conclude i a p returned c.snapshot).2
  | read (p : Purpose) (returned : List (ℕ × ℕ)) (now : ℤ) :
      Effect i a (.loading p returned now) a (.filling p returned now a.row)
  | filled (p : Purpose) (returned : List (ℕ × ℕ)) (now : ℤ) (loaded : Snapshot) :
      Effect i a (.filling p returned now loaded) (conclude i (a.fill i now loaded) p returned loaded).1
        (conclude i (a.fill i now loaded) p returned loaded).2
  | proved (token : Snapshot) : Effect i a (.proving token) (a.forget i) (.refetching token)
  | refetched (token : Snapshot) (h : a.row.credentialEpoch = token.credentialEpoch) :
      Effect i a (.refetching token) a (.rotating token .reauthenticated a.row.refreshGeneration)
  | rotated (token : Snapshot) (kind : Kind) (g : ℕ) (users : Users)
      (h : a.users.rotateRefreshGeneration g = some users) :
      Effect i a (.rotating token kind g) (Account.yield { a with users := users } token kind users.row)
        (.forgetting token kind g (some users.row))
  | rotatedLost (token : Snapshot) (kind : Kind) (g : ℕ) (users : Users)
      (h : a.users.rotateRefreshGeneration g = some users) :
      Effect i a (.rotating token kind g) { a with users := users } .finished
  | outrun (token : Snapshot) (kind : Kind) (g : ℕ) :
      Effect i a (.rotating token kind g) a (.forgetting token kind g none)
  | forgotten (token : Snapshot) (kind : Kind) (g : ℕ) (rotated : Snapshot) :
      Effect i a (.forgetting token kind g (some rotated)) (a.forget i) (.remembering g rotated)
  | reused (token : Snapshot) (g : ℕ) : Effect i a (.forgetting token .rotated g none) (a.forget i) (.redeeming token)
  | refused (token : Snapshot) (kind : Kind) (g : ℕ) : Effect i a (.forgetting token kind g none) (a.forget i) .finished
  | remembered (g : ℕ) (rotated : Snapshot) :
      Effect i a (.remembering g rotated) { a with graces := a.graces.put g rotated.refreshGeneration }
        (.answering rotated)
  | unremembered (g : ℕ) (rotated : Snapshot) : Effect i a (.remembering g rotated) a (.answering rotated)
  | taken (token : Snapshot) (g' : ℕ) (h : a.graces.get token.refreshGeneration = some g') :
      Effect i a (.redeeming token) { a with graces := a.graces.remove token.refreshGeneration } (.clearing token g')
  | takenLost (token : Snapshot) :
      Effect i a (.redeeming token) { a with graces := a.graces.remove token.refreshGeneration } .finished
  | cleared (token : Snapshot) (g' : ℕ) : Effect i a (.clearing token g') (a.forget i) (.comparing token g')
  | redeemed (token : Snapshot) (g' : ℕ) (h : a.row.refreshGeneration = g') :
      Effect i a (.comparing token g') (a.yield token .redeemed a.row) (.answering a.row)
  | answered (issued : Snapshot) : Effect i a (.answering issued) { a with tokens := a.tokens ++ [issued] } .finished
  | revoked (e : Option ℕ) :
      Effect i a (.revoking e) { a with users := a.users.rotateCredentialEpoch e }
        (.invalidating (a.users.rotateCredentialEpoch e).earlierEpochs)
  | revokedLost (e : Option ℕ) : Effect i a (.revoking e) { a with users := a.users.rotateCredentialEpoch e } .finished
  | invalidated (earlier : List ℕ) :
      Effect i a (.invalidating earlier) { a.forget i with dropped := a.dropped ++ earlier.map fun e => (i, e) }
        (.returning earlier)
  | returned (earlier : List ℕ) :
      Effect i a (.returning earlier) { a with returned := a.returned ++ earlier.map fun e => (i, e) } .finished
  | dropped : Effect i a .dropping (a.forget i) .finished
  | issued : Effect i a .issuing { a with tokens := a.tokens ++ [a.row] } .finished
  | lapsed (g : ℕ) : Effect i a (.lapsing g) { a with graces := a.graces.remove g } .finished

theorem Task.exec_effect {i : ℕ} {a a' : Account} {t t' : Task} {r : Reading} (h : t.exec i a r = some (a', t')) :
    Effect i a t a' t' := by
  cases t with
  | verifying p =>
    simp only [exec] at h
    split at h <;> cases h
    · exact .verified p fun t ht => of_decide_eq_true (by simp_all)
    · exact .quits _
  | looking p returned =>
    simp only [exec] at h
    cases hc : (a.cache i).filter (fresh r.now) with
    | none =>
      rw [hc] at h
      cases h
      exact .missed p returned r.now
    | some c =>
      rw [hc] at h
      obtain ⟨rfl, rfl⟩ := Prod.ext_iff.1 (Option.some.inj h)
      exact .hit p returned c (Option.filter_eq_some_iff.1 hc).1
  | loading p returned now =>
    simp only [exec] at h
    split at h <;> cases h
    · exact .read p returned now
    · exact .quits _
  | filling p returned now loaded =>
    obtain ⟨rfl, rfl⟩ := Prod.ext_iff.1 (Option.some.inj h)
    exact .filled p returned now loaded
  | proving token =>
    simp only [exec] at h
    split at h <;> cases h
    · exact .proved token
    · exact .quits _
  | refetching token =>
    simp only [exec] at h
    split at h <;> cases h
    · exact .refetched token (by simp_all)
    · exact .quits _
  | rotating token kind g =>
    simp only [exec] at h
    split at h
    · cases h
      exact .quits _
    cases hrot : a.users.rotateRefreshGeneration g with
    | none =>
      rw [hrot] at h
      simp only at h
      split at h <;> cases h
      · exact .outrun token kind g
      · exact .quits _
    | some users =>
      rw [hrot] at h
      simp only at h
      split at h <;> cases h
      · exact .rotatedLost token kind g users hrot
      · exact .rotated token kind g users hrot
  | forgetting token kind g rotated =>
    cases rotated with
    | some rotated =>
      cases h
      exact .forgotten token kind g rotated
    | none =>
      simp only [exec] at h
      split at h <;> cases h
      · subst kind
        exact .reused token g
      · exact .refused token kind g
  | remembering g rotated =>
    simp only [exec] at h
    split at h <;> cases h
    · exact .unremembered g rotated
    · exact .remembered g rotated
  | redeeming token =>
    simp only [exec] at h
    split at h
    · cases h
      exact .quits _
    cases hget : a.graces.get token.refreshGeneration with
    | none =>
      rw [hget] at h
      cases h
      exact .quits _
    | some g' =>
      rw [hget] at h
      simp only at h
      split at h <;> cases h
      · exact .takenLost token
      · exact .taken token g' hget
  | clearing token g' =>
    cases h
    exact .cleared token g'
  | comparing token g' =>
    simp only [exec] at h
    split at h <;> cases h
    · exact .redeemed token g' (by simp_all)
    · exact .quits _
  | answering issued =>
    cases h
    exact .answered issued
  | revoking e =>
    simp only [exec] at h
    split at h
    · cases h
      exact .quits _
    split at h <;> cases h
    · exact .revokedLost e
    · exact .revoked e
  | invalidating earlier =>
    cases h
    exact .invalidated earlier
  | returning earlier =>
    cases h
    exact .returned earlier
  | dropping =>
    cases h
    exact .dropped
  | issuing =>
    simp only [exec] at h
    split at h <;> cases h
    · exact .issued
    · exact .quits _
  | lapsing g =>
    cases h
    exact .lapsed g
  | finished => cases h

/-- The next `n` operations of a request, with nothing in their way. -/
def onward (thread n : ℕ) : List (Pool.Label Request Reading) := List.replicate n (.step thread ⟨0, .none, true⟩)

theorem Thread.exec_some {a a' : Account} {t t' : Thread} {r : Reading} (h : t.exec a r = some (a', t')) :
    t.task.exec t.instanceId a r = some (a', t'.task) ∧ t'.instanceId = t.instanceId := by
  obtain ⟨next, hnext, he⟩ := Option.map_eq_some_iff.1 h
  obtain ⟨rfl, rfl⟩ := Prod.mk.inj he
  exact ⟨hnext, rfl⟩

end Credentials
end SecureChat
