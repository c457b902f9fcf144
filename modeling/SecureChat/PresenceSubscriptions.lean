import SecureChat.ConnectionPresence
import SecureChat.ThreadPool
/-!
# PresenceSubscriptions — the map of subscriber sets, one operation at a time

`presenceSubscribers` maps a target to a concurrent set, which is an object of its own: a call that has looked it up
works on that object, whatever the map says by then.  Each operation on the map or on a set is a step.  The views that
`subscriptionCount` and `cleanupSubscriptions` iterate are weakly consistent: they find what was in the map from the
beginning on, and may find, once, what has come or gone since.

`connected` is the registry of connections; its own rules are in `Connections`.  `subscribed` is history: the last
operation of a user for a target was a subscription.
-/
namespace SecureChat
namespace Subscriptions

variable {U : Type}

structure Server (U : Type) where
  presenceSubscribers : Table U ℕ
  sets : U → ℕ → LinkedSet U
  created : ℕ
  connected : U → Bool
  subscribed : U → U → Bool

/-- A call before each of its steps.  `due` is what an iteration has still to find, `seen` what it has found. -/
inductive Call (U : Type) where
  | connecting (userId : U)
  | subscribing (subscriberId targetUserId : U)
  | counting (subscriberId targetUserId : U) (due seen : List (U × ℕ)) (count : ℕ)
  | looking (subscriberId targetUserId : U)
  | creating (subscriberId targetUserId : U)
  | adding (subscriberId targetUserId : U) (set : ℕ)
  | unsubscribing (subscriberId targetUserId : U)
  | removing (subscriberId targetUserId : U) (set : ℕ)
  | checking (subscriberId targetUserId : U) (set : ℕ)
  | dropping (subscriberId targetUserId : U) (set : ℕ)
  | disconnecting (userId : U)
  | leaving (userId : U)
  | cleaning (userId : U) (due seen : List (U × ℕ))
  | finished
deriving DecidableEq

inductive Request (U : Type) where
  | connect (userId : U)
  | subscribePresence (subscriberId targetUserId : U)
  | unsubscribePresence (subscriberId targetUserId : U)
  | disconnect (userId : U)

def spawn : Request U → Call U
  | .connect userId => .connecting userId
  | .subscribePresence subscriberId targetUserId => .subscribing subscriberId targetUserId
  | .unsubscribePresence subscriberId targetUserId => .unsubscribing subscriberId targetUserId
  | .disconnect userId => .disconnecting userId

inductive Reading (U : Type) where
  | next
  | visit (entry : U × ℕ)
deriving DecidableEq

namespace Server

def init : Server U where
  presenceSubscribers := .empty
  sets _ _ := .empty
  created := 0
  connected _ := false
  subscribed _ _ := false

variable [DecidableEq U]

def setMembers (t : U) (k : ℕ) (members : LinkedSet U) (s : Server U) : Server U :=
  { s with sets := Function.update s.sets t (Function.update (s.sets t) k members) }

def setConnected (u : U) (b : Bool) (s : Server U) : Server U :=
  { s with connected := Function.update s.connected u b }

def setSubscribed (u t : U) (b : Bool) (s : Server U) : Server U :=
  { s with subscribed := Function.update s.subscribed u (Function.update (s.subscribed u) t b) }

def forget (u : U) (s : Server U) : Server U :=
  { s with subscribed := Function.update s.subscribed u fun _ => false }

def subscribers (t : U) (s : Server U) : LinkedSet U :=
  match s.presenceSubscribers.get t with
  | some k => s.sets t k
  | none => .empty

def subscriptionCount (u : U) (s : Server U) : ℕ :=
  s.presenceSubscribers.entries.countP fun x => decide (u ∈ s.sets x.1 x.2)

/-- The set that `remove(targetUserId, subscribers)` drops: the one in the map, if it has the same members. -/
def dropped (t : U) (k : ℕ) (s : Server U) : Option ℕ :=
  (s.presenceSubscribers.get t).filter fun k' =>
    decide ((∀ u ∈ (s.sets t k).elems, u ∈ s.sets t k') ∧ ∀ u ∈ (s.sets t k').elems, u ∈ s.sets t k)

def finds (due seen : List (U × ℕ)) (x : U × ℕ) (s : Server U) : Bool :=
  decide ((x ∈ due ∨ s.presenceSubscribers.get x.1 = some x.2) ∧ x ∉ seen)

def exhausted (due : List (U × ℕ)) (s : Server U) : Bool :=
  due.all fun x => decide (s.presenceSubscribers.get x.1 ≠ some x.2)

def exec (s : Server U) : Call U → Reading U → Option (Server U × Call U)
  | .connecting u, .next => some (s.setConnected u true, .finished)
  | .subscribing u t, .next => some (s, .counting u t s.presenceSubscribers.entries [] 0)
  | .counting u t due seen count, .visit x =>
    if s.finds due seen x then
      some (s, .counting u t (due.filter (· ≠ x)) (x :: seen) (if u ∈ s.sets x.1 x.2 then count + 1 else count))
    else none
  | .counting u t due _ count, .next =>
    if s.exhausted due then
      some (s, if Presence.maxPresenceSubscriptions ≤ count then .finished else .looking u t)
    else none
  | .looking u t, .next =>
    match s.presenceSubscribers.get t with
    | some k => some (s, .adding u t k)
    | none => some (s, .creating u t)
  | .creating u t, .next =>
    -- `putIfAbsent` with a new set
    match s.presenceSubscribers.get t with
    | some k => some (s, .adding u t k)
    | none => some ({ s with
        presenceSubscribers := s.presenceSubscribers.assign t s.created
        created := s.created + 1 }, .adding u t s.created)
  | .adding u t k, .next =>
    some ((s.setMembers t k ((s.sets t k).insert u)).setSubscribed u t true, .finished)
  | .unsubscribing u t, .next =>
    match s.presenceSubscribers.get t with
    | some k => some (s, .removing u t k)
    | none => some (s.setSubscribed u t false, .finished)
  | .removing u t k, .next =>
    some ((s.setMembers t k ((s.sets t k).erase u)).setSubscribed u t false, .checking u t k)
  | .checking u t k, .next =>
    some (s, if (s.sets t k).elems = [] then .dropping u t k else .finished)
  | .dropping _ t k, .next =>
    match s.dropped t k with
    | some _ => some ({ s with presenceSubscribers := s.presenceSubscribers.remove t }, .finished)
    | none => some (s, .finished)
  | .disconnecting u, .next => some (s.setConnected u false, .leaving u)
  | .leaving u, .next => some (s, .cleaning u s.presenceSubscribers.entries [])
  | .cleaning u due seen, .visit x =>
    if s.finds due seen x then
      some (s.setMembers x.1 x.2 ((s.sets x.1 x.2).erase u), .cleaning u (due.filter (· ≠ x)) (x :: seen))
    else none
  | .cleaning u due _, .next => if s.exhausted due then some (s.forget u, .finished) else none
  | _, _ => none

end Server

def Call.user : Call U → Option U
  | .counting u _ _ _ _ | .looking u _ | .creating u _ | .adding u _ _ | .removing u _ _ | .checking u _ _
  | .dropping u _ _ | .leaving u | .cleaning u _ _ => some u
  | .connecting _ | .subscribing _ _ | .unsubscribing _ _ | .disconnecting _ | .finished => none

def Call.adds : Call U → Option (U × ℕ)
  | .adding _ t k => some (t, k)
  | _ => none

section Condition

variable [DecidableEq U]

def Alone (u : U) (o : List (Call U)) : Prop := ∀ c ∈ o, c.user ≠ some u

/-- **The condition under which no subscription is lost or leaked**: a call of a user begins once the user's other calls
have ended, and one that subscribes only while the user is connected; a set that is dropped is empty, and no call is
about to add to it; and the cleanup of a user leaves no set without members. -/
def Safe (s : Server U) : Call U → Reading U → List (Call U) → Prop
  | .subscribing u _, _, o => s.connected u = true ∧ Alone u o
  | .unsubscribing u _, _, o => Alone u o
  | .disconnecting u, _, o => Alone u o
  | .dropping _ t k, _, o =>
    ∀ k' ∈ s.dropped t k, (s.sets t k').elems = [] ∧ ∀ c ∈ o, c.adds ≠ some (t, k')
  | .cleaning u _ _, .visit x, _ => u ∈ s.sets x.1 x.2 → ((s.sets x.1 x.2).erase u).elems ≠ []
  | _, _, _ => True

instance (u : U) (o : List (Call U)) : Decidable (Alone u o) := inferInstanceAs (Decidable (∀ c ∈ o, c.user ≠ some u))

instance (s : Server U) : ∀ c e o, Decidable (Safe s c e o)
  | .subscribing u _, _, o => inferInstanceAs (Decidable (s.connected u = true ∧ Alone u o))
  | .unsubscribing u _, _, o => inferInstanceAs (Decidable (Alone u o))
  | .disconnecting u, _, o => inferInstanceAs (Decidable (Alone u o))
  | .dropping _ t k, _, o => inferInstanceAs (Decidable (∀ k' ∈ s.dropped t k,
      (s.sets t k').elems = [] ∧ ∀ c ∈ o, c.adds ≠ some (t, k')))
  | .cleaning u _ _, .visit x, _ => inferInstanceAs (Decidable (u ∈ s.sets x.1 x.2 →
      ((s.sets x.1 x.2).erase u).elems ≠ []))
  | .cleaning _ _ _, .next, _ | .connecting _, _, _ | .counting .., _, _ | .looking .., _, _ | .creating .., _, _
  | .adding .., _, _ | .removing .., _, _ | .checking .., _, _ | .leaving _, _, _ | .finished, _, _ =>
    inferInstanceAs (Decidable True)

end Condition

abbrev State (U : Type) := Pool (Server U) (Call U)

def step [DecidableEq U] : State U → Pool.Label (Request U) (Reading U) → Option (State U) :=
  Pool.step spawn Server.exec

end Subscriptions
end SecureChat
