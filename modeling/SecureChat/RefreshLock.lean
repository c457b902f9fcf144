import SecureChat.ThreadPool
/-!
# RefreshLock — `withRefreshLock`, one operation at a time

The isolates of one process share the owner file and the lock file.  Within an isolate the calls wait for each other
(`_refreshTail`); between isolates only the exclusive creation of the owner file orders them, for a POSIX lock lets
every isolate of its process pass.  A file operation, a look at the clock and the end of the action are a step each, and
time may pass before any of them.  An isolate may stop at any step, with all its calls.

`number` tells the owner files of a path apart and `began` says since when an action runs; the code reads neither.
-/
namespace SecureChat
namespace RefreshLock

def isolateLockStale : ℕ := 90000

def isolateLockWait : ℕ := 45000

/-- The file `.refresh.owner`, with its time of modification in milliseconds. -/
structure OwnerFile where
  number : ℕ
  modified : ℕ
deriving DecidableEq

/-- Where a call is.  `deadline`, `delay` and `owner` are the variables of `_acquireIsolateLock`; `failed` says that an
exception is on its way through the `finally` block. -/
inductive Phase where
  | calling
  | queued
  | creating (deadline delay : ℕ)
  | refused (deadline delay : ℕ)
  | inspecting (deadline delay now : ℕ)
  | deleting (deadline delay judged : ℕ)
  | fresh (deadline delay : ℕ)
  | delaying (deadline delay wake : ℕ)
  | opening (owner : Option ℕ)
  | locking (owner : Option ℕ)
  | abandoning (owner : Option ℕ)
  | acting (owner : Option ℕ) (handle : Bool) (began : ℕ)
  | unlocking (owner : Option ℕ) (failed : Bool)
  | closing (owner : Option ℕ) (failed : Bool)
  | releasing (owner : Option ℕ) (failed : Bool)
  | finished (returned : Bool)
deriving DecidableEq

/-- A call of `withRefreshLock`: its place in the isolate's queue, and how often it has executed its action. -/
structure Call (I : Type) where
  isolate : I
  ticket : ℕ
  phase : Phase
  acted : ℕ
deriving DecidableEq

/-- What the calls share.  `issued` and `completed` count the calls that an isolate has chained and completed. -/
structure Process (I : Type) where
  now : ℕ
  owner : Option OwnerFile
  created : ℕ
  alive : I → Bool
  issued : I → ℕ
  completed : I → ℕ

/-- What the environment answers: the operation succeeds or throws, the file is created with this time of modification,
or the isolate stops here. -/
inductive Outcome where
  | goes
  | throws
  | created (modified : ℕ)
  | stops
deriving DecidableEq

structure Reading where
  elapsed : ℕ
  outcome : Outcome
deriving DecidableEq

variable {I : Type}

namespace Call

def enter (p : Phase) (c : Call I) : Call I := { c with phase := p }

def act (owner : Option ℕ) (handle : Bool) (now : ℕ) (c : Call I) : Call I :=
  { c with
    phase := .acting owner handle now
    acted := c.acted + 1 }

end Call

namespace Process

def init : Process I where
  now := 0
  owner := none
  created := 0
  alive _ := true
  issued _ := 0
  completed _ := 0

def pass (n : ℕ) (s : Process I) : Process I := { s with now := s.now + n }

def createOwner (modified : ℕ) (s : Process I) : Process I :=
  { s with
    owner := some ⟨s.created, modified⟩
    created := s.created + 1 }

def deleteOwner (s : Process I) : Process I := { s with owner := none }

variable [DecidableEq I]

def stop (i : I) (s : Process I) : Process I := { s with alive := Function.update s.alive i false }

def issue (i : I) (s : Process I) : Process I := { s with issued := Function.update s.issued i (s.issued i + 1) }

def complete (i : I) (s : Process I) : Process I :=
  { s with completed := Function.update s.completed i (s.completed i + 1) }

def advance (s : Process I) (c : Call I) : Phase → Outcome → Option (Process I × Call I)
  | _, .stops => some (s.stop c.isolate, c)
  | .calling, .goes =>
    some (s.issue c.isolate, { c with ticket := s.issued c.isolate, phase := .queued })
  | .queued, .goes =>
    if s.completed c.isolate = c.ticket then some (s, c.enter (.creating (s.now + isolateLockWait) 20)) else none
  | .creating _ _, .created modified =>
    -- a file system may keep whole seconds only
    if s.owner = none ∧ modified ≤ s.now ∧ s.now < modified + 1000 then
      some (s.createOwner modified, c.enter (.opening (some s.created)))
    else none
  | .creating deadline delay, .throws => some (s, c.enter (.refused deadline delay))
  | .refused deadline delay, .goes => some (s, c.enter (.inspecting deadline delay s.now))
  | .inspecting deadline delay now, .goes =>
    match s.owner with
    | some file => some (s, c.enter
        (if isolateLockStale < now - file.modified then .deleting deadline delay file.number
        else .fresh deadline delay))
    | none => some (s, c.enter (.creating deadline delay))
  | .inspecting deadline delay _, .throws => some (s, c.enter (.creating deadline delay))
  | .deleting deadline delay _, .goes => some (s.deleteOwner, c.enter (.creating deadline delay))
  | .deleting deadline delay _, .throws => some (s, c.enter (.creating deadline delay))
  | .fresh deadline delay, .goes =>
    some (s, c.enter (if deadline < s.now then .opening none else .delaying deadline delay (s.now + delay)))
  | .delaying deadline delay wake, .goes =>
    if wake ≤ s.now then some (s, c.enter (.creating deadline (if delay < 500 then delay * 2 else delay))) else none
  | .opening owner, .goes => some (s, c.enter (.locking owner))
  | .opening owner, .throws => some (s, c.act owner false s.now)
  | .locking owner, .goes => some (s, c.act owner true s.now)
  | .locking owner, .throws => some (s, c.enter (.abandoning owner))
  | .abandoning owner, .goes => some (s, c.act owner false s.now)
  | .abandoning owner, .throws => some (s, c.enter (.unlocking owner true))
  | .acting owner handle _, .goes =>
    some (s, c.enter (if handle then .unlocking owner false else .releasing owner false))
  | .acting owner handle _, .throws =>
    some (s, c.enter (if handle then .unlocking owner true else .releasing owner true))
  | .unlocking owner failed, .goes => some (s, c.enter (.closing owner failed))
  | .closing owner failed, .goes => some (s, c.enter (.releasing owner failed))
  | .closing _ _, .throws => some (s.complete c.isolate, c.enter (.finished false))
  | .releasing none failed, .goes => some (s.complete c.isolate, c.enter (.finished !failed))
  | .releasing (some _) failed, .goes =>
    -- by path: whichever file is there
    some (s.deleteOwner.complete c.isolate, c.enter (.finished !failed))
  | .releasing (some _) failed, .throws => some (s.complete c.isolate, c.enter (.finished !failed))
  | _, _ => none

def exec (s : Process I) (c : Call I) (e : Reading) : Option (Process I × Call I) :=
  if s.alive c.isolate then (s.pass e.elapsed).advance c c.phase e.outcome else none

end Process

def withRefreshLock (i : I) : Call I := ⟨i, 0, .calling, 0⟩

def init : Pool (Process I) (Call I) := ⟨.init, []⟩

section Step

variable [DecidableEq I]

def step : Pool (Process I) (Call I) → Pool.Label I Reading → Option (Pool (Process I) (Call I)) :=
  Pool.step withRefreshLock Process.exec

end Step

/-! ## What a call holds -/

namespace Phase

def owner : Phase → Option ℕ
  | .opening o | .locking o | .abandoning o | .acting o _ _ | .unlocking o _ | .closing o _ | .releasing o _ => o
  | .calling | .queued | .creating _ _ | .refused _ _ | .inspecting _ _ _ | .deleting _ _ _ | .fresh _ _
  | .delaying _ _ _ | .finished _ => none

def judged : Phase → Option ℕ
  | .deleting _ _ n => some n
  | .calling | .queued | .creating _ _ | .refused _ _ | .inspecting _ _ _ | .fresh _ _ | .delaying _ _ _ | .opening _
  | .locking _ | .abandoning _ | .acting _ _ _ | .unlocking _ _ | .closing _ _ | .releasing _ _ | .finished _ => none

def asked : Phase → Option ℕ
  | .inspecting _ _ now => some now
  | .calling | .queued | .creating _ _ | .refused _ _ | .deleting _ _ _ | .fresh _ _ | .delaying _ _ _ | .opening _
  | .locking _ | .abandoning _ | .acting _ _ _ | .unlocking _ _ | .closing _ _ | .releasing _ _ | .finished _ => none

/-- The time after which the call no longer waits, once it has seen a file that is not stale. -/
def limit : Phase → Option ℕ
  | .fresh deadline _ => some deadline
  | .calling | .queued | .creating _ _ | .refused _ _ | .inspecting _ _ _ | .deleting _ _ _ | .delaying _ _ _
  | .opening _ | .locking _ | .abandoning _ | .acting _ _ _ | .unlocking _ _ | .closing _ _ | .releasing _ _
  | .finished _ => none

def began : Phase → Option ℕ
  | .acting _ _ b => some b
  | .calling | .queued | .creating _ _ | .refused _ _ | .inspecting _ _ _ | .deleting _ _ _ | .fresh _ _
  | .delaying _ _ _ | .opening _ | .locking _ | .abandoning _ | .unlocking _ _ | .closing _ _ | .releasing _ _
  | .finished _ => none

/-- The call has passed `_acquireIsolateLock` and has not ended. -/
def inside : Phase → Bool
  | .opening _ | .locking _ | .abandoning _ | .acting _ _ _ | .unlocking _ _ | .closing _ _ | .releasing _ _ => true
  | .calling | .queued | .creating _ _ | .refused _ _ | .inspecting _ _ _ | .deleting _ _ _ | .fresh _ _
  | .delaying _ _ _ | .finished _ => false

def running : Phase → Bool
  | .calling | .queued | .finished _ => false
  | .creating _ _ | .refused _ _ | .inspecting _ _ _ | .deleting _ _ _ | .fresh _ _ | .delaying _ _ _ | .opening _
  | .locking _ | .abandoning _ | .acting _ _ _ | .unlocking _ _ | .closing _ _ | .releasing _ _ => true

end Phase

def Call.owner (c : Call I) : Option ℕ := c.phase.owner

def Acts (s : Process I) (c : Call I) : Prop := s.alive c.isolate = true ∧ c.phase.began.isSome = true

def InPlace (s : Process I) (c : Call I) : Prop := ∀ k ∈ c.phase.owner, ∃ f ∈ s.owner, f.number = k

/-! ## Conditions on the steps -/

def Brief (s : Process I) (c : Call I) (e : Reading) (o : List (Call I)) : Prop :=
  ∀ d ∈ c :: o, s.alive d.isolate = true → ∀ b ∈ d.phase.began, s.now + e.elapsed ≤ b + 45000

/-- No owner file is older than 90 seconds while the call that has created it has yet to remove it. -/
def InTime (s : Process I) (c : Call I) (e : Reading) (o : List (Call I)) : Prop :=
  ∀ d ∈ c :: o, s.alive d.isolate = true → ∀ f ∈ s.owner, d.phase.owner = some f.number →
    s.now + e.elapsed ≤ f.modified + isolateLockStale

def Judged (s : Process I) (c : Call I) : Prop := ∀ n ∈ c.phase.judged, ∀ f ∈ s.owner, f.number = n

def Waits (s : Process I) (c : Call I) (e : Reading) : Prop := ∀ l ∈ c.phase.limit, s.now + e.elapsed ≤ l

def Safe (s : Process I) (c : Call I) (e : Reading) (o : List (Call I)) : Prop := InTime s c e o ∧ Judged s c

def Patient (s : Process I) (c : Call I) (e : Reading) (_ : List (Call I)) : Prop := Waits s c e

section Decidable

instance (s : Process I) (c : Call I) : Decidable (Acts s c) :=
  inferInstanceAs (Decidable (_ = true ∧ _ = true))

instance (s : Process I) (c : Call I) : Decidable (InPlace s c) :=
  inferInstanceAs (Decidable (∀ k ∈ c.phase.owner, ∃ f ∈ s.owner, f.number = k))

instance (s : Process I) (c : Call I) (e : Reading) (o : List (Call I)) : Decidable (Brief s c e o) :=
  inferInstanceAs (Decidable (∀ d ∈ c :: o, s.alive d.isolate = true → ∀ b ∈ d.phase.began, _))

instance (s : Process I) (c : Call I) (e : Reading) (o : List (Call I)) : Decidable (Safe s c e o) :=
  inferInstanceAs (Decidable ((∀ d ∈ c :: o, s.alive d.isolate = true → ∀ f ∈ s.owner,
    d.phase.owner = some f.number → _) ∧ ∀ n ∈ c.phase.judged, ∀ f ∈ s.owner, f.number = n))

instance (s : Process I) (c : Call I) (e : Reading) (o : List (Call I)) : Decidable (Patient s c e o) :=
  inferInstanceAs (Decidable (∀ l ∈ c.phase.limit, _))

end Decidable

end RefreshLock
end SecureChat
