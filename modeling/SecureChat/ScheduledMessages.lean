import SecureChat.AsyncTasks
import SecureChat.Csv
import SecureChat.DartInt
/-!
# ScheduledMessages — plans that are sent when they are due

`ScheduledMessageService`, with its table of plans and the alarms of the operating system.  Several runtimes share the
table; each keeps in memory which plans it is processing, and loses that when it stops.  A run reads its plan, connects,
hands the message to the sender for one recipient after the other, and then records that it is complete: a plan that
does not repeat is removed, another one is written back with its next time, and the alarm is set anew.

Left out: the history of the runs with the names it shows, which is only displayed, and the switch for all plans.
-/
namespace SecureChat
namespace Scheduled

open Async
open GroupControl (Text trim)
open Program (get modify whenever)
open scoped GroupControl

inductive ScheduledRepeat
  | once
  | daily
  | custom
deriving DecidableEq

def ScheduledRepeat.name : ScheduledRepeat → Text
  | .once => "once".toList
  | .daily => "daily".toList
  | .custom => "custom".toList

structure ScheduledMessageDraft where
  content : Text
  recipients : List Text
  recipientNames : List Text
  hour : ℤ
  minute : ℤ
  repetition : ScheduledRepeat := .once
  days : List ℤ := []

structure ScheduledMessageEntity where
  id : Text
  messageContent : Text
  repeatType : Text
  repeatDays : Option Text
  hour : ℤ
  minute : ℤ
  recipientIds : Text
  recipientNames : Text
  recipientDisplayNames : Option (List Text)
  isEnabled : Bool
  nextTriggerTime : ℤ
  createdAt : ℤ
deriving DecidableEq

structure Plans where
  rows : Table Text ScheduledMessageEntity
  keyed : ∀ id plan, rows.get id = some plan → plan.id = id

namespace Plans

def get (id : Text) (plans : Plans) : Option ScheduledMessageEntity := plans.rows.get id

def put (plan : ScheduledMessageEntity) (plans : Plans) : Plans where
  rows := plans.rows.put plan.id plan
  keyed id p h := by
    rw [Table.get_put] at h
    split at h
    · cases h
      exact Eq.symm ‹_›
    · exact plans.keyed id p h

def remove (id : Text) (plans : Plans) : Plans where
  rows := plans.rows.remove id
  keyed i p h := by
    rw [Table.get_remove] at h
    split at h
    · cases h
    · exact plans.keyed i p h

theorem get_put (plan : ScheduledMessageEntity) (plans : Plans) (id : Text) :
    (plans.put plan).get id = if id = plan.id then some plan else plans.get id := Table.get_put

theorem get_remove (id : Text) (plans : Plans) (i : Text) :
    (plans.remove id).get i = if i = id then none else plans.get i := Table.get_remove

theorem id_of_get {plans : Plans} {id : Text} {plan : ScheduledMessageEntity} (h : plans.get id = some plan) :
    plan.id = id := plans.keyed id plan h

end Plans

def day : ℤ := 24 * 60 * 60 * 1000

def inWeek (d : ℤ) : Bool := 1 ≤ d && d ≤ 7

/-- Dart's library and the local calendar: `dateTime now hour minute` is that time on the day of `now`.  `sortedBy`
sorts by the time, and `executingPlanId` says for which plan a runtime is the worker. -/
structure Service where
  toUpperCase : Text → Text
  dateTime : ℤ → ℤ → ℤ → ℤ
  weekday : ℤ → ℤ
  sortedBy : List ScheduledMessageEntity → List ScheduledMessageEntity
  executingPlanId : ℕ → Option Text

namespace Service

variable (S : Service)

def parseRepeat (value : Text) : ScheduledRepeat :=
  if S.toUpperCase value = "DAILY".toList then .daily
  else if S.toUpperCase value = "CUSTOM".toList then .custom
  else .once

def parseDays (value : Option Text) : List ℤ :=
  match value with
  | none => []
  | some v => (((v.splitOn ',').filterMap DartInt.tryParse).map Int64.toInt).filter inWeek

def calculateNextTrigger (hour minute : ℤ) (repetition : ScheduledRepeat) (days : List ℤ) (now : ℤ) : ℤ :=
  let target := S.dateTime now hour minute
  let next := if now < target then target else target + day
  match repetition with
  | .once | .daily => next
  | .custom =>
    let validDays := days.filter inWeek
    if validDays = [] then next
    else
      let candidates := (List.range 8).map fun (offset : ℕ) => target + offset * day
      (candidates.find? fun c => validDays.contains (S.weekday c) && decide (now < c)).getD (target + 7 * day)

def csv (value : Text) : List Text := ((value.splitOn ',').map trim).filter (· ≠ [])

def recipients (plan : ScheduledMessageEntity) : List Text := csv plan.recipientIds

def isLast (plan : ScheduledMessageEntity) : Bool :=
  S.parseRepeat plan.repeatType == .once || (recipients plan).isEmpty

/-- The time of a plan, counted from `now`. -/
def nextTrigger (plan : ScheduledMessageEntity) (now : ℤ) : ℤ :=
  S.calculateNextTrigger plan.hour plan.minute (S.parseRepeat plan.repeatType) (parseDays plan.repeatDays) now

def nextPlan (plan : ScheduledMessageEntity) (now : ℤ) : Option ScheduledMessageEntity :=
  if S.isLast plan then none else some { plan with nextTriggerTime := S.nextTrigger plan now }

end Service

namespace ScheduledMessageDraft

variable (draft : ScheduledMessageDraft)

def addressees : List Text → List Text → List (Text × Text) → List (Text × Text)
  | [], _, found => found
  | r :: rest, ns, found =>
    let recipient := trim r
    let name := trim (ns.headD [])
    addressees rest ns.tail
      (if recipient = [] ∨ recipient ∈ found.map Prod.fst then found
      else found ++ [(recipient, if name = [] then recipient else name)])

def named : List (Text × Text) := addressees draft.recipients draft.recipientNames []

def normalizedDays : List ℤ := ([1, 2, 3, 4, 5, 6, 7] : List ℤ).filter draft.days.contains

def valid : Bool :=
  trim draft.content ≠ [] && !draft.named.isEmpty && (0 ≤ draft.hour && draft.hour ≤ 23) &&
    (0 ≤ draft.minute && draft.minute ≤ 59) && !(draft.repetition == .custom && draft.normalizedDays.isEmpty)

def entity (S : Service) (id : Text) (existing : Option ScheduledMessageEntity) (now : ℤ) : ScheduledMessageEntity where
  id := id
  messageContent := trim draft.content
  repeatType := S.toUpperCase draft.repetition.name
  repeatDays :=
    if draft.repetition = .custom then
      some (Csv.join ',' (draft.normalizedDays.map fun d => DartInt.print (Int64.ofInt d)))
    else none
  hour := draft.hour
  minute := draft.minute
  recipientIds := Csv.join ',' (draft.named.map Prod.fst)
  recipientNames := Csv.join ',' (draft.named.map Prod.snd)
  recipientDisplayNames := some (draft.named.map Prod.snd)
  isEnabled := (existing.map ScheduledMessageEntity.isEnabled).getD true
  nextTriggerTime :=
    S.calculateNextTrigger draft.hour draft.minute draft.repetition draft.normalizedDays now
  createdAt := (existing.map ScheduledMessageEntity.createdAt).getD now

end ScheduledMessageDraft

structure Sending where
  plan : Text
  occurrence : ℤ
  recipient : Text
deriving DecidableEq

inductive Wish
  | deleted
  | saved (plan : ScheduledMessageEntity)
  | switched (plan : ScheduledMessageEntity)
deriving DecidableEq

/-- The table, the pending alarms and the runtimes.  The last four fields are history: what was handed to the sender,
how often each plan was written, what its user has made of it last, and which occurrences were the last of their plan.
-/
structure Device where
  plans : Plans
  alarms : Text → Option ℤ := fun _ => none
  processing : ℕ → List Text := fun _ => []
  stopped : ℕ → Bool := fun _ => false
  enabled : ℕ → Bool := fun _ => true
  now : ℤ := 0
  sent : List Sending := []
  writes : Text → ℕ := fun _ => 0
  wish : Text → Option Wish := fun _ => none
  finished : List (Text × ℤ) := []

/-- A run, with the number of writes of its plan when it read it, and the recipients it has handed the message for. -/
structure Run where
  plan : ScheduledMessageEntity
  version : ℕ
  handed : List Text := []
deriving DecidableEq

namespace Device

def setPlans (plans : Plans) (d : Device) : Device := { d with plans := plans }

def setAlarm (id : Text) (alarm : Option ℤ) (d : Device) : Device :=
  { d with alarms := Function.update d.alarms id alarm }

def setProcessing (r : ℕ) (ids : List Text) (d : Device) : Device :=
  { d with processing := Function.update d.processing r ids }

def setNow (now : ℤ) (d : Device) : Device := { d with now := now }

def stop (r : ℕ) (d : Device) : Device := { d with stopped := Function.update d.stopped r true }

def setEnabledHere (r : ℕ) (enabled : Bool) (d : Device) : Device :=
  { d with enabled := Function.update d.enabled r enabled }

def hand (plan : ScheduledMessageEntity) (recipient : Text) (d : Device) : Device :=
  { d with sent := ⟨plan.id, plan.nextTriggerTime, recipient⟩ :: d.sent }

def countWrite (id : Text) (d : Device) : Device := { d with writes := Function.update d.writes id (d.writes id + 1) }

def setWish (id : Text) (wish : Option Wish) (d : Device) : Device :=
  { d with wish := Function.update d.wish id wish }

def setFinished (finished : List (Text × ℤ)) (d : Device) : Device := { d with finished := finished }

/-- The user's operations: what the user wants is what they write.  An operation that has begun after a plan was
finished may take it up again. -/
def savePlan (plan : ScheduledMessageEntity) (version : ℕ) (wish : Wish) (d : Device) : Device :=
  let d' := ((d.setPlans (d.plans.put plan)).countWrite plan.id).setWish plan.id (some wish)
  if d.writes plan.id = version then d'.setFinished (d.finished.filter fun f => f.1 ≠ plan.id) else d'

def deletePlan (id : Text) (d : Device) : Device :=
  ((d.setPlans (d.plans.remove id)).countWrite id).setWish id (some .deleted)

/-- A plan that is there and does not repeat is finished with this occurrence; the user has nothing more to want of it,
unless it was written after the run had read it. -/
def finishPlan (run : Run) (d : Device) : Device :=
  let d' := (d.setPlans (d.plans.remove run.plan.id)).countWrite run.plan.id
  let d'' := if d.writes run.plan.id = run.version then d'.setWish run.plan.id none else d'
  if (d.plans.get run.plan.id).isSome then d''.setFinished ((run.plan.id, run.plan.nextTriggerTime) :: d.finished)
  else d''

/-- `completeRun`, with the next plan. -/
def completeRun (run : Run) (next : Option ScheduledMessageEntity) (d : Device) : Device :=
  match next with
  | none => d.finishPlan run
  | some plan => (d.setPlans (d.plans.put plan)).countWrite plan.id

section CompleteRun

variable {d : Device} {run : Run} {id : Text}

@[simp] theorem sent_completeRun (next : Option ScheduledMessageEntity) : (d.completeRun run next).sent = d.sent := by
  cases next with
  | none =>
    simp only [completeRun, finishPlan]
    split <;> split <;> rfl
  | some plan => rfl

@[simp] theorem processing_completeRun (next : Option ScheduledMessageEntity) :
    (d.completeRun run next).processing = d.processing := by
  cases next with
  | none =>
    simp only [completeRun, finishPlan]
    split <;> split <;> rfl
  | some plan => rfl

@[simp] theorem stopped_completeRun (next : Option ScheduledMessageEntity) :
    (d.completeRun run next).stopped = d.stopped := by
  cases next with
  | none =>
    simp only [completeRun, finishPlan]
    split <;> split <;> rfl
  | some plan => rfl

theorem plans_completeRun (next : Option ScheduledMessageEntity) :
    (d.completeRun run next).plans = match next with
      | none => d.plans.remove run.plan.id
      | some plan => d.plans.put plan := by
  cases next with
  | none =>
    simp only [completeRun, finishPlan]
    split <;> split <;> rfl
  | some plan => rfl

@[simp] theorem alarms_completeRun (next : Option ScheduledMessageEntity) :
    (d.completeRun run next).alarms = d.alarms := by
  cases next with
  | none =>
    simp only [completeRun, finishPlan]
    split <;> split <;> rfl
  | some plan => rfl

theorem writes_finishPlan :
    (d.finishPlan run).writes = Function.update d.writes run.plan.id (d.writes run.plan.id + 1) := by
  simp only [finishPlan]
  split <;> split <;> rfl

theorem wish_finishPlan : (d.finishPlan run).wish id =
    if id = run.plan.id ∧ d.writes run.plan.id = run.version then none else d.wish id := by
  by_cases hid : id = run.plan.id
  · subst hid
    simp only [finishPlan]
    split <;> split <;> simp_all [setWish, setFinished, countWrite, setPlans]
  · simp only [finishPlan]
    split <;> split <;> simp [hid, setWish, setFinished, countWrite, setPlans]

theorem finished_finishPlan : (d.finishPlan run).finished =
    if (d.plans.get run.plan.id).isSome then (run.plan.id, run.plan.nextTriggerTime) :: d.finished
    else d.finished := by
  simp only [finishPlan]
  split <;> split <;> rfl

end CompleteRun

end Device

inductive Step
  | ensureConnected
  | getRecipient
  | send
  | completeRun (next : Option ScheduledMessageEntity)
deriving DecidableEq

inductive Op where
  | getDueMessages
  | getById (id : Text)
  | reading (id : Text) (found : Option ScheduledMessageEntity) (version : ℕ)
  | running (run : Run) (step : Step)
  | cancel (id : Text)
  | register (plan : ScheduledMessageEntity)
  | insert (plan : ScheduledMessageEntity) (version : ℕ)
  | deleteById (id : Text)
deriving DecidableEq

structure Wait where
  runtime : ℕ
  run : Option Text := none
  op : Op
deriving DecidableEq

structure Answer where
  yes : Bool := true

abbrev Call (α : Type) := Program Answer Wait Device Unit α

def on (w : Wait) : Call Answer := Program.wait () w

def write (w : Wait) (f : Device → Device) : Call Unit := .await w (fun _ d => f d) (fun _ _ => .pure ()) (.throw ())

def ready (w : Wait) (_ : Option Answer) (d : Device) : Bool := !d.stopped w.runtime

section Scheduler

variable (S : Service) (r : ℕ) (run : Option Text) (executing : Option Text)

/-- `cancelScheduledMessage`: a worker does not cancel itself. -/
def cancelScheduledMessage (id : Text) : Call Unit :=
  if executing = some id then pure () else write ⟨r, run, .cancel id⟩ (·.setAlarm id none)

def scheduleMessage (plan : ScheduledMessageEntity) : Call Unit := do
  cancelScheduledMessage r run executing plan.id
  whenever plan.isEnabled (write ⟨r, run, .register plan⟩ (·.setAlarm plan.id (some plan.nextTriggerTime)))

end Scheduler

section Processing

variable (S : Service) (r : ℕ)

/-- `_ensureConnected`: a failure is caught. -/
def ensureConnected (run : Run) : Call Bool := do
  let result ← (on ⟨r, some run.plan.id, .running run .ensureConnected⟩).attempt
  match result with
  | .ok answer => pure answer.yes
  | .error _ => pure false

/-- The message goes to one recipient after the other, whatever comes of each. -/
def sendAll (plan : ScheduledMessageEntity) (version : ℕ) : List Text → List Text → Call Unit
  | _, [] => pure ()
  | handed, recipient :: rest => do
    let _ ← on ⟨r, some plan.id, .running ⟨plan, version, handed⟩ .getRecipient⟩
    modify (·.hand plan recipient)
    let _ ← (on ⟨r, some plan.id, .running ⟨plan, version, handed ++ [recipient]⟩ .send⟩).attempt
    sendAll plan version (handed ++ [recipient]) rest

def complete (run : Run) : Call Bool := do
  let d ← get
  let next := S.nextPlan run.plan d.now
  write ⟨r, some run.plan.id, .running run (.completeRun next)⟩ (·.completeRun run next)
  match next with
  | none => cancelScheduledMessage r (some run.plan.id) (S.executingPlanId r) run.plan.id
  | some updated => scheduleMessage r (some run.plan.id) (S.executingPlanId r) updated
  pure true

def runPlan (plan : ScheduledMessageEntity) (version : ℕ) : Call Bool := do
  let connected ← ensureConnected r ⟨plan, version, []⟩
  if ¬ connected then pure false
  else do
    sendAll r plan version [] (Service.recipients plan)
    complete S r ⟨plan, version, Service.recipients plan⟩

def _processPlan (id : Text) : Call Bool := do
  let d ← get
  let _ ← on ⟨r, some id, .reading id (d.plans.get id) (d.writes id)⟩
  match d.plans.get id with
  | none => pure false
  | some plan => if ¬ plan.isEnabled then pure false else runPlan S r plan (d.writes id)

/-- `processPlan`: a runtime does not process a plan twice at a time. -/
def processPlan (id : Text) : Call Bool := do
  let d ← get
  if ¬ d.enabled r ∨ id ∈ d.processing r then pure false
  else do
    modify (·.setProcessing r (id :: d.processing r))
    let result ← (_processPlan S r id).attempt
    modify fun d => d.setProcessing r ((d.processing r).filter (· ≠ id))
    match result with
    | .ok processed => pure processed
    | .error _ => .throw ()

def processAll : List ScheduledMessageEntity → Call Unit
  | [] => pure ()
  | plan :: rest => do
    let _ ← processPlan S r plan.id
    processAll rest

def processDue : Call Unit := do
  let d ← get
  if ¬ d.enabled r then pure ()
  else do
    let due := d.plans.rows.values.filter fun plan => plan.isEnabled && decide (plan.nextTriggerTime ≤ d.now)
    let _ ← on { runtime := r, op := .getDueMessages }
    processAll S r (S.sortedBy due)

/-- `processScheduledBackgroundPlan`, when the alarm of a plan has gone off. -/
def processScheduledBackgroundPlan (id : Text) : Call Unit := do
  modify (·.setAlarm id none)
  let d ← get
  let _ ← on { runtime := r, op := .getById id }
  if (d.plans.get id).any ScheduledMessageEntity.isEnabled then do
    let _ ← processPlan S r id
    pure ()
  else pure ()

end Processing

section Editing

variable (S : Service) (r : ℕ)

/-- `save` under the id that is given, or under a new one. -/
def save (draft : ScheduledMessageDraft) (id : Option Text) (newId : Text) : Call Unit :=
  if ¬ draft.valid then .throw ()
  else do
    let target := id.getD newId
    let d ← get
    let existing := id.bind fun i => d.plans.get i
    whenever id.isSome do
      let _ ← on { runtime := r, op := .getById target }
      pure ()
    let later ← get
    let plan := draft.entity S target existing later.now
    write { runtime := r, op := .insert plan (d.writes target) } (·.savePlan plan (d.writes target) (.saved plan))
    let written ← get
    whenever (plan.isEnabled ∧ written.enabled r) (scheduleMessage r none none plan)

def setEnabled (id : Text) (enabled : Bool) : Call Unit := do
  let d ← get
  let _ ← on { runtime := r, op := .getById id }
  match d.plans.get id with
  | none => pure ()
  | some current => do
    let later ← get
    let next := if enabled then S.nextTrigger current later.now else current.nextTriggerTime
    let updated := { current with isEnabled := enabled, nextTriggerTime := next }
    write { runtime := r, op := .insert updated (d.writes id) } (·.savePlan updated (d.writes id) (.switched updated))
    let written ← get
    if enabled ∧ written.enabled r then scheduleMessage r none none updated
    else cancelScheduledMessage r none none id

def delete (id : Text) : Call Unit := do
  cancelScheduledMessage r none none id
  write { runtime := r, op := .deleteById id } (·.deletePlan id)

end Editing

inductive Event where
  | processDue (r : ℕ)
  | processPlan (r : ℕ) (id : Text)
  | alarm (r : ℕ) (id : Text)
  | stop (r : ℕ)
  | tick (now : ℤ)
  | setEnabledHere (r : ℕ) (enabled : Bool)
  | save (r : ℕ) (draft : ScheduledMessageDraft) (id : Option Text) (newId : Text)
  | setEnabled (r : ℕ) (id : Text) (enabled : Bool)
  | delete (r : ℕ) (id : Text)

def Event.edits : Event → Bool
  | .save _ _ _ _ | .setEnabled _ _ _ | .delete _ _ => true
  | _ => false

def within (r : ℕ) (p : Call Unit) : Call Unit := do
  let d ← get
  whenever (d.stopped r = false) p

def program (S : Service) : Event → Call Unit
  | .processDue r => within r (processDue S r)
  | .processPlan r id => within r do
    let _ ← processPlan S r id
    pure ()
  | .alarm r id => within r (processScheduledBackgroundPlan S r id)
  | .stop r => modify (·.stop r)
  | .tick now => modify (·.setNow now)
  | .setEnabledHere r enabled => modify (·.setEnabledHere r enabled)
  | .save r draft id newId => within r (save S r draft id newId)
  | .setEnabled r id enabled => within r (setEnabled S r id enabled)
  | .delete r id => within r (delete r id)

def tasks (S : Service) : Tasks Answer Wait Device Unit Event := ⟨program S, ready⟩

abbrev State := Tasks.State Answer Wait Device Unit Event

def start (plans : Plans) (alarms : Text → Option ℤ) (now : ℤ) : Device :=
  { plans := plans, alarms := alarms, now := now }

/-! ## A plan -/

/-- A calendar without a time zone. -/
def sampleService : Service where
  toUpperCase := List.map Char.toUpper
  dateTime now h m := now / day * day + (h * 60 + m) * 60 * 1000
  weekday t := (t / day + 3) % 7 + 1
  sortedBy plans := plans.insertionSort fun a b => a.nextTriggerTime ≤ b.nextTriggerTime
  executingPlanId r := if r = 0 then none else some "p".toList

def samplePlan : ScheduledMessageEntity where
  id := "p".toList
  messageContent := "Good morning".toList
  repeatType := "DAILY".toList
  repeatDays := none
  hour := 9
  minute := 0
  recipientIds := "veli".toList
  recipientNames := "Veli".toList
  recipientDisplayNames := some ["Veli".toList]
  isEnabled := true
  nextTriggerTime := 32400000
  createdAt := 0

def samplePlans : Plans := Plans.put samplePlan ⟨.empty, fun id p h => by cases h⟩

example : sampleService.nextPlan samplePlan 32400000 =
  some { samplePlan with nextTriggerTime := 118800000 } := by decide

def go (i : ℕ) : Pool.Label Event (Option Answer) := .step i (some {})

end Scheduled
end SecureChat
