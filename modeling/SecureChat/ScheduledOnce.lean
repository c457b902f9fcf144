import SecureChat.ScheduledMessages
/-!
# ScheduledOnce — an occurrence of a plan is sent once

A run does not look again whether its plan is due, two runtimes know nothing of each other's runs, and a run that ends
before it has recorded its completion leaves the occurrence as it was.  `once_run` says that nothing else sends an
occurrence twice.
-/
namespace SecureChat
namespace Scheduled

open Async
open GroupControl (Text)
open Program (get modify HoldsBeside)
open scoped GroupControl

/-- The run that this is a step of, once it has its plan and a connection is wanted. -/
def Wait.running (w : Wait) : Option Run :=
  match w.op with
  | .running run _ => some run
  | _ => none

def Wait.runs (id : Text) (w : Wait) : Bool := w.running.any fun run => run.plan.id == id

/-- A run of another runtime that may still send, or that was stopped after it had sent. -/
def Wait.undone (d : Device) (r : ℕ) (id : Text) (w : Wait) : Bool :=
  w.runs id && w.runtime != r && (!d.stopped w.runtime || w.running.any fun run => !run.handed.isEmpty)

def Service.due (S : Service) (plan : ScheduledMessageEntity) (now : ℤ) : Bool :=
  decide (plan.nextTriggerTime ≤ now) && decide (now < S.dateTime now plan.hour plan.minute + day)

def alone (S : Service) (w : Wait) (answer : Option Answer) (d : Device) (o : List Wait) : Bool :=
  match w.op, answer with
  | .reading id (some plan) _, some _ => !plan.isEnabled || (d.plans.get id == some plan &&
    decide (Service.recipients plan).Nodup && !o.any (Wait.undone d w.runtime id))
  | .running run .getRecipient, none => run.handed.isEmpty
  | .running run (.completeRun _), none => run.handed.isEmpty
  | .running run .send, _ =>
    run.handed != Service.recipients run.plan || S.isLast run.plan || S.due run.plan d.now
  | _, _ => true

section Calendar

variable {S : Service} {plan : ScheduledMessageEntity} {now : ℤ}

theorem lt_calculateNextTrigger {hour minute : ℤ} {repetition : ScheduledRepeat} {days : List ℤ}
    (h : now < S.dateTime now hour minute + day) : now < S.calculateNextTrigger hour minute repetition days now := by
  have hnext : now < if now < S.dateTime now hour minute then S.dateTime now hour minute
      else S.dateTime now hour minute + day := by
    split
    · assumption
    · exact h
  unfold Service.calculateNextTrigger
  cases repetition with
  | once => exact hnext
  | daily => exact hnext
  | custom =>
    dsimp only
    split
    · exact hnext
    · cases hfind : List.find? (fun c => (days.filter inWeek).contains (S.weekday c) && decide (now < c))
          ((List.range 8).map fun (offset : ℕ) => S.dateTime now hour minute + offset * day) with
      | some c =>
        have hc := List.find?_some hfind
        simp only [Bool.and_eq_true, decide_eq_true_eq] at hc
        exact hc.2
      | none =>
        have hday : (0 : ℤ) < day := by decide
        simp only [Option.getD_none]
        omega

theorem Service.lt_nextTrigger (h : S.due plan now = true) : plan.nextTriggerTime < S.nextTrigger plan now := by
  unfold Service.due at h
  simp only [Bool.and_eq_true, decide_eq_true_eq] at h
  exact lt_of_le_of_lt h.1 (lt_calculateNextTrigger h.2)

end Calendar

/-! ## The invariant -/

/-- What is due to a run that is not stopped: its plan is the stored one, and the message has been handed over for the
recipients it knows of only. -/
structure Run.Current (run : Run) (d : Device) : Prop where
  stored : d.plans.get run.plan.id = some run.plan
  different : (Service.recipients run.plan).Nodup
  handed : ∀ s ∈ d.sent, s.plan = run.plan.id → s.occurrence = run.plan.nextTriggerTime → s.recipient ∈ run.handed

def Step.Later (run : Run) : Step → Prop
  | .completeRun (some plan) => plan.id = run.plan.id ∧ run.plan.nextTriggerTime < plan.nextTriggerTime
  | _ => True

/-- What holds while a step is awaited. -/
structure Wait.Fits (w : Wait) (d : Device) : Prop where
  processing : ∀ id ∈ w.run, id ∈ d.processing w.runtime
  running : ∀ run step, w.op = .running run step → w.run = some run.plan.id ∧ step.Later run ∧
    (d.stopped w.runtime = false → run.Current d)

/-- Two steps are not of one run's turn, and not of two runs of one plan that both go on. -/
def Wait.Apart (d : Device) (w w' : Wait) : Prop :=
  (∀ id, w.run = some id → w'.run = some id → w.runtime ≠ w'.runtime) ∧
    ∀ id, w.runs id = true → w'.runs id = true → d.stopped w.runtime = true ∨ d.stopped w'.runtime = true

structure Once (d : Device) (o : List Wait) : Prop where
  nodup : d.sent.Nodup
  past : ∀ id plan, d.plans.get id = some plan → ∀ s ∈ d.sent, s.plan = id → s.occurrence ≤ plan.nextTriggerTime ∧
    (s.occurrence = plan.nextTriggerTime → ∃ w ∈ o, ∃ run, w.running = some run ∧ run.plan.id = id ∧ run.handed ≠ [])
  fits : ∀ w ∈ o, w.Fits d
  apart : o.Pairwise (Wait.Apart d)

/-- The turn of a runtime to process a plan, between two awaited steps. -/
structure Turn (r : ℕ) (id : Text) (d : Device) (o : List Wait) : Prop where
  once : Once d o
  processing : id ∈ d.processing r
  others : ∀ w ∈ o, w.run = some id → w.runtime ≠ r

abbrev onceRules (S : Service) : Tasks.Rules Answer Wait Device Event :=
  ⟨Once, fun x _ _ => x.edits = false, fun w a d o => alone S w a d o = true⟩

section Once

variable {d d' : Device} {o : List Wait} {w w' : Wait} {r : ℕ} {id : Text}

theorem Wait.Apart.symm (h : w.Apart d w') : w'.Apart d w :=
  ⟨fun id hw' hw => (h.1 id hw hw').symm, fun id hw' hw => (h.2 id hw hw').symm⟩

theorem Once.perm {o' : List Wait} (hp : o.Perm o') (h : Once d o) : Once d o' where
  nodup := h.nodup
  past id plan hplan s hs hid := by
    obtain ⟨hle, hrun⟩ := h.past id plan hplan s hs hid
    refine ⟨hle, fun heq => ?_⟩
    obtain ⟨w, hw, hrest⟩ := hrun heq
    exact ⟨w, hp.mem_iff.1 hw, hrest⟩
  fits w hw := h.fits w (hp.mem_iff.2 hw)
  apart := (hp.pairwise_iff Wait.Apart.symm).1 h.apart

theorem Wait.runs_iff : w.runs id = true ↔ ∃ run, w.running = some run ∧ run.plan.id = id := by
  unfold Wait.runs
  rw [Option.any_eq_true]
  simp

theorem Wait.running_eq_some {run : Run} (h : w.running = some run) : ∃ step, w.op = .running run step := by
  unfold Wait.running at h
  split at h
  · rename_i run' step heq
    cases h
    exact ⟨step, heq⟩
  · cases h

theorem Wait.Fits.run_of_runs (h : w.Fits d) (hw : w.runs id = true) : w.run = some id := by
  obtain ⟨run, hrun, rfl⟩ := Wait.runs_iff.1 hw
  obtain ⟨step, hop⟩ := Wait.running_eq_some hrun
  exact (h.running run step hop).1

theorem Once.same (h : Once d o) (hplans : d'.plans = d.plans) (hsent : d'.sent = d.sent)
    (hprocessing : ∀ w ∈ o, ∀ id ∈ w.run, id ∈ d.processing w.runtime → id ∈ d'.processing w.runtime)
    (hstopped : ∀ r, d.stopped r = true → d'.stopped r = true) : Once d' o where
  nodup := by rw [hsent]; exact h.nodup
  past := by rw [hplans, hsent]; exact h.past
  fits w hw := by
    refine ⟨fun id hid => hprocessing w hw id hid ((h.fits w hw).processing id hid), fun run step hop => ?_⟩
    obtain ⟨hrun, hlater, hcurrent⟩ := (h.fits w hw).running run step hop
    refine ⟨hrun, hlater, fun hlive => ?_⟩
    have hlive' : d.stopped w.runtime = false := by
      cases hs : d.stopped w.runtime with
      | false => rfl
      | true => exact absurd (hstopped _ hs) (by simp [hlive])
    have hc := hcurrent hlive'
    exact ⟨by rw [hplans]; exact hc.stored, hc.different, by rw [hsent]; exact hc.handed⟩
  apart := h.apart.imp fun hap => ⟨hap.1, fun id h1 h2 => (hap.2 id h1 h2).imp (hstopped _) (hstopped _)⟩

theorem Once.cons (h : Once d o) (hrun : w.run = none) (hop : w.running = none) : Once d (w :: o) where
  nodup := h.nodup
  past id plan hplan s hs hid := by
    obtain ⟨hle, hex⟩ := h.past id plan hplan s hs hid
    exact ⟨hle, fun heq => (hex heq).imp fun w hw => ⟨List.mem_cons_of_mem _ hw.1, hw.2⟩⟩
  fits := by
    refine List.forall_mem_cons.2 ⟨⟨fun id hid => ?_, fun run step hw => ?_⟩, h.fits⟩
    · rw [hrun] at hid
      cases hid
    · unfold Wait.running at hop
      rw [hw] at hop
      cases hop
  apart := by
    refine List.pairwise_cons.2 ⟨fun w' _ => ⟨fun id hid => ?_, fun id hid => ?_⟩, h.apart⟩
    · rw [hrun] at hid
      cases hid
    · obtain ⟨run, hsome, -⟩ := Wait.runs_iff.1 hid
      rw [hop] at hsome
      cases hsome

theorem Once.tail (h : Once d (w :: o)) (hw : ∀ run, w.running = some run → run.handed = []) : Once d o where
  nodup := h.nodup
  past id plan hplan s hs hid := by
    obtain ⟨hle, hex⟩ := h.past id plan hplan s hs hid
    refine ⟨hle, fun heq => ?_⟩
    obtain ⟨w', hmem, run, hrun, hplan', hne⟩ := hex heq
    rcases List.mem_cons.1 hmem with rfl | hmem
    · exact absurd (hw run hrun) hne
    · exact ⟨w', hmem, run, hrun, hplan', hne⟩
  fits := (List.forall_mem_cons.1 h.fits).2
  apart := (List.pairwise_cons.1 h.apart).2

theorem once_cons_iff (hrun : w.run = none) (hop : w.running = none) : Once d o ↔ Once d (w :: o) :=
  ⟨fun h => h.cons hrun hop, fun h => h.tail fun run hr => by
    rw [hop] at hr
    cases hr⟩

theorem Once.turn (h : Once d (w :: o)) (hrun : w.run = some id) (hw : ∀ run, w.running = some run → run.handed = []) :
    Turn w.runtime id d o where
  once := h.tail hw
  processing := (List.forall_mem_cons.1 h.fits).1.processing id hrun
  others w' hw' hid := (((List.pairwise_cons.1 h.apart).1 w' hw').1 id hrun hid).symm

theorem Turn.cons (h : Turn r id d o) {op : Op} (hop : (⟨r, some id, op⟩ : Wait).running = none) :
    Once d (⟨r, some id, op⟩ :: o) where
  nodup := h.once.nodup
  past id plan hplan s hs hid := by
    obtain ⟨hle, hex⟩ := h.once.past id plan hplan s hs hid
    exact ⟨hle, fun heq => (hex heq).imp fun w hw => ⟨List.mem_cons_of_mem _ hw.1, hw.2⟩⟩
  fits := by
    refine List.forall_mem_cons.2 ⟨⟨fun i hi => ?_, fun run step hw => ?_⟩, h.once.fits⟩
    · cases hi
      exact h.processing
    · unfold Wait.running at hop
      rw [hw] at hop
      cases hop
  apart := by
    refine List.pairwise_cons.2 ⟨fun w' hw' => ⟨fun i hi hi' => ?_, fun i hi => ?_⟩, h.once.apart⟩
    · cases hi
      exact (h.others w' hw' hi').symm
    · obtain ⟨run, hsome, -⟩ := Wait.runs_iff.1 hi
      rw [hop] at hsome
      cases hsome

end Once

/-! ## A run -/

section Run

variable {d : Device} {o : List Wait} {r : ℕ} {run : Run} {step step' : Step}

abbrev Run.at (run : Run) (r : ℕ) (step : Step) : Wait := ⟨r, some run.plan.id, .running run step⟩

theorem Once.current (h : Once d (run.at r step :: o)) (hlive : d.stopped r = false) : run.Current d :=
  ((List.forall_mem_cons.1 h.fits).1.running run step rfl).2.2 hlive

theorem Once.alone (h : Once d (run.at r step :: o)) (hlive : d.stopped r = false) {w : Wait} (hw : w ∈ o)
    (hruns : w.runs run.plan.id = true) : d.stopped w.runtime = true := by
  have hself : (run.at r step).runs run.plan.id = true := Wait.runs_iff.2 ⟨run, rfl, rfl⟩
  rcases ((List.pairwise_cons.1 h.apart).1 w hw).2 _ hself hruns with hs | hs
  · rw [hlive] at hs
    cases hs
  · exact hs

theorem Once.relabel (h : Once d (run.at r step :: o)) (hlater : step'.Later run) :
    Once d (run.at r step' :: o) where
  nodup := h.nodup
  past id plan hplan s hs hid := by
    obtain ⟨hle, hex⟩ := h.past id plan hplan s hs hid
    refine ⟨hle, fun heq => ?_⟩
    obtain ⟨w, hw, hrest⟩ := hex heq
    rcases List.mem_cons.1 hw with rfl | hw
    · exact ⟨_, List.mem_cons_self, hrest⟩
    · exact ⟨w, List.mem_cons_of_mem _ hw, hrest⟩
  fits := by
    obtain ⟨hw, ho⟩ := List.forall_mem_cons.1 h.fits
    refine List.forall_mem_cons.2 ⟨⟨hw.processing, fun run' step'' hop => ?_⟩, ho⟩
    cases hop
    exact ⟨rfl, hlater, (hw.running run step rfl).2.2⟩
  apart := List.pairwise_cons.2 ⟨(List.pairwise_cons.1 h.apart).1, (List.pairwise_cons.1 h.apart).2⟩

/-- **A run begins** with the stored plan while no other runtime is in a run of it, and none has been left undone. -/
theorem Turn.begin {plan : ScheduledMessageEntity} {version : ℕ} (h : Turn r plan.id d o)
    (hstored : d.plans.get plan.id = some plan) (hdiff : (Service.recipients plan).Nodup)
    (ho : ∀ w ∈ o, w.undone d r plan.id = false) :
    Once d ((⟨plan, version, []⟩ : Run).at r .ensureConnected :: o) := by
  have hother : ∀ w ∈ o, w.runs plan.id = true →
      d.stopped w.runtime = true ∧ ∀ run, w.running = some run → run.handed = [] := by
    intro w hw hruns
    have hrt : w.runtime ≠ r := h.others w hw ((h.once.fits w hw).run_of_runs hruns)
    have hnot := ho w hw
    unfold Wait.undone at hnot
    rw [hruns, bne_iff_ne.2 hrt, Bool.true_and, Bool.true_and, Bool.or_eq_false_iff] at hnot
    refine ⟨by simpa using hnot.1, fun run hrun => ?_⟩
    rw [hrun] at hnot
    simpa using hnot.2
  refine ⟨h.once.nodup, fun id p hp s hs hid => ?_, List.forall_mem_cons.2 ⟨⟨fun i hi => ?_, fun run step hop => ?_⟩,
    h.once.fits⟩, List.pairwise_cons.2 ⟨fun w hw => ⟨fun i hi hi' => ?_, fun i hi hi' => ?_⟩, h.once.apart⟩⟩
  · obtain ⟨hle, hex⟩ := h.once.past id p hp s hs hid
    exact ⟨hle, fun heq => (hex heq).imp fun w hw => ⟨List.mem_cons_of_mem _ hw.1, hw.2⟩⟩
  · cases hi
    exact h.processing
  · cases hop
    refine ⟨rfl, trivial, fun _ => ⟨hstored, hdiff, fun s hs hid heq => ?_⟩⟩
    obtain ⟨w, hw, run, hrun, hplan, hne⟩ := (h.once.past plan.id plan hstored s hs hid).2 heq
    exact absurd ((hother w hw (Wait.runs_iff.2 ⟨run, hrun, hplan⟩)).2 run hrun) hne
  · cases hi
    exact (h.others w hw hi').symm
  · obtain ⟨run, hrun, hid⟩ := Wait.runs_iff.1 hi
    cases hrun
    subst hid
    exact .inr (hother w hw hi').1

theorem Once.hand {plan : ScheduledMessageEntity} {version : ℕ} {handed : List Text} {recipient : Text}
    (h : Once d ((⟨plan, version, handed⟩ : Run).at r step :: o)) (hlive : d.stopped r = false)
    (hnew : recipient ∉ handed) :
    Once (d.hand plan recipient) ((⟨plan, version, handed ++ [recipient]⟩ : Run).at r .send :: o) := by
  have hc := h.current hlive
  have hold : ∀ s ∈ d.sent, s.plan = plan.id → s.occurrence = plan.nextTriggerTime → s.recipient ∈ handed := hc.handed
  refine ⟨List.nodup_cons.2 ⟨fun hmem => ?_, h.nodup⟩, fun id p hp s hs hid => ?_, List.forall_mem_cons.2
    ⟨⟨(List.forall_mem_cons.1 h.fits).1.processing, fun run step' hop => ?_⟩, fun w hw => ⟨fun i hi => ?_,
      fun run step' hop => ?_⟩⟩, List.pairwise_cons.2 ⟨(List.pairwise_cons.1 h.apart).1,
        (List.pairwise_cons.1 h.apart).2⟩⟩
  · exact hnew (hold _ hmem rfl rfl)
  · rcases List.mem_cons.1 hs with rfl | hs
    · obtain rfl : plan.id = id := hid
      have hsame : p = plan := by
        have hp' : d.plans.get plan.id = some p := hp
        rw [hc.stored] at hp'
        exact (Option.some.inj hp').symm
      subst hsame
      exact ⟨le_refl _, fun _ => ⟨_, List.mem_cons_self, _, rfl, rfl, by simp⟩⟩
    · obtain ⟨hle, hex⟩ := h.past id p hp s hs hid
      refine ⟨hle, fun heq => ?_⟩
      obtain ⟨w, hw, run, hrun, hplan, hne⟩ := hex heq
      rcases List.mem_cons.1 hw with rfl | hw
      · cases hrun
        exact ⟨_, List.mem_cons_self, _, rfl, hplan, by simp⟩
      · exact ⟨w, List.mem_cons_of_mem _ hw, run, hrun, hplan, hne⟩
  · cases hop
    refine ⟨rfl, trivial, fun _ => ⟨hc.stored, hc.different, fun s hs hid heq => ?_⟩⟩
    rcases List.mem_cons.1 hs with rfl | hs
    · exact List.mem_append_right _ (List.mem_singleton_self _)
    · exact List.mem_append_left _ (hold s hs hid heq)
  · exact ((List.forall_mem_cons.1 h.fits).2 w hw).processing i hi
  · obtain ⟨hrun, hlater, hcurrent⟩ := ((List.forall_mem_cons.1 h.fits).2 w hw).running run step' hop
    refine ⟨hrun, hlater, fun hlive' => ?_⟩
    have hc' := hcurrent hlive'
    refine ⟨hc'.stored, hc'.different, fun s hs hid heq => ?_⟩
    rcases List.mem_cons.1 hs with rfl | hs
    · have hruns : w.runs plan.id = true := Wait.runs_iff.2 ⟨run, by unfold Wait.running; rw [hop], hid.symm⟩
      have hstopped := h.alone hlive hw hruns
      rw [show d.stopped w.runtime = false from hlive'] at hstopped
      cases hstopped
    · exact hc'.handed s hs hid heq

theorem nextPlan_later {S : Service} {now : ℤ} (h : S.isLast run.plan = true ∨ S.due run.plan now = true) :
    (Step.completeRun (S.nextPlan run.plan now)).Later run := by
  unfold Service.nextPlan
  split
  · trivial
  · rcases h with h | h
    · contradiction
    · exact ⟨rfl, Service.lt_nextTrigger h⟩

theorem Device.get_completeRun {next : Option ScheduledMessageEntity} (hlater : (Step.completeRun next).Later run)
    {id : Text} {p : ScheduledMessageEntity} (hp : (d.completeRun run next).plans.get id = some p) :
    id ≠ run.plan.id ∧ d.plans.get id = some p ∨ id = run.plan.id ∧ run.plan.nextTriggerTime < p.nextTriggerTime := by
  rw [Device.plans_completeRun] at hp
  cases next with
  | none =>
    simp only [Plans.get_remove] at hp
    split at hp
    · cases hp
    · exact .inl ⟨‹_›, hp⟩
  | some plan =>
    obtain ⟨hid, hlt⟩ := hlater
    simp only [Plans.get_put, hid] at hp
    split at hp
    · cases hp
      exact .inr ⟨‹_›, hlt⟩
    · exact .inl ⟨‹_›, hp⟩

theorem Once.completeRun {next : Option ScheduledMessageEntity}
    (h : Once d (run.at r (.completeRun next) :: o)) (hlive : d.stopped r = false) :
    Turn r run.plan.id (d.completeRun run next) o := by
  have hc := h.current hlive
  have hlater : (Step.completeRun next).Later run := ((List.forall_mem_cons.1 h.fits).1.running run _ rfl).2.1
  have hfits := (List.forall_mem_cons.1 h.fits).2
  refine ⟨⟨?_, fun id p hp s hs hid => ?_, fun w hw => ⟨fun i hi => ?_, fun run' step' hop => ?_⟩, ?_⟩, ?_,
    fun w hw hid => (((List.pairwise_cons.1 h.apart).1 w hw).1 _ rfl hid).symm⟩
  · rw [Device.sent_completeRun]
    exact h.nodup
  · rw [Device.sent_completeRun] at hs
    rcases Device.get_completeRun hlater hp with ⟨hne, hp⟩ | ⟨rfl, hlt⟩
    · obtain ⟨hle, hex⟩ := h.past id p hp s hs hid
      refine ⟨hle, fun heq => ?_⟩
      obtain ⟨w, hw, run', hrun, hplan, hne'⟩ := hex heq
      rcases List.mem_cons.1 hw with rfl | hw
      · cases hrun
        exact absurd hplan.symm hne
      · exact ⟨w, hw, run', hrun, hplan, hne'⟩
    · have hle := (h.past _ _ hc.stored s hs hid).1
      exact ⟨le_of_lt (lt_of_le_of_lt hle hlt), fun heq => absurd (heq ▸ hle) (not_le.2 hlt)⟩
  · rw [Device.processing_completeRun]
    exact (hfits w hw).processing i hi
  · obtain ⟨hrun, hlater', hcurrent⟩ := (hfits w hw).running run' step' hop
    refine ⟨hrun, hlater', fun hlive' => ?_⟩
    rw [Device.stopped_completeRun] at hlive'
    have hc' := hcurrent hlive'
    have hne : run'.plan.id ≠ run.plan.id := by
      intro heq
      have hruns : w.runs run.plan.id = true := Wait.runs_iff.2 ⟨run', by unfold Wait.running; rw [hop], heq⟩
      have hstopped := h.alone hlive hw hruns
      rw [hlive'] at hstopped
      cases hstopped
    refine ⟨?_, hc'.different, by rw [Device.sent_completeRun]; exact hc'.handed⟩
    rw [Device.plans_completeRun]
    cases next with
    | none =>
      simp only [Plans.get_remove, if_neg hne]
      exact hc'.stored
    | some plan =>
      simp only [Plans.get_put, hlater.1, if_neg hne]
      exact hc'.stored
  · exact (List.pairwise_cons.1 h.apart).2.imp fun hap => ⟨hap.1, by rw [Device.stopped_completeRun]; exact hap.2⟩
  · rw [Device.processing_completeRun]
    exact (List.forall_mem_cons.1 h.fits).1.processing _ rfl

end Run

/-! ## The programs -/

section Programs

variable {S : Service} {d : Device} {o : List Wait} {r : ℕ} {id : Text}

abbrev Keeps (S : Service) {α : Type} (p : Call α) : Prop := p.Preserves (tasks S) (onceRules S)

theorem live_of_ready {w : Wait} (a : Option Answer) (h : ready w a d = true) : d.stopped w.runtime = false := by
  simpa [ready] using h

theorem Once.setAlarm (h : Once d o) (i : Text) (alarm : Option ℤ) : Once (d.setAlarm i alarm) o :=
  h.same rfl rfl (fun _ _ _ _ hi => hi) fun _ hs => hs

theorem Turn.setAlarm (h : Turn r id d o) (i : Text) (alarm : Option ℤ) : Turn r id (d.setAlarm i alarm) o :=
  ⟨h.once.setAlarm i alarm, h.processing, h.others⟩

theorem Turn.write_holds {Q : Except Unit Unit → Device → List Wait → Prop} {op : Op} {i : Text} {alarm : Option ℤ}
    (h : Turn r id d o) (hop : (⟨r, some id, op⟩ : Wait).running = none) (hQ : ∀ a d o, Turn r id d o → Q a d o) :
    (write ⟨r, some id, op⟩ (·.setAlarm i alarm)).HoldsBeside (tasks S) (onceRules S) Q d o := by
  have hturn : ∀ d o, Once d (⟨r, some id, op⟩ :: o) → Turn r id d o := fun d o h =>
    h.turn rfl fun run hrun => by
      rw [hop] at hrun
      cases hrun
  exact ⟨h.cons hop, fun d' o' hi => ⟨fun _ _ => hQ _ d' o' (hturn d' o' hi),
    fun _ _ _ => hQ _ _ o' ((hturn d' o' hi).setAlarm i alarm)⟩⟩

theorem Turn.cancel_holds {Q : Except Unit Unit → Device → List Wait → Prop} {executing : Option Text} {i : Text}
    (h : Turn r id d o) (hQ : ∀ a d o, Turn r id d o → Q a d o) :
    (cancelScheduledMessage r (some id) executing i).HoldsBeside (tasks S) (onceRules S) Q d o := by
  unfold cancelScheduledMessage
  split
  · exact hQ _ d o h
  · exact h.write_holds rfl hQ

theorem Turn.schedule_holds {Q : Except Unit Unit → Device → List Wait → Prop} {executing : Option Text}
    {plan : ScheduledMessageEntity} (h : Turn r id d o) (hQ : ∀ a d o, Turn r id d o → Q a d o) :
    (scheduleMessage r (some id) executing plan).HoldsBeside (tasks S) (onceRules S) Q d o := by
  refine HoldsBeside.bind (h.cancel_holds fun a d o h => ?_)
  cases a with
  | error _ => exact hQ _ d o h
  | ok _ => exact HoldsBeside.whenever (fun _ => h.write_holds rfl hQ) fun _ => hQ _ d o h

def Run.Sent (S : Service) (run : Run) (d : Device) : Prop :=
  run.handed = Service.recipients run.plan → S.isLast run.plan = true ∨ S.due run.plan d.now = true

theorem complete_holds {Q : Except Unit Bool → Device → List Wait → Prop} {run : Run} {step : Step}
    (h : Once d (run.at r step :: o)) (hall : run.handed = Service.recipients run.plan) (hsent : run.Sent S d)
    (hQ : ∀ a d o, Turn r run.plan.id d o → Q a d o) :
    (complete S r run).HoldsBeside (tasks S) (onceRules S) Q d o := by
  have hlater := nextPlan_later (hsent hall)
  refine Program.holds_get_bind ?_
  generalize S.nextPlan run.plan d.now = next at hlater ⊢
  refine HoldsBeside.bind ⟨h.relabel hlater, fun d' o' hi => ⟨fun _ ht => ?_, fun a hr _ => ?_⟩⟩
  · have hempty : run.handed = [] := by simpa [alone] using ht
    exact hQ _ d' o' (hi.turn rfl fun run' hrun => by cases hrun; exact hempty)
  · have hturn := hi.completeRun (live_of_ready (some a) hr)
    cases next with
    | none =>
      refine HoldsBeside.bind (hturn.cancel_holds fun a d o h => ?_)
      cases a with
      | error _ => exact hQ _ d o h
      | ok _ => exact hQ _ d o h
    | some updated =>
      refine HoldsBeside.bind (hturn.schedule_holds fun a d o h => ?_)
      cases a with
      | error _ => exact hQ _ d o h
      | ok _ => exact hQ _ d o h

theorem sendAll_holds {Q : Except Unit Unit → Device → List Wait → Prop} {plan : ScheduledMessageEntity}
    {version : ℕ} (hok : ∀ step d o, Once d ((⟨plan, version, Service.recipients plan⟩ : Run).at r step :: o) →
      (⟨plan, version, Service.recipients plan⟩ : Run).Sent S d → Q (.ok ()) d o)
    (hfail : ∀ d o, Turn r plan.id d o → Q (.error ()) d o) :
    ∀ (rest handed : List Text) (step : Step) (d : Device) (o : List Wait), handed ++ rest = Service.recipients plan →
      Once d ((⟨plan, version, handed⟩ : Run).at r step :: o) → (⟨plan, version, handed⟩ : Run).Sent S d →
        (sendAll r plan version handed rest).HoldsBeside (tasks S) (onceRules S) Q d o
  | [], handed, step, d, o, hall, h, hsent => by
    rw [List.append_nil] at hall
    subst hall
    exact hok step d o h hsent
  | recipient :: rest, handed, step, d, o, hall, h, hsent => by
    refine Program.holds_wait_bind (h.relabel trivial) (fun d o hi _ ht => ?_) fun a d o hi hr _ => ?_
    · have hempty : handed = [] := by simpa [alone] using ht
      exact hfail d o (hi.turn rfl fun run' hrun => by cases hrun; exact hempty)
    · have hlive : d.stopped r = false := live_of_ready (some a) hr
      have hnew : recipient ∉ handed := by
        have hcurrent : (⟨plan, version, handed⟩ : Run).Current d := hi.current hlive
        have hdiff : (Service.recipients plan).Nodup := hcurrent.different
        rw [← hall] at hdiff
        exact fun hmem => (List.nodup_append.1 hdiff).2.2 recipient hmem recipient List.mem_cons_self rfl
      refine Program.holds_modify_bind (HoldsBeside.bind (HoldsBeside.attempt ?_))
      have hnext : ∀ a d o, Once d ((⟨plan, version, handed ++ [recipient]⟩ : Run).at r .send :: o) →
          alone S ((⟨plan, version, handed ++ [recipient]⟩ : Run).at r .send) a d o = true →
          (sendAll r plan version (handed ++ [recipient]) rest).HoldsBeside (tasks S) (onceRules S) Q d o := by
        intro a d o hi ht
        refine sendAll_holds hok hfail rest (handed ++ [recipient]) .send d o ?_ hi fun heq => ?_
        · rw [List.append_assoc]
          exact hall
        · have ht' : (handed ++ [recipient] != Service.recipients plan || S.isLast plan || S.due plan
            d.now) = true := by
            cases a with
            | none => exact ht
            | some a => exact ht
          have heq' : handed ++ [recipient] = Service.recipients plan := heq
          rw [heq', bne_self_eq_false, Bool.false_or, Bool.or_eq_true] at ht'
          exact ht'
      exact ⟨hi.hand hlive hnew, fun d' o' hi' => ⟨fun _ ht => hnext none d' o' hi' ht,
        fun a _ ht => hnext (some a) d' o' hi' ht⟩⟩

theorem ensureConnected_holds {Q : Except Unit Bool → Device → List Wait → Prop} {run : Run}
    (h : Once d (run.at r .ensureConnected :: o))
    (hQ : ∀ yes d o, Once d (run.at r .ensureConnected :: o) → Q (.ok yes) d o) :
    (ensureConnected r run).HoldsBeside (tasks S) (onceRules S) Q d o := by
  refine HoldsBeside.bind (HoldsBeside.attempt ⟨h, fun d o hi => ⟨fun _ _ => ?_, fun a _ _ => ?_⟩⟩)
  · exact hQ false d o hi
  · exact hQ a.yes d o hi

theorem runPlan_holds {Q : Except Unit Bool → Device → List Wait → Prop} {plan : ScheduledMessageEntity} {version : ℕ}
    (h : Once d ((⟨plan, version, []⟩ : Run).at r .ensureConnected :: o))
    (hQ : ∀ a d o, Turn r plan.id d o → Q a d o) :
    (runPlan S r plan version).HoldsBeside (tasks S) (onceRules S) Q d o := by
  refine HoldsBeside.bind (ensureConnected_holds h fun yes d o hi => ?_)
  cases yes with
  | false =>
    refine hQ _ d o (hi.turn rfl fun run hrun => ?_)
    cases hrun
    rfl
  | true =>
    refine HoldsBeside.bind (sendAll_holds (fun step d o h hsent => ?_) (fun d o h => hQ _ d o h) _ [] _ d o rfl hi
      fun heq => .inl ?_)
    · exact complete_holds h rfl hsent hQ
    · have hempty : Service.recipients plan = [] := Eq.symm heq
      simp [Service.isLast, hempty]

theorem _processPlan_holds {Q : Except Unit Bool → Device → List Wait → Prop} (h : Turn r id d o)
    (hQ : ∀ a d o, Turn r id d o → Q a d o) :
    (_processPlan S r id).HoldsBeside (tasks S) (onceRules S) Q d o := by
  refine Program.holds_get_bind ?_
  cases hp : d.plans.get id with
  | none =>
    refine Program.holds_wait_bind (h.cons rfl) (fun d o hi _ _ => ?_) fun _ d o hi _ _ => ?_
    · exact hQ _ d o (hi.turn rfl fun run hrun => by cases hrun)
    · exact hQ _ d o (hi.turn rfl fun run hrun => by cases hrun)
  | some plan =>
    obtain rfl := Plans.id_of_get hp
    refine Program.holds_wait_bind (h.cons rfl) (fun d o hi _ _ => ?_) fun _ d o hi _ ht => ?_
    · exact hQ _ d o (hi.turn rfl fun run hrun => by cases hrun)
    · have hturn : Turn r plan.id d o := hi.turn rfl fun run hrun => by cases hrun
      dsimp only
      split
      · exact hQ _ d o hturn
      · rename_i henabled
        have henabled' : plan.isEnabled = true := by simpa using henabled
        have ht' : (d.plans.get plan.id == some plan && decide (Service.recipients plan).Nodup &&
            !o.any (Wait.undone d r plan.id)) = true := by
          have hcond : (!plan.isEnabled || (d.plans.get plan.id == some plan &&
            decide (Service.recipients plan).Nodup && !o.any (Wait.undone d r plan.id))) = true := ht
          rw [henabled', Bool.not_true, Bool.false_or] at hcond
          exact hcond
        rw [Bool.and_eq_true, Bool.and_eq_true, beq_iff_eq, decide_eq_true_eq, Bool.not_eq_true',
          List.any_eq_false] at ht'
        exact runPlan_holds (hturn.begin ht'.1.1 ht'.1.2 fun w hw => Bool.not_eq_true _ ▸ ht'.2 w hw) hQ

theorem keeps_processPlan (id : Text) : Keeps S (processPlan S r id) := by
  intro Q d o h hQ
  refine Program.holds_get_bind ?_
  split
  · exact hQ _ d o h
  · rename_i hnot
    rw [not_or] at hnot
    refine Program.holds_modify_bind ?_
    have hturn : Turn r id (d.setProcessing r (id :: d.processing r)) o := by
      refine ⟨h.same rfl rfl (fun w _ i _ hi => ?_) fun _ hs => hs, ?_, fun w hw hid hr => ?_⟩
      · by_cases hr : w.runtime = r
        · rw [hr] at hi ⊢
          simp [Device.setProcessing, hi]
        · simpa [Device.setProcessing, hr] using hi
      · simp [Device.setProcessing]
      · have hin := (h.fits w hw).processing id hid
        rw [hr] at hin
        exact hnot.2 hin
    refine HoldsBeside.bind (HoldsBeside.attempt (_processPlan_holds hturn fun a d o hturn => ?_))
    refine Program.holds_modify_bind ?_
    have hdone : Once (d.setProcessing r ((d.processing r).filter (· ≠ id))) o := by
      refine hturn.once.same rfl rfl (fun w hw i hi hin => ?_) fun _ hs => hs
      by_cases hr : w.runtime = r
      · have hne : i ≠ id := fun heq => hturn.others w hw (heq ▸ hi) hr
        rw [hr] at hin ⊢
        simp [Device.setProcessing, hin, hne]
      · simpa [Device.setProcessing, hr] using hin
    cases a with
    | error _ => exact hQ _ _ o hdone
    | ok _ => exact hQ _ _ o hdone

theorem keeps_on {op : Op} (hop : (Wait.running { runtime := r, op := op }) = none) :
    Keeps S (on { runtime := r, op := op }) := Program.preserves_wait fun _ _ => once_cons_iff rfl hop

theorem keeps_processAll : ∀ plans, Keeps S (processAll S r plans)
  | [] => Program.preserves_pure ()
  | plan :: rest => (keeps_processPlan plan.id).bind fun _ => keeps_processAll rest

theorem keeps_processDue : Keeps S (processDue S r) := by
  refine Program.preserves_get.bind fun d => ?_
  split
  · exact Program.preserves_pure ()
  · exact (keeps_on rfl).bind fun _ => keeps_processAll _

theorem keeps_alarm (id : Text) : Keeps S (processScheduledBackgroundPlan S r id) := by
  refine (Program.preserves_modify fun _ _ (h : Once _ _) => h.setAlarm id none).bind fun _ =>
    Program.preserves_get.bind fun d => ?_
  refine (keeps_on rfl).bind fun _ => ?_
  split
  · exact (keeps_processPlan id).bind fun _ => Program.preserves_pure ()
  · exact Program.preserves_pure ()

theorem keeps_within {p : Call Unit} (hp : Keeps S p) : Keeps S (within r p) :=
  Program.preserves_get.bind fun _ => hp.whenever

theorem keeps_program (x : Event) (hx : x.edits = false) : Keeps S (program S x) := by
  cases x with
  | processDue r => exact keeps_within keeps_processDue
  | processPlan r id => exact keeps_within ((keeps_processPlan id).bind fun _ => Program.preserves_pure ())
  | alarm r id => exact keeps_within (keeps_alarm id)
  | stop r =>
    refine Program.preserves_modify fun d o (h : Once d o) => h.same rfl rfl (fun _ _ _ _ hi => hi) fun r' hs => ?_
    by_cases hr : r' = r
    · simp [Device.stop, hr]
    · simpa [Device.stop, hr] using hs
  | tick now =>
    exact Program.preserves_modify fun d o (h : Once d o) => h.same rfl rfl (fun _ _ _ _ hi => hi) fun _ hs => hs
  | setEnabledHere r enabled =>
    exact Program.preserves_modify fun d o (h : Once d o) => h.same rfl rfl (fun _ _ _ _ hi => hi) fun _ hs => hs
  | save r draft id newId => cases hx
  | setEnabled r id enabled => cases hx
  | delete r id => cases hx

end Programs

/-! ## The runs -/

/-- **No occurrence is handed to the sender twice for one recipient**, in every run whose steps meet the condition, from
every set of plans. -/
theorem once_run (S : Service) (plans : Plans) (alarms : Text → Option ℤ) (now : ℤ) {q : State}
    {ls : List (Pool.Label Event (Option Answer))}
    (hm : Runs.Meets (tasks S).step (Pool.Moves (Tasks.Orderly (onceRules S))) ⟨start plans alarms now, []⟩ ls)
    (hr : Runs.run (tasks S).step ⟨start plans alarms now, []⟩ ls = some q) : q.shared.sent.Nodup := by
  have honce : Once q.shared (Task.labels q.threads) := by
    refine Tasks.holds_run (R := onceRules S) (fun _ _ _ hp h => h.perm hp) (fun x d o h hx => ?_) ?_ hm hr
    · exact keeps_program x hx _ d o h fun _ _ _ h => h
    · exact ⟨List.nodup_nil, fun _ _ _ s hs => absurd hs List.not_mem_nil, fun w hw => absurd hw List.not_mem_nil,
        List.Pairwise.nil⟩
  exact honce.nodup

/-! ## Two runtimes at the same time -/

section Sample

/-- The foreground looks for due plans, and the alarm of the plan starts the worker. -/
def bothRuntimes : List (Pool.Label Event (Option Answer)) :=
  [.start (.processDue 0), go 0, go 0, go 0, .start (.alarm 1 "p".toList), go 1, go 1, go 1, go 0, go 0, go 1, go 1]

/-- Both send the message of the same morning. -/
theorem sent_twice : ¬ ∀ (S : Service) (plans : Plans) (alarms : Text → Option ℤ) (now : ℤ)
    (ls : List (Pool.Label Event (Option Answer))) (q : State), (∀ x ∈ ls, ∀ e, x = .start e → e.edits = false) →
    Runs.run (tasks S).step ⟨start plans alarms now, []⟩ ls = some q → q.shared.sent.Nodup := by
  intro h
  have hrun : ∃ q, Runs.run (tasks sampleService).step ⟨start samplePlans (fun _ => none) 32400000, []⟩ bothRuntimes =
      some q ∧ ¬ q.shared.sent.Nodup :=
    Runs.exists_run _ _ (fun q : State => ¬ q.shared.sent.Nodup) (by decide +kernel)
  obtain ⟨q, hr, htwice⟩ := hrun
  refine htwice (h _ _ _ _ _ q (fun x hx e he => ?_) hr)
  simp only [bothRuntimes, go, List.mem_cons, List.not_mem_nil, or_false] at hx
  subst he
  simp at hx
  rcases hx with rfl | rfl <;> rfl

def twoMornings : List (Pool.Label Event (Option Answer)) :=
  [.start (.processDue 0), go 0, go 0, go 0, go 0, go 0, go 0, go 0, go 0, go 0, .start (.tick 118800000), go 1,
    .start (.alarm 1 "p".toList), go 2, go 2, go 2, go 2, go 2, go 2, go 2, go 2]

theorem once_twoMornings : ∃ q : State,
    Runs.run (tasks sampleService).step ⟨start samplePlans (fun _ => none) 32400000, []⟩ twoMornings = some q ∧
      q.shared.sent.length = 2 ∧ q.shared.sent.Nodup := by
  have hrun : ∃ q, Runs.run (tasks sampleService).step ⟨start samplePlans (fun _ => none) 32400000, []⟩ twoMornings =
      some q ∧ q.shared.sent.length = 2 :=
    Runs.exists_run _ _ (fun q : State => q.shared.sent.length = 2) (by decide +kernel)
  obtain ⟨q, hr, hlength⟩ := hrun
  exact ⟨q, hr, hlength, once_run sampleService samplePlans _ _ (by decide +kernel) hr⟩

end Sample

end Scheduled
end SecureChat
