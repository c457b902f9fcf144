import SecureChat.ScheduledMessages
/-!
# ScheduledEdits — what the user makes of a plan stays

A run writes back the plan that it read before it sent anything, and arms the alarm anew; `save` and `setEnabled` write
a plan that they have read before.  So each undoes what another has done meanwhile.  `edits_run` says that nothing else
does.
-/
namespace SecureChat
namespace Scheduled

open Async
open GroupControl (Text)
open Program (get modify HoldsBeside)
open scoped GroupControl

/-- The plan is `e`, perhaps at a later occurrence. -/
def ScheduledMessageEntity.Keeps (p e : ScheduledMessageEntity) : Prop :=
  p = { e with nextTriggerTime := p.nextTriggerTime }

/-- What the user has made of the plans is in effect: a deleted plan is absent; a saved one has the contents, the
recipients, the time and the repetition that it was saved with; one that was switched is as it was switched, and if it
is disabled it has no pending alarm, unless one is still being cancelled.  A plan never is at an occurrence that was its
last. -/
structure Device.InEffect (d : Device) (o : List Wait) : Prop where
  deleted (id : Text) : d.wish id = some .deleted → d.plans.get id = none
  saved (id : Text) (e : ScheduledMessageEntity) : d.wish id = some (.saved e) →
    ∃ p, d.plans.get id = some p ∧ p.Keeps e
  switched (id : Text) (e : ScheduledMessageEntity) : d.wish id = some (.switched e) →
    (∃ p, d.plans.get id = some p ∧ p.Keeps e) ∧
      (e.isEnabled = false → (∀ w ∈ o, w.op ≠ .cancel id) → d.alarms id = none)
  finished (id : Text) (p : ScheduledMessageEntity) : d.plans.get id = some p → (id, p.nextTriggerTime) ∉ d.finished

/-- The condition on the end of a step.  A plan is written back only if it has not been written since the operation read
it, except that a run that removes its plan may find it removed; and an alarm is armed only for the plan as it is
stored.  The user's cancelling of an alarm does not fail. -/
def unwritten (S : Service) (w : Wait) (answer : Option Answer) (d : Device) : Bool :=
  match w.op, answer with
  | .running run (.completeRun _), some _ => d.writes run.plan.id == run.version ||
    (S.isLast run.plan && (d.plans.get run.plan.id).isNone)
  | .insert plan version, some _ => d.writes plan.id == version
  | .register plan, some _ => d.plans.get plan.id == some plan
  | .cancel _, none => w.run.isSome
  | _, _ => true

/-! ## The invariant -/

/-- The plan has been written since it was the `version`-th time, or is as it was then. -/
structure Device.Since (d : Device) (id : Text) (version : ℕ) (found : Option ScheduledMessageEntity) : Prop where
  le : version ≤ d.writes id
  same : d.writes id = version → d.plans.get id = found

def Step.Records (S : Service) (run : Run) : Step → Prop
  | .completeRun next => ∃ t, next = if S.isLast run.plan then none else some { run.plan with nextTriggerTime := t }
  | _ => True

/-- What holds while a step is awaited. -/
def Op.Fits (S : Service) (d : Device) : Op → Prop
  | .reading id found version => d.Since id version found
  | .running run step => d.Since run.plan.id run.version (some run.plan) ∧ run.plan.isEnabled = true ∧
    step.Records S run
  | .register plan => plan.isEnabled = true
  | _ => True

def Cancelling (id : Text) (o : List Wait) : Prop := ∃ w ∈ o, w.run = none ∧ w.op = .cancel id

structure Kept (S : Service) (d : Device) (o : List Wait) : Prop where
  deleted (id : Text) : d.wish id = some .deleted → d.plans.get id = none
  saved (id : Text) (e : ScheduledMessageEntity) : d.wish id = some (.saved e) →
    ∃ p, d.plans.get id = some p ∧ p.Keeps e
  switched (id : Text) (e : ScheduledMessageEntity) : d.wish id = some (.switched e) →
    (∃ p, d.plans.get id = some p ∧ p.Keeps e) ∧ (e.isEnabled = false → d.alarms id = none ∨ Cancelling id o)
  finished (id : Text) : (d.plans.get id).isSome → ∀ t, (id, t) ∉ d.finished
  fits : ∀ w ∈ o, w.op.Fits S d

abbrev editRules (S : Service) : Tasks.Rules Answer Wait Device Event :=
  ⟨Kept S, fun _ _ _ => True, fun w a d _ => unwritten S w a d = true⟩

section Kept

variable {S : Service} {d d' : Device} {o : List Wait} {w w' : Wait} {id : Text}

theorem Kept.inEffect (h : Kept S d o) : d.InEffect o where
  deleted := h.deleted
  saved := h.saved
  switched id e he := by
    obtain ⟨hp, halarm⟩ := h.switched id e he
    refine ⟨hp, fun hdis ho => (halarm hdis).resolve_right fun hc => ?_⟩
    obtain ⟨w, hw, -, hop⟩ := hc
    exact ho w hw hop
  finished id p hp := h.finished id (by rw [hp]; rfl) _

theorem Cancelling.perm {o' : List Wait} (hp : o.Perm o') (h : Cancelling id o) : Cancelling id o' := by
  obtain ⟨w, hw, hrest⟩ := h
  exact ⟨w, hp.mem_iff.1 hw, hrest⟩

theorem Kept.perm {o' : List Wait} (hp : o.Perm o') (h : Kept S d o) : Kept S d o' where
  deleted := h.deleted
  saved := h.saved
  switched id e he := ⟨(h.switched id e he).1, fun hdis => ((h.switched id e he).2 hdis).imp_right fun hc => hc.perm hp⟩
  finished := h.finished
  fits w hw := h.fits w (hp.mem_iff.2 hw)

theorem Device.Since.mono {version : ℕ} {found : Option ScheduledMessageEntity} (h : d.Since id version found)
    (hw : d.writes id ≤ d'.writes id) (hp : d'.writes id = d.writes id → d'.plans.get id = d.plans.get id) :
    d'.Since id version found := by
  refine ⟨Nat.le_trans h.le hw, fun heq => ?_⟩
  have hsame : d.writes id = version := Nat.le_antisymm (heq ▸ hw) h.le
  rw [hp (heq.trans hsame.symm)]
  exact h.same hsame

theorem Op.Fits.mono {op : Op} (h : op.Fits S d) (hw : ∀ id, d.writes id ≤ d'.writes id)
    (hp : ∀ id, d'.writes id = d.writes id → d'.plans.get id = d.plans.get id) : op.Fits S d' := by
  cases op with
  | reading id found version => exact Device.Since.mono h (hw id) (hp id)
  | running run step => exact ⟨h.1.mono (hw _) (hp _), h.2⟩
  | register plan => exact h
  | _ => trivial

theorem Kept.cons (h : Kept S d o) (hop : w.op.Fits S d) : Kept S d (w :: o) where
  deleted := h.deleted
  saved := h.saved
  switched id e he := by
    refine ⟨(h.switched id e he).1, fun hdis => ((h.switched id e he).2 hdis).imp_right fun hc => ?_⟩
    obtain ⟨w', hw', hrest⟩ := hc
    exact ⟨w', List.mem_cons_of_mem _ hw', hrest⟩
  finished := h.finished
  fits := List.forall_mem_cons.2 ⟨hop, h.fits⟩

theorem Kept.tail (h : Kept S d (w :: o)) (hw : ∀ id, w.op = .cancel id → w.run.isSome) : Kept S d o where
  deleted := h.deleted
  saved := h.saved
  switched id e he := by
    refine ⟨(h.switched id e he).1, fun hdis => ((h.switched id e he).2 hdis).imp_right fun hc => ?_⟩
    obtain ⟨w', hw', hrun, hop⟩ := hc
    rcases List.mem_cons.1 hw' with rfl | hw'
    · have hsome := hw id hop
      rw [hrun] at hsome
      cases hsome
    · exact ⟨w', hw', hrun, hop⟩
  finished := h.finished
  fits := (List.forall_mem_cons.1 h.fits).2

theorem Kept.head (h : Kept S d (w :: o)) : w.op.Fits S d := (List.forall_mem_cons.1 h.fits).1

theorem Kept.same (h : Kept S d o) (hplans : d'.plans = d.plans) (hwrites : d'.writes = d.writes)
    (hwish : d'.wish = d.wish) (hfinished : d'.finished = d.finished)
    (halarms : ∀ id, d.alarms id = none → d'.alarms id = none) : Kept S d' o where
  deleted := by rw [hwish, hplans]; exact h.deleted
  saved := by rw [hwish, hplans]; exact h.saved
  switched id e he := by
    rw [hwish] at he
    rw [hplans]
    exact ⟨(h.switched id e he).1, fun hdis => ((h.switched id e he).2 hdis).imp_left (halarms id)⟩
  finished := by rw [hplans, hfinished]; exact h.finished
  fits w hw := (h.fits w hw).mono (fun id => by rw [hwrites]) fun id _ => by rw [hplans]

theorem Kept.cancelled {r : ℕ} {run : Option Text} (h : Kept S d (⟨r, run, .cancel id⟩ :: o)) :
    Kept S (d.setAlarm id none) o where
  deleted := h.deleted
  saved := h.saved
  switched i e he := by
    refine ⟨(h.switched i e he).1, fun hdis => ?_⟩
    by_cases hi : i = id
    · subst hi
      exact .inl (by simp [Device.setAlarm])
    · rcases (h.switched i e he).2 hdis with hnone | ⟨w, hw, hrun, hop⟩
      · exact .inl (by simpa [Device.setAlarm, hi] using hnone)
      · rcases List.mem_cons.1 hw with rfl | hw
        · cases hop
          exact absurd rfl hi
        · exact .inr ⟨w, hw, hrun, hop⟩
  finished := h.finished
  fits w hw := ((List.forall_mem_cons.1 h.fits).2 w hw).mono (fun _ => Nat.le_refl _) fun _ _ => rfl

theorem Kept.registered {r : ℕ} {run : Option Text} {plan : ScheduledMessageEntity}
    (h : Kept S d (⟨r, run, .register plan⟩ :: o)) (hstored : d.plans.get plan.id = some plan) :
    Kept S (d.setAlarm plan.id (some plan.nextTriggerTime)) o := by
  have htail : Kept S d o := h.tail fun id hid => by cases hid
  refine ⟨h.deleted, h.saved, fun i e he => ?_, h.finished, fun w hw => (htail.fits w hw).mono (fun _ => Nat.le_refl _)
    fun _ _ => rfl⟩
  obtain ⟨⟨p, hp, hkeeps⟩, halarm⟩ := htail.switched i e he
  refine ⟨⟨p, hp, hkeeps⟩, fun hdis => ?_⟩
  by_cases hi : i = plan.id
  · subst hi
    obtain rfl : plan = p := Option.some.inj (hstored.symm.trans hp)
    have henabled : plan.isEnabled = true := h.head
    rw [hkeeps] at henabled
    rw [show e.isEnabled = true from henabled] at hdis
    cases hdis
  · refine (halarm hdis).imp_left fun hnone => ?_
    simpa [Device.setAlarm, hi] using hnone

theorem Kept.savePlan {plan : ScheduledMessageEntity} {version : ℕ} {wish : Wish} (h : Kept S d o)
    (hu : d.writes plan.id = version) (hwish : wish = .saved plan ∨ wish = .switched plan)
    (hcancel : wish = .switched plan → plan.isEnabled = false → Cancelling plan.id o) :
    Kept S (d.savePlan plan version wish) o := by
  have hsave : d.savePlan plan version wish = (((d.setPlans (d.plans.put plan)).countWrite plan.id).setWish plan.id
      (some wish)).setFinished (d.finished.filter fun f => f.1 ≠ plan.id) := if_pos hu
  rw [hsave]
  have hget : ∀ i, (d.plans.put plan).get i = if i = plan.id then some plan else d.plans.get i :=
    Plans.get_put plan d.plans
  have hstored : ∃ p, (d.plans.put plan).get plan.id = some p ∧ p.Keeps plan :=
    ⟨plan, by rw [hget, if_pos rfl], rfl⟩
  have hother : ∀ i, i ≠ plan.id → ∀ v, Function.update d.wish plan.id (some wish) i = some v → d.wish i = some v :=
    fun i hi v hv => by rwa [Function.update_of_ne hi] at hv
  have hself : ∀ v, Function.update d.wish plan.id (some wish) plan.id = some v → wish = v := fun v hv => by
    rw [Function.update_self] at hv
    exact Option.some.inj hv
  refine ⟨fun i hi => ?_, fun i e he => ?_, fun i e he => ?_, fun i hi t ht => ?_, fun w hw =>
    (h.fits w hw).mono (fun i => ?_) fun i hi => ?_⟩
  · by_cases hid : i = plan.id
    · subst hid
      have hdel := hself _ hi
      rcases hwish with rfl | rfl <;> cases hdel
    · refine (hget i).trans ?_
      rw [if_neg hid]
      exact h.deleted i (hother i hid _ hi)
  · by_cases hid : i = plan.id
    · subst hid
      have hsaved := hself _ he
      rcases hwish with rfl | rfl <;> cases hsaved
      exact hstored
    · obtain ⟨p, hp, hkeeps⟩ := h.saved i e (hother i hid _ he)
      exact ⟨p, (hget i).trans ((if_neg hid).trans hp), hkeeps⟩
  · by_cases hid : i = plan.id
    · subst hid
      have hswitched := hself _ he
      rcases hwish with rfl | rfl <;> cases hswitched
      exact ⟨hstored, fun hdis => .inr (hcancel rfl hdis)⟩
    · obtain ⟨⟨p, hp, hkeeps⟩, halarm⟩ := h.switched i e (hother i hid _ he)
      exact ⟨⟨p, (hget i).trans ((if_neg hid).trans hp), hkeeps⟩, halarm⟩
  · obtain ⟨hold, hne⟩ := List.mem_filter.1 ht
    have hid : i ≠ plan.id := of_decide_eq_true hne
    have hsome : ((d.plans.put plan).get i).isSome = true := hi
    rw [hget, if_neg hid] at hsome
    exact h.finished i hsome t hold
  · by_cases hid : i = plan.id
    · subst hid
      simp [Device.setFinished, Device.setWish, Device.countWrite, Device.setPlans]
    · simp [Device.setFinished, Device.setWish, Device.countWrite, Device.setPlans, hid]
  · refine (hget i).trans (if_neg fun hid => ?_)
    subst hid
    simp [Device.setFinished, Device.setWish, Device.countWrite, Device.setPlans] at hi

theorem Kept.deletePlan (h : Kept S d o) (id : Text) : Kept S (d.deletePlan id) o := by
  have hget : ∀ i, (d.plans.remove id).get i = if i = id then none else d.plans.get i := Plans.get_remove id d.plans
  have hother : ∀ i v, Function.update d.wish id (some .deleted) i = some v → v ≠ .deleted → i ≠ id ∧
    d.wish i = some v := by
    intro i v hv hne
    by_cases hid : i = id
    · subst hid
      rw [Function.update_self] at hv
      exact absurd (Option.some.inj hv).symm hne
    · rw [Function.update_of_ne hid] at hv
      exact ⟨hid, hv⟩
  refine ⟨fun i hi => ?_, fun i e he => ?_, fun i e he => ?_, fun i hi t => ?_, fun w hw =>
    (h.fits w hw).mono (fun i => ?_) fun i hi => ?_⟩
  · refine (hget i).trans ?_
    by_cases hid : i = id
    · rw [if_pos hid]
    · rw [if_neg hid]
      refine h.deleted i ?_
      have hi' : Function.update d.wish id (some .deleted) i = some .deleted := hi
      rwa [Function.update_of_ne hid] at hi'
  · obtain ⟨hid, he⟩ := hother i _ he (by simp)
    obtain ⟨p, hp, hkeeps⟩ := h.saved i e he
    exact ⟨p, (hget i).trans ((if_neg hid).trans hp), hkeeps⟩
  · obtain ⟨hid, he⟩ := hother i _ he (by simp)
    obtain ⟨⟨p, hp, hkeeps⟩, halarm⟩ := h.switched i e he
    exact ⟨⟨p, (hget i).trans ((if_neg hid).trans hp), hkeeps⟩, halarm⟩
  · have hsome : ((d.plans.remove id).get i).isSome = true := hi
    rw [hget] at hsome
    split at hsome
    · cases hsome
    · exact h.finished i hsome t
  · by_cases hid : i = id
    · subst hid
      simp [Device.deletePlan, Device.setWish, Device.countWrite, Device.setPlans]
    · simp [Device.deletePlan, Device.setWish, Device.countWrite, Device.setPlans, hid]
  · refine (hget i).trans (if_neg fun hid => ?_)
    subst hid
    simp [Device.deletePlan, Device.setWish, Device.countWrite, Device.setPlans] at hi

theorem Kept.finishPlan {run : Run} (h : Kept S d o)
    (hu : d.writes run.plan.id = run.version ∨ d.plans.get run.plan.id = none) : Kept S (d.finishPlan run) o := by
  have hget : ∀ i, (d.finishPlan run).plans.get i = if i = run.plan.id then none else d.plans.get i := fun i => by
    have hplans : (d.finishPlan run).plans = d.plans.remove run.plan.id := Device.plans_completeRun none
    rw [hplans, Plans.get_remove]
  have hwish : ∀ i v, (d.finishPlan run).wish i = some v → d.wish i = some v ∧ (i = run.plan.id →
      d.plans.get run.plan.id = none) := by
    intro i v hv
    rw [Device.wish_finishPlan] at hv
    split at hv
    · cases hv
    · rename_i hnot
      refine ⟨hv, fun hid => hu.resolve_left fun hw => hnot ⟨hid, hw⟩⟩
  have hplan : ∀ i e, (∃ p, d.plans.get i = some p ∧ p.Keeps e) → (i = run.plan.id → d.plans.get run.plan.id = none) →
      ∃ p, (d.finishPlan run).plans.get i = some p ∧ p.Keeps e := by
    rintro i e ⟨p, hp, hkeeps⟩ hnone
    have hid : i ≠ run.plan.id := fun hid => by
      rw [hid, hnone hid] at hp
      cases hp
    exact ⟨p, (hget i).trans ((if_neg hid).trans hp), hkeeps⟩
  have halarms : (d.finishPlan run).alarms = d.alarms := Device.alarms_completeRun none
  refine ⟨fun i hi => ?_, fun i e he => ?_, fun i e he => ?_, fun i hi t ht => ?_, fun w hw =>
    (h.fits w hw).mono (fun i => ?_) fun i hi => ?_⟩
  · rw [hget]
    split
    · rfl
    · exact h.deleted i (hwish i _ hi).1
  · exact hplan i e (h.saved i e (hwish i _ he).1) (hwish i _ he).2
  · obtain ⟨hp, halarm⟩ := h.switched i e (hwish i _ he).1
    rw [halarms]
    exact ⟨hplan i e hp (hwish i _ he).2, halarm⟩
  · rw [hget] at hi
    split at hi
    · cases hi
    · rename_i hid
      rw [Device.finished_finishPlan] at ht
      split at ht
      · rcases List.mem_cons.1 ht with heq | ht
        · exact hid (congrArg Prod.fst heq)
        · exact h.finished i hi t ht
      · exact h.finished i hi t ht
  · rw [Device.writes_finishPlan]
    by_cases hid : i = run.plan.id
    · subst hid
      simp
    · simp [hid]
  · rw [hget]
    refine if_neg fun hid => ?_
    rw [Device.writes_finishPlan, hid] at hi
    simp at hi

theorem Kept.putPlan {run : Run} {t : ℤ} (h : Kept S d o) (hstored : d.plans.get run.plan.id = some run.plan) :
    Kept S ((d.setPlans (d.plans.put { run.plan with nextTriggerTime := t })).countWrite run.plan.id) o := by
  have hget : ∀ i, (d.plans.put { run.plan with nextTriggerTime := t }).get i =
      if i = run.plan.id then some { run.plan with nextTriggerTime := t } else d.plans.get i := fun i =>
    Plans.get_put _ d.plans i
  have hplan : ∀ i e, (∃ p, d.plans.get i = some p ∧ p.Keeps e) →
      ∃ p, (d.plans.put { run.plan with nextTriggerTime := t }).get i = some p ∧ p.Keeps e := by
    rintro i e ⟨p, hp, hkeeps⟩
    by_cases hid : i = run.plan.id
    · subst hid
      obtain rfl : run.plan = p := Option.some.inj (hstored.symm.trans hp)
      refine ⟨_, (hget _).trans (if_pos rfl), ?_⟩
      unfold ScheduledMessageEntity.Keeps at hkeeps ⊢
      rw [hkeeps]
    · exact ⟨p, (hget i).trans ((if_neg hid).trans hp), hkeeps⟩
  refine ⟨fun i hi => ?_, fun i e he => hplan i e (h.saved i e he), fun i e he => ⟨hplan i e (h.switched i e he).1,
    (h.switched i e he).2⟩, fun i hi => ?_, fun w hw => (h.fits w hw).mono (fun i => ?_) fun i hi => ?_⟩
  · have hnone := h.deleted i hi
    refine (hget i).trans ((if_neg fun hid => ?_).trans hnone)
    rw [hid, hstored] at hnone
    cases hnone
  · by_cases hid : i = run.plan.id
    · exact h.finished i (by rw [hid, hstored]; rfl)
    · refine h.finished i ?_
      have hsome : ((d.plans.put { run.plan with nextTriggerTime := t }).get i).isSome = true := hi
      rwa [hget, if_neg hid] at hsome
  · by_cases hid : i = run.plan.id
    · subst hid
      simp [Device.countWrite, Device.setPlans]
    · simp [Device.countWrite, Device.setPlans, hid]
  · refine (hget i).trans (if_neg fun hid => ?_)
    subst hid
    simp [Device.countWrite, Device.setPlans] at hi

/-- **A run is complete**, and its plan has not been written since it was read, or is to be removed and is. -/
theorem Kept.completeRun {r : ℕ} {i : Option Text} {run : Run} {next : Option ScheduledMessageEntity}
    (h : Kept S d (⟨r, i, .running run (.completeRun next)⟩ :: o))
    (hu : d.writes run.plan.id = run.version ∨ S.isLast run.plan = true ∧ d.plans.get run.plan.id = none) :
    Kept S (d.completeRun run next) o := by
  obtain ⟨hsince, -, t, hnext⟩ := h.head
  have htail : Kept S d o := h.tail fun id hid => by cases hid
  by_cases hlast : S.isLast run.plan = true
  · rw [if_pos hlast] at hnext
    subst hnext
    exact htail.finishPlan (hu.imp_right And.right)
  · rw [if_neg hlast] at hnext
    subst hnext
    have hw := hu.resolve_right fun hand => hlast hand.1
    exact htail.putPlan (hsince.same hw)

end Kept

/-! ## The programs -/

section Programs

variable {S : Service} {d : Device} {o : List Wait} {r : ℕ} {id : Text}

theorem preserves_on {w : Wait} (hop : ∀ d, w.op.Fits S d) (hw : ∀ id, w.op ≠ .cancel id) :
    (on w).Preserves (tasks S) (editRules S) :=
  Program.preserves_wait fun _ _ => ⟨fun h => h.cons (hop _), fun h => h.tail fun id hid => absurd hid (hw id)⟩

theorem write_cancel_holds {Q : Except Unit Unit → Device → List Wait → Prop} {run : Option Text}
    (h : Kept S d (⟨r, run, .cancel id⟩ :: o)) (hQ : ∀ a d o, Kept S d o → Q a d o) :
    (write ⟨r, run, .cancel id⟩ (·.setAlarm id none)).HoldsBeside (tasks S) (editRules S) Q d o := by
  refine ⟨h, fun d' o' hi => ⟨fun _ hu => hQ _ d' o' ?_, fun _ _ _ => hQ _ _ o' hi.cancelled⟩⟩
  exact hi.tail fun _ _ => hu

theorem cancel_preserves {run executing : Option Text} :
    (cancelScheduledMessage r run executing id).Preserves (tasks S) (editRules S) := by
  intro Q d o h hQ
  unfold cancelScheduledMessage
  split
  · exact hQ _ d o h
  · exact write_cancel_holds (h.cons trivial) hQ

theorem schedule_preserves {run executing : Option Text} {plan : ScheduledMessageEntity} :
    (scheduleMessage r run executing plan).Preserves (tasks S) (editRules S) := by
  refine cancel_preserves.bind fun _ Q d o h hQ => ?_
  refine HoldsBeside.whenever (fun henabled => ?_) fun _ => hQ _ d o h
  refine ⟨h.cons henabled, fun d' o' hi =>
    ⟨fun _ _ => hQ _ d' o' (hi.tail fun i hid => by cases hid), fun _ _ hu => ?_⟩⟩
  have hstored : (d'.plans.get plan.id == some plan) = true := hu
  exact hQ _ _ o' (hi.registered (beq_iff_eq.1 hstored))

structure Run.Read (S : Service) (run : Run) (d : Device) (o : List Wait) : Prop where
  kept : Kept S d o
  since : d.Since run.plan.id run.version (some run.plan)
  enabled : run.plan.isEnabled = true

section Run

variable {run : Run}

theorem Run.Read.cons {step : Step} (h : run.Read S d o) (hstep : step.Records S run) {i : Option Text} :
    Kept S d (⟨r, i, .running run step⟩ :: o) := h.kept.cons ⟨h.since, h.enabled, hstep⟩

theorem Kept.read {step : Step} {i : Option Text} (h : Kept S d (⟨r, i, .running run step⟩ :: o)) : run.Read S d o :=
  ⟨h.tail (fun id hid => by cases hid), h.head.1, h.head.2.1⟩

theorem complete_kept {Q : Except Unit Bool → Device → List Wait → Prop} (h : run.Read S d o)
    (hQ : ∀ a d o, Kept S d o → Q a d o) : (complete S r run).HoldsBeside (tasks S) (editRules S) Q d o := by
  refine Program.holds_get_bind ?_
  have hrecords : (Step.completeRun (S.nextPlan run.plan d.now)).Records S run := ⟨_, rfl⟩
  generalize S.nextPlan run.plan d.now = next at hrecords ⊢
  refine HoldsBeside.bind ⟨h.cons hrecords, fun d' o' hi => ⟨fun _ _ => hQ _ d' o' hi.read.kept, fun a _ hu => ?_⟩⟩
  have hu' : (d'.writes run.plan.id ==
    run.version || (S.isLast run.plan && (d'.plans.get run.plan.id).isNone)) = true :=
    hu
  rw [Bool.or_eq_true, beq_iff_eq, Bool.and_eq_true, Option.isNone_iff_eq_none] at hu'
  have hdone := hi.completeRun hu'
  cases next with
  | none => exact (cancel_preserves.bind fun _ => Program.preserves_pure true) Q _ o' hdone hQ
  | some updated => exact (schedule_preserves.bind fun _ => Program.preserves_pure true) Q _ o' hdone hQ

theorem sendAll_kept {Q : Except Unit Unit → Device → List Wait → Prop} {plan : ScheduledMessageEntity} {version : ℕ}
    (hok : ∀ handed d o, (⟨plan, version, handed⟩ : Run).Read S d o → Q (.ok ()) d o)
    (hfail : ∀ d o, Kept S d o → Q (.error ()) d o) :
    ∀ (rest handed : List Text) (d : Device) (o : List Wait), (⟨plan, version, handed⟩ : Run).Read S d o →
      (sendAll r plan version handed rest).HoldsBeside (tasks S) (editRules S) Q d o
  | [], handed, d, o, h => hok handed d o h
  | recipient :: rest, handed, d, o, h => by
    refine Program.holds_wait_bind (h.cons (by trivial)) (fun d o hi _ _ => hfail d o hi.read.kept) fun _ d
      o hi _ _ => ?_
    refine Program.holds_modify_bind (HoldsBeside.bind (HoldsBeside.attempt ?_))
    have hread : (⟨plan, version, handed ++ [recipient]⟩ : Run).Read S (d.hand plan recipient) o := by
      have h := hi.read
      exact ⟨h.kept.same rfl rfl rfl rfl fun _ ha => ha, ⟨h.since.le, h.since.same⟩, h.enabled⟩
    exact ⟨hread.cons (by trivial), fun d' o' hi' => ⟨fun _ _ => sendAll_kept hok hfail rest _ d' o' hi'.read,
      fun _ _ _ => sendAll_kept hok hfail rest _ d' o' hi'.read⟩⟩

theorem ensureConnected_kept {Q : Except Unit Bool → Device → List Wait → Prop} (h : run.Read S d o)
    (hQ : ∀ yes d o, run.Read S d o → Q (.ok yes) d o) :
    (ensureConnected r run).HoldsBeside (tasks S) (editRules S) Q d o := by
  refine HoldsBeside.bind (HoldsBeside.attempt ⟨h.cons (by trivial), fun d o hi => ⟨fun _ _ => ?_, fun a _ _ => ?_⟩⟩)
  · exact hQ false d o hi.read
  · exact hQ a.yes d o hi.read

end Run

theorem _processPlan_kept : (_processPlan S r id).Preserves (tasks S) (editRules S) := by
  intro Q d o h hQ
  refine Program.holds_get_bind ?_
  refine Program.holds_wait_bind (h.cons ⟨Nat.le_refl _, fun _ => rfl⟩)
    (fun d' o' hi _ _ => hQ _ d' o' (hi.tail fun i hid => by cases hid)) fun _ d' o' hi _ _ => ?_
  have htail : Kept S d' o' := hi.tail fun i hid => by cases hid
  have hsince : d'.Since id (d.writes id) (d.plans.get id) := hi.head
  cases hp : d.plans.get id with
  | none => exact hQ _ d' o' htail
  | some plan =>
    obtain rfl := Plans.id_of_get hp
    rw [hp] at hsince
    dsimp only
    split
    · exact hQ _ d' o' htail
    · rename_i henabled
      have hread : ∀ handed, (⟨plan, d.writes plan.id, handed⟩ : Run).Read S d' o' := fun _ =>
        ⟨htail, hsince, by simpa using henabled⟩
      refine HoldsBeside.bind (ensureConnected_kept (hread []) fun yes d o h => ?_)
      cases yes with
      | false => exact hQ _ d o h.kept
      | true =>
        refine HoldsBeside.bind (sendAll_kept (fun handed d o h => ?_) (fun d o h => hQ _ d o h) _ [] d o h)
        exact complete_kept ⟨h.kept, h.since, h.enabled⟩ hQ

theorem processPlan_kept (id : Text) : (processPlan S r id).Preserves (tasks S) (editRules S) := by
  have hprocessing : ∀ (ids : Device → List Text), (modify fun d => d.setProcessing r (ids d) : Call Unit).Preserves
      (tasks S) (editRules S) := fun ids =>
    Program.preserves_modify fun _ _ (h : Kept S _ _) => h.same rfl rfl rfl rfl fun _ ha => ha
  refine Program.preserves_get.bind fun d => ?_
  split
  · exact Program.preserves_pure false
  · refine (hprocessing fun _ => id :: d.processing r).bind fun _ => _processPlan_kept.attempt.bind fun result => ?_
    refine (hprocessing fun d => (d.processing r).filter (· ≠ id)).bind fun _ => ?_
    cases result with
    | ok processed => exact Program.preserves_pure processed
    | error _ => exact Program.preserves_throw ()

theorem processAll_kept : ∀ plans, (processAll S r plans).Preserves (tasks S) (editRules S)
  | [] => Program.preserves_pure ()
  | plan :: rest => (processPlan_kept plan.id).bind fun _ => processAll_kept rest

theorem processDue_kept : (processDue S r).Preserves (tasks S) (editRules S) := by
  refine Program.preserves_get.bind fun d => ?_
  split
  · exact Program.preserves_pure ()
  · exact (preserves_on (fun _ => by trivial) fun _ hid => by cases hid).bind fun _ => processAll_kept _

theorem alarm_kept (id : Text) : (processScheduledBackgroundPlan S r id).Preserves (tasks S) (editRules S) := by
  refine Program.Preserves.bind (Program.preserves_modify fun d o (h : Kept S d o) =>
    h.same rfl rfl rfl rfl fun i ha => ?_)
    fun _ => Program.preserves_get.bind fun d => ?_
  · by_cases hi : i = id
    · simp [Device.setAlarm, hi]
    · simpa [Device.setAlarm, hi] using ha
  · refine (preserves_on (fun _ => by trivial) fun _ hid => by cases hid).bind fun _ => ?_
    split
    · exact (processPlan_kept id).bind fun _ => Program.preserves_pure ()
    · exact Program.preserves_pure ()

/-! ### The user -/

theorem insert_holds {Q : Except Unit Unit → Device → List Wait → Prop} {plan : ScheduledMessageEntity} {version : ℕ}
    {wish : Wish} (h : Kept S d o) (hfail : ∀ d o, Kept S d o → Q (.error ()) d o)
    (hok : ∀ d o, Kept S d o → d.writes plan.id = version → Q (.ok ()) (d.savePlan plan version wish) o) :
    (write { runtime := r, op := .insert plan version } (·.savePlan plan version wish)).HoldsBeside (tasks S)
      (editRules S) Q d o := by
  refine ⟨h.cons (by trivial), fun d' o' hi => ⟨fun _ _ => hfail d' o' ?_, fun _ _ hu => ?_⟩⟩
  · exact hi.tail fun i hid => by cases hid
  · have hwrites : (d'.writes plan.id == version) = true := hu
    exact hok d' o' (hi.tail fun i hid => by cases hid) (beq_iff_eq.1 hwrites)

theorem save_kept (draft : ScheduledMessageDraft) (id : Option Text) (newId : Text) :
    (save S r draft id newId).Preserves (tasks S) (editRules S) := by
  unfold save
  split
  · exact Program.preserves_throw ()
  · refine Program.preserves_get.bind fun d => Program.Preserves.bind (Program.Preserves.whenever ?_) fun _ => ?_
    · exact (preserves_on (fun _ => by trivial) fun _ hid => by cases hid).bind fun _ => Program.preserves_pure ()
    · refine Program.preserves_get.bind fun later Q d' o h hQ => ?_
      refine HoldsBeside.bind (insert_holds h (fun d o h => hQ _ d o h) fun d o h hu => Program.holds_get_bind ?_)
      have hsaved := h.savePlan hu (.inl rfl) fun hw => by cases hw
      exact schedule_preserves.whenever Q _ o hsaved hQ

theorem setEnabled_kept (id : Text) (enabled : Bool) : (setEnabled S r id enabled).Preserves (tasks S)
    (editRules S) := by
  refine Program.preserves_get.bind fun d => ?_
  refine (preserves_on (fun _ => by trivial) fun _ hid => by cases hid).bind fun _ => ?_
  cases hp : d.plans.get id with
  | none => exact Program.preserves_pure ()
  | some current =>
    obtain rfl := Plans.id_of_get hp
    refine Program.preserves_get.bind fun later Q d' o h hQ => ?_
    dsimp only
    generalize (if enabled then S.nextTrigger current later.now else current.nextTriggerTime) = next
    refine HoldsBeside.bind (insert_holds h (fun d o h => hQ _ d o h) fun d o h hu => Program.holds_get_bind ?_)
    split
    · rename_i hon
      refine schedule_preserves Q _ o (h.savePlan hu (.inr rfl) fun _ hdis => ?_) hQ
      rw [show enabled = false from hdis] at hon
      cases hon.1
    · -- the plan is not armed, and its alarm is being cancelled
      refine write_cancel_holds ?_ hQ
      exact (h.cons (by trivial)).savePlan hu (.inr rfl) fun _ _ => ⟨_, List.mem_cons_self, rfl, rfl⟩

theorem delete_kept (id : Text) : (delete r id).Preserves (tasks S) (editRules S) := by
  refine cancel_preserves.bind fun _ Q d o h hQ => ?_
  refine ⟨h.cons (by trivial), fun d' o' hi => ⟨fun _ _ => hQ _ d' o' ?_, fun _ _ _ => hQ _ _ o' ?_⟩⟩
  · exact hi.tail fun i hid => by cases hid
  · exact (hi.tail fun i hid => by cases hid).deletePlan id

theorem program_kept (x : Event) : (program S x).Preserves (tasks S) (editRules S) := by
  have hwithin : ∀ {r : ℕ} {p : Call Unit}, p.Preserves (tasks S) (editRules S) →
      (within r p).Preserves (tasks S) (editRules S) := fun hp => Program.preserves_get.bind fun _ => hp.whenever
  have hsame : ∀ f : Device → Device, (∀ d, (f d).plans = d.plans ∧ (f d).writes = d.writes ∧ (f d).wish = d.wish ∧
      (f d).finished = d.finished ∧ (f d).alarms = d.alarms) →
      (modify f : Call Unit).Preserves (tasks S) (editRules S) := fun f hf =>
    Program.preserves_modify fun d _ (h : Kept S d _) =>
      h.same (hf d).1 (hf d).2.1 (hf d).2.2.1 (hf d).2.2.2.1 fun i ha => by rw [(hf d).2.2.2.2]; exact ha
  cases x with
  | processDue r => exact hwithin processDue_kept
  | processPlan r id => exact hwithin ((processPlan_kept id).bind fun _ => Program.preserves_pure ())
  | alarm r id => exact hwithin (alarm_kept id)
  | stop r => exact hsame _ fun d => ⟨rfl, rfl, rfl, rfl, rfl⟩
  | tick now => exact hsame _ fun d => ⟨rfl, rfl, rfl, rfl, rfl⟩
  | setEnabledHere r enabled => exact hsame _ fun d => ⟨rfl, rfl, rfl, rfl, rfl⟩
  | save r draft id newId => exact hwithin (save_kept draft id newId)
  | setEnabled r id enabled => exact hwithin (setEnabled_kept id enabled)
  | delete r id => exact hwithin (delete_kept id)

end Programs

/-! ## The runs -/

/-- **What the user has made of the plans is in effect**, in every state of every run whose steps meet the condition,
from every set of plans. -/
theorem edits_run (S : Service) (plans : Plans) (alarms : Text → Option ℤ) (now : ℤ) {q : State}
    {ls : List (Pool.Label Event (Option Answer))}
    (hm : Runs.Meets (tasks S).step (Pool.Moves (Tasks.Orderly (editRules S))) ⟨start plans alarms now, []⟩ ls)
    (hr : Runs.run (tasks S).step ⟨start plans alarms now, []⟩ ls = some q) :
    q.shared.InEffect (Task.labels q.threads) := by
  have hkept : Kept S q.shared (Task.labels q.threads) := by
    refine Tasks.holds_run (R := editRules S) (fun _ _ _ hp h => h.perm hp) (fun x d o h _ => ?_) ?_ hm hr
    · exact program_kept x _ d o h fun _ _ _ h => h
    · exact ⟨fun _ h => (by cases h), fun _ _ h => (by cases h), fun _ _ h => (by cases h),
        fun _ _ _ h => absurd h List.not_mem_nil, fun w hw => absurd hw List.not_mem_nil⟩
  exact hkept.inEffect

section Sample

def deletedMeanwhile : List (Pool.Label Event (Option Answer)) :=
  [.start (.processDue 0), go 0, go 0, go 0, go 0, go 0, .start (.delete 0 "p".toList), go 1, go 1, go 1, go 0, go 0]

/-- The plan is back. -/
theorem deletion_undone_by_run : ¬ ∀ (S : Service) (plans : Plans) (alarms : Text → Option ℤ) (now : ℤ)
    (ls : List (Pool.Label Event (Option Answer))) (q : State),
    Runs.run (tasks S).step ⟨start plans alarms now, []⟩ ls = some q → q.shared.InEffect (Task.labels q.threads) := by
  intro h
  have hrun : ∃ q, Runs.run (tasks sampleService).step ⟨start samplePlans (fun _ => none) 32400000, []⟩
      deletedMeanwhile = some q ∧ (q.shared.wish "p".toList = some .deleted ∧
        (q.shared.plans.get "p".toList).isSome = true) :=
    Runs.exists_run _ _ (fun q : State => q.shared.wish "p".toList = some .deleted ∧
      (q.shared.plans.get "p".toList).isSome = true) (by decide +kernel)
  obtain ⟨q, hr, hwish, hback⟩ := hrun
  have hgone := (h _ _ _ _ _ q hr).deleted _ hwish
  rw [hgone] at hback
  cases hback

def switchedAfterwards : List (Pool.Label Event (Option Answer)) :=
  [.start (.processDue 0), go 0, go 0, go 0, go 0, go 0, go 0, go 0, go 0, go 0,
    .start (.setEnabled 0 "p".toList false), go 1, go 1, go 1, go 1]

theorem edits_switchedAfterwards : ∃ q : State,
    Runs.run (tasks sampleService).step ⟨start samplePlans (fun _ => none) 32400000, []⟩ switchedAfterwards = some q ∧
      q.shared.InEffect (Task.labels q.threads) := by
  have hrun : ∃ q, Runs.run (tasks sampleService).step ⟨start samplePlans (fun _ => none) 32400000, []⟩
      switchedAfterwards = some q ∧ q.shared.alarms "p".toList = none :=
    Runs.exists_run _ _ (fun q : State => q.shared.alarms "p".toList = none) (by decide +kernel)
  obtain ⟨q, hr, -⟩ := hrun
  exact ⟨q, hr, edits_run sampleService samplePlans _ _ (by decide +kernel) hr⟩

end Sample

end Scheduled
end SecureChat
