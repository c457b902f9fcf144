import Mathlib.Order.Bounds.Basic
import SecureChat.ScheduledMessages
/-!
# NextTrigger — when a plan is due next

A plan names a time of the day, and the days are those of a local clock, which may be moved.  `calculateNextTrigger`
takes today's time and goes on in steps of 24 hours, so it finds the next time that is due if the clock comes to the
plan's time at these steps only, until the plan is due (`calculateNextTrigger_earliest`), and so it is if the clock is
not moved (`steady_of_unmoved`).
-/
namespace SecureChat
namespace Scheduled

open GroupControl (Text)

/-- A local clock: how far it is ahead at each instant, and the instant that the platform takes for a local time, which
is one that shows the time if there is any. -/
structure Zone where
  offset : ℤ → ℤ
  instant : ℤ → ℤ
  shown : ∀ t, instant (t + offset t) + offset (instant (t + offset t)) = t + offset t

def timeOfDay (hour minute : ℤ) : ℤ := (hour * 60 + minute) * 60 * 1000

/-- `DateTime.weekday` of a day that is counted from 1970-01-01, a Thursday. -/
def weekdayOf (d : ℤ) : ℤ := (d + 3) % 7 + 1

def admits (repetition : ScheduledRepeat) (days : List ℤ) (weekday : ℤ) : Bool :=
  match repetition with
  | .once | .daily => true
  | .custom => decide (days.filter inWeek = []) || (days.filter inWeek).contains weekday

def lastStep (repetition : ScheduledRepeat) (days : List ℤ) : ℕ :=
  match repetition with
  | .once | .daily => 1
  | .custom => if days.filter inWeek = [] then 1 else 7

namespace Zone

variable (Z : Zone)

def clock (t : ℤ) : ℤ := t + Z.offset t

def date (t : ℤ) : ℤ := Z.clock t / day

def dateTime (now hour minute : ℤ) : ℤ := Z.instant (Z.date now * day + timeOfDay hour minute)

def weekday (t : ℤ) : ℤ := weekdayOf (Z.date t)

def Shows (l t : ℤ) : Prop := Z.clock t = l ∨ (∀ s, Z.clock s ≠ l) ∧ t = Z.instant l

def Due (hour minute : ℤ) (repetition : ScheduledRepeat) (days : List ℤ) (t : ℤ) : Prop :=
  ∃ d, admits repetition days (weekdayOf d) = true ∧ Z.Shows (d * day + timeOfDay hour minute) t

def NextDue (hour minute : ℤ) (repetition : ScheduledRepeat) (days : List ℤ) (now next : ℤ) : Prop :=
  IsLeast {t | now < t ∧ Z.Due hour minute repetition days t} next

def stepTo (hour minute now : ℤ) (j : ℕ) : ℤ := Z.dateTime now hour minute + j * day

/-- Up to `k` steps of 24 hours after today's time the clock comes to the plan's time at these steps only, at each on the
next date. -/
structure Steady (hour minute now : ℤ) (k : ℕ) : Prop where
  tomorrow : now < Z.stepTo hour minute now 1
  date : ∀ j ≤ k, now < Z.stepTo hour minute now j → Z.date (Z.stepTo hour minute now j) = Z.date now + j
  shows : ∀ j ≤ k, now < Z.stepTo hour minute now j →
    Z.Shows ((Z.date now + j) * day + timeOfDay hour minute) (Z.stepTo hour minute now j)
  only : ∀ d t, now < t → t ≤ Z.stepTo hour minute now k → Z.Shows (d * day + timeOfDay hour minute) t →
    ∃ j : ℕ, d = Z.date now + j ∧ t = Z.stepTo hour minute now j

/-- Today's time is shown, and from now to `k` steps of 24 hours after it the clock is as far ahead as there; no time
that the clock skips is taken to be in between. -/
structure Unmoved (hour minute now : ℤ) (k : ℕ) : Prop where
  today : Z.clock (Z.dateTime now hour minute) = Z.date now * day + timeOfDay hour minute
  offset : ∀ t, now ≤ t → t ≤ Z.stepTo hour minute now k → Z.offset t = Z.offset (Z.dateTime now hour minute)
  taken : ∀ l, now < Z.instant l → Z.instant l ≤ Z.stepTo hour minute now k → Z.clock (Z.instant l) = l

end Zone

def Service.inZone (S : Service) (Z : Zone) : Service := { S with dateTime := Z.dateTime, weekday := Z.weekday }

section Steps

variable (Z : Zone) (hour minute : ℤ) (repetition : ScheduledRepeat) (days : List ℤ) (now : ℤ)

def isTaken (j : ℕ) : Bool :=
  admits repetition days (Z.weekday (Z.stepTo hour minute now j)) && decide (now < Z.stepTo hour minute now j)

def takenStep : ℕ :=
  ((List.range (lastStep repetition days + 1)).find? (isTaken Z hour minute repetition days now)).getD
    (lastStep repetition days)

end Steps

variable {S : Service} {Z : Zone} {hour minute : ℤ} {repetition : ScheduledRepeat} {days : List ℤ} {now : ℤ}

theorem next_eq_stepTo (hlast : lastStep repetition days = 1) (hall : ∀ w, admits repetition days w = true) :
    (if now < Z.dateTime now hour minute then Z.dateTime now hour minute else Z.dateTime now hour minute + day) =
      Z.stepTo hour minute now (takenStep Z hour minute repetition days now) := by
  have hrange : List.range (1 + 1) = [0, 1] := rfl
  unfold takenStep isTaken
  simp only [hlast, hall, Bool.true_and, hrange]
  by_cases h0 : now < Z.dateTime now hour minute
  · simp [h0, Zone.stepTo]
  · by_cases h1 : now < Z.dateTime now hour minute + day
    · simp [h0, h1, Zone.stepTo]
    · simp [h0, h1, Zone.stepTo]

theorem calculateNextTrigger_eq : (S.inZone Z).calculateNextTrigger hour minute repetition days now =
    Z.stepTo hour minute now (takenStep Z hour minute repetition days now) := by
  cases repetition with
  | once => exact next_eq_stepTo rfl fun _ => rfl
  | daily => exact next_eq_stepTo rfl fun _ => rfl
  | custom =>
    by_cases hdays : days.filter inWeek = []
    · unfold Service.calculateNextTrigger
      simp only [if_pos hdays]
      exact next_eq_stepTo (by simp [lastStep, hdays]) fun w => by simp [admits, hdays]
    · unfold Service.calculateNextTrigger
      simp only [if_neg hdays]
      have hlast : lastStep .custom days = 7 := by simp [lastStep, hdays]
      have hadmits : ∀ w, admits .custom days w = (days.filter inWeek).contains w := fun w => by simp [admits, hdays]
      unfold takenStep
      rw [hlast, List.find?_map]
      have hpred : isTaken Z hour minute .custom days now = (fun c => (days.filter inWeek).contains
          ((S.inZone Z).weekday c) && decide (now < c)) ∘ fun (offset : ℕ) => (S.inZone Z).dateTime now hour minute +
            offset * day := by
        funext j
        unfold isTaken
        rw [hadmits]
        rfl
      rw [hpred]
      cases (List.range (7 + 1)).find? _ with
      | none => rfl
      | some j => rfl

theorem takenStep_eq_iff {j : ℕ} (hj : j ≤ lastStep repetition days) :
    takenStep Z hour minute repetition days now = j ↔
      (j < lastStep repetition days → isTaken Z hour minute repetition days now j = true) ∧
      ∀ i < j, isTaken Z hour minute repetition days now i = false := by
  unfold takenStep
  cases h : (List.range (lastStep repetition days + 1)).find? (isTaken Z hour minute repetition days now) with
  | none =>
    have hnone := List.find?_range_eq_none.1 h
    simp only [Bool.not_eq_true'] at hnone
    constructor
    · rintro rfl
      exact ⟨fun hlt => absurd hlt (Nat.lt_irrefl _), fun i hi => hnone i (Nat.lt_succ_of_lt hi)⟩
    · rintro ⟨htaken, -⟩
      by_contra hne
      have hlt : j < lastStep repetition days := Nat.lt_of_le_of_ne hj fun heq => hne heq.symm
      rw [hnone j (Nat.lt_succ_of_lt hlt)] at htaken
      exact absurd (htaken hlt) Bool.false_ne_true
  | some k =>
    obtain ⟨hk, hmem, hfirst⟩ := List.find?_range_eq_some.1 h
    simp only [Bool.not_eq_true'] at hfirst
    constructor
    · rintro rfl
      exact ⟨fun _ => hk, hfirst⟩
    · rintro ⟨htaken, hbefore⟩
      rcases lt_trichotomy k j with hlt | rfl | hlt
      · rw [hbefore k hlt] at hk
        exact absurd hk Bool.false_ne_true
      · rfl
      · have hlast : j < lastStep repetition days := Nat.lt_of_lt_of_le hlt (Nat.lt_succ_iff.1 (List.mem_range.1 hmem))
        rw [hfirst j hlt] at htaken
        exact absurd (htaken hlast) Bool.false_ne_true

theorem exists_admits (repetition : ScheduledRepeat) (days : List ℤ) (d : ℤ) :
    ∃ i ≤ lastStep repetition days, 0 < i ∧ admits repetition days (weekdayOf (d + i)) = true := by
  cases repetition with
  | once => exact ⟨1, Nat.le_refl _, Nat.one_pos, rfl⟩
  | daily => exact ⟨1, Nat.le_refl _, Nat.one_pos, rfl⟩
  | custom =>
    unfold admits lastStep
    by_cases hdays : days.filter inWeek = []
    · simp only [hdays, if_true]
      exact ⟨1, Nat.le_refl _, Nat.one_pos, rfl⟩
    · obtain ⟨w, hw⟩ := List.exists_mem_of_ne_nil _ hdays
      have hweek : 1 ≤ w ∧ w ≤ 7 := by simpa [inWeek] using (List.mem_filter.1 hw).2
      have hi : weekdayOf (d + (((w - weekdayOf d - 1) % 7 + 1).toNat : ℤ)) = w := by
        unfold weekdayOf
        omega
      simp only [if_neg hdays]
      refine ⟨((w - weekdayOf d - 1) % 7 + 1).toNat, by omega, by omega, ?_⟩
      rw [hi, Bool.or_eq_true_iff]
      exact .inr (List.contains_iff_mem.2 hw)

/-! ## A clock that comes to the plan's time every 24 hours -/

section Steady

variable {k : ℕ}

theorem stepTo_le {i j : ℕ} (h : i ≤ j) : Z.stepTo hour minute now i ≤ Z.stepTo hour minute now j := by
  unfold Zone.stepTo day
  omega

theorem isTaken_eq (hs : Z.Steady hour minute now k) {i : ℕ} (hi : i ≤ k) (hnow : now < Z.stepTo hour minute now i) :
    isTaken Z hour minute repetition days now i = admits repetition days (weekdayOf (Z.date now + i)) := by
  rw [isTaken, Zone.weekday, hs.date i hi hnow, decide_eq_true hnow, Bool.and_true]

/-- **Until a day that is admitted, the first step on such a day is taken**, and the plan is due next there. -/
theorem nextDue_of_steady (hadmits : admits repetition days (weekdayOf (Z.date now + k)) = true)
    (hahead : now < Z.stepTo hour minute now k) (hs : Z.Steady hour minute now k) :
    Z.NextDue hour minute repetition days now
      ((S.inZone Z).calculateNextTrigger hour minute repetition days now) := by
  have hktaken : isTaken Z hour minute repetition days now k = true := (isTaken_eq hs (Nat.le_refl k) hahead).trans hadmits
  have hsome : ∃ j, isTaken Z hour minute repetition days now j = true := ⟨k, hktaken⟩
  obtain ⟨j, hj, hfirst⟩ : ∃ j, isTaken Z hour minute repetition days now j = true ∧
      ∀ i, isTaken Z hour minute repetition days now i = true → j ≤ i :=
    ⟨Nat.find hsome, Nat.find_spec hsome, fun i hi => Nat.find_le hi⟩
  have hjk : j ≤ k := hfirst k hktaken
  have hafter : now < Z.stepTo hour minute now j := of_decide_eq_true (Bool.and_eq_true_iff.1 hj).2
  have hlast : j ≤ lastStep repetition days := by
    obtain ⟨i, hi, hi0, hday⟩ := exists_admits repetition days (Z.date now)
    rcases le_or_gt i k with hik | hik
    · have hitaken : isTaken Z hour minute repetition days now i = true :=
        (isTaken_eq hs hik (lt_of_lt_of_le hs.tomorrow (stepTo_le hi0))).trans hday
      exact (hfirst i hitaken).trans hi
    · exact hjk.trans ((le_of_lt hik).trans hi)
  have hstep : takenStep Z hour minute repetition days now = j :=
    (takenStep_eq_iff hlast).2 ⟨fun _ => hj, fun i hi => Bool.eq_false_iff.2 fun h => absurd (hfirst i h) (not_le.2 hi)⟩
  rw [calculateNextTrigger_eq, hstep]
  refine ⟨⟨hafter, Z.date now + j, (isTaken_eq hs hjk hafter).symm.trans hj, hs.shows j hjk hafter⟩, ?_⟩
  rintro t ⟨ht, d, hd, hshows⟩
  by_contra hearly
  have hearly := not_le.1 hearly
  obtain ⟨i, rfl, rfl⟩ := hs.only d t ht (le_of_lt (lt_of_lt_of_le hearly (stepTo_le hjk))) hshows
  have hij : i < j := not_le.1 fun hji => absurd (stepTo_le hji) (not_le.2 hearly)
  exact absurd (hfirst i ((isTaken_eq hs (hij.le.trans hjk) ht).trans hd)) (not_le.2 hij)

end Steady

/-! ## A clock that is not moved -/

section Unmoved

variable {k : ℕ}

theorem Zone.clock_mem_date (Z : Zone) (t : ℤ) : Z.date t * day ≤ Z.clock t ∧ Z.clock t < (Z.date t + 1) * day := by
  unfold Zone.date day
  omega

theorem stepTo_eq (hs : Z.Unmoved hour minute now k) (i : ℕ) : Z.stepTo hour minute now i =
    (Z.date now + i) * day + timeOfDay hour minute - Z.offset (Z.dateTime now hour minute) := by
  have htoday := hs.today
  unfold Zone.clock at htoday
  unfold Zone.stepTo
  linarith

theorem clock_stepTo (hs : Z.Unmoved hour minute now k) {i : ℕ} (hi : i ≤ k) (hnow : now < Z.stepTo hour minute now i) :
    Z.clock (Z.stepTo hour minute now i) = (Z.date now + i) * day + timeOfDay hour minute := by
  rw [Zone.clock, hs.offset _ (le_of_lt hnow) (stepTo_le hi), stepTo_eq hs]
  ring

theorem steady_of_unmoved (hpos : 0 ≤ timeOfDay hour minute) (hlt : timeOfDay hour minute < day)
    (hahead : now < Z.stepTo hour minute now k) (hs : Z.Unmoved hour minute now k) : Z.Steady hour minute now k where
  tomorrow := by
    have hnow := (Z.clock_mem_date now).2
    rw [Zone.clock, hs.offset now (le_refl _) (le_of_lt hahead)] at hnow
    rw [stepTo_eq hs]
    unfold day at *
    omega
  date j hj hnow := by
    rw [Zone.date, clock_stepTo hs hj hnow, Int.add_comm, Int.add_mul_ediv_right _ _ (by decide),
      Int.ediv_eq_zero_of_lt hpos hlt, Int.zero_add]
  shows j hj hnow := .inl (clock_stepTo hs hj hnow)
  only d t hnow hle hshows := by
    have hclock : Z.clock t = d * day + timeOfDay hour minute := by
      rcases hshows with h | ⟨hskipped, rfl⟩
      · exact h
      · exact absurd (hs.taken _ hnow hle) (hskipped _)
    have hdate := (Z.clock_mem_date now).1
    rw [Zone.clock, hs.offset now (le_refl _) (le_of_lt hahead)] at hdate
    rw [Zone.clock, hs.offset t (le_of_lt hnow) hle] at hclock
    have hd : Z.date now ≤ d := by
      unfold day at *
      omega
    obtain ⟨i, hi⟩ := Int.eq_ofNat_of_zero_le (Int.sub_nonneg.2 hd)
    obtain rfl : d = Z.date now + i := by omega
    exact ⟨i, rfl, by rw [stepTo_eq hs]; omega⟩

end Unmoved

/-! ## A clock that is never moved -/

section Fixed

variable {c : ℤ}

theorem clock_instant_fixed (hc : ∀ t, Z.offset t = c) (l : ℤ) : Z.clock (Z.instant l) = l := by
  have h := Z.shown (l - c)
  rwa [hc, Int.sub_add_cancel] at h

/-- **Where the clock is never moved, the plan is due next at what is returned.** -/
theorem calculateNextTrigger_fixed (hc : ∀ t, Z.offset t = c) (hpos : 0 ≤ timeOfDay hour minute)
    (hlt : timeOfDay hour minute < day) : Z.NextDue hour minute repetition days now
      ((S.inZone Z).calculateNextTrigger hour minute repetition days now) := by
  obtain ⟨k, -, hk, hadmits⟩ := exists_admits repetition days (Z.date now)
  have hs : Z.Unmoved hour minute now k :=
    ⟨clock_instant_fixed hc _, fun _ _ _ => (hc _).trans (hc _).symm, fun l _ _ => clock_instant_fixed hc l⟩
  have hahead : now < Z.stepTo hour minute now k := by
    have hnow := (Z.clock_mem_date now).2
    rw [Zone.clock, hc] at hnow
    rw [stepTo_eq hs, hc]
    unfold day at *
    omega
  exact nextDue_of_steady hadmits hahead (steady_of_unmoved hpos hlt hahead hs)

end Fixed

section Sample

def winterTime : Zone where
  offset _ := 3600000
  instant l := l - 3600000
  shown t := by omega

theorem calculateNextTrigger_fixed_winterTime : winterTime.NextDue 9 0 .daily [] 32400000
    ((sampleService.inZone winterTime).calculateNextTrigger 9 0 .daily [] 32400000) :=
  calculateNextTrigger_fixed (fun _ => rfl) (by decide) (by decide)

end Sample

end Scheduled
end SecureChat
