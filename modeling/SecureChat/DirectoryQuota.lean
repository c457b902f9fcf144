import Mathlib
import SecureChat.Runs
/-!
# DirectoryQuota — the day's candidates of an account

PostgreSQL keeps one row for each account: a day and what has been used on it.  The statement that takes from the quota
is atomic on its row, but the day it presents was read before it runs.  A row of another day is replaced, whichever of
the two days is the later one; so the bound holds over every run in which no statement presents an earlier day than the
row it finds, nor one that has been purged (`tryConsume_run`).
-/
namespace SecureChat
namespace DirectoryQuota

open Runs

def DAILY_CANDIDATE_LIMIT : ℕ := 8192

def RETENTION_DAYS : ℤ := 2

def toInt (n : ℤ) : ℤ := Int.bmod n (2 ^ 32)

def dayBucket (nowMillis : ℤ) : ℤ := toInt (nowMillis.tdiv 86400000)

structure Row where
  dayBucket : ℤ
  used : ℤ
deriving DecidableEq

structure Call (U : Type) where
  userId : U
  cost : ℤ
  nowMillis : ℤ
deriving DecidableEq

inductive Failure where
  | invalidCost
  | integerOutOfRange
deriving DecidableEq

variable {U I : Type}

/-- `consume`: `CONSUME_SQL` on the account's row, and whether it returns one. -/
def consume (limit : ℕ) (c : Call U) : Option Row → Except Failure Bool × Option Row
  | none => (.ok true, some ⟨dayBucket c.nowMillis, c.cost⟩)
  | some q =>
    if q.dayBucket ≠ dayBucket c.nowMillis then (.ok true, some ⟨dayBucket c.nowMillis, c.cost⟩)
    else if 2 ^ 31 ≤ q.used + c.cost then (.error .integerOutOfRange, some q)
    else if q.used + c.cost ≤ limit then (.ok true, some ⟨dayBucket c.nowMillis, q.used + c.cost⟩)
    else (.ok false, some q)

def tryConsume (limit : ℕ) (c : Call U) (row : Option Row) : Except Failure Bool × Option Row :=
  if 1 ≤ c.cost ∧ c.cost ≤ limit then consume limit c row else (.error .invalidCost, row)

/-- `purgeExpired`, on one row. -/
def purgeExpired (horizon : ℤ) : Option Row → Option Row
  | none => none
  | some q => if q.dayBucket < horizon then none else some q

/-! ## Runs -/

inductive Event (U : Type) where
  | tryConsume (c : Call U)
  | purgeExpired (nowMillis : ℤ)
deriving DecidableEq

/-- The rows, by the account's blind index; the last day that a purge has left, and what has been granted. -/
structure State (U I : Type) where
  rows : I → Option Row
  horizon : Option ℤ
  granted : List (Call U)

def State.init : State U I := ⟨fun _ => none, none, []⟩

variable [DecidableEq I] (blindIndex : U → I) (limit : ℕ)

def answer (s : State U I) (c : Call U) : Except Failure Bool :=
  (tryConsume limit c (s.rows (blindIndex c.userId))).1

def step (s : State U I) : Event U → Option (State U I)
  | .tryConsume c =>
    let x := tryConsume limit c (s.rows (blindIndex c.userId))
    some { s with
      rows := Function.update s.rows (blindIndex c.userId) x.2
      granted := match x.1 with
        | .ok true => c :: s.granted
        | _ => s.granted }
  | .purgeExpired nowMillis =>
    let horizon := toInt (dayBucket nowMillis - RETENTION_DAYS)
    some { s with
      rows := fun i => purgeExpired horizon (s.rows i)
      horizon := some (max horizon (s.horizon.getD horizon)) }

/-- What the calls that `p` selects cost together. -/
def spent (p : Call U → Bool) (calls : List (Call U)) : ℤ := ((calls.filter p).map Call.cost).sum

def of (i : I) (day : ℤ) (c : Call U) : Bool := decide (blindIndex c.userId = i) && decide (dayBucket c.nowMillis = day)

/-- The statement presents no day before the one of the row it finds, and none that has been purged. -/
def timely (s : State U I) : Event U → Prop
  | .tryConsume c => (∀ q, s.rows (blindIndex c.userId) = some q → q.dayBucket ≤ dayBucket c.nowMillis) ∧
    ∀ h, s.horizon = some h → h ≤ dayBucket c.nowMillis
  | .purgeExpired _ => True

section Lists

omit [DecidableEq I] in
@[simp] theorem spent_nil (p : Call U → Bool) : spent p [] = 0 := rfl

theorem spent_cons (p : Call U → Bool) (c : Call U) (calls : List (Call U)) :
    spent p (c :: calls) = (if p c then c.cost else 0) + spent p calls := by
  unfold spent
  by_cases hp : p c = true
  · rw [List.filter_cons_of_pos hp, List.map_cons, List.sum_cons, if_pos hp]
  · rw [List.filter_cons_of_neg hp, if_neg hp, Int.zero_add]

theorem spent_mono {p q : Call U → Bool} (h : ∀ c, p c = true → q c = true) : ∀ {calls : List (Call U)},
    (∀ c ∈ calls, 0 ≤ c.cost) → spent p calls ≤ spent q calls
  | [], _ => Int.le_refl 0
  | c :: calls, hpos => by
    have ih : spent p calls ≤ spent q calls := spent_mono h fun d hd => hpos d (List.mem_cons_of_mem c hd)
    have hc : 0 ≤ c.cost := hpos c List.mem_cons_self
    rw [spent_cons, spent_cons]
    by_cases hp : p c = true
    · rw [if_pos hp, if_pos (h c hp)]
      omega
    · rw [if_neg hp]
      split <;> omega

end Lists

/-- What is granted for a row: no more than the row says for its day, nothing for a later one, and nothing that has not
been purged where there is no row. -/
def Accounted (granted : ℤ → ℤ) (horizon : Option ℤ) : Option Row → Prop
  | some q => granted q.dayBucket ≤ q.used ∧ q.used ≤ limit ∧ ∀ day, q.dayBucket < day → granted day = 0
  | none => ∀ day, (∀ h, horizon = some h → h ≤ day) → granted day = 0

structure Inv (s : State U I) : Prop where
  rows : ∀ i, Accounted limit (fun day => spent (of blindIndex i day) s.granted) s.horizon (s.rows i)
  bounded : ∀ i day, spent (of blindIndex i day) s.granted ≤ limit
  costs : ∀ c ∈ s.granted, 0 ≤ c.cost

variable {blindIndex limit} {s s' : State U I}

theorem inv_init : Inv blindIndex limit (State.init : State U I) := by
  constructor
  · intro i day _
    rfl
  · intro i day
    exact Int.natCast_nonneg limit
  · intro c hc
    cases hc

theorem tryConsume_cases (limit : ℕ) (c : Call U) (row : Option Row) :
    ((tryConsume limit c row).1 ≠ .ok true ∧ (tryConsume limit c row).2 = row) ∨
      ((tryConsume limit c row).1 = .ok true ∧ 1 ≤ c.cost ∧
        ((c.cost ≤ limit ∧ (tryConsume limit c row).2 = some ⟨dayBucket c.nowMillis, c.cost⟩ ∧
          ∀ q, row = some q → q.dayBucket ≠ dayBucket c.nowMillis) ∨
        ∃ q, row = some q ∧ q.dayBucket = dayBucket c.nowMillis ∧ q.used + c.cost ≤ limit ∧
          (tryConsume limit c row).2 = some ⟨dayBucket c.nowMillis, q.used + c.cost⟩)) := by
  unfold tryConsume
  by_cases hcost : 1 ≤ c.cost ∧ c.cost ≤ limit
  · rw [if_pos hcost]
    cases row with
    | none => exact .inr ⟨rfl, hcost.1, .inl ⟨hcost.2, rfl, fun q hq => (by cases hq)⟩⟩
    | some q =>
      unfold consume
      dsimp only
      by_cases hday : q.dayBucket ≠ dayBucket c.nowMillis
      · rw [if_pos hday]
        refine .inr ⟨rfl, hcost.1, .inl ⟨hcost.2, rfl, fun q' hq => ?_⟩⟩
        cases hq
        exact hday
      · rw [if_neg hday]
        split
        · exact .inl ⟨by simp, rfl⟩
        · split
          · next hle => exact .inr ⟨rfl, hcost.1, .inr ⟨q, rfl, not_not.1 hday, hle, rfl⟩⟩
          · exact .inl ⟨by simp, rfl⟩
  · rw [if_neg hcost]
    exact .inl ⟨by simp, rfl⟩

theorem step_of_answer {c : Call U} (h : answer blindIndex limit s c ≠ .ok true)
    (hstep : step blindIndex limit s (.tryConsume c) = some s') : s' = s := by
  unfold answer at h
  rcases tryConsume_cases limit c (s.rows (blindIndex c.userId)) with ⟨-, hrow⟩ | ⟨hok, -⟩
  · unfold step at hstep
    obtain rfl := Option.some.inj hstep
    have hgranted : (match (tryConsume limit c (s.rows (blindIndex c.userId))).1 with
        | .ok true => c :: s.granted
        | _ => s.granted) = s.granted := by
      split
      · next hok => exact absurd hok h
      · rfl
    rw [hgranted, hrow, Function.update_eq_self]
  · exact absurd hok h

theorem step_of_granted {c : Call U} (h : answer blindIndex limit s c = .ok true)
    (hstep : step blindIndex limit s (.tryConsume c) = some s') :
    s'.rows = Function.update s.rows (blindIndex c.userId)
      (tryConsume limit c (s.rows (blindIndex c.userId))).2 ∧
    s'.horizon = s.horizon ∧ s'.granted = c :: s.granted := by
  unfold answer at h
  unfold step at hstep
  obtain rfl := Option.some.inj hstep
  refine ⟨rfl, rfl, ?_⟩
  rw [h]

theorem spent_of_ne {c : Call U} {i : I} {day : ℤ} {calls : List (Call U)}
    (h : blindIndex c.userId ≠ i ∨ dayBucket c.nowMillis ≠ day) :
    spent (of blindIndex i day) (c :: calls) = spent (of blindIndex i day) calls := by
  have hnot : of blindIndex i day c = false := by
    unfold of
    rcases h with h | h <;> simp [h]
  rw [spent_cons, hnot, if_neg (by simp), Int.zero_add]

theorem spent_of_self (c : Call U) (calls : List (Call U)) :
    spent (of blindIndex (blindIndex c.userId) (dayBucket c.nowMillis)) (c :: calls) =
      c.cost + spent (of blindIndex (blindIndex c.userId) (dayBucket c.nowMillis)) calls := by
  rw [spent_cons, if_pos (by simp [of])]

theorem Inv.tryConsume (h : Inv blindIndex limit s) {c : Call U} (ht : timely blindIndex s (.tryConsume c))
    (hstep : step blindIndex limit s (.tryConsume c) = some s') : Inv blindIndex limit s' := by
  by_cases hanswer : answer blindIndex limit s c = .ok true
  · obtain ⟨hrows, hhorizon, hgranted⟩ := step_of_granted hanswer hstep
    have hown := h.rows (blindIndex c.userId)
    -- what the row says after the call, and what is granted with it
    obtain ⟨used, hcost, hrow, hle, hspent, hnone⟩ : ∃ used : ℤ, 1 ≤ c.cost ∧
        (DirectoryQuota.tryConsume limit c (s.rows (blindIndex c.userId))).2 = some ⟨dayBucket c.nowMillis, used⟩ ∧
        used ≤ limit ∧
        c.cost + spent (of blindIndex (blindIndex c.userId) (dayBucket c.nowMillis)) s.granted ≤ used ∧
        ∀ day, dayBucket c.nowMillis < day → spent (of blindIndex (blindIndex c.userId) day) s.granted = 0 := by
      rcases tryConsume_cases limit c (s.rows (blindIndex c.userId)) with
        ⟨hno, -⟩ | ⟨-, hcost, ⟨hle, hrow, hday⟩ | ⟨q, hq, hday, hle, hrow⟩⟩
      · exact absurd hanswer hno
      · have hlater : ∀ day, dayBucket c.nowMillis ≤ day →
            spent (of blindIndex (blindIndex c.userId) day) s.granted = 0 := by
          intro day hle
          cases hq : s.rows (blindIndex c.userId) with
          | none =>
            rw [hq] at hown
            exact hown day fun p hp => (ht.2 p hp).trans hle
          | some q =>
            rw [hq] at hown
            have hlt : q.dayBucket < dayBucket c.nowMillis := lt_of_le_of_ne (ht.1 q hq) (hday q hq)
            exact hown.2.2 day (lt_of_lt_of_le hlt hle)
        refine ⟨c.cost, hcost, hrow, hle, ?_, fun day hlt => hlater day hlt.le⟩
        rw [hlater _ le_rfl, Int.add_zero]
      · rw [hq] at hown
        obtain ⟨hused, -, hnone⟩ := hown
        rw [hday] at hused hnone
        dsimp only at hused
        exact ⟨q.used + c.cost, hcost, hrow, hle, by omega, hnone⟩
    constructor
    · intro i
      rw [hrows, hhorizon, hgranted]
      by_cases hi : blindIndex c.userId = i
      · subst hi
        rw [Function.update_self, hrow]
        refine ⟨?_, hle, fun day hlt => ?_⟩
        · show spent _ (c :: s.granted) ≤ used
          rw [spent_of_self]
          exact hspent
        · show spent _ (c :: s.granted) = 0
          rw [spent_of_ne (.inr (by show dayBucket c.nowMillis ≠ day; exact ne_of_lt hlt))]
          exact hnone day hlt
      · rw [Function.update_of_ne (Ne.symm hi)]
        have hsame : (fun day => spent (of blindIndex i day) (c :: s.granted)) =
            fun day => spent (of blindIndex i day) s.granted := by
          funext day
          exact spent_of_ne (.inl hi)
        rw [hsame]
        exact h.rows i
    · intro i day
      rw [hgranted]
      by_cases hother : blindIndex c.userId ≠ i ∨ dayBucket c.nowMillis ≠ day
      · rw [spent_of_ne hother]
        exact h.bounded i day
      · obtain ⟨hi, hday⟩ := not_or.1 hother
        obtain rfl := not_not.1 hi
        obtain rfl := not_not.1 hday
        rw [spent_of_self]
        exact hspent.trans hle
    · intro d hd
      rw [hgranted] at hd
      rcases List.mem_cons.1 hd with rfl | hd
      · omega
      · exact h.costs d hd
  · rw [step_of_answer hanswer hstep]
    exact h

theorem Inv.purgeExpired (h : Inv blindIndex limit s) {nowMillis : ℤ}
    (hstep : step blindIndex limit s (.purgeExpired nowMillis) = some s') : Inv blindIndex limit s' := by
  unfold step at hstep
  obtain rfl := Option.some.inj hstep
  refine ⟨fun i => ?_, h.bounded, h.costs⟩
  have hi := h.rows i
  dsimp only
  generalize toInt (dayBucket nowMillis - RETENTION_DAYS) = horizon
  cases hq : s.rows i with
  | none =>
    rw [hq] at hi
    intro day hday
    refine hi day fun p hp => ?_
    have hmax := hday _ rfl
    rw [hp, Option.getD_some] at hmax
    exact (le_max_right horizon p).trans hmax
  | some q =>
    rw [hq] at hi
    unfold DirectoryQuota.purgeExpired
    by_cases hgone : q.dayBucket < horizon
    · simp only [if_pos hgone]
      intro day hday
      have hmax := hday _ rfl
      exact hi.2.2 day (hgone.trans_le ((le_max_left _ _).trans hmax))
    · simp only [if_neg hgone]
      exact hi

theorem inv_run {es : List (Event U)} (hm : Meets (step blindIndex limit) (timely blindIndex) State.init es)
    (hr : run (step blindIndex limit) State.init es = some s) : Inv blindIndex limit s := by
  refine Meets.invariant (Inv blindIndex limit) (fun s e s' hi ht hstep => ?_) inv_init hm hr
  cases e with
  | tryConsume c => exact hi.tryConsume ht hstep
  | purgeExpired n => exact hi.purgeExpired hstep

/-- **The quota holds over every run** in which no statement presents a day before the one of the row it finds, or one
that has been purged; and a refusal changes no row, whatever day it presents. -/
theorem tryConsume_run [DecidableEq U] {es : List (Event U)}
    (hm : Meets (step blindIndex limit) (timely blindIndex) State.init es)
    (hr : run (step blindIndex limit) State.init es = some s) :
    (∀ userId day, spent (fun c => decide (c.userId = userId) && decide (dayBucket c.nowMillis = day)) s.granted ≤
      limit) ∧
    ∀ (m m' : State U I) c, answer blindIndex limit m c = .ok false →
      step blindIndex limit m (.tryConsume c) = some m' → m'.rows = m.rows := by
  have hinv := inv_run hm hr
  constructor
  · intro userId day
    refine le_trans (spent_mono (fun c hc => ?_) hinv.costs) (hinv.bounded (blindIndex userId) day)
    obtain ⟨hu, hday⟩ := Bool.and_eq_true_iff.1 hc
    simp [of, of_decide_eq_true hu, of_decide_eq_true hday]
  · intro m m' c hanswer hstep
    rw [step_of_answer (by simp [hanswer]) hstep]

/-- The start of the `n`th day. -/
def midnight (n : ℤ) : ℤ := n * 86400000

theorem tryConsume_days : ∃ s, run (step (id : ℕ → ℕ) 8192) State.init
      [.tryConsume ⟨1, 8192, midnight 20000⟩, .tryConsume ⟨1, 256, midnight 20000⟩,
        .tryConsume ⟨1, 256, midnight 20001⟩] = some s ∧
    s.granted = [⟨1, 256, midnight 20001⟩, ⟨1, 8192, midnight 20000⟩] ∧
    ∀ day, spent (fun c => decide (c.userId = 1) && decide (dayBucket c.nowMillis = day)) s.granted ≤ (8192 : ℕ) := by
  obtain ⟨s, hs, hgranted⟩ : ∃ s, run (step (id : ℕ → ℕ) 8192) State.init
      [.tryConsume ⟨1, 8192, midnight 20000⟩, .tryConsume ⟨1, 256, midnight 20000⟩,
        .tryConsume ⟨1, 256, midnight 20001⟩] = some s ∧
      s.granted = [⟨1, 256, midnight 20001⟩, ⟨1, 8192, midnight 20000⟩] := exists_run _ _ _ (by decide +kernel)
  refine ⟨s, hs, hgranted, (tryConsume_run ?_ hs).1 1⟩
  refine ⟨⟨fun q hq => (by cases hq), fun h hh => (by cases hh)⟩, ⟨fun q hq => ?_, fun h hh => (by cases hh)⟩,
    ⟨fun q hq => ?_, fun h hh => (by cases hh)⟩, trivial⟩
  · obtain rfl := Option.some.inj hq
    decide
  · obtain rfl := Option.some.inj hq
    decide

/-- **A statement that was late for midnight starts the day before anew**, and so it is granted twice. -/
theorem tryConsume_lateDay : ∃ s, run (step (id : ℕ → ℕ) DAILY_CANDIDATE_LIMIT) State.init
      [.tryConsume ⟨1, 8192, midnight 20001 - 2⟩, .tryConsume ⟨1, 256, midnight 20001⟩,
        .tryConsume ⟨1, 8192, midnight 20001 - 1⟩] = some s ∧
    spent (fun c => decide (c.userId = 1) && decide (dayBucket c.nowMillis = 20000)) s.granted = 16384 :=
  exists_run _ _ _ (by decide +kernel)

end DirectoryQuota
end SecureChat
