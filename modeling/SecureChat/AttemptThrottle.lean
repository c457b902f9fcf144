import Mathlib.Data.List.Induction
import Mathlib.Data.Nat.Basic
/-!
# AttemptThrottle — failures are counted, and too many of them block

A gate counts the wrong attempts since the last right one or the last reset.  The last wrong attempt that reaches the
limit starts the count again and blocks the gate for a while.  The state of a gate is what the history of the attempts
that it let through has made of it (`streak_eq`, `blockedUntil_eq_some`), so after so many wrong attempts in a row none
is let through for that while (`blocked_after`).
-/
namespace SecureChat
namespace AttemptThrottle

structure Gate where
  failures : ℕ
  blockedUntil : Option ℕ
deriving DecidableEq

inductive Mark where
  | attempt (time : ℕ) (right : Bool)
  | reset
deriving DecidableEq

def Gate.fresh : Gate := ⟨0, none⟩

def Gate.lets (g : Gate) (now : ℕ) : Bool := g.blockedUntil.all fun t => decide (t ≤ now)

variable (limit lockout : ℕ)

def Gate.mark (g : Gate) : Mark → Gate
  | .attempt now false =>
    if limit ≤ g.failures + 1 then ⟨0, some (now + lockout)⟩ else ⟨g.failures + 1, none⟩
  | .attempt _ true => .fresh
  | .reset => .fresh

def Gate.after (history : List Mark) : Gate := history.foldl (Gate.mark limit lockout) .fresh

def streakMark (n : ℕ) : Mark → ℕ
  | .attempt _ false => n + 1
  | .attempt _ true => 0
  | .reset => 0

def streak (history : List Mark) : ℕ := history.foldl streakMark 0

/-- The history ends with a wrong attempt at time `t` that made the wrong ones in a row a multiple of the limit. -/
def Exhausts (history : List Mark) (t : ℕ) : Prop :=
  ∃ before, history = before ++ [.attempt t false] ∧ limit ∣ streak history

def Obeys (history : List Mark) : Prop :=
  ∀ pre t right post, history = pre ++ .attempt t right :: post → (Gate.after limit lockout pre).lets t = true

variable {limit lockout} {history : List Mark}

theorem after_append_singleton (m : Mark) :
    Gate.after limit lockout (history ++ [m]) = (Gate.after limit lockout history).mark limit lockout m := by
  rw [Gate.after, List.foldl_append]
  rfl

theorem streak_append_singleton (m : Mark) : streak (history ++ [m]) = streakMark (streak history) m := by
  rw [streak, List.foldl_append]
  rfl

theorem streak_eq (lockout : ℕ) (history : List Mark) (hlimit : 0 < limit) :
    (Gate.after limit lockout history).failures < limit ∧
      ∃ blocks, streak history = blocks * limit + (Gate.after limit lockout history).failures := by
  induction history using List.reverseRecOn with
  | nil => exact ⟨hlimit, 0, (Nat.zero_mul limit).symm⟩
  | append_singleton history m ih =>
    rw [after_append_singleton, streak_append_singleton]
    cases m with
    | reset => exact ⟨hlimit, 0, (Nat.zero_mul limit).symm⟩
    | attempt t right =>
      cases right with
      | true => exact ⟨hlimit, 0, (Nat.zero_mul limit).symm⟩
      | false =>
        obtain ⟨hlt, blocks, hblocks⟩ := ih
        simp only [Gate.mark, streakMark]
        by_cases hfull : limit ≤ (Gate.after limit lockout history).failures + 1
        · rw [if_pos hfull]
          have hnext : (blocks + 1) * limit = blocks * limit + limit := Nat.succ_mul blocks limit
          exact ⟨hlimit, blocks + 1, by simp only; omega⟩
        · rw [if_neg hfull]
          exact ⟨by simp only; omega, blocks, by simp only; omega⟩

theorem failures_eq_zero_iff (lockout : ℕ) (history : List Mark) (hlimit : 0 < limit) :
    (Gate.after limit lockout history).failures = 0 ↔ limit ∣ streak history := by
  obtain ⟨hlt, blocks, hblocks⟩ := streak_eq lockout history hlimit
  rw [hblocks, Nat.dvd_add_right (Nat.dvd_mul_left limit blocks)]
  constructor
  · intro h
    rw [h]
    exact Nat.dvd_zero limit
  · exact fun h => Nat.eq_zero_of_dvd_of_lt h hlt

theorem blockedUntil_eq_some (lockout : ℕ) (hlimit : 0 < limit) {u : ℕ} :
    (Gate.after limit lockout history).blockedUntil = some u ↔ ∃ t, Exhausts limit history t ∧ u = t + lockout := by
  constructor
  · induction history using List.reverseRecOn with
    | nil => exact fun h => by cases h
    | append_singleton history m =>
      intro h
      have hzero := failures_eq_zero_iff lockout (history ++ [m]) hlimit
      rw [after_append_singleton] at h hzero
      cases m with
      | reset => cases h
      | attempt t right =>
        cases right with
        | true => cases h
        | false =>
          simp only [Gate.mark] at h hzero
          split at h
          · rename_i hfull
            rw [if_pos hfull] at hzero
            cases h
            exact ⟨t, ⟨history, rfl, hzero.1 rfl⟩, rfl⟩
          · cases h
  · rintro ⟨t, ⟨before, rfl, hdvd⟩, rfl⟩
    have hzero := (failures_eq_zero_iff lockout _ hlimit).2 hdvd
    rw [after_append_singleton] at hzero ⊢
    simp only [Gate.mark] at hzero ⊢
    split at hzero
    · rename_i hfull
      rw [if_pos hfull]
    · cases hzero

theorem obeys_nil : Obeys limit lockout [] := by
  intro pre t right post h
  cases pre <;> cases h

theorem Obeys.append (h : Obeys limit lockout history) {m : Mark}
    (hm : ∀ t right, m = .attempt t right → (Gate.after limit lockout history).lets t = true) :
    Obeys limit lockout (history ++ [m]) := by
  intro pre t right post heq
  rcases List.eq_nil_or_concat post with rfl | ⟨post, m', rfl⟩
  · obtain ⟨rfl, hlast⟩ := List.append_inj' heq rfl
    exact hm t right (List.cons.inj hlast).1
  · rw [List.concat_eq_append, ← List.cons_append, ← List.append_assoc] at heq
    obtain ⟨rfl, -⟩ := List.append_inj' heq rfl
    exact h pre t right post rfl

def times (history : List Mark) : List ℕ :=
  history.filterMap fun m => match m with
    | .attempt t _ => some t
    | .reset => none

/-- **After so many wrong attempts in a row no attempt is let through for the lockout**: none as long as the clock shows
less, and if the clock does not go back none at all, until a reset. -/
theorem blocked_after (hlimit : 0 < limit) (h : Obeys limit lockout history) {pre mid post : List Mark} {T t : ℕ}
    {right : Bool} (heq : history = pre ++ mid ++ .attempt t right :: post) (hpre : Exhausts limit pre T)
    (hreset : .reset ∉ mid) (hclock : (times mid ++ [t]).Pairwise (· ≤ ·)) : T + lockout ≤ t := by
  have hblocked := (blockedUntil_eq_some lockout hlimit).2 ⟨T, hpre, rfl⟩
  have hfirst : ∀ {t' : ℕ} {right' : Bool} {post' : List Mark}, history = pre ++ .attempt t' right' :: post' →
      T + lockout ≤ t' := by
    intro t' right' post' heq'
    have hlets := h pre t' right' post' heq'
    rw [Gate.lets, hblocked] at hlets
    exact of_decide_eq_true hlets
  cases mid with
  | nil => exact hfirst (by rw [heq, List.append_nil])
  | cons m mid =>
    cases m with
    | reset => exact absurd List.mem_cons_self hreset
    | attempt t' right' =>
      have hge : T + lockout ≤ t' := hfirst (by rw [heq, List.append_assoc, List.cons_append])
      have hle : t' ≤ t := (List.pairwise_cons.1 hclock).1 t (List.mem_append_right _ List.mem_cons_self)
      exact Nat.le_trans hge hle

end AttemptThrottle
end SecureChat
