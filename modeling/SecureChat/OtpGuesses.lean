import SecureChat.OtpService
import SecureChat.RunCounts
/-!
# OtpGuesses — a code is compared five times at most, and accepted once

Over any scripts in any order, until the next code is issued for the address.
-/
namespace SecureChat
namespace OtpService

open Runs

variable {κ : Type} [DecidableEq κ] {B : BlindIndex κ} {s : Store κ} {key : κ}

/-- The script that an operation runs, if its request gets there: `verifyOtp` on this key. -/
def verifies (B : BlindIndex κ) (key : κ) : Op → Option Text
  | .verifyOtp email providedOtp delivery =>
    if saneOtp providedOtp = true ∧ delivery ≠ .requestLost ∧ B.otpKey email = key then
      some (B.hashOtp providedOtp email)
    else none
  | _ => none

def issues (B : BlindIndex κ) (key : κ) (s : Store κ) : Op → Bool
  | .generateOtp email otp createdAt delivery =>
    decide (delivery ≠ .requestLost ∧ B.otpKey email = key) &&
      decide ((createOtpScript key (B.hashOtp otp email) createdAt s).1 = 1)
  | _ => false

def compares (B : BlindIndex κ) (key : κ) (s : Store κ) (op : Op) : Bool :=
  (verifies B key op).any fun hash => decide (0 ≤ (verifyOtpScript key hash s).1)

def accepts (B : BlindIndex κ) (key : κ) (s : Store κ) (op : Op) : Bool :=
  (verifies B key op).any fun hash => decide ((verifyOtpScript key hash s).1 = 1)

def left (code : Option (Redis.Volatile Otp)) : ℕ := code.elim 0 fun otp => maxAttempts - otp.val.attempts

def present (code : Option (Redis.Volatile Otp)) : ℕ := code.elim 0 fun _ => 1

theorem sweep_eq_or (t : ℕ) (code : Option (Redis.Volatile Otp)) :
    Redis.Volatile.sweep t code = code ∨ Redis.Volatile.sweep t code = none := by
  cases code with
  | none => exact .inl rfl
  | some otp =>
    unfold Redis.Volatile.sweep
    simp only
    split
    · exact .inl rfl
    · exact .inr rfl

theorem present_of_left {code : Option (Redis.Volatile Otp)} (h : 0 < left code) : present code = 1 := by
  cases code with
  | none => cases h
  | some otp => rfl

theorem left_le (code : Option (Redis.Volatile Otp)) : left code ≤ maxAttempts := by
  cases code with
  | none => exact Nat.zero_le _
  | some otp => exact Nat.sub_le _ _

theorem present_le (code : Option (Redis.Volatile Otp)) : present code ≤ 1 := by
  cases code with
  | none => exact Nat.zero_le _
  | some otp => exact Nat.le_refl _

theorem set_self (v : Option (Redis.Volatile Otp)) : (s.set key v).keys key = v := Function.update_self _ _ _

theorem set_of_ne {key' : κ} (h : key' ≠ key) (v : Option (Redis.Volatile Otp)) :
    (s.set key v).keys key' = s.keys key' := Function.update_of_ne h _ _

theorem createOtpScript_of_ne {key' : κ} (h : key' ≠ key) (hash : Text) (createdAt : ℤ) :
    (createOtpScript key hash createdAt s).2.keys key' = s.keys key' := by
  unfold createOtpScript
  split
  · split
    · rfl
    · exact set_of_ne h _
  · exact set_of_ne h _

theorem createOtpScript_refused {hash : Text} {createdAt : ℤ} (h : (createOtpScript key hash createdAt s).1 ≠ 1) :
    (createOtpScript key hash createdAt s).2 = s := by
  unfold createOtpScript at h ⊢
  split
  · rename_i otp hotp
    simp only [hotp] at h
    split
    · rfl
    · rename_i hcooldown
      rw [if_neg hcooldown] at h
      exact absurd rfl h
  · rename_i hnone
    simp only [hnone] at h
    exact absurd rfl h

theorem verifyOtpScript_of_ne {key' : κ} (h : key' ≠ key) (hash : Text) :
    (verifyOtpScript key hash s).2.keys key' = s.keys key' := by
  unfold verifyOtpScript
  split
  · rfl
  · split
    · exact set_of_ne h _
    · split
      · exact set_of_ne h _
      · split
        · exact set_of_ne h _
        · exact set_of_ne h _

/-- **The script on the key of a code**: a right code is gone, a wrong one costs a comparison, and without a comparison
nothing changes but that a code used up goes. -/
theorem verifyOtpScript_spec (key : κ) (hash : Text) (s : Store κ) :
    ((verifyOtpScript key hash s).1 = 1 ∧ 0 < left (s.keys key) ∧ (verifyOtpScript key hash s).2.keys key = none) ∨
    ((verifyOtpScript key hash s).1 = 0 ∧ ∃ otp, s.keys key = some otp ∧ otp.val.attempts < maxAttempts ∧
      ((verifyOtpScript key hash s).2.keys key =
          some { otp with val := { otp.val with attempts := otp.val.attempts + 1 } } ∨
        otp.val.attempts + 1 = maxAttempts ∧ (verifyOtpScript key hash s).2.keys key = none)) ∨
    ((verifyOtpScript key hash s).1 = -1 ∧ ((verifyOtpScript key hash s).2.keys key = s.keys key ∨
      (verifyOtpScript key hash s).2.keys key = none)) := by
  unfold verifyOtpScript
  cases hkey : s.keys key with
  | none => exact .inr (.inr ⟨rfl, .inl hkey⟩)
  | some otp =>
    simp only
    by_cases hused : maxAttempts ≤ otp.val.attempts
    · rw [if_pos hused]
      exact .inr (.inr ⟨rfl, .inr (set_self _)⟩)
    · rw [if_neg hused]
      have hleft : otp.val.attempts < maxAttempts := Nat.not_le.1 hused
      by_cases hequal : equal otp.val.hash hash = true
      · rw [if_pos hequal]
        exact .inl ⟨rfl, Nat.sub_pos_of_lt hleft, set_self _⟩
      · rw [if_neg hequal]
        by_cases hlast : maxAttempts ≤ otp.val.attempts + 1
        · rw [if_pos hlast]
          exact .inr (.inl ⟨rfl, otp, rfl, hleft, .inr ⟨Nat.le_antisymm hleft hlast, set_self _⟩⟩)
        · rw [if_neg hlast]
          exact .inr (.inl ⟨rfl, otp, rfl, hleft, .inl (set_self _)⟩)

theorem step_key {op : Op} {s' : Store κ} (hs : step B s op = some s') (hissues : issues B key s op = false) :
    (∃ hash, verifies B key op = some hash ∧ s'.keys key = (verifyOtpScript key hash s).2.keys key) ∨
    verifies B key op = none ∧ (s'.keys key = s.keys key ∨ s'.keys key = none) := by
  cases op with
  | generateOtp email otp createdAt delivery =>
    refine .inr ⟨rfl, .inl ?_⟩
    have hscript : delivery ≠ .requestLost →
        (createOtpScript (B.otpKey email) (B.hashOtp otp email) createdAt s).2.keys key = s.keys key := by
      intro hsent
      by_cases hkey : B.otpKey email = key
      · rw [issues, decide_eq_true ⟨hsent, hkey⟩, Bool.true_and] at hissues
        rw [hkey, createOtpScript_refused (of_decide_eq_false hissues)]
      · exact createOtpScript_of_ne (Ne.symm hkey) _ _
    cases delivery <;> cases hs
    · exact hscript (by decide)
    · exact hscript (by decide)
    · rfl
  | verifyOtp email providedOtp delivery =>
    cases hs
    unfold verifies verifyOtp
    by_cases hsane : saneOtp providedOtp = true
    · rw [if_pos hsane]
      by_cases hkey : B.otpKey email = key
      · cases delivery with
        | requestLost => exact .inr ⟨if_neg fun h => h.2.1 rfl, .inl rfl⟩
        | answered | answerLost =>
          refine .inl ⟨B.hashOtp providedOtp email, if_pos ⟨hsane, by decide, hkey⟩, ?_⟩
          rw [← hkey]
      · refine .inr ⟨if_neg fun h => hkey h.2.2, .inl ?_⟩
        cases delivery with
        | requestLost => rfl
        | answered | answerLost => exact verifyOtpScript_of_ne (Ne.symm hkey) _
    · rw [if_neg hsane]
      exact .inr ⟨if_neg fun h => hsane h.1, .inl rfl⟩
  | passes t =>
    simp only [step] at hs
    split at hs
    · cases hs
    · cases hs
      exact .inr ⟨rfl, sweep_eq_or t _⟩

theorem step_budgets {op : Op} {s' : Store κ} (hissues : issues B key s op = false) (hs : step B s op = some s') :
    left (s'.keys key) + (if compares B key s op then 1 else 0) ≤ left (s.keys key) ∧
      present (s'.keys key) + (if accepts B key s op then 1 else 0) ≤ present (s.keys key) := by
  rcases step_key hs hissues with ⟨hash, hverifies, hkey⟩ | ⟨hverifies, hkey⟩
  · rw [compares, accepts, hverifies, Option.any_some, Option.any_some, hkey]
    rcases verifyOtpScript_spec key hash s with ⟨hresult, hleft, hgone⟩ |
      ⟨hresult, otp, hotp, hleft, hafter | ⟨-, hafter⟩⟩ | ⟨hresult, hafter | hafter⟩
    · rw [hresult, hgone, present_of_left hleft]
      exact ⟨hleft, Nat.le_refl 1⟩
    · rw [hresult, hafter, hotp]
      refine ⟨?_, Nat.le_refl 1⟩
      show maxAttempts - (otp.val.attempts + 1) + 1 ≤ maxAttempts - otp.val.attempts
      omega
    · rw [hresult, hafter, hotp]
      exact ⟨Nat.sub_pos_of_lt hleft, Nat.zero_le 1⟩
    · rw [hresult, hafter]
      exact ⟨Nat.le_refl _, Nat.le_refl _⟩
    · rw [hresult, hafter]
      exact ⟨Nat.zero_le _, Nat.zero_le _⟩
  · rw [compares, accepts, hverifies, Option.any_none, if_neg Bool.false_ne_true]
    rcases hkey with hkey | hkey
    · rw [hkey]
      exact ⟨Nat.le_refl _, Nat.le_refl _⟩
    · rw [hkey]
      exact ⟨Nat.zero_le _, Nat.zero_le _⟩

/-- **A code is compared five times at most and accepted once**, in every run until the next code is issued for the
key. -/
theorem codeGuesses_run {ops : List Op} {s' : Store κ} (hr : run (step B) s ops = some s')
    (hissues : Meets (step B) (fun s op => issues B key s op = false) s ops) :
    count (step B) (compares B key) s ops ≤ maxAttempts ∧ count (step B) (accepts B key) s ops ≤ 1 := by
  have hcompares := hissues.count_le (fun s => left (s.keys key)) (fun s op s' h hs => (step_budgets h hs).1) hr
  have haccepts := hissues.count_le (fun s => present (s.keys key)) (fun s op s' h hs => (step_budgets h hs).2) hr
  exact ⟨Nat.le_trans (Nat.le_of_add_right_le hcompares) (left_le _),
    Nat.le_trans (Nat.le_of_add_right_le haccepts) (present_le _)⟩

theorem compared_raises {op : Op} {s' : Store κ} (hs : step B s op = some s') (hcompares : compares B key s op = true)
    (haccepts : accepts B key s op = false) : ∃ otp, s.keys key = some otp ∧
      (s'.keys key = some { otp with val := { otp.val with attempts := otp.val.attempts + 1 } } ∨
        otp.val.attempts + 1 = maxAttempts ∧ s'.keys key = none) := by
  have hissues : issues B key s op = false := by
    cases op with
    | verifyOtp email providedOtp delivery => rfl
    | passes t => rfl
    | generateOtp email otp createdAt delivery => cases hcompares
  rcases step_key hs hissues with ⟨hash, hverifies, hkey⟩ | ⟨hverifies, hkey⟩
  · rw [compares, hverifies, Option.any_some] at hcompares
    rw [accepts, hverifies, Option.any_some] at haccepts
    rw [hkey]
    rcases verifyOtpScript_spec key hash s with ⟨hresult, -⟩ | ⟨-, otp, hotp, -, hafter⟩ | ⟨hresult, -⟩
    · rw [hresult] at haccepts
      cases haccepts
    · exact ⟨otp, hotp, hafter⟩
    · rw [hresult] at hcompares
      cases hcompares
  · rw [compares, hverifies] at hcompares
    cases hcompares

end OtpService
end SecureChat
