import SecureChat.OtpGuesses
/-!
# OtpCooldown — how far apart the codes of an address are issued

The cooldown is read from the record of the last code, and a verification that accepts the code or uses it up deletes
the record.  As long as that befalls no code younger than the cooldown, codes are issued 60 seconds apart.
-/
namespace SecureChat
namespace OtpService

open Runs

variable {κ : Type} [DecidableEq κ] {B : BlindIndex κ} {key : κ} {s : Store κ}

def creation (B : BlindIndex κ) (key : κ) (s : Store κ) (op : Op) : Option ℤ :=
  match op with
  | .generateOtp _ _ createdAt _ => if issues B key s op = true then some createdAt else none
  | _ => none

/-- A verification with this hash deletes the code: it is right, or the last attempt. -/
def consumes (hash : Text) (otp : Otp) : Bool := equal otp.hash hash || decide (maxAttempts ≤ otp.attempts + 1)

/-- A request comes to Redis at most `delay` milliseconds after it has read the time. -/
def timely (B : BlindIndex κ) (key : κ) (delay : ℕ) (s : Store κ) : Op → Bool
  | .generateOtp email _ createdAt _ =>
    decide (B.otpKey email = key → createdAt ≤ s.nowMs ∧ s.nowMs ≤ createdAt + delay)
  | _ => true

def patient (B : BlindIndex κ) (key : κ) (delay : ℕ) (s : Store κ) (op : Op) : Bool :=
  (verifies B key op).all fun hash => (s.keys key).all fun otp =>
    !consumes hash otp.val || decide (otp.val.createdAt + cooldownMillis + delay ≤ s.nowMs)

/-- What is known of the code issued last: it is there, or gone for so long that the cooldown is over. -/
def Remembered (key : κ) (delay : ℕ) (last : Option ℤ) (s : Store κ) : Prop :=
  ∀ b, last = some b →
    (∃ otp e, s.keys key = some otp ∧ otp.val.createdAt = b ∧ otp.expireAt = some e ∧
      b + otpTtlSeconds * 1000 ≤ (e : ℤ)) ∨
    s.keys key = none ∧ b + cooldownMillis + delay ≤ s.nowMs

/-- **What the script does that issues a code**: it has found none, or one that is past the cooldown. -/
theorem createOtpScript_issued {hash : Text} {createdAt : ℤ} (h : (createOtpScript key hash createdAt s).1 = 1) :
    (∀ otp, s.keys key = some otp → otp.val.createdAt + cooldownMillis ≤ createdAt) ∧
      (createOtpScript key hash createdAt s).2 =
        s.set key (some ⟨⟨hash, 0, createdAt⟩, some (s.nowMs + otpTtlSeconds * 1000)⟩) := by
  unfold createOtpScript at h ⊢
  cases hkey : s.keys key with
  | none =>
    refine ⟨fun otp hotp => ?_, rfl⟩
    cases hotp
  | some otp =>
    rw [hkey] at h
    simp only at h ⊢
    by_cases hcooldown : createdAt - otp.val.createdAt < cooldownMillis
    · rw [if_pos hcooldown] at h
      simp only at h
      omega
    · rw [if_neg hcooldown]
      refine ⟨fun otp' hotp' => ?_, rfl⟩
      cases hotp'
      omega

theorem verifyOtpScript_kept (key : κ) (hash : Text) (s : Store κ) :
    (verifyOtpScript key hash s).2.nowMs = s.nowMs ∧
    (s.keys key = none → (verifyOtpScript key hash s).2.keys key = none) ∧
    ∀ otp, s.keys key = some otp →
      (∃ otp', (verifyOtpScript key hash s).2.keys key = some otp' ∧ otp'.val.createdAt = otp.val.createdAt ∧
        otp'.expireAt = otp.expireAt) ∨
      (verifyOtpScript key hash s).2.keys key = none ∧ consumes hash otp.val = true := by
  unfold verifyOtpScript
  cases hkey : s.keys key with
  | none => exact ⟨rfl, fun _ => hkey, fun otp hotp => by cases hotp⟩
  | some otp =>
    simp only
    refine ⟨?_, fun h => (by cases h), fun otp' hotp' => ?_⟩
    · split_ifs <;> rfl
    · cases hotp'
      unfold consumes
      by_cases hused : maxAttempts ≤ otp.val.attempts
      · have hlast : maxAttempts ≤ otp.val.attempts + 1 := Nat.le_succ_of_le hused
        rw [if_pos hused]
        exact .inr ⟨set_self _, by simp [hlast]⟩
      · rw [if_neg hused]
        by_cases hequal : equal otp.val.hash hash = true
        · rw [if_pos hequal]
          exact .inr ⟨set_self _, by simp [hequal]⟩
        · rw [if_neg hequal]
          by_cases hlast : maxAttempts ≤ otp.val.attempts + 1
          · rw [if_pos hlast]
            exact .inr ⟨set_self _, by simp [hlast]⟩
          · rw [if_neg hlast]
            exact .inl ⟨_, set_self _, rfl, rfl⟩

omit [DecidableEq κ] in
theorem Remembered.congr {delay : ℕ} {last : Option ℤ} {s' : Store κ} (h : Remembered key delay last s)
    (hkey : s'.keys key = s.keys key) (hnow : s'.nowMs = s.nowMs) : Remembered key delay last s' := by
  intro b hb
  rw [hkey, hnow]
  exact h b hb

theorem Remembered.verified {delay : ℕ} {last : Option ℤ} {hash : Text} (h : Remembered key delay last s)
    (hspaced : ∀ otp, s.keys key = some otp → consumes hash otp.val = true →
      otp.val.createdAt + cooldownMillis + delay ≤ s.nowMs) :
    Remembered key delay last (verifyOtpScript key hash s).2 := by
  obtain ⟨hnow, hnone, hsome⟩ := verifyOtpScript_kept key hash s
  intro b hb
  rw [hnow]
  rcases h b hb with ⟨otp, e, hotp, rfl, he, hle⟩ | ⟨hgone, hle⟩
  · rcases hsome otp hotp with ⟨otp', hotp', htime, hexpire⟩ | ⟨hgone, hconsumes⟩
    · exact .inl ⟨otp', e, hotp', htime, hexpire.trans he, hle⟩
    · exact .inr ⟨hgone, hspaced otp hotp hconsumes⟩
  · exact .inr ⟨hnone hgone, hle⟩

omit [DecidableEq κ] in
theorem Remembered.passes {delay : ℕ} (hdelay : delay ≤ 540000) {last : Option ℤ} {t : ℕ}
    (h : Remembered key delay last s) (ht : s.nowMs ≤ t) :
    Remembered key delay last ⟨fun k => Redis.Volatile.sweep t (s.keys k), t⟩ := by
  have hcooldown : cooldownMillis = 60000 := rfl
  have httl : otpTtlSeconds = 600 := rfl
  intro b hb
  rcases h b hb with ⟨otp, e, hotp, rfl, he, hle⟩ | ⟨hgone, hle⟩
  · by_cases hlive : otp.live t = true
    · exact .inl ⟨otp, e, Redis.Volatile.sweep_eq_some.2 ⟨hotp, hlive⟩, rfl, he, hle⟩
    · have hdead : ¬ t ≤ e := by
        intro hte
        refine hlive ?_
        unfold Redis.Volatile.live
        rw [he]
        exact decide_eq_true hte
      have hsweep : Redis.Volatile.sweep t (s.keys key) = none := by
        rw [hotp]
        exact if_neg hlive
      refine .inr ⟨hsweep, ?_⟩
      show otp.val.createdAt + cooldownMillis + delay ≤ (t : ℤ)
      omega
  · refine .inr ⟨?_, ?_⟩
    · show Redis.Volatile.sweep t (s.keys key) = none
      rw [hgone]
      rfl
    · show b + cooldownMillis + delay ≤ (t : ℤ)
      omega

theorem remembered_step {delay : ℕ} (hdelay : delay ≤ 540000) (last : Option ℤ) (s : Store κ) (op : Op) (s' : Store κ)
    (h : Remembered key delay last s) (hspaced : timely B key delay s op = true ∧ patient B key delay s op = true)
    (hs : step B s op = some s') :
    (∀ a, creation B key s op = some a →
      (∀ b, last = some b → b + cooldownMillis ≤ a) ∧ Remembered key delay (some a) s') ∧
    (creation B key s op = none → Remembered key delay last s') := by
  have hcooldown : cooldownMillis = 60000 := rfl
  have httl : otpTtlSeconds = 600 := rfl
  cases op with
  | generateOtp email otp createdAt delivery =>
    cases hs
    by_cases hsent : delivery ≠ .requestLost ∧ B.otpKey email = key
    · obtain ⟨hlost, hkey⟩ := hsent
      obtain ⟨hpast, hrecent⟩ := of_decide_eq_true hspaced.1 hkey
      have hstate : (generateOtp B email otp createdAt delivery s).2 =
          (createOtpScript key (B.hashOtp otp email) createdAt s).2 := by
        cases delivery with
        | requestLost => exact absurd rfl hlost
        | answered => rw [← hkey]; rfl
        | answerLost => rw [← hkey]; rfl
      have hissues : issues B key s (.generateOtp email otp createdAt delivery) =
          decide ((createOtpScript key (B.hashOtp otp email) createdAt s).1 = 1) := by
        rw [issues, decide_eq_true (And.intro hlost hkey), Bool.true_and]
      rw [hstate]
      by_cases hcreated : (createOtpScript key (B.hashOtp otp email) createdAt s).1 = 1
      · obtain ⟨hfound, hset⟩ := createOtpScript_issued hcreated
        have hcreation : creation B key s (.generateOtp email otp createdAt delivery) = some createdAt := by
          rw [creation, hissues, if_pos (decide_eq_true hcreated)]
        rw [hcreation]
        refine ⟨fun a ha => ?_, fun hnone => by cases hnone⟩
        cases ha
        constructor
        · intro b hb
          rcases h b hb with ⟨otp', e, hotp', rfl, -, -⟩ | ⟨-, hle⟩
          · exact hfound otp' hotp'
          · omega
        · intro b hb
          cases hb
          rw [hset]
          refine .inl ⟨_, s.nowMs + otpTtlSeconds * 1000, set_self _, rfl, rfl, ?_⟩
          omega
      · have hcreation : creation B key s (.generateOtp email otp createdAt delivery) = none := by
          rw [creation, hissues, if_neg fun h => hcreated (of_decide_eq_true h)]
        rw [hcreation, createOtpScript_refused hcreated]
        exact ⟨fun a ha => (by cases ha), fun _ => h⟩
    · have hcreation : creation B key s (.generateOtp email otp createdAt delivery) = none := by
        rw [creation, issues, decide_eq_false hsent, Bool.false_and, if_neg (by decide)]
      rw [hcreation]
      refine ⟨fun a ha => (by cases ha), fun _ => ?_⟩
      cases delivery with
      | requestLost => exact h
      | answered | answerLost =>
        have hkey : key ≠ B.otpKey email := fun hkey => hsent ⟨by decide, hkey.symm⟩
        have hnow : ∀ hash, (createOtpScript (B.otpKey email) hash createdAt s).2.nowMs = s.nowMs := by
          intro hash
          unfold createOtpScript
          split
          · split_ifs <;> rfl
          · rfl
        exact h.congr (createOtpScript_of_ne hkey _ _) (hnow _)
  | verifyOtp email providedOtp delivery =>
    cases hs
    refine ⟨fun a ha => (by cases ha), fun _ => ?_⟩
    unfold verifyOtp
    split
    · rename_i hsane
      by_cases hkey : B.otpKey email = key
      · cases delivery with
        | requestLost => exact h
        | answered | answerLost =>
          have hpatient := hspaced.2
          rw [patient, verifies, if_pos ⟨hsane, by decide, hkey⟩, Option.all_some] at hpatient
          simp only [hkey]
          refine h.verified fun otp hotp hconsumes => ?_
          rw [hotp, Option.all_some, hconsumes] at hpatient
          exact of_decide_eq_true hpatient
      · have hne : key ≠ B.otpKey email := fun he => hkey he.symm
        cases delivery with
        | requestLost => exact h
        | answered | answerLost =>
          exact h.congr (verifyOtpScript_of_ne hne _) (verifyOtpScript_kept (B.otpKey email) _ s).1
    · exact h
  | passes t =>
    simp only [step] at hs
    split at hs
    · cases hs
    · rename_i ht
      cases hs
      exact ⟨fun a ha => (by cases ha), fun _ => h.passes hdelay (Nat.not_lt.1 ht)⟩

/-- **Codes are issued 60 seconds apart** over every run, from any store, in which no code is deleted within the
cooldown. -/
theorem cooldown_run {delay : ℕ} (hdelay : delay ≤ 540000) {s' : Store κ} {ops : List Op}
    (hr : run (step B) s ops = some s')
    (hspaced : Meets (step B) (fun s op => timely B key delay s op = true ∧ patient B key delay s op = true) s ops) :
    (shown (step B) (creation B key) s ops).Pairwise fun a b => a + cooldownMillis ≤ b := by
  have hfirst : Remembered key delay none s := fun b hb => by cases hb
  have hchain := hspaced.isChain (Remembered key delay) (fun last s op s' => remembered_step hdelay last s op s')
    hfirst hr
  have hcooldown : cooldownMillis = 60000 := rfl
  have htrans : Trans (fun a b : ℤ => a + cooldownMillis ≤ b) (fun a b : ℤ => a + cooldownMillis ≤ b)
      (fun a b : ℤ => a + cooldownMillis ≤ b) := ⟨fun {a b c} hab hbc => by omega⟩
  exact hchain.pairwise

def plainIndex : BlindIndex Text := ⟨id, fun otp email => otp ++ email⟩

def politeOps : List Op :=
  [.generateOtp "a".toList "000000".toList 0 .answered, .verifyOtp "a".toList "000001".toList .answered, .passes 60000,
    .generateOtp "a".toList "000002".toList 60000 .answered]

theorem cooldown_run_polite : ∃ s', run (step plainIndex) Store.empty politeOps = some s' ∧
    shown (step plainIndex) (creation plainIndex "a".toList) Store.empty politeOps = [0, 60000] ∧
    (shown (step plainIndex) (creation plainIndex "a".toList) Store.empty politeOps).Pairwise
      fun a b => a + cooldownMillis ≤ b := by
  obtain ⟨s', hs', -⟩ : ∃ s', run (step plainIndex) Store.empty politeOps = some s' ∧ True :=
    exists_run _ _ _ (by decide)
  have hdelay : 0 ≤ 540000 := by omega
  exact ⟨s', hs', by decide, cooldown_run hdelay hs' (by decide)⟩

/-- **A right code, and the next one at once.** -/
theorem cooldown_broken :
    (run (step plainIndex) Store.empty [.generateOtp "a".toList "000000".toList 0 .answered,
      .verifyOtp "a".toList "000000".toList .answered, .generateOtp "a".toList "000001".toList 0 .answered]).isSome ∧
    shown (step plainIndex) (creation plainIndex "a".toList) Store.empty
      [.generateOtp "a".toList "000000".toList 0 .answered, .verifyOtp "a".toList "000000".toList .answered,
        .generateOtp "a".toList "000001".toList 0 .answered] = [0, 0] ∧
    ¬ ([0, 0] : List ℤ).Pairwise fun a b => a + cooldownMillis ≤ b := by
  refine ⟨by decide, by decide, by decide⟩

end OtpService
end SecureChat
