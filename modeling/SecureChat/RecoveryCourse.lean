import SecureChat.RecoveryAuthService
/-!
# RecoveryCourse — what the parts of a recovery call pass on

The functions of the recovery service that read and write, each as what it passes on for the rows it finds under the
lock: `reported` and `counted` say what `RegistrationLock.check` reports and leaves, and `locked_consume` that a proof
is noted when it is compared.  A call of `complete` answers from a receipt, rejects, or goes on with the account's lock
held (`complete_course`).
-/
namespace SecureChat
namespace Recovery

open Tx (Locked)

variable {β ν ρ : Type} [DecidableEq ν]

def Users.open_ (now : ℕ) (u : Users β ν) : Bool :=
  u.registrationLockVerifier.isSome && u.registrationLockUntil.all fun t => decide (t ≤ now)

def Users.rightProof (P : Crypto β ν) (userId : ν) (proof : Option ν) (u : Users β ν) : Bool :=
  decide ((proof.filter P.validProof).map (P.verifier userId) = u.registrationLockVerifier)

/-- What `RegistrationLock.check` reports for a row. -/
def reported (P : Crypto β ν) (userId : ν) (proof : Option ν) (now : ℕ) (u : Users β ν) : Check :=
  if u.registrationLockVerifier = none then .notRequired
  else if u.open_ now then
    if u.rightProof P userId proof then .passed
    else if maxFailures ≤ u.registrationLockFailures + 1 then .locked (lockout / 1000)
    else .failed (maxFailures - (u.registrationLockFailures + 1))
  else .locked (max 1 ((u.registrationLockUntil.getD 0 - now) / 1000))

/-- The failures and the block that `RegistrationLock.check` leaves. -/
def counted (P : Crypto β ν) (userId : ν) (proof : Option ν) (now : ℕ) (u : Users β ν) : ℕ × Option ℕ :=
  if u.open_ now then
    if u.rightProof P userId proof then (0, none)
    else if maxFailures ≤ u.registrationLockFailures + 1 then (0, some (now + lockout))
    else (u.registrationLockFailures + 1, none)
  else (u.registrationLockFailures, u.registrationLockUntil)

/-- What `RegistrationLock.check` evaluates the proof as, if it does. -/
def evaluated (P : Crypto β ν) (userId : ν) (proof : Option ν) (now : ℕ) (u : Users β ν) : Option Bool :=
  if u.open_ now then some (u.rightProof P userId proof) else none

theorem counted_of_closed {P : Crypto β ν} {userId : ν} {proof : Option ν} {now : ℕ} {u : Users β ν}
    (h : u.open_ now = false) :
    counted P userId proof now u = (u.registrationLockFailures, u.registrationLockUntil) := by
  rw [counted, h, if_neg Bool.false_ne_true]

theorem evaluated_of_closed {P : Crypto β ν} {userId : ν} {proof : Option ν} {now : ℕ} {u : Users β ν}
    (h : u.open_ now = false) : evaluated P userId proof now u = none := by
  rw [evaluated, h, if_neg Bool.false_ne_true]

def Check.passes : Check → Bool
  | .notRequired | .passed => true
  | _ => false

theorem exists_users {userId : ν} {account : Account β ν} {w : Db β ν} (h : w.account userId = some account) :
    ∃ u, w.users = some u := by
  unfold Db.account at h
  split at h
  · obtain ⟨u, hu, -⟩ := Option.map_eq_some_iff.1 h
    exact ⟨u, hu⟩
  · cases h

section Course

variable {P : Crypto β ν} {Q : ρ → Db β ν → Prop} {w : Db β ν}

/-- `RegistrationLock.check`: it reports by the row, and leaves the count. -/
theorem locked_checkLock {userId : ν} {proof : Option ν} {k : Check → Transaction β ν ρ} {u : Users β ν}
    (hu : w.users = some u)
    (hk : ∀ t, (k (reported P userId proof t u)).Locked Q
      ((updateLock (counted P userId proof t u).1 (counted P userId proof t u).2 w).note
        (.checked t (evaluated P userId proof t u) (reported P userId proof t u)))) :
    (checkLock P userId proof k).Locked Q w := by
  have hsame : updateLock u.registrationLockFailures u.registrationLockUntil w = w := by
    calc updateLock u.registrationLockFailures u.registrationLockUntil w
        = { w with users := some u } := by rw [updateLock, Db.updateUsers, hu, Option.map_some]
      _ = w := by rw [← hu]
  intro t
  have h := hk t
  simp only [hu]
  split
  · rename_i hverifier
    have hclosed : u.open_ t = false := by simp [Users.open_, hverifier]
    have hreported : reported P userId proof t u = .notRequired := if_pos hverifier
    rw [hreported, counted_of_closed hclosed, evaluated_of_closed hclosed, hsame] at h
    exact h
  · rename_i stored hverifier
    split
    · rename_i until_ hblocked
      obtain ⟨huntil, hnow⟩ := Option.filter_eq_some_iff.1 hblocked
      have hclosed : u.open_ t = false := by simp [Users.open_, huntil, Nat.not_le.2 (of_decide_eq_true hnow)]
      have hreported : reported P userId proof t u = .locked (max 1 ((until_ - t) / 1000)) := by
        simp [reported, hverifier, hclosed, huntil]
      rw [hreported, counted_of_closed hclosed, evaluated_of_closed hclosed, hsame] at h
      exact h
    · rename_i hfree
      have hopen : u.open_ t = true := by
        rw [Option.filter_eq_none_iff] at hfree
        cases huntil : u.registrationLockUntil with
        | none => simp [Users.open_, hverifier, huntil]
        | some until_ =>
          have hle := hfree until_ huntil
          simp only [decide_eq_true_eq, Nat.not_lt] at hle
          simp [Users.open_, hverifier, huntil, hle]
      have hproof : u.rightProof P userId proof =
          decide ((proof.filter P.validProof).map (P.verifier userId) = some stored) := by
        rw [Users.rightProof, hverifier]
      simp only [reported, counted, evaluated, hverifier, reduceCtorEq, if_false, hopen, if_true, hproof,
        decide_eq_true_eq] at h
      split
      · rename_i hright
        simp only [if_pos hright, decide_eq_true hright] at h
        split
        · exact h
        · rename_i hclean
          rw [not_or, not_not, not_not] at hclean
          rw [hclean.1, hclean.2] at hsame
          rwa [hsame] at h
      · rename_i hwrong
        simp only [if_neg hwrong, decide_eq_false hwrong] at h
        split
        · rename_i hfull
          rw [if_pos hfull, if_pos hfull] at h
          exact h
        · rename_i hleft
          rw [if_neg hleft, if_neg hleft] at h
          exact h

/-- `consume`: nothing, or a wrong proof that is counted, or the right one that takes the challenge. -/
theorem locked_consume {purpose : Purpose} {id proof : ν} {k : Option (Context β ν) → Transaction β ν ρ}
    (hnone : (k none).Locked Q w)
    (hwrong : ∀ t c, w.live purpose id t = some c → c.proof ≠ proof → (k none).Locked Q
      ((w.setChallenge purpose id (some { c with attempts := c.attempts + 1 })).note (.compared purpose id false)))
    (hright : ∀ t c, w.live purpose id t = some c → c.proof = proof → (k (some c.context)).Locked Q
      ((w.setChallenge purpose id none).note (.compared purpose id true))) :
    (consume purpose id proof k).Locked Q w := by
  intro t
  simp only
  split
  · exact hnone
  · rename_i c hc
    simp only [Locked]
    split
    · rename_i hproof
      rw [decide_eq_false hproof]
      exact hwrong t c hc hproof
    · rename_i hproof
      have hproof := not_not.1 hproof
      have h := hright t c hc hproof
      have hself : ((w.setChallenge purpose id (some { c with attempts := c.attempts + 1 })).note
          (.compared purpose id (decide (c.proof = proof)))).challenges purpose id =
            some { c with attempts := c.attempts + 1 } := by simp [Db.setChallenge, Db.note]
      have hclear : ((w.setChallenge purpose id (some { c with attempts := c.attempts + 1 })).note
          (.compared purpose id true)).setChallenge purpose id none =
            (w.setChallenge purpose id none).note (.compared purpose id true) := by simp [Db.setChallenge, Db.note]
      intro t'
      simp only [hself, Locked]
      rw [decide_eq_true hproof, hclear]
      exact h

/-- `quota`: only the counts of the quotas change. -/
theorem locked_quota {purpose : Quota} {value : ν} {limit : ℕ} {k : Bool → Transaction β ν ρ}
    (hk : ∀ allowed q, (k allowed).Locked Q { w with quota := q }) : (quota purpose value limit k).Locked Q w := by
  intro t
  simp only
  split
  · exact hk true _
  · exact hk false w.quota

/-- `store`: the id is new. -/
theorem locked_store {purpose : Purpose} {id proof : ν} {context : Context β ν} {ttl : ℕ} {k : Transaction β ν ρ}
    (hk : w.challenges purpose id = none → ∀ t, k.Locked Q
      (w.setChallenge purpose id (some ⟨context, proof, 0, t + ttl * 1000⟩))) :
    (store purpose id context proof ttl k).Locked Q w := by
  intro t
  simp only
  split
  · trivial
  · exact hk ‹_› t

/-- `receipt` under the lock writes nothing, and rejects or reports a success. -/
theorem locked_receipt {r : RecoveryComplete ν} {Q : Outcome ν → Db β ν → Prop}
    (h : ∀ o, (∀ c, o ≠ .locked c) → Q o w) : (receipt P r).Locked Q w := by
  intro t
  simp only
  split
  · exact h _ nofun
  · split
    · exact h _ nofun
    · intro t'
      simp only
      split
      · exact h _ nofun
      · intro t''
        simp only
        split
        · exact h _ nofun
        · exact h _ nofun

theorem open_receipt {r : RecoveryComplete ν} {R : Db β ν → Db β ν → Prop} {Q : Db β ν → Outcome ν → Db β ν → Prop}
    (h : ∀ w o, (∀ c, o ≠ .locked c) → Q w o w) (last : Db β ν) : (receipt P r).Open R Q last := by
  intro t w _
  simp only
  split
  · exact fun w' _ => h w' _ nofun
  · split
    · exact fun w' _ => h w' _ nofun
    · intro w' _ t'
      simp only
      split
      · exact h w' _ nofun
      · intro t''
        simp only
        split
        · exact h w' _ nofun
        · exact h w' _ nofun

end Course

section Complete

variable [DecidableEq β]

/-- What a call of `complete` does once the registration lock does not stand in its way. -/
def consumed (P : Crypto β ν) (r : RecoveryComplete ν) (f : Fresh ν) (userId : ν) (account : Account β ν) :
    Transaction β ν (Outcome ν) :=
  consume .complete r.recoveryToken r.recoveryToken fun context =>
    match context with
    | none => receipt P r
    | some context => completeConsumed P r f account context userId

/-- What a call of `complete` does with the account's lock. -/
def held (P : Crypto β ν) (r : RecoveryComplete ν) (f : Fresh ν) (userId : ν) (account : Account β ν) :
    Transaction β ν (Outcome ν) :=
  if r.mode = .replace then
    checkLock P userId r.lockProof fun lock =>
      match lock with
      | .notRequired | .passed => consumed P r f userId account
      | .failed n => .commit (.locked (.failed n))
      | .locked t => .commit (.locked (.locked t))
  else consumed P r f userId account

variable {P : Crypto β ν} {r : RecoveryComplete ν} {f : Fresh ν} {R : Db β ν → Db β ν → Prop}
  {Q : Db β ν → Outcome ν → Db β ν → Prop}

theorem completeConsumed_unlocked {account : Account β ν} {context : Context β ν} {userId : ν} {w : Db β ν} :
    (completeConsumed P r f account context userId).Locked (fun o _ => ∀ c, o ≠ .locked c) w := by
  have hfinish : ∀ w, (finish P r userId f).Locked (fun o _ => ∀ c, o ≠ .locked c) w := by
    intro w t
    simp only
    split
    · trivial
    · rintro _ ⟨⟩
  intro t
  simp only
  split
  · rintro _ ⟨⟩
  · split
    · rintro _ ⟨⟩
    · split
      · rintro _ ⟨⟩
      · split
        · rintro _ ⟨⟩
        · split
          · rintro _ ⟨⟩
          · split
            · exact hfinish _
            · exact hfinish _

/-- **The course of `complete`**: it rejects, it answers from a receipt, or it holds the account. -/
theorem complete_course (hrejected : ∀ w, Q w .rejected w) (hreceipt : ∀ last, (receipt P r).Open R Q last)
    (hheld : ∀ userId account w u, w.account userId = some account → w.users = some u →
      (held P r f userId account).Locked (Q w) w) (last : Db β ν) : (complete P r f).Open R Q last := by
  unfold complete
  split
  · exact fun w _ => hrejected w
  · unfold readChallenge
    split
    · intro now w _
      simp only
      split
      · exact hreceipt w
      · split
        · trivial
        · rename_i userId _
          intro w' _ t
          simp only
          split
          · exact hrejected w'
          · rename_i account haccount
            obtain ⟨u, hu⟩ := exists_users haccount
            exact hheld userId account w' u haccount hu
    · exact hreceipt last

/-- With the lock: the registration lock is asked first for a replacement, and stops it unless it passes. -/
theorem locked_held {userId : ν} {account : Account β ν} {w : Db β ν} {u : Users β ν} {Q : Outcome ν → Db β ν → Prop}
    (hu : w.users = some u)
    (hrefused : r.mode = .replace → ∀ t c, c = reported P userId r.lockProof t u → c.passes = false →
      Q (.locked c) ((updateLock (counted P userId r.lockProof t u).1 (counted P userId r.lockProof t u).2 w).note
        (.checked t (evaluated P userId r.lockProof t u) c)))
    (hpassed : r.mode = .replace → ∀ t c, c = reported P userId r.lockProof t u → c.passes = true →
      (consumed P r f userId account).Locked Q
        ((updateLock (counted P userId r.lockProof t u).1 (counted P userId r.lockProof t u).2 w).note
          (.checked t (evaluated P userId r.lockProof t u) c)))
    (hother : r.mode ≠ .replace → (consumed P r f userId account).Locked Q w) :
    (held P r f userId account).Locked Q w := by
  unfold held
  split
  · rename_i hmode
    refine locked_checkLock hu fun t => ?_
    cases hcheck : reported P userId r.lockProof t u with
    | notRequired => exact hpassed hmode t _ hcheck.symm rfl
    | passed => exact hpassed hmode t _ hcheck.symm rfl
    | failed n => exact hrefused hmode t _ hcheck.symm rfl
    | locked n => exact hrefused hmode t _ hcheck.symm rfl
  · exact hother ‹_›

end Complete

end Recovery
end SecureChat
