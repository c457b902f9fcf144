import SecureChat.OtpGuesses
import SecureChat.RecoveryGrants
/-!
# RecoveryGuesses — a challenge is compared five times at most, and accepted once

All runs of all the transactions on an account, with any failures.  `consume` notes every comparison that it makes with
a challenge.  `Counted` says what a commit has compared: nothing, or a wrong proof that raised the counter, or the right
one that took the challenge; only a failure of the whole transaction undoes that.
-/
namespace SecureChat
namespace Recovery

open Runs
open Tx (Follows)

variable {β ν : Type}

/-- A comparison with a challenge, and whether the proof was right. -/
structure Guess (ν : Type) where
  purpose : Purpose
  id : ν
  right : Bool
deriving DecidableEq

def Note.guess : Note ν → Option (Guess ν)
  | .compared purpose id right => some ⟨purpose, id, right⟩
  | _ => none

def Db.guesses (db : Db β ν) : List (Guess ν) := db.notes.filterMap Note.guess

@[simp] theorem guesses_compared (purpose : Purpose) (id : ν) (right : Bool) (db : Db β ν) :
    (db.note (.compared purpose id right)).guesses = db.guesses ++ [⟨purpose, id, right⟩] := by
  simp [Db.guesses, Db.note, Note.guess]

@[simp] theorem guesses_checked (now : ℕ) (right : Option Bool) (c : Check) (db : Db β ν) :
    (db.note (.checked now right c)).guesses = db.guesses := by
  simp [Db.guesses, Db.note, Note.guess]

@[simp] theorem guesses_reset (db : Db β ν) : (db.note .reset).guesses = db.guesses := by
  simp [Db.guesses, Db.note, Note.guess]

theorem challenges_note (n : Note ν) (db : Db β ν) : (db.note n).challenges = db.challenges := rfl

/-- What `consume` is called with, in a call that gets there. -/
def Op.guess : Op β ν → Option (Purpose × ν × ν)
  | .verifyEnrollment _ _ r _ _ _ => some (.enroll, r.challengeId, r.otp)
  | .verifyLogin r _ => some (.login, r.challengeId, r.otp)
  | .complete r _ => some (.complete, r.recoveryToken, r.recoveryToken)
  | _ => none

def Spares (pre post : Db β ν) : Prop :=
  ∀ purpose id, pre.challenges purpose id = none ∨ post.challenges purpose id = none ∨
    post.challenges purpose id = pre.challenges purpose id

theorem spares_of_eq {pre post : Db β ν} (h : post.challenges = pre.challenges) : Spares pre post :=
  fun purpose id => .inr (.inr (by rw [h]))

def Fewer (w w' : Db β ν) : Prop :=
  w'.guesses = w.guesses ∧
    ∀ purpose id, w'.challenges purpose id = none ∨ w'.challenges purpose id = w.challenges purpose id

theorem fewer_refl (w : Db β ν) : Fewer w w := ⟨rfl, fun _ _ => .inr rfl⟩

variable [DecidableEq ν]

/-- A commit that only a right proof can make: the binding, the grant, or what a completion leaves. -/
def Earned (pre post : Db β ν) : Op β ν → Answer β ν → Prop
  | .verifyEnrollment .., .yes true => True
  | .verifyLogin .., .grant (some _) => True
  | .complete r _, _ => post.durable r.recoveryToken ≠ pre.durable r.recoveryToken
  | _, _ => False

/-- What a commit has compared. -/
inductive Counted (x : Op β ν) (pre : Db β ν) (answer : Answer β ν) (post : Db β ν) : Prop where
  | spared (guesses : post.guesses = pre.guesses) (spares : Spares pre post) (unearned : ¬Earned pre post x answer)
  | wrong (purpose : Purpose) (id proof : ν) (c : Challenge β ν) (guess : x.guess = some (purpose, id, proof))
      (guesses : post.guesses = pre.guesses ++ [⟨purpose, id, false⟩]) (there : pre.challenges purpose id = some c)
      (left : c.attempts < maxAttempts) (differs : c.proof ≠ proof)
      (raised : post.challenges =
        (pre.setChallenge purpose id (some { c with attempts := c.attempts + 1 })).challenges)
      (unearned : ¬Earned pre post x answer)
  | right (purpose : Purpose) (id proof : ν) (c : Challenge β ν) (guess : x.guess = some (purpose, id, proof))
      (guesses : post.guesses = pre.guesses ++ [⟨purpose, id, true⟩]) (there : pre.challenges purpose id = some c)
      (left : c.attempts < maxAttempts) (same : c.proof = proof) (gone : post.challenges purpose id = none)
      (spares : Spares pre post)

omit [DecidableEq ν] in
theorem live_attempts {db : Db β ν} {purpose : Purpose} {id : ν} {now : ℕ} {c : Challenge β ν}
    (h : db.live purpose id now = some c) : c.attempts < maxAttempts := by
  have h := (Option.filter_eq_some_iff.1 h).2
  rw [Bool.and_eq_true] at h
  exact of_decide_eq_true h.2

theorem fewer_completion (w : Db β ν) : KeptByCompletion (Fewer w) where
  oneTimePrekeys _ h := h
  fallbackKeys _ h := h
  identity _ _ _ _ h := h
  credentials _ _ _ h := h
  receipts _ _ _ h := h
  challenges userId w' h := by
    refine ⟨h.1, fun purpose id => ?_⟩
    show (w'.challenges purpose id).filter _ = none ∨ (w'.challenges purpose id).filter _ = _
    rcases h.2 purpose id with h | h
    · rw [h]
      exact .inl rfl
    · rw [h]
      cases w.challenges purpose id with
      | none => exact .inl rfl
      | some c =>
        rw [Option.filter_some]
        split
        · exact .inr rfl
        · exact .inl rfl

theorem setChallenge_of_ne {purpose purpose' : Purpose} {id id' : ν} (h : ¬(purpose = purpose' ∧ id = id'))
    (c : Option (Challenge β ν)) (db : Db β ν) :
    (db.setChallenge purpose id c).challenges purpose' id' = db.challenges purpose' id' := by
  unfold Db.setChallenge
  simp only
  by_cases hpurpose : purpose = purpose'
  · subst hpurpose
    rw [Function.update_self, Function.update_of_ne fun hid => h ⟨rfl, hid.symm⟩]
  · rw [Function.update_of_ne (Ne.symm hpurpose)]

theorem Spares.setChallenge {pre w : Db β ν} {purpose : Purpose} {id : ν} (h : Spares pre w)
    (hnew : pre.challenges purpose id = none) (c : Challenge β ν) :
    Spares pre (w.setChallenge purpose id (some c)) := by
  intro purpose' id'
  by_cases heq : purpose = purpose' ∧ id = id'
  · obtain ⟨rfl, rfl⟩ := heq
    exact .inl hnew
  · rw [setChallenge_of_ne heq]
    exact h purpose' id'

section Taken

variable {x : Op β ν} {pre w post : Db β ν} {answer : Answer β ν} {purpose : Purpose} {id proof : ν} {now : ℕ}
  {c : Challenge β ν}

/-- After a wrong proof. -/
theorem counted_wrong (hguess : x.guess = some (purpose, id, proof)) (hchallenges : w.challenges = pre.challenges)
    (hguesses : w.guesses = pre.guesses) (hlive : w.live purpose id now = some c) (hproof : c.proof ≠ proof)
    (hpost : post = (w.setChallenge purpose id (some { c with attempts := c.attempts + 1 })).note
      (.compared purpose id false)) (hearned : ¬Earned pre post x answer) : Counted x pre answer post := by
  subst hpost
  refine .wrong purpose id proof c hguess ?_ (hchallenges ▸ live_challenge hlive) (live_attempts hlive) hproof ?_
    hearned
  · rw [guesses_compared, ← hguesses]
    rfl
  · show Function.update w.challenges purpose _ = Function.update pre.challenges purpose _
    rw [hchallenges]

theorem taken {n : Note ν} (hpost : Fewer ((w.setChallenge purpose id none).note n) post) :
    post.challenges purpose id = none ∧ Spares w post := by
  have hrest : ∀ purpose' id', post.challenges purpose' id' = none ∨
      post.challenges purpose' id' = (w.setChallenge purpose id none).challenges purpose' id' := hpost.2
  refine ⟨?_, fun purpose' id' => ?_⟩
  · rcases hrest purpose id with h | h
    · exact h
    · rw [h, setChallenge_self]
  · rcases hrest purpose' id' with h | h
    · exact .inr (.inl h)
    · by_cases heq : purpose = purpose' ∧ id = id'
      · obtain ⟨rfl, rfl⟩ := heq
        rw [h, setChallenge_self]
        exact .inr (.inl rfl)
      · rw [h, setChallenge_of_ne heq]
        exact .inr (.inr rfl)

/-- After the right proof, and what a call that has it does then. -/
theorem counted_right (hguess : x.guess = some (purpose, id, proof)) (hchallenges : w.challenges = pre.challenges)
    (hguesses : w.guesses = pre.guesses) (hlive : w.live purpose id now = some c) (hproof : c.proof = proof)
    (hpost : Fewer ((w.setChallenge purpose id none).note (.compared purpose id true)) post) :
    Counted x pre answer post := by
  refine .right purpose id proof c hguess ?_ (hchallenges ▸ live_challenge hlive) (live_attempts hlive) hproof
    (taken hpost).1 fun purpose' id' => ?_
  · rw [hpost.1, guesses_compared, ← hguesses]
    rfl
  · rw [← hchallenges]
    exact (taken hpost).2 purpose' id'

end Taken

def SameGuesses (pre post : Db β ν) : Prop := post.challenges = pre.challenges ∧ post.guesses = pre.guesses

section Programs

variable [DecidableEq β] {P : Crypto β ν}

def Op.unchallenged : Op β ν → Bool
  | .register .. | .setIdentity .. | .setFallbackKey .. | .addOneTimeKeys .. | .rotateCredentialEpoch ..
  | .rotateRefreshGeneration .. | .updateRegistrationLock .. => true
  | _ => false

omit [DecidableEq β] [DecidableEq ν] in
theorem insertBinding_sameGuesses {a : Db β ν} {email version : ν} {taken : Bool} {k : Bool → Transaction β ν Bool}
    (hk : ∀ inserted, (k inserted).Keeps (SameGuesses a)) :
    (insertBinding email version taken k).Keeps (SameGuesses a) := by
  intro now db
  simp only
  split
  · exact hk false
  · exact ⟨fun _ h => h, hk true⟩

theorem unchallenged_guarded {x : Op β ν} (hx : x.unchallenged = true) (a : Db β ν) :
    (program P x).Guarded (SameGuesses a) := by
  cases x with
  | register email version taken f =>
    refine Tx.Guarded.map fun now db => ?_
    simp only
    split
    · trivial
    · refine ⟨fun _ h => h, ?_⟩
      split
      · trivial
      · exact insertBinding_sameGuesses fun _ => trivial
  | setIdentity userId identityKey signingKey epoch =>
    refine Tx.Guarded.map ?_
    unfold setIdentity
    split
    · trivial
    · refine lockUsers_guarded fun u => guard_keeps ?_
      split
      · trivial
      · split
        · trivial
        · split
          · trivial
          · exact ⟨fun _ h => h, trivial⟩
  | setFallbackKey userId publicKey signature epoch =>
    refine Tx.Guarded.map ?_
    unfold setFallbackKey
    split
    · trivial
    · exact lockUsers_guarded fun u => guard_keeps ⟨fun _ h => h, trivial⟩
  | addOneTimeKeys userId keys epoch =>
    refine Tx.Guarded.map ?_
    unfold addOneTimeKeys
    split
    · trivial
    · split
      · trivial
      · refine lockUsers_guarded fun u => guard_keeps fun now db => ?_
        simp only
        split
        · trivial
        · exact ⟨fun _ h => h, trivial⟩
  | rotateCredentialEpoch userId epoch f =>
    refine Tx.Guarded.map fun now db => ?_
    simp only
    split
    · exact ⟨fun _ h => h, trivial⟩
    · trivial
  | rotateRefreshGeneration userId presented f =>
    refine Tx.Guarded.map fun now db => ?_
    simp only
    split
    · exact ⟨fun _ h => h, trivial⟩
    · trivial
  | updateRegistrationLock userId epoch proof =>
    have hset : ∀ (verifier : Option ν) (db : Db β ν), SameGuesses a db → SameGuesses a (setLock verifier db) :=
      fun verifier db h => ⟨h.1, (guesses_reset _).trans h.2⟩
    refine Tx.Guarded.map fun now db => ?_
    simp only
    split
    · trivial
    · split
      · trivial
      · split
        · exact ⟨hset _, trivial⟩
        · split
          · exact ⟨hset _, trivial⟩
          · trivial
  | requestEnrollment | verifyEnrollment | requestLogin | verifyLogin | complete => cases hx

theorem requestEnrollment_counted (userId epoch email id nonce otp : ν) (last : Db β ν) :
    (program P (.requestEnrollment userId epoch email id nonce otp)).Open (fun _ _ => True)
      (Counted (.requestEnrollment userId epoch email id nonce otp)) last := by
  refine Tx.Open.map fun w _ t => ?_
  simp only
  split
  · exact .spared rfl (spares_of_eq rfl) not_false
  · split
    · exact .spared rfl (spares_of_eq rfl) not_false
    · refine locked_quota fun allowed q => ?_
      split
      · exact .spared rfl (spares_of_eq rfl) not_false
      · refine locked_quota fun allowed q => ?_
        split
        · exact .spared rfl (spares_of_eq rfl) not_false
        · intro t
          simp only
          split
          · exact .spared rfl (spares_of_eq rfl) not_false
          · exact locked_store fun hnew t => .spared rfl ((spares_of_eq rfl).setChallenge hnew _) not_false

theorem requestLogin_counted (email id otp : ν) (last : Db β ν) :
    (program P (.requestLogin email id otp)).Open (fun _ _ => True) (Counted (.requestLogin email id otp)) last := by
  refine Tx.Open.map fun w _ => ?_
  refine locked_quota fun allowed q => ?_
  split
  · exact .spared rfl (spares_of_eq rfl) not_false
  · intro t
    simp only
    split
    · exact locked_store fun hnew t => .spared rfl ((spares_of_eq rfl).setChallenge hnew _) not_false
    · intro t
      exact locked_store fun hnew t => .spared rfl ((spares_of_eq rfl).setChallenge hnew _) not_false

theorem verifyEnrollment_counted (userId epoch : ν) (r : RecoveryVerify ν) (version : ν) (taken : Bool)
    (other : Option (Account β ν)) (last : Db β ν) :
    (program P (.verifyEnrollment userId epoch r version taken other)).Open (fun _ _ => True)
      (Counted (.verifyEnrollment userId epoch r version taken other)) last := by
  refine Tx.Open.map fun w _ t => ?_
  simp only
  split
  · exact .spared rfl (spares_of_eq rfl) not_false
  · rename_i account haccount
    split
    · exact .spared rfl (spares_of_eq rfl) not_false
    · refine locked_consume ?_ (fun t' c hlive hproof => ?_) fun t' c hlive hproof => ?_
      · exact .spared rfl (spares_of_eq rfl) not_false
      · exact counted_wrong rfl rfl rfl hlive hproof rfl not_false
      · have hright : ∀ b post, Fewer ((w.setChallenge .enroll r.challengeId none).note
            (.compared .enroll r.challengeId true)) post →
              Counted (.verifyEnrollment userId epoch r version taken other) w (.yes b) post :=
          fun b post hpost => counted_right rfl rfl rfl hlive hproof hpost
        simp only
        split
        · exact hright _ _ (fewer_refl _)
        · intro t''
          simp only
          split
          · exact hright _ _ (fewer_refl _)
          · exact hright _ _ ⟨rfl, fun _ _ => .inr rfl⟩

theorem verifyLogin_counted (r : RecoveryVerify ν) (token : ν) (last : Db β ν) :
    (program P (.verifyLogin r token)).Open (fun _ _ => True) (Counted (.verifyLogin r token)) last := by
  refine Tx.Open.map ?_
  unfold verifyLogin readChallenge
  split
  · intro t preview _
    simp only
    split
    · exact fun w _ => .spared rfl (spares_of_eq rfl) not_false
    · intro w _ t'
      refine locked_consume ?_ (fun t'' c hlive hproof => ?_) fun t'' c hlive hproof => ?_
      · exact .spared rfl (spares_of_eq rfl) not_false
      · exact counted_wrong rfl rfl rfl hlive hproof rfl not_false
      · have hright : ∀ grant post, Fewer ((w.setChallenge .login r.challengeId none).note
            (.compared .login r.challengeId true)) post → Counted (.verifyLogin r token) w (.grant grant) post :=
          fun grant post hpost => counted_right rfl rfl rfl hlive hproof hpost
        simp only
        split
        · intro s
          simp only
          split
          · exact hright _ _ (fewer_refl _)
          · refine locked_store fun hnew s' s'' => ?_
            have hspares : Spares w ((w.setChallenge .login r.challengeId none).note
                (.compared .login r.challengeId true)) := (taken (fewer_refl _)).2
            have hlogin : ∀ c', (((w.setChallenge .login r.challengeId none).note
                (.compared .login r.challengeId true)).setChallenge .complete token c').challenges .login
                  r.challengeId = none := by
              intro c'
              have hne : ¬(Purpose.complete = .login ∧ token = r.challengeId) := fun heq => by cases heq.1
              rw [setChallenge_of_ne hne, challenges_note, setChallenge_self]
            have hcomplete : ((w.setChallenge .login r.challengeId none).note
                (.compared .login r.challengeId true)).challenges .complete token = w.challenges .complete token := by
              have hne : ¬(Purpose.login = .complete ∧ r.challengeId = token) := fun heq => by cases heq.1
              rw [challenges_note, setChallenge_of_ne hne]
            exact .right .login r.challengeId r.otp c rfl (guesses_compared _ _ _ _) (live_challenge hlive)
              (live_attempts hlive) hproof (hlogin _) (hspares.setChallenge (hcomplete.symm.trans hnew) _)
        · exact hright _ _ (fewer_refl _)
  · exact fun w _ => .spared rfl (spares_of_eq rfl) not_false

theorem consumed_counted (r : RecoveryComplete ν) (f : Fresh ν) (userId : ν) (account : Account β ν) {pre w : Db β ν}
    (hchallenges : w.challenges = pre.challenges) (hguesses : w.guesses = pre.guesses)
    (hquiet : Quiet r.recoveryToken pre w) :
    (consumed P r f userId account).Locked (fun o => Counted (.complete r f) pre (.completed o)) w := by
  refine locked_consume (locked_receipt fun o _ => ?_) (fun t c hlive hproof => locked_receipt fun o _ => ?_)
    fun t c hlive hproof => ?_
  · exact .spared hguesses (spares_of_eq hchallenges) fun hne => hne hquiet.durable
  · refine counted_wrong rfl hchallenges hguesses hlive hproof rfl fun hne => hne ?_
    refine ((hquiet.setChallenge fun hno => ?_).note _).durable
    rw [live_challenge hlive] at hno
    cases hno
  · have hkeeps : (completeConsumed P r f account c.context userId).Locked (fun _ post => True →
        Fewer ((w.setChallenge .complete r.recoveryToken none).note (.compared .complete r.recoveryToken true)) post)
        ((w.setChallenge .complete r.recoveryToken none).note (.compared .complete r.recoveryToken true)) :=
      Tx.Keeps.locked_of_imp (completeConsumed_keeps (fewer_completion _) r f account c.context userId)
        fun _ => fewer_refl _
    exact hkeeps.imp fun o post hpost => counted_right rfl hchallenges hguesses hlive hproof (hpost trivial)

theorem complete_counted (r : RecoveryComplete ν) (f : Fresh ν) (last : Db β ν) :
    (program P (.complete r f)).Open (fun _ _ => True) (Counted (.complete r f)) last := by
  have hsame : ∀ (w : Db β ν) (o : Outcome ν), Counted (.complete r f) w (.completed o) w :=
    fun w o => .spared rfl (spares_of_eq rfl) fun hne => hne rfl
  refine Tx.Open.map (complete_course (fun w => hsame w _) (open_receipt fun w o _ => hsame w o) ?_ last)
  intro userId account w u _ hu
  have hquiet := quiet_refl r.recoveryToken w
  refine locked_held hu (fun _ t c _ _ => ?_) (fun _ t c _ _ => ?_)
    fun _ => consumed_counted r f userId account rfl rfl hquiet
  · exact .spared (guesses_checked _ _ _ _) (spares_of_eq rfl) fun hne => hne ((hquiet.updateLock _ _).note _).durable
  · exact consumed_counted r f userId account rfl (guesses_checked _ _ _ _) ((hquiet.updateLock _ _).note _)

theorem program_counted (x : Op β ν) (last : Db β ν) :
    (program P x).Open (fun _ _ => True) (Counted x) last := by
  by_cases hx : x.unchallenged = true
  · have hsame := Tx.Guarded.open_of_forall (R := fun _ _ => True) (J := SameGuesses) (fun _ => ⟨rfl, rfl⟩)
      (unchallenged_guarded (P := P) hx) last
    refine hsame.imp fun pre answer post h => .spared h.2 (spares_of_eq h.1) ?_
    cases x <;> first | exact not_false | cases hx
  · cases x with
    | requestEnrollment userId epoch email id nonce otp => exact requestEnrollment_counted _ _ _ _ _ _ last
    | verifyEnrollment userId epoch r version taken other => exact verifyEnrollment_counted _ _ _ _ _ _ last
    | requestLogin email id otp => exact requestLogin_counted _ _ _ last
    | verifyLogin r token => exact verifyLogin_counted _ _ last
    | complete r f => exact complete_counted r f last
    | _ => exact absurd rfl hx

end Programs

def left (purpose : Purpose) (id : ν) (db : Db β ν) : ℕ :=
  (db.challenges purpose id).elim 0 fun c => maxAttempts - c.attempts

def present (purpose : Purpose) (id : ν) (db : Db β ν) : ℕ := (db.challenges purpose id).elim 0 fun _ => 1

def issues (purpose : Purpose) (id : ν) (e : Tx.Entry (Db β ν) (Answer β ν) (Op β ν)) : Prop :=
  e.pre.challenges purpose id = none ∧ e.post.challenges purpose id ≠ none

/-- The comparisons with the challenge between two states of the rows, and whether each proof was right. -/
def comparisons (purpose : Purpose) (id : ν) (pre post : Db β ν) : List Bool :=
  ((post.guesses.drop pre.guesses.length).filter fun g => decide (g.purpose = purpose ∧ g.id = id)).map Guess.right

section Budgets

variable {x : Op β ν} {pre post : Db β ν} {answer : Answer β ν} {purpose : Purpose} {id : ν}

theorem comparisons_of_eq (h : post.guesses = pre.guesses) : comparisons purpose id pre post = [] := by
  rw [comparisons, h, List.drop_length]
  rfl

theorem comparisons_of_append {purpose' : Purpose} {id' : ν} {right : Bool}
    (h : post.guesses = pre.guesses ++ [⟨purpose', id', right⟩]) :
    comparisons purpose id pre post = if purpose' = purpose ∧ id' = id then [right] else [] := by
  rw [comparisons, h, List.drop_left]
  by_cases heq : purpose' = purpose ∧ id' = id
  · simp [heq]
  · simp [heq]

omit [DecidableEq ν] in
theorem budgets_of_spared (hissues : ¬(pre.challenges purpose id = none ∧ post.challenges purpose id ≠ none))
    (h : pre.challenges purpose id = none ∨ post.challenges purpose id = none ∨
      post.challenges purpose id = pre.challenges purpose id) :
    left purpose id post ≤ left purpose id pre ∧ present purpose id post ≤ present purpose id pre := by
  unfold left present
  rcases h with h | h | h
  · have hpost : post.challenges purpose id = none := not_not.1 fun hne => hissues ⟨h, hne⟩
    rw [h, hpost]
    exact ⟨Nat.le_refl _, Nat.le_refl _⟩
  · rw [h]
    exact ⟨Nat.zero_le _, Nat.zero_le _⟩
  · rw [h]
    exact ⟨Nat.le_refl _, Nat.le_refl _⟩

/-- A comparison takes from what is left of the challenge, and an acceptance takes the challenge. -/
theorem Counted.budgets (h : Counted x pre answer post)
    (hissues : ¬(pre.challenges purpose id = none ∧ post.challenges purpose id ≠ none)) :
    left purpose id post + (comparisons purpose id pre post).length ≤ left purpose id pre ∧
      present purpose id post + (comparisons purpose id pre post).count true ≤ present purpose id pre := by
  cases h with
  | spared guesses spares =>
    rw [comparisons_of_eq guesses]
    exact budgets_of_spared hissues (spares purpose id)
  | wrong purpose' id' proof c guess guesses there hleft differs raised =>
    rw [comparisons_of_append guesses]
    by_cases heq : purpose' = purpose ∧ id' = id
    · obtain ⟨rfl, rfl⟩ := heq
      unfold left present
      rw [if_pos ⟨rfl, rfl⟩, raised, setChallenge_self, there]
      refine ⟨?_, Nat.le_refl 1⟩
      show maxAttempts - (c.attempts + 1) + 1 ≤ maxAttempts - c.attempts
      omega
    · rw [if_neg heq]
      refine budgets_of_spared hissues (.inr (.inr ?_))
      rw [raised, setChallenge_of_ne heq]
  | right purpose' id' proof c guess guesses there hleft same gone spares =>
    rw [comparisons_of_append guesses]
    by_cases heq : purpose' = purpose ∧ id' = id
    · obtain ⟨rfl, rfl⟩ := heq
      unfold left present
      rw [if_pos ⟨rfl, rfl⟩, gone, there]
      exact ⟨Nat.sub_pos_of_lt hleft, Nat.le_refl 1⟩
    · rw [if_neg heq]
      exact budgets_of_spared hissues (spares purpose id)

/-- A wrong comparison raises the counter. -/
theorem Counted.raises (h : Counted x pre answer post) (hwrong : false ∈ comparisons purpose id pre post) :
    ∃ c, pre.challenges purpose id = some c ∧
      post.challenges purpose id = some { c with attempts := c.attempts + 1 } := by
  cases h with
  | spared guesses =>
    rw [comparisons_of_eq guesses] at hwrong
    cases hwrong
  | wrong purpose' id' proof c guess guesses there hleft differs raised =>
    rw [comparisons_of_append guesses] at hwrong
    split at hwrong
    · rename_i heq
      obtain ⟨rfl, rfl⟩ := heq
      refine ⟨c, there, ?_⟩
      rw [raised, setChallenge_self]
    · cases hwrong
  | right purpose' id' proof c guess guesses =>
    rw [comparisons_of_append guesses] at hwrong
    split at hwrong <;> simp at hwrong

/-- What a comparison is made of: the proof that the call was given, and the challenge. -/
theorem Counted.compares (h : Counted x pre answer post) {right : Bool}
    (hright : right ∈ comparisons purpose id pre post) :
    ∃ proof c, x.guess = some (purpose, id, proof) ∧ pre.challenges purpose id = some c ∧
      right = decide (c.proof = proof) := by
  cases h with
  | spared guesses =>
    rw [comparisons_of_eq guesses] at hright
    cases hright
  | wrong purpose' id' proof c guess guesses there hleft differs =>
    rw [comparisons_of_append guesses] at hright
    split at hright
    · rename_i heq
      obtain ⟨rfl, rfl⟩ := heq
      exact ⟨proof, c, guess, there, (List.mem_singleton.1 hright).trans (decide_eq_false differs).symm⟩
    · cases hright
  | right purpose' id' proof c guess guesses there hleft same =>
    rw [comparisons_of_append guesses] at hright
    split at hright
    · rename_i heq
      obtain ⟨rfl, rfl⟩ := heq
      exact ⟨proof, c, guess, there, (List.mem_singleton.1 hright).trans (decide_eq_true same).symm⟩
    · cases hright

/-- What only a right proof earns has been compared in this very commit. -/
theorem Counted.earns (h : Counted x pre answer post) (hearned : Earned pre post x answer) :
    ∃ purpose id proof, x.guess = some (purpose, id, proof) ∧ comparisons purpose id pre post = [true] := by
  cases h with
  | spared _ _ hno => exact absurd hearned hno
  | wrong _ _ _ _ _ _ _ _ _ _ hno => exact absurd hearned hno
  | right purpose id proof c guess guesses =>
    refine ⟨purpose, id, proof, guess, ?_⟩
    rw [comparisons_of_append guesses, if_pos ⟨rfl, rfl⟩]

omit [DecidableEq ν] in
theorem left_le (db : Db β ν) : left purpose id db ≤ maxAttempts := by
  unfold left
  cases db.challenges purpose id with
  | none => exact Nat.zero_le _
  | some c => exact Nat.sub_le _ _

omit [DecidableEq ν] in
theorem present_le (db : Db β ν) : present purpose id db ≤ 1 := by
  unfold present
  cases db.challenges purpose id with
  | none => exact Nat.zero_le _
  | some c => exact Nat.le_refl _

end Budgets

/-- **Guesses are bounded.**  A one-time code is compared five times at most and accepted once, over any scripts until
the next code of its address; a comparison that does not accept raises the counter or uses the code up.  So is a
challenge of any purpose, by calls that commit, in any interleaving of any calls until it is issued again: a comparison
is of the proof that the call was given, what only a right proof earns has been compared in the very commit, and nothing
but commits changes the rows.  With a challenge that is used up or past its time no call compares anything, whether it
commits or not. -/
theorem guesses_bounded {κ : Type} [DecidableEq κ] [DecidableEq β] (B : OtpService.BlindIndex κ) (P : Crypto β ν)
    (userId : ν) :
    (∀ (key : κ) (s s' : OtpService.Store κ) (ops : List OtpService.Op),
      run (OtpService.step B) s ops = some s' →
      Meets (OtpService.step B) (fun s op => OtpService.issues B key s op = false) s ops →
        count (OtpService.step B) (OtpService.compares B key) s ops ≤ 5 ∧
        count (OtpService.step B) (OtpService.accepts B key) s ops ≤ 1) ∧
    (∀ (key : κ) (s s' : OtpService.Store κ) (op : OtpService.Op), OtpService.step B s op = some s' →
      OtpService.compares B key s op = true → OtpService.accepts B key s op = false →
        ∃ otp, s.keys key = some otp ∧
          (s'.keys key = some { otp with val := { otp.val with attempts := otp.val.attempts + 1 } } ∨
            otp.val.attempts + 1 = 5 ∧ s'.keys key = none)) ∧
    (∀ (es : List (Tx.Event ℕ (Op β ν))) (s : Accounts β ν),
      run (Tx.System.step (program P)) (Tx.System.init (Db.unregistered userId)) es = some s →
        (∀ purpose id pre mid post, s.log = pre ++ mid ++ post → (∀ e ∈ mid, ¬issues purpose id e) →
          (mid.map fun e => (comparisons purpose id e.pre e.post).length).sum ≤ 5 ∧
          (mid.map fun e => (comparisons purpose id e.pre e.post).count true).sum ≤ 1) ∧
        (∀ e ∈ s.log, ∀ purpose id, false ∈ comparisons purpose id e.pre e.post →
          ∃ c, e.pre.challenges purpose id = some c ∧
            e.post.challenges purpose id = some { c with attempts := c.attempts + 1 }) ∧
        (∀ e ∈ s.log, ∀ purpose id right, right ∈ comparisons purpose id e.pre e.post →
          ∃ proof c, e.label.guess = some (purpose, id, proof) ∧ e.pre.challenges purpose id = some c ∧
            right = decide (c.proof = proof)) ∧
        (∀ e ∈ s.log, Earned e.pre e.post e.label e.result →
          ∃ purpose id proof, e.label.guess = some (purpose, id, proof) ∧
            comparisons purpose id e.pre e.post = [true]) ∧
        Follows (Db.unregistered userId) s.log s.db) ∧
    ∀ (ρ : Type) (purpose : Purpose) (id proof : ν) (k : Option (Context β ν) → Transaction β ν ρ) (now : ℕ)
      (db : Db β ν), db.live purpose id now = none →
        ∃ f, consume purpose id proof k = .read f ∧ f now db = k none := by
  refine ⟨fun key s s' ops hr hissues => OtpService.codeGuesses_run hr hissues,
    fun key s s' op hs hc ha => OtpService.compared_raises hs hc ha, fun es s hr => ?_,
    fun ρ purpose id proof k now db hdead => ⟨_, rfl, by simp only [hdead]⟩⟩
  have hserial := Tx.serial_run (R := fun _ _ => True) (Q := fun x pre answer post => Counted x pre answer post)
    (fun _ => trivial) (fun _ _ _ _ _ => trivial) (fun _ _ _ _ _ => trivial) program_counted hr
  have hcounted := hserial.meets
  refine ⟨fun purpose id pre mid post hsplit hissues => ?_,
    fun e he purpose id hwrong => (hcounted e he).raises hwrong,
    fun e he purpose id right hright => (hcounted e he).compares hright,
    fun e he hearned => (hcounted e he).earns hearned, hserial.follows⟩
  have hfollows := hserial.follows
  rw [hsplit] at hfollows
  obtain ⟨b, hfollows, -⟩ := hfollows.split
  obtain ⟨a, -, hmid⟩ := hfollows.split
  have hbudgets : ∀ e ∈ mid,
      left purpose id e.post + (comparisons purpose id e.pre e.post).length ≤ left purpose id e.pre ∧
        present purpose id e.post + (comparisons purpose id e.pre e.post).count true ≤ present purpose id e.pre := by
    intro e he
    have hmem : e ∈ s.log := hsplit ▸ List.mem_append_left post (List.mem_append_right pre he)
    exact (hcounted e hmem).budgets (hissues e he)
  have htries := hmid.sum_le (left purpose id) _ fun e he => (hbudgets e he).1
  have hhits := hmid.sum_le (present purpose id) _ fun e he => (hbudgets e he).2
  exact ⟨Nat.le_trans (Nat.le_of_add_left_le htries) (left_le a),
    Nat.le_trans (Nat.le_of_add_left_le hhits) (present_le a)⟩

def plainIndex : OtpService.BlindIndex OtpService.Text := ⟨fun email => email, fun otp _ => otp⟩

def issuedCode : OtpService.Store OtpService.Text :=
  (OtpService.generateOtp plainIndex ['a'] "123456".toList 0 .answered .empty).2

def guessedCode : List OtpService.Op :=
  .append (List.replicate 4 (.verifyOtp ['a'] "000000".toList .answered))
    (List.replicate 2 (.verifyOtp ['a'] "123456".toList .answered))

/-- The address 2 of account 1 asks for a login and guesses wrong six times; the sixth is not compared. -/
def guessedLogin : List (Tx.Event ℕ (Op ℕ ℕ)) :=
  enrolledAccount ++ alone 2 (.requestLogin 2 50 6) 9 ++
    ((List.range 5).flatMap fun i => alone (3 + i) (.verifyLogin ⟨50, 9, 0⟩ 51) 6) ++
    alone 8 (.verifyLogin ⟨50, 9, 0⟩ 51) 2

theorem guesses_bounded_guessed :
    (∃ s, run (OtpService.step plainIndex) issuedCode guessedCode = some s ∧
      count (OtpService.step plainIndex) (OtpService.compares plainIndex ['a']) issuedCode guessedCode = 5 ∧
      count (OtpService.step plainIndex) (OtpService.accepts plainIndex ['a']) issuedCode guessedCode ≤ 1) ∧
    ∃ s : Accounts ℕ ℕ,
      run (Tx.System.step (program plainCrypto)) (Tx.System.init (Db.unregistered 1)) guessedLogin = some s ∧
        comparisons .login 50 (Db.unregistered 1) s.db = List.replicate 5 false ∧
        Follows (Db.unregistered 1) s.log s.db := by
  have h := guesses_bounded plainIndex plainCrypto 1
  obtain ⟨s, hs, -⟩ : ∃ s, run (OtpService.step plainIndex) issuedCode guessedCode = some s ∧ True :=
    exists_run _ _ _ (by decide +kernel)
  obtain ⟨s', hs', hcompared⟩ : ∃ s : Accounts ℕ ℕ,
      run (Tx.System.step (program plainCrypto)) (Tx.System.init (Db.unregistered 1)) guessedLogin = some s ∧
        comparisons .login 50 (Db.unregistered 1) s.db = List.replicate 5 false := exists_run _ _ _ (by decide +kernel)
  exact ⟨⟨s, hs, by decide +kernel, (h.1 ['a'] issuedCode s guessedCode hs (by decide +kernel)).2⟩,
    s', hs', hcompared, (h.2.2.1 guessedLogin s' hs').2.2.2.2⟩

/-- Wrong guesses, each of a call that then fails. -/
def failedGuesses (n : ℕ) : List (Tx.Event ℕ (Op ℕ ℕ)) :=
  enrolledAccount ++ alone 2 (.requestLogin 2 50 6) 9 ++
    (List.range n).flatMap fun i => alone (3 + i) (.verifyLogin ⟨50, 9, 0⟩ 51) 5 ++ [.fail (3 + i)]

/-- What a call under way has compared with the challenge. -/
def comparedBy (c : ℕ) (purpose : Purpose) (id : ℕ) (s : Accounts ℕ ℕ) : List Bool :=
  match s.calls c with
  | .holding _ _ pre copy => comparisons purpose id pre copy
  | _ => []

/-- **A transaction that is rolled back takes its comparison back**: each of six calls has compared a wrong code with
one challenge before it fails, and the counter has not moved. -/
theorem guesses_rolledBack :
    (∀ n < 6, ∃ s, run (Tx.System.step (program plainCrypto)) (Tx.System.init (Db.unregistered 1))
        (failedGuesses n ++ alone (3 + n) (.verifyLogin ⟨50, 9, 0⟩ 51) 5) = some s ∧
      comparedBy (3 + n) .login 50 s = [false]) ∧
    ∃ s, run (Tx.System.step (program plainCrypto)) (Tx.System.init (Db.unregistered 1)) (failedGuesses 6) = some s ∧
      (s.db.challenges .login 50).map Challenge.attempts = some 0 := by
  have hcompared : ∀ n < 6, (run (Tx.System.step (program plainCrypto)) (Tx.System.init (Db.unregistered 1))
      (failedGuesses n ++ alone (3 + n) (.verifyLogin ⟨50, 9, 0⟩ 51) 5)).any
        (fun s => decide (comparedBy (3 + n) .login 50 s = [false])) = true := by decide +kernel
  exact ⟨fun n hn => exists_run _ _ _ (hcompared n hn), exists_run _ _ _ (by decide +kernel)⟩

end Recovery
end SecureChat
