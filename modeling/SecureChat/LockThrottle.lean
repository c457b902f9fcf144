import SecureChat.AttemptThrottle
import SecureChat.RecoveryGrants
/-!
# LockThrottle — ten wrong proofs in a row block the registration lock for a day

All runs of all the transactions on an account, with any failures.  The lock notes every check with what it has
evaluated and reported.  The failures and the block in the account's row are what the proofs that were evaluated, in the
order of their commits, have made of a gate (`Throttled`); setting the lock or clearing it starts again.  A replacement
that changes anything has asked the lock itself, and a blocked row tells nothing of the proof.
-/
namespace SecureChat
namespace Recovery

open AttemptThrottle (Gate Mark Exhausts Obeys times)
open Runs
open Tx (Follows)

variable {β ν : Type}

/-- A check of the lock: when, whether the proof was evaluated and as what, and what was reported. -/
structure Checking where
  now : ℕ
  right : Option Bool
  report : Check
deriving DecidableEq

def Checking.mark (x : Checking) : Option Mark := x.right.map (Mark.attempt x.now)

def Note.checking : Note ν → Option Checking
  | .checked now right report => some ⟨now, right, report⟩
  | _ => none

def Note.mark : Note ν → Option Mark
  | .compared .. => none
  | .checked now right report => Checking.mark ⟨now, right, report⟩
  | .reset => some .reset

/-- The proofs that were evaluated, and when the lock was set or cleared. -/
def history (db : Db β ν) : List Mark := db.lockNotes.filterMap Note.mark

def Db.checks (db : Db β ν) : List Checking := db.lockNotes.filterMap Note.checking

/-- The checks between two states of the rows. -/
def checksOf (pre post : Db β ν) : List Checking := post.checks.drop pre.checks.length

theorem lockNotes_checked (now : ℕ) (right : Option Bool) (c : Check) (db : Db β ν) :
    (db.note (.checked now right c)).lockNotes = db.lockNotes ++ [.checked now right c] := by
  simp [Db.lockNotes, Db.note, Note.ofLock]

theorem lockNotes_reset (db : Db β ν) : (db.note .reset).lockNotes = db.lockNotes ++ [.reset] := by
  simp [Db.lockNotes, Db.note, Note.ofLock]

theorem history_of_append {pre post : Db β ν} {n : Note ν} (h : post.lockNotes = pre.lockNotes ++ [n]) :
    history post = history pre ++ n.mark.toList := by
  rw [history, h, List.filterMap_append]
  cases hm : n.mark <;> simp [hm, history]

theorem checks_of_append {pre post : Db β ν} {n : Note ν} (h : post.lockNotes = pre.lockNotes ++ [n]) :
    post.checks = pre.checks ++ n.checking.toList := by
  rw [Db.checks, h, List.filterMap_append]
  cases hm : n.checking <;> simp [hm, Db.checks]

def Users.gate (u : Users β ν) : Gate := ⟨u.registrationLockFailures, u.registrationLockUntil⟩

/-- The count and the block of the lock; without a row there is none. -/
def Db.gate (db : Db β ν) : Gate := (db.users.map Users.gate).getD .fresh

theorem gate_eq {u : Users β ν} {w : Db β ν} (hu : w.users = some u) : w.gate = u.gate := by
  rw [Db.gate, hu, Option.map_some, Option.getD_some]

theorem gate_updateLock {u : Users β ν} {w : Db β ν} (hu : w.users = some u) (failures : ℕ) (until_ : Option ℕ)
    (n : Note ν) : ((updateLock failures until_ w).note n).gate = ⟨failures, until_⟩ := by
  refine gate_eq (u := { u with registrationLockFailures := failures, registrationLockUntil := until_ }) ?_
  show w.users.map _ = _
  rw [hu, Option.map_some]

structure SameLock (pre post : Db β ν) : Prop where
  row : post.users.map Users.gate = pre.users.map Users.gate
  notes : post.lockNotes = pre.lockNotes

theorem sameLock_refl (db : Db β ν) : SameLock db db := ⟨rfl, rfl⟩

theorem sameLock_about (pre : Db β ν) : About Users.gate (SameLock pre) :=
  fun _ _ h _ hnotes hw => ⟨h.trans hw.row, hnotes.trans hw.notes⟩

theorem SameLock.gate {pre post : Db β ν} (h : SameLock pre post) : post.gate = pre.gate :=
  congrArg (Option.getD · Gate.fresh) h.row

variable [DecidableEq ν]

theorem sameLock_completion (pre : Db β ν) : KeptByCompletion (SameLock pre) where
  oneTimePrekeys _ h := ⟨h.row, h.notes⟩
  fallbackKeys _ h := ⟨h.row, h.notes⟩
  challenges _ _ h := ⟨h.row, h.notes⟩
  receipts _ _ _ h := ⟨h.row, h.notes⟩
  identity _ _ _ w h := by
    refine (sameLock_about pre).updateUsers ?_ w h
    intro u
    rfl
  credentials _ _ w h := by
    refine (sameLock_about pre).updateUsers ?_ w h
    intro u
    rfl

/-- **How a check comes to its report**: without a lock there is none to pass, a blocked one reports the time that is
left whatever the proof, and any other evaluates the proof. -/
inductive Judges (P : Crypto β ν) (userId : ν) (proof : Option ν) (u : Users β ν) : Checking → Prop where
  | absent {now : ℕ} (hverifier : u.registrationLockVerifier = none) :
      Judges P userId proof u ⟨now, none, .notRequired⟩
  | blocked {now T : ℕ} (hverifier : u.registrationLockVerifier ≠ none) (huntil : u.registrationLockUntil = some T)
      (hnow : now < T) : Judges P userId proof u ⟨now, none, .locked (max 1 ((T - now) / 1000))⟩
  | right {now : ℕ} (hopen : u.open_ now = true) (hright : u.rightProof P userId proof = true) :
      Judges P userId proof u ⟨now, some true, .passed⟩
  | wrong {now : ℕ} {c : Check} (hopen : u.open_ now = true) (hwrong : u.rightProof P userId proof = false)
      (hc : c.passes = false) : Judges P userId proof u ⟨now, some false, c⟩

section Judges

variable {P : Crypto β ν} {userId : ν} {proof : Option ν} {t : ℕ} {u : Users β ν}

theorem judges_reported : Judges P userId proof u ⟨t, evaluated P userId proof t u, reported P userId proof t u⟩ := by
  cases hverifier : u.registrationLockVerifier with
  | none =>
    have hclosed : u.open_ t = false := by simp [Users.open_, hverifier]
    rw [evaluated_of_closed hclosed, reported, if_pos hverifier]
    exact .absent hverifier
  | some stored =>
    have hsome : u.registrationLockVerifier ≠ none := by simp [hverifier]
    rw [reported, if_neg hsome]
    cases hopen : u.open_ t with
    | false =>
      rw [evaluated_of_closed hopen, if_neg Bool.false_ne_true]
      have hblocked : u.registrationLockUntil.all (fun T => decide (T ≤ t)) = false := by
        simpa [Users.open_, hverifier] using hopen
      cases huntil : u.registrationLockUntil with
      | none => simp [huntil] at hblocked
      | some T =>
        have hnow : t < T := by simpa [huntil] using hblocked
        exact .blocked hsome huntil hnow
    | true =>
      rw [evaluated, hopen, if_pos rfl, if_pos rfl]
      cases hright : u.rightProof P userId proof with
      | true => exact .right hopen hright
      | false =>
        rw [if_neg Bool.false_ne_true]
        split
        · exact .wrong hopen hright rfl
        · exact .wrong hopen hright rfl

theorem counted_eq : (⟨(counted P userId proof t u).1, (counted P userId proof t u).2⟩ : Gate) =
    (Checking.mark ⟨t, evaluated P userId proof t u, reported P userId proof t u⟩).elim u.gate
      (u.gate.mark maxFailures lockout) := by
  cases hopen : u.open_ t with
  | false =>
    rw [counted_of_closed hopen, evaluated_of_closed hopen]
    rfl
  | true =>
    rw [counted, evaluated, hopen, if_pos rfl, if_pos rfl]
    cases hright : u.rightProof P userId proof with
    | true => rfl
    | false =>
      rw [if_neg Bool.false_ne_true]
      by_cases hfull : maxFailures ≤ u.registrationLockFailures + 1
      · rw [if_pos hfull]
        exact (if_pos hfull).symm
      · rw [if_neg hfull]
        exact (if_neg hfull).symm

omit [DecidableEq ν] in
theorem lets_of_open (h : u.open_ t = true) : u.gate.lets t = true := ((Bool.and_eq_true _ _).mp h).2

/-- A proof is evaluated only where the gate lets it through. -/
theorem Judges.lets {x : Checking} (h : Judges P userId proof u x) {right : Bool} (hright : x.right = some right) :
    u.gate.lets x.now = true := by
  cases h with
  | absent | blocked => cases hright
  | right hopen | wrong hopen => exact lets_of_open hopen

end Judges

/-- What a commit has made of the lock. -/
inductive Checked (P : Crypto β ν) (x : Op β ν) (pre : Db β ν) (answer : Answer β ν) (post : Db β ν) : Prop where
  | kept (gate : post.gate = pre.gate) (notes : post.lockNotes = pre.lockNotes)
      (still : ∀ r f, x = .complete r f → r.mode = .replace →
        post.durable r.recoveryToken = pre.durable r.recoveryToken ∧ ∀ c, answer ≠ .completed (.locked c))
  | reset (gate : post.gate = .fresh) (notes : post.lockNotes = pre.lockNotes ++ [.reset])
      (other : ∀ r f, x ≠ .complete r f)
  | asked (r : RecoveryComplete ν) (f : Fresh ν) (u : Users β ν) (check : Checking) (label : x = .complete r f)
      (row : pre.users = some u) (judges : Judges P pre.userId r.lockProof u check)
      (notes : post.lockNotes = pre.lockNotes ++ [.checked check.now check.right check.report])
      (gate : post.gate = check.mark.elim pre.gate (pre.gate.mark maxFailures lockout))
      (passes : post.durable r.recoveryToken ≠ pre.durable r.recoveryToken → check.report.passes = true)
      (refuses : ∀ c, answer = .completed (.locked c) → c = check.report ∧ c.passes = false)

section Programs

variable {P : Crypto β ν} {pre w post : Db β ν} {x : Op β ν} {answer : Answer β ν}

theorem checked_of_same (hx : ∀ r f, x ≠ .complete r f) (h : SameLock pre post) : Checked P x pre answer post :=
  .kept h.gate h.notes fun r f heq => absurd heq (hx r f)

/-- A call of `complete` that has asked the lock. -/
theorem checked_of_asked {r : RecoveryComplete ν} {f : Fresh ν} {u : Users β ν} {t : ℕ} {o : Outcome ν}
    (hu : pre.users = some u)
    (hpost : SameLock ((updateLock (counted P pre.userId r.lockProof t u).1 (counted P pre.userId r.lockProof t u).2
      pre).note (.checked t (evaluated P pre.userId r.lockProof t u) (reported P pre.userId r.lockProof t u))) post)
    (hpasses : post.durable r.recoveryToken ≠ pre.durable r.recoveryToken →
      (reported P pre.userId r.lockProof t u).passes = true)
    (hrefuses : ∀ c, o = .locked c → c = reported P pre.userId r.lockProof t u ∧ c.passes = false) :
    Checked P (.complete r f) pre (.completed o) post := by
  refine .asked r f u ⟨t, _, _⟩ rfl hu judges_reported ?_ ?_ hpasses fun c hc => hrefuses c (Answer.completed.inj hc)
  · rw [hpost.notes, lockNotes_checked]
    rfl
  · rw [hpost.gate, gate_updateLock hu, counted_eq, gate_eq hu]

variable [DecidableEq β]

theorem consumed_sameLock (r : RecoveryComplete ν) (f : Fresh ν) (userId : ν) (account : Account β ν)
    (h : SameLock pre w) :
    (consumed P r f userId account).Locked (fun o post => SameLock pre post ∧ ∀ c, o ≠ .locked c) w := by
  have htaken : ∀ c right, SameLock pre ((w.setChallenge .complete r.recoveryToken c).note
      (.compared .complete r.recoveryToken right)) :=
    fun c right => ⟨h.row, (lockNotes_compared _ _ _ _).trans h.notes⟩
  refine locked_consume (locked_receipt fun o ho => ⟨h, ho⟩)
    (fun t c _ _ => locked_receipt fun o ho => ⟨htaken _ _, ho⟩) fun t c _ _ => ?_
  have hkeeps := completeConsumed_keeps (P := P) (sameLock_completion pre) r f account c.context userId
  exact ((hkeeps.locked_of_imp fun _ => htaken none true).imp fun _ _ hpost => hpost trivial).and
    completeConsumed_unlocked

theorem complete_checked (r : RecoveryComplete ν) (f : Fresh ν) (last : Db β ν) :
    (program P (.complete r f)).Open (fun _ _ => True) (Checked P (.complete r f)) last := by
  have hsame : ∀ (w : Db β ν) (o : Outcome ν), (∀ c, o ≠ .locked c) →
      Checked P (.complete r f) w (.completed o) w := by
    refine fun w o ho => .kept rfl rfl fun r' f' heq _ => ?_
    cases heq
    exact ⟨rfl, fun c hc => ho c (Answer.completed.inj hc)⟩
  refine Tx.Open.map (complete_course (fun w => hsame w .rejected nofun) (open_receipt hsame) ?_ last)
  intro userId account w u haccount hu
  have huser : userId = w.userId := by
    unfold Db.account at haccount
    split at haccount
    · assumption
    · cases haccount
  subst huser
  refine locked_held hu ?_ ?_ ?_
  · rintro hmode t c rfl hrefused
    refine checked_of_asked hu (sameLock_refl _) (fun hne => ?_) fun c hc => ?_
    · exact absurd (((quiet_refl r.recoveryToken w).updateLock _ _).note _).durable hne
    · cases hc
      exact ⟨rfl, hrefused⟩
  · rintro hmode t c rfl hpasses
    exact (consumed_sameLock r f w.userId account (sameLock_refl _)).imp fun o post hpost =>
      checked_of_asked hu hpost.1 (fun _ => hpasses) fun c hc => absurd hc (hpost.2 c)
  · intro hmode
    refine (consumed_sameLock r f w.userId account (sameLock_refl w)).imp fun o post hpost => ?_
    refine .kept hpost.1.gate hpost.1.notes fun r' f' heq hmode' => ?_
    cases heq
    exact absurd hmode' hmode

theorem register_checked (email : Option ν) (version : ν) (taken : Bool) (f : Fresh ν) (last : Db β ν) :
    (program P (.register email version taken f)).Open (fun _ _ => True) (Checked P (.register email version taken f))
      last := by
  refine Tx.Open.map fun w _ t => ?_
  simp only
  split
  · trivial
  · rename_i hnone
    have hgate : w.gate = .fresh := by rw [Db.gate, hnone, Option.map_none, Option.getD_none]
    have hnew : ∀ {b : Bool} {post : Db β ν}, post.gate = .fresh → post.lockNotes = w.lockNotes →
        Checked P (.register email version taken f) w (.yes b) post :=
      fun hpost hnotes => .kept (hpost.trans hgate.symm) hnotes (by rintro _ _ ⟨⟩)
    cases email with
    | none => exact hnew rfl rfl
    | some email =>
      intro t'
      simp only
      split
      · exact hnew rfl rfl
      · exact hnew rfl rfl

theorem updateRegistrationLock_checked (userId epoch : ν) (proof : Option ν) (last : Db β ν) :
    (program P (.updateRegistrationLock userId epoch proof)).Open (fun _ _ => True)
      (Checked P (.updateRegistrationLock userId epoch proof)) last := by
  have hset : ∀ {w : Db β ν} {account : Account β ν} (verifier : Option ν), w.account userId = some account →
      Checked P (.updateRegistrationLock userId epoch proof) w (.yes true) (setLock verifier w) := by
    intro w account verifier haccount
    obtain ⟨u, hu⟩ := exists_users haccount
    refine .reset ?_ (lockNotes_reset _) nofun
    unfold Db.gate setLock Db.updateUsers
    rw [Db.note, hu]
    rfl
  have hkeep : ∀ {w : Db β ν}, Checked P (.updateRegistrationLock userId epoch proof) w (.yes false) w :=
    checked_of_same (fun _ _ h => by cases h) (sameLock_refl _)
  refine Tx.Open.map fun w _ t => ?_
  simp only
  split
  · exact hkeep
  · rename_i account haccount
    split
    · exact hkeep
    · split
      · exact hset none haccount
      · split
        · exact hset _ haccount
        · exact hkeep

theorem setIdentity_guarded_sameLock (userId : ν) (identityKey signingKey : β) (expectedEpoch : Option ν) (a : Db β ν) :
    (setIdentity P userId identityKey signingKey expectedEpoch).Guarded (SameLock a) := by
  unfold setIdentity
  split
  · trivial
  · refine lockUsers_guarded fun u => guard_keeps ?_
    split
    · trivial
    · split
      · trivial
      · split
        · trivial
        · refine ⟨(sameLock_about a).updateUsers ?_, trivial⟩
          intro u
          rfl

theorem program_checked (x : Op β ν) (last : Db β ν) :
    (program P x).Open (fun _ _ => True) (Checked P x) last := by
  by_cases hx : x.bare = true
  · have hsame := Tx.Guarded.open_of_forall (R := fun _ _ => True) (J := SameLock) sameLock_refl
      (fun a => bare_keeps (P := P) (sameLock_about a) (fun _ _ _ => rfl) hx) last
    refine hsame.imp fun pre answer post h => checked_of_same ?_ h
    rintro r f rfl
    cases hx
  · cases x with
    | register email version taken f => exact register_checked email version taken f last
    | setIdentity userId identityKey signingKey epoch =>
      have hsame := Tx.Guarded.open_of_forall (R := fun _ _ => True) (J := SameLock) sameLock_refl
        (fun a => setIdentity_guarded_sameLock (P := P) userId identityKey signingKey epoch a) last
      exact (hsame.imp fun pre answer post h => checked_of_same (fun _ _ h => by cases h) h).map
    | complete r f => exact complete_checked r f last
    | updateRegistrationLock userId epoch proof => exact updateRegistrationLock_checked _ _ _ last
    | _ => exact absurd rfl hx

end Programs

/-- The row is what its history has made of it, and no proof of the history was evaluated behind a block. -/
structure Throttled (db : Db β ν) : Prop where
  gate : db.gate = Gate.after maxFailures lockout (history db)
  obeys : Obeys maxFailures lockout (history db)

section History

variable {P : Crypto β ν} {x : Op β ν} {pre post : Db β ν} {answer : Answer β ν}

omit [DecidableEq ν] in
theorem Throttled.append (h : Throttled pre) {m : Mark} (hhistory : history post = history pre ++ [m])
    (hgate : post.gate = pre.gate.mark maxFailures lockout m)
    (hlets : ∀ t right, m = .attempt t right → pre.gate.lets t = true) : Throttled post where
  gate := by rw [hgate, hhistory, AttemptThrottle.after_append_singleton, h.gate]
  obeys := by
    rw [hhistory]
    exact h.obeys.append fun t right hm => h.gate ▸ hlets t right hm

theorem Checked.throttled (h : Checked P x pre answer post) (hpre : Throttled pre) : Throttled post := by
  cases h with
  | kept gate notes =>
    have hhistory : history post = history pre := congrArg (List.filterMap Note.mark) notes
    exact ⟨gate.trans (hhistory ▸ hpre.gate), hhistory ▸ hpre.obeys⟩
  | reset gate notes => exact hpre.append (history_of_append notes) gate nofun
  | asked r f u check label row judges notes gate =>
    have hhistory : history post = history pre ++ check.mark.toList := history_of_append notes
    cases hm : check.mark with
    | none =>
      rw [hm, Option.toList_none, List.append_nil] at hhistory
      rw [hm, Option.elim_none] at gate
      exact ⟨gate.trans (hhistory ▸ hpre.gate), hhistory ▸ hpre.obeys⟩
    | some m =>
      rw [hm] at hhistory gate
      refine hpre.append hhistory gate ?_
      rintro t right rfl
      obtain ⟨right', hright, heq⟩ := Option.map_eq_some_iff.1 hm
      cases heq
      rw [gate_eq row]
      exact judges.lets hright

omit [DecidableEq ν] in
theorem checksOf_of_eq (h : post.lockNotes = pre.lockNotes) : checksOf pre post = [] := by
  have hchecks : post.checks = pre.checks := congrArg (List.filterMap Note.checking) h
  rw [checksOf, hchecks, List.drop_length]

/-- A check of a commit is of the proof that the call was given, and judged by the row. -/
theorem Checked.judged (h : Checked P x pre answer post) {check : Checking} (hcheck : check ∈ checksOf pre post) :
    ∃ r f u, x = .complete r f ∧ pre.users = some u ∧ Judges P pre.userId r.lockProof u check := by
  cases h with
  | kept gate notes =>
    rw [checksOf_of_eq notes] at hcheck
    cases hcheck
  | reset gate notes =>
    rw [checksOf, checks_of_append notes, List.drop_left] at hcheck
    cases hcheck
  | asked r f u check' label row judges notes =>
    rw [checksOf, checks_of_append notes, List.drop_left] at hcheck
    rw [show check = check' from List.mem_singleton.1 hcheck]
    exact ⟨r, f, u, label, row, judges⟩

/-- A replacement goes on, or is refused, by what the lock has reported to it. -/
theorem Checked.asks {r : RecoveryComplete ν} {f : Fresh ν} (h : Checked P (.complete r f) pre answer post)
    (hmode : r.mode = .replace) :
    (post.durable r.recoveryToken ≠ pre.durable r.recoveryToken →
      ∃ check ∈ checksOf pre post, check.report.passes = true) ∧
    ∀ c, answer = .completed (.locked c) → c.passes = false ∧ ∃ check ∈ checksOf pre post, check.report = c := by
  cases h with
  | kept gate notes still =>
    obtain ⟨hdurable, hanswer⟩ := still r f rfl hmode
    exact ⟨fun hne => absurd hdurable hne, fun c hc => absurd hc (hanswer c)⟩
  | reset gate notes other => exact absurd rfl (other r f)
  | asked r' f' u check label row judges notes gate passes refuses =>
    cases label
    have hmem : check ∈ checksOf pre post := by
      rw [checksOf, checks_of_append notes, List.drop_left]
      exact List.mem_singleton_self _
    exact ⟨fun hne => ⟨check, hmem, passes hne⟩, fun c hc => ⟨(refuses c hc).2, check, hmem, (refuses c hc).1.symm⟩⟩

end History

variable [DecidableEq β]

/-- **The registration lock is throttled**, in every run of any calls, with any failures.  The failures on record stay
below ten, and they and the block are what the evaluated proofs have made of them; after every tenth wrong proof in a
row no proof is evaluated for 24 hours, until the lock is set or cleared.  A replacement that changes anything has had
`notRequired` or `passed` reported to this very call, and one that is refused has had its refusal.  Every check judges
the call's own proof by the row, and a blocked row leads every proof, of a call that fails as well, to the one report of
the time that is left. -/
theorem registrationLock_run {P : Crypto β ν} {userId : ν} {s : Accounts β ν} {es : List (Tx.Event ℕ (Op β ν))}
    (hr : run (Tx.System.step (program P)) (Tx.System.init (Db.unregistered userId)) es = some s) :
    (∀ u, s.db.users = some u → u.registrationLockFailures < maxFailures ∧
      u.gate = Gate.after maxFailures lockout (history s.db)) ∧
    (∀ u, s.db.users = some u → ∀ T, Exhausts maxFailures (history s.db) T →
      u.registrationLockUntil = some (T + lockout)) ∧
    (∀ pre mid post T t right, history s.db = pre ++ mid ++ .attempt t right :: post → Exhausts maxFailures pre T →
      .reset ∉ mid → (times mid ++ [t]).Pairwise (· ≤ ·) → T + lockout ≤ t) ∧
    (∀ e ∈ s.log, ∀ r f, e.label = .complete r f → r.mode = .replace →
      (e.post.durable r.recoveryToken ≠ e.pre.durable r.recoveryToken →
        ∃ check ∈ checksOf e.pre e.post, check.report.passes = true) ∧
      ∀ c, e.result = .completed (.locked c) →
        c.passes = false ∧ ∃ check ∈ checksOf e.pre e.post, check.report = c) ∧
    (∀ e ∈ s.log, ∀ check ∈ checksOf e.pre e.post, ∃ r f u, e.label = .complete r f ∧ e.pre.users = some u ∧
      Judges P e.pre.userId r.lockProof u check) ∧
    ∀ (ρ : Type) (id : ν) (proof : Option ν) (k : Check → Transaction β ν ρ) (now T : ℕ) (db : Db β ν) (u : Users β ν),
      db.users = some u → u.registrationLockVerifier ≠ none → u.registrationLockUntil = some T → now < T →
        ∃ f, checkLock P id proof k = .read f ∧
          f now db = report now none (.locked (max 1 ((T - now) / 1000))) (fun db => db) k := by
  have hlimit : 0 < maxFailures := by decide
  have hserial := Tx.serial_run (R := fun _ _ => True) (Q := fun x pre answer post => Checked P x pre answer post)
    (fun _ => trivial) (fun _ _ _ _ _ => trivial) (fun _ _ _ _ _ => trivial) program_checked hr
  have hlog := hserial.meets
  have hthrottled : Throttled s.db :=
    hserial.follows.rel (R := fun pre post => Throttled pre → Throttled post) (fun _ h => h)
      (fun _ _ _ h h' ha => h' (h ha)) (fun e he => (hlog e he).throttled) ⟨rfl, AttemptThrottle.obeys_nil⟩
  have hrow : ∀ u, s.db.users = some u → u.gate = Gate.after maxFailures lockout (history s.db) :=
    fun u hu => (gate_eq hu).symm.trans hthrottled.gate
  refine ⟨fun u hu => ⟨?_, hrow u hu⟩, fun u hu T hT => ?_, fun pre mid post T t right heq hT hreset hclock => ?_,
    fun e he r f hlabel hmode => ?_, fun e he check hcheck => (hlog e he).judged hcheck,
    fun ρ id proof k now T db u hu hverifier huntil hnow => ⟨_, rfl, ?_⟩⟩
  · have hlt := (AttemptThrottle.streak_eq lockout (history s.db) hlimit).1
    rw [← hrow u hu] at hlt
    exact hlt
  · have hblocked := (AttemptThrottle.blockedUntil_eq_some lockout hlimit).2 ⟨T, hT, rfl⟩
    rw [← hrow u hu] at hblocked
    exact hblocked
  · exact AttemptThrottle.blocked_after hlimit hthrottled.obeys heq hT hreset hclock
  · exact (hlabel ▸ hlog e he).asks hmode
  · obtain ⟨stored, hstored⟩ := Option.ne_none_iff_exists'.1 hverifier
    simp only [hu, hstored, huntil, Option.filter_some, decide_eq_true hnow, if_true]
    rfl

def tenWrongProofs : List (Tx.Event ℕ (Op ℕ ℕ)) :=
  enrolledAccount ++ alone 2 (.updateRegistrationLock 1 10 (some 99)) 4 ++ alone 3 (.requestLogin 2 50 6) 9 ++
    alone 4 (.verifyLogin ⟨50, 6, 0⟩ 7) 12 ++ (List.range 10).flatMap fun i =>
      .start (5 + i) (.complete (replaceRequest 98) ⟨11, 21, 1, 2⟩) :: List.replicate 6 (.exec (5 + i) (1000 * i))

theorem registrationLock_run_tenWrong :
    ∃ s : Accounts ℕ ℕ,
      run (Tx.System.step (program plainCrypto)) (Tx.System.init (Db.unregistered 1)) tenWrongProofs = some s ∧
        history s.db = .reset :: (List.range 10).map (fun i => .attempt (1000 * i) false) ∧
        ∀ u, s.db.users = some u → u.registrationLockUntil = some (9000 + lockout) := by
  obtain ⟨s, hs, hhistory⟩ : ∃ s : Accounts ℕ ℕ,
      run (Tx.System.step (program plainCrypto)) (Tx.System.init (Db.unregistered 1)) tenWrongProofs = some s ∧
        history s.db = .reset :: (List.range 10).map (fun i => .attempt (1000 * i) false) :=
    exists_run _ _ _ (by decide +kernel)
  refine ⟨s, hs, hhistory, fun u hu => (registrationLock_run hs).2.1 u hu 9000 ?_⟩
  rw [hhistory]
  exact ⟨.reset :: (List.range 9).map (fun i => .attempt (1000 * i) false), by decide, by decide⟩

end Recovery
end SecureChat
