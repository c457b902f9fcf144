import SecureChat.BackupRestore
/-!
# BackupGuesses — how many wrong passwords a backup is tried with

The calls of `restoreBackup` on the files of a device, side by side, as far as they concern the counter of the attempts
and the files.  The counter is read, the decryption awaited and the counter written; the fifth wrong password deletes
the counter and then the file.  `guesses_run` bounds the wrong passwords for a content where no two calls are between
reading and writing its counter, the counter is written, and is not read any more once the fifth has deleted it.
-/
namespace SecureChat
namespace Backup
namespace Guesses

open GroupControl (Text)

inductive Call where
  | readAsBytes (path password : Text)
  | fingerprint (path password : Text) (file : BackupFile)
  | getAttempts (path password : Text) (file : BackupFile)
  | decrypt (path password : Text) (file : BackupFile) (attempts : Int64)
  | putAttempts (path : Text) (file : BackupFile) (next : Int64)
  | clearAttempts (path : Text) (file : BackupFile)
  | deleteFile (path : Text)
  | restoreDocument (file : BackupFile)
  | deleteAttempts (file : BackupFile)
  | ended (result : Except Fault RestoreResult)
  | copy (source target : Text)
  | copied

/-- The files and the counters.  The last two fields are history: how many wrong passwords a content has been tried with
since it was restored last, and whether the fifth of them has deleted its counter. -/
structure Device where
  files : Text → Option BackupFile
  attempts : Text → Option Text := fun _ => none
  wrong : Text → ℕ := fun _ => 0
  cleared : Text → Bool := fun _ => false

namespace Device

def putAttempt (key : Text) (value : Option Text) (d : Device) : Device :=
  { d with attempts := Function.update d.attempts key value }

def delete (path : Text) (d : Device) : Device := { d with files := Function.update d.files path none }

def guess (file : BackupFile) (d : Device) : Device :=
  { d with wrong := Function.update d.wrong file.fingerprint (d.wrong file.fingerprint + 1) }

/-- The counter is deleted after the fifth. -/
def clear (file : BackupFile) (d : Device) : Device :=
  { d.putAttempt file.attemptKey none with cleared := Function.update d.cleared file.fingerprint true }

def succeed (file : BackupFile) (d : Device) : Device :=
  { d.putAttempt file.attemptKey none with
    wrong := Function.update d.wrong file.fingerprint 0
    cleared := Function.update d.cleared file.fingerprint false }

def counter (fingerprint : Text) (d : Device) : Int64 :=
  (DartInt.tryParse ((d.attempts ("backup_attempt:".toList ++ fingerprint)).getD ['0'])).getD 0

end Device

/-- What is awaited ends, with an exception or without. -/
def exec (d : Device) : Call → Option Fault → Option (Device × Call)
  | .readAsBytes path password, answer =>
    match answer, d.files path with
    | none, some file => some (d, .fingerprint path password file)
    | _, _ => some (d, .ended (.ok (.failure "Dosya okunamadı: ")))
  | .fingerprint path password file, none => some (d, .getAttempts path password file)
  | .getAttempts path password file, none =>
    let attempts := d.counter file.fingerprint
    if maximumAttempts ≤ attempts then some (d, .deleteFile path)
    else some (d, .decrypt path password file attempts)
  | .decrypt path password file attempts, none =>
    match file.decrypt password with
    | none => some (d.guess file, .putAttempts path file (attempts + 1))
    | some _ => some (d, .restoreDocument file)
  | .putAttempts path file next, none =>
    let d := d.putAttempt file.attemptKey (some (DartInt.print next))
    if maximumAttempts ≤ next then some (d, .clearAttempts path file)
    else some (d, .ended (.ok (.wrongPassword (maximumAttempts - next))))
  | .clearAttempts path file, none => some (d.clear file, .deleteFile path)
  | .deleteFile path, none => some (d.delete path, .ended (.ok (.attemptsExhausted true)))
  | .deleteFile _, some _ => some (d, .ended (.ok (.attemptsExhausted false)))
  | .restoreDocument file, none => some (d, .deleteAttempts file)
  | .deleteAttempts file, none => some (d.succeed file, .ended (.ok .success))
  | .restoreDocument _, some fault | .deleteAttempts _, some fault =>
    some (d, .ended (.ok (.failure fault.message)))
  | .copy source target, _ =>
    some ({ d with files := Function.update d.files target (d.files source) }, .copied)
  | .ended _, _ | .copied, _ => none
  | _, some fault => some (d, .ended (.error fault))

inductive Event where
  | restoreBackup (path password : Text)
  | copy (source target : Text)

def spawn : Event → Call
  | .restoreBackup path password => .readAsBytes path password
  | .copy source target => .copy source target

abbrev State := Pool Device Call

def step : State → Pool.Label Event (Option Fault) → Option State := Pool.step spawn exec

def start (files : Text → Option BackupFile) : State := ⟨{ files := files }, []⟩

def Call.counting (fingerprint : Text) : Call → Bool
  | .decrypt _ _ file _ | .putAttempts _ file _ | .clearAttempts _ file => decide (file.fingerprint = fingerprint)
  | _ => false

/-- The condition on a step: the counter is read where no other call has still to write it and it was not deleted at the
fifth wrong password, and it is written. -/
def orderly (fingerprint : Text) (d : Device) (call : Call) (answer : Option Fault) (others : List Call) : Prop :=
  match call with
  | .getAttempts _ _ file => file.fingerprint = fingerprint →
    d.cleared fingerprint = false ∧ ∀ c ∈ others, c.counting fingerprint = false
  | .putAttempts _ file _ => file.fingerprint = fingerprint → answer = none
  | _ => True

instance decidableOrderly (fingerprint : Text) (d : Device) (call : Call) (answer : Option Fault)
    (others : List Call) : Decidable (orderly fingerprint d call answer others) := by
  unfold orderly
  split <;> infer_instance

/-! ## The invariant -/

def Call.uncounted (fingerprint : Text) : Call → Bool
  | .putAttempts _ file _ => decide (file.fingerprint = fingerprint)
  | _ => false

def Fits (fingerprint : Text) (d : Device) : Call → Prop
  | .decrypt _ _ file attempts => file.fingerprint = fingerprint →
    attempts.toInt < 5 ∧ d.wrong fingerprint ≤ attempts.toInt
  | .putAttempts _ file next => file.fingerprint = fingerprint → d.wrong fingerprint ≤ next.toInt
  | _ => True

structure Inv (fingerprint : Text) (d : Device) (calls : List Call) : Prop where
  bound : d.wrong fingerprint ≤ 5
  alone : (calls.filter (Call.counting fingerprint)).length ≤ 1
  fits : ∀ c ∈ calls, Fits fingerprint d c
  counted : d.cleared fingerprint = false → (∀ c ∈ calls, c.uncounted fingerprint = false) →
    d.wrong fingerprint ≤ (d.counter fingerprint).toInt

section Steps

variable {fingerprint : Text} {d d' : Device} {t t' : Call} {o : List Call} {file : BackupFile}

theorem fits_of_not_counting {c : Call} (h : c.counting fingerprint = false) : Fits fingerprint d c := by
  cases c with
  | decrypt path password file attempts => exact fun hf => absurd hf (of_decide_eq_false h)
  | putAttempts path file next => exact fun hf => absurd hf (of_decide_eq_false h)
  | _ => trivial

theorem uncounted_of_not_counting {c : Call} (h : c.counting fingerprint = false) :
    c.uncounted fingerprint = false := by
  cases c with
  | putAttempts path file next => exact h
  | _ => rfl

theorem Inv.others (h : Inv fingerprint d (t :: o)) (ht : t.counting fingerprint = true) :
    ∀ c ∈ o, c.counting fingerprint = false := by
  intro c hc
  have hle := h.alone
  rw [List.filter_cons_of_pos ht, List.length_cons] at hle
  have hnil : o.filter (Call.counting fingerprint) = [] := List.length_eq_zero_iff.1 (by omega)
  exact Bool.eq_false_iff.2 (List.filter_eq_nil_iff.1 hnil c hc)

theorem alone_of_others (h : ∀ c ∈ o, c.counting fingerprint = false) :
    ((t' :: o).filter (Call.counting fingerprint)).length ≤ 1 := by
  have hnil : o.filter (Call.counting fingerprint) = [] :=
    List.filter_eq_nil_iff.2 fun c hc => Bool.eq_false_iff.1 (h c hc)
  rw [List.filter_cons, hnil]
  split <;> simp

theorem Inv.leave (h : Inv fingerprint d (t :: o)) (ht : t.uncounted fingerprint = false)
    (ht' : t'.counting fingerprint = false) (hwrong : d'.wrong fingerprint = d.wrong fingerprint)
    (hcleared : d'.cleared fingerprint = d.cleared fingerprint)
    (hcounter : d'.counter fingerprint = d.counter fingerprint) : Inv fingerprint d' (t' :: o) where
  bound := by
    rw [hwrong]
    exact h.bound
  alone := by
    rw [List.filter_cons_of_neg (by simp [ht'])]
    exact Nat.le_trans (List.Sublist.length_le ((List.sublist_cons_self t o).filter _)) h.alone
  fits c hc := by
    rcases List.mem_cons.1 hc with rfl | hc
    · exact fits_of_not_counting ht'
    · have hfits := h.fits c (List.mem_cons_of_mem t hc)
      cases c with
      | decrypt path password file attempts =>
        show _ → _ ∧ (d'.wrong fingerprint : ℤ) ≤ _
        rw [hwrong]
        exact hfits
      | putAttempts path file next =>
        show _ → (d'.wrong fingerprint : ℤ) ≤ _
        rw [hwrong]
        exact hfits
      | _ => trivial
  counted hc hall := by
    rw [hwrong, hcounter]
    refine h.counted (hcleared ▸ hc) fun c hmem => ?_
    rcases List.mem_cons.1 hmem with rfl | hmem
    · exact ht
    · exact hall c (List.mem_cons_of_mem t' hmem)

theorem attemptKey_inj {file : BackupFile} (h : file.attemptKey = "backup_attempt:".toList ++ fingerprint) :
    file.fingerprint = fingerprint := List.append_cancel_left h

theorem counter_put {file : BackupFile} (next : Int64) :
    (d.putAttempt file.attemptKey (some (DartInt.print next))).counter file.fingerprint = next := by
  unfold Device.counter Device.putAttempt BackupFile.attemptKey
  simp only [Function.update_self, Option.getD_some, DartInt.tryParse_print]

theorem counter_put_ne {file : BackupFile} (h : file.fingerprint ≠ fingerprint) (value : Option Text) :
    (d.putAttempt file.attemptKey value).counter fingerprint = d.counter fingerprint := by
  unfold Device.counter Device.putAttempt
  simp only
  rw [Function.update_of_ne fun he => h (attemptKey_inj he.symm)]

theorem Inv.read (h : Inv fingerprint d (t :: o)) (hcleared : d.cleared fingerprint = false)
    (ht : t.uncounted fingerprint = false) (ho : ∀ c ∈ o, c.counting fingerprint = false) {path password : Text}
    (hlt : (d.counter fingerprint).toInt < 5) :
    Inv fingerprint d (.decrypt path password file (d.counter fingerprint) :: o) where
  bound := h.bound
  alone := alone_of_others ho
  fits c hc := by
    rcases List.mem_cons.1 hc with rfl | hc
    · refine fun _ => ⟨hlt, h.counted hcleared fun c hmem => ?_⟩
      rcases List.mem_cons.1 hmem with rfl | hmem
      · exact ht
      · exact uncounted_of_not_counting (ho c hmem)
    · exact h.fits c (List.mem_cons_of_mem t hc)
  counted hc hall := by
    refine h.counted hc fun c hmem => ?_
    rcases List.mem_cons.1 hmem with rfl | hmem
    · exact ht
    · exact uncounted_of_not_counting (ho c hmem)

theorem Inv.guess {path password : Text} {attempts : Int64}
    (h : Inv fingerprint d (.decrypt path password file attempts :: o)) (hf : file.fingerprint = fingerprint) :
    Inv fingerprint (d.guess file) (.putAttempts path file (attempts + 1) :: o) := by
  subst hf
  have ho := h.others (decide_eq_true rfl)
  obtain ⟨hlt, hle⟩ := h.fits _ List.mem_cons_self rfl
  have hwrong : (d.guess file).wrong file.fingerprint = d.wrong file.fingerprint + 1 := Function.update_self _ _ _
  have hnext : (attempts + 1).toInt = attempts.toInt + 1 := by
    have hone : (1 : Int64).toInt = 1 := by decide
    rw [Int64.toInt_add, hone]
    exact Int.bmod_eq_of_le (by omega) (by omega)
  constructor
  · rw [hwrong]
    omega
  · exact alone_of_others ho
  · intro c hc
    rcases List.mem_cons.1 hc with rfl | hc
    · intro _
      rw [hwrong, hnext]
      omega
    · exact fits_of_not_counting (ho c hc)
  · intro _ hall
    have hself := hall _ List.mem_cons_self
    simp [Call.uncounted] at hself

theorem Inv.put {path : Text} {next : Int64} (h : Inv fingerprint d (.putAttempts path file next :: o))
    (hf : file.fingerprint = fingerprint) (ht' : t'.uncounted fingerprint = false) (hfits : Fits fingerprint d' t')
    (hd' : d' = d.putAttempt file.attemptKey (some (DartInt.print next))) : Inv fingerprint d' (t' :: o) := by
  subst hf hd'
  have ho := h.others (decide_eq_true rfl)
  refine ⟨h.bound, alone_of_others ho, fun c hc => ?_, fun _ _ => ?_⟩
  · rcases List.mem_cons.1 hc with rfl | hc
    · exact hfits
    · exact fits_of_not_counting (ho c hc)
  · rw [counter_put]
    exact h.fits _ List.mem_cons_self rfl

theorem Inv.clear {path : Text} (h : Inv fingerprint d (.clearAttempts path file :: o))
    (hf : file.fingerprint = fingerprint) (ht' : t'.counting fingerprint = false) :
    Inv fingerprint (d.clear file) (t' :: o) := by
  subst hf
  have ho := h.others (decide_eq_true rfl)
  refine ⟨h.bound, alone_of_others ho, fun c hc => ?_, fun hc _ => ?_⟩
  · rcases List.mem_cons.1 hc with rfl | hc
    · exact fits_of_not_counting ht'
    · exact fits_of_not_counting (ho c hc)
  · have hcleared : (d.clear file).cleared file.fingerprint = true := Function.update_self _ _ _
    rw [hcleared] at hc
    cases hc

theorem counter_none {file : BackupFile} :
    ((d.putAttempt file.attemptKey none).counter file.fingerprint).toInt = 0 := by
  have hzero : DartInt.tryParse ['0'] = some 0 := DartInt.tryParse_print 0
  unfold Device.counter Device.putAttempt BackupFile.attemptKey
  simp only [Function.update_self, Option.getD_none, hzero, Option.getD_some]
  decide

theorem Inv.succeed (h : Inv fingerprint d (t :: o)) (hf : file.fingerprint = fingerprint)
    (ht' : t'.counting fingerprint = false) : Inv fingerprint (d.succeed file) (t' :: o) := by
  subst hf
  have hwrong : (d.succeed file).wrong file.fingerprint = 0 := Function.update_self _ _ _
  refine ⟨by omega, ?_, fun c hc => ?_, fun _ _ => ?_⟩
  · rw [List.filter_cons_of_neg (by simp [ht'])]
    exact Nat.le_trans (List.Sublist.length_le ((List.sublist_cons_self t o).filter _)) h.alone
  · rcases List.mem_cons.1 hc with rfl | hc
    · exact fits_of_not_counting ht'
    · have hfits := h.fits c (List.mem_cons_of_mem t hc)
      cases c with
      | decrypt path password file' attempts =>
        intro hf
        have hle := hfits hf
        rw [hwrong]
        omega
      | putAttempts path file' next =>
        intro hf
        have hle : (d.wrong file.fingerprint : ℤ) ≤ next.toInt := hfits hf
        rw [hwrong]
        omega
      | _ => trivial
  · rw [hwrong]
    exact counter_none.ge

theorem Inv.exec {answer : Option Fault} (h : Inv fingerprint d (t :: o)) (hok : orderly fingerprint d t answer o)
    (he : Guesses.exec d t answer = some (d', t')) : Inv fingerprint d' (t' :: o) := by
  cases t with
  | readAsBytes path password =>
    simp only [Guesses.exec] at he
    split at he <;> cases he <;> exact h.leave rfl rfl rfl rfl rfl
  | fingerprint path password file => cases answer <;> cases he <;> exact h.leave rfl rfl rfl rfl rfl
  | getAttempts path password file =>
    cases answer with
    | some fault =>
      cases he
      exact h.leave rfl rfl rfl rfl rfl
    | none =>
      simp only [Guesses.exec] at he
      split at he
      · cases he
        exact h.leave rfl rfl rfl rfl rfl
      · next hlt =>
        cases he
        by_cases hf : file.fingerprint = fingerprint
        · subst hf
          obtain ⟨hcleared, ho⟩ := hok rfl
          have hfive : maximumAttempts.toInt = 5 := by decide
          rw [Int64.le_iff_toInt_le, hfive] at hlt
          exact h.read hcleared rfl ho (by omega)
        · exact h.leave rfl (decide_eq_false hf) rfl rfl rfl
  | decrypt path password file attempts =>
    cases answer with
    | some fault =>
      cases he
      exact h.leave rfl rfl rfl rfl rfl
    | none =>
      simp only [Guesses.exec] at he
      split at he
      · cases he
        by_cases hf : file.fingerprint = fingerprint
        · exact h.guess hf
        · exact h.leave rfl (decide_eq_false hf) (Function.update_of_ne (Ne.symm hf) _ _) rfl rfl
      · cases he
        exact h.leave rfl rfl rfl rfl rfl
  | putAttempts path file next =>
    by_cases hf : file.fingerprint = fingerprint
    · obtain rfl : answer = none := hok hf
      simp only [Guesses.exec] at he
      split at he <;> cases he <;> exact h.put hf rfl trivial rfl
    · have hother : (Call.putAttempts path file next).uncounted fingerprint = false := decide_eq_false hf
      cases answer with
      | some fault =>
        cases he
        exact h.leave hother rfl rfl rfl rfl
      | none =>
        simp only [Guesses.exec] at he
        split at he <;> cases he
        · exact h.leave hother (decide_eq_false hf) rfl rfl (counter_put_ne hf _)
        · exact h.leave hother rfl rfl rfl (counter_put_ne hf _)
  | clearAttempts path file =>
    cases answer with
    | some fault =>
      cases he
      exact h.leave rfl rfl rfl rfl rfl
    | none =>
      cases he
      by_cases hf : file.fingerprint = fingerprint
      · exact h.clear hf rfl
      · exact h.leave rfl rfl rfl (Function.update_of_ne (Ne.symm hf) _ _) (counter_put_ne hf _)
  | deleteAttempts file =>
    cases answer with
    | some fault =>
      cases he
      exact h.leave rfl rfl rfl rfl rfl
    | none =>
      cases he
      by_cases hf : file.fingerprint = fingerprint
      · exact h.succeed hf rfl
      · exact h.leave rfl rfl (Function.update_of_ne (Ne.symm hf) _ _) (Function.update_of_ne (Ne.symm hf) _ _)
          (counter_put_ne hf _)
  | deleteFile path => cases answer <;> cases he <;> exact h.leave rfl rfl rfl rfl rfl
  | restoreDocument file => cases answer <;> cases he <;> exact h.leave rfl rfl rfl rfl rfl
  | copy source target => cases answer <;> cases he <;> exact h.leave rfl rfl rfl rfl rfl
  | ended result => cases answer <;> cases he
  | copied => cases answer <;> cases he

end Steps

/-! ## Runs -/

/-- **At most five wrong passwords** for a content since it was restored last, in every run whose steps meet the
condition. -/
theorem guesses_run {fingerprint : Text} {files : Text → Option BackupFile}
    {ls : List (Pool.Label Event (Option Fault))} {q : State}
    (hm : Runs.Meets step (Pool.Moves (orderly fingerprint)) (start files) ls)
    (hr : Runs.run step (start files) ls = some q) : q.shared.wrong fingerprint ≤ 5 := by
  have hexec : ∀ d t answer o d' t', Inv fingerprint d (t :: o) → orderly fingerprint d t answer o →
      exec d t answer = some (d', t') → Inv fingerprint d' (t' :: o) :=
    fun d t answer o d' t' h hok he => h.exec hok he
  have hinv : Inv fingerprint q.shared q.threads := by
    refine Pool.invariant (Inv fingerprint) (fun d ts ts' hp h => ?_) (fun d ts e h => ?_) hexec ?_ hm hr
    · refine ⟨h.bound, ?_, fun c hc => h.fits c (hp.mem_iff.2 hc), fun hc hall => ?_⟩
      · rw [← (hp.filter (Call.counting fingerprint)).length_eq]
        exact h.alone
      · exact h.counted hc fun c hmem => hall c (hp.mem_iff.1 hmem)
    · have hnew : (spawn e).counting fingerprint = false := by
        cases e <;> rfl
      refine ⟨h.bound, ?_, fun c hc => ?_, fun hc hall => ?_⟩
      · rw [List.filter_cons_of_neg (by simp [hnew])]
        exact h.alone
      · rcases List.mem_cons.1 hc with rfl | hc
        · exact fits_of_not_counting hnew
        · exact h.fits c hc
      · exact h.counted hc fun c hmem => hall c (List.mem_cons_of_mem _ hmem)
    · have hzero : DartInt.tryParse ['0'] = some 0 := DartInt.tryParse_print 0
      refine ⟨Nat.zero_le 5, Nat.zero_le 1, fun c hc => (by cases hc), fun _ _ => ?_⟩
      show (0 : ℤ) ≤ ((DartInt.tryParse ['0']).getD 0).toInt
      rw [hzero]
      decide
  exact hinv.bound

def sampleFiles (path : Text) : Option BackupFile := if path = ['b'] ∨ path = ['c'] then some sampleFile else none

/-- The `i`th call goes on. -/
def goOn (i : ℕ) : Pool.Label Event (Option Fault) := .step i none

/-- The `i`th call tries a wrong password, and counts it. -/
def wrongAttempt (path : Text) (i : ℕ) : List (Pool.Label Event (Option Fault)) :=
  .start (.restoreBackup path "wrong-password".toList) :: List.replicate 5 (goOn i)

def fiveAttempts : List (Pool.Label Event (Option Fault)) :=
  (List.range 5).flatMap (wrongAttempt ['b']) ++ [goOn 4, goOn 4]

theorem guesses_fiveAttempts : ∃ q, Runs.run step (start sampleFiles) fiveAttempts = some q ∧
    (q.shared.files ['b']).isNone = true ∧ q.shared.wrong ['f'] = 5 ∧ q.shared.wrong ['f'] ≤ 5 := by
  obtain ⟨q, hr, hfile, hwrong⟩ : ∃ q, Runs.run step (start sampleFiles) fiveAttempts = some q ∧
      ((q.shared.files ['b']).isNone = true ∧ q.shared.wrong ['f'] = 5) :=
    Runs.exists_run _ _ _ (by decide +kernel)
  exact ⟨q, hr, hfile, hwrong, guesses_run (by decide +kernel) hr⟩

/-- **A sixth wrong password** where the file is not deleted, where there is a copy of it, and where six calls read the
counter before any of them has written it. -/
theorem guesses_six :
    (∃ q, Runs.run step (start sampleFiles) ((List.range 5).flatMap (wrongAttempt ['b']) ++
      [goOn 4, .step 4 (some .other)] ++ wrongAttempt ['b'] 5) = some q ∧ q.shared.wrong ['f'] = 6) ∧
    (∃ q, Runs.run step (start sampleFiles) (fiveAttempts ++ wrongAttempt ['c'] 5) = some q ∧
      q.shared.wrong ['f'] = 6) ∧
    ∃ q, Runs.run step (start sampleFiles) (List.replicate 6 (.start (.restoreBackup ['b'] "wrong-password".toList)) ++
      ((List.replicate 5 (List.range 6)).flatten.map goOn)) = some q ∧ q.shared.wrong ['f'] = 6 :=
  ⟨Runs.exists_run _ _ _ (by decide +kernel), Runs.exists_run _ _ _ (by decide +kernel),
    Runs.exists_run _ _ _ (by decide +kernel)⟩

end Guesses
end Backup
end SecureChat
