import SecureChat.PreKeyHandout
/-!
# UploadSteps — the steps of an upload, and the run without it

`Advance` says all that a step of an upload can do.  `erase i` takes the call of upload `i` out of a state: the steps of
the others do not see it (`erase_step_of_ne`), and its own steps do not either as long as they leave the account as it
was (`erase_step_self`).
-/
namespace SecureChat
namespace PreKeys

open Runs

variable {ι κ : Type} {F : Format ι κ}

deriving instance DecidableEq for Account

def Event.call : Event ι κ → Option ℕ
  | .upload i _ _ | .advance i | .miscount i | .abort i => some i
  | _ => none

/-- The events but those of upload `i`. -/
def without (i : ℕ) (es : List (Event ι κ)) : List (Event ι κ) := es.filter fun e => decide (e.call ≠ some i)

theorem without_cons_self {i : ℕ} {e : Event ι κ} (h : e.call = some i) (es : List (Event ι κ)) :
    without i (e :: es) = without i es := List.filter_cons_of_neg (by simp [h])

theorem without_cons_of_ne {i : ℕ} {e : Event ι κ} (h : e.call ≠ some i) (es : List (Event ι κ)) :
    without i (e :: es) = e :: without i es := List.filter_cons_of_pos (by simp [h])

theorem release_none (i : ℕ) : State.release i none = none := if_neg nofun

theorem release_self (i : ℕ) : State.release i (some i) = none := if_pos rfl

theorem release_of_ne {i j : ℕ} (h : j ≠ i) : State.release i (some j) = some j :=
  if_neg fun h' => h (Option.some.inj h')

theorem release_comm (i j : ℕ) (l : Option ℕ) :
    State.release i (State.release j l) = State.release j (State.release i l) := by
  unfold State.release
  by_cases hi : l = some i
  · by_cases hj : l = some j
    · simp [hi]
    · simp [hi]
  · by_cases hj : l = some j
    · simp [hj]
    · simp [hi, hj]

theorem release_release (i : ℕ) (l : Option ℕ) : State.release i (State.release i l) = State.release i l := by
  unfold State.release
  by_cases hi : l = some i
  · simp [hi]
  · simp [hi]

namespace State

variable {s s' : State ι κ} {i j : ℕ}

/-- The state without the call of upload `i`. -/
def erase (i : ℕ) (s : State ι κ) : State ι κ :=
  { s.setUpload i .idle with lock := release i s.lock }

theorem erase_init (i : ℕ) : (init : State ι κ).erase i = init := by
  have hu : Function.update (fun _ : ℕ => (Upload.idle : Upload ι κ)) i .idle = fun _ => .idle :=
    Function.update_eq_self i _
  unfold erase setUpload init
  simp only [hu, release_none]

@[simp] theorem erase_account : (s.erase i).account = s.account := rfl

@[simp] theorem erase_fetches : (s.erase i).fetches = s.fetches := rfl

theorem erase_lock (h : s.lock = none) : (s.erase i).lock = none := by
  show release i s.lock = none
  rw [h, release_none]

theorem erase_uploads (h : j ≠ i) : (s.erase i).uploads j = s.uploads j := Function.update_of_ne h _ _

theorem erase_write (h : j ≠ i) (u : Upload ι κ) (a : Account ι κ) (l : Option ℕ) :
    ({ s.setUpload j u with account := a, lock := l } : State ι κ).erase i =
      { (s.erase i).setUpload j u with account := a, lock := release i l } := by
  simp only [erase, setUpload]
  rw [Function.update_comm h]

theorem erase_setUpload (h : j ≠ i) (u : Upload ι κ) : (s.setUpload j u).erase i = (s.erase i).setUpload j u :=
  erase_write h u s.account s.lock

theorem erase_self (u : Upload ι κ) {l : Option ℕ} (hl : release i l = release i s.lock) :
    ({ s.setUpload i u with lock := l } : State ι κ).erase i = s.erase i := by
  simp only [erase, setUpload, hl, Function.update_idem]

variable [DecidableEq ι] [DecidableEq κ]

theorem Advance.lock {u : Upload ι κ} {a : Account ι κ} {l : Option ℕ} (h : Advance F s i u a l) (hv : s.Inv) :
    release i l = release i s.lock := by
  cases h with
  | locked hu hl => rw [hl, release_self, release_none]
  | conflict hu => rw [hv.locked i (by rw [hu]; rfl), release_self, release_none]
  | committed hu => rw [hv.locked i (by rw [hu]; rfl), release_self, release_none]
  | _ => rfl

/-! ## What the others do, without the upload -/

theorem erase_upload (hj : j ≠ i) {r : PreKeyUploadRequest ι κ} {epoch : ℕ}
    (hs : step F s (.upload j r epoch) = some s') : step F (s.erase i) (.upload j r epoch) = some (s'.erase i) := by
  simp only [step] at hs ⊢
  rw [erase_uploads hj]
  cases hu : s.uploads j with
  | idle =>
    simp only [hu] at hs ⊢
    cases hs
    exact congrArg some (erase_setUpload hj _).symm
  | _ =>
    simp only [hu] at hs
    cases hs

omit [DecidableEq ι] [DecidableEq κ] in
theorem erase_miscount (hj : j ≠ i) (hs : s.miscount j = some s') : (s.erase i).miscount j = some (s'.erase i) := by
  unfold miscount at hs ⊢
  rw [erase_uploads hj]
  cases hu : s.uploads j with
  | counting r e =>
    simp only [hu] at hs ⊢
    split at hs
    · rename_i hlt
      cases hs
      exact (if_pos hlt).trans (congrArg some (erase_setUpload hj _).symm)
    · rename_i hlt
      cases hs
      exact (if_neg hlt).trans (congrArg some (erase_setUpload hj _).symm)
  | _ =>
    simp only [hu] at hs
    cases hs

theorem erase_abort (hj : j ≠ i) (hs : step F s (.abort j) = some s') :
    step F (s.erase i) (.abort j) = some (s'.erase i) := by
  simp only [step] at hs ⊢
  rw [erase_uploads hj]
  split at hs
  · cases hs
  · cases hs
  · rename_i hidle hdone
    cases hs
    have hw := erase_write (s := s) hj (.done .noAnswer) s.account (release j s.lock)
    rw [release_comm] at hw
    cases hu : s.uploads j with
    | idle => exact absurd hu hidle
    | done answer => exact absurd hu (hdone answer)
    | _ => exact congrArg some hw.symm

omit [DecidableEq ι] [DecidableEq κ] in
theorem erase_transaction (hj : j ≠ i) {write : Except (Answer ι) (Account ι κ)} {next : Upload ι κ}
    (hs : s.transaction j write next = some s') : (s.erase i).transaction j write next = some (s'.erase i) := by
  unfold transaction at hs ⊢
  split at hs
  · cases hs
  · rename_i hl
    rw [erase_lock hl]
    split at hs
    · cases hs
      exact congrArg some (erase_setUpload hj _).symm
    · rename_i a
      cases hs
      exact congrArg some (erase_write (s := s) hj _ a s.lock).symm

theorem erase_locking (hj : j ≠ i) {keys : List (OneTimeKey ι κ)} {e : ℕ} (hu : s.uploads j = .locking keys e)
    (hs : s.advance F j = some s') : (s.erase i).advance F j = some (s'.erase i) := by
  unfold advance at hs ⊢
  rw [erase_uploads hj]
  cases keys with
  | nil =>
    simp only [hu] at hs ⊢
    cases hs
    exact congrArg some (erase_setUpload hj _).symm
  | cons key keys =>
    simp only [hu] at hs ⊢
    split at hs
    · rename_i hgood
      refine (if_pos hgood).trans ?_
      split at hs
      · cases hs
      · rename_i hl
        simp only [erase_lock hl, erase_account]
        split at hs
        · rename_i hg
          cases hs
          have hw := erase_write (s := s) hj (.checking (key :: keys)) s.account (some j)
          rw [release_of_ne hj] at hw
          exact (if_pos hg).trans (congrArg some hw.symm)
        · rename_i hg
          cases hs
          exact (if_neg hg).trans (congrArg some (erase_setUpload hj _).symm)
    · rename_i hbad
      cases hs
      exact (if_neg hbad).trans (congrArg some (erase_setUpload hj _).symm)

theorem erase_checking (hj : j ≠ i) {keys : List (OneTimeKey ι κ)} (hu : s.uploads j = .checking keys)
    (hs : s.advance F j = some s') : (s.erase i).advance F j = some (s'.erase i) := by
  unfold advance at hs ⊢
  rw [erase_uploads hj]
  simp only [hu, erase_account] at hs ⊢
  split at hs
  · rename_i keyId hc
    cases hs
    have hw := erase_write (s := s) hj (.done (.prekeyConflict keyId)) s.account none
    rw [release_none] at hw
    exact congrArg some hw.symm
  · cases hs
    exact congrArg some (erase_setUpload hj _).symm

theorem erase_inserting (hj : j ≠ i) {rest : List (OneTimeKey ι κ)} {rows : List (Tagged (OneTimeKey ι κ))}
    (hu : s.uploads j = .inserting rest rows) (hs : s.advance F j = some s') :
    (s.erase i).advance F j = some (s'.erase i) := by
  unfold advance at hs ⊢
  rw [erase_uploads hj]
  cases rest with
  | nil =>
    simp only [hu] at hs ⊢
    cases hs
    have hw := erase_write (s := s) hj (.done .ok)
      { s.account with oneTimeKeys := s.account.oneTimeKeys ++ rows } none
    rw [release_none] at hw
    exact congrArg some hw.symm
  | cons k rest =>
    simp only [hu, erase_account] at hs ⊢
    split at hs
    · rename_i hk
      cases hs
      exact (if_pos hk).trans (congrArg some (erase_setUpload hj _).symm)
    · rename_i hk
      cases hs
      exact (if_neg hk).trans (congrArg some (erase_setUpload hj _).symm)

theorem erase_advance (hj : j ≠ i) (hs : s.advance F j = some s') :
    (s.erase i).advance F j = some (s'.erase i) := by
  cases hu : s.uploads j with
  | locking keys e => exact erase_locking hj hu hs
  | checking keys => exact erase_checking hj hu hs
  | inserting rest rows => exact erase_inserting hj hu hs
  | idle =>
    unfold advance at hs
    rw [hu] at hs
    cases hs
  | done answer =>
    unfold advance at hs
    rw [hu] at hs
    cases hs
  | counting r e =>
    unfold advance at hs ⊢
    rw [erase_uploads hj]
    simp only [hu, erase_account] at hs ⊢
    split at hs
    · rename_i hlt
      cases hs
      exact (if_pos hlt).trans (congrArg some (erase_setUpload hj _).symm)
    · rename_i hlt
      cases hs
      exact (if_neg hlt).trans (congrArg some (erase_setUpload hj _).symm)
  | identity r e =>
    unfold advance at hs ⊢
    rw [erase_uploads hj]
    simp only [hu] at hs ⊢
    exact erase_transaction hj hs
  | fallback r e =>
    unfold advance at hs ⊢
    rw [erase_uploads hj]
    simp only [hu] at hs ⊢
    split at hs
    · cases hs
      exact congrArg some (erase_setUpload hj _).symm
    · exact erase_transaction hj hs

omit [DecidableEq κ] in
theorem erase_read {locked : List ι} (hs : s.read j locked = some s') :
    (s.erase i).read j locked = some (s'.erase i) := by
  simp only [read, erase_fetches, erase_account] at hs ⊢
  split at hs
  · split at hs
    · cases hs
      rfl
    · cases hs
      rfl
  · split at hs
    · cases hs
      rfl
    · cases hs
      rfl
  · split at hs
    · cases hs
      rfl
    · cases hs
      rfl
  · cases hs
  · cases hs

omit [DecidableEq ι] [DecidableEq κ] in
theorem erase_unlocked {a : Account ι κ} (hl : s.lock = none) :
    (match (s.erase i).lock with
      | some _ => none
      | none => some { s.erase i with account := a }) = some (({ s with account := a } : State ι κ).erase i) := by
  rw [erase_lock hl]
  rfl

theorem erase_step_of_ne {e : Event ι κ} (he : e.call ≠ some i) (hs : step F s e = some s') :
    step F (s.erase i) e = some (s'.erase i) := by
  have hne : ∀ {j}, e.call = some j → j ≠ i := fun hj h => he (h ▸ hj)
  cases e with
  | upload j r epoch => exact erase_upload (hne rfl) hs
  | abort j => exact erase_abort (hne rfl) hs
  | advance j => exact erase_advance (hne rfl) hs
  | miscount j => exact erase_miscount (hne rfl) hs
  | read j locked => exact erase_read hs
  | fetch j =>
    simp only [step, erase_fetches] at hs ⊢
    split at hs
    · cases hs
      rfl
    · cases hs
  | fail j =>
    simp only [step, erase_fetches] at hs ⊢
    split at hs
    · cases hs
    · cases hs
    · cases hs
      rfl
  | replace key =>
    simp only [step] at hs ⊢
    split at hs
    · cases hs
    · rename_i hl
      cases hs
      exact erase_unlocked hl
  | rotate =>
    simp only [step] at hs ⊢
    split at hs
    · cases hs
    · rename_i hl
      cases hs
      exact erase_unlocked hl

theorem erase_step_self {e : Event ι κ} (he : e.call = some i) (hv : s.Inv) (hs : step F s e = some s')
    (ha : s'.account = s.account) : s'.erase i = s.erase i := by
  cases step_cases hs with
  | upload =>
    cases he
    exact erase_self (s := s) _ rfl
  | abort =>
    cases he
    exact erase_self (s := s) _ (release_release i s.lock)
  | @advance j u a l hadv =>
    cases he
    have ha : a = s.account := ha
    subst ha
    exact erase_self (s := s) u (hadv.lock hv)
  | miscount =>
    cases he
    exact erase_self (s := s) _ rfl
  | fetch | read | fail | replace | rotate => cases he

end State

end PreKeys
end SecureChat
