import SecureChat.UploadRetries
/-!
# UploadCap — uploads are repeated, and the pool stays within its cap

The route compares the pool with the cap before an upload's first transaction, and inserts in the last one.  `Reserving`
records for each upload past its count how many keys it may still insert: as long as a count that lets an upload through
has room for those too, the pool is never over the cap (`cap_run`).  `unconsumedCount` answers 0 where it fails, which
is a count that may let anything through.
-/
namespace SecureChat
namespace PreKeys

open Runs

variable {ι κ : Type} {F : Format ι κ}

deriving instance DecidableEq for PreKeyUploadRequest
deriving instance DecidableEq for Upload

/-- The server, and how many keys each upload past its count may still insert. -/
structure Reserving (ι κ : Type) where
  server : State ι κ
  reserved : List (ℕ × ℕ)

def total : List (ℕ × ℕ) → ℕ
  | [] => 0
  | p :: l => p.2 + total l

/-- What is reserved after a step of upload `i` that leads to this point of it. -/
def Upload.reserve (i : ℕ) (reserved : List (ℕ × ℕ)) : Upload ι κ → List (ℕ × ℕ)
  | .identity r _ => (i, r.olmOneTimeKeys.length) :: reserved
  | .done _ => reserved.filter fun p => decide (p.1 ≠ i)
  | _ => reserved

def Upload.insertable : Upload ι κ → ℕ
  | .identity r _ | .fallback r _ => r.olmOneTimeKeys.length
  | .locking keys _ | .checking keys => keys.length
  | .inserting rest rows => rest.length + rows.length
  | .idle | .counting _ _ | .done _ => 0

def Upload.counted : Upload ι κ → Option ℕ
  | .counting r _ => some r.olmOneTimeKeys.length
  | _ => none

namespace Reserving

def start (a : Account ι κ) : Reserving ι κ := ⟨{ State.init with account := a }, []⟩

def note (call : Option ℕ) (s : State ι κ) (w : Reserving ι κ) : Reserving ι κ where
  server := s
  reserved := match call with
    | some i => (s.uploads i).reserve i w.reserved
    | none => w.reserved

variable [DecidableEq ι] [DecidableEq κ]

def step (F : Format ι κ) (w : Reserving ι κ) (e : Event ι κ) : Option (Reserving ι κ) :=
  (State.step F w.server e).map fun s => w.note e.call s

omit [DecidableEq ι] [DecidableEq κ] in
/-- The count of upload `i` finds the pool too full. -/
def Full (w : Reserving ι κ) (i : ℕ) : Prop :=
  ∃ n ∈ (w.server.uploads i).counted, maxStoredOneTimePrekeys < w.server.account.oneTimeKeys.length + n

omit [DecidableEq ι] [DecidableEq κ] in
/-- The pool has room for the keys of upload `i` that are to be counted, beside those that are reserved. -/
def Room (w : Reserving ι κ) (i : ℕ) : Prop :=
  ∀ n ∈ (w.server.uploads i).counted,
    w.server.account.oneTimeKeys.length + n + total w.reserved ≤ maxStoredOneTimePrekeys

omit [DecidableEq ι] [DecidableEq κ] in
/-- **The condition under which the pool stays within its cap**: a count that lets an upload through has room for its
keys beside those of the uploads that other counts have let through, and so has one that fails. -/
def Spaced (w : Reserving ι κ) : Event ι κ → Prop
  | .advance i => w.Full i ∨ w.Room i
  | .miscount i => w.Room i
  | _ => True

instance (w : Reserving ι κ) (i : ℕ) : Decidable (w.Full i) :=
  inferInstanceAs (Decidable (∃ n ∈ (w.server.uploads i).counted, _))

instance (w : Reserving ι κ) (i : ℕ) : Decidable (w.Room i) :=
  inferInstanceAs (Decidable (∀ n ∈ (w.server.uploads i).counted, _))

instance (w : Reserving ι κ) : ∀ e, Decidable (w.Spaced e)
  | .advance i => inferInstanceAs (Decidable (w.Full i ∨ w.Room i))
  | .miscount i => inferInstanceAs (Decidable (w.Room i))
  | .upload .. | .abort _ | .fetch _ | .read .. | .fail _ | .replace _ | .rotate => inferInstanceAs (Decidable True)

end Reserving

/-! ## What is reserved -/

theorem total_cons (p : ℕ × ℕ) (l : List (ℕ × ℕ)) : total (p :: l) = p.2 + total l := rfl

theorem total_filter_add (i : ℕ) (l : List (ℕ × ℕ)) :
    total (l.filter fun p => decide (p.1 = i)) + total (l.filter fun p => decide (p.1 ≠ i)) = total l := by
  induction l with
  | nil => rfl
  | cons p l ih =>
    by_cases hp : p.1 = i
    · rw [List.filter_cons_of_pos (by simpa using hp), List.filter_cons_of_neg (by simpa using hp), total_cons,
        total_cons, Nat.add_assoc, ih]
    · rw [List.filter_cons_of_neg (by simpa using hp), List.filter_cons_of_pos (by simpa using hp), total_cons,
        total_cons, Nat.add_left_comm, ih]

theorem filter_filter_of_ne {i j : ℕ} (h : j ≠ i) (l : List (ℕ × ℕ)) :
    (l.filter fun p => decide (p.1 ≠ i)).filter (fun p => decide (p.1 = j)) = l.filter fun p => decide (p.1 = j) := by
  rw [List.filter_filter]
  refine List.filter_congr fun p _ => ?_
  by_cases hp : p.1 = j
  · simp [hp, h]
  · simp [hp]

namespace Reserving

variable {w w' : Reserving ι κ} {s : State ι κ} {i : ℕ}

/-- **What every run keeps whose steps meet the condition.** -/
structure Capped (w : Reserving ι κ) : Prop where
  cap : w.server.account.oneTimeKeys.length + total w.reserved ≤ maxStoredOneTimePrekeys
  covers : ∀ i, (w.server.uploads i).insertable ≤ total (w.reserved.filter fun p => decide (p.1 = i))

theorem capped_start {a : Account ι κ} (h : a.oneTimeKeys.length ≤ maxStoredOneTimePrekeys) : (start a).Capped where
  cap := by
    show a.oneTimeKeys.length + 0 ≤ _
    rw [Nat.add_zero]
    exact h
  covers _ := Nat.zero_le _

theorem Capped.keep (h : w.Capped) (hpool : s.account.oneTimeKeys.length ≤ w.server.account.oneTimeKeys.length)
    (hinsertable : ∀ i, (s.uploads i).insertable ≤ (w.server.uploads i).insertable) : Capped ⟨s, w.reserved⟩ where
  cap := Nat.le_trans (Nat.add_le_add_right hpool _) h.cap
  covers i := Nat.le_trans (hinsertable i) (h.covers i)

theorem Capped.reserve {n : ℕ} (h : w.Capped) (hpool : s.account = w.server.account)
    (hroom : w.server.account.oneTimeKeys.length + n + total w.reserved ≤ maxStoredOneTimePrekeys)
    (hi : (s.uploads i).insertable = n) (hothers : ∀ j, j ≠ i → s.uploads j = w.server.uploads j) :
    Capped ⟨s, (i, n) :: w.reserved⟩ where
  cap := by
    show s.account.oneTimeKeys.length + total ((i, n) :: w.reserved) ≤ _
    rw [hpool, total_cons]
    show w.server.account.oneTimeKeys.length + (n + total w.reserved) ≤ _
    omega
  covers j := by
    show (s.uploads j).insertable ≤ total (((i, n) :: w.reserved).filter fun p => decide (p.1 = j))
    by_cases hj : j = i
    · subst hj
      rw [List.filter_cons_of_pos (by simp), total_cons, hi]
      exact Nat.le_add_right _ _
    · rw [List.filter_cons_of_neg (by simpa using fun h => hj h.symm), hothers j hj]
      exact h.covers j

theorem Capped.finish {answer : Answer ι} (h : w.Capped) (hu : s.uploads i = .done answer)
    (hpool : s.account.oneTimeKeys.length ≤
      w.server.account.oneTimeKeys.length + (w.server.uploads i).insertable)
    (hothers : ∀ j, j ≠ i → s.uploads j = w.server.uploads j) :
    Capped ⟨s, w.reserved.filter fun p => decide (p.1 ≠ i)⟩ where
  cap := by
    have hcap := h.cap
    have hcovers := h.covers i
    have hsum := total_filter_add i w.reserved
    show s.account.oneTimeKeys.length + total (w.reserved.filter fun p => decide (p.1 ≠ i)) ≤ _
    omega
  covers j := by
    show (s.uploads j).insertable ≤ total ((w.reserved.filter fun p => decide (p.1 ≠ i)).filter _)
    by_cases hj : j = i
    · subst hj
      rw [hu]
      exact Nat.zero_le _
    · rw [filter_filter_of_ne hj, hothers j hj]
      exact h.covers j

variable [DecidableEq ι] [DecidableEq κ]

omit [DecidableEq ι] [DecidableEq κ] in
theorem note_setUpload (u : Upload ι κ) (a : Account ι κ) (l : Option ℕ) :
    w.note (some i) { w.server.setUpload i u with account := a, lock := l } =
      ⟨{ w.server.setUpload i u with account := a, lock := l }, u.reserve i w.reserved⟩ := by
  have hu : Function.update w.server.uploads i u i = u := Function.update_self _ _ _
  show Reserving.mk _ ((Function.update w.server.uploads i u i).reserve i w.reserved) = _
  rw [hu]

omit [DecidableEq ι] [DecidableEq κ] in
/-- A step of upload `i` that reserves nothing and does not end it. -/
theorem Capped.move {u : Upload ι κ} {a : Account ι κ} {l : Option ℕ} (h : w.Capped)
    (hreserve : u.reserve i w.reserved = w.reserved) (hu : u.insertable ≤ (w.server.uploads i).insertable)
    (ha : a.oneTimeKeys = w.server.account.oneTimeKeys) :
    (w.note (some i) { w.server.setUpload i u with account := a, lock := l }).Capped := by
  rw [note_setUpload, hreserve]
  refine h.keep (Nat.le_of_eq (congrArg List.length ha)) fun j => ?_
  by_cases hj : j = i
  · subst hj
    show (Function.update w.server.uploads j u j).insertable ≤ _
    rw [Function.update_self]
    exact hu
  · show (Function.update w.server.uploads i u j).insertable ≤ _
    exact Nat.le_of_eq (by rw [Function.update_of_ne hj])

omit [DecidableEq ι] [DecidableEq κ] in
/-- The answer to upload `i`. -/
theorem Capped.answer {answer : Answer ι} {a : Account ι κ} {l : Option ℕ} (h : w.Capped)
    (ha : a.oneTimeKeys.length ≤ w.server.account.oneTimeKeys.length + (w.server.uploads i).insertable) :
    (w.note (some i) { w.server.setUpload i (.done answer) with account := a, lock := l }).Capped := by
  rw [note_setUpload]
  exact h.finish (Function.update_self _ _ _) ha fun j hj => Function.update_of_ne hj _ _

omit [DecidableEq ι] [DecidableEq κ] in
/-- A count that lets upload `i` through. -/
theorem Capped.count {r : PreKeyUploadRequest ι κ} {e : ℕ} (h : w.Capped) (hu : w.server.uploads i = .counting r e)
    (hroom : w.Room i) : (w.note (some i) (w.server.setUpload i (.identity r e))).Capped := by
  have hn : r.olmOneTimeKeys.length ∈ (w.server.uploads i).counted := by
    rw [hu]
    rfl
  have hset := note_setUpload (w := w) (i := i) (.identity r e) w.server.account w.server.lock
  refine hset ▸ h.reserve rfl (hroom _ hn) ?_ fun j hj => Function.update_of_ne hj _ _
  show (Function.update w.server.uploads i (.identity r e) i).insertable = _
  rw [Function.update_self]
  rfl

theorem capped_advance (h : w.Capped) (hok : w.Spaced (.advance i))
    (hs : w.server.advance F i = some s) : (w.note (some i) s).Capped := by
  by_cases hcount : ∃ r e, w.server.uploads i = .counting r e
  · obtain ⟨r, e, hu⟩ := hcount
    simp only [State.advance, hu] at hs
    split at hs
    · cases hs
      exact h.answer (Nat.le_add_right _ _)
    · rename_i hfull
      cases hs
      refine h.count hu (hok.resolve_left ?_)
      rintro ⟨n, hn, hlt⟩
      rw [hu] at hn
      cases hn
      exact hfull hlt
  · obtain ⟨u, a, l, hadv, rfl⟩ := State.advance_cases hs
    cases hadv with
    | full hu => exact absurd ⟨_, _, hu⟩ hcount
    | counted hu => exact absurd ⟨_, _, hu⟩ hcount
    | identityRefused | fallbackRefused | noKeys | malformed | keysRefused | conflict =>
      exact h.answer (Nat.le_add_right _ _)
    | identified hu | noFallback hu | fallbackWritten hu | locked hu =>
      refine h.move rfl ?_ rfl
      rw [hu]
      exact Nat.le_refl _
    | unconflicted hu =>
      refine h.move rfl ?_ rfl
      rw [hu]
      exact Nat.le_refl _
    | skipped hu =>
      refine h.move rfl ?_ rfl
      rw [hu]
      exact Nat.add_le_add_right (Nat.le_succ _) _
    | inserted hu hnew =>
      rename_i k rest rows
      refine h.move rfl ?_ rfl
      rw [hu]
      show rest.length + (rows ++ [_]).length ≤ (rest.length + 1) + rows.length
      rw [List.length_append, List.length_singleton]
      omega
    | committed hu =>
      rename_i rows
      refine h.answer ?_
      rw [hu]
      show (w.server.account.oneTimeKeys ++ rows).length ≤ w.server.account.oneTimeKeys.length + (0 + rows.length)
      exact Nat.le_of_eq (by rw [List.length_append, Nat.zero_add])

theorem others_step {e : Event ι κ} (he : e.call = none) (hs : State.step F w.server e = some s) :
    s.uploads = w.server.uploads ∧ s.account.oneTimeKeys.length ≤ w.server.account.oneTimeKeys.length := by
  refine ⟨funext fun i => State.uploads_of_ne (by rw [he]; exact nofun) hs, ?_⟩
  cases State.step_cases hs with
  | upload | advance | miscount | abort => cases he
  | fetch | fail | rotate => exact Nat.le_refl _
  | read hread =>
    cases hread with
    | consume => exact List.length_filter_le _ _
    | _ => exact Nat.le_refl _
  | replace => exact Nat.zero_le _

theorem capped_step (w : Reserving ι κ) (e : Event ι κ) (w' : Reserving ι κ) (h : w.Capped) (hok : w.Spaced e)
    (hs : w.step F e = some w') : w'.Capped := by
  obtain ⟨s, hv, rfl⟩ := Option.map_eq_some_iff.1 hs
  cases e with
  | advance i => exact capped_advance h hok hv
  | miscount i =>
    obtain ⟨r, e, hu, rfl | rfl⟩ := State.miscount_cases hv
    · exact h.answer (Nat.le_add_right _ _)
    · exact h.count hu hok
  | upload i r epoch =>
    cases State.step_cases hv with
    | upload =>
      split
      · exact h.move rfl (Nat.zero_le _) rfl
      · exact h.answer (Nat.le_add_right _ _)
  | abort i =>
    cases State.step_cases hv with
    | abort => exact h.answer (Nat.le_add_right _ _)
  | fetch | read | fail | replace | rotate =>
    obtain ⟨hu, hpool⟩ := others_step rfl hv
    exact h.keep hpool fun i => Nat.le_of_eq (by rw [hu])

end Reserving

/-- **The pool stays within its cap** in every run in which no count lets an upload through that the pool, with what is
reserved, has no room for. -/
theorem cap_run [DecidableEq ι] [DecidableEq κ] {a : Account ι κ} {es : List (Event ι κ)} {w : Reserving ι κ}
    (ha : a.oneTimeKeys.length ≤ maxStoredOneTimePrekeys)
    (hr : run (Reserving.step F) (Reserving.start a) es = some w)
    (hm : Meets (Reserving.step F) Reserving.Spaced (Reserving.start a) es) :
    w.server.account.oneTimeKeys.length ≤ maxStoredOneTimePrekeys :=
  Nat.le_trans (Nat.le_add_right _ _)
    (hm.invariant Reserving.Capped Reserving.capped_step (Reserving.capped_start ha) hr).cap

/-- **Uploads are repeatable and capped, where there is room**: an upload that has succeeded succeeds again, and changes
nothing, exactly when the pool has room for all its keys once more; and the pool is never over its cap in a run in which
no count lets an upload through for which there is no room. -/
theorem upload_repeated [DecidableEq ι] [DecidableEq κ] :
    (∀ (s s₁ : State ι κ) (i j n : ℕ) (r : PreKeyUploadRequest ι κ) (epoch : ℕ), s.lock = none →
      run (State.step F) s (.upload i r epoch :: List.replicate n (.advance i)) = some s₁ →
      s₁.uploads i = .done .ok → s₁.uploads j = .idle →
      ((∃ m s₂, run (State.step F) s₁ (.upload j r epoch :: List.replicate m (.advance j)) = some s₂ ∧
          s₂.uploads j = .done .ok ∧ s₂.account = s₁.account) ↔
        s₁.account.oneTimeKeys.length + r.olmOneTimeKeys.length ≤ maxStoredOneTimePrekeys)) ∧
    (∀ (a : Account ι κ) (es : List (Event ι κ)) (w : Reserving ι κ),
      a.oneTimeKeys.length ≤ maxStoredOneTimePrekeys →
      run (Reserving.step F) (Reserving.start a) es = some w →
      Meets (Reserving.step F) Reserving.Spaced (Reserving.start a) es →
      w.server.account.oneTimeKeys.length ≤ maxStoredOneTimePrekeys) :=
  ⟨fun _ _ _ _ _ _ _ hl hr hok hj => retry_iff hl hr hok hj, fun _ _ _ ha hr hm => cap_run ha hr hm⟩

/-- The state that the first upload leaves. -/
theorem upload_repeatedFirst : ∃ s₁ : State ℕ ℕ,
    run (State.step plainFormat) State.init (uploadCall 0 firstRequest 0) = some s₁ ∧
    (∃ m s₂, run (State.step plainFormat) s₁ (.upload 1 firstRequest 0 :: List.replicate m (.advance 1)) = some s₂ ∧
      s₂.uploads 1 = .done .ok ∧ s₂.account = s₁.account) ∧
    ∃ w : Reserving ℕ ℕ, run (Reserving.step plainFormat) (Reserving.start State.init.account)
        (uploadCall 0 firstRequest 0) = some w ∧
      w.server.account.oneTimeKeys.length ≤ maxStoredOneTimePrekeys := by
  obtain ⟨s₁, hs₁, hok, hidle, hroom⟩ : ∃ s₁ : State ℕ ℕ,
      run (State.step plainFormat) State.init (uploadCall 0 firstRequest 0) = some s₁ ∧
      s₁.uploads 0 = .done .ok ∧ s₁.uploads 1 = .idle ∧
      s₁.account.oneTimeKeys.length + firstRequest.olmOneTimeKeys.length ≤ maxStoredOneTimePrekeys :=
    exists_run _ _ _ (by decide +kernel)
  obtain ⟨w, hw, -⟩ : ∃ w : Reserving ℕ ℕ, run (Reserving.step plainFormat) (Reserving.start State.init.account)
      (uploadCall 0 firstRequest 0) = some w ∧ True := exists_run _ _ _ (by decide +kernel)
  exact ⟨s₁, hs₁, (upload_repeated.1 State.init s₁ 0 1 7 firstRequest 0 rfl hs₁ hok hidle).2 hroom, w, hw,
    upload_repeated.2 State.init.account _ w (by decide) hw (by decide +kernel)⟩

/-- An account of the identity `(1, 2)` with `n` one-time keys. -/
def stocked (n : ℕ) : Account ℕ ℕ :=
  ⟨some ⟨1, 0⟩, some ⟨2, 0⟩, none, none, 0, (List.range n).map fun k => ⟨⟨k, 7⟩, 0⟩, none, 0⟩

def oneKey (keyId : ℕ) : PreKeyUploadRequest ℕ ℕ := ⟨1, 2, none, [⟨keyId, 7⟩]⟩

def countedTogether : List (Event ℕ ℕ) :=
  .flatten [[.upload 0 (oneKey 2000) 0, .upload 1 (oneKey 3000) 0, .advance 0, .advance 1],
    List.replicate 6 (.advance 0), List.replicate 6 (.advance 1)]

/-- **A repeated upload is refused, and two counts let one key too many through.** -/
theorem upload_overCap :
    (∃ s₂ : State ℕ ℕ, run (State.step plainFormat) { State.init with account := stocked 999 }
        (uploadCall 0 (oneKey 2000) 0 ++ [.upload 1 (oneKey 2000) 0, .advance 1]) = some s₂ ∧
      s₂.uploads 0 = .done .ok ∧ s₂.uploads 1 = .done .prekeyPoolFull) ∧
    ∃ w : Reserving ℕ ℕ, run (Reserving.step plainFormat) (Reserving.start (stocked 999))
        countedTogether = some w ∧
      w.server.account.oneTimeKeys.length = 1001 :=
  ⟨exists_run _ _ _ (by decide +kernel), exists_run _ _ _ (by decide +kernel)⟩

end PreKeys
end SecureChat
