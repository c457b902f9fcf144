import SecureChat.PreKeySteps
/-!
# PreKeyPending — what an upload may still add to the pool

The rest of the development sees the server through `Advances`: in any step that starts no upload, the pool grows only
by keys of an upload that is accepted in that step, the fallback key changes only to that of an upload under way, and
what an upload may still add only shrinks.
-/
namespace SecureChat
namespace PreKeys

variable {ι κ : Type}

def PreKeyUploadRequest.keys (r : PreKeyUploadRequest ι κ) : List κ := r.olmOneTimeKeys.map OneTimeKey.publicKey

def PreKeyUploadRequest.fallback (r : PreKeyUploadRequest ι κ) : Option κ := r.olmFallbackKey.map FallbackKey.publicKey

def Account.pool (a : Account ι κ) : List κ := a.oneTimeKeys.map fun r => r.value.publicKey

def Account.fallback (a : Account ι κ) : Option κ := a.fallbackKey.map fun k => k.value.publicKey

def Upload.pending : Upload ι κ → List κ
  | .counting r _ | .identity r _ | .fallback r _ => r.keys
  | .locking keys _ | .checking keys => keys.map OneTimeKey.publicKey
  | .inserting rest inserted =>
    rest.map OneTimeKey.publicKey ++ inserted.map fun (r : Tagged (OneTimeKey ι κ)) => r.value.publicKey
  | .idle | .done _ => []

def Upload.pendingFallback : Upload ι κ → Option κ
  | .counting r _ | .identity r _ | .fallback r _ => r.fallback
  | _ => none

def Upload.posted : Upload ι κ → Bool
  | .idle => false
  | _ => true

/-- The answer is another than `ok`. -/
def Upload.rejected : Upload ι κ → Bool
  | .done .ok => false
  | .done _ => true
  | _ => false

def Upload.accepted : Upload ι κ → Bool
  | .done .ok => true
  | _ => false

def Upload.ended : Upload ι κ → Bool
  | .done _ => true
  | _ => false

theorem Upload.posted_of_pending {u : Upload ι κ} {k : κ} (h : k ∈ u.pending) : u.posted = true := by
  cases u with
  | idle => cases h
  | _ => rfl

theorem Upload.posted_of_pendingFallback {u : Upload ι κ} {k : κ} (h : u.pendingFallback = some k) :
    u.posted = true := by
  cases u with
  | idle => cases h
  | _ => rfl

theorem Upload.ended_of_accepted {u : Upload ι κ} (h : u.accepted = true) : u.ended = true := by
  cases u with
  | done a => rfl
  | _ => cases h

theorem Upload.pending_of_ended {u : Upload ι κ} (h : u.ended = true) : u.pending = [] ∧ u.pendingFallback = none := by
  cases u with
  | done a => exact ⟨rfl, rfl⟩
  | _ => cases h

structure Advances (s s' : State ι κ) : Prop where
  pool : ∀ k ∈ s'.account.pool, k ∈ s.account.pool ∨ ∃ i, (s'.uploads i).accepted = true ∧ k ∈ (s.uploads i).pending
  fallback : ∀ k, s'.account.fallback = some k →
    s.account.fallback = some k ∨ ∃ i, (s.uploads i).pendingFallback = some k
  pending : ∀ i, ∀ k ∈ (s'.uploads i).pending, k ∈ (s.uploads i).pending
  pendingFallback : ∀ i k, (s'.uploads i).pendingFallback = some k → (s.uploads i).pendingFallback = some k
  posted : ∀ i, (s'.uploads i).posted = (s.uploads i).posted
  ended : ∀ i, (s.uploads i).ended = true → s'.uploads i = s.uploads i

namespace State

variable {s : State ι κ}

theorem advances_shrink {s' : State ι κ} (hp : ∀ k ∈ s'.account.pool, k ∈ s.account.pool)
    (hf : ∀ k, s'.account.fallback = some k → s.account.fallback = some k) (hu : s'.uploads = s.uploads) :
    Advances s s' where
  pool k hk := .inl (hp k hk)
  fallback k hk := .inl (hf k hk)
  pending i k := by rw [hu]; exact id
  pendingFallback i k := by rw [hu]; exact id
  posted i := by rw [hu]
  ended i _ := by rw [hu]

/-- A step of upload `i`. -/
theorem advances_upload {i : ℕ} {u : Upload ι κ} {a : Account ι κ} (lock : Option ℕ)
    (hi : (s.uploads i).posted = true) (hne : (s.uploads i).ended = false) (hu : u.posted = true)
    (hp : ∀ k ∈ u.pending, k ∈ (s.uploads i).pending)
    (hf : ∀ k, u.pendingFallback = some k → (s.uploads i).pendingFallback = some k)
    (ha : ∀ k ∈ a.pool, k ∈ s.account.pool ∨ u.accepted = true ∧ k ∈ (s.uploads i).pending)
    (hb : ∀ k, a.fallback = some k → s.account.fallback = some k ∨ (s.uploads i).pendingFallback = some k) :
    Advances s { s.setUpload i u with account := a, lock := lock } where
  pool k hk := by
    refine (ha k hk).imp id fun h => ⟨i, ?_, h.2⟩
    simpa [setUpload] using h.1
  fallback k hk := (hb k hk).imp id fun h => ⟨i, h⟩
  pending j k := by
    simp only [setUpload]
    by_cases hji : j = i
    · subst hji
      rw [Function.update_self]
      exact hp k
    · rw [Function.update_of_ne hji]
      exact id
  pendingFallback j k := by
    simp only [setUpload]
    by_cases hji : j = i
    · subst hji
      rw [Function.update_self]
      exact hf k
    · rw [Function.update_of_ne hji]
      exact id
  posted j := by
    simp only [setUpload]
    by_cases hji : j = i
    · subst hji
      rw [Function.update_self, hu, hi]
    · rw [Function.update_of_ne hji]
  ended j hj := by
    have hji : j ≠ i := by
      rintro rfl
      rw [hne] at hj
      cases hj
    simp only [setUpload, Function.update_of_ne hji]

/-- A step of upload `i` that leaves the account alone. -/
theorem advances_setUpload {i : ℕ} {u : Upload ι κ} (hi : (s.uploads i).posted = true)
    (hne : (s.uploads i).ended = false) (hu : u.posted = true)
    (hp : ∀ k ∈ u.pending, k ∈ (s.uploads i).pending)
    (hf : ∀ k, u.pendingFallback = some k → (s.uploads i).pendingFallback = some k) :
    Advances s (s.setUpload i u) :=
  advances_upload s.lock hi hne hu hp hf (fun _ hk => .inl hk) fun _ hk => .inl hk

variable [DecidableEq ι] [DecidableEq κ] {F : Format ι κ}

omit [DecidableEq ι] [DecidableEq κ] in
theorem advances_done {i : ℕ} (hi : (s.uploads i).posted = true) (hne : (s.uploads i).ended = false)
    (answer : Answer ι) (lock : Option ℕ) : Advances s { s.setUpload i (.done answer) with lock := lock } :=
  advances_upload (a := s.account) _ hi hne rfl nofun nofun (fun _ hk => .inl hk) fun _ hk => .inl hk

theorem advances_advance {i : ℕ} {u : Upload ι κ} {a : Account ι κ} {l : Option ℕ} (h : Advance F s i u a l) :
    Advances s { s.setUpload i u with account := a, lock := l } := by
  have hi : (s.uploads i).posted = true ∧ (s.uploads i).ended = false := by
    cases h <;> simp only [*, Upload.posted, Upload.ended, and_self]
  obtain ⟨hi, hne⟩ := hi
  cases h with
  | full | identityRefused | fallbackRefused | noKeys | malformed | keysRefused | conflict =>
    exact advances_done hi hne _ _
  | counted hu =>
    exact advances_setUpload hi hne rfl (by rw [hu]; exact fun _ => id) (by rw [hu]; exact fun _ => id)
  | identified hu =>
    exact advances_upload s.lock hi hne rfl (by rw [hu]; exact fun _ => id) (by rw [hu]; exact fun _ => id)
      (fun _ hk => .inl hk) fun _ hk => .inl hk
  | noFallback hu => exact advances_setUpload hi hne rfl (by rw [hu]; exact fun _ => id) nofun
  | fallbackWritten hu hr =>
    refine advances_upload s.lock hi hne rfl (by rw [hu]; exact fun _ => id) nofun (fun _ hk => .inl hk) fun k hk =>
      .inr ?_
    rw [hu, ← hk, Upload.pendingFallback, PreKeyUploadRequest.fallback, hr]
    rfl
  | locked hu =>
    exact advances_upload (a := s.account) _ hi hne rfl (by rw [hu]; exact fun _ => id) nofun (fun _ hk => .inl hk)
      fun _ hk => .inl hk
  | unconflicted hu =>
    refine advances_setUpload hi hne rfl (fun k hk => ?_) nofun
    rw [hu]
    simpa [Upload.pending] using hk
  | skipped hu =>
    refine advances_setUpload hi hne rfl (fun k hk => ?_) nofun
    rw [hu]
    exact List.mem_cons_of_mem _ hk
  | inserted hu =>
    refine advances_setUpload hi hne rfl (fun k hk => ?_) nofun
    rw [hu]
    simp only [Upload.pending, List.map_append, List.map_cons, List.map_nil, List.mem_append, List.mem_cons,
      List.not_mem_nil, or_false] at hk ⊢
    rcases hk with hk | hk | rfl
    · exact .inl (.inr hk)
    · exact .inr hk
    · exact .inl (.inl rfl)
  | committed hu =>
    refine advances_upload _ hi hne rfl nofun nofun (fun k hk => ?_) fun k hk => .inl hk
    rw [Account.pool, List.map_append, List.mem_append] at hk
    refine hk.imp id fun hk => ⟨rfl, ?_⟩
    rw [hu]
    exact hk

omit [DecidableEq κ] in
theorem advances_read {j : ℕ} {locked : List ι} {s' : State ι κ} (h : Read s locked j s') : Advances s s' := by
  cases h with
  | identity | nobody | empty | nothing | bundle => exact advances_shrink (fun _ => id) (fun _ => id) rfl
  | consume =>
    refine advances_shrink (fun k hk => ?_) (fun _ => id) rfl
    obtain ⟨r, hr, rfl⟩ := List.mem_map.1 hk
    exact List.mem_map.2 ⟨r, (List.mem_filter.1 hr).1, rfl⟩

theorem advances_step {e : Event ι κ} (he : ∀ i r epoch, e ≠ .upload i r epoch) {s' : State ι κ}
    (h : step F s e = some s') : Advances s s' := by
  cases step_cases h with
  | upload => exact absurd rfl (he _ _ _)
  | advance hadv | miscount _ hadv => exact advances_advance hadv
  | @abort i hidle hdone =>
    have hi : (s.uploads i).posted = true := by
      cases hu : s.uploads i with
      | idle => exact absurd hu hidle
      | _ => rfl
    have hne : (s.uploads i).ended = false := by
      cases hu : s.uploads i with
      | done a => exact absurd hu (hdone a)
      | _ => rfl
    exact advances_done hi hne _ _
  | fetch | fail | rotate => exact advances_shrink (fun _ => id) (fun _ => id) rfl
  | read hread => exact advances_read hread
  | replace => exact advances_shrink nofun nofun rfl

end State

end PreKeys
end SecureChat
