import SecureChat.OlmPreKeyStore
/-!
# PreKeySteps — what a step of the server can do

`Advance` says all that a step of an upload can do, `Read` all that a statement of a fetch can, and `Step` all that an
event can: the invariants are case analyses over these.
-/
namespace SecureChat
namespace PreKeys

variable {ι κ : Type} {F : Format ι κ}

namespace State

variable {s s' : State ι κ} {i j : ℕ}

/-- **What a step of an upload does**: the upload, the account and the lock after it. -/
inductive Advance [DecidableEq ι] [DecidableEq κ] (F : Format ι κ) (s : State ι κ) (i : ℕ) :
    Upload ι κ → Account ι κ → Option ℕ → Prop where
  | full {r e} (hu : s.uploads i = .counting r e) : Advance F s i (.done .prekeyPoolFull) s.account s.lock
  | counted {r e} (hu : s.uploads i = .counting r e) : Advance F s i (.identity r e) s.account s.lock
  | identityRefused {r e answer} (hu : s.uploads i = .identity r e) (hne : answer ≠ .ok) :
    Advance F s i (.done answer) s.account s.lock
  | identified {r e} (hu : s.uploads i = .identity r e) (hl : s.lock = none) :
    Advance F s i (.fallback r e) { s.account with
      olmIdentityKey := some ⟨r.olmIdentityKey, s.account.generation⟩
      signingPublicKey := some ⟨r.olmSigningKey, s.account.generation⟩ } s.lock
  | noFallback {r e} (hu : s.uploads i = .fallback r e) (hr : r.olmFallbackKey = none) :
    Advance F s i (.locking r.olmOneTimeKeys e) s.account s.lock
  | fallbackRefused {r e key answer} (hu : s.uploads i = .fallback r e) (hr : r.olmFallbackKey = some key)
      (hne : answer ≠ .ok)
      (hwhy : F.size key.publicKey ≠ keyLength ∨ F.size key.signature ≠ signatureLength ∨ s.account.guard e = false) :
    Advance F s i (.done answer) s.account s.lock
  | fallbackWritten {r e key} (hu : s.uploads i = .fallback r e) (hr : r.olmFallbackKey = some key)
      (hl : s.lock = none) :
    Advance F s i (.locking r.olmOneTimeKeys e)
      { s.account with fallbackKey := some ⟨key, s.account.generation⟩ } s.lock
  | noKeys {e} (hu : s.uploads i = .locking [] e) : Advance F s i (.done .ok) s.account s.lock
  | malformed {keys e} (hu : s.uploads i = .locking keys e)
      (hwhy : ¬((∀ k ∈ keys, F.size k.publicKey = keyLength) ∧ (keys.map OneTimeKey.keyId).Nodup)) :
    Advance F s i (.done .badRequest) s.account s.lock
  | keysRefused {keys e} (hu : s.uploads i = .locking keys e) (hne : keys ≠ []) (hg : s.account.guard e = false) :
    Advance F s i (.done .badRequest) s.account s.lock
  | locked {keys e} (hu : s.uploads i = .locking keys e) (hl : s.lock = none)
      (hids : (keys.map OneTimeKey.keyId).Nodup) :
    Advance F s i (.checking keys) s.account (some i)
  | conflict {keys keyId} (hu : s.uploads i = .checking keys) (hc : s.account.conflict keys = some keyId) :
    Advance F s i (.done (.prekeyConflict keyId)) s.account none
  | unconflicted {keys} (hu : s.uploads i = .checking keys) (hc : s.account.conflict keys = none) :
    Advance F s i (.inserting keys []) s.account s.lock
  | skipped {k rest rows} (hu : s.uploads i = .inserting (k :: rest) rows)
      (hk : (Account.hasKeyId k.keyId s.account.oneTimeKeys || Account.hasKeyId k.keyId rows) = true) :
    Advance F s i (.inserting rest rows) s.account s.lock
  | inserted {k rest rows} (hu : s.uploads i = .inserting (k :: rest) rows)
      (hnew : (Account.hasKeyId k.keyId s.account.oneTimeKeys || Account.hasKeyId k.keyId rows) = false) :
    Advance F s i (.inserting rest (rows ++ [⟨k, s.account.generation⟩])) s.account s.lock
  | committed {rows} (hu : s.uploads i = .inserting [] rows) :
    Advance F s i (.done .ok) { s.account with oneTimeKeys := s.account.oneTimeKeys ++ rows } none

/-- **What a statement of a fetch does.** -/
inductive Read [DecidableEq ι] (s : State ι κ) (locked : List ι) (j : ℕ) : State ι κ → Prop
  | identity (ik sk : Tagged κ) (hj : s.fetches j = .identity) (hi : s.account.olmIdentityKey = some ik)
    (hs : s.account.signingPublicKey = some sk) : Read s locked j (s.setFetch j (.oneTimeKey ik sk))
  | nobody (hj : s.fetches j = .identity) : Read s locked j (s.setFetch j (.done none))
  | empty (ik sk : Tagged κ) (hj : s.fetches j = .oneTimeKey ik sk) :
    Read s locked j (s.setFetch j (.fallback ik sk none))
  | consume (ik sk : Tagged κ) (row : Tagged (OneTimeKey ι κ)) (hj : s.fetches j = .oneTimeKey ik sk)
    (hr : s.account.nextKey locked = some row) :
    Read s locked j { s.setFetch j (.fallback ik sk (some row)) with
      account := { s.account with
        oneTimeKeys := s.account.oneTimeKeys.filter (fun r => decide (r.value.keyId ≠ row.value.keyId)) }
      consumed := row :: s.consumed }
  | nothing (ik sk : Tagged κ) (hj : s.fetches j = .fallback ik sk none) : Read s locked j (s.setFetch j (.done none))
  | bundle (ik sk : Tagged κ) (key : Option (Tagged (OneTimeKey ι κ))) (hj : s.fetches j = .fallback ik sk key) :
    Read s locked j (s.setFetch j (.done (some ⟨ik, sk, key, s.account.fallbackKey⟩)))

/-- **What an event does.** -/
inductive Step [DecidableEq ι] [DecidableEq κ] (F : Format ι κ) (s : State ι κ) : Event ι κ → State ι κ → Prop
  | upload {i : ℕ} {r e} (hu : s.uploads i = .idle) : Step F s (.upload i r e)
    (s.setUpload i (if r.hasSaneKeyMaterial F then .counting r e else .done .invalidPrekeyMaterial))
  | advance {i : ℕ} {u a l} (h : Advance F s i u a l) :
    Step F s (.advance i) { s.setUpload i u with account := a, lock := l }
  | miscount {i : ℕ} {r e u} (hu : s.uploads i = .counting r e) (h : Advance F s i u s.account s.lock) :
    Step F s (.miscount i) (s.setUpload i u)
  | abort {i : ℕ} (hidle : s.uploads i ≠ .idle) (hdone : ∀ answer, s.uploads i ≠ .done answer) :
    Step F s (.abort i) { s.setUpload i (.done .noAnswer) with lock := release i s.lock }
  | fetch {j : ℕ} : Step F s (.fetch j) (s.setFetch j .identity)
  | read {j locked s'} (h : Read s locked j s') : Step F s (.read j locked) s'
  | fail {j : ℕ} : Step F s (.fail j) (s.setFetch j (.done none))
  | replace {key : κ} (hl : s.lock = none) : Step F s (.replace key) { s with account := s.account.replace key }
  | rotate (hl : s.lock = none) :
    Step F s .rotate { s with account := { s.account with credentialEpoch := s.account.credentialEpoch + 1 } }

variable [DecidableEq ι] [DecidableEq κ]

omit [DecidableEq ι] in
/-- `setIdentity` refuses, or it writes both keys. -/
theorem setIdentity_cases {identityKey signingKey : κ} {e : ℕ} {a a' : Account ι κ}
    (h : a.setIdentity F identityKey signingKey e = .ok a') : a' = { a with
      olmIdentityKey := some ⟨identityKey, a.generation⟩
      signingPublicKey := some ⟨signingKey, a.generation⟩ } := by
  unfold Account.setIdentity at h
  repeat' split at h
  all_goals first
    | (cases h; rfl)
    | cases h

omit [DecidableEq ι] in
theorem setIdentity_refused {identityKey signingKey : κ} {e : ℕ} {a : Account ι κ} {answer : Answer ι}
    (h : a.setIdentity F identityKey signingKey e = .error answer) : answer ≠ .ok := by
  unfold Account.setIdentity at h
  repeat' split at h
  all_goals
    cases h
    try exact nofun

theorem advance_cases (h : s.advance F i = some s') :
    ∃ u a l, Advance F s i u a l ∧ s' = { s.setUpload i u with account := a, lock := l } := by
  unfold advance at h
  cases hu : s.uploads i with
  | idle =>
    rw [hu] at h
    cases h
  | done answer =>
    rw [hu] at h
    cases h
  | counting r e =>
    simp only [hu] at h
    split at h
    · cases h
      exact ⟨_, _, _, .full hu, rfl⟩
    · cases h
      exact ⟨_, _, _, .counted hu, rfl⟩
  | identity r e =>
    simp only [hu, transaction] at h
    split at h
    · cases h
    · rename_i hl
      split at h
      · rename_i answer hw
        cases h
        exact ⟨_, _, _, .identityRefused hu (setIdentity_refused hw), rfl⟩
      · rename_i a ha
        cases h
        rw [setIdentity_cases ha]
        exact ⟨_, _, _, .identified hu hl, rfl⟩
  | fallback r e =>
    simp only [hu] at h
    split at h
    · rename_i hr
      cases h
      exact ⟨_, _, _, .noFallback hu hr, rfl⟩
    · rename_i key hr
      simp only [transaction] at h
      split at h
      · cases h
      · rename_i hl
        have hne : (Answer.badRequest : Answer ι) ≠ .ok := nofun
        unfold Account.setFallbackKey at h
        split at h
        · rename_i answer hw
          cases h
          split at hw
          · rename_i hsize
            cases hw
            refine ⟨_, _, _, .fallbackRefused hu hr hne ?_, rfl⟩
            rcases hsize with hsize | hsize
            · exact .inl hsize
            · exact .inr (.inl hsize)
          · split at hw
            · rename_i hg
              cases hw
              refine ⟨_, _, _, .fallbackRefused hu hr hne (.inr (.inr ?_)), rfl⟩
              simpa using hg
            · cases hw
        · rename_i a hw
          cases h
          split at hw
          · cases hw
          · split at hw
            · cases hw
            · cases hw
              exact ⟨_, _, _, .fallbackWritten hu hr hl, rfl⟩
  | locking keys e =>
    cases keys with
    | nil =>
      simp only [hu] at h
      cases h
      exact ⟨_, _, _, .noKeys hu, rfl⟩
    | cons key keys =>
      simp only [hu] at h
      split at h
      · rename_i hgood
        split at h
        · cases h
        · rename_i hl
          split at h
          · cases h
            exact ⟨_, _, _, .locked hu hl (of_decide_eq_true (Bool.and_eq_true_iff.1 hgood).2), rfl⟩
          · rename_i hg
            cases h
            exact ⟨_, _, _, .keysRefused hu nofun (by simpa using hg), rfl⟩
      · rename_i hbad
        cases h
        refine ⟨_, _, _, .malformed hu fun hgood => hbad ?_, rfl⟩
        rw [Bool.and_eq_true, List.all_eq_true]
        exact ⟨fun k hk => decide_eq_true (hgood.1 k hk), decide_eq_true hgood.2⟩
  | checking keys =>
    simp only [hu] at h
    split at h
    · rename_i keyId hc
      cases h
      exact ⟨_, _, _, .conflict hu hc, rfl⟩
    · rename_i hc
      cases h
      exact ⟨_, _, _, .unconflicted hu hc, rfl⟩
  | inserting rest rows =>
    cases rest with
    | nil =>
      simp only [hu] at h
      cases h
      exact ⟨_, _, _, .committed hu, rfl⟩
    | cons k rest =>
      simp only [hu] at h
      split at h
      · rename_i hk
        cases h
        exact ⟨_, _, _, .skipped hu hk, rfl⟩
      · rename_i hk
        cases h
        exact ⟨_, _, _, .inserted hu (Bool.not_eq_true _ ▸ hk), rfl⟩

omit [DecidableEq ι] [DecidableEq κ] in
theorem miscount_cases (hs : s.miscount i = some s') :
    ∃ r e, s.uploads i = .counting r e ∧
      (s' = s.setUpload i (.done .prekeyPoolFull) ∨ s' = s.setUpload i (.identity r e)) := by
  unfold miscount at hs
  split at hs
  · rename_i r e hu
    split at hs
    · cases hs
      exact ⟨r, e, hu, .inl rfl⟩
    · cases hs
      exact ⟨r, e, hu, .inr rfl⟩
  · cases hs

omit [DecidableEq κ] in
theorem read_cases {locked : List ι} (h : s.read j locked = some s') :
    Read s locked j s' := by
  unfold read at h
  split at h
  · rename_i hj
    split at h
    · rename_i ik sk hi hs
      cases h
      exact .identity ik sk hj hi hs
    · cases h
      exact .nobody hj
  · rename_i ik sk hj
    split at h
    · cases h
      exact .empty ik sk hj
    · rename_i row hr
      cases h
      exact .consume ik sk row hj hr
  · rename_i ik sk key hj
    split at h
    · cases h
      exact .nothing ik sk hj
    · cases h
      exact .bundle ik sk _ hj
  · cases h
  · cases h

theorem step_cases {e : Event ι κ} (h : step F s e = some s') : Step F s e s' := by
  cases e with
  | upload i r epoch =>
    simp only [step] at h
    split at h
    · rename_i hu
      cases h
      exact .upload hu
    · cases h
  | advance i =>
    obtain ⟨u, a, l, hadv, rfl⟩ := advance_cases h
    exact .advance hadv
  | miscount i =>
    obtain ⟨r, e, hu, rfl | rfl⟩ := miscount_cases h
    · exact .miscount hu (.full hu)
    · exact .miscount hu (.counted hu)
  | abort i =>
    simp only [step] at h
    split at h
    · cases h
    · cases h
    · rename_i hidle hdone
      cases h
      exact .abort hidle hdone
  | fetch j =>
    simp only [step] at h
    split at h
    · cases h
      exact .fetch
    · cases h
  | read j locked => exact .read (read_cases h)
  | fail j =>
    simp only [step] at h
    split at h
    · cases h
    · cases h
    · cases h
      exact .fail
  | replace key =>
    simp only [step] at h
    split at h
    · cases h
    · rename_i hl
      cases h
      exact .replace hl
  | rotate =>
    simp only [step] at h
    split at h
    · cases h
    · rename_i hl
      cases h
      exact .rotate hl

end State

end PreKeys
end SecureChat
