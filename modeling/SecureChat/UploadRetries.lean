import SecureChat.UploadAtomicity
/-!
# UploadRetries — an upload that nothing runs beside, and its repetition

`upload` is what the transactions of an upload leave of an account when they run one after the other.  The steps of a
call that has the server for itself keep what remains to be done (`lone_advance`), and come to an end.  Repeating what
has succeeded changes nothing (`upload_again`); the route still counts first, and it counts the keys that are stored
already as if they were new (`retry_iff`).
-/
namespace SecureChat
namespace PreKeys

open Runs

variable {ι κ : Type} {F : Format ι κ}

section Outcome

variable [DecidableEq ι] [DecidableEq κ]

namespace Account

omit [DecidableEq κ] in
/-- The rows that `addOneTimeKeys` inserts, those of `inserted` first. -/
def newRows (a : Account ι κ) :
    List (OneTimeKey ι κ) → List (Tagged (OneTimeKey ι κ)) → List (Tagged (OneTimeKey ι κ))
  | [], inserted => inserted
  | k :: rest, inserted =>
    if hasKeyId k.keyId a.oneTimeKeys || hasKeyId k.keyId inserted then newRows a rest inserted
    else newRows a rest (inserted ++ [⟨k, a.generation⟩])

omit [DecidableEq κ] in
def insertKeys (keys : List (OneTimeKey ι κ)) (inserted : List (Tagged (OneTimeKey ι κ))) (a : Account ι κ) :
    Account ι κ :=
  { a with oneTimeKeys := a.oneTimeKeys ++ a.newRows keys inserted }

def storeKeys (keys : List (OneTimeKey ι κ)) (a : Account ι κ) : Except (Answer ι) (Account ι κ) :=
  match a.conflict keys with
  | some keyId => .error (.prekeyConflict keyId)
  | none => .ok (a.insertKeys keys [])

/-- `addOneTimeKeys`, with its transaction in one piece. -/
def addOneTimeKeys (F : Format ι κ) (keys : List (OneTimeKey ι κ)) (epoch : ℕ) (a : Account ι κ) :
    Except (Answer ι) (Account ι κ) :=
  if keys = [] then .ok a
  else if keys.all (fun k => decide (F.size k.publicKey = keyLength)) && decide (keys.map OneTimeKey.keyId).Nodup then
    if a.guard epoch then a.storeKeys keys else .error .badRequest
  else .error .badRequest

theorem addOneTimeKeys_cons (k : OneTimeKey ι κ) (keys : List (OneTimeKey ι κ)) (epoch : ℕ) (a : Account ι κ) :
    a.addOneTimeKeys F (k :: keys) epoch =
      if (k :: keys).all (fun k => decide (F.size k.publicKey = keyLength)) &&
        decide ((k :: keys).map OneTimeKey.keyId).Nodup then
        if a.guard epoch then a.storeKeys (k :: keys) else .error .badRequest
      else .error .badRequest := if_neg (List.cons_ne_nil k keys)

omit [DecidableEq ι] [DecidableEq κ] in
def storeFallback (F : Format ι κ) (key : Option (FallbackKey κ)) (epoch : ℕ) (a : Account ι κ) :
    Except (Answer ι) (Account ι κ) :=
  match key with
  | none => .ok a
  | some key => a.setFallbackKey F key epoch

def upload (F : Format ι κ) (r : PreKeyUploadRequest ι κ) (epoch : ℕ) (a : Account ι κ) :
    Except (Answer ι) (Account ι κ) :=
  (a.setIdentity F r.olmIdentityKey r.olmSigningKey epoch).bind fun a =>
    (a.storeFallback F r.olmFallbackKey epoch).bind fun a => a.addOneTimeKeys F r.olmOneTimeKeys epoch

end Account

def Upload.outcome (F : Format ι κ) : Upload ι κ → Account ι κ → Except (Answer ι) (Account ι κ)
  | .idle, _ => .error .noAnswer
  | .counting r e, a =>
    if maxStoredOneTimePrekeys < a.oneTimeKeys.length + r.olmOneTimeKeys.length then .error .prekeyPoolFull
    else a.upload F r e
  | .identity r e, a => a.upload F r e
  | .fallback r e, a =>
    (a.storeFallback F r.olmFallbackKey e).bind fun a => a.addOneTimeKeys F r.olmOneTimeKeys e
  | .locking keys e, a => a.addOneTimeKeys F keys e
  | .checking keys, a => a.storeKeys keys
  | .inserting rest rows, a => .ok (a.insertKeys rest rows)
  | .done answer, a => if answer = .ok then .ok a else .error answer

/-! ## The steps of a lone upload -/

def Upload.left : Upload ι κ → ℕ
  | .counting r _ => r.olmOneTimeKeys.length + 6
  | .identity r _ => r.olmOneTimeKeys.length + 5
  | .fallback r _ => r.olmOneTimeKeys.length + 4
  | .locking keys _ => keys.length + 3
  | .checking keys => keys.length + 2
  | .inserting rest _ => rest.length + 1
  | .idle | .done _ => 0

namespace State

variable {s s' : State ι κ} {i j : ℕ}

omit [DecidableEq ι] [DecidableEq κ] in
/-- Nobody but upload `i` has the lock, and it only inside its transaction. -/
def Lone (s : State ι κ) (i : ℕ) : Prop := s.lock = if (s.uploads i).holds then some i else none

structure Follows (F : Format ι κ) (s : State ι κ) (i : ℕ) (s' : State ι κ) : Prop where
  lone : s'.Lone i
  outcome : (s'.uploads i).outcome F s'.account = (s.uploads i).outcome F s.account
  left : (s'.uploads i).left < (s.uploads i).left
  begun : s'.uploads i ≠ .idle

theorem follows_set {u : Upload ι κ} {a : Account ι κ} {l : Option ℕ} (hl : l = if u.holds then some i else none)
    (hout : u.outcome F a = (s.uploads i).outcome F s.account) (hleft : u.left < (s.uploads i).left)
    (hne : u ≠ .idle) : Follows F s i { s.setUpload i u with account := a, lock := l } := by
  have hu : Function.update s.uploads i u i = u := Function.update_self _ _ _
  refine ⟨?_, ?_, ?_, ?_⟩
  · show l = if (Function.update s.uploads i u i).holds then some i else none
    rw [hu]
    exact hl
  · show (Function.update s.uploads i u i).outcome F a = _
    rw [hu]
    exact hout
  · show (Function.update s.uploads i u i).left < _
    rw [hu]
    exact hleft
  · show Function.update s.uploads i u i ≠ .idle
    rw [hu]
    exact hne

theorem outcome_error {answer : Answer ι} (h : answer ≠ .ok) (a : Account ι κ) :
    (Upload.done answer).outcome F a = .error answer := if_neg h

omit [DecidableEq ι] [DecidableEq κ] in
theorem transaction_of_lock (hl : s.lock = none) (write : Except (Answer ι) (Account ι κ)) (next : Upload ι κ) :
    s.transaction i write next = some (match write with
      | .error answer => s.setUpload i (.done answer)
      | .ok a => { s.setUpload i next with account := a }) := by
  unfold transaction
  rw [hl]
  cases write with
  | error answer => rfl
  | ok a => rfl

theorem follows_refused {answer : Answer ι} (hl : s.lock = none) (hne : answer ≠ .ok)
    (hout : (s.uploads i).outcome F s.account = .error answer) (hleft : 0 < (s.uploads i).left) :
    Follows F s i (s.setUpload i (.done answer)) :=
  follows_set (s := s) (a := s.account) (l := s.lock) hl ((outcome_error hne s.account).trans hout.symm) hleft nofun

theorem follows_counting (h : s.Lone i) {r : PreKeyUploadRequest ι κ} {e : ℕ} (hu : s.uploads i = .counting r e) :
    ∃ s', s.advance F i = some s' ∧ Follows F s i s' := by
  unfold Lone at h
  rw [hu] at h
  unfold advance
  rw [hu]
  by_cases hfull : maxStoredOneTimePrekeys < s.account.oneTimeKeys.length + r.olmOneTimeKeys.length
  · refine ⟨_, if_pos hfull, follows_refused h nofun ?_ ?_⟩
    · rw [hu]
      exact if_pos hfull
    · rw [hu]
      exact Nat.succ_pos _
  · refine ⟨_, if_neg hfull, follows_set (s := s) (a := s.account) (l := s.lock) h ?_ ?_ nofun⟩
    · rw [hu]
      exact (if_neg hfull).symm
    · rw [hu]
      exact Nat.lt_succ_self _

theorem follows_identity (h : s.Lone i) {r : PreKeyUploadRequest ι κ} {e : ℕ} (hu : s.uploads i = .identity r e) :
    ∃ s', s.advance F i = some s' ∧ Follows F s i s' := by
  unfold Lone at h
  rw [hu] at h
  have hl : s.lock = none := h
  have hout : (s.uploads i).outcome F s.account = s.account.upload F r e := by
    rw [hu]
    rfl
  unfold advance
  rw [hu]
  simp only [transaction_of_lock hl]
  refine ⟨_, rfl, ?_⟩
  cases hw : s.account.setIdentity F r.olmIdentityKey r.olmSigningKey e with
  | error answer =>
    refine follows_refused hl (setIdentity_refused hw) ?_ ?_
    · rw [hout, Account.upload, hw]
      rfl
    · rw [hu]
      exact Nat.succ_pos _
  | ok a =>
    refine follows_set (s := s) (a := a) (l := s.lock) hl ?_ ?_ nofun
    · rw [hout, Account.upload, hw]
      rfl
    · rw [hu]
      exact Nat.lt_succ_self _

omit [DecidableEq ι] [DecidableEq κ] in
theorem setFallbackKey_refused {key : FallbackKey κ} {e : ℕ} {a : Account ι κ} {answer : Answer ι}
    (h : a.setFallbackKey F key e = .error answer) : answer ≠ .ok := by
  unfold Account.setFallbackKey at h
  split_ifs at h
  · cases h
    exact nofun
  · cases h
    exact nofun

theorem follows_fallback (h : s.Lone i) {r : PreKeyUploadRequest ι κ} {e : ℕ} (hu : s.uploads i = .fallback r e) :
    ∃ s', s.advance F i = some s' ∧ Follows F s i s' := by
  unfold Lone at h
  rw [hu] at h
  have hl : s.lock = none := h
  have hout : (s.uploads i).outcome F s.account = (s.account.storeFallback F r.olmFallbackKey e).bind
      fun a => a.addOneTimeKeys F r.olmOneTimeKeys e := by
    rw [hu]
    rfl
  unfold advance
  rw [hu]
  cases hr : r.olmFallbackKey with
  | none =>
    simp only [hr]
    refine ⟨_, rfl, follows_set (s := s) (a := s.account) (l := s.lock) hl ?_ ?_ nofun⟩
    · rw [hout, hr]
      rfl
    · rw [hu]
      exact Nat.lt_succ_self _
  | some key =>
    simp only [hr, transaction_of_lock hl]
    refine ⟨_, rfl, ?_⟩
    cases hw : s.account.setFallbackKey F key e with
    | error answer =>
      refine follows_refused hl (setFallbackKey_refused hw) ?_ ?_
      · rw [hout, hr, Account.storeFallback, hw]
        rfl
      · rw [hu]
        exact Nat.succ_pos _
    | ok a =>
      refine follows_set (s := s) (a := a) (l := s.lock) hl ?_ ?_ nofun
      · rw [hout, hr, Account.storeFallback, hw]
        rfl
      · rw [hu]
        exact Nat.lt_succ_self _

theorem follows_locking (h : s.Lone i) {keys : List (OneTimeKey ι κ)} {e : ℕ} (hu : s.uploads i = .locking keys e) :
    ∃ s', s.advance F i = some s' ∧ Follows F s i s' := by
  unfold Lone at h
  rw [hu] at h
  have hl : s.lock = none := h
  have hout : (s.uploads i).outcome F s.account = s.account.addOneTimeKeys F keys e := by
    rw [hu]
    rfl
  have hleft : 0 < (s.uploads i).left := by
    rw [hu]
    exact Nat.succ_pos _
  unfold advance
  rw [hu]
  cases keys with
  | nil => exact ⟨_, rfl, follows_set (s := s) (a := s.account) (l := s.lock) hl hout.symm hleft nofun⟩
  | cons k keys =>
    simp only [hl]
    rw [Account.addOneTimeKeys_cons] at hout
    by_cases hgood : ((k :: keys).all (fun k => decide (F.size k.publicKey = keyLength)) &&
        decide ((k :: keys).map OneTimeKey.keyId).Nodup) = true
    · rw [if_pos hgood] at hout
      by_cases hg : s.account.guard e = true
      · refine ⟨_, (if_pos hgood).trans (if_pos hg), follows_set (s := s) (a := s.account) rfl ?_ ?_ nofun⟩
        · rw [hout, if_pos hg]
          rfl
        · rw [hu]
          exact Nat.lt_succ_self _
      · exact ⟨_, (if_pos hgood).trans (if_neg hg),
          follows_refused hl nofun (hout.trans (if_neg hg)) hleft⟩
    · exact ⟨_, if_neg hgood, follows_refused hl nofun (hout.trans (if_neg hgood)) hleft⟩

theorem follows_checking (h : s.Lone i) {keys : List (OneTimeKey ι κ)} (hu : s.uploads i = .checking keys) :
    ∃ s', s.advance F i = some s' ∧ Follows F s i s' := by
  unfold Lone at h
  rw [hu] at h
  have hl : s.lock = some i := h
  have hout : (s.uploads i).outcome F s.account = s.account.storeKeys keys := by
    rw [hu]
    rfl
  unfold advance
  rw [hu]
  cases hc : s.account.conflict keys with
  | some keyId =>
    simp only [hc]
    refine ⟨_, rfl, follows_set (s := s) (a := s.account) rfl ?_ ?_ (by rintro ⟨⟩)⟩
    · have hne : Answer.prekeyConflict keyId ≠ .ok := by rintro ⟨⟩
      rw [outcome_error hne, hout, Account.storeKeys, hc]
    · rw [hu]
      exact Nat.succ_pos _
  | none =>
    simp only [hc]
    refine ⟨_, rfl, follows_set (s := s) (a := s.account) (l := s.lock) hl ?_ ?_ (by rintro ⟨⟩)⟩
    · rw [hout, Account.storeKeys, hc]
      rfl
    · rw [hu]
      exact Nat.lt_succ_self _

theorem follows_inserting (h : s.Lone i) {rest : List (OneTimeKey ι κ)} {rows : List (Tagged (OneTimeKey ι κ))}
    (hu : s.uploads i = .inserting rest rows) : ∃ s', s.advance F i = some s' ∧ Follows F s i s' := by
  unfold Lone at h
  rw [hu] at h
  have hl : s.lock = some i := h
  unfold advance
  rw [hu]
  cases rest with
  | nil =>
    refine ⟨_, rfl, follows_set (s := s) rfl ?_ ?_ nofun⟩
    · rw [hu]
      rfl
    · rw [hu]
      exact Nat.succ_pos _
  | cons k rest =>
    by_cases hk : (Account.hasKeyId k.keyId s.account.oneTimeKeys || Account.hasKeyId k.keyId rows) = true
    · refine ⟨_, if_pos hk, follows_set (s := s) (a := s.account) (l := s.lock) hl ?_ ?_ nofun⟩
      · rw [hu]
        simp only [Upload.outcome, Account.insertKeys, Account.newRows, if_pos hk]
      · rw [hu]
        exact Nat.lt_succ_self _
    · refine ⟨_, if_neg hk, follows_set (s := s) (a := s.account) (l := s.lock) hl ?_ ?_ nofun⟩
      · rw [hu]
        simp only [Upload.outcome, Account.insertKeys, Account.newRows, if_neg hk]
      · rw [hu]
        exact Nat.lt_succ_self _

/-- **A lone upload has a next step until it is answered, and the step keeps what remains to be done.** -/
theorem lone_advance (h : s.Lone i) (hidle : s.uploads i ≠ .idle) (hdone : ∀ answer, s.uploads i ≠ .done answer) :
    ∃ s', s.advance F i = some s' ∧ Follows F s i s' := by
  cases hu : s.uploads i with
  | idle => exact absurd hu hidle
  | done answer => exact absurd hu (hdone answer)
  | counting r e => exact follows_counting h hu
  | identity r e => exact follows_identity h hu
  | fallback r e => exact follows_fallback h hu
  | locking keys e => exact follows_locking h hu
  | checking keys => exact follows_checking h hu
  | inserting rest rows => exact follows_inserting h hu

theorem lone_run {n : ℕ} : ∀ {s : State ι κ}, s.Lone i → s.uploads i ≠ .idle →
    run (step F) s (List.replicate n (.advance i)) = some s' →
    s'.Lone i ∧ (s'.uploads i).outcome F s'.account = (s.uploads i).outcome F s.account := by
  induction n with
  | zero =>
    intro s h _ hr
    cases hr
    exact ⟨h, rfl⟩
  | succ n ih =>
    intro s h hidle hr
    obtain ⟨s₁, hs, hr⟩ := run_cons.1 hr
    have hs : s.advance F i = some s₁ := hs
    have hdone : ∀ answer, s.uploads i ≠ .done answer := by
      intro answer hu
      unfold advance at hs
      rw [hu] at hs
      cases hs
    obtain ⟨s₂, hs₂, hf⟩ := lone_advance (F := F) h hidle hdone
    obtain rfl : s₁ = s₂ := Option.some.inj (hs.symm.trans hs₂)
    obtain ⟨hlone, hout⟩ := ih hf.lone hf.begun hr
    exact ⟨hlone, hout.trans hf.outcome⟩

theorem lone_answered : ∀ {m : ℕ} {s : State ι κ}, (s.uploads i).left ≤ m → s.Lone i → s.uploads i ≠ .idle →
    ∃ n s' answer, run (step F) s (List.replicate n (.advance i)) = some s' ∧ s'.uploads i = .done answer := by
  intro m
  induction m with
  | zero =>
    intro s hm h hidle
    cases hu : s.uploads i with
    | idle => exact absurd hu hidle
    | done answer => exact ⟨0, s, answer, rfl, hu⟩
    | _ =>
      rw [hu] at hm
      exact absurd hm (Nat.not_succ_le_zero _)
  | succ m ih =>
    intro s hm h hidle
    by_cases hdone : ∃ answer, s.uploads i = .done answer
    · obtain ⟨answer, hu⟩ := hdone
      exact ⟨0, s, answer, rfl, hu⟩
    · obtain ⟨s₁, hs, hf⟩ := lone_advance (F := F) h hidle fun answer hu => hdone ⟨answer, hu⟩
      obtain ⟨n, s', answer, hr, hu⟩ := ih (Nat.le_of_lt_succ (Nat.lt_of_lt_of_le hf.left hm)) hf.lone hf.begun
      exact ⟨n + 1, s', answer, run_cons.2 ⟨s₁, hs, hr⟩, hu⟩

end State

/-! ## The same upload again -/

namespace Account

variable {a a' : Account ι κ}

omit [DecidableEq ι] in
theorem setIdentity_again {identityKey signingKey : κ} {e : ℕ} (h : a.setIdentity F identityKey signingKey e = .ok a')
    (fallback : Option (Tagged (FallbackKey κ))) (keys : List (Tagged (OneTimeKey ι κ))) :
    ({ a' with fallbackKey := fallback, oneTimeKeys := keys } : Account ι κ).setIdentity F identityKey signingKey e =
      .ok { a' with fallbackKey := fallback, oneTimeKeys := keys } := by
  unfold setIdentity at h
  split_ifs at h with hsize hguard hpin hidentity hsigning
  cases h
  unfold setIdentity
  have hguard' : ¬(!guard e { a with
      olmIdentityKey := some ⟨identityKey, a.generation⟩
      signingPublicKey := some ⟨signingKey, a.generation⟩
      fallbackKey := fallback
      oneTimeKeys := keys }) = true := hguard
  rw [if_neg hsize, if_neg hguard', if_neg hpin, if_neg (by simp), if_neg (by simp)]

omit [DecidableEq ι] [DecidableEq κ] in
theorem storeFallback_again {key : Option (FallbackKey κ)} {e : ℕ} (h : a.storeFallback F key e = .ok a')
    (keys : List (Tagged (OneTimeKey ι κ))) :
    ({ a' with oneTimeKeys := keys } : Account ι κ).storeFallback F key e = .ok { a' with oneTimeKeys := keys } := by
  cases key with
  | none => rfl
  | some key =>
    have h : a.setFallbackKey F key e = .ok a' := h
    show ({ a' with oneTimeKeys := keys } : Account ι κ).setFallbackKey F key e = _
    unfold setFallbackKey at h
    split_ifs at h with hsize hguard
    cases h
    exact (if_neg hsize).trans (if_neg hguard)

omit [DecidableEq ι] [DecidableEq κ] in
theorem storeFallback_cases {key : Option (FallbackKey κ)} {e : ℕ} (h : a.storeFallback F key e = .ok a') :
    a' = { a with fallbackKey := a'.fallbackKey } := by
  cases key with
  | none =>
    cases h
    rfl
  | some key =>
    have h : a.setFallbackKey F key e = .ok a' := h
    unfold setFallbackKey at h
    split_ifs at h
    cases h
    rfl

section Rows

omit [DecidableEq κ]

theorem subset_newRows {row : Tagged (OneTimeKey ι κ)} : ∀ {keys : List (OneTimeKey ι κ)}
    {rows : List (Tagged (OneTimeKey ι κ))}, row ∈ rows → row ∈ a.newRows keys rows
  | [], _, h => h
  | k :: rest, rows, h => by
    rw [newRows]
    split
    · exact subset_newRows h
    · exact subset_newRows (List.mem_append_left _ h)

theorem mem_newRows {row : Tagged (OneTimeKey ι κ)} : ∀ {keys : List (OneTimeKey ι κ)}
    {rows : List (Tagged (OneTimeKey ι κ))}, row ∈ a.newRows keys rows → row ∈ rows ∨ row.value ∈ keys
  | [], _, h => .inl h
  | k :: rest, rows, h => by
    rw [newRows] at h
    split at h
    · exact (mem_newRows h).imp id (List.mem_cons_of_mem k)
    · rcases mem_newRows h with h | h
      · rcases List.mem_append.1 h with h | h
        · exact .inl h
        · obtain rfl := List.mem_singleton.1 h
          exact .inr List.mem_cons_self
      · exact .inr (List.mem_cons_of_mem k h)

theorem hasKeyId_insertKeys {k : OneTimeKey ι κ} : ∀ {keys : List (OneTimeKey ι κ)}
    {rows : List (Tagged (OneTimeKey ι κ))}, k ∈ keys →
    hasKeyId k.keyId (a.insertKeys keys rows).oneTimeKeys = true
  | k' :: rest, rows, h => by
    rcases List.mem_cons.1 h with rfl | h
    · by_cases hk : (hasKeyId k.keyId a.oneTimeKeys || hasKeyId k.keyId rows) = true
      · have hrow : ∃ row ∈ a.oneTimeKeys ++ rows, row.value.keyId = k.keyId := by
          rcases Bool.or_eq_true _ _ ▸ hk with hk | hk
          · obtain ⟨row, hrow, hid⟩ := exists_of_hasKeyId hk
            exact ⟨row, List.mem_append_left _ hrow, hid⟩
          · obtain ⟨row, hrow, hid⟩ := exists_of_hasKeyId hk
            exact ⟨row, List.mem_append_right _ hrow, hid⟩
        obtain ⟨row, hrow, hid⟩ := hrow
        have hmem : row ∈ (a.insertKeys (k :: rest) rows).oneTimeKeys :=
          (List.mem_append.1 hrow).elim (List.mem_append_left _) fun h => List.mem_append_right _ (subset_newRows h)
        rw [← hid]
        exact State.hasKeyId_of_mem hmem
      · have hmem : (⟨k, a.generation⟩ : Tagged (OneTimeKey ι κ)) ∈ (a.insertKeys (k :: rest) rows).oneTimeKeys := by
          refine List.mem_append_right _ ?_
          rw [newRows, if_neg hk]
          exact subset_newRows (List.mem_append_right _ List.mem_cons_self)
        exact State.hasKeyId_of_mem hmem
    · unfold insertKeys
      rw [newRows]
      split
      · exact hasKeyId_insertKeys h
      · exact hasKeyId_insertKeys h

theorem newRows_of_stored : ∀ {keys : List (OneTimeKey ι κ)} {rows : List (Tagged (OneTimeKey ι κ))},
    (∀ k ∈ keys, hasKeyId k.keyId a.oneTimeKeys = true) → a.newRows keys rows = rows
  | [], _, _ => rfl
  | k :: rest, rows, h => by
    rw [newRows, if_pos (by rw [h k List.mem_cons_self, Bool.true_or])]
    exact newRows_of_stored fun k' hk' => h k' (List.mem_cons_of_mem k hk')

end Rows

theorem conflict_insertKeys {keys : List (OneTimeKey ι κ)} (hnodup : (keys.map OneTimeKey.keyId).Nodup)
    (h : a.conflict keys = none) : (a.insertKeys keys []).conflict keys = none := by
  refine Option.map_eq_none_iff.2 (List.find?_eq_none.2 fun row hrow hany => ?_)
  obtain ⟨k, hk, hboth⟩ := List.any_eq_true.1 hany
  rw [Bool.and_eq_true, decide_eq_true_eq, decide_eq_true_eq] at hboth
  have hvalue : row.value = k := by
    rcases List.mem_append.1 hrow with hrow | hrow
    · exact eq_of_conflict_none h hrow hk hboth.1
    · have hmem : row.value ∈ keys := (mem_newRows hrow).resolve_left nofun
      exact List.inj_on_of_nodup_map hnodup hmem hk hboth.1.symm
  exact hboth.2 (by rw [hvalue])

theorem addOneTimeKeys_cases {keys : List (OneTimeKey ι κ)} {e : ℕ} (h : a.addOneTimeKeys F keys e = .ok a') :
    ∃ rows, a' = { a with oneTimeKeys := rows } := by
  unfold addOneTimeKeys storeKeys at h
  split_ifs at h
  · cases h
    exact ⟨_, rfl⟩
  · split at h
    · cases h
    · cases h
      exact ⟨_, rfl⟩

theorem addOneTimeKeys_again {keys : List (OneTimeKey ι κ)} {e : ℕ} (h : a.addOneTimeKeys F keys e = .ok a') :
    a'.addOneTimeKeys F keys e = .ok a' := by
  unfold addOneTimeKeys storeKeys at h
  split_ifs at h with hnil hgood hguard
  · exact if_pos hnil
  · split at h
    · cases h
    · rename_i hc
      cases h
      have hnodup : (keys.map OneTimeKey.keyId).Nodup := of_decide_eq_true (Bool.and_eq_true _ _ ▸ hgood).2
      have hrows : (a.insertKeys keys []).newRows keys [] = [] :=
        newRows_of_stored fun k hk => hasKeyId_insertKeys hk
      have hguard' : (a.insertKeys keys []).guard e = true := hguard
      unfold addOneTimeKeys storeKeys
      rw [if_neg hnil, if_pos hgood, if_pos hguard', conflict_insertKeys hnodup hc]
      have hsame : (a.insertKeys keys []).insertKeys keys [] = a.insertKeys keys [] := by
        show { a.insertKeys keys [] with
          oneTimeKeys := (a.insertKeys keys []).oneTimeKeys ++ (a.insertKeys keys []).newRows keys [] } = _
        rw [hrows, List.append_nil]
      exact congrArg Except.ok hsame

theorem upload_again {r : PreKeyUploadRequest ι κ} {e : ℕ} (h : a.upload F r e = .ok a') :
    a'.upload F r e = .ok a' := by
  unfold upload at h
  cases h₁ : a.setIdentity F r.olmIdentityKey r.olmSigningKey e with
  | error answer =>
    rw [h₁] at h
    cases h
  | ok a₁ =>
    rw [h₁] at h
    cases h₂ : a₁.storeFallback F r.olmFallbackKey e with
    | error answer =>
      simp only [Except.bind, h₂] at h
      cases h
    | ok a₂ =>
      simp only [Except.bind, h₂] at h
      obtain ⟨rows, hrows⟩ := addOneTimeKeys_cases h
      have hidentity : a'.setIdentity F r.olmIdentityKey r.olmSigningKey e = .ok a' := by
        have hw := setIdentity_again h₁ a₂.fallbackKey rows
        rw [hrows, storeFallback_cases h₂]
        exact hw
      have hfallback : a'.storeFallback F r.olmFallbackKey e = .ok a' := by
        rw [hrows]
        exact storeFallback_again h₂ rows
      unfold upload
      rw [hidentity]
      show (a'.storeFallback F r.olmFallbackKey e).bind _ = _
      rw [hfallback]
      exact addOneTimeKeys_again h

end Account

section Retry

variable {s s₁ : State ι κ} {i j : ℕ} {r : PreKeyUploadRequest ι κ} {e : ℕ}

theorem step_upload (hidle : s.uploads j = .idle) (hsane : r.hasSaneKeyMaterial F = true) :
    State.step F s (.upload j r e) = some (s.setUpload j (.counting r e)) := by
  simp only [State.step, hidle, hsane, if_true]

omit [DecidableEq ι] [DecidableEq κ] in
theorem lone_counting (hl : s.lock = none) : (s.setUpload j (.counting r e)).Lone j := by
  show s.lock = if (Function.update s.uploads j (.counting r e) j).holds then some j else none
  rw [Function.update_self]
  exact hl

omit [DecidableEq ι] [DecidableEq κ] in
theorem uploads_counting : (s.setUpload j (.counting r e)).uploads j = .counting r e := Function.update_self _ _ _

theorem of_lone_call {n : ℕ} (hl : s.lock = none)
    (hr : run (State.step F) s (.upload i r e :: List.replicate n (.advance i)) = some s₁)
    (hok : s₁.uploads i = .done .ok) :
    r.hasSaneKeyMaterial F = true ∧ s₁.lock = none ∧ (Upload.counting r e).outcome F s.account = .ok s₁.account := by
  obtain ⟨s₀, hs, hr⟩ := run_cons.1 hr
  by_cases hidle : s.uploads i = .idle
  · by_cases hsane : r.hasSaneKeyMaterial F = true
    · rw [step_upload hidle hsane] at hs
      cases hs
      obtain ⟨hlone, hout⟩ := State.lone_run (lone_counting hl) (by rw [uploads_counting]; exact nofun) hr
      rw [uploads_counting, hok] at hout
      unfold State.Lone at hlone
      rw [hok] at hlone
      exact ⟨hsane, hlone, hout.symm⟩
    · simp only [State.step, hidle, if_neg hsane] at hs
      cases hs
      -- a refused request has no further step
      cases n with
      | zero =>
        cases hr
        have hu : Function.update s.uploads i (.done .invalidPrekeyMaterial) i = .done .ok := hok
        rw [Function.update_self] at hu
        cases hu
      | succ n =>
        obtain ⟨s₂, hs, -⟩ := run_cons.1 hr
        simp only [State.step, State.advance, State.setUpload, Function.update_self] at hs
        cases hs
  · simp only [State.step] at hs
    cases hs

/-- **Repeating an upload that has succeeded** succeeds and changes nothing exactly when the pool has room for all its
keys once more. -/
theorem retry_iff {n : ℕ} (hl : s.lock = none)
    (hr : run (State.step F) s (.upload i r e :: List.replicate n (.advance i)) = some s₁)
    (hok : s₁.uploads i = .done .ok) (hj : s₁.uploads j = .idle) :
    (∃ m s₂, run (State.step F) s₁ (.upload j r e :: List.replicate m (.advance j)) = some s₂ ∧
      s₂.uploads j = .done .ok ∧ s₂.account = s₁.account) ↔
    s₁.account.oneTimeKeys.length + r.olmOneTimeKeys.length ≤ maxStoredOneTimePrekeys := by
  obtain ⟨hsane, hl₁, hout⟩ := of_lone_call hl hr hok
  constructor
  · rintro ⟨m, s₂, hr₂, hok₂, -⟩
    obtain ⟨-, -, hout₂⟩ := of_lone_call hl₁ hr₂ hok₂
    rw [Upload.outcome] at hout₂
    split_ifs at hout₂ with hfull
    exact Nat.le_of_not_lt hfull
  · intro hroom
    have hagain : (Upload.counting r e).outcome F s₁.account = .ok s₁.account := by
      rw [Upload.outcome] at hout ⊢
      split_ifs at hout
      rw [if_neg (Nat.not_lt.2 hroom)]
      exact Account.upload_again hout
    have hlone : (s₁.setUpload j (.counting r e)).Lone j := lone_counting hl₁
    have hne : (s₁.setUpload j (.counting r e)).uploads j ≠ .idle := by
      rw [uploads_counting]
      exact nofun
    obtain ⟨m, s₂, answer, hr₂, hu⟩ := State.lone_answered (F := F) (Nat.le_refl _) hlone hne
    obtain ⟨-, hout₂⟩ := State.lone_run hlone hne hr₂
    rw [uploads_counting, hu] at hout₂
    have hdone : (Upload.done answer).outcome F s₂.account = .ok s₁.account := hout₂.trans hagain
    rw [Upload.outcome] at hdone
    split_ifs at hdone with hanswer
    subst hanswer
    exact ⟨m, s₂, run_cons.2 ⟨_, step_upload hj hsane, hr₂⟩, hu, Except.ok.inj hdone⟩

end Retry

end Outcome

end PreKeys
end SecureChat
