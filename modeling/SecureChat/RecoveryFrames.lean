import SecureChat.RecoveryAccount
/-!
# RecoveryFrames — which transactions leave the identity of the account alone

The identity of an account is its Olm keys and the pin of its last replacement.  Three calls write it: `register`,
`setIdentity` and `complete`; the last also writes the receipts.  Every other call keeps whatever is about the identity
and the receipts only (`program_keeps`), and so does every part of `complete` but its end.
-/
namespace SecureChat
namespace Recovery

variable {α β ν ρ : Type}

def Note.ofLock : Note ν → Bool
  | .compared .. => false
  | .checked .. | .reset => true

/-- The notes that the registration lock has made. -/
def Db.lockNotes (db : Db β ν) : List (Note ν) := db.notes.filter Note.ofLock

theorem lockNotes_compared (purpose : Purpose) (id : ν) (right : Bool) (db : Db β ν) :
    (db.note (.compared purpose id right)).lockNotes = db.lockNotes := by
  simp [Db.lockNotes, Db.note, Note.ofLock]

/-- A predicate on a part of the account's row, the receipts and the notes of the lock only. -/
def About (part : Users β ν → α) (I : Db β ν → Prop) : Prop :=
  ∀ w w', w'.users.map part = w.users.map part → w'.receipts = w.receipts → w'.lockNotes = w.lockNotes → I w → I w'

structure Identity (β ν : Type) where
  olmIdentityKey : Option β
  signingPublicKey : Option β
  recoveryIdentityPin : Option β
  recoveryIdentityProtocol : Option (Protocol ν)

def Users.identity (u : Users β ν) : Identity β ν :=
  ⟨u.olmIdentityKey, u.signingPublicKey, u.recoveryIdentityPin, u.recoveryIdentityProtocol⟩

def Db.identity (db : Db β ν) : Option (Identity β ν) := db.users.map Users.identity

def AboutIdentity (I : Db β ν → Prop) : Prop :=
  ∀ w w', w'.identity = w.identity → w'.receipts = w.receipts → I w → I w'

theorem AboutIdentity.about {I : Db β ν → Prop} (h : AboutIdentity I) : About Users.identity I :=
  fun w w' hid hreceipts _ => h w w' hid hreceipts

/-- A predicate that everything keeps that the end of `complete` writes. -/
structure KeptByCompletion [DecidableEq ν] (I : Db β ν → Prop) : Prop where
  oneTimePrekeys : ∀ w, I w → I { w with oneTimePrekeys := [] }
  fallbackKeys : ∀ w, I w → I { w with fallbackKeys := [] }
  identity : ∀ registrationId pin protocol w, I w → I (w.updateUsers fun u => { u with
    identityPublicKey := none
    registrationId := some registrationId
    recoveryIdentityPin := some pin
    recoveryIdentityProtocol := some protocol
    olmIdentityKey := none
    signingPublicKey := none })
  credentials : ∀ epoch generation w, I w →
    I (w.updateUsers fun u => { u with credentialEpoch := epoch, refreshGeneration := generation })
  challenges : ∀ userId w, I w → I (w.deleteChallenges userId)
  receipts : ∀ token x w, I w → I { w with receipts := Function.update w.receipts token (some x) }

def Op.plain : Op β ν → Bool
  | .register .. | .setIdentity .. | .complete .. => false
  | _ => true

/-- Of the account's row it writes the epoch and the refresh generation at most. -/
def Op.bare : Op β ν → Bool
  | .register .. | .setIdentity .. | .complete .. | .updateRegistrationLock .. => false
  | _ => true

theorem identity_updateUsers {f : Users β ν → Users β ν} {g : Identity β ν → Identity β ν}
    (hf : ∀ u, (f u).identity = g u.identity) (db : Db β ν) : (db.updateUsers f).identity = db.identity.map g := by
  unfold Db.identity Db.updateUsers
  rw [Option.map_map, Option.map_map]
  exact Option.map_congr fun u _ => hf u

theorem identity_updateUsers_of_eq {f : Users β ν → Users β ν} (hf : ∀ u, (f u).identity = u.identity) (db : Db β ν) :
    (db.updateUsers f).identity = db.identity := by
  rw [identity_updateUsers (g := id) hf, Option.map_id_fun, id]

@[simp] theorem identity_updateLock (failures : ℕ) (until_ : Option ℕ) (db : Db β ν) :
    (updateLock failures until_ db).identity = db.identity := by
  unfold updateLock
  rw [identity_updateUsers_of_eq]
  intro u
  rfl

@[simp] theorem receipts_updateLock (failures : ℕ) (until_ : Option ℕ) (db : Db β ν) :
    (updateLock failures until_ db).receipts = db.receipts := rfl

section Keeps

variable {P : Crypto β ν} {I : Db β ν → Prop} {part : Users β ν → α} (hI : About part I)

theorem readChallenge_guarded {purpose : Purpose} {id : ν} {k : Option (Challenge β ν) → Transaction β ν ρ}
    (hk : ∀ preview, (k preview).Guarded I) : (readChallenge P purpose id k).Guarded I := by
  unfold readChallenge
  split
  · exact fun _ _ => hk _
  · exact hk none

include hI

theorem About.updateUsers {f : Users β ν → Users β ν} (hf : ∀ u, part (f u) = part u) (db : Db β ν) (h : I db) :
    I (db.updateUsers f) := by
  refine hI db _ ?_ rfl rfl h
  unfold Db.updateUsers
  rw [Option.map_map]
  exact Option.map_congr fun u _ => hf u

theorem insertBinding_keeps {email version : ν} {taken : Bool} {k : Bool → Transaction β ν ρ}
    (hk : ∀ inserted, (k inserted).Keeps I) : (insertBinding email version taken k).Keeps I := by
  intro now db
  simp only
  split
  · exact hk false
  · exact ⟨fun w h => hI w _ rfl rfl rfl h, hk true⟩

variable [DecidableEq ν]

omit hI in
theorem lockAccount_keeps {userId : ν} {k : Option (Account β ν) → Transaction β ν ρ}
    (hk : ∀ account, (k account).Keeps I) : (lockAccount userId k).Keeps I :=
  fun _ _ => hk _

theorem consume_keeps {purpose : Purpose} {id proof : ν} {k : Option (Context β ν) → Transaction β ν ρ}
    (hk : ∀ context, (k context).Keeps I) : (consume purpose id proof k).Keeps I := by
  intro now db
  simp only
  split
  · exact hk none
  · refine ⟨fun w h => hI w _ rfl rfl (lockNotes_compared _ _ _ _) h, ?_⟩
    split
    · exact hk none
    · intro now db
      simp only
      split
      · trivial
      · exact ⟨fun w h => hI w _ rfl rfl rfl h, hk _⟩

theorem quota_keeps {purpose : Quota} {value : ν} {limit : ℕ} {k : Bool → Transaction β ν ρ}
    (hk : ∀ allowed, (k allowed).Keeps I) : (quota purpose value limit k).Keeps I := by
  intro now db
  simp only
  split
  · exact ⟨fun w h => hI w _ rfl rfl rfl h, hk true⟩
  · exact hk false

theorem store_keeps {purpose : Purpose} {id proof : ν} {context : Context β ν} {ttl : ℕ} {k : Transaction β ν ρ}
    (hk : k.Keeps I) : (store purpose id context proof ttl k).Keeps I := by
  intro now db
  simp only
  split
  · trivial
  · exact ⟨fun w h => hI w _ rfl rfl rfl h, hk⟩

omit hI in
theorem checkLock_keeps (hI : AboutIdentity I) {userId : ν} {proof : Option ν} {k : Check → Transaction β ν ρ}
    (hk : ∀ lock, (k lock).Keeps I) : (checkLock P userId proof k).Keeps I := by
  have hlock : ∀ (failures : ℕ) (until_ : Option ℕ) (db : Db β ν), I db → I (updateLock failures until_ db) :=
    fun failures until_ db h => hI db _ (identity_updateLock failures until_ db) rfl h
  have hreport : ∀ (now : ℕ) (right : Option Bool) (c : Check) {g : Db β ν → Db β ν}, (∀ db, I db → I (g db)) →
      (report now right c g k).Keeps I :=
    fun now right c g hg => ⟨fun db h => hI (g db) _ rfl rfl (hg db h), hk c⟩
  intro now db
  simp only
  split
  · exact hreport _ _ _ fun _ h => h
  · split
    · exact hreport _ _ _ fun _ h => h
    · split
      · exact hreport _ _ _ fun _ h => h
      · split
        · split
          · exact hreport _ _ _ (hlock _ _)
          · exact hreport _ _ _ fun _ h => h
        · split
          · exact hreport _ _ _ (hlock _ _)
          · exact hreport _ _ _ (hlock _ _)

omit hI in
theorem receipt_keeps (r : RecoveryComplete ν) : (receipt P r).Keeps I := by
  intro now db
  simp only
  split
  · trivial
  · split
    · trivial
    · refine lockAccount_keeps fun account => ?_
      split
      · trivial
      · intro now db
        simp only
        split <;> trivial

omit hI in
theorem receipt_guarded (r : RecoveryComplete ν) : (receipt P r).Guarded I := by
  intro now db
  simp only
  split
  · trivial
  · split
    · trivial
    · intro now db
      simp only
      split
      · trivial
      · intro now db
        simp only
        split <;> trivial

omit hI in
theorem finish_keeps (h : KeptByCompletion I) (r : RecoveryComplete ν) (userId : ν) (f : Fresh ν) :
    (finish P r userId f).Keeps I := by
  refine ⟨h.credentials _ _, h.challenges userId, fun now db => ?_⟩
  simp only
  split
  · trivial
  · exact ⟨h.receipts _ _, trivial⟩

omit hI in
theorem lockUsers_guarded {userId : ν} {k : Users β ν → Transaction β ν ρ} (hk : ∀ u, (k u).Keeps I) :
    (lockUsers userId k).Guarded I := by
  intro now db
  simp only
  split
  · trivial
  · split
    · exact hk _
    · trivial

omit hI in
theorem guard_keeps {expectedEpoch : Option ν} {u : Users β ν} {k : Transaction β ν ρ} (hk : k.Keeps I) :
    (guard expectedEpoch u k).Keeps I := by
  unfold guard
  split
  · trivial
  · exact hk

variable [DecidableEq β]

omit hI in
theorem completeConsumed_keeps (h : KeptByCompletion I) (r : RecoveryComplete ν) (f : Fresh ν) (account : Account β ν)
    (context : Context β ν) (userId : ν) : (completeConsumed P r f account context userId).Keeps I := by
  intro now db
  simp only
  split
  · trivial
  · split
    · trivial
    · split
      · trivial
      · split
        · trivial
        · split
          · trivial
          · split
            · exact ⟨h.oneTimePrekeys, h.fallbackKeys, h.identity _ _ _, finish_keeps h r userId f⟩
            · exact finish_keeps h r userId f

/-- **Every call that writes no more of the row than the epoch and the generation** locks before it writes and keeps
what is not about these. -/
theorem bare_keeps (hpart : ∀ u epoch generation,
      part { u with credentialEpoch := epoch, refreshGeneration := generation } = part u) {x : Op β ν}
    (hx : x.bare = true) : (program P x).Guarded I := by
  cases x with
  | register | setIdentity | complete | updateRegistrationLock => cases hx
  | setFallbackKey userId publicKey signature epoch =>
    refine Tx.Guarded.map ?_
    unfold setFallbackKey
    split
    · trivial
    · exact lockUsers_guarded fun u => guard_keeps ⟨fun w h => hI w _ rfl rfl rfl h, trivial⟩
  | addOneTimeKeys userId keys epoch =>
    refine Tx.Guarded.map ?_
    unfold addOneTimeKeys
    split
    · trivial
    · split
      · trivial
      · refine lockUsers_guarded fun u => guard_keeps fun now db => ?_
        simp only
        split
        · trivial
        · exact ⟨fun w h => hI w _ rfl rfl rfl h, trivial⟩
  | rotateCredentialEpoch userId epoch f =>
    refine Tx.Guarded.map fun now db => ?_
    simp only
    split
    · exact ⟨hI.updateUsers fun u => hpart u _ _, trivial⟩
    · trivial
  | rotateRefreshGeneration userId presented f =>
    refine Tx.Guarded.map fun now db => ?_
    simp only
    split
    · exact ⟨hI.updateUsers fun u => hpart u u.credentialEpoch _, trivial⟩
    · trivial
  | requestEnrollment userId epoch email id nonce otp =>
    refine Tx.Guarded.map fun now db => ?_
    simp only
    split
    · trivial
    · split
      · trivial
      · refine quota_keeps hI fun allowed => ?_
        split
        · trivial
        · refine quota_keeps hI fun allowed => ?_
          split
          · trivial
          · intro now db
            simp only
            split
            · trivial
            · exact store_keeps hI trivial
  | verifyEnrollment userId epoch r version taken other =>
    refine Tx.Guarded.map fun now db => ?_
    simp only
    split
    · trivial
    · split
      · trivial
      · refine consume_keeps hI fun context => ?_
        split
        · trivial
        · split
          · trivial
          · exact insertBinding_keeps hI fun _ => trivial
  | requestLogin email id otp =>
    refine Tx.Guarded.map (quota_keeps hI fun allowed => ?_)
    split
    · trivial
    · intro now db
      simp only
      split
      · exact store_keeps hI trivial
      · exact lockAccount_keeps fun account => store_keeps hI trivial
  | verifyLogin r token =>
    refine Tx.Guarded.map (readChallenge_guarded fun preview => ?_)
    split
    · trivial
    · intro now db
      refine consume_keeps hI fun context => ?_
      split
      · trivial
      · split
        · intro now db
          simp only
          split
          · trivial
          · exact store_keeps hI fun _ _ => trivial
        · trivial

omit hI in
/-- **Every call but `register`, `setIdentity` and `complete`** locks before it writes and keeps what is about the
identity. -/
theorem program_keeps (hI : AboutIdentity I) {x : Op β ν} (hx : x.plain = true) : (program P x).Guarded I := by
  by_cases hbare : x.bare = true
  · exact bare_keeps hI.about (fun _ _ _ => rfl) hbare
  cases x with
  | register | setIdentity | complete => cases hx
  | updateRegistrationLock userId epoch proof =>
    have hset : ∀ (verifier : Option ν) (db : Db β ν), I db → I (setLock verifier db) := by
      intro verifier db h
      have hrow := hI.about.updateUsers (f := fun u => { u with
        registrationLockVerifier := verifier, registrationLockFailures := 0, registrationLockUntil := none })
        (fun _ => rfl) db h
      exact hI (db.updateUsers _) _ rfl rfl hrow
    refine Tx.Guarded.map fun now db => ?_
    simp only
    split
    · trivial
    · split
      · trivial
      · split
        · exact ⟨hset _, trivial⟩
        · split
          · exact ⟨hset _, trivial⟩
          · trivial
  | _ => exact absurd rfl hbare

end Keeps

end Recovery
end SecureChat
