import SecureChat.RecoveryGrants
/-!
# IdentityPinning — an identity changes by a replacement only, and to what it pinned

Over all runs of all the transactions on the account.  `Changes` says what a commit can do to the identity: an upload
that the stored keys and the pin admit writes both keys, a replacement removes both and writes the pin, a registration
begins with neither, and every other commit keeps it.  What holds of the history follows by induction on the commits.
-/
namespace SecureChat
namespace Recovery

open Runs

variable {β ν : Type}

def Identity.empty : Identity β ν := ⟨none, none, none, none⟩

/-- After a replacement by `key`. -/
def Identity.pinned (key : β) : Identity β ν := ⟨none, none, some key, some .olm⟩

def Identity.upload (identityKey signingKey : β) (i : Identity β ν) : Identity β ν :=
  { i with olmIdentityKey := some identityKey, signingPublicKey := some signingKey }

/-- `setIdentity` does not refuse the keys. -/
structure Identity.Admits (i : Identity β ν) (identityKey signingKey : β) : Prop where
  pin : i.recoveryIdentityProtocol = some .olm → ∀ pin, i.recoveryIdentityPin = some pin → pin = signingKey
  identity : ∀ old, i.olmIdentityKey = some old → old = identityKey
  signing : ∀ old, i.signingPublicKey = some old → old = signingKey

def Identity.Paired (i : Identity β ν) : Prop := i.olmIdentityKey.isSome = i.signingPublicKey.isSome

def Db.Paired (db : Db β ν) : Prop := ∀ i, db.identity = some i → i.Paired

def Kept (pre post : Db β ν) : Prop := ∀ t x, pre.receipts t = some x → post.receipts t = some x

theorem kept_refl (db : Db β ν) : Kept db db := fun _ _ h => h

theorem kept_trans (a b c : Db β ν) (h : Kept a b) (h' : Kept b c) : Kept a c := fun t x ht => h' t x (h t x ht)

/-- Identity and receipts are those of `pre`. -/
structure Still (pre w : Db β ν) : Prop where
  identity : w.identity = pre.identity
  receipts : w.receipts = pre.receipts

theorem still_refl (db : Db β ν) : Still db db := ⟨rfl, rfl⟩

theorem still_aboutIdentity (pre : Db β ν) : AboutIdentity (Still pre) :=
  fun _ _ hid hre h => ⟨hid.trans h.identity, hre.trans h.receipts⟩

theorem Still.kept {pre w : Db β ν} (h : Still pre w) : Kept pre w := fun t x ht => by
  rw [h.receipts]
  exact ht

/-- What a commit of `complete` does. -/
inductive Completion (P : Crypto β ν) (r : RecoveryComplete ν) (pre : Db β ν) : Outcome ν → Db β ν → Prop where
  | kept {o : Outcome ν} {post : Db β ν} (identity : post.identity = pre.identity) (receipts : Kept pre post)
      (answered : r.mode = .replace → ∀ x, o = .success x → pre.receipts r.recoveryToken ≠ none) :
      Completion P r pre o post
  | replaced {x : RecoveryCredentials ν} {post : Db β ν} (key : β) (mode : r.mode = .replace)
      (decoded : P.decodeKey r.identityPublicKey = some key) (identity : post.identity = some (Identity.pinned key))
      (receipts : Kept pre post) (first : pre.receipts r.recoveryToken = none) : Completion P r pre (.success x) post

inductive Changes (P : Crypto β ν) (pre : Db β ν) : Op β ν → Answer β ν → Db β ν → Prop where
  | register {email version taken f answer post} (before : pre.identity = none)
      (identity : post.identity = some Identity.empty) (receipts : Kept pre post) :
      Changes P pre (.register email version taken f) answer post
  | setIdentity {userId epoch answer post} (i : Identity β ν) (identityKey signingKey : β)
      (before : pre.identity = some i) (admits : i.Admits identityKey signingKey)
      (identity : post.identity = some (i.upload identityKey signingKey)) (receipts : Kept pre post) :
      Changes P pre (.setIdentity userId identityKey signingKey epoch) answer post
  | complete {r f o post} (completion : Completion P r pre o post) :
      Changes P pre (.complete r f) (.completed o) post
  | other {x answer post} (identity : post.identity = pre.identity) (receipts : Kept pre post)
      (plain : (∀ r f, x ≠ .complete r f) ∧ ∀ userId ik sk epoch, x ≠ .setIdentity userId ik sk epoch) :
      Changes P pre x answer post

theorem Completion.receipts_kept {P : Crypto β ν} {r : RecoveryComplete ν} {pre post : Db β ν} {o : Outcome ν}
    (h : Completion P r pre o post) : Kept pre post := by
  cases h with
  | kept _ hk => exact hk
  | replaced _ _ _ _ hk => exact hk

theorem Changes.receipts_kept {P : Crypto β ν} {pre post : Db β ν} {x : Op β ν} {answer : Answer β ν}
    (h : Changes P pre x answer post) : Kept pre post := by
  cases h with
  | register _ _ hk => exact hk
  | setIdentity _ _ _ _ _ _ hk => exact hk
  | complete hc => exact hc.receipts_kept
  | other _ hk _ => exact hk

section Complete

variable {P : Crypto β ν} {r : RecoveryComplete ν} {pre w : Db β ν}

theorem Still.rejected (h : Still pre w) {o : Outcome ν} (ho : ∀ x, o ≠ .success x) : Completion P r pre o w :=
  .kept h.identity h.kept fun _ x hx => absurd hx (ho x)

variable [DecidableEq ν]

/-- `receipt` under the lock answers from a receipt only. -/
theorem receipt_still (h : Still pre w) : (receipt P r).Locked (Completion P r pre) w := by
  intro now
  simp only
  split
  · exact h.rejected (by simp)
  · rename_i saved hs
    have hpre : pre.receipts r.recoveryToken ≠ none := by
      rw [← h.receipts, hs]
      exact Option.some_ne_none saved
    split
    · exact h.rejected (by simp)
    · intro now
      simp only
      split
      · exact h.rejected (by simp)
      · intro now
        simp only
        split
        · exact .kept h.identity h.kept fun _ _ _ => hpre
        · exact h.rejected (by simp)

/-- `receipt` before the lock: the receipt it has read is there under it. -/
theorem receipt_openStill (last : Db β ν) : (receipt P r).Open Kept (Completion P r) last := by
  intro now w _
  simp only
  split
  · exact fun w' _ => (still_refl w').rejected (by simp)
  · rename_i saved hs
    split
    · exact fun w' _ => (still_refl w').rejected (by simp)
    · intro w' hw' now
      have hpre : w'.receipts r.recoveryToken ≠ none := by
        rw [hw' _ _ hs]
        exact Option.some_ne_none saved
      simp only
      split
      · exact (still_refl w').rejected (by simp)
      · intro now
        simp only
        split
        · exact .kept rfl (kept_refl w') fun _ _ _ => hpre
        · exact (still_refl w').rejected (by simp)

theorem finish_still {userId : ν} {f : Fresh ν} (hre : w.receipts = pre.receipts)
    (hQ : ∀ x post, pre.receipts r.recoveryToken = none → post.identity = w.identity → Kept pre post →
      Completion P r pre (.success x) post) :
    (finish P r userId f).Locked (Completion P r pre) w := by
  intro now
  simp only
  split
  · trivial
  · rename_i hno
    have hno : w.receipts r.recoveryToken = none := hno
    refine hQ _ _ (hre ▸ hno) ?_ fun t x ht => ?_
    · show (Db.updateUsers _ w).identity = w.identity
      rw [identity_updateUsers_of_eq]
      intro u
      rfl
    · have hne : t ≠ r.recoveryToken := by
        rintro rfl
        rw [← hre, hno] at ht
        cases ht
      refine (Function.update_of_ne hne _ _).trans ?_
      show w.receipts t = some x
      rw [hre, ht]

variable [DecidableEq β]

theorem completeConsumed_still {f : Fresh ν} {account : Account β ν} {context : Context β ν} {userId : ν}
    (h : Still pre w) (hsome : pre.identity ≠ none) :
    (completeConsumed P r f account context userId).Locked (Completion P r pre) w := by
  intro now
  simp only
  split
  · exact h.rejected (by simp)
  · split
    · exact h.rejected (by simp)
    · rename_i hvalid
      split
      · exact h.rejected (by simp)
      · rename_i key hkey
        split
        · exact h.rejected (by simp)
        · split
          · exact h.rejected (by simp)
          · split
            · rename_i hmode
              have holm : r.identityProtocol = .olm := by
                by_contra hne
                exact hvalid (.inr (.inl hne))
              obtain ⟨i, hi⟩ := Option.ne_none_iff_exists'.1 hsome
              refine finish_still h.receipts fun x post hfirst hid hk => .replaced key hmode hkey ?_ hk hfirst
              rw [hid, identity_updateUsers (g := fun _ => Identity.pinned key), Identity.pinned]
              · show w.identity.map _ = _
                rw [h.identity, hi, Option.map_some]
              · intro u
                rw [Users.identity, holm]
                rfl
            · rename_i hmode
              exact finish_still h.receipts fun x post _ hid hk =>
                .kept (hid.trans h.identity) hk fun hm => absurd hm hmode

theorem consumed_still {f : Fresh ν} {account : Account β ν} {userId : ν} (h : Still pre w)
    (hsome : pre.identity ≠ none) : (consumed P r f userId account).Locked (Completion P r pre) w := by
  have hstill : ∀ (c : Option (Challenge β ν)) (n : Note ν),
      Still pre ((w.setChallenge .complete r.recoveryToken c).note n) := fun c n => ⟨h.identity, h.receipts⟩
  exact locked_consume (receipt_still h) (fun _ _ _ _ => receipt_still (hstill _ _))
    fun _ _ _ _ => completeConsumed_still (hstill _ _) hsome

/-- **Every commit of `complete`** keeps the identity or replaces it. -/
theorem complete_changes (f : Fresh ν) (last : Db β ν) : (complete P r f).Open Kept (Completion P r) last := by
  refine complete_course (fun w => (still_refl w).rejected (by simp)) receipt_openStill ?_ last
  intro userId account w u _ hu
  have hsome : w.identity ≠ none := by
    rw [Db.identity, hu]
    exact Option.some_ne_none _
  have hlock : ∀ failures until_ n, Still w ((updateLock failures until_ w).note n) := fun failures until_ n =>
    ⟨identity_updateLock failures until_ w, rfl⟩
  exact locked_held hu (fun _ _ _ _ _ => (hlock _ _ _).rejected (by simp))
    (fun _ _ _ _ _ => consumed_still (hlock _ _ _) hsome) fun _ => consumed_still (still_refl w) hsome

/-- **Every commit of `setIdentity`** writes keys that the stored ones and the pin admit. -/
theorem setIdentity_changes {userId : ν} {identityKey signingKey : β} {epoch : Option ν} (last : Db β ν) :
    (setIdentity P userId identityKey signingKey epoch).Open Kept
      (fun pre _ post => Changes P pre (.setIdentity userId identityKey signingKey epoch) .ok post) last := by
  unfold setIdentity
  split
  · trivial
  · intro w _ now
    simp only
    split
    · trivial
    · rename_i u hu
      have hw : w.identity = some u.identity := by rw [Db.identity, hu, Option.map_some]
      split
      · unfold guard
        split
        · trivial
        · split
          · trivial
          · rename_i hpin
            split
            · trivial
            · rename_i hid
              split
              · trivial
              · rename_i hsign
                refine .setIdentity u.identity identityKey signingKey hw ⟨fun holm pin hp => ?_, fun old ho => ?_,
                  fun old ho => ?_⟩ ?_ (kept_refl w)
                · by_contra hne
                  refine hpin ⟨holm, ?_⟩
                  have hp : u.recoveryIdentityPin = some pin := hp
                  rw [hp, Option.any_some, decide_eq_true hne]
                · by_contra hne
                  have ho : u.olmIdentityKey = some old := ho
                  rw [ho, Option.any_some, decide_eq_true hne] at hid
                  exact hid rfl
                · by_contra hne
                  have ho : u.signingPublicKey = some old := ho
                  rw [ho, Option.any_some, decide_eq_true hne] at hsign
                  exact hsign rfl
                · rw [identity_updateUsers (g := Identity.upload identityKey signingKey), hw, Option.map_some]
                  intro u
                  rfl
      · trivial

omit [DecidableEq β] [DecidableEq ν] in
theorem register_changes {email : Option ν} {version : ν} {taken : Bool} {f : Fresh ν} (last : Db β ν) :
    ((register email version taken f).map Answer.yes).Open Kept
      (fun pre answer post => Changes P pre (.register email version taken f) answer post) last := by
  refine Tx.Open.map fun w _ now => ?_
  simp only
  split
  · trivial
  · rename_i hnone
    have hw : w.identity = none := by rw [Db.identity, hnone, Option.map_none]
    simp only [Tx.Locked]
    split
    · exact .register hw rfl (kept_refl w)
    · intro now
      simp only
      split
      · exact .register hw rfl (kept_refl w)
      · exact .register hw rfl (kept_refl w)

theorem program_changes (x : Op β ν) (last : Db β ν) :
    (program P x).Open Kept (fun pre answer post => Changes P pre x answer post) last := by
  by_cases hx : x.plain = true
  · have hstill : (program P x).Open Kept (fun pre _ post => Still pre post) last :=
      Tx.Guarded.open_of_forall still_refl (fun a => program_keeps (still_aboutIdentity a) hx) last
    refine hstill.imp fun pre answer post h => .other h.identity h.kept ⟨fun r f hr => ?_, fun _ _ _ _ hr => ?_⟩
    · subst hr
      cases hx
    · subst hr
      cases hx
  · cases x with
    | register email version taken f => exact register_changes last
    | setIdentity userId identityKey signingKey epoch => exact (setIdentity_changes last).map
    | complete r f => exact ((complete_changes f last).imp fun pre o post h => .complete h).map
    | _ => exact absurd rfl hx

end Complete

abbrev Commit (β ν : Type) := Tx.Entry (Db β ν) (Answer β ν) (Op β ν)

/-- The commit completes a replacement that committed to `key`; it is not answered from the receipt of an earlier one.
-/
def Replaces (P : Crypto β ν) (key : β) (e : Commit β ν) : Prop :=
  ∃ r f x, e.label = .complete r f ∧ r.mode = .replace ∧ P.decodeKey r.identityPublicKey = some key ∧
    e.result = .completed (.success x) ∧ e.pre.receipts r.recoveryToken = none

def Accepts (signingKey : β) (e : Commit β ν) : Prop :=
  ∃ userId identityKey epoch, e.label = .setIdentity userId identityKey signingKey epoch

/-- The keys of `i` that are set are those of `i'`. -/
def Identity.Within (i i' : Identity β ν) : Prop :=
  (∀ k, i.olmIdentityKey = some k → i'.olmIdentityKey = some k) ∧
    ∀ k, i.signingPublicKey = some k → i'.signingPublicKey = some k

section History

variable {P : Crypto β ν} {e : Commit β ν}

theorem Changes.paired (h : Changes P e.pre e.label e.result e.post)
    (hpre : e.pre.Paired) : e.post.Paired := by
  intro i hi
  generalize e.label = x, e.result = answer at h
  cases h with
  | register hb hid =>
    rw [hid, Option.some.injEq] at hi
    subst hi
    rfl
  | setIdentity j ik sk hb ha hid =>
    rw [hid, Option.some.injEq] at hi
    subst hi
    rfl
  | complete hc =>
    cases hc with
    | kept hid => exact hpre i (hid ▸ hi)
    | replaced key hm hd hid =>
      rw [hid, Option.some.injEq] at hi
      subst hi
      rfl
  | other hid => exact hpre i (hid ▸ hi)

theorem Changes.within (h : Changes P e.pre e.label e.result e.post) {i : Identity β ν}
    (hi : e.pre.identity = some i) (hno : ∀ key, ¬ Replaces P key e) :
    ∃ i', e.post.identity = some i' ∧ i.Within i' ∧ i'.recoveryIdentityPin = i.recoveryIdentityPin ∧
      i'.recoveryIdentityProtocol = i.recoveryIdentityProtocol := by
  generalize hx : e.label = x, ha : e.result = answer at h
  cases h with
  | register hb =>
    rw [hi] at hb
    cases hb
  | setIdentity j ik sk hb hadmits hid =>
    rw [hi, Option.some.injEq] at hb
    subst hb
    refine ⟨_, hid, ⟨fun k hk => ?_, fun k hk => ?_⟩, rfl, rfl⟩
    · rw [hadmits.identity k hk]
      rfl
    · rw [hadmits.signing k hk]
      rfl
  | complete hc =>
    cases hc with
    | kept hid => exact ⟨i, hid.trans hi, ⟨fun _ hk => hk, fun _ hk => hk⟩, rfl, rfl⟩
    | replaced key hm hd hid hk hfirst => exact absurd ⟨_, _, _, hx, hm, hd, ha, hfirst⟩ (hno key)
  | other hid => exact ⟨i, hid.trans hi, ⟨fun _ hk => hk, fun _ hk => hk⟩, rfl, rfl⟩

theorem Changes.pinned (h : Changes P e.pre e.label e.result e.post) {key : β} (hr : Replaces P key e) :
    e.post.identity = some (Identity.pinned key) := by
  obtain ⟨r, f, x, hx, hmode, hkey, ha, hfirst⟩ := hr
  rw [hx, ha] at h
  cases h with
  | complete hc =>
    cases hc with
    | kept _ _ hanswered => exact absurd hfirst (hanswered hmode x rfl)
    | replaced key' _ hkey' hid =>
      rw [hkey, Option.some.injEq] at hkey'
      rw [hid, hkey']
  | other _ _ hplain => exact absurd rfl (hplain.1 r f)

theorem Changes.admits (h : Changes P e.pre e.label e.result e.post) {signingKey : β} (ha : Accepts signingKey e) :
    ∃ i identityKey, e.pre.identity = some i ∧ i.Admits identityKey signingKey := by
  obtain ⟨userId, identityKey, epoch, hx⟩ := ha
  rw [hx] at h
  cases h with
  | setIdentity i _ _ hb hadmits => exact ⟨i, identityKey, hb, hadmits⟩
  | other _ _ hplain => exact absurd rfl (hplain.2 userId identityKey signingKey epoch)

/-- The account holds the pin of a replacement by `key`. -/
def Pinned (key : β) (db : Db β ν) : Prop :=
  ∃ i, db.identity = some i ∧ i.recoveryIdentityPin = some key ∧ i.recoveryIdentityProtocol = some .olm

theorem pinned_follows {key : β} {a b : Db β ν} {es : List (Commit β ν)} (h : Tx.Follows a es b) (ha : Pinned key a)
    (hes : ∀ e ∈ es, Changes P e.pre e.label e.result e.post) (hno : ∀ e ∈ es, ∀ key', ¬ Replaces P key' e) :
    Pinned key b := by
  have hkeep : ∀ e ∈ es, Pinned key e.pre → Pinned key e.post := by
    rintro e he ⟨i, hi, hpin, hprotocol⟩
    obtain ⟨i', hi', -, hpin', hprotocol'⟩ := (hes e he).within hi (hno e he)
    exact ⟨i', hi', hpin'.trans hpin, hprotocol'.trans hprotocol⟩
  exact h.rel (R := fun pre post => Pinned key pre → Pinned key post) (fun _ h => h) (fun _ _ _ h h' ha => h' (h ha))
    hkeep ha

end History

variable [DecidableEq β] [DecidableEq ν]

/-- **The identity is pinned**, in every interleaving of all the calls on the account, with a failure at any statement:
it has both keys or neither, a commit that is no replacement leaves every key that is set, and after a replacement every
signing key that is accepted, up to the next one, is the one it committed to. -/
theorem pinning_run {P : Crypto β ν} {userId : ν} {s : Tx.System ℕ (Db β ν) (Answer β ν) (Op β ν)}
    {es : List (Tx.Event ℕ (Op β ν))}
    (hr : run (Tx.System.step (program P)) (Tx.System.init (Db.unregistered userId)) es = some s) :
    s.db.Paired ∧
    (∀ e ∈ s.log, ∀ i, e.pre.identity = some i → (∀ key, ¬ Replaces P key e) →
      ∃ i', e.post.identity = some i' ∧ i.Within i') ∧
    (∀ before e between e' after key signingKey, s.log = before ++ e :: between ++ e' :: after → Replaces P key e →
      (∀ x ∈ between, ∀ key', ¬ Replaces P key' x) → Accepts signingKey e' → signingKey = key) ∧
    Tx.Follows (Db.unregistered userId) s.log s.db := by
  have h := Tx.serial_run (Q := fun x pre answer post => Changes P pre x answer post) kept_refl kept_trans
    (fun _ _ _ _ hc => hc.receipts_kept) program_changes hr
  refine ⟨?_, fun e he i hi hno => ?_, ?_, h.follows⟩
  · refine h.follows.rel (R := fun pre post => pre.Paired → post.Paired) (fun _ h => h)
      (fun _ _ _ h h' ha => h' (h ha)) (fun e he => (h.meets e he).paired) fun i hi => ?_
    cases hi
  · obtain ⟨i', hi', hw, -⟩ := (h.meets e he).within hi hno
    exact ⟨i', hi', hw⟩
  · intro before e between e' after key signingKey hlog hrep hno hacc
    have hf := h.follows
    rw [hlog, List.append_assoc] at hf
    obtain ⟨c, -, hc⟩ := hf.split
    obtain ⟨-, hc⟩ : e.pre = c ∧ Tx.Follows e.post (between ++ e' :: after) s.db := hc
    obtain ⟨d, hbetween, hd⟩ := hc.split
    have hpre : e'.pre = d := hd.1
    subst hpre
    have hmem : ∀ x ∈ before ++ e :: between ++ e' :: after, Changes P x.pre x.label x.result x.post := by
      rw [← hlog]
      exact h.meets
    have hpost : Pinned key e.post :=
      ⟨_, (hmem e (by simp)).pinned hrep, rfl, rfl⟩
    obtain ⟨i, hi, hpin, hprotocol⟩ := pinned_follows hbetween hpost (fun x hx => hmem x (by simp [hx])) hno
    obtain ⟨i', identityKey, hi', hadmits⟩ := (hmem e' (by simp)).admits hacc
    rw [hi, Option.some.injEq] at hi'
    subst hi'
    exact (hadmits.pin hprotocol key hpin).symm

def replacedAccount : List (Tx.Event ℕ (Op ℕ ℕ)) :=
  enrolledAccount ++ alone 2 (.requestLogin 2 50 6) 9 ++ alone 3 (.verifyLogin ⟨50, 6, 0⟩ 51) 12 ++
    alone 4 (.complete ⟨51, 8, .replace, .olm, 33, 6, 0, none⟩ ⟨11, 21, 1, 2⟩) 18 ++
    alone 5 (.setIdentity 1 41 34 (some 11)) 3 ++ alone 6 (.setIdentity 1 41 33 (some 11)) 4

theorem pinning_replaced :
    ∃ s : Tx.System ℕ (Db ℕ ℕ) (Answer ℕ ℕ) (Op ℕ ℕ),
      run (Tx.System.step (program plainCrypto)) (Tx.System.init (Db.unregistered 1)) replacedAccount = some s ∧
        s.log.map Tx.Entry.result = [.yes true, .ok, .delivered true,
          .grant (some ⟨51, 1, some .olm, some 32, 1, 300, false⟩), .completed (.success ⟨1, 12, 23, true⟩), .ok] ∧
        s.db.users.map (fun u => (u.olmIdentityKey, u.signingPublicKey)) = some (some 41, some 33) ∧ s.db.Paired := by
  obtain ⟨s, hs, hl, hu⟩ :
      ∃ s : Tx.System ℕ (Db ℕ ℕ) (Answer ℕ ℕ) (Op ℕ ℕ),
        run (Tx.System.step (program plainCrypto)) (Tx.System.init (Db.unregistered 1)) replacedAccount = some s ∧
          s.log.map Tx.Entry.result = [.yes true, .ok, .delivered true,
            .grant (some ⟨51, 1, some .olm, some 32, 1, 300, false⟩), .completed (.success ⟨1, 12, 23, true⟩), .ok] ∧
          s.db.users.map (fun u => (u.olmIdentityKey, u.signingPublicKey)) = some (some 41, some 33) :=
    exists_run _ _ _ (by decide +kernel)
  exact ⟨s, hs, hl, hu, (pinning_run hs).1⟩

end Recovery
end SecureChat
