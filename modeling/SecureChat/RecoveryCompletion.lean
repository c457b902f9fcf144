import SecureChat.RecoveryCourse
/-!
# RecoveryCompletion — a recovery is completed once, or not at all

Any calls of `complete`, with any tokens and bodies, statement by statement and in any order, each of which may fail at
any statement.  Two facts only grow: a receipt stays, and a consumed challenge does not come back.  They tie the preview
that a call reads before it has the lock to what it finds under it.
-/
namespace SecureChat
namespace Recovery

open Runs

variable {β ν : Type}

def Later (pre post : Db β ν) : Prop :=
  (∀ t x, pre.receipts t = some x → post.receipts t = some x) ∧
    ∀ t, pre.challenges .complete t = none → post.challenges .complete t = none

theorem later_refl (db : Db β ν) : Later db db := ⟨fun _ _ h => h, fun _ h => h⟩

theorem later_trans (a b c : Db β ν) (h : Later a b) (h' : Later b c) : Later a c :=
  ⟨fun t x ht => h'.1 t x (h.1 t x ht), fun t ht => h'.2 t (h.2 t ht)⟩

theorem live_challenge {db : Db β ν} {purpose : Purpose} {id : ν} {now : ℕ} {c : Challenge β ν}
    (h : db.live purpose id now = some c) : db.challenges purpose id = some c := (Option.filter_eq_some_iff.1 h).1

variable [DecidableEq ν]

/-- All rows but those a rejected call may change: its challenge, and the failures and the lockout of the lock. -/
def Db.durable (token : ν) (db : Db β ν) : Db β ν :=
  { updateLock 0 none (db.setChallenge .complete token none) with notes := [] }

/-- **What a call of `complete` promises** when it commits. -/
structure Completes (P : Crypto β ν) (r : RecoveryComplete ν) (pre : Db β ν) (o : Outcome ν)
    (post : Db β ν) : Prop where
  receipt : ∀ x, o = .success x → ∃ y, post.receipts r.recoveryToken = some y ∧ y.requestHash = P.requestHash r ∧
    y.response = x
  unchanged : (∀ x, o ≠ .success x) → post.durable r.recoveryToken = pre.durable r.recoveryToken
  once : post.durable r.recoveryToken ≠ pre.durable r.recoveryToken →
    pre.challenges .complete r.recoveryToken ≠ none ∧ post.challenges .complete r.recoveryToken = none
  later : Later pre post

structure Quiet (token : ν) (pre w : Db β ν) : Prop where
  durable : w.durable token = pre.durable token
  later : Later pre w

section Quiet

variable {P : Crypto β ν} {r : RecoveryComplete ν} {pre w : Db β ν} {token : ν}

theorem quiet_refl (token : ν) (db : Db β ν) : Quiet token db db := ⟨rfl, later_refl db⟩

theorem Quiet.setChallenge (h : Quiet token pre w) {c : Option (Challenge β ν)}
    (hc : w.challenges .complete token = none → c = none) : Quiet token pre (w.setChallenge .complete token c) where
  durable := by
    rw [← h.durable]
    simp [Db.durable, Db.setChallenge]
  later := by
    refine later_trans _ _ _ h.later ⟨fun _ _ ht => ht, fun t ht => ?_⟩
    simp only [Db.setChallenge, Function.update_self]
    by_cases htt : t = token
    · subst htt
      rw [Function.update_self]
      exact hc ht
    · rw [Function.update_of_ne htt]
      exact ht

theorem Quiet.updateLock (h : Quiet token pre w) (n : ℕ) (u : Option ℕ) :
    Quiet token pre (Recovery.updateLock n u w) where
  durable := by
    rw [← h.durable]
    simp only [Db.durable, Db.setChallenge, Recovery.updateLock, Db.updateUsers, Option.map_map]
    rfl
  later := ⟨h.later.1, h.later.2⟩

theorem Quiet.note (h : Quiet token pre w) (n : Note ν) : Quiet token pre (w.note n) :=
  ⟨h.durable, ⟨h.later.1, h.later.2⟩⟩

theorem Quiet.rejected (h : Quiet r.recoveryToken pre w) {o : Outcome ν} (ho : ∀ x, o ≠ .success x) :
    Completes P r pre o w :=
  ⟨fun x hx => absurd hx (ho x), fun _ => h.durable, fun hne => absurd h.durable hne, h.later⟩

theorem Quiet.replayed (h : Quiet r.recoveryToken pre w) {y : Receipt ν} (hy : w.receipts r.recoveryToken = some y)
    (hh : y.requestHash = P.requestHash r) : Completes P r pre (.success y.response) w where
  receipt x hx := by
    cases hx
    exact ⟨y, hy, hh, rfl⟩
  unchanged ho := absurd rfl (ho y.response)
  once hne := absurd h.durable hne
  later := h.later

/-- `receipt` under the lock. -/
theorem receipt_locked (h : Quiet r.recoveryToken pre w) :
    (receipt P r).Locked (Completes P r pre) w := by
  intro now
  simp only
  split
  · exact h.rejected (by simp)
  · rename_i saved hs
    split
    · exact h.rejected (by simp)
    · rename_i hvalid
      rw [not_or, not_not] at hvalid
      intro now
      simp only
      split
      · exact h.rejected (by simp)
      · intro now
        simp only
        split
        · exact h.replayed hs hvalid.2
        · exact h.rejected (by simp)

/-- `receipt` before the lock: the receipt it has read is still there under it. -/
theorem receipt_open (last : Db β ν) : (receipt P r).Open Later (Completes P r) last := by
  intro now w hw
  simp only
  split
  · exact fun w' _ => (quiet_refl _ w').rejected (by simp)
  · rename_i saved hs
    split
    · exact fun w' _ => (quiet_refl _ w').rejected (by simp)
    · rename_i hvalid
      rw [not_or, not_not] at hvalid
      intro w' hw' now
      simp only
      split
      · exact (quiet_refl _ w').rejected (by simp)
      · intro now
        simp only
        split
        · exact (quiet_refl _ w').replayed (hw'.1 _ _ hs) hvalid.2
        · exact (quiet_refl _ w').rejected (by simp)

theorem finish_locked {userId : ν} {f : Fresh ν} (hl : Later pre w)
    (hpre : pre.challenges .complete r.recoveryToken ≠ none) (hw : w.challenges .complete r.recoveryToken = none) :
    (finish P r userId f).Locked (Completes P r pre) w := by
  intro now
  simp only
  split
  · trivial
  · rename_i hno
    have hgone : ∀ t, w.challenges .complete t = none →
        ((w.challenges .complete t).filter fun c => decide (c.context.userId ≠ some userId)) = none := by
      intro t ht
      rw [ht]
      rfl
    have hno : w.receipts r.recoveryToken = none := hno
    refine ⟨fun x hx => ?_, fun ho => absurd rfl (ho _), fun _ => ⟨hpre, hgone _ hw⟩, ?_, fun t ht => ?_⟩
    · cases hx
      exact ⟨_, Function.update_self _ _ _, rfl, rfl⟩
    · intro t x ht
      have hne : t ≠ r.recoveryToken := by
        rintro rfl
        have := hl.1 _ _ ht
        rw [hno] at this
        cases this
      exact (Function.update_of_ne hne _ _).trans (hl.1 t x ht)
    · exact hgone t (hl.2 t ht)

variable [DecidableEq β]

theorem completeConsumed_locked {f : Fresh ν} {account : Account β ν} {context : Context β ν} {userId : ν}
    (h : Quiet r.recoveryToken pre w) (hpre : pre.challenges .complete r.recoveryToken ≠ none)
    (hw : w.challenges .complete r.recoveryToken = none) :
    (completeConsumed P r f account context userId).Locked (Completes P r pre) w := by
  intro now
  simp only
  split
  · exact h.rejected (by simp)
  · split
    · exact h.rejected (by simp)
    · split
      · exact h.rejected (by simp)
      · split
        · exact h.rejected (by simp)
        · split
          · exact h.rejected (by simp)
          · split
            · exact finish_locked ⟨h.later.1, h.later.2⟩ hpre hw
            · exact finish_locked h.later hpre hw

theorem consumed_locked {f : Fresh ν} {account : Account β ν} {userId : ν} (h : Quiet r.recoveryToken pre w) :
    (consumed P r f userId account).Locked (Completes P r pre) w := by
  refine locked_consume (receipt_locked h) (fun t c hlive _ => ?_) fun t c hlive _ => ?_
  · refine receipt_locked ((h.setChallenge fun hno => ?_).note _)
    rw [live_challenge hlive] at hno
    cases hno
  · have hpre : pre.challenges .complete r.recoveryToken ≠ none := by
      intro hno
      have hgone := h.later.2 _ hno
      rw [live_challenge hlive] at hgone
      cases hgone
    refine completeConsumed_locked ((h.setChallenge fun _ => rfl).note _) hpre ?_
    simp [Db.setChallenge, Db.note]

/-- **Every call of `complete` keeps its promise**, whatever other calls have committed before it has the lock. -/
theorem complete_open (f : Fresh ν) (last : Db β ν) : (complete P r f).Open Later (Completes P r) last := by
  refine complete_course (fun w => (quiet_refl _ w).rejected (by simp)) receipt_open ?_ last
  intro userId account w u _ hu
  have h := quiet_refl r.recoveryToken w
  exact locked_held hu (fun _ _ _ _ _ => ((h.updateLock _ _).note _).rejected (by simp))
    (fun _ _ _ _ _ => consumed_locked ((h.updateLock _ _).note _)) fun _ => consumed_locked h

end Quiet

variable [DecidableEq β]

/-- The calls of `complete`: each has its request and its random values. -/
abbrev Recoveries (β ν : Type) := Tx.System ℕ (Db β ν) (Outcome ν) (RecoveryComplete ν × Fresh ν)

def completions (P : Crypto β ν) (x : RecoveryComplete ν × Fresh ν) : Transaction β ν (Outcome ν) :=
  complete P x.1 x.2

/-- Two calls with one token that both report success: the same request hash, the same response. -/
def SameAnswer (P : Crypto β ν) (e e' : Tx.Entry (Db β ν) (Outcome ν) (RecoveryComplete ν × Fresh ν)) : Prop :=
  e.label.1.recoveryToken = e'.label.1.recoveryToken → ∀ x x', e.result = .success x → e'.result = .success x' →
    P.requestHash e.label.1 = P.requestHash e'.label.1 ∧ x = x'

/-- **Completion is atomic and idempotent**, in every interleaving of any calls and with a failure at any statement.  Of
the calls that present one token at most one changes anything but the challenge and the failures and the lockout of the
lock, and none that does not report success does.  All that report success have the same request hash and report the
same response.  The rows are what the commits have made of them, and a call that failed is not among them. -/
theorem complete_run {P : Crypto β ν} {db : Db β ν} {s : Recoveries β ν}
    {es : List (Tx.Event ℕ (RecoveryComplete ν × Fresh ν))}
    (hr : run (Tx.System.step (completions P)) (Tx.System.init db) es = some s) :
    (∀ token, s.log.Pairwise fun e e' => e.label.1.recoveryToken = token → e'.label.1.recoveryToken = token →
      e.post.durable token ≠ e.pre.durable token → e'.post.durable token = e'.pre.durable token) ∧
    (∀ e ∈ s.log, ∀ e' ∈ s.log, SameAnswer P e e') ∧
    (∀ e ∈ s.log, (∀ x, e.result ≠ .success x) →
      e.post.durable e.label.1.recoveryToken = e.pre.durable e.label.1.recoveryToken) ∧
    Tx.Follows db s.log s.db ∧ ∀ e ∈ s.log, s.calls e.call = .committed e.result := by
  have h := Tx.serial_run (Q := fun x => Completes P x.1) later_refl later_trans (fun _ _ _ _ hq => hq.later)
    (fun x last => complete_open x.2 last) hr
  have hlater : ∀ e ∈ s.log, Later e.pre e.post := fun e he => (h.meets e he).later
  have hpair := h.follows.pairwise later_refl later_trans hlater
  refine ⟨fun token => ?_, ?_, fun e he ho => (h.meets e he).unchanged ho, h.follows, h.committed⟩
  · refine hpair.imp_of_mem fun {e e'} he he' hR ht ht' hne => ?_
    by_contra hne'
    subst ht
    have hgone := ((h.meets e he).once hne).2
    have hthere := ((h.meets e' he').once (ht'.symm ▸ hne')).1
    exact hthere (ht'.symm ▸ hR.2 _ hgone)
  · have hsame : ∀ {e e' : Tx.Entry (Db β ν) (Outcome ν) (RecoveryComplete ν × Fresh ν)}, e ∈ s.log → e' ∈ s.log →
        Later e.post e'.post → SameAnswer P e e' := by
      intro e e' he he' hl ht x x' hx hx'
      obtain ⟨y, hy, hh, rfl⟩ := (h.meets e he).receipt x hx
      obtain ⟨y', hy', hh', rfl⟩ := (h.meets e' he').receipt x' hx'
      have hyy : y = y' := by
        have := hl.1 _ _ hy
        rw [ht, hy', Option.some.injEq] at this
        exact this.symm
      subst hyy
      exact ⟨hh.symm.trans hh', rfl⟩
    have hlog : s.log.Pairwise (SameAnswer P) := hpair.imp_of_mem fun {e e'} he he' hR =>
      hsame he he' (later_trans _ _ _ hR (hlater e' he'))
    have hflip : s.log.Pairwise fun e e' => SameAnswer P e' e := hlog.imp fun {e e'} hs ht x x' hx hx' =>
      (hs ht.symm x' x hx' hx).imp Eq.symm Eq.symm
    exact fun e he e' he' =>
      List.Pairwise.forall_of_forall_of_flip (fun e he => hsame he he (later_refl _)) hlog hflip he he'

def plainCrypto : Crypto ℕ ℕ where
  saneId _ := true
  size _ := 32
  decodeKey := some
  verify _ _ _ := true
  verifyEnrollment _ _ _ := true
  validProof _ := true
  verifier _ proof := proof
  requestHash r := r.completionId
  issueToken _ epoch id := epoch + id
  issueRefreshToken _ _ generation id := generation + id

/-- Account 1 holds the recovery token 7 and has a registration lock with `failures` wrong proofs so far. -/
def grantedDb (failures : ℕ) : Db ℕ ℕ where
  userId := 1
  users := some ⟨10, 20, some 30, some 31, some 32, some 5, none, none, some 99, failures, none⟩
  oneTimePrekeys := [(0, 40), (1, 41)]
  fallbackKeys := [(42, 43)]
  binding := some ⟨2, 3⟩
  challenges := fun purpose id => if purpose = .complete ∧ id = 7 then
    some ⟨⟨some 1, 2, some 10, none, some .olm, some 32, 5, some 3⟩, 7, 0, 300000⟩ else none
  receipts _ := none
  quota _ _ _ := 0
  notes := []

def replaceRequest (proof : ℕ) : RecoveryComplete ℕ := ⟨7, 8, .replace, .olm, 33, 6, 0, some proof⟩

/-- A call and its retry that both read the challenge before either has the lock; a third call fails midway. -/
def retriedCompletion : List (Tx.Event ℕ (RecoveryComplete ℕ × Fresh ℕ)) :=
  .flatten [[.start 0 (replaceRequest 99, ⟨11, 21, 1, 2⟩), .start 1 (replaceRequest 99, ⟨12, 22, 3, 4⟩),
    .start 2 (replaceRequest 99, ⟨13, 23, 5, 6⟩), .exec 2 0, .exec 2 0, .exec 2 0, .exec 2 0, .exec 2 0, .exec 2 0,
    .exec 0 0, .exec 1 0, .fail 2], List.replicate 17 (.exec 0 0), List.replicate 10 (.exec 1 1000)]

theorem complete_retried :
    ∃ s, run (Tx.System.step (completions plainCrypto)) (Tx.System.init (grantedDb 0)) retriedCompletion = some s ∧
      s.log.map Tx.Entry.result = [.success ⟨1, 12, 23, true⟩, .success ⟨1, 12, 23, true⟩] ∧
      Tx.Follows (grantedDb 0) s.log s.db := by
  obtain ⟨s, hs, hl⟩ :
      ∃ s, run (Tx.System.step (completions plainCrypto)) (Tx.System.init (grantedDb 0)) retriedCompletion = some s ∧
        s.log.map Tx.Entry.result = [.success ⟨1, 12, 23, true⟩, .success ⟨1, 12, 23, true⟩] :=
    exists_run _ _ _ (by decide +kernel)
  exact ⟨s, hs, hl, (complete_run hs).2.2.2.1⟩

/-- **A rejected call can change more than the failure counter**: the tenth wrong proof sets the end of the lockout. -/
theorem complete_locksOut :
    ∃ s, run (Tx.System.step (completions plainCrypto)) (Tx.System.init (grantedDb 9))
        (.start 0 (replaceRequest 98, ⟨11, 21, 1, 2⟩) :: List.replicate 6 (.exec 0 0)) = some s ∧
      ∃ e ∈ s.log, e.result = .locked (.locked 86400) ∧
        e.pre.users.map (fun u => u.registrationLockUntil) = some none ∧
        e.post.users.map (fun u => u.registrationLockUntil) = some (some lockout) :=
  exists_run _ _ _ (by decide +kernel)

end Recovery
end SecureChat
