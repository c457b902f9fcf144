import SecureChat.RecoveryCompletion
import SecureChat.RecoveryFrames
/-!
# RecoveryGrants — which accounts can be recovered

A challenge is live only if the account has a signing key on record, and a replacement removes it until the new device
has uploaded its own.  Over all runs of all the transactions on the account: every signing key on record has 32 bytes
(`program_guarded`), so a request within the quota, followed by its code within ten minutes, obtains a grant exactly for
the accounts that have one.
-/
namespace SecureChat
namespace Recovery

open Runs

variable {β ν ρ : Type}

def Sized (P : Crypto β ν) (db : Db β ν) : Prop :=
  ∀ u, db.users = some u → ∀ key, u.signingPublicKey = some key → P.size key = identityLength

theorem sized_unregistered {P : Crypto β ν} (userId : ν) : Sized P (Db.unregistered userId) := by
  intro u hu
  cases hu

section Keeps

variable {P : Crypto β ν}

theorem Sized.updateUsers {f : Users β ν → Users β ν} {db : Db β ν} (h : Sized P db)
    (hf : ∀ u key, (f u).signingPublicKey = some key → u.signingPublicKey = some key ∨ P.size key = identityLength) :
    Sized P (db.updateUsers f) := by
  intro u hu key hkey
  obtain ⟨u', hu', rfl⟩ := Option.map_eq_some_iff.1 hu
  rcases hf u' key hkey with hold | hnew
  · exact h u' hu' key hold
  · exact hnew

theorem sized_aboutIdentity : AboutIdentity (Sized P) := by
  intro w w' hid _ h u' hu' key hkey
  have hw' : w'.identity = some u'.identity := by rw [Db.identity, hu', Option.map_some]
  obtain ⟨u, hu, hx⟩ := Option.map_eq_some_iff.1 (hid.symm.trans hw')
  refine h u hu key ?_
  have hs : u.signingPublicKey = u'.signingPublicKey := congrArg Identity.signingPublicKey hx
  rw [hs, hkey]

variable [DecidableEq ν]

theorem sized_completion : KeptByCompletion (Sized P) where
  oneTimePrekeys _ h := h
  fallbackKeys _ h := h
  identity _ _ _ _ h := h.updateUsers nofun
  credentials _ _ _ h := h.updateUsers fun _ _ hkey => .inl hkey
  challenges _ _ h := h
  receipts _ _ _ h := h

variable [DecidableEq β]

theorem consumed_keeps (r : RecoveryComplete ν) (f : Fresh ν) (account : Account β ν) (userId : ν) :
    (consumed P r f userId account).Keeps (Sized P) := by
  refine consume_keeps sized_aboutIdentity.about fun context => ?_
  cases context with
  | none => exact receipt_keeps r
  | some context => exact completeConsumed_keeps sized_completion r f _ _ _

theorem complete_guarded (r : RecoveryComplete ν) (f : Fresh ν) : (complete P r f).Guarded (Sized P) := by
  unfold complete
  split
  · trivial
  · refine readChallenge_guarded fun preview => ?_
    split
    · exact receipt_guarded r
    · split
      · trivial
      · intro now db
        simp only
        split
        · trivial
        · split
          · refine checkLock_keeps sized_aboutIdentity fun lock => ?_
            split
            · exact consumed_keeps r f _ _
            · exact consumed_keeps r f _ _
            · trivial
            · trivial
          · exact consumed_keeps r f _ _

theorem setIdentity_guarded (userId : ν) (identityKey signingKey : β) (expectedEpoch : Option ν) :
    (setIdentity P userId identityKey signingKey expectedEpoch).Guarded (Sized P) := by
  unfold setIdentity
  split
  · trivial
  · rename_i hsize
    rw [not_or, not_not, not_not] at hsize
    refine lockUsers_guarded fun u => guard_keeps ?_
    split
    · trivial
    · split
      · trivial
      · split
        · trivial
        · refine ⟨fun db h => h.updateUsers fun _ key hkey => .inr ?_, trivial⟩
          cases hkey
          exact hsize.2

omit [DecidableEq β] [DecidableEq ν] in
theorem register_guarded (email : Option ν) (version : ν) (taken : Bool) (f : Fresh ν) :
    (register (β := β) email version taken f).Guarded (Sized P) := by
  intro now db
  simp only
  split
  · trivial
  · refine ⟨fun _ _ u hu key hkey => ?_, ?_⟩
    · cases hu
      cases hkey
    · split
      · trivial
      · exact insertBinding_keeps sized_aboutIdentity.about fun _ => trivial

/-- **Every transaction on the account** locks before it writes and keeps the length of the signing key. -/
theorem program_guarded (x : Op β ν) : (program P x).Guarded (Sized P) := by
  by_cases hx : x.plain = true
  · exact program_keeps sized_aboutIdentity hx
  · cases x with
    | register email version taken f => exact (register_guarded email version taken f).map
    | setIdentity userId identityKey signingKey epoch => exact (setIdentity_guarded _ _ _ _).map
    | complete r f => exact (complete_guarded r f).map
    | _ => exact absurd rfl hx

end Keeps

/-- The ten minutes from `start` in which the code of a request is valid. -/
def Within (start now : ℕ) : Prop := start ≤ now ∧ now < start + challengeTtl * 1000

/-- Nothing a recovery under way rests on has changed: the binding, the epoch and the signing key, its challenge, and
that its token is not in use. -/
structure Undisturbed (id token : ν) (pre post : Db β ν) : Prop where
  userId : post.userId = pre.userId
  binding : post.binding = pre.binding
  identity : post.users.map (fun u => (u.credentialEpoch, u.signingPublicKey)) =
    pre.users.map fun u => (u.credentialEpoch, u.signingPublicKey)
  login : post.challenges .login id = pre.challenges .login id
  token : post.challenges .complete token = pre.challenges .complete token

def WithinQuota (email : ν) (start : ℕ) (db : Db β ν) : Prop :=
  ∀ now, Within start now → db.quota .loginEmail email (now / hour) < quotaLimit

def Spared (email : ν) (start : ℕ) (id token : ν) (pre post : Db β ν) : Prop :=
  Undisturbed id token pre post ∧ (WithinQuota email start pre → WithinQuota email start post)

theorem undisturbed_refl (id token : ν) (db : Db β ν) : Undisturbed id token db db := ⟨rfl, rfl, rfl, rfl, rfl⟩

theorem undisturbed_trans (id token : ν) (a b c : Db β ν) (h : Undisturbed id token a b)
    (h' : Undisturbed id token b c) :
    Undisturbed id token a c :=
  ⟨h'.userId.trans h.userId, h'.binding.trans h.binding, h'.identity.trans h.identity, h'.login.trans h.login,
    h'.token.trans h.token⟩

theorem spared_refl (email : ν) (start : ℕ) (id token : ν) (db : Db β ν) : Spared email start id token db db :=
  ⟨undisturbed_refl id token db, fun h => h⟩

theorem spared_trans (email : ν) (start : ℕ) (id token : ν) (a b c : Db β ν) (h : Spared email start id token a b)
    (h' : Spared email start id token b c) : Spared email start id token a c :=
  ⟨undisturbed_trans id token a b c h.1 h'.1, fun ha => h'.2 (h.2 ha)⟩

section Login

variable {P : Crypto β ν} {userId epoch id otp token : ν} {bound : Binding ν} {key : Option β} {start : ℕ}

structure Standing (userId epoch : ν) (bound : Binding ν) (key : Option β) (token : ν) (db : Db β ν) : Prop where
  owner : db.userId = userId
  binding : db.binding = some bound
  identity : db.users.map (fun u => (u.credentialEpoch, u.signingPublicKey)) = some (epoch, key)
  unused : db.challenges .complete token = none

/-- The context of a challenge for the account: live with a signing key, dead without. -/
def Issued (userId epoch : ν) (bound : Binding ν) (key : Option β) (context : Context β ν) : Prop :=
  match key with
  | none => context.userId = none
  | some key => context.userId = some userId ∧ context.email = bound.email ∧ context.version = some bound.version ∧
    context.epoch = some epoch ∧ context.protocol = some .olm ∧ context.identity = some key

structure Challenged (userId epoch : ν) (bound : Binding ν) (key : Option β) (start : ℕ) (id otp token : ν)
    (db : Db β ν) :
    Prop extends Standing userId epoch bound key token db where
  login : ∃ context expiresAt, db.challenges .login id = some ⟨context, otp, 0, expiresAt⟩ ∧
    start + challengeTtl * 1000 ≤ expiresAt ∧ Issued userId epoch bound key context

theorem Standing.mono {pre post : Db β ν} (h : Standing userId epoch bound key token pre)
    (hu : Undisturbed id token pre post) : Standing userId epoch bound key token post :=
  ⟨hu.userId.trans h.owner, hu.binding.trans h.binding, hu.identity.trans h.identity, hu.token.trans h.unused⟩

theorem Challenged.mono {pre post : Db β ν} (h : Challenged userId epoch bound key start id otp token pre)
    (hu : Undisturbed id token pre post) : Challenged userId epoch bound key start id otp token post :=
  { h.toStanding.mono hu with login := hu.login ▸ h.login }

variable [DecidableEq ν]

theorem Standing.account {db : Db β ν} (h : Standing userId epoch bound key token db) :
    ∃ registrationId, db.account userId = some ⟨epoch, .olm, key, registrationId⟩ := by
  obtain ⟨u, hu, hx⟩ := Option.map_eq_some_iff.1 h.identity
  cases hx
  exact ⟨_, by rw [Db.account, if_pos h.owner.symm, hu, Option.map_some]⟩

omit [DecidableEq ν] in
theorem Standing.quota {db : Db β ν} (h : Standing userId epoch bound key token db) (q : Quota → ν → ℕ → ℕ) :
    Standing userId epoch bound key token { db with quota := q } := ⟨h.owner, h.binding, h.identity, h.unused⟩

theorem Standing.setLogin {db : Db β ν} (h : Standing userId epoch bound key token db) (c : Option (Challenge β ν)) :
    Standing userId epoch bound key token (db.setChallenge .login id c) where
  owner := h.owner
  binding := h.binding
  identity := h.identity
  unused := by
    rw [← h.unused]
    simp [Db.setChallenge]

omit [DecidableEq ν] in
theorem Standing.note {db : Db β ν} (h : Standing userId epoch bound key token db) (n : Note ν) :
    Standing userId epoch bound key token (db.note n) := ⟨h.owner, h.binding, h.identity, h.unused⟩

theorem setChallenge_self (purpose : Purpose) (id : ν) (c : Option (Challenge β ν)) (db : Db β ν) :
    (db.setChallenge purpose id c).challenges purpose id = c := by
  simp [Db.setChallenge]

theorem Standing.challenge {db : Db β ν} (h : Standing userId epoch bound key token db)
    {context : Context β ν} {now : ℕ}
    (hnow : Within start now) (hissued : Issued userId epoch bound key context) :
    Challenged userId epoch bound key start id otp token
      (db.setChallenge .login id (some ⟨context, otp, 0, now + challengeTtl * 1000⟩)) :=
  { h.setLogin _ with
    login := ⟨context, _, setChallenge_self _ _ _ _, Nat.add_le_add_right hnow.1 _, hissued⟩ }

theorem quota_total {T : ℕ → Prop} {Q : ρ → Db β ν → Prop} {purpose : Quota} {value : ν} {limit : ℕ} {db : Db β ν}
    {k : Bool → Transaction β ν ρ} (hleft : ∀ now, T now → db.quota purpose value (now / hour) < limit)
    (hk : ∀ q, (k true).Total T Q { db with quota := q }) : (quota purpose value limit k).Total T Q db := by
  intro now hnow
  simp only [if_pos (hleft now hnow)]
  exact hk _

theorem store_total {T : ℕ → Prop} {Q : ρ → Db β ν → Prop} {purpose : Purpose} {proof : ν} {context : Context β ν}
    {ttl : ℕ} {k : Transaction β ν ρ} {db : Db β ν} (hnew : db.challenges purpose id = none)
    (hk : ∀ now, T now → k.Total T Q (db.setChallenge purpose id (some ⟨context, proof, 0, now + ttl * 1000⟩))) :
    (store purpose id context proof ttl k).Total T Q db := by
  intro now hnow
  simp only [hnew]
  exact hk now hnow

theorem consume_total {T : ℕ → Prop} {Q : ρ → Db β ν → Prop} {purpose : Purpose} {proof : ν}
    {k : Option (Context β ν) → Transaction β ν ρ} {db : Db β ν} {context : Context β ν} {attempts expiresAt : ℕ}
    (hc : db.challenges purpose id = some ⟨context, proof, attempts, expiresAt⟩) (hattempts : attempts < maxAttempts)
    (hlive : ∀ now, T now → now < expiresAt)
    (hk : (k (some context)).Total T Q ((db.setChallenge purpose id none).note (.compared purpose id true))) :
    (consume purpose id proof k).Total T Q db := by
  intro now hnow
  have hread : db.live purpose id now = some ⟨context, proof, attempts, expiresAt⟩ := by
    simp [Db.live, hc, hlive now hnow, hattempts]
  simp only [hread, ne_eq, not_true_eq_false, if_false]
  intro now hnow
  have hself : ∀ c, ((db.setChallenge purpose id (some c)).note (.compared purpose id true)).challenges purpose id =
      some c := fun c => setChallenge_self _ _ _ _
  have hclear : ∀ c, ((db.setChallenge purpose id (some c)).note (.compared purpose id true)).setChallenge purpose id
      none = (db.setChallenge purpose id none).note (.compared purpose id true) := by
    simp [Db.setChallenge, Db.note]
  simp only [decide_true, hself, Tx.Total, hclear]
  exact hk

theorem requestLogin_total {db : Db β ν} (h : Standing userId epoch bound key token db)
    (hsize : ∀ k, key = some k → P.size k = identityLength) (hlogin : db.challenges .login id = none)
    (hquota : WithinQuota bound.email start db) :
    (requestLogin P bound.email id otp).Total (Within start) (fun deliver w =>
      deliver = key.isSome ∧ Challenged userId epoch bound key start id otp token w) db := by
  rw [requestLogin, Tx.Total]
  refine quota_total hquota fun q => ?_
  rw [Bool.not_true, if_neg Bool.false_ne_true]
  intro now hnow
  have hby : Db.bindingBy bound.email { db with quota := q } = some bound := by simp [Db.bindingBy, h.binding]
  simp only [hby]
  intro now hnow
  obtain ⟨registrationId, hacc⟩ := (h.quota q).account
  have howner := h.owner
  subst howner
  simp only [hacc]
  refine store_total hlogin fun now hnow => ?_
  cases key with
  | none =>
    exact ⟨rfl, (h.quota q).challenge hnow rfl⟩
  | some k =>
    have hsize := hsize k rfl
    simp only [Option.any_some, hsize, decide_true, if_true]
    exact ⟨rfl, (h.quota q).challenge hnow ⟨rfl, rfl, rfl, rfl, rfl, rfl⟩⟩

variable [DecidableEq β]

theorem verifyLogin_obtains {signature : ν} {last : Db β ν} (hid : P.saneId id)
    (h : Challenged userId epoch bound key start id otp token last) :
    (verifyLogin P ⟨id, otp, signature⟩ token).Obtains (Within start) (Undisturbed id token) (fun grant _ =>
      grant.map (fun g => (g.recoveryToken, g.userId, g.identityPublicKey)) = key.map fun k => (token, userId, some k))
      last := by
  unfold verifyLogin readChallenge
  rw [if_pos hid]
  intro now w hnow hw
  obtain ⟨context, expiresAt, hc, hexpires, hissued⟩ := (h.mono hw).login
  have hread : w.live .login id now = some ⟨context, otp, 0, expiresAt⟩ := by
    simp [Db.live, hc, maxAttempts, Nat.lt_of_lt_of_le hnow.2 hexpires]
  simp only [hread]
  intro w' hw' now hnow
  have h' := ((h.mono hw).mono hw').toStanding
  refine consume_total (hw'.login.trans hc) (by decide) (fun t ht => Nat.lt_of_lt_of_le ht.2 hexpires) ?_
  cases key with
  | none =>
    have hdead : context.userId = none := hissued
    simp only [hdead, Option.bind_none]
    rfl
  | some k =>
    obtain ⟨huser, hemail, hversion, hepoch, hprotocol, hidentity⟩ := hissued
    obtain ⟨registrationId, haccount⟩ := h'.account
    simp only [huser, Option.bind_some, haccount]
    intro now hnow
    have h'' : Standing userId epoch bound (some k) token
        ((w'.setChallenge .login id none).note (.compared .login id true)) := (h'.setLogin none).note _
    have hcurrent : Db.currentBinding context ⟨epoch, .olm, some k, registrationId⟩ userId
        ((w'.setChallenge .login id none).note (.compared .login id true)) := by
      simp [Db.currentBinding, Db.bindingOf, h''.owner, h''.binding, hemail, hversion, hepoch, hprotocol, hidentity]
    simp only [hcurrent, Bool.not_true, Bool.false_eq_true, if_false]
    refine store_total h''.unused fun now hnow t ht => ?_
    simp [Tx.Total, hidentity]

end Login

variable [DecidableEq β] [DecidableEq ν]

abbrev Accounts (β ν : Type) := Tx.System ℕ (Db β ν) (Answer β ν) (Op β ν)

/-- **An account with a recovery binding can be recovered exactly while it has a signing key on record.**  In any state
that any interleaving of any calls reaches, a login request for the bound address, within its quota, and then the right
code for it within ten minutes run to their commits, unless something else makes them fail; the code is answered with a
grant for the account if and only if there is a signing key.  Others may go on meanwhile if they leave the binding, the
epoch and the key alone and do not spend the challenge. -/
theorem recoverable_run {P : Crypto β ν} {userId : ν} {s : Accounts β ν} {es : List (Tx.Event ℕ (Op β ν))}
    (hr : run (Tx.System.step (program P)) (Tx.System.init (Db.unregistered userId)) es = some s) {u : Users β ν}
    {bound : Binding ν} (hu : s.db.users = some u) (hbound : s.db.binding = some bound) {start : ℕ} {id otp token : ν}
    (hid : P.saneId id) (hlogin : s.db.challenges .login id = none) (htoken : s.db.challenges .complete token = none)
    (hquota : WithinQuota bound.email start s.db) (signature : ν) (c d : ℕ) :
    s.Yields (program P) (Within start) (Spared bound.email start id token) c (.requestLogin bound.email id otp)
      fun answer s' => answer = .delivered u.signingPublicKey.isSome ∧
        s'.Yields (program P) (Within start) (Undisturbed id token) d (.verifyLogin ⟨id, otp, signature⟩ token)
          fun answer _ => ∃ grant, answer = .grant grant ∧
            grant.map (fun g => (g.recoveryToken, g.userId, g.identityPublicKey)) =
              u.signingPublicKey.map fun key => (token, s.db.userId, some key) := by
  have hsized : Sized P s.db := Tx.guarded_run program_guarded (sized_unregistered userId) hr
  have hstanding : Standing s.db.userId u.credentialEpoch bound u.signingPublicKey token s.db :=
    ⟨rfl, hbound, by rw [hu, Option.map_some], htoken⟩
  have hrequest : (program P (.requestLogin bound.email id otp)).Obtains (Within start)
      (Spared bound.email start id token) (fun answer w => answer = .delivered u.signingPublicKey.isSome ∧
        Challenged s.db.userId u.credentialEpoch bound u.signingPublicKey start id otp token w) s.db := by
    refine Tx.Obtains.map fun w hw => ?_
    refine (requestLogin_total (P := P) (hstanding.mono hw.1) (hsized u hu) (hw.1.login.trans hlogin)
      (hw.2 hquota)).imp fun deliver w h => ⟨?_, h.2⟩
    rw [h.1]
  refine (hrequest.yields (spared_refl _ _ _ _) (spared_trans _ _ _ _) c).imp fun answer s' h => ?_
  obtain ⟨w, hw, rfl, hchallenged⟩ := h
  refine ⟨rfl, ?_⟩
  have hverify : (program P (.verifyLogin ⟨id, otp, signature⟩ token)).Obtains (Within start) (Undisturbed id token)
      (fun answer _ => ∃ grant, answer = .grant grant ∧
        grant.map (fun g => (g.recoveryToken, g.userId, g.identityPublicKey)) =
          u.signingPublicKey.map fun key => (token, s.db.userId, some key)) s'.db := by
    exact ((verifyLogin_obtains hid (hchallenged.mono hw.1)).imp fun grant _ h => ⟨grant, rfl, h⟩).map
  exact (hverify.yields (undisturbed_refl _ _) (undisturbed_trans _ _) d).imp fun _ _ ⟨_, _, h⟩ => h

/-- Call `c`, in its `n` statements. -/
def alone (c : ℕ) (x : Op ℕ ℕ) (n : ℕ) : List (Tx.Event ℕ (Op ℕ ℕ)) := .start c x :: List.replicate n (.exec c 0)

def enrolledAccount : List (Tx.Event ℕ (Op ℕ ℕ)) :=
  alone 0 (.register (some 2) 3 false ⟨10, 20, 0, 0⟩) 6 ++ alone 1 (.setIdentity 1 31 32 (some 10)) 4

theorem recoverable_enrolled :
    ∃ s : Accounts ℕ ℕ, run (Tx.System.step (program plainCrypto)) (Tx.System.init (Db.unregistered 1))
      enrolledAccount =
        some s ∧
      s.Yields (program plainCrypto) (Within 0) (Spared 2 0 50 51) 2 (.requestLogin 2 50 6) fun answer s' =>
        answer = .delivered true ∧
          s'.Yields (program plainCrypto) (Within 0) (Undisturbed 50 51) 3 (.verifyLogin ⟨50, 6, 0⟩ 51) fun answer _ =>
            ∃ grant, answer = .grant grant ∧
              grant.map (fun g => (g.recoveryToken, g.userId, g.identityPublicKey)) = some (51, 1, some 32) := by
  obtain ⟨s, hs, hu, hbound, huser, hlogin, htoken, hquota⟩ :
      ∃ s : Accounts ℕ ℕ, run (Tx.System.step (program plainCrypto)) (Tx.System.init (Db.unregistered 1))
        enrolledAccount =
          some s ∧
        s.db.users = some ⟨10, 20, none, some 31, some 32, none, none, none, none, 0, none⟩ ∧
        s.db.binding = some ⟨2, 3⟩ ∧ s.db.userId = 1 ∧ s.db.challenges .login 50 = none ∧
        s.db.challenges .complete 51 = none ∧ s.db.quota .loginEmail 2 0 = 0 :=
    exists_run _ _ _ (by decide +kernel)
  have hleft : WithinQuota 2 0 s.db := by
    intro now hnow
    have hhour : now / hour = 0 := Nat.div_eq_of_lt (Nat.lt_trans hnow.2 (by decide))
    rw [hhour, hquota]
    decide
  exact ⟨s, hs, huser ▸ recoverable_run hs hu hbound rfl hlogin htoken hleft 0 2 3⟩

def stoppedReplacement : List (Tx.Event ℕ (Op ℕ ℕ)) :=
  enrolledAccount ++ alone 2 (.requestLogin 2 50 6) 9 ++ alone 3 (.verifyLogin ⟨50, 6, 0⟩ 51) 12 ++
    alone 4 (.complete ⟨51, 8, .replace, .olm, 33, 6, 0, none⟩ ⟨11, 21, 1, 2⟩) 18 ++
    alone 5 (.requestLogin 2 60 7) 9 ++ alone 6 (.verifyLogin ⟨60, 7, 0⟩ 61) 8

/-- **The right code of a bound address that obtains no grant**, as the replacement has removed the signing key. -/
theorem recoverable_stopped :
    ∃ s : Accounts ℕ ℕ,
      run (Tx.System.step (program plainCrypto)) (Tx.System.init (Db.unregistered 1)) stoppedReplacement = some s ∧
        s.db.binding = some ⟨2, 3⟩ ∧
        s.log.map Tx.Entry.result = [.yes true, .ok, .delivered true,
          .grant (some ⟨51, 1, some .olm, some 32, 1, 300, false⟩), .completed (.success ⟨1, 12, 23, true⟩),
          .delivered false, .grant none] :=
  exists_run _ _ _ (by decide +kernel)

end Recovery
end SecureChat
