import SecureChat.UserRegistry
/-!
# RegistryConsistency — the caches of the registry agree with its table

A request that has written a row has its account to itself until it has written both caches (`Inv.apart`), and what it
has still to do makes up for what is wrong in them: an account that `cacheByUserId` has not as the table has it is still
to be put there, and so for its token; a token that leads to no row is still to be removed.  The caches break when a
deletion commits between another request's transaction and its cache operations, which bring the account back.
-/
namespace SecureChat
namespace Registry

variable {U T K : Type}

def Operation.touches : Operation U T K → List U
  | .caching steps => steps.map fun x => x.user.userId
  | .purging u _ | .purgingToken u _ _ | .purged u _ => [u]
  | _ => []

/-- The operation will write the account's entry of `cacheByUserId`. -/
def Operation.Settles (u : U) : Operation U T K → Prop
  | .caching steps => ∃ r, .putUser r ∈ steps ∧ r.userId = u
  | .purging v _ => v = u
  | _ => False

/-- The operation will lead the token of `r` to `r`. -/
def Operation.Leads (r : RegisteredUser U T K) : Operation U T K → Prop
  | .caching steps => .putToken r ∈ steps
  | _ => False

section Deq

variable [DecidableEq U]

/-- The operation will remove the token of `r` if it leads to `r`. -/
def Operation.Drops (s : UserRegistry U T K) (r : RegisteredUser U T K) : Operation U T K → Prop
  | .caching steps => .removeToken r ∈ steps
  | .purging u _ => r.userId = u ∧ s.cacheByUserId.get u = some r
  | .purgingToken u removed _ => r.userId = u ∧ r = removed
  | _ => False

/-- What is put is the account's row; a row's token that is removed is put again. -/
def CachesRows (d : Users U T K) : List (CacheStep U T K) → Prop
  | [] => True
  | .removeToken r :: rest => (d.findByUserId r.userId = some r → .putToken r ∈ rest) ∧ CachesRows d rest
  | .putToken r :: rest => d.findByUserId r.userId = some r ∧ CachesRows d rest
  | .putUser r :: rest => d.findByUserId r.userId = some r ∧ CachesRows d rest

def Operation.Fits (D : Directory T K) (d : Users U T K) : Operation U T K → Prop
  | .lookingUp _ token | .findingOwner _ token
  | .replacing _ token => D.validateToken token = some token
  | .reclaiming owner claimant _ => owner.userId ≠ claimant.userId
  | .caching steps => CachesRows d steps
  | .purging u _ | .purged u _ => d.findByUserId u = none
  | .purgingToken u removed _ => d.findByUserId u = none ∧ removed.userId = u
  | _ => True

variable [DecidableEq T]

/-- **What every run keeps whose steps meet the condition.** -/
structure Inv (D : Directory T K) (s : UserRegistry U T K) (ts : List (Operation U T K)) : Prop where
  fits : ∀ g ∈ ts, g.Fits D s.users
  apart : ts.Pairwise fun g h => ∀ u ∈ g.touches, ¬ u ∈ h.touches
  keyed : ∀ u r, s.cacheByUserId.get u = some r → r.userId = u
  settled : ∀ u, s.cacheByUserId.get u = s.users.findByUserId u ∨ ∃ g ∈ ts, g.Settles u
  led : ∀ r, s.users.findByUserId r.userId = some r →
    s.cacheByDirectoryToken.get r.directoryToken = some r ∨ ∃ g ∈ ts, g.Leads r
  dropped : ∀ t r, s.cacheByDirectoryToken.get t = some r →
    r.directoryToken = t ∧ (s.users.findByUserId r.userId = some r ∨ ∃ g ∈ ts, g.Drops s r)

def Free (u : U) (o : List (Operation U T K)) : Prop := ∀ g ∈ o, ¬ u ∈ g.touches

/-- No other request has still to write the account's caches, and the record in hand is its row. -/
def Own (s : UserRegistry U T K) (r : RegisteredUser U T K) (o : List (Operation U T K)) : Prop :=
  Free r.userId o ∧ s.users.findByUserId r.userId = some r

/-- **The condition under which the caches agree with the table**: a transaction that writes the rows of accounts, or a
deletion, commits while no other request has still to write their caches, and with the rows as it has read them. -/
def Undisturbed [DecidableEq K] (D : Directory T K) (s : UserRegistry U T K) (h : Operation U T K) (e : Reading T)
    (o : List (Operation U T K)) : Prop :=
  match h with
  | .registering u =>
    (s.users.insertUser ⟨u, e.pendingDirectoryToken, (none : Option K)⟩).isSome = true → Free u o
  | .reclaiming owner claimant token =>
    (reclaimRows D s.users owner claimant token e.pendingDirectoryToken).isSome = true →
      Own s owner o ∧ Own s claimant o
  | .replacing user token => (replaceRow D s.users user token).isSome = true → Own s user o
  | .deleting u => e.fails = false → Free u o
  | _ => True

/-! ## What the transactions do -/

namespace Users

variable {d d' : Users U T K} {u v : U} {t : T} {row : Row T K} {user r r' : RegisteredUser U T K} {keyId : Option K}

omit [DecidableEq T] in
theorem userId_of_find (h : d.findByUserId u = some r) : r.userId = u := by
  obtain ⟨row, -, rfl⟩ := Option.map_eq_some_iff.1 h
  rfl

omit [DecidableEq T] in
theorem find_inj (h : d.findByUserId u = some r) (h' : d.findByUserId v = some r')
    (ht : r.directoryToken = r'.directoryToken) : r = r' := by
  obtain ⟨row, hrow, rfl⟩ := Option.map_eq_some_iff.1 h
  obtain ⟨row', hrow', rfl⟩ := Option.map_eq_some_iff.1 h'
  have huv : u = v := d.unique u v row row' hrow hrow' ht
  subst huv
  cases hrow.symm.trans hrow'
  rfl

omit [DecidableEq T] in
theorem find_delete (u v : U) : (d.delete u).findByUserId v = if v = u then none else d.findByUserId v := by
  unfold findByUserId delete
  simp only [Table.get_remove]
  by_cases hv : v = u
  · simp [hv]
  · simp [hv]

theorem find_write (h : d.write u row = some d') (v : U) :
    d'.findByUserId v = if v = u then some (record u row) else d.findByUserId v := by
  unfold write at h
  split at h
  · cases h
    unfold findByUserId
    simp only [Table.get_put]
    by_cases hv : v = u
    · simp [hv]
    · simp [hv]
  · cases h

theorem insertUser_spec (h : d.insertUser user = some d') : d.findByUserId user.userId = none ∧
    ∀ v, d'.findByUserId v = if v = user.userId then some user else d.findByUserId v := by
  unfold insertUser at h
  split at h
  · cases h
  · rename_i hnone
    exact ⟨by rw [findByUserId, hnone, Option.map_none], find_write h⟩

theorem compareAndSet_spec (h : d.compareAndSet user t keyId = some d') (v : U) :
    d'.findByUserId v = if v = user.userId then some ⟨user.userId, t, keyId⟩ else d.findByUserId v := by
  unfold compareAndSet at h
  split at h
  · cases h
  · split at h
    · exact find_write h v
    · cases h

theorem find_setIdentities {identities : Identities} (h : d.setIdentities u identities = some d') (v : U) :
    d'.findByUserId v = d.findByUserId v := by
  unfold setIdentities at h
  split at h
  · cases h
  · rename_i row hrow
    rw [find_write h]
    split
    · rename_i hv
      rw [hv, findByUserId, hrow]
      rfl
    · rfl

end Users

section Transactions

variable [DecidableEq K] {D : Directory T K} {d d' : Users U T K} {user owner claimant : RegisteredUser U T K}
  {token pending : T}

omit [DecidableEq K] in
theorem replaceRow_spec (h : replaceRow D d user token = some d') : ∃ valid, D.validateToken token = some valid ∧
    ∀ v, d'.findByUserId v = if v = user.userId then some (migrated D user valid) else d.findByUserId v := by
  obtain ⟨valid, hvalid, h⟩ := Option.bind_eq_some_iff.1 h
  exact ⟨valid, hvalid, Users.compareAndSet_spec h⟩

omit [DecidableEq K] in
theorem reclaimRows_spec (h : reclaimRows D d owner claimant token pending = some d') (v : U) :
    d'.findByUserId v = if v = claimant.userId then some (migrated D claimant token)
      else if v = owner.userId then some (released owner pending) else d.findByUserId v := by
  unfold reclaimRows at h
  split at h
  · obtain ⟨d₁, h₁, h₂⟩ := Option.bind_eq_some_iff.1 h
    rw [Users.compareAndSet_spec h₂, Users.compareAndSet_spec h₁]
    rfl
  · cases h

end Transactions

/-! ## What an operation touches -/

section Operations

variable {D : Directory T K} {d d' : Users U T K} {s s' : UserRegistry U T K} {u : U} {r : RegisteredUser U T K}
  {g : Operation U T K}

omit [DecidableEq U] [DecidableEq T] in
theorem Operation.Settles.touches (h : g.Settles u) : u ∈ g.touches := by
  cases g with
  | caching steps =>
    obtain ⟨r, hr, rfl⟩ := h
    exact List.mem_map_of_mem hr
  | purging v n => exact List.mem_singleton.2 h.symm
  | _ => exact h.elim

omit [DecidableEq U] [DecidableEq T] in
theorem Operation.Leads.touches (h : g.Leads r) : r.userId ∈ g.touches := by
  cases g with
  | caching steps => exact List.mem_map_of_mem h
  | _ => exact h.elim

omit [DecidableEq T] in
theorem Operation.Drops.touches (h : g.Drops s r) : r.userId ∈ g.touches := by
  cases g with
  | caching steps => exact List.mem_map_of_mem h
  | purging v n => exact List.mem_singleton.2 h.1
  | purgingToken v removed n => exact List.mem_singleton.2 h.1
  | _ => exact h.elim

omit [DecidableEq T] in
theorem Operation.Drops.congr (h : g.Drops s r)
    (hs : ∀ u ∈ g.touches, s'.cacheByUserId.get u = s.cacheByUserId.get u) : g.Drops s' r := by
  cases g with
  | purging v n => exact ⟨h.1, (hs v List.mem_cons_self).trans h.2⟩
  | _ => exact h

omit [DecidableEq T] in
theorem CachesRows.congr {steps : List (CacheStep U T K)} (h : CachesRows d steps)
    (hd : ∀ x ∈ steps, d'.findByUserId x.user.userId = d.findByUserId x.user.userId) : CachesRows d' steps := by
  induction steps with
  | nil => trivial
  | cons x rest ih =>
    have hrest := fun hr => ih hr fun y hy => hd y (List.mem_cons_of_mem _ hy)
    have hx := hd x List.mem_cons_self
    cases x with
    | removeToken r => exact ⟨fun hr => h.1 (hx.symm.trans hr), hrest h.2⟩
    | putToken r => exact ⟨hx.trans h.1, hrest h.2⟩
    | putUser r => exact ⟨hx.trans h.1, hrest h.2⟩

omit [DecidableEq T] in
theorem Operation.Fits.congr (h : g.Fits D d) (hd : ∀ u ∈ g.touches, d'.findByUserId u = d.findByUserId u) :
    g.Fits D d' := by
  cases g with
  | caching steps => exact CachesRows.congr h fun x hx => hd _ (List.mem_map_of_mem hx)
  | purging v n => exact (hd v List.mem_cons_self).trans h
  | purgingToken v removed n => exact ⟨(hd v List.mem_cons_self).trans h.1, h.2⟩
  | purged v n => exact (hd v List.mem_cons_self).trans h
  | _ => exact h

end Operations

/-! ## The steps -/

section Steps

variable {D : Directory T K} {s s' : UserRegistry U T K} {h h' : Operation U T K} {o : List (Operation U T K)} {u : U}
  {n : ℕ}

theorem Inv.free (hi : Inv D s (h :: o)) (hu : u ∈ h.touches) : Free u o := fun g hg =>
  (List.pairwise_cons.1 hi.apart).1 g hg u hu

/-- An account that no other request touches is in `cacheByUserId` as the table has it, or the one that moves will put
it there. -/
theorem Inv.settled_or (hi : Inv D s (h :: o)) (hn : ∀ g ∈ o, ¬ g.Settles u) :
    s.cacheByUserId.get u = s.users.findByUserId u ∨ h.Settles u := by
  rcases hi.settled u with he | ⟨g, hg, hs⟩
  · exact .inl he
  · rcases List.mem_cons.1 hg with rfl | hg
    · exact .inr hs
    · exact absurd hs (hn g hg)

theorem Inv.led_or (hi : Inv D s (h :: o)) {r : RegisteredUser U T K} (hr : s.users.findByUserId r.userId = some r)
    (hn : ∀ g ∈ o, ¬ g.Leads r) : s.cacheByDirectoryToken.get r.directoryToken = some r ∨ h.Leads r := by
  rcases hi.led r hr with he | ⟨g, hg, hs⟩
  · exact .inl he
  · rcases List.mem_cons.1 hg with rfl | hg
    · exact .inr hs
    · exact absurd hs (hn g hg)

theorem Inv.dropped_or (hi : Inv D s (h :: o)) {t : T} {r : RegisteredUser U T K}
    (hr : s.cacheByDirectoryToken.get t = some r) (hn : ∀ g ∈ o, ¬ g.Drops s r) :
    s.users.findByUserId r.userId = some r ∨ h.Drops s r := by
  rcases (hi.dropped t r hr).2 with he | ⟨g, hg, hs⟩
  · exact .inl he
  · rcases List.mem_cons.1 hg with rfl | hg
    · exact .inr hs
    · exact absurd hs (hn g hg)

/-- What a step has to show: the others find their accounts as they were, and what they do not make up for is right or
still to be done by the request that moves. -/
theorem Inv.next (hi : Inv D s (h :: o)) (hfits : h'.Fits D s'.users) (hfree : ∀ u ∈ h'.touches, Free u o)
    (hsame : ∀ g ∈ o, ∀ u ∈ g.touches, s'.users.findByUserId u = s.users.findByUserId u ∧
      s'.cacheByUserId.get u = s.cacheByUserId.get u)
    (hkeyed : ∀ u r, s'.cacheByUserId.get u = some r → r.userId = u)
    (hsettled : ∀ u, (∀ g ∈ o, ¬ g.Settles u) →
      s'.cacheByUserId.get u = s'.users.findByUserId u ∨ h'.Settles u)
    (hled : ∀ r, s'.users.findByUserId r.userId = some r → (∀ g ∈ o, ¬ g.Leads r) →
      s'.cacheByDirectoryToken.get r.directoryToken = some r ∨ h'.Leads r)
    (hdropped : ∀ t r, s'.cacheByDirectoryToken.get t = some r → r.directoryToken = t ∧
      ((∀ g ∈ o, ¬ g.Drops s r) → s'.users.findByUserId r.userId = some r ∨ h'.Drops s' r)) :
    Inv D s' (h' :: o) where
  fits g hg := by
    rcases List.mem_cons.1 hg with rfl | hg
    · exact hfits
    · exact (hi.fits g (List.mem_cons_of_mem _ hg)).congr fun u hu => (hsame g hg u hu).1
  apart := List.pairwise_cons.2 ⟨fun g hg u hu => hfree u hu g hg, (List.pairwise_cons.1 hi.apart).2⟩
  keyed := hkeyed
  settled u := by
    by_cases ho : ∃ g ∈ o, g.Settles u
    · exact .inr (ho.imp fun g hg => ⟨List.mem_cons_of_mem _ hg.1, hg.2⟩)
    · exact (hsettled u fun g hg hs => ho ⟨g, hg, hs⟩).imp_right fun hs => ⟨h', List.mem_cons_self, hs⟩
  led r hr := by
    by_cases ho : ∃ g ∈ o, g.Leads r
    · exact .inr (ho.imp fun g hg => ⟨List.mem_cons_of_mem _ hg.1, hg.2⟩)
    · exact (hled r hr fun g hg hs => ho ⟨g, hg, hs⟩).imp_right fun hs => ⟨h', List.mem_cons_self, hs⟩
  dropped t r hr := by
    obtain ⟨ht, hd⟩ := hdropped t r hr
    refine ⟨ht, ?_⟩
    by_cases ho : ∃ g ∈ o, g.Drops s r
    · obtain ⟨g, hg, hs⟩ := ho
      exact .inr ⟨g, List.mem_cons_of_mem _ hg, hs.congr fun u hu => (hsame g hg u hu).2⟩
    · exact (hd fun g hg hs => ho ⟨g, hg, hs⟩).imp_right fun hs => ⟨h', List.mem_cons_self, hs⟩

theorem Inv.same (hi : Inv D s (h :: o)) (hfits : h'.Fits D s.users) (htouches : ∀ u ∈ h'.touches, u ∈ h.touches)
    (hsettles : ∀ u, h.Settles u → s.cacheByUserId.get u = s.users.findByUserId u ∨ h'.Settles u)
    (hleads : ∀ r, h.Leads r → h'.Leads r) (hdrops : ∀ r, h.Drops s r → h'.Drops s r) : Inv D s (h' :: o) := by
  refine hi.next hfits (fun u hu => hi.free (htouches u hu)) (fun _ _ _ _ => ⟨rfl, rfl⟩) hi.keyed (fun u hn => ?_)
    (fun r hr hn => (hi.led_or hr hn).imp_right (hleads r)) fun t r hr => ⟨(hi.dropped t r hr).1, fun hn => ?_⟩
  · rcases hi.settled_or hn with he | hs
    · exact .inl he
    · exact hsettles u hs
  · exact (hi.dropped_or hr hn).imp_right (hdrops r)

theorem Inv.read (hi : Inv D s (h :: o)) (hfits : h'.Fits D s.users) (hh : h.touches = []) (hh' : h'.touches = []) :
    Inv D s (h' :: o) := by
  have hnone : ∀ u, ¬ u ∈ h.touches := fun u hu => by
    rw [hh] at hu
    exact List.not_mem_nil hu
  refine hi.same hfits (fun u hu => ?_) (fun u hs => absurd hs.touches (hnone u))
    (fun r hl => absurd hl.touches (hnone _)) fun r hd => absurd hd.touches (hnone _)
  rw [hh'] at hu
  cases hu

theorem Inv.setUsers {ts : List (Operation U T K)} {d : Users U T K} (hi : Inv D s ts)
    (hd : ∀ u, d.findByUserId u = s.users.findByUserId u) : Inv D (s.setUsers d) ts where
  fits g hg := (hi.fits g hg).congr fun u _ => hd u
  apart := hi.apart
  keyed := hi.keyed
  settled u := (hi.settled u).imp_left fun he => he.trans (hd u).symm
  led r hr := hi.led r ((hd _).symm.trans hr)
  dropped t r hr := (hi.dropped t r hr).imp_right fun hd' => hd'.imp_left fun hf => (hd _).trans hf

theorem Inv.write (hi : Inv D s (h :: o)) (hh : h.touches = []) {d : Users U T K} {steps : List (CacheStep U T K)}
    (hfree : ∀ x ∈ steps, Free x.user.userId o) (hfits : CachesRows d steps)
    (hothers : ∀ u, (∀ x ∈ steps, x.user.userId ≠ u) → d.findByUserId u = s.users.findByUserId u)
    (hput : ∀ x ∈ steps, ∃ r, .putUser r ∈ steps ∧ r.userId = x.user.userId)
    (hlead : ∀ x ∈ steps, ∀ r, d.findByUserId x.user.userId = some r → .putToken r ∈ steps)
    (hdrop : ∀ x ∈ steps, ∀ r, s.users.findByUserId x.user.userId = some r → .removeToken r ∈ steps) :
    Inv D (s.setUsers d) (.caching steps :: o) := by
  have hnone : ∀ u, ¬ u ∈ h.touches := fun u hu => by
    rw [hh] at hu
    exact List.not_mem_nil hu
  have hmem : ∀ u, (∃ x ∈ steps, x.user.userId = u) ∨ d.findByUserId u = s.users.findByUserId u := fun u => by
    by_cases hu : ∃ x ∈ steps, x.user.userId = u
    · exact .inl hu
    · exact .inr (hothers u fun x hx he => hu ⟨x, hx, he⟩)
  refine hi.next hfits (fun u hu => ?_) (fun g hg u hu => ⟨?_, rfl⟩) hi.keyed (fun u hn => ?_) (fun r hr hn => ?_)
    fun t r hr => ⟨(hi.dropped t r hr).1, fun hn => ?_⟩
  · obtain ⟨x, hx, rfl⟩ := List.mem_map.1 hu
    exact hfree x hx
  · exact hothers u fun x hx he => hfree x hx g hg (he ▸ hu)
  · rcases hmem u with ⟨x, hx, rfl⟩ | hu
    · exact .inr (hput x hx)
    · exact .inl (((hi.settled_or hn).resolve_right fun hs => hnone u hs.touches).trans hu.symm)
  · rcases hmem r.userId with ⟨x, hx, hu⟩ | hu
    · exact .inr (hlead x hx r (hu ▸ hr))
    · exact .inl ((hi.led_or (hu ▸ hr) hn).resolve_right fun hs => hnone _ hs.touches)
  · have hold := (hi.dropped_or hr hn).resolve_right fun hs => hnone _ hs.touches
    rcases hmem r.userId with ⟨x, hx, hu⟩ | hu
    · exact .inr (hdrop x hx r (hu ▸ hold))
    · exact .inl (hu.trans hold)

/-- `remove` of a key with its value. -/
theorem get_apply_removeToken {t : T} {r r' : RegisteredUser U T K} [DecidableEq K] :
    (s.apply (.removeToken r)).cacheByDirectoryToken.get t = some r' ↔
      s.cacheByDirectoryToken.get t = some r' ∧ ¬(t = r.directoryToken ∧ r' = r) := by
  unfold UserRegistry.apply
  dsimp only
  split
  · rename_i hget
    rw [Table.get_remove]
    by_cases ht : t = r.directoryToken
    · subst ht
      simp [hget, eq_comm]
    · simp [ht]
  · rename_i hget
    refine ⟨fun h => ⟨h, ?_⟩, fun h => h.1⟩
    rintro ⟨rfl, rfl⟩
    exact hget h

variable [DecidableEq K]

/-- The caches after a removal from `cacheByDirectoryToken`, where nothing but the value removed is lost. -/
theorem Inv.removeToken (hi : Inv D s (h :: o)) {r : RegisteredUser U T K} (hfits : h'.Fits D s.users)
    (htouches : ∀ u ∈ h'.touches, u ∈ h.touches)
    (hsettles : ∀ u, h.Settles u → s.cacheByUserId.get u = s.users.findByUserId u ∨ h'.Settles u)
    (hleads : ∀ r', h.Leads r' → h'.Leads r') (hr : s.users.findByUserId r.userId = some r → h'.Leads r)
    (hdrops : ∀ r', h.Drops s r' → r' = r ∨ h'.Drops s r') : Inv D (s.apply (.removeToken r)) (h' :: o) := by
  have hcache : (s.apply (.removeToken r)).cacheByUserId = s.cacheByUserId := by
    unfold UserRegistry.apply
    dsimp only
    split <;> rfl
  have husers : (s.apply (.removeToken r)).users = s.users := by
    unfold UserRegistry.apply
    dsimp only
    split <;> rfl
  refine hi.next (husers ▸ hfits) (fun u hu => hi.free (htouches u hu)) (fun g hg u hu => ?_) (fun u r' hr' => ?_)
    (fun u hn => ?_) (fun r' hr' hn => ?_) fun t r' hr' => ?_
  · rw [husers, hcache]
    exact ⟨rfl, rfl⟩
  · rw [hcache] at hr'
    exact hi.keyed u r' hr'
  · rw [husers, hcache]
    rcases hi.settled_or hn with he | hs
    · exact .inl he
    · exact hsettles u hs
  · rw [husers] at hr'
    rcases hi.led_or hr' hn with he | hl
    · by_cases hrr : r' = r
      · subst hrr
        exact .inr (hr hr')
      · exact .inl (get_apply_removeToken.2 ⟨he, fun hc => hrr hc.2⟩)
    · exact .inr (hleads r' hl)
  · obtain ⟨hget, hne⟩ := get_apply_removeToken.1 hr'
    have ht := (hi.dropped t r' hget).1
    refine ⟨ht, fun hn => ?_⟩
    rw [husers]
    rcases hi.dropped_or hget hn with hf | hd
    · exact .inl hf
    · refine .inr (((hdrops r' hd).resolve_left fun hrr => hne ⟨?_, hrr⟩).congr fun u _ => by rw [hcache])
      rw [← ht, hrr]

theorem Inv.cacheStep {x : CacheStep U T K} {rest : List (CacheStep U T K)}
    (hi : Inv D s (.caching (x :: rest) :: o)) : Inv D (s.apply x) (.caching rest :: o) := by
  have hfits : CachesRows s.users (x :: rest) := hi.fits _ List.mem_cons_self
  have hsub : ∀ u ∈ (Operation.caching rest).touches, u ∈ (Operation.caching (x :: rest)).touches := fun u hu =>
    List.mem_cons_of_mem _ hu
  have hmem : ∀ y, y ∈ x :: rest → y ≠ x → y ∈ rest := fun y hy hne => (List.mem_cons.1 hy).resolve_left hne
  cases x with
  | removeToken r =>
    refine hi.removeToken hfits.2 hsub (fun u hs => ?_) (fun r' hl => hmem _ hl (by simp)) hfits.1 fun r' hd => ?_
    · obtain ⟨r', hr', hu⟩ := hs
      exact .inr ⟨r', hmem _ hr' (by simp), hu⟩
    · rcases List.mem_cons.1 hd with he | hd
      · cases he
        exact .inl rfl
      · exact .inr hd
  | putToken r =>
    refine hi.next hfits.2 (fun u hu => hi.free (hsub u hu)) (fun _ _ _ _ => ⟨rfl, rfl⟩) hi.keyed (fun u hn => ?_)
      (fun r' hr' hn => ?_) fun t r' hr' => ?_
    · rcases hi.settled_or hn with he | ⟨r', hr', hu⟩
      · exact .inl he
      · exact .inr ⟨r', hmem _ hr' (by simp), hu⟩
    · by_cases hrr : r' = r
      · subst hrr
        exact .inl Table.get_put_self
      · have ht : r'.directoryToken ≠ r.directoryToken := fun ht => hrr (Users.find_inj hr' hfits.1 ht)
        rcases hi.led_or hr' hn with he | hl
        · exact .inl ((Table.get_put_of_ne ht).trans he)
        · exact .inr (hmem _ hl (by simpa using hrr))
    · have hput : (s.cacheByDirectoryToken.put r.directoryToken r).get t = some r' := hr'
      rw [Table.get_put] at hput
      split at hput
      · cases hput
        rename_i ht
        exact ⟨ht.symm, fun _ => .inl hfits.1⟩
      · refine ⟨(hi.dropped t r' hput).1, fun hn => ?_⟩
        rcases hi.dropped_or hput hn with hf | hd
        · exact .inl hf
        · exact .inr (hmem _ hd (by simp))
  | putUser r =>
    have hfree : Free r.userId o := hi.free List.mem_cons_self
    refine hi.next hfits.2 (fun u hu => hi.free (hsub u hu)) (fun g hg u hu => ⟨rfl, ?_⟩) (fun u r' hr' => ?_)
      (fun u hn => ?_) (fun r' hr' hn => ?_) fun t r' hr' => ⟨(hi.dropped t r' hr').1, fun hn => ?_⟩
    · refine Table.get_put_of_ne fun hne => hfree g hg ?_
      rwa [← hne]
    · have hput : (s.cacheByUserId.put r.userId r).get u = some r' := hr'
      rw [Table.get_put] at hput
      split at hput
      · cases hput
        rename_i hu
        exact hu.symm
      · exact hi.keyed u r' hput
    · by_cases hu : u = r.userId
      · subst hu
        exact .inl (Table.get_put_self.trans hfits.1.symm)
      · rcases hi.settled_or hn with he | ⟨r', hr', hu'⟩
        · exact .inl ((Table.get_put_of_ne hu).trans he)
        · refine .inr ⟨r', hmem _ hr' fun he => hu ?_, hu'⟩
          cases he
          exact hu'.symm
    · exact (hi.led_or hr' hn).imp_right fun hl => hmem _ hl (by simp)
    · exact (hi.dropped_or hr' hn).imp_right fun hd => hmem _ hd (by simp)

omit [DecidableEq T] [DecidableEq K] in
theorem cachesRows_recache {d : Users U T K} {user next : RegisteredUser U T K} {rest : List (CacheStep U T K)}
    (hu : next.userId = user.userId) (hnext : d.findByUserId user.userId = some next) (hrest : CachesRows d rest) :
    CachesRows d (recache user next ++ rest) := by
  refine ⟨fun he => ?_, ?_, ?_, hrest⟩
  · cases hnext.symm.trans he
    exact List.mem_cons_self
  · rw [hu]
    exact hnext
  · rw [hu]
    exact hnext

omit [DecidableEq K] in
/-- The first step of `removeUser`. -/
theorem Inv.purge (hi : Inv D s (.purging u n :: o)) {removed : RegisteredUser U T K}
    (hget : s.cacheByUserId.get u = some removed) :
    Inv D (s.removeUserId u) (.purgingToken u removed n :: o) := by
  have hnone : s.users.findByUserId u = none := hi.fits _ List.mem_cons_self
  refine hi.next ⟨hnone, hi.keyed u removed hget⟩ (fun v hv => hi.free hv) (fun g hg v hv => ⟨rfl, ?_⟩)
    (fun v r hr => hi.keyed v r (Table.get_filter_eq_some.1 hr).1) (fun v hn => ?_) (fun r hr hn => ?_)
    fun t r hr => ⟨(hi.dropped t r hr).1, fun hn => ?_⟩
  · exact Table.get_remove_of_ne fun hvu => hi.free List.mem_cons_self g hg (hvu ▸ hv)
  · by_cases hvu : v = u
    · subst hvu
      exact .inl (Table.get_remove_self.trans hnone.symm)
    · refine .inl ((Table.get_remove_of_ne hvu).trans ((hi.settled_or hn).resolve_right fun hs => hvu ?_))
      exact (show u = v from hs).symm
  · exact .inl ((hi.led_or hr hn).resolve_right id)
  · refine (hi.dropped_or hr hn).imp_right fun hd => ⟨hd.1, ?_⟩
    exact Option.some.inj (hd.2.symm.trans hget)

omit [DecidableEq K] in
theorem Inv.delete (hi : Inv D s (.deleting u :: o)) (hfree : Free u o) :
    Inv D (s.setUsers (s.users.delete u)) (.purging u n :: o) := by
  have hget : s.cacheByUserId.get u = s.users.findByUserId u :=
    (hi.settled_or fun g hg hs => hfree g hg hs.touches).resolve_right id
  refine hi.next ((Users.find_delete u u).trans (if_pos rfl)) (fun v hv => ?_) (fun g hg v hv => ⟨?_, rfl⟩) hi.keyed
    (fun v hn => ?_) (fun r hr hn => ?_) fun t r hr => ⟨(hi.dropped t r hr).1, fun hn => ?_⟩
  · cases List.mem_singleton.1 hv
    exact hfree
  · exact (Users.find_delete u v).trans (if_neg fun hvu => hfree g hg (by rwa [← hvu]))
  · by_cases hvu : v = u
    · exact .inr hvu.symm
    · exact .inl (((hi.settled_or hn).resolve_right id).trans ((Users.find_delete u v).trans (if_neg hvu)).symm)
  · have hold := (Users.find_delete u r.userId).symm.trans hr
    split at hold
    · cases hold
    · exact .inl ((hi.led_or hold hn).resolve_right id)
  · have hold := (hi.dropped_or hr hn).resolve_right id
    by_cases hru : r.userId = u
    · exact .inr ⟨hru, hget.trans (hru ▸ hold)⟩
    · exact .inl (((Users.find_delete u r.userId).trans (if_neg hru)).trans hold)

omit [DecidableEq T] in
theorem validate_fits (current : RegisteredUser U T K) (directoryToken : T) (d : Users U T K) [DecidableEq T] :
    (validate D current directoryToken).Fits D d ∧ (validate D current directoryToken).touches = [] := by
  unfold validate
  split
  · exact ⟨trivial, rfl⟩
  · rename_i token htoken
    split
    · exact ⟨trivial, rfl⟩
    · exact ⟨D.canonical _ _ htoken, rfl⟩

omit [DecidableEq T] [DecidableEq K] in
theorem claim_fits {token : T} (ht : D.validateToken token = some token) (current : RegisteredUser U T K)
    (owner : Option (RegisteredUser U T K)) (d : Users U T K) :
    (claim current token owner).Fits D d ∧ (claim current token owner).touches = [] := by
  cases owner with
  | none => exact ⟨ht, rfl⟩
  | some owner =>
    unfold claim
    dsimp only
    split
    · exact ⟨‹_›, rfl⟩
    · exact ⟨ht, rfl⟩

omit [DecidableEq U] [DecidableEq T] [DecidableEq K] in
theorem userId_recache {user next : RegisteredUser U T K} (hu : next.userId = user.userId) :
    ∀ x ∈ recache user next, x.user.userId = user.userId := by
  simp [recache, cache, CacheStep.user, hu]

/-- The transaction of `replaceDirectoryToken`. -/
theorem Inv.replace {e : Reading T} {user : RegisteredUser U T K} {token : T}
    (hi : Inv D s (.replacing user token :: o)) (hok : Undisturbed D s (.replacing user token) e o)
    (hs : exec D s (.replacing user token) e = some (s', h')) : Inv D s' (h' :: o) := by
  have htoken : D.validateToken token = some token := hi.fits _ List.mem_cons_self
  simp only [exec] at hs
  split at hs
  · cases hs
    exact hi.read trivial rfl rfl
  · rename_i users hreplace
    cases hs
    split at hreplace
    · cases hreplace
    · obtain ⟨hfree, hrow⟩ := hok (by rw [hreplace]; rfl)
      obtain ⟨valid, hvalid, hfind⟩ := replaceRow_spec hreplace
      cases htoken.symm.trans hvalid
      have hself := (hfind user.userId).trans (if_pos rfl)
      have hall := userId_recache (show (migrated D user token).userId = user.userId from rfl)
      refine hi.write rfl (fun x hx => hall x hx ▸ hfree) ?_ (fun v hv => ?_) (fun x hx => ?_) (fun x hx r hr => ?_)
        fun x hx r hr => ?_
      · exact (List.append_nil (recache user _)) ▸ cachesRows_recache rfl hself trivial
      · exact (hfind v).trans (if_neg fun hvu => hv _ List.mem_cons_self hvu.symm)
      · exact ⟨migrated D user token, by simp [recache, cache], (hall x hx).symm⟩
      · rw [hall x hx] at hr
        cases hself.symm.trans hr
        simp [recache, cache]
      · rw [hall x hx] at hr
        cases hrow.symm.trans hr
        exact List.mem_cons_self

/-- The transaction of `reclaimFromLegacyAccount`. -/
theorem Inv.reclaim {e : Reading T} {owner claimant : RegisteredUser U T K} {token : T}
    (hi : Inv D s (.reclaiming owner claimant token :: o)) (hok : Undisturbed D s (.reclaiming owner claimant token) e o)
    (hs : exec D s (.reclaiming owner claimant token) e = some (s', h')) : Inv D s' (h' :: o) := by
  have hne : owner.userId ≠ claimant.userId := hi.fits _ List.mem_cons_self
  simp only [exec] at hs
  split at hs
  · cases hs
    exact hi.read trivial rfl rfl
  · rename_i users hreclaim
    cases hs
    split at hreclaim
    · cases hreclaim
    · obtain ⟨⟨hfree, hrow⟩, hfree', hrow'⟩ := hok (by rw [hreclaim]; rfl)
      have hfind := reclaimRows_spec hreclaim
      have hclaimant := (hfind claimant.userId).trans (if_pos rfl)
      have howner := ((hfind owner.userId).trans (if_neg hne)).trans (if_pos rfl)
      have hall := userId_recache (show (released owner e.pendingDirectoryToken).userId = owner.userId from rfl)
      have hall' := userId_recache (show (migrated D claimant token).userId = claimant.userId from rfl)
      refine hi.write rfl (fun x hx => ?_) ?_ (fun v hv => ?_) (fun x hx => ?_) (fun x hx r hr => ?_) fun x hx r hr => ?_
      · rcases List.mem_append.1 hx with hx | hx
        · exact hall x hx ▸ hfree
        · exact hall' x hx ▸ hfree'
      · exact cachesRows_recache rfl howner
          (List.append_nil (recache claimant _) ▸ cachesRows_recache rfl hclaimant trivial)
      · rw [hfind, if_neg, if_neg]
        · exact fun hvu => hv (.removeToken owner) List.mem_cons_self hvu.symm
        · exact fun hvu => hv (.removeToken claimant) (by simp [recache]) hvu.symm
      · rcases List.mem_append.1 hx with hx | hx
        · exact ⟨released owner e.pendingDirectoryToken, by simp [recache, cache], (hall x hx).symm⟩
        · exact ⟨migrated D claimant token, by simp [recache, cache], (hall' x hx).symm⟩
      · rcases List.mem_append.1 hx with hx | hx
        · rw [hall x hx] at hr
          cases howner.symm.trans hr
          simp [recache, cache]
        · rw [hall' x hx] at hr
          cases hclaimant.symm.trans hr
          simp [recache, cache]
      · rcases List.mem_append.1 hx with hx | hx
        · rw [hall x hx] at hr
          cases hrow.symm.trans hr
          simp [recache]
        · rw [hall' x hx] at hr
          cases hrow'.symm.trans hr
          simp [recache]

theorem inv_exec {e : Reading T} (hi : Inv D s (h :: o)) (hok : Undisturbed D s h e o)
    (hs : exec D s h e = some (s', h')) : Inv D s' (h' :: o) := by
  have hfits := hi.fits h List.mem_cons_self
  cases h with
  | registering u =>
    simp only [exec] at hs
    split at hs
    · cases hs
      exact hi.read trivial rfl rfl
    · rename_i users hinsert
      cases hs
      split at hinsert
      · cases hinsert
      · obtain ⟨hnone, hfind⟩ := Users.insertUser_spec hinsert
        have hfree : Free u o := hok (by rw [hinsert]; rfl)
        have hself := (hfind u).trans (if_pos rfl)
        have hall : ∀ x ∈ cache (⟨u, e.pendingDirectoryToken, none⟩ : RegisteredUser U T K), x.user.userId = u := by
          simp [cache, CacheStep.user]
        refine hi.write rfl (fun x hx => hall x hx ▸ hfree) ⟨hself, hself, trivial⟩ (fun v hv => ?_)
          (fun x hx => ⟨_, List.mem_cons_of_mem _ List.mem_cons_self, (hall x hx).symm⟩) (fun x hx r hr => ?_)
          fun x hx r hr => ?_
        · exact (hfind v).trans (if_neg fun hvu => hv _ List.mem_cons_self hvu.symm)
        · rw [hall x hx] at hr
          cases hself.symm.trans hr
          exact List.mem_cons_self
        · rw [hall x hx] at hr
          cases hnone.symm.trans hr
  | updating u t =>
    simp only [exec] at hs
    split at hs
    · rename_i current _
      cases hs
      exact hi.read (validate_fits current t _).1 rfl (validate_fits current t s.users).2
    · cases hs
      exact hi.read trivial rfl rfl
  | findingUser u t =>
    simp only [exec] at hs
    split at hs
    · cases hs
      exact hi.read trivial rfl rfl
    · rename_i current _
      cases hs
      exact hi.read (validate_fits current t _).1 rfl (validate_fits current t s.users).2
  | lookingUp current token =>
    simp only [exec] at hs
    split at hs
    · rename_i owner _
      cases hs
      exact hi.read (claim_fits hfits current _ _).1 rfl (claim_fits hfits current (some owner) s.users).2
    · cases hs
      exact hi.read hfits rfl rfl
  | findingOwner current token =>
    simp only [exec] at hs
    split at hs
    · cases hs
      exact hi.read trivial rfl rfl
    · cases hs
      exact hi.read (claim_fits hfits current _ _).1 rfl (claim_fits hfits current _ s.users).2
  | reclaiming owner claimant token => exact hi.reclaim hok hs
  | replacing user token => exact hi.replace hok hs
  | caching steps =>
    cases steps with
    | nil =>
      cases hs
      exact hi.read trivial rfl rfl
    | cons x rest =>
      cases hs
      exact hi.cacheStep
  | deleting u =>
    simp only [exec] at hs
    split at hs
    · cases hs
      exact hi.read trivial rfl rfl
    · rename_i hfails
      cases hs
      exact hi.delete (hok (by simpa using hfails))
  | purging u n =>
    simp only [exec] at hs
    split at hs
    · rename_i hget
      cases hs
      refine hi.same hfits (fun v hv => hv) (fun v hv => .inl ?_) (fun r hl => hl) fun r hd => ?_
      · cases show u = v from hv
        exact hget.trans hfits.symm
      · cases hget.symm.trans hd.2
    · rename_i removed hget
      cases hs
      exact hi.purge hget
  | purgingToken u removed n =>
    cases hs
    refine hi.removeToken hfits.1 (fun v hv => hv) (fun v hv => hv.elim) (fun r hl => hl.elim) (fun hr => ?_)
      fun r hd => .inl hd.2
    rw [hfits.2, hfits.1] at hr
    cases hr
  | purged u n =>
    cases n with
    | zero =>
      cases hs
      exact hi.same trivial (fun v hv => absurd hv List.not_mem_nil) (fun v hv => hv.elim) (fun r hl => hl)
        fun r hd => hd
    | succ n =>
      simp only [exec] at hs
      split at hs
      · cases hs
        exact hi.same hfits (fun v hv => hv) (fun v hv => hv.elim) (fun r hl => hl) fun r hd => hd.elim
      · cases hs
        exact hi.same trivial (fun v hv => absurd hv List.not_mem_nil) (fun v hv => hv.elim) (fun r hl => hl)
          fun r hd => hd
  | identifying u identities =>
    simp only [exec] at hs
    split at hs
    · cases hs
      exact hi.read trivial rfl rfl
    · rename_i users hset
      cases hs
      split at hset
      · cases hset
      · have hdone : Inv D s (.finished :: o) := hi.read trivial rfl rfl
        exact hdone.setUsers (Users.find_setIdentities hset)
  | finished => cases hs

end Steps

/-! ## The runs -/

section Runs

variable [DecidableEq K] {D : Directory T K}

omit [DecidableEq K] in
theorem inv_perm (s : UserRegistry U T K) (ts ts' : List (Operation U T K)) (hp : ts.Perm ts') (hi : Inv D s ts) :
    Inv D s ts' where
  fits g hg := hi.fits g (hp.mem_iff.2 hg)
  apart := (hp.pairwise_iff fun hgh u hu hu' => hgh u hu' hu).1 hi.apart
  keyed := hi.keyed
  settled u := (hi.settled u).imp_right fun ⟨g, hg, hs⟩ => ⟨g, hp.mem_iff.1 hg, hs⟩
  led r hr := (hi.led r hr).imp_right fun ⟨g, hg, hs⟩ => ⟨g, hp.mem_iff.1 hg, hs⟩
  dropped t r hr := (hi.dropped t r hr).imp_right fun hd => hd.imp_right fun ⟨g, hg, hs⟩ => ⟨g, hp.mem_iff.1 hg, hs⟩

omit [DecidableEq K] in
theorem inv_spawn (s : UserRegistry U T K) (ts : List (Operation U T K)) (x : Request U T) (hi : Inv D s ts) :
    Inv D s (spawn x :: ts) := by
  have hx : (spawn x : Operation U T K).Fits D s.users ∧ (spawn x : Operation U T K).touches = [] := by
    cases x with
    | _ => exact ⟨trivial, rfl⟩
  refine ⟨fun g hg => ?_, List.pairwise_cons.2 ⟨fun g _ u hu => ?_, hi.apart⟩, hi.keyed, fun u => ?_, fun r hr => ?_,
    fun t r hr => (hi.dropped t r hr).imp_right fun hd => ?_⟩
  · rcases List.mem_cons.1 hg with rfl | hg
    · exact hx.1
    · exact hi.fits g hg
  · rw [hx.2] at hu
    cases hu
  · exact (hi.settled u).imp_right fun ⟨g, hg, hs⟩ => ⟨g, List.mem_cons_of_mem _ hg, hs⟩
  · exact (hi.led r hr).imp_right fun ⟨g, hg, hs⟩ => ⟨g, List.mem_cons_of_mem _ hg, hs⟩
  · exact hd.imp_right fun ⟨g, hg, hs⟩ => ⟨g, List.mem_cons_of_mem _ hg, hs⟩

omit [DecidableEq K] in
theorem consistent_loadFromDb (d : Users U T K) : Consistent (UserRegistry.loadFromDb d) := by
  have hentries : d.rows.entries.Nodup := List.Nodup.of_map _ d.rows.nodup
  constructor
  · intro u
    ext r
    have hkeys : ((d.rows.entries.map fun e => (e.1, Users.record e.1 e.2)).map Prod.fst).Nodup := by
      rw [List.map_map]
      exact d.rows.nodup
    refine (Table.get_ofList hkeys).trans ?_
    rw [List.mem_map, Users.findByUserId, Option.map_eq_some_iff]
    constructor
    · rintro ⟨e, he, heq⟩
      obtain ⟨rfl, rfl⟩ := Prod.mk.inj heq
      exact ⟨e.2, Table.get_eq_some.2 he, rfl⟩
    · rintro ⟨row, hrow, rfl⟩
      exact ⟨(u, row), Table.get_eq_some.1 hrow, rfl⟩
  · intro t r
    have htokens : ((d.rows.entries.map fun e => (e.2.directoryToken, Users.record e.1 e.2)).map Prod.fst).Nodup := by
      rw [List.map_map]
      refine hentries.map_on fun x hx y hy hxy => ?_
      have hu : x.1 = y.1 := d.unique x.1 y.1 x.2 y.2 (Table.get_eq_some.2 hx) (Table.get_eq_some.2 hy) hxy
      exact List.inj_on_of_nodup_map d.rows.nodup hx hy hu
    refine (Table.get_ofList htokens).trans ?_
    rw [List.mem_map, Users.findByUserId, Option.map_eq_some_iff]
    constructor
    · rintro ⟨e, he, heq⟩
      obtain ⟨rfl, rfl⟩ := Prod.mk.inj heq
      exact ⟨rfl, e.2, Table.get_eq_some.2 he, rfl⟩
    · rintro ⟨rfl, row, hrow, hrec⟩
      refine ⟨(r.userId, row), Table.get_eq_some.1 hrow, ?_⟩
      exact Prod.ext (congrArg RegisteredUser.directoryToken hrec) hrec

omit [DecidableEq K] in
theorem Consistent.inv {s : UserRegistry U T K} (h : Consistent s) : Inv D s [] where
  fits _ hg := absurd hg List.not_mem_nil
  apart := List.Pairwise.nil
  keyed u _ hr := Users.userId_of_find ((h.byUserId u).symm.trans hr)
  settled u := .inl (h.byUserId u)
  led r hr := .inl ((h.byDirectoryToken _ r).2 ⟨rfl, hr⟩)
  dropped t r hr := ((h.byDirectoryToken t r).1 hr).imp_right .inl

omit [DecidableEq K] in
theorem Inv.consistent {q : State U T K} (hi : Inv D q.shared q.threads) (hq : Quiescent q) : Consistent q.shared where
  byUserId u := (hi.settled u).resolve_right fun ⟨g, hg, hs⟩ => by
    rw [hq g hg] at hs
    exact hs
  byDirectoryToken t r := by
    constructor
    · intro hr
      refine (hi.dropped t r hr).imp_right fun hd => hd.resolve_right fun ⟨g, hg, hs⟩ => ?_
      rw [hq g hg] at hs
      exact hs
    · rintro ⟨rfl, hr⟩
      refine (hi.led r hr).resolve_right fun ⟨g, hg, hs⟩ => ?_
      rw [hq g hg] at hs
      exact hs

omit [DecidableEq K] in
theorem Consistent.inverse {s : UserRegistry U T K} (h : Consistent s) (t : T) (r : RegisteredUser U T K) :
    s.cacheByDirectoryToken.get t = some r ↔ r.directoryToken = t ∧ s.cacheByUserId.get r.userId = some r := by
  rw [h.byDirectoryToken, h.byUserId]

omit [DecidableEq K] in
theorem Consistent.absent {s : UserRegistry U T K} (h : Consistent s) {u : U} (hu : s.users.findByUserId u = none) :
    s.cacheByUserId.get u = none ∧ ∀ t r, s.cacheByDirectoryToken.get t = some r → r.userId ≠ u := by
  refine ⟨(h.byUserId u).trans hu, fun t r hr hru => ?_⟩
  have hrow := ((h.byDirectoryToken t r).1 hr).2
  rw [hru, hu] at hrow
  cases hrow

/-- **The caches agree with the table** when every request has finished, in every run whose transactions commit
undisturbed. -/
theorem consistent_run {d : Users U T K} {q : State U T K} {ls : List (Step U T)}
    (hm : Runs.Meets (step D) (Pool.Moves (Undisturbed D)) ⟨UserRegistry.loadFromDb d, []⟩ ls)
    (hr : Runs.run (step D) ⟨UserRegistry.loadFromDb d, []⟩ ls = some q) (hq : Quiescent q) :
    Consistent q.shared ∧
      (∀ t r, q.shared.cacheByDirectoryToken.get t = some r ↔
        r.directoryToken = t ∧ q.shared.cacheByUserId.get r.userId = some r) ∧
      ∀ u, q.shared.users.findByUserId u = none → q.shared.cacheByUserId.get u = none ∧
        ∀ t r, q.shared.cacheByDirectoryToken.get t = some r → r.userId ≠ u := by
  have hexec : ∀ (s : UserRegistry U T K) (h : Operation U T K) (e : Reading T) (o : List (Operation U T K))
      (s' : UserRegistry U T K) (h' : Operation U T K), Inv D s (h :: o) → Undisturbed D s h e o →
      exec D s h e = some (s', h') → Inv D s' (h' :: o) := fun s h e o s' h' hi hok hs => inv_exec hi hok hs
  have hi : Inv D q.shared q.threads :=
    Pool.invariant (Inv D) inv_perm inv_spawn hexec (consistent_loadFromDb d).inv hm hr
  have hc : Consistent q.shared := hi.consistent hq
  exact ⟨hc, hc.inverse, fun u hu => hc.absent hu⟩

end Runs

end Deq

/-! ## An account that comes back -/

instance (u : ℕ) (o : List (Operation ℕ ℕ ℕ)) : Decidable (Free u o) :=
  inferInstanceAs (Decidable (∀ g ∈ o, ¬ u ∈ g.touches))

instance (s : UserRegistry ℕ ℕ ℕ) (r : RegisteredUser ℕ ℕ ℕ) (o : List (Operation ℕ ℕ ℕ)) : Decidable (Own s r o) :=
  inferInstanceAs (Decidable (_ ∧ _))

instance (D : Directory ℕ ℕ) (s : UserRegistry ℕ ℕ ℕ) (e : Reading ℕ) (o : List (Operation ℕ ℕ ℕ)) :
    ∀ h : Operation ℕ ℕ ℕ, Decidable (Undisturbed D s h e o)
  | .registering _ | .reclaiming _ _ _ | .replacing _ _ | .deleting _ => inferInstanceAs (Decidable (_ → _))
  | .updating _ _ | .findingUser _ _ | .lookingUp _ _ | .findingOwner _ _ | .caching _ | .purging _ _
  | .purgingToken _ _ _ | .purged _ _ | .identifying _ _ | .finished => inferInstanceAs (Decidable True)

def sampleDirectory : Directory ℕ ℕ := ⟨0, some, fun _ _ _ => rfl⟩

def sampleUsers : Users ℕ ℕ ℕ where
  rows := Table.empty.put 1 ⟨100, none, {}⟩
  unique u v row row' hu hv _ := by
    rw [Table.get_put, Table.get_empty] at hu hv
    split at hu
    · split at hv
      · subst u v
        rfl
      · cases hv
    · cases hu

/-- The next `n` steps of request `i`; what it draws is 200. -/
def steps (i n : ℕ) : List (Step ℕ ℕ) := List.replicate n (.step i ⟨200, false⟩)

/-- Account 1 takes token 7, account 2 registers, and then account 1 is deleted. -/
def oneAfterTheOther : List (Step ℕ ℕ) :=
  .start (.updateOwnDirectoryToken 1 7) :: steps 0 8 ++ .start (.register 2) :: steps 1 4 ++
    .start (.deleteAccount 1) :: steps 2 4

/-- Account 1 is deleted while it changes its token: the transaction has committed, and the caches are still to be
written. -/
def deletedMeanwhile : List (Step ℕ ℕ) :=
  .start (.updateOwnDirectoryToken 1 7) :: steps 0 4 ++ .start (.deleteAccount 1) :: steps 1 4 ++ steps 0 4

instance (q : State ℕ ℕ ℕ) : Decidable (Quiescent q) := inferInstanceAs (Decidable (∀ g ∈ q.threads, g = .finished))

theorem consistent_oneAfterTheOther : ∃ q,
    Runs.run (step sampleDirectory) ⟨UserRegistry.loadFromDb sampleUsers, []⟩ oneAfterTheOther = some q ∧
      q.shared.cacheByUserId.get 1 = none ∧ Consistent q.shared := by
  obtain ⟨q, hr, hq, hnone⟩ : ∃ q,
      Runs.run (step sampleDirectory) ⟨UserRegistry.loadFromDb sampleUsers, []⟩ oneAfterTheOther = some q ∧
        Quiescent q ∧ q.shared.cacheByUserId.get 1 = none :=
    Runs.exists_run _ _ _ (by decide +kernel)
  exact ⟨q, hr, hnone, (consistent_run (by decide +kernel) hr hq).1⟩

/-- **A deleted account that is back in both caches.** -/
theorem deletion_undone : ∃ q,
    Runs.run (step sampleDirectory) ⟨UserRegistry.loadFromDb sampleUsers, []⟩ deletedMeanwhile = some q ∧
      Quiescent q ∧ q.shared.users.findByUserId 1 = none ∧
      q.shared.cacheByUserId.get 1 = some ⟨1, 7, some 0⟩ ∧
      q.shared.cacheByDirectoryToken.get 7 = some ⟨1, 7, some 0⟩ :=
  Runs.exists_run _ _ _ (by decide +kernel)

end Registry
end SecureChat
