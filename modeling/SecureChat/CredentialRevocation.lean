import SecureChat.CredentialHistory
/-!
# CredentialRevocation — when a revoked epoch is out of use on an instance

A rotation drops the cached copy before it returns, so what a later check finds in the cache was put there after that.
A check that read the row before the rotation and writes its copy after it has been dropped puts the old epoch back.
-/
namespace SecureChat
namespace Credentials

/-- The condition on an operation: no check fills the cache with a snapshot whose epoch the instance has already dropped
for a rotation. -/
def Thread.safe (a : Account) (t : Thread) (_ : Reading) (_ : List Thread) : Prop :=
  match t.task with
  | .filling _ _ _ loaded => ¬ (t.instanceId, loaded.credentialEpoch) ∈ a.dropped
  | _ => True

instance (a : Account) (t : Thread) (r : Reading) (o : List Thread) : Decidable (t.safe a r o) := by
  unfold Thread.safe
  split <;> infer_instance

structure Account.Clean (a : Account) : Prop where
  ordered : a.users.Ordered
  dropped : ∀ p ∈ a.dropped, p.2 < a.row.credentialEpoch
  returned : ∀ p ∈ a.returned, p ∈ a.dropped
  cache : ∀ i c, a.cache i = some c → ¬ (i, c.snapshot.credentialEpoch) ∈ a.dropped
  accepted : ∀ c ∈ a.accepted, ¬ (c.instanceId, c.epoch) ∈ c.returned

def Task.Honest (i : ℕ) (a : Account) : Task → Prop
  | .looking _ returned | .loading _ returned _ => ∀ p ∈ returned, p ∈ a.returned
  | .filling _ returned _ loaded => ¬ (i, loaded.credentialEpoch) ∈ returned
  | .invalidating earlier => ∀ e ∈ earlier, e < a.row.credentialEpoch
  | .returning earlier => ∀ e ∈ earlier, (i, e) ∈ a.dropped
  | _ => True

/-- The account goes on: nothing that rotations have done is taken back. -/
structure Account.Later (a a' : Account) : Prop where
  users : Users.Extends a.users a'.users
  dropped : ∀ p ∈ a.dropped, p ∈ a'.dropped
  returned : ∀ p ∈ a.returned, p ∈ a'.returned

theorem Task.Honest.mono {i : ℕ} {a a' : Account} {t : Task} (h : t.Honest i a) (hl : Account.Later a a') :
    t.Honest i a' := by
  cases t with
  | looking | loading => exact fun p hp => hl.returned p (h p hp)
  | filling => exact h
  | invalidating => exact fun e he => (h e he).trans_le hl.users.epoch
  | returning => exact fun e he => hl.dropped _ (h e he)
  | _ => trivial

theorem conclude_later (i : ℕ) (a : Account) (p : Purpose) (returned : List (ℕ × ℕ)) (state : Snapshot) :
    (conclude i a p returned state).1.users = a.users ∧ (conclude i a p returned state).1.dropped = a.dropped ∧
      (conclude i a p returned state).1.returned = a.returned := by
  unfold conclude
  split
  · exact ⟨rfl, rfl, rfl⟩
  · cases p <;> exact ⟨rfl, rfl, rfl⟩

theorem Effect.later {i : ℕ} {a a' : Account} {t t' : Task} (he : Effect i a t a' t') (ho : a.users.Ordered) :
    Account.Later a a' := by
  have hext := (he.history ho).1
  cases he with
  | hit p returned c =>
    obtain ⟨-, hd, hr⟩ := conclude_later i a p returned c.snapshot
    exact ⟨hext, hd ▸ fun _ h => h, hr ▸ fun _ h => h⟩
  | filled p returned now loaded =>
    obtain ⟨-, hd, hr⟩ := conclude_later i (a.fill i now loaded) p returned loaded
    exact ⟨hext, hd ▸ fun _ h => h, hr ▸ fun _ h => h⟩
  | invalidated => exact ⟨hext, fun _ h => List.mem_append_left _ h, fun _ h => h⟩
  | returned => exact ⟨hext, fun _ h => h, fun _ h => List.mem_append_left _ h⟩
  | _ => exact ⟨hext, fun _ h => h, fun _ h => h⟩

theorem Account.Clean.extends {a : Account} {users : Users} (h : a.Clean) (he : Users.Extends a.users users)
    (ho : users.Ordered) : Account.Clean { a with users := users } :=
  { h with ordered := ho, dropped := fun p hp => (h.dropped p hp).trans_le he.epoch }

theorem Account.Clean.forget {a : Account} (h : a.Clean) (i : ℕ) : (a.forget i).Clean :=
  { h with
    cache := fun j c hc => by
      rw [Account.cache_forget] at hc
      split at hc
      · cases hc
      · exact h.cache j c hc }

theorem Account.Clean.fill {a : Account} (h : a.Clean) {i : ℕ} {now : ℤ} {loaded : Snapshot}
    (hl : ¬ (i, loaded.credentialEpoch) ∈ a.dropped) : (a.fill i now loaded).Clean :=
  { h with
    cache := fun j c hc => by
      rw [Account.cache_fill] at hc
      split at hc
      · subst j
        cases hc
        exact hl
      · exact h.cache j c hc }

theorem Account.Clean.row_current {a : Account} (h : a.Clean) (i : ℕ) : ¬ (i, a.row.credentialEpoch) ∈ a.dropped :=
  fun hm => absurd (h.dropped _ hm) (Nat.lt_irrefl _)

theorem conclude_clean {i : ℕ} {a : Account} {p : Purpose} {returned : List (ℕ × ℕ)} {state : Snapshot} (h : a.Clean)
    (hs : ¬ (i, state.credentialEpoch) ∈ returned) :
    (conclude i a p returned state).1.Clean ∧
      (conclude i a p returned state).2.Honest i (conclude i a p returned state).1 := by
  unfold conclude
  split
  · exact ⟨h, trivial⟩
  rename_i hepoch
  cases p with
  | access e =>
    refine ⟨{ h with accepted := fun c hc => ?_ }, trivial⟩
    rcases List.mem_append.1 hc with hc | hc
    · exact h.accepted c hc
    · obtain rfl := List.mem_singleton.1 hc
      have he : e = state.credentialEpoch := not_not.1 hepoch
      exact he ▸ hs
  | refresh t => exact ⟨h, trivial⟩
  | reauth t => exact ⟨h, trivial⟩

theorem Effect.clean {i : ℕ} {a a' : Account} {t t' : Task} {r : Reading} {o : List Thread}
    (he : Effect i a t a' t') (h : a.Clean) (ht : t.Honest i a) (hsafe : Thread.safe a ⟨i, t⟩ r o) :
    a'.Clean ∧ t'.Honest i a' := by
  obtain ⟨hext, hord⟩ := he.history h.ordered
  cases he with
  | quits => exact ⟨h, trivial⟩
  | verified => exact ⟨h, fun _ hp => hp⟩
  | missed => exact ⟨h, ht⟩
  | hit p returned c hc =>
    refine conclude_clean h fun hm => h.cache i c hc ?_
    exact h.returned _ (ht _ hm)
  | read => exact ⟨h, fun hm => h.row_current i (h.returned _ (ht _ hm))⟩
  | filled p returned now loaded => exact conclude_clean (h.fill hsafe) ht
  | rotated => exact ⟨{ h.extends hext hord with }, trivial⟩
  | rotatedLost | revokedLost => exact ⟨h.extends hext hord, trivial⟩
  | revoked e => exact ⟨h.extends hext hord, fun e he => hord.earlierEpochs_lt he⟩
  | invalidated earlier =>
    have hforget := h.forget i
    refine ⟨{ hforget with
      dropped := fun p hp => ?_
      returned := fun p hp => List.mem_append_left _ (h.returned p hp)
      cache := fun j c hc hm => ?_ }, fun e he => List.mem_append_right _ (List.mem_map_of_mem he)⟩
    · rcases List.mem_append.1 hp with hp | hp
      · exact h.dropped p hp
      · obtain ⟨e, he, rfl⟩ := List.mem_map.1 hp
        exact ht e he
    · change (a.forget i).cache j = some c at hc
      rcases List.mem_append.1 hm with hm | hm
      · exact hforget.cache j c hc hm
      · -- the instance that drops its copy has none left
        obtain ⟨e, -, hpair⟩ := List.mem_map.1 hm
        obtain ⟨rfl, -⟩ := Prod.mk.inj hpair
        rw [Account.cache_forget, if_pos rfl] at hc
        cases hc
  | returned earlier =>
    refine ⟨{ h with returned := fun p hp => ?_ }, trivial⟩
    rcases List.mem_append.1 hp with hp | hp
    · exact h.returned p hp
    · obtain ⟨e, he, rfl⟩ := List.mem_map.1 hp
      exact ht e he
  | remembered | taken | takenLost | answered | issued | lapsed => exact ⟨{ h with }, trivial⟩
  | redeemed => exact ⟨{ h with }, trivial⟩
  | proved | forgotten | reused | refused | cleared | dropped => exact ⟨h.forget i, trivial⟩
  | refetched | outrun | unremembered => exact ⟨h, trivial⟩

structure Guarded (a : Account) (ts : List Thread) : Prop where
  clean : a.Clean
  honest : ∀ t ∈ ts, t.task.Honest t.instanceId a

theorem Guarded.perm {a : Account} {ts ts' : List Thread} (h : Guarded a ts) (hp : List.Perm ts ts') : Guarded a ts' :=
  ⟨h.clean, fun t ht => h.honest t (hp.mem_iff.2 ht)⟩

theorem Guarded.spawn {a : Account} {ts : List Thread} (h : Guarded a ts) (r : Request) :
    Guarded a (r.thread :: ts) := by
  obtain ⟨i, d⟩ := r
  refine ⟨h.clean, fun t ht => ?_⟩
  rcases List.mem_cons.1 ht with rfl | ht
  · cases d <;> trivial
  · exact h.honest t ht

theorem Guarded.step {a a' : Account} {t t' : Thread} {o : List Thread} {r : Reading} (h : Guarded a (t :: o))
    (hsafe : t.safe a r o) (he : t.exec a r = some (a', t')) : Guarded a' (t' :: o) := by
  obtain ⟨hexec, hinst⟩ := Thread.exec_some he
  have heff := Task.exec_effect hexec
  obtain ⟨hclean, hhonest⟩ := heff.clean h.clean (h.honest t List.mem_cons_self) hsafe
  refine ⟨hclean, fun t₁ ht₁ => ?_⟩
  rcases List.mem_cons.1 ht₁ with rfl | ht₁
  · exact hinst ▸ hhonest
  · exact (h.honest t₁ (List.mem_cons_of_mem _ ht₁)).mono (heff.later h.clean.ordered)

theorem guarded_registered : Guarded registered.shared registered.threads :=
  ⟨⟨⟨Nat.two_pos, Nat.one_lt_two, nofun, nofun, List.nodup_nil⟩, nofun, nofun, nofun, nofun⟩, nofun⟩

/-- **A revoked epoch is out of use**: in a run in which no check fills the cache with an epoch already dropped, no
check accepts an epoch whose rotation had returned on its instance when the check started. -/
theorem revocation_run {ls : List (Pool.Label Request Reading)} {s : System}
    (hm : Runs.Meets serve (Pool.Moves Thread.safe) registered ls) (hr : Runs.run serve registered ls = some s) :
    ∀ c ∈ s.shared.accepted, ¬ (c.instanceId, c.epoch) ∈ c.returned := by
  have hexec : ∀ a (t : Thread) r o a' t', Guarded a (t :: o) → t.safe a r o → t.exec a r = some (a', t') →
      Guarded a' (t' :: o) := fun a t r o a' t' h hsafe he => h.step hsafe he
  have hguarded : Guarded s.shared s.threads :=
    Pool.invariant Guarded (fun _ _ _ hp h => h.perm hp) (fun _ _ r h => h.spawn r) hexec guarded_registered hm hr
  exact hguarded.clean.accepted

def signOut : List (Pool.Label Request Reading) :=
  .start ⟨0, .check 0⟩ :: onward 0 4 ++ .start ⟨0, .rotateCredentialEpoch none⟩ :: onward 1 3 ++
    .start ⟨0, .check 0⟩ :: onward 2 4 ++ .start ⟨0, .check 2⟩ :: onward 3 2

theorem revocation_sample : ∃ s, Runs.run serve registered signOut = some s ∧
    s.shared.accepted.map Acceptance.epoch = [0, 2] ∧ s.shared.returned = [(0, 0)] ∧
      ∀ c ∈ s.shared.accepted, ¬ (c.instanceId, c.epoch) ∈ c.returned := by
  obtain ⟨s, hs, haccepted, hreturned⟩ : ∃ s : System, Runs.run serve registered signOut = some s ∧
      s.shared.accepted.map Acceptance.epoch = [0, 2] ∧ s.shared.returned = [(0, 0)] :=
    Runs.exists_run _ _ _ (by decide +kernel)
  exact ⟨s, hs, haccepted, hreturned, revocation_run (by decide +kernel) hs⟩

/-- A check reads the row, a rotation runs, the check fills the cache, and a later check accepts the old epoch. -/
def lateFill : List (Pool.Label Request Reading) :=
  .start ⟨0, .check 0⟩ :: onward 0 3 ++ .start ⟨0, .rotateCredentialEpoch none⟩ :: onward 1 3 ++ onward 0 1 ++
    .start ⟨0, .check 0⟩ :: onward 2 2

theorem revoked_accepted : ∃ s : System, Runs.run serve registered lateFill = some s ∧
    ∃ c ∈ s.shared.accepted, (c.instanceId, c.epoch) ∈ c.returned := Runs.exists_run _ _ _ (by decide +kernel)

end Credentials
end SecureChat
