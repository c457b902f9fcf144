import Mathlib
import SecureChat.CredentialHistory
/-!
# RefreshRotation — what a refresh token can yield

A refresh token is worth one successor.  The `UPDATE` that rotates a generation lets one request win; the successor that
is kept for a lost answer is taken out of Redis when it is redeemed, and counts only while it is the current one.  So
the right to redeem a generation, wherever it is, is never there twice (`Effect.balance`).
-/
namespace SecureChat
namespace Credentials

structure Yield.Lawful (u : Users) (y : Yield) : Prop where
  current : y.issued = y.row
  epoch : y.issued.credentialEpoch = y.presented.credentialEpoch
  returned : ∀ p ∈ y.returned, p.2 ≠ y.presented.credentialEpoch
  successor : y.kind ≠ .reauthenticated → u.Succeeds y.presented.refreshGeneration y.issued.refreshGeneration

structure Account.Sound (a : Account) : Prop where
  ordered : a.users.Ordered
  graces : ∀ g g', a.graces.get g = some g' → a.users.Succeeds g g'
  tokens : ∀ t ∈ a.tokens, a.users.Was t
  yields : ∀ y ∈ a.yields, y.Lawful a.users
  returned : ∀ p ∈ a.returned, p.2 < a.row.credentialEpoch

def Task.Fits (u : Users) : Task → Prop
  | .looking p _ | .loading p _ _ | .filling p _ _ _ => ∀ t ∈ p.token, u.Was t
  | .proving t | .refetching t | .redeeming t | .answering t => u.Was t
  | .rotating t kind g =>
    kind ≠ .redeemed ∧ (kind = .rotated → g = t.refreshGeneration) ∧ u.Was t ∧
      ∃ x, u.Was x ∧ x.refreshGeneration = g ∧ x.credentialEpoch = t.credentialEpoch
  | .forgetting t _ g rotated => u.Was t ∧ ∀ x ∈ rotated, u.Was x ∧ u.Succeeds g x.refreshGeneration
  | .remembering g x => u.Was x ∧ u.Succeeds g x.refreshGeneration
  | .clearing t g' | .comparing t g' => u.Was t ∧ u.Succeeds t.refreshGeneration g'
  | .invalidating earlier | .returning earlier => ∀ e ∈ earlier, e < u.row.credentialEpoch
  | _ => True

theorem Task.Fits.mono {u u' : Users} {t : Task} (h : t.Fits u) (he : Users.Extends u u') : t.Fits u' := by
  cases t with
  | looking | loading | filling => exact fun t ht => he.was t (h t ht)
  | proving | refetching | redeeming | answering => exact he.was _ h
  | rotating t kind g =>
    obtain ⟨hk, hg, ht, x, hx, hxg⟩ := h
    exact ⟨hk, hg, he.was _ ht, x, he.was _ hx, hxg⟩
  | forgetting => exact ⟨he.was _ h.1, fun x hx => ⟨he.was _ (h.2 x hx).1, (h.2 x hx).2.mono he⟩⟩
  | remembering | clearing | comparing => exact ⟨he.was _ h.1, h.2.mono he⟩
  | invalidating | returning => exact fun e hm => (h e hm).trans_le he.epoch
  | _ => trivial

theorem Yield.Lawful.mono {u u' : Users} {y : Yield} (h : y.Lawful u) (he : Users.Extends u u') : y.Lawful u' :=
  { h with successor := fun hk => (h.successor hk).mono he }

theorem Account.Sound.extends {a : Account} {users : Users} (h : a.Sound) (he : Users.Extends a.users users)
    (ho : users.Ordered) : Account.Sound { a with users := users } where
  ordered := ho
  graces g g' x := (h.graces g g' x).mono he
  tokens t ht := he.was t (h.tokens t ht)
  yields y hy := (h.yields y hy).mono he
  returned p hp := (h.returned p hp).trans_le he.epoch

theorem Account.Sound.forget {a : Account} (h : a.Sound) (i : ℕ) : (a.forget i).Sound := { h with }

theorem Account.Sound.yield {a : Account} (h : a.Sound) {t x : Snapshot} {kind : Kind} (hx : x = a.row)
    (ht : t.credentialEpoch = a.row.credentialEpoch)
    (hs : kind ≠ .reauthenticated → a.users.Succeeds t.refreshGeneration x.refreshGeneration) :
    (a.yield t kind x).Sound :=
  { h with
    yields := fun y hy => by
      rcases List.mem_append.1 hy with hy | hy
      · exact h.yields y hy
      · obtain rfl := List.mem_singleton.1 hy
        refine ⟨hx, by rw [hx, ht], fun p hp he => ?_, hs⟩
        exact (h.returned p hp).ne (he.trans ht) }

theorem Account.Sound.token {a : Account} (h : a.Sound) {x : Snapshot} (hx : a.users.Was x) :
    Account.Sound { a with tokens := a.tokens ++ [x] } :=
  { h with
    tokens := fun t ht => (List.mem_append.1 ht).elim (h.tokens t) fun ht => List.mem_singleton.1 ht ▸ hx }

theorem Account.Sound.lapse {a : Account} (h : a.Sound) (g : ℕ) :
    Account.Sound { a with graces := a.graces.remove g } :=
  { h with
    graces := fun g₁ g' hget => by
      by_cases hg : g₁ = g
      · subst hg
        cases Table.get_remove_self.symm.trans hget
      · exact h.graces g₁ g' ((Table.get_remove_of_ne hg).symm.trans hget) }

theorem Account.Sound.grace {a : Account} (h : a.Sound) {g g' : ℕ} (hs : a.users.Succeeds g g') :
    Account.Sound { a with graces := a.graces.put g g' } :=
  { h with
    graces := fun g₁ g₂ hget => by
      by_cases hg : g₁ = g
      · subst hg
        cases Table.get_put_self.symm.trans hget
        exact hs
      · exact h.graces g₁ g₂ ((Table.get_put_of_ne hg).symm.trans hget) }

theorem conclude_sound {i : ℕ} {a : Account} {p : Purpose} {returned : List (ℕ × ℕ)} {state : Snapshot} (h : a.Sound)
    (hp : ∀ t ∈ p.token, a.users.Was t) :
    (conclude i a p returned state).1.Sound ∧
      (conclude i a p returned state).2.Fits (conclude i a p returned state).1.users := by
  unfold conclude
  split
  · exact ⟨h, trivial⟩
  · cases p with
    | access e => exact ⟨{ h with }, trivial⟩
    | refresh t => exact ⟨h, nofun, fun _ => rfl, hp t rfl, t, hp t rfl, rfl, rfl⟩
    | reauth t => exact ⟨h, hp t rfl⟩

theorem rotated_epoch {u u' : Users} {g : ℕ} {t x : Snapshot} (hu : u.Ordered)
    (h : u.rotateRefreshGeneration g = some u') (hx : u.Was x) (hxg : x.refreshGeneration = g)
    (hxt : x.credentialEpoch = t.credentialEpoch) : t.credentialEpoch = u'.row.credentialEpoch := by
  obtain ⟨hg, rfl⟩ := Users.rotateRefreshGeneration_some h
  have hrow : x = u.row := hu.was_unique hx u.was_row (hxg.trans hg.symm)
  rw [← hxt, hrow]
  rfl

/-- **One operation keeps the account sound** and leaves its task fit to go on. -/
theorem Effect.kept {i : ℕ} {a a' : Account} {t t' : Task} (he : Effect i a t a' t') (h : a.Sound)
    (ht : t.Fits a.users) : a'.Sound ∧ t'.Fits a'.users := by
  obtain ⟨hext, hord⟩ := he.history h.ordered
  cases he with
  | quits => exact ⟨h, trivial⟩
  | verified p hp => exact ⟨h, fun t htp => h.tokens t (hp t htp)⟩
  | missed => exact ⟨h, ht⟩
  | hit => exact conclude_sound h ht
  | read => exact ⟨h, ht⟩
  | filled p returned now loaded => exact conclude_sound (a := a.fill i now loaded) { h with } ht
  | proved => exact ⟨h.forget i, ht⟩
  | refetched token hrow => exact ⟨h, nofun, nofun, ht, a.row, a.users.was_row, rfl, hrow⟩
  | rotated token kind g users hrot =>
    obtain ⟨hkind, hg, htoken, x, hx, hxg, hxt⟩ := ht
    have hsucc := Users.rotateRefreshGeneration_succeeds hrot
    refine ⟨(h.extends hext hord).yield rfl (rotated_epoch h.ordered hrot hx hxg hxt) fun hk => ?_, ?_⟩
    · cases kind with
      | rotated => exact hg rfl ▸ hsucc
      | redeemed => exact absurd rfl hkind
      | reauthenticated => exact absurd rfl hk
    · refine ⟨hext.was _ htoken, fun x hx => ?_⟩
      cases hx
      exact ⟨users.was_row, hsucc⟩
  | rotatedLost => exact ⟨h.extends hext hord, trivial⟩
  | outrun => exact ⟨h, ht.2.2.1, nofun⟩
  | forgotten token kind g rotated => exact ⟨h.forget i, ht.2 rotated rfl⟩
  | reused => exact ⟨h.forget i, ht.1⟩
  | refused => exact ⟨h.forget i, trivial⟩
  | remembered g rotated => exact ⟨h.grace ht.2, ht.1⟩
  | unremembered => exact ⟨h, ht.1⟩
  | taken token g' hget => exact ⟨h.lapse _, ht, h.graces _ _ hget⟩
  | takenLost => exact ⟨h.lapse _, trivial⟩
  | cleared => exact ⟨h.forget i, ht⟩
  | redeemed token g' hrow =>
    subst hrow
    exact ⟨h.yield rfl (h.ordered.succeeds_row ht.1 ht.2) fun _ => ht.2, a.users.was_row⟩
  | answered => exact ⟨h.token ht, trivial⟩
  | revoked e => exact ⟨h.extends hext hord, fun e he => hord.earlierEpochs_lt he⟩
  | revokedLost => exact ⟨h.extends hext hord, trivial⟩
  | invalidated => exact ⟨{ h with }, ht⟩
  | returned earlier =>
    refine ⟨{ h with returned := fun p hp => ?_ }, trivial⟩
    rcases List.mem_append.1 hp with hp | hp
    · exact h.returned p hp
    · obtain ⟨e, hm, rfl⟩ := List.mem_map.1 hp
      exact ht e hm
  | dropped => exact ⟨h.forget i, trivial⟩
  | issued => exact ⟨h.token a.users.was_row, trivial⟩
  | lapsed => exact ⟨h.lapse _, trivial⟩

def Task.stakes (g : ℕ) : Task → ℕ
  | .forgetting _ _ g' (some _) => if g' = g then 1 else 0
  | .remembering g' _ => if g' = g then 1 else 0
  | .clearing t _ | .comparing t _ => if t.refreshGeneration = g then 1 else 0
  | _ => 0

def Yield.redeems (g : ℕ) (y : Yield) : Bool := decide (y.kind = .redeemed ∧ y.presented.refreshGeneration = g)

def Account.spent (g : ℕ) (a : Account) : ℕ :=
  a.yields.countP (Yield.redeems g) + if (a.graces.get g).isSome then 1 else 0

def Users.superseded (g : ℕ) (u : Users) : ℕ := u.updates.countP fun w => decide (w.1.refreshGeneration = g)

theorem Users.Ordered.superseded_le {u : Users} (h : u.Ordered) (g : ℕ) : u.superseded g ≤ 1 := by
  have hcount : u.superseded g = (u.updates.map fun w => w.1.refreshGeneration).count g := by
    rw [superseded, List.count, List.countP_map]
    rfl
  rw [hcount]
  exact List.nodup_iff_count_le_one.1 h.nodup g

theorem Account.spent_yield_of_ne {a : Account} {g : ℕ} {t x : Snapshot} {kind : Kind} (h : kind ≠ .redeemed) :
    (a.yield t kind x).spent g = a.spent g := by
  have hno : Yield.redeems g ⟨t, kind, x, a.row, a.returned⟩ = false := decide_eq_false fun hr => h hr.1
  rw [spent, spent, yield, List.countP_append, List.countP_singleton, hno]
  rfl

theorem Account.spent_redeemed {a : Account} {g : ℕ} {t x : Snapshot} :
    (a.yield t .redeemed x).spent g = a.spent g + if t.refreshGeneration = g then 1 else 0 := by
  have hyes : Yield.redeems g ⟨t, .redeemed, x, a.row, a.returned⟩ = decide (t.refreshGeneration = g) :=
    decide_eq_decide.2 (and_iff_right rfl)
  rw [spent, spent, yield, List.countP_append, List.countP_singleton, hyes]
  simp only [decide_eq_true_eq]
  omega

theorem Account.spent_lapse_le {a : Account} {g g' : ℕ} :
    Account.spent g { a with graces := a.graces.remove g' } ≤ a.spent g := by
  unfold spent
  by_cases hg : g = g'
  · subst hg
    rw [Table.get_remove_self]
    exact Nat.add_le_add_left (Nat.zero_le _) _
  · rw [Table.get_remove_of_ne hg]

theorem Account.spent_taken {a : Account} {g g' s : ℕ} (h : a.graces.get g' = some s) :
    Account.spent g { a with graces := a.graces.remove g' } + (if g' = g then 1 else 0) = a.spent g := by
  unfold spent
  by_cases hg : g' = g
  · subst hg
    rw [Table.get_remove_self, h, if_pos rfl]
    rfl
  · rw [Table.get_remove_of_ne (Ne.symm hg), if_neg hg]
    rfl

theorem Account.spent_grace_le (a : Account) (g g' s : ℕ) :
    Account.spent g { a with graces := a.graces.put g' s } ≤ a.spent g + if g' = g then 1 else 0 := by
  unfold spent
  by_cases hg : g' = g
  · subst hg
    rw [Table.get_put_self, if_pos rfl]
    exact Nat.add_le_add_right (Nat.le_add_right _ _) 1
  · rw [Table.get_put_of_ne (Ne.symm hg), if_neg hg]
    exact Nat.le_refl _

theorem conclude_spent (i : ℕ) (a : Account) (p : Purpose) (returned : List (ℕ × ℕ)) (state : Snapshot) (g : ℕ) :
    (conclude i a p returned state).1.spent g = a.spent g ∧ (conclude i a p returned state).2.stakes g = 0 := by
  unfold conclude
  split
  · exact ⟨rfl, rfl⟩
  · cases p <;> exact ⟨rfl, rfl⟩

theorem Users.superseded_rotate {u u' : Users} {g g' : ℕ} (h : u.rotateRefreshGeneration g' = some u') :
    u'.superseded g = u.superseded g + if g' = g then 1 else 0 := by
  obtain ⟨rfl, rfl⟩ := rotateRefreshGeneration_some h
  rw [superseded, write, List.countP_append, List.countP_singleton]
  simp only [decide_eq_true_eq]
  rfl

theorem Effect.balance {i : ℕ} {a a' : Account} {t t' : Task} (he : Effect i a t a' t') (h : a.Sound)
    (ht : t.Fits a.users) (g : ℕ) :
    a'.spent g + t'.stakes g + a.users.superseded g ≤ a.spent g + t.stakes g + a'.users.superseded g := by
  have hcounted : a.users.superseded g ≤ a'.users.superseded g := (he.history h.ordered).1.counted _
  cases he with
  | quits => exact Nat.add_le_add_right (Nat.add_le_add_left (Nat.zero_le _) _) _
  | hit p returned c =>
    obtain ⟨hspent, hstakes⟩ := conclude_spent i a p returned c.snapshot g
    rw [hspent, hstakes]
    exact Nat.add_le_add_left hcounted _
  | filled p returned now loaded =>
    obtain ⟨hspent, hstakes⟩ := conclude_spent i (a.fill i now loaded) p returned loaded g
    rw [hspent, hstakes]
    exact Nat.add_le_add_left hcounted _
  | rotated token kind g' users hrot =>
    rw [Account.spent_yield_of_ne ht.1]
    have hsuper : users.superseded g = _ := Users.superseded_rotate hrot
    show a.spent g + (if g' = g then 1 else 0) + a.users.superseded g ≤ a.spent g + 0 + users.superseded g
    omega
  | forgotten => exact Nat.le_refl _
  | remembered g' rotated =>
    have hgrace := Account.spent_grace_le a g g' rotated.refreshGeneration
    exact Nat.add_le_add_right hgrace _
  | unremembered => exact Nat.add_le_add_right (Nat.add_le_add_left (Nat.zero_le _) _) _
  | taken token g' hget => exact Nat.add_le_add_right (Account.spent_taken hget).le _
  | takenLost => exact Nat.add_le_add_right Account.spent_lapse_le _
  | cleared => exact Nat.le_refl _
  | redeemed => exact Nat.add_le_add_right Account.spent_redeemed.le _
  | lapsed => exact Nat.add_le_add_right Account.spent_lapse_le _
  | _ => exact Nat.add_le_add_left hcounted _

structure Held (a : Account) (ts : List Thread) : Prop where
  sound : a.Sound
  fits : ∀ t ∈ ts, t.task.Fits a.users
  balance : ∀ g, a.spent g + (ts.map fun t => t.task.stakes g).sum ≤ a.users.superseded g

theorem Held.perm {a : Account} {ts ts' : List Thread} (h : Held a ts) (hp : List.Perm ts ts') : Held a ts' where
  sound := h.sound
  fits t ht := h.fits t (hp.mem_iff.2 ht)
  balance g := (hp.map fun t => t.task.stakes g).sum_nat ▸ h.balance g

theorem Held.spawn {a : Account} {ts : List Thread} (h : Held a ts) (r : Request) : Held a (r.thread :: ts) := by
  obtain ⟨i, d⟩ := r
  refine ⟨h.sound, fun t ht => ?_, fun g => ?_⟩
  · rcases List.mem_cons.1 ht with rfl | ht
    · cases d <;> trivial
    · exact h.fits t ht
  · have hzero : (Request.thread ⟨i, d⟩).task.stakes g = 0 := by cases d <;> rfl
    rw [List.map_cons, List.sum_cons, hzero, Nat.zero_add]
    exact h.balance g

theorem Held.step {a a' : Account} {t t' : Thread} {o : List Thread} {r : Reading} (h : Held a (t :: o))
    (he : t.exec a r = some (a', t')) : Held a' (t' :: o) := by
  have heff := Task.exec_effect (Thread.exec_some he).1
  have ht := h.fits t List.mem_cons_self
  obtain ⟨hsound, hfits⟩ := heff.kept h.sound ht
  refine ⟨hsound, fun t₁ ht₁ => ?_, fun g => ?_⟩
  · rcases List.mem_cons.1 ht₁ with rfl | ht₁
    · exact hfits
    · exact (h.fits t₁ (List.mem_cons_of_mem _ ht₁)).mono (heff.history h.sound.ordered).1
  · have hbefore := h.balance g
    have hstep := heff.balance h.sound ht g
    rw [List.map_cons, List.sum_cons] at hbefore ⊢
    omega

theorem held_registered : Held registered.shared registered.threads where
  sound := ⟨⟨Nat.two_pos, Nat.one_lt_two, nofun, nofun, List.nodup_nil⟩, nofun, nofun, nofun, nofun⟩
  fits := nofun
  balance _ := Nat.le_refl 0

theorem held_run {ls : List (Pool.Label Request Reading)} {s : System} (hr : Runs.run serve registered ls = some s) :
    Held s.shared s.threads :=
  Pool.run_invariant Held (fun _ _ _ hp h => h.perm hp) (fun _ _ r h => h.spawn r) (fun _ _ _ _ _ _ h he => h.step he)
    held_registered hr

/-- **Refresh rotation is one-shot.** -/
theorem rotation_run {ls : List (Pool.Label Request Reading)} {s : System}
    (hr : Runs.run serve registered ls = some s) :
    (∀ y ∈ s.shared.yields, ∀ y' ∈ s.shared.yields, y.kind ≠ .reauthenticated → y'.kind ≠ .reauthenticated →
      y.presented.refreshGeneration = y'.presented.refreshGeneration →
        y.issued.refreshGeneration = y'.issued.refreshGeneration) ∧
    (∀ y ∈ s.shared.yields, y.kind = .redeemed → y.issued = y.row ∧ ∃ w ∈ s.shared.users.updates,
      w.1.refreshGeneration = y.presented.refreshGeneration ∧ w.2.refreshGeneration = y.issued.refreshGeneration) ∧
    (∀ g, (s.shared.yields.countP fun y => decide (y.kind = .redeemed ∧ y.presented.refreshGeneration = g)) ≤ 1) ∧
    (s.shared.users.updates.map fun w => w.1.refreshGeneration).Nodup ∧
    ∀ y ∈ s.shared.yields, (∀ p ∈ y.returned, p.2 ≠ y.presented.credentialEpoch) ∧
      y.issued.credentialEpoch = y.presented.credentialEpoch := by
  obtain ⟨hsound, -, hbalance⟩ := held_run hr
  refine ⟨fun y hy y' hy' hk hk' he => ?_, fun y hy hk => ?_, fun g => ?_, hsound.ordered.nodup, fun y hy => ?_⟩
  · obtain ⟨w, hw, hold, hnew, -⟩ := (hsound.yields y hy).successor hk
    obtain ⟨w', hw', hold', hnew', -⟩ := (hsound.yields y' hy').successor hk'
    have hww : w = w' := hsound.ordered.update_unique hw hw' (hold.trans (he.trans hold'.symm))
    rw [← hnew, ← hnew', hww]
  · have hlaw := hsound.yields y hy
    obtain ⟨w, hw, hold, hnew, -⟩ := hlaw.successor (hk ▸ nofun)
    exact ⟨hlaw.current, w, hw, hold, hnew⟩
  · calc s.shared.yields.countP (Yield.redeems g)
        ≤ s.shared.spent g := Nat.le_add_right _ _
      _ ≤ s.shared.spent g + (s.threads.map fun t => t.task.stakes g).sum := Nat.le_add_right _ _
      _ ≤ s.shared.users.superseded g := hbalance g
      _ ≤ 1 := hsound.ordered.superseded_le g
  · exact ⟨(hsound.yields y hy).returned, (hsound.yields y hy).epoch⟩

/-- **No token is ahead of the table**: every token handed out was the row at some time, a successor in Redis is the one
the row went on to, and the row never goes back. -/
theorem genuine_run {ls : List (Pool.Label Request Reading)} {s : System}
    (hr : Runs.run serve registered ls = some s) : (∀ t ∈ s.shared.tokens, s.shared.users.Was t) ∧
      (∀ g g', s.shared.graces.get g = some g' → s.shared.users.Succeeds g g') ∧
      ∀ w ∈ s.shared.users.updates, w.1.credentialEpoch ≤ s.shared.users.row.credentialEpoch ∧
        w.1.refreshGeneration < s.shared.users.row.refreshGeneration :=
  have h := (held_run hr).sound
  ⟨h.tokens, h.graces, h.ordered.past⟩

/-- A token is used, used again as if its answer were lost, and used a third time; then the account signs out. -/
def lostAnswer : List (Pool.Label Request Reading) :=
  .start ⟨0, .signIn⟩ :: onward 0 1 ++ .start ⟨0, .refresh ⟨0, 1⟩⟩ :: onward 1 8 ++
    .start ⟨0, .refresh ⟨0, 1⟩⟩ :: onward 2 10 ++ .start ⟨0, .refresh ⟨0, 1⟩⟩ :: onward 3 7 ++
      .start ⟨0, .rotateCredentialEpoch none⟩ :: onward 4 3 ++ .start ⟨0, .refresh ⟨0, 2⟩⟩ :: onward 5 4

theorem rotation_sample : ∃ s, Runs.run serve registered lostAnswer = some s ∧
    s.shared.yields.map Yield.kind = [.rotated, .redeemed] ∧
      ∀ y ∈ s.shared.yields, ∀ y' ∈ s.shared.yields, y.kind ≠ .reauthenticated → y'.kind ≠ .reauthenticated →
        y.presented.refreshGeneration = y'.presented.refreshGeneration →
          y.issued.refreshGeneration = y'.issued.refreshGeneration := by
  obtain ⟨s, hs, hkinds⟩ : ∃ s : System, Runs.run serve registered lostAnswer = some s ∧
      s.shared.yields.map Yield.kind = [.rotated, .redeemed] := Runs.exists_run _ _ _ (by decide +kernel)
  exact ⟨s, hs, hkinds, (rotation_run hs).1⟩

theorem genuine_sample : ∃ s, Runs.run serve registered lostAnswer = some s ∧
    ∀ t ∈ s.shared.tokens, s.shared.users.Was t := by
  obtain ⟨s, hs, -⟩ : ∃ s : System, Runs.run serve registered lostAnswer = some s ∧
      s.shared.yields.length = 2 := Runs.exists_run _ _ _ (by decide +kernel)
  exact ⟨s, hs, (genuine_run hs).1⟩

end Credentials
end SecureChat
