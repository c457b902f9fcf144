import Mathlib.Data.List.Perm.Subperm
import SecureChat.PreKeyStock
import SecureChat.PublisherKeys
/-!
# KeySupply — how many keys the server has when a publication completes

The publisher counts the private keys that it holds, and the server's pool shrinks with every fetch.  A key that was
fetched and with which no message came in is counted and is not in the pool, so a publication can complete with fewer
keys there than the threshold (`fetchesWithoutMessages_short`).  `supplied_run` says how many such keys there may be.
-/
namespace SecureChat
namespace Publisher

open Olm Runs

variable {α κ : Type}

/-- What the library documents of the keys that are not published: their count, that what is generated is not published,
and that such a key stays until it is used. -/
structure Counted (V : Vodozemac α κ) : Prop where
  stored : ∀ a, V.storedOneTimeKeyCount a = (V.oneTimeKeys a).length
  generated : ∀ {ks : List κ} {a : α} {k : κ}, V.storedOneTimeKeyCount a + ks.length ≤ maxOneTimeKeys →
    (k ∈ (V.unpublishedOneTimeKeys (V.generateOneTimeKeys ks a)).map OneTimeKey.publicKey ↔
      k ∈ (V.unpublishedOneTimeKeys a).map OneTimeKey.publicKey ∨ k ∈ ks)
  consumed : ∀ {j k : κ} {a a' : α}, V.createInboundSession k a = some a' → j ≠ k →
    j ∈ (V.unpublishedOneTimeKeys a).map OneTimeKey.publicKey →
    j ∈ (V.unpublishedOneTimeKeys a').map OneTimeKey.publicKey

def awaiting (V : Vodozemac α κ) (a : α) : List κ := (V.unpublishedOneTimeKeys a).map OneTimeKey.publicKey

/-- A publication ends normally, with the server having accepted what was sent or with nothing to send: the account that
is the device's then. -/
def State.completing (s : State α κ) : Event κ → Option (Option α)
  | .writePickle c =>
    match s.calls c with
    | .writing a none =>
      if (s.server.uploads c).accepted || (!(s.server.uploads c).posted && a.request.olmOneTimeKeys.isEmpty &&
        a.request.olmFallbackKey.isNone) then some (some a.account)
      else none
    | _ => none
  | .markFallbackPublished c =>
    match s.calls c with
    | .marking _ => some s.record
    | _ => none
  | _ => none

def Event.replaces : Event κ → Bool
  | .server (.replace _) => true
  | _ => false

section
variable [DecidableEq κ] (V : Vodozemac α κ)

/-- The keys that are counted and are not in the pool: fetched, or not sent yet. -/
def outstanding (s : State α κ) (a : α) : List κ :=
  (V.oneTimeKeys a).filter fun k => decide (k ∈ s.server.fetched ∨ k ∈ awaiting V a)

def Supplied (s : State α κ) (a : α) : Prop :=
  (V.oneTimeKeys a).Nodup ∧ (outstanding V s a).length + replenishThreshold ≤ V.storedOneTimeKeyCount a

instance (s : State α κ) (a : α) : Decidable (Supplied V s a) := inferInstanceAs (Decidable (_ ∧ _))

/-- **The condition under which the pool is filled**: the account is not replaced, and a publication completes with
enough keys besides those that were fetched. -/
def Filling (s : State α κ) (e : Event κ) : Prop :=
  e.replaces = false ∧ ∀ x ∈ s.completing e, ∃ a ∈ x, Supplied V s a

instance (s : State α κ) (e : Event κ) : Decidable (Filling V s e) :=
  inferInstanceAs (Decidable (_ ∧ ∀ x ∈ s.completing e, ∃ a ∈ x, Supplied V s a))

end

variable {V : Vodozemac α κ}

def Covered (V : Vodozemac α κ) (server : PreKeys.State ℕ κ) (a : α) : Prop :=
  ∀ k ∈ V.oneTimeKeys a, k ∈ awaiting V a ∨ server.Stocked k

structure Stocking (V : Vodozemac α κ) (s : State α κ) : Prop where
  server : s.server.Ordered ∧ s.server.Inv
  begun : ∀ d, (s.server.uploads d).posted = true → (s.calls d).begun = true
  record : ∀ a ∈ s.record, Covered V s.server a
  attempt : ∀ d a, (s.calls d).attempt = some a → Covered V s.server a.account
  sent : ∀ d a, (s.calls d).attempt = some a → (s.server.uploads d).posted = true →
    ∀ k ∈ a.request.keys, s.server.Reaches d k
  unsent : ∀ d a, (s.calls d).unposted = some a → ∀ k ∈ awaiting V a.account, k ∈ a.request.keys
  receipt : ∀ d r, (s.calls d).receipt = some r → Covered V s.server r.account

namespace Stocking

variable {s : State α κ} {c : ℕ}

theorem init : Stocking V (State.init : State α κ) where
  server := ⟨PreKeys.State.ordered_init, PreKeys.State.inv_init⟩
  begun _ h := by cases h
  record _ h := by cases h
  attempt _ _ h := by cases h
  sent _ _ h := by cases h
  unsent _ _ h := by cases h
  receipt _ _ h := by cases h

theorem call (h : Stocking V s) {x : Call α κ} {r : Option α} {p : Option ℤ} {l : List ℕ}
    (hrecord : ∀ a ∈ r, Covered V s.server a)
    (hattempt : ∀ a, x.attempt = some a → Covered V s.server a.account ∧ ((s.server.uploads c).posted = true →
      ∀ k ∈ a.request.keys, s.server.Reaches c k))
    (hunsent : ∀ a, x.unposted = some a → ∀ k ∈ awaiting V a.account, k ∈ a.request.keys)
    (hreceipt : ∀ r, x.receipt = some r → Covered V s.server r.account)
    (hbegun : (s.calls c).begun = true → x.begun = true) :
    Stocking V { s with
      record := r, fallbackPublishedAt := p, calls := Function.update s.calls c x, started := l } := by
  have hat : ∀ (P : ℕ → Call α κ → Prop), P c x → (∀ d, P d (s.calls d)) →
      ∀ d, P d (Function.update s.calls c x d) := by
    intro P hc hall d
    by_cases hdc : d = c
    · subst hdc
      rw [Function.update_self]
      exact hc
    · rw [Function.update_of_ne hdc]
      exact hall d
  exact {
    server := h.server
    begun := hat (fun d y => (s.server.uploads d).posted = true → y.begun = true) (fun hp => hbegun (h.begun c hp))
      h.begun
    record := hrecord
    attempt := hat (fun _ y => ∀ a, y.attempt = some a → Covered V s.server a.account) (fun a ha => (hattempt a ha).1)
      h.attempt
    sent := hat (fun d y => ∀ a, y.attempt = some a → (s.server.uploads d).posted = true →
      ∀ k ∈ a.request.keys, s.server.Reaches d k) (fun a ha => (hattempt a ha).2) h.sent
    unsent := hat (fun _ y => ∀ a, y.unposted = some a → ∀ k ∈ awaiting V a.account, k ∈ a.request.keys) hunsent
      h.unsent
    receipt := hat (fun _ y => ∀ r, y.receipt = some r → Covered V s.server r.account) hreceipt h.receipt }

theorem quiet (h : Stocking V s) {x : Call α κ} {r : Option α} {p : Option ℤ} {l : List ℕ}
    (hrecord : ∀ a ∈ r, Covered V s.server a) (ha : x.attempt = none) (hr : x.receipt = none) (hx : x.unposted = none)
    (hbegun : (s.calls c).begun = true → x.begun = true) :
    Stocking V { s with
      record := r, fallbackPublishedAt := p, calls := Function.update s.calls c x, started := l } := by
  refine h.call hrecord (fun a hxa => ?_) (fun a hxa => ?_) (fun a hxa => ?_) hbegun
  · rw [ha] at hxa
    cases hxa
  · rw [hx] at hxa
    cases hxa
  · rw [hr] at hxa
    cases hxa

theorem serve (h : Stocking V s) {server : PreKeys.State ℕ κ} (hk : PreKeys.State.Keeps s.server server)
    (hv : server.Inv) (hposted : ∀ d, (server.uploads d).posted = true → (s.server.uploads d).posted = true ∨
      (s.calls d).begun = true ∧ ∀ a, (s.calls d).attempt = some a → ∀ k ∈ a.request.keys, server.Reaches d k) :
    Stocking V (s.setServer server) := by
  have hcovered : ∀ a, Covered V s.server a → Covered V server a := fun a ha k hmem =>
    (ha k hmem).imp_right (hk.stocked k)
  exact {
    server := ⟨hk.ordered, hv⟩
    begun := fun d hp => (hposted d hp).elim (h.begun d) And.left
    record := fun a ha => hcovered a (h.record a ha)
    attempt := fun d a ha => hcovered _ (h.attempt d a ha)
    sent := fun d a ha hp k hmem => (hposted d hp).elim (fun hp => hk.reaches (h.sent d a ha hp k hmem))
      fun hnew => hnew.2 a ha k hmem
    unsent := h.unsent
    receipt := fun d r hr => hcovered _ (h.receipt d r hr) }

end Stocking

/-! ## The callbacks -/

section
variable {server : PreKeys.State ℕ κ}

theorem covered_open (hV : V.Lawful) (i : κ × κ) {r : Option α} (h : ∀ a ∈ r, Covered V server a) :
    Covered V server (openAccount V i r) := by
  cases r with
  | some a => exact h a rfl
  | none =>
    intro k hk
    rw [openAccount_keys hV] at hk
    cases hk

theorem covered_replenish (hV : V.Lawful) (hC : Counted V) (fresh : ℕ → κ) {a : α} (h : Covered V server a) :
    Covered V server (replenish V fresh a) := by
  unfold replenish
  split
  · rename_i hlt
    have hroom : V.storedOneTimeKeyCount a +
        ((List.range (targetOneTimeKeys - V.storedOneTimeKeyCount a)).map fresh).length ≤ maxOneTimeKeys := by
      simp only [List.length_map, List.length_range, targetOneTimeKeys, maxOneTimeKeys, replenishThreshold] at hlt ⊢
      omega
    intro k hk
    rcases hV.generated_sub hk with hk | hk
    · exact (h k hk).imp_left fun hk => (hC.generated hroom).2 (.inl hk)
    · exact .inl ((hC.generated hroom).2 (.inr hk))
  · exact h

theorem covered_prepare (hV : V.Lawful) (hC : Counted V) {r : Option α} (h : ∀ a ∈ r, Covered V server a) (i : κ × κ)
    (rotate : Bool) (fresh : ℕ → κ) (f : κ) : Covered V server (prepare V r i rotate fresh f).account ∧
      ∀ k ∈ awaiting V (prepare V r i rotate fresh f).account, k ∈ (prepare V r i rotate fresh f).request.keys := by
  have hcovered := covered_replenish hV hC fresh (covered_open hV i h)
  have hkeys : (prepare V r i rotate fresh f).request.keys = awaiting V (replenish V fresh (openAccount V i r)) := by
    simp only [PreKeys.PreKeyUploadRequest.keys, prepare, awaiting, List.map_map]
    rfl
  rw [hkeys]
  cases rotate with
  | false => exact ⟨hcovered, fun _ => id⟩
  | true =>
    have haccount : (prepare V r i true fresh f).account =
        V.generateFallbackKey f (replenish V fresh (openAccount V i r)) := rfl
    rw [haccount, awaiting, hV.unpublished_rotated]
    refine ⟨fun k hk => ?_, fun _ => id⟩
    rw [hV.oneTimeKeys_rotated] at hk
    rw [awaiting, hV.unpublished_rotated]
    exact hcovered k hk

theorem covered_published (hV : V.Lawful) {a : α} (h : Covered V server a)
    (hsent : ∀ k ∈ awaiting V a, server.Stocked k) : Covered V server (V.markKeysAsPublished a) := by
  intro k hk
  rw [hV.oneTimeKeys_published] at hk
  exact .inr ((h k hk).elim (hsent k) id)

theorem covered_consumed (hV : V.Lawful) (hC : Counted V) {a a' : α} {k : κ} (h : Covered V server a)
    (hs : V.createInboundSession k a = some a') : Covered V server a' := by
  intro j hj
  obtain ⟨hj, hne⟩ := (hV.mem_consumed hs).1 hj
  exact (h j hj).imp_left (hC.consumed hs hne)

end

section Steps

variable [DecidableEq κ] {F : PreKeys.Format ℕ κ} {s s' : State α κ} {c : ℕ}

theorem stocking_publish {create now} (h : Stocking V s)
    (hs : s.step V F (.publish c create now) = some s') : Stocking V s' := by
  simp only [State.step] at hs
  split at hs
  · rename_i hc
    split at hs
    · cases hs
    · cases hs
      refine h.quiet (r := s.record) (p := s.fallbackPublishedAt) h.record rfl rfl rfl fun hb => ?_
      rw [hc] at hb
      cases hb
  · cases hs

theorem stocking_withAccount {i fresh f} (hV : V.Lawful) (hC : Counted V) (h : Stocking V s)
    (hs : s.step V F (.withAccount c i fresh f) = some s') : Stocking V s' := by
  simp only [State.step] at hs
  split at hs
  · rename_i publishedAt now hc
    have hp : ∀ {P : Prop}, (s.server.uploads c).posted = true → P := fun hp => by
      have hb := h.begun c hp
      rw [hc] at hb
      cases hb
    obtain ⟨hcovered, hunsent⟩ := covered_prepare hV hC h.record i (shouldRotateFallback publishedAt now) fresh f
    split at hs
    · cases hs
      refine h.call (r := s.record) (p := s.fallbackPublishedAt) (l := s.started) h.record (fun a ha => ?_)
        (fun a ha => (by cases ha)) (fun r hr => (by cases hr)) fun _ => rfl
      cases ha
      exact ⟨hcovered, hp⟩
    · cases hs
      refine h.call (r := s.record) (p := s.fallbackPublishedAt) (l := s.started) h.record (fun a ha => ?_)
        (fun a ha => ?_) (fun r hr => (by cases hr)) fun _ => rfl
      · cases ha
        exact ⟨hcovered, hp⟩
      · cases ha
        exact hunsent
  · cases hs

theorem stocking_post {epoch} (h : Stocking V s) (hs : s.step V F (.post c epoch) = some s') : Stocking V s' := by
  simp only [State.step] at hs
  split at hs
  · rename_i a now hc
    obtain ⟨server, hserver, rfl⟩ := Option.map_eq_some_iff.1 hs
    refine h.serve (PreKeys.State.keeps_step h.server.1 h.server.2 (fun key he => (by cases he)) hserver)
      (PreKeys.State.inv_step _ _ _ h.server.2 hserver) fun d hp => ?_
    by_cases hdc : d = c
    · subst hdc
      refine .inr ⟨by rw [hc]; rfl, fun b hb k hk => ?_⟩
      rw [hc] at hb
      cases hb
      exact PreKeys.State.reaches_upload hserver k hk
    · refine .inl ?_
      simp only [PreKeys.State.step] at hserver
      split at hserver
      · cases hserver
        have hother : ∀ u, (s.server.setUpload c u).uploads d = s.server.uploads d :=
          fun u => Function.update_of_ne hdc ..
        rwa [hother] at hp
      · cases hserver
  · cases hs

theorem stocking_answer (hV : V.Lawful) (h : Stocking V s) (hs : s.step V F (.answer c) = some s') : Stocking V s' := by
  simp only [State.step] at hs
  split at hs
  · rename_i a now hc
    split at hs
    · rename_i hacc
      cases hs
      have ha : (s.calls c).attempt = some a := by rw [hc]; rfl
      have hsent := h.sent c a ha (posted_of_accepted hacc).1
      refine h.call (r := s.record) (p := s.fallbackPublishedAt) (l := s.started) h.record (fun b hb => ?_)
        (fun b hb => (by cases hb)) (fun r hr => (by cases hr)) fun _ => rfl
      cases hb
      refine ⟨covered_published hV (h.attempt c a ha) fun k hk => ?_, fun _ => hsent⟩
      exact (hsent k (h.unsent c a (by rw [hc]; rfl) k hk)).stocked hacc
    · cases hs
  · cases hs

theorem stocking_tooManyRequests (h : Stocking V s)
    (hs : s.step V F (.tooManyRequests c) = some s') : Stocking V s' := by
  simp only [State.step] at hs
  split at hs
  · rename_i a now hc
    split at hs
    · cases hs
    · cases hs
      have ha : (s.calls c).attempt = some a := by rw [hc]; rfl
      refine h.call (r := s.record) (p := s.fallbackPublishedAt) (l := s.started) h.record (fun b hb => ?_)
        (fun b hb => (by cases hb)) (fun r hr => (by cases hr)) fun _ => rfl
      cases hb
      exact ⟨h.attempt c a ha, h.sent c a ha⟩
  · cases hs

theorem stocking_writePickle (h : Stocking V s) (hs : s.step V F (.writePickle c) = some s') : Stocking V s' := by
  simp only [State.step] at hs
  split at hs
  · rename_i a now hc
    cases hs
    refine h.quiet (p := s.fallbackPublishedAt) (l := s.started) (fun b hb => ?_) rfl rfl rfl fun _ => rfl
    cases hb
    exact h.attempt c a (by rw [hc]; rfl)
  · rename_i a hc
    cases hs
    refine h.quiet (p := s.fallbackPublishedAt) (l := s.started) (fun b hb => ?_) rfl rfl rfl fun _ => rfl
    cases hb
    exact h.attempt c a (by rw [hc]; rfl)
  · rename_i r hc
    cases hs
    refine h.quiet (p := s.fallbackPublishedAt) (l := s.started) (fun b hb => ?_) rfl rfl rfl fun _ => rfl
    cases hb
    exact h.receipt c r (by rw [hc]; rfl)
  · cases hs

theorem stocking_receive {i k} (hV : V.Lawful) (hC : Counted V) (h : Stocking V s)
    (hs : s.step V F (.receive c i k) = some s') : Stocking V s' := by
  simp only [State.step] at hs
  split at hs
  · split at hs
    · rename_i a ha
      cases hs
      refine h.call (r := s.record) (p := s.fallbackPublishedAt) h.record (fun b hb => (by cases hb))
        (fun b hb => (by cases hb)) (fun r hr => ?_) fun _ => rfl
      cases hr
      exact covered_consumed hV hC (covered_open hV i h.record) ha
    · cases hs
      exact h.quiet (r := s.record) (p := s.fallbackPublishedAt) h.record rfl rfl rfl fun _ => rfl
  · cases hs

theorem stocking_server {e} (h : Stocking V s)
    (hkeep : Event.replaces (.server e : Event κ) = false)
    (hs : s.step V F (.server e) = some s') : Stocking V s' := by
  simp only [State.step] at hs
  split at hs
  · cases hs
  · rename_i he
    obtain ⟨server, hserver, rfl⟩ := Option.map_eq_some_iff.1 hs
    refine h.serve (PreKeys.State.keeps_step h.server.1 h.server.2 (fun key hr => ?_) hserver)
      (PreKeys.State.inv_step _ _ _ h.server.2 hserver) fun d hp => .inl ?_
    · subst hr
      cases hkeep
    · rwa [(PreKeys.State.advances_step (fun i r epoch hi => he i r epoch hi) hserver).posted] at hp

end Steps

theorem stocking_step [DecidableEq κ] (hV : V.Lawful) (hC : Counted V) {F : PreKeys.Format ℕ κ} (s : State α κ)
    (e : Event κ) (s' : State α κ) (h : Stocking V s) (hok : Filling V s e) (hs : s.step V F e = some s') :
    Stocking V s' := by
  cases e with
  | publish c create now => exact stocking_publish h hs
  | withAccount c i fresh f => exact stocking_withAccount hV hC h hs
  | post c epoch => exact stocking_post h hs
  | answer c => exact stocking_answer hV h hs
  | tooManyRequests c => exact stocking_tooManyRequests h hs
  | throw c =>
    simp only [State.step] at hs
    split at hs
    · cases hs
    · cases hs
    · cases hs
      exact h.quiet (r := s.record) (p := s.fallbackPublishedAt) (l := s.started) h.record rfl rfl rfl fun _ => rfl
  | writePickle c => exact stocking_writePickle h hs
  | markFallbackPublished c =>
    simp only [State.step] at hs
    split at hs
    · cases hs
      exact h.quiet (r := s.record) (l := s.started) h.record rfl rfl rfl fun _ => rfl
    · cases hs
  | receive c i k => exact stocking_receive hV hC h hs
  | server e => exact stocking_server h hok.1 hs

theorem length_filter_not (p : κ → Bool) (l : List κ) :
    (l.filter p).length + (l.filter fun k => !p k).length = l.length := by
  rw [← List.length_append]
  exact (List.filter_append_perm p l).length_eq

theorem supplied_pool [DecidableEq κ] (hC : Counted V) {s : State α κ} {a : α} (h : Covered V s.server a)
    (hs : Supplied V s a) : replenishThreshold ≤ s.server.account.oneTimeKeys.length := by
  have hpool : (V.oneTimeKeys a).filter (fun k => !decide (k ∈ s.server.fetched ∨ k ∈ awaiting V a)) ⊆
      s.server.account.pool := by
    intro k hk
    obtain ⟨hk, hnot⟩ := List.mem_filter.1 hk
    simp only [Bool.not_eq_true', decide_eq_false_iff_not, not_or] at hnot
    exact ((h k hk).resolve_left hnot.2).resolve_right hnot.1
  have hlength := (List.subperm_of_subset (hs.1.filter _) hpool).length_le
  have hcount := length_filter_not (fun k => decide (k ∈ s.server.fetched ∨ k ∈ awaiting V a)) (V.oneTimeKeys a)
  have houtstanding := hs.2
  rw [hC.stored, outstanding] at houtstanding
  rw [PreKeys.Account.pool, List.length_map] at hlength
  omega

/-- **In every run that meets the condition, the pool has at least `replenishThreshold` keys whenever a publication
completes.** -/
theorem supplied_run [DecidableEq κ] (hV : V.Lawful) (hC : Counted V) {F : PreKeys.Format ℕ κ} {s s' : State α κ}
    {es : List (Event κ)} {e : Event κ} (hm : Meets (State.step V F) (Filling V) State.init es)
    (hr : run (State.step V F) State.init es = some s) (hok : Filling V s e) (hs : s.step V F e = some s')
    (hc : (s.completing e).isSome) : replenishThreshold ≤ s'.server.account.oneTimeKeys.length := by
  have h : Stocking V s := Meets.invariant (Stocking V) (stocking_step hV hC) Stocking.init hm hr
  obtain ⟨x, hx⟩ := Option.isSome_iff_exists.1 hc
  obtain ⟨a, ha, hsupplied⟩ := hok.2 x hx
  have hpool := fun hcovered => supplied_pool hC (s := s) hcovered hsupplied
  cases e with
  | writePickle c =>
    simp only [State.completing] at hx
    simp only [State.step] at hs
    split at hx
    · rename_i b hb
      rw [hb] at hs
      cases hs
      split at hx
      · cases hx
        cases ha
        exact hpool (h.attempt c b (by rw [hb]; rfl))
      · cases hx
    · cases hx
  | markFallbackPublished c =>
    simp only [State.completing] at hx
    simp only [State.step] at hs
    split at hx
    · rename_i now hnow
      rw [hnow] at hs
      cases hs
      cases hx
      exact hpool (h.record a ha)
    · cases hx
  | _ => cases hx

/-! ## Fetches without messages -/

theorem awaiting_generateOneTimeKeys {ks : List ℕ} {a : Account ℕ} {k : ℕ}
    (h : a.keys.length + ks.length ≤ maxOneTimeKeys) :
    k ∈ (a.generateOneTimeKeys ks).unpublishedOneTimeKeys.map OneTimeKey.publicKey ↔
      k ∈ a.unpublishedOneTimeKeys.map OneTimeKey.publicKey ∨ k ∈ ks := by
  induction ks generalizing a with
  | nil => exact ⟨.inl, fun h => h.resolve_right List.not_mem_nil⟩
  | cons x ks ih =>
    rw [List.length_cons] at h
    have hlength := a.length_insertKey x
    have hinsert : (a.insertKey x).unpublishedOneTimeKeys =
        a.unpublishedOneTimeKeys ++ [⟨a.nextKeyId, x⟩] := by
      simp [Account.unpublishedOneTimeKeys, Account.insertKey, if_neg (show ¬ maxOneTimeKeys ≤ a.keys.length by omega)]
    rw [Account.generateOneTimeKeys_cons, ih (by omega), hinsert, List.map_append, List.mem_append, List.mem_cons,
      List.map_singleton, List.mem_singleton, or_assoc]

theorem plain_counted : Counted plain where
  stored a := (List.length_map _).symm
  generated h := awaiting_generateOneTimeKeys h
  consumed {j k a a'} hs hne hj := by
    rw [(Account.createInboundSession_eq_some hs).2]
    obtain ⟨x, hx, rfl⟩ := List.mem_map.1 hj
    obtain ⟨y, hy, rfl⟩ := List.mem_map.1 hx
    obtain ⟨hy, hnot⟩ := List.mem_filter.1 hy
    exact List.mem_map.2 ⟨_, List.mem_map.2 ⟨y, List.mem_filter.2 ⟨List.mem_filter.2 ⟨hy, decide_eq_true hne⟩, hnot⟩,
      rfl⟩, rfl⟩

/-- A publication completes, `n` peers fetch a bundle and say nothing, and a publication is about to complete that has
nothing to send. -/
def fetchesWithoutMessages (n : ℕ) : List (Event ℕ) :=
  .flatten [upload 0 0 (100 + ·) 50, [.answer 0, .writePickle 0, .markFallbackPublished 0],
    (List.range n).flatMap fun j => .server (.fetch j) :: List.replicate 3 (.server (.read j [])),
    [.publish 1 true 1, .withAccount 1 (1, 2) (200 + ·) 51]]

theorem supplied_thirtyFetches : ∃ s s', run (State.step plain PreKeys.plainFormat) State.init
    (fetchesWithoutMessages 30) = some s ∧ s.step plain PreKeys.plainFormat (.writePickle 1) = some s' ∧
      replenishThreshold ≤ s'.server.account.oneTimeKeys.length := by
  obtain ⟨s, hs, hstep, hok, hc⟩ : ∃ s, run (State.step plain PreKeys.plainFormat) State.init
      (fetchesWithoutMessages 30) = some s ∧ (s.step plain PreKeys.plainFormat (.writePickle 1)).isSome ∧
        Filling plain s (.writePickle 1) ∧ (s.completing (.writePickle 1)).isSome :=
    exists_run _ _ _ (by decide +kernel)
  obtain ⟨s', hs'⟩ := Option.isSome_iff_exists.1 hstep
  exact ⟨s, s', hs, hs', supplied_run plain_lawful plain_counted (by decide +kernel) hs hok hs' hc⟩

/-- **A publication completes with a pool below the threshold**: the keys that were fetched are counted as if they could
still be. -/
theorem fetchesWithoutMessages_short : ∃ s s', run (State.step plain PreKeys.plainFormat) State.init
    (fetchesWithoutMessages 31) = some s ∧ s.step plain PreKeys.plainFormat (.writePickle 1) = some s' ∧
      (s.completing (.writePickle 1)).isSome ∧ s'.server.account.oneTimeKeys.length < replenishThreshold := by
  obtain ⟨s, hs, hstep, hc⟩ : ∃ s, run (State.step plain PreKeys.plainFormat) State.init
      (fetchesWithoutMessages 31) = some s ∧ (s.step plain PreKeys.plainFormat (.writePickle 1)).any
        (fun t => decide (t.server.account.oneTimeKeys.length < replenishThreshold)) = true ∧
          (s.completing (.writePickle 1)).isSome := exists_run _ _ _ (by decide +kernel)
  obtain ⟨s', hs', hshort⟩ := (Option.any_eq_true _ _).1 hstep
  exact ⟨s, s', hs, hs', hc, of_decide_eq_true hshort⟩

end Publisher
end SecureChat
