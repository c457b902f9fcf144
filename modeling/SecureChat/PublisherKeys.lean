import SecureChat.OlmPublisher
import SecureChat.PreKeyHandout
/-!
# PublisherKeys — the server's pool and the persisted account

Where every key of the server is: in the record, or new in an attempt under way.  A key of the record stays there until
an inbound session uses it, and that only when the server no longer has it; a new key reaches the record with its
attempt, whose end by an exception leaves none behind.
-/
namespace SecureChat
namespace Publisher

open Olm Runs

variable {α κ : Type} {V : Vodozemac α κ}

/-- `started` has every call that has begun. -/
def Started (s : State α κ) : Prop := ∀ d, d ∉ s.started → s.calls d = .idle

theorem Started.mem {s : State α κ} (h : Started s) {c : ℕ} (hc : s.calls c ≠ .idle) : c ∈ s.started := by
  by_contra hn
  exact hc (h c hn)

theorem Started.set {s : State α κ} (h : Started s) {c : ℕ} {x : Call α κ} {l : List ℕ} (hc : c ∈ l)
    (hl : ∀ d ∈ s.started, d ∈ l) {s' : State α κ} (hcalls : s'.calls = Function.update s.calls c x)
    (hs : s'.started = l) : Started s' := by
  intro d hd
  rw [hs] at hd
  have hdc : d ≠ c := by
    rintro rfl
    exact hd hc
  rw [hcalls, Function.update_of_ne hdc]
  exact h d fun hm => hd (hl d hm)

theorem Started.move {s : State α κ} (h : Started s) {c : ℕ} {x : Call α κ} (hc : s.calls c ≠ .idle)
    {s' : State α κ} (hcalls : s'.calls = Function.update s.calls c x) (hs : s'.started = s.started) : Started s' :=
  h.set (h.mem hc) (fun _ => id) hcalls hs

theorem started_step [DecidableEq κ] {F : PreKeys.Format ℕ κ} (s : State α κ) (e : Event κ) (s' : State α κ)
    (h : Started s) (hs : s.step V F e = some s') : Started s' := by
  have hbegin : ∀ {c x}, s'.calls = Function.update s.calls c x → s'.started = c :: s.started → Started s' :=
    fun hcalls hst => h.set List.mem_cons_self (fun _ => List.mem_cons_of_mem _) hcalls hst
  cases e with
  | publish c create now =>
    simp only [State.step] at hs
    split at hs
    · split at hs
      · cases hs
      · cases hs
        exact hbegin rfl rfl
    · cases hs
  | withAccount c i fresh f =>
    simp only [State.step] at hs
    split at hs
    · rename_i hc
      split at hs
      all_goals
        cases hs
        exact h.move (by rw [hc]; nofun) rfl rfl
    · cases hs
  | post c epoch =>
    simp only [State.step] at hs
    split at hs
    · obtain ⟨server, -, rfl⟩ := Option.map_eq_some_iff.1 hs
      exact h
    · cases hs
  | answer c | tooManyRequests c =>
    simp only [State.step] at hs
    split at hs
    · rename_i hc
      split at hs
      all_goals
        cases hs
      exact h.move (by rw [hc]; nofun) rfl rfl
    · cases hs
  | throw c =>
    simp only [State.step] at hs
    split at hs
    · cases hs
    · cases hs
    · rename_i hi _
      cases hs
      exact h.move hi rfl rfl
  | writePickle c =>
    simp only [State.step] at hs
    split at hs
    · rename_i hc
      cases hs
      exact h.move (by rw [hc]; nofun) rfl rfl
    · rename_i hc
      cases hs
      exact h.move (by rw [hc]; nofun) rfl rfl
    · rename_i hc
      cases hs
      exact h.move (by rw [hc]; nofun) rfl rfl
    · cases hs
  | markFallbackPublished c =>
    simp only [State.step] at hs
    split at hs
    · rename_i hc
      cases hs
      exact h.move (by rw [hc]; nofun) rfl rfl
    · cases hs
  | receive c i k =>
    simp only [State.step] at hs
    split at hs
    · split at hs
      · cases hs
        exact hbegin rfl rfl
      · cases hs
        exact hbegin rfl rfl
    · cases hs
  | server e =>
    simp only [State.step] at hs
    split at hs
    · cases hs
    · obtain ⟨server, -, rfl⟩ := Option.map_eq_some_iff.1 hs
      exact h

theorem started_run [DecidableEq κ] {F : PreKeys.Format ℕ κ} {s : State α κ} {es : List (Event κ)}
    (hr : run (State.step V F) State.init es = some s) : Started s :=
  run_invariant Started started_step (fun _ _ => rfl) hr

theorem Started.quiet {s : State α κ} (h : Started s) (hq : ∀ c ∈ s.started, (s.calls c).attempt.isNone = true)
    (c : ℕ) : (s.calls c).attempt = none := by
  by_cases hc : c ∈ s.started
  · exact Option.isNone_iff_eq_none.1 (hq c hc)
  · rw [h c hc]
    rfl

structure Attempt.Shape (V : Vodozemac α κ) (a : Attempt α κ) : Prop where
  request : ∀ k ∈ a.request.keys, k ∈ V.oneTimeKeys a.account
  base : ∀ k ∈ recordKeys V a.base, k ∈ V.oneTimeKeys a.account
  rotated : ∀ k, a.request.fallback = some k →
    V.fallbackKey a.account = some k ∧ V.previousFallbackKey a.account = recordFallback V a.base
  kept : a.request.fallback = none →
    V.fallbackKey a.account = recordFallback V a.base ∧ V.previousFallbackKey a.account = recordPrevious V a.base

structure Receipt.Shape (V : Vodozemac α κ) (r : Receipt α κ) : Prop where
  keys : ∀ k ∈ recordKeys V r.base, k ≠ r.key → k ∈ V.oneTimeKeys r.account
  fallback : V.fallbackKey r.account = recordFallback V r.base
  previous : V.previousFallbackKey r.account = recordPrevious V r.base

/-- A one-time key that call `d` has generated and put into its request. -/
def New (V : Vodozemac α κ) (x : Call α κ) (k : κ) : Prop :=
  ∃ a, x.attempt = some a ∧ k ∈ a.request.keys ∧ k ∉ recordKeys V a.base

/-- The fallback key that call `d` has generated and put into its request. -/
def NewFallback (x : Call α κ) (k : κ) : Prop := ∃ a, x.attempt = some a ∧ a.request.fallback = some k

def Call.begun : Call α κ → Bool
  | .idle | .opening _ _ => false
  | _ => true

structure Inv (V : Vodozemac α κ) (s : State α κ) : Prop where
  pool : ∀ k ∈ s.server.account.pool,
    k ∈ recordKeys V s.record ∨ ∃ d, (s.server.uploads d).accepted = true ∧ New V (s.calls d) k
  pending : ∀ d, ∀ k ∈ (s.server.uploads d).pending, k ∈ recordKeys V s.record ∨ New V (s.calls d) k
  unposted : ∀ d a, (s.calls d).unposted = some a → (s.server.uploads d).posted = false → ∀ k ∈ a.request.keys,
    k ∈ recordKeys V s.record ∨ k ∉ recordKeys V a.base
  fallback : ∀ k, s.server.account.fallback = some k →
    Supports V s.record k ∨ ∃ d, (s.server.uploads d).posted = true ∧ NewFallback (s.calls d) k
  pendingFallback : ∀ d k, (s.server.uploads d).pendingFallback = some k → NewFallback (s.calls d) k
  attempt : ∀ d a, (s.calls d).attempt = some a → a.Shape V
  receipt : ∀ d r, (s.calls d).receipt = some r → r.Shape V
  written : ∀ d a p, s.calls d = .writing a p →
    (s.server.uploads d).posted = false ∨ (s.server.uploads d).accepted = true
  begun : ∀ d, (s.server.uploads d).posted = true → (s.calls d).begun = true

theorem inv_init : Inv V (State.init : State α κ) where
  pool := nofun
  pending := nofun
  unposted := nofun
  fallback := nofun
  pendingFallback := nofun
  attempt := nofun
  receipt := nofun
  written := nofun
  begun := nofun

theorem not_new {x : Call α κ} (h : x.attempt = none) {k : κ} : ¬New V x k := by
  rintro ⟨a, ha, -⟩
  rw [h] at ha
  cases ha

theorem not_newFallback {x : Call α κ} (h : x.attempt = none) {k : κ} : ¬NewFallback x k := by
  rintro ⟨a, ha, -⟩
  rw [h] at ha
  cases ha

theorem posted_of_accepted {u : PreKeys.Upload ℕ κ} (h : u.accepted = true) :
    u.posted = true ∧ u.rejected = false := by
  cases u with
  | done a =>
    cases a with
    | ok => exact ⟨rfl, rfl⟩
    | _ => cases h
  | _ => cases h

theorem rejected_of_pending {u : PreKeys.Upload ℕ κ} {k : κ} (h : k ∈ u.pending) : u.rejected = false := by
  cases u with
  | done a => cases h
  | _ => rfl

theorem rejected_of_pendingFallback {u : PreKeys.Upload ℕ κ} {k : κ} (h : u.pendingFallback = some k) :
    u.rejected = false := by
  cases u with
  | done a => cases h
  | _ => rfl

section Moves

variable {s : State α κ}

theorem Inv.served_pending (h : Inv V s) (hst : Started s) {d : ℕ} {k : κ} (hk : k ∈ (s.server.uploads d).pending) :
    Served s k := by
  refine .inr ⟨d, hst.mem fun hi => ?_, .inl hk⟩
  have := h.begun d (PreKeys.Upload.posted_of_pending hk)
  rw [hi] at this
  cases this

theorem Started.served_unposted (hst : Started s) {d : ℕ} {a : Attempt α κ} {k : κ}
    (ha : (s.calls d).unposted = some a) (hp : (s.server.uploads d).posted = false) (hk : k ∈ a.request.keys) :
    Served s k := by
  refine .inr ⟨d, hst.mem fun hi => ?_, .inr ⟨hp, a, ha, hk⟩⟩
  rw [hi] at ha
  cases ha

theorem Inv.call (h : Inv V s) (hst : Started s) {c : ℕ} {x : Call α κ} {r : Option α} {p : Option ℤ} {l : List ℕ}
    (hheld : ∀ k ∈ recordKeys V s.record, Served s k → k ∈ recordKeys V r)
    (hnew : ∀ k, New V (s.calls c) k → (s.server.uploads c).posted = true → (s.server.uploads c).rejected = false →
      k ∈ recordKeys V r ∨ New V x k)
    (hsupp : ∀ k, s.server.account.fallback = some k → Supports V s.record k → Supports V r k)
    (hfall : ∀ k, NewFallback (s.calls c) k → s.server.account.fallback = some k →
      (s.server.uploads c).posted = true → Supports V r k ∨ NewFallback x k)
    (hpend : ∀ k, NewFallback (s.calls c) k → (s.server.uploads c).pendingFallback = some k → NewFallback x k)
    (hunp : ∀ a, x.unposted = some a → (s.server.uploads c).posted = false → ∀ k ∈ a.request.keys,
      k ∈ recordKeys V r ∨ k ∉ recordKeys V a.base)
    (hatt : ∀ a, x.attempt = some a → a.Shape V) (hrec : ∀ a, x.receipt = some a → a.Shape V)
    (hwr : ∀ a q, x = .writing a q → (s.server.uploads c).posted = false ∨ (s.server.uploads c).accepted = true)
    (hbegun : (s.calls c).begun = true → x.begun = true) :
    Inv V { s with record := r, fallbackPublishedAt := p, calls := Function.update s.calls c x, started := l } where
  pool k hk := by
    rcases h.pool k hk with hP | ⟨d, hacc, hd⟩
    · exact .inl (hheld k hP (.inl hk))
    · by_cases hdc : d = c
      · subst hdc
        obtain ⟨hp, hr⟩ := posted_of_accepted hacc
        refine (hnew k hd hp hr).imp id fun hx => ⟨d, hacc, ?_⟩
        simpa only [Function.update_self] using hx
      · refine .inr ⟨d, hacc, ?_⟩
        simpa only [Function.update_of_ne hdc] using hd
  pending d k hk := by
    rcases h.pending d k hk with hP | hd
    · exact .inl (hheld k hP (h.served_pending hst hk))
    · by_cases hdc : d = c
      · subst hdc
        simp only [Function.update_self]
        exact hnew k hd (PreKeys.Upload.posted_of_pending hk) (rejected_of_pending hk)
      · simp only [Function.update_of_ne hdc]
        exact .inr hd
  unposted d a ha hp k hk := by
    by_cases hdc : d = c
    · subst hdc
      simp only [Function.update_self] at ha
      exact hunp a ha hp k hk
    · simp only [Function.update_of_ne hdc] at ha
      exact (h.unposted d a ha hp k hk).imp (fun hP => hheld k hP (hst.served_unposted ha hp hk)) id
  fallback k hk := by
    rcases h.fallback k hk with hP | ⟨d, hp, hd⟩
    · exact .inl (hsupp k hk hP)
    · by_cases hdc : d = c
      · subst hdc
        refine (hfall k hd hk hp).imp id fun hx => ⟨d, hp, ?_⟩
        simpa only [Function.update_self] using hx
      · refine .inr ⟨d, hp, ?_⟩
        simpa only [Function.update_of_ne hdc] using hd
  pendingFallback d k hk := by
    by_cases hdc : d = c
    · subst hdc
      simp only [Function.update_self]
      exact hpend k (h.pendingFallback d k hk) hk
    · simp only [Function.update_of_ne hdc]
      exact h.pendingFallback d k hk
  attempt d a ha := by
    by_cases hdc : d = c
    · subst hdc
      simp only [Function.update_self] at ha
      exact hatt a ha
    · simp only [Function.update_of_ne hdc] at ha
      exact h.attempt d a ha
  receipt d a ha := by
    by_cases hdc : d = c
    · subst hdc
      simp only [Function.update_self] at ha
      exact hrec a ha
    · simp only [Function.update_of_ne hdc] at ha
      exact h.receipt d a ha
  written d a q ha := by
    by_cases hdc : d = c
    · subst hdc
      simp only [Function.update_self] at ha
      exact hwr a q ha
    · simp only [Function.update_of_ne hdc] at ha
      exact h.written d a q ha
  begun d hp := by
    by_cases hdc : d = c
    · subst hdc
      simp only [Function.update_self]
      exact hbegun (h.begun d hp)
    · simp only [Function.update_of_ne hdc]
      exact h.begun d hp

theorem Inv.fresh (h : Inv V s) (hst : Started s) {c : ℕ} {x : Call α κ} {p : Option ℤ} {l : List ℕ}
    (hno : (s.calls c).attempt = none)
    (hunp : ∀ a, x.unposted = some a → a.base = s.record) (hatt : ∀ a, x.attempt = some a → a.Shape V)
    (hrec : ∀ a, x.receipt = some a → a.Shape V)
    (hwr : ∀ a q, x = .writing a q → (s.server.uploads c).posted = false)
    (hbegun : (s.calls c).begun = true → x.begun = true) :
    Inv V { s with fallbackPublishedAt := p, calls := Function.update s.calls c x, started := l } := by
  refine h.call hst (fun k hk _ => hk) (fun k hk => absurd hk (not_new hno)) (fun k _ hk => hk)
    (fun k hk => absurd hk (not_newFallback hno)) (fun k hk => absurd hk (not_newFallback hno)) (fun a ha _ k _ => ?_)
    hatt hrec (fun a q hx => .inl (hwr a q hx)) hbegun
  rw [hunp a ha]
  exact Classical.em _

theorem Inv.goOn (h : Inv V s) (hst : Started s) {c : ℕ} {a b : Attempt α κ} {q : Option ℤ}
    (ha : (s.calls c).attempt = some a)
    (hbase : b.base = a.base) (hreq : b.request = a.request) (hb : b.Shape V)
    (hwr : (s.server.uploads c).posted = false ∨ (s.server.uploads c).accepted = true) :
    Inv V (s.setCall c (.writing b q)) := by
  have hnew : ∀ k, New V (s.calls c) k → New V (.writing b q) k := by
    rintro k ⟨a', ha', hk, hne⟩
    rw [ha, Option.some.injEq] at ha'
    subst ha'
    exact ⟨b, rfl, hreq ▸ hk, hbase ▸ hne⟩
  have hfall : ∀ k, NewFallback (s.calls c) k → NewFallback (.writing b q) k := by
    rintro k ⟨a', ha', hk⟩
    rw [ha, Option.some.injEq] at ha'
    subst ha'
    exact ⟨b, rfl, hreq ▸ hk⟩
  refine h.call (p := s.fallbackPublishedAt) hst (fun k hk _ => hk) (fun k hk _ _ => .inr (hnew k hk))
    (fun k _ hk => hk) (fun k hk _ _ => .inr (hfall k hk)) (fun k hk _ => hfall k hk) nofun (fun a' ha' => ?_) nofun
    (fun _ _ _ => hwr) (fun _ => rfl)
  cases ha'
  exact hb

theorem Inv.post [DecidableEq κ] {F : PreKeys.Format ℕ κ} (h : Inv V s) {c epoch : ℕ} {a : Attempt α κ} {now : ℤ}
    {server : PreKeys.State ℕ κ} (ha : s.calls c = .uploading a now)
    (hs : PreKeys.State.step F s.server (.upload c a.request epoch) = some server) :
    Inv V (s.setServer server) := by
  obtain ⟨u, hidle, hu, hr, hf, rfl⟩ : ∃ u, s.server.uploads c = .idle ∧
      (u.pending = a.request.keys ∨ u.pending = []) ∧ u.accepted = false ∧
      (u.pendingFallback = a.request.fallback ∨ u.pendingFallback = none) ∧
      server = s.server.setUpload c u := by
    simp only [PreKeys.State.step] at hs
    split at hs
    · rename_i hidle
      cases hs
      refine ⟨_, hidle, ?_, ?_, ?_, rfl⟩
      all_goals split
      · exact .inl rfl
      · exact .inr rfl
      · rfl
      · rfl
      · exact .inl rfl
      · exact .inr rfl
    · cases hs
  have hatt : (s.calls c).attempt = some a := by rw [ha]; rfl
  have hpost : (s.server.uploads c).posted = false := by rw [hidle]; rfl
  have hne : ∀ {d}, (s.server.uploads d).posted = true → d ≠ c := by
    rintro d hd rfl
    rw [hpost] at hd
    cases hd
  exact {
    pool := fun k hk => by
      refine (h.pool k hk).imp id ?_
      rintro ⟨d, hacc, hd⟩
      refine ⟨d, ?_, hd⟩
      have hdc : d ≠ c := hne (posted_of_accepted hacc).1
      simpa only [State.setServer, PreKeys.State.setUpload, Function.update_of_ne hdc] using hacc
    pending := fun d k hk => by
      simp only [State.setServer, PreKeys.State.setUpload] at hk ⊢
      by_cases hdc : d = c
      · subst hdc
        rw [Function.update_self] at hk
        rcases hu with hu | hu
        · rw [hu] at hk
          refine (h.unposted d a (by rw [ha]; rfl) hpost k hk).imp id fun hk' => ⟨a, hatt, hk, hk'⟩
        · rw [hu] at hk
          cases hk
      · rw [Function.update_of_ne hdc] at hk
        exact h.pending d k hk
    unposted := fun d b hb hp k hk => by
      refine h.unposted d b hb ?_ k hk
      by_cases hdc : d = c
      · rw [hdc]
        exact hpost
      · simpa only [State.setServer, PreKeys.State.setUpload, Function.update_of_ne hdc] using hp
    fallback := fun k hk => by
      refine (h.fallback k hk).imp id ?_
      rintro ⟨d, hp, hd⟩
      refine ⟨d, ?_, hd⟩
      simpa only [State.setServer, PreKeys.State.setUpload, Function.update_of_ne (hne hp)] using hp
    pendingFallback := fun d k hk => by
      simp only [State.setServer, PreKeys.State.setUpload] at hk ⊢
      by_cases hdc : d = c
      · subst hdc
        rw [Function.update_self] at hk
        rcases hf with hf | hf
        · exact ⟨a, hatt, by rw [← hf, hk]⟩
        · rw [hf] at hk
          cases hk
      · rw [Function.update_of_ne hdc] at hk
        exact h.pendingFallback d k hk
    attempt := h.attempt
    receipt := h.receipt
    written := fun d b q hd => by
      have hdc : d ≠ c := by
        rintro rfl
        have hd : s.calls d = .writing b q := hd
        rw [ha] at hd
        cases hd
      simpa only [State.setServer, PreKeys.State.setUpload, Function.update_of_ne hdc] using h.written d b q hd
    begun := fun d hp => by
      by_cases hdc : d = c
      · show (s.calls d).begun = true
        rw [hdc, ha]
        rfl
      · refine h.begun d ?_
        simpa only [State.setServer, PreKeys.State.setUpload, Function.update_of_ne hdc] using hp }

theorem Inv.advances (h : Inv V s) {server : PreKeys.State ℕ κ} (hs : PreKeys.Advances s.server server) :
    Inv V (s.setServer server) where
  pool k hk := by
    rcases hs.pool k hk with hk | ⟨d, hacc, hd⟩
    · refine (h.pool k hk).imp id ?_
      rintro ⟨d, hacc, hd⟩
      refine ⟨d, ?_, hd⟩
      have he : (s.server.uploads d).ended = true := PreKeys.Upload.ended_of_accepted hacc
      show (server.uploads d).accepted = true
      rw [hs.ended d he]
      exact hacc
    · exact (h.pending d k hd).imp id fun hn => ⟨d, hacc, hn⟩
  pending d k hk := h.pending d k (hs.pending d k hk)
  unposted d a ha hp := h.unposted d a ha ((hs.posted d).symm.trans hp)
  fallback k hk := by
    rcases hs.fallback k hk with hk | ⟨d, hd⟩
    · refine (h.fallback k hk).imp id ?_
      rintro ⟨d, hp, hd⟩
      exact ⟨d, (hs.posted d).trans hp, hd⟩
    · refine .inr ⟨d, ?_, h.pendingFallback d k hd⟩
      exact (hs.posted d).trans (PreKeys.Upload.posted_of_pendingFallback hd)
  pendingFallback d k hk := h.pendingFallback d k (hs.pendingFallback d k hk)
  attempt := h.attempt
  receipt := h.receipt
  written d a q hd := by
    rcases h.written d a q hd with hp | hacc
    · exact .inl ((hs.posted d).trans hp)
    · refine .inr ?_
      show (server.uploads d).accepted = true
      rw [hs.ended d (PreKeys.Upload.ended_of_accepted hacc)]
      exact hacc
  begun d hp := h.begun d ((hs.posted d).symm.trans hp)

theorem Inv.throw (h : Inv V s) (hst : Started s) {c : ℕ}
    (hok : ∀ a ∈ (s.calls c).attempt, Abandonable V s c a) : Inv V (s.setCall c .done) := by
  refine h.call (p := s.fallbackPublishedAt) hst (fun k hk _ => hk) ?_ (fun k _ hk => hk) ?_ ?_ nofun nofun nofun
    nofun (fun _ => rfl)
  · rintro k ⟨a, ha, hk, hne⟩ hp hr
    have := hok a ha
    rw [Abandonable, if_pos hp, if_neg (by rw [hr]; nofun)] at this
    exact absurd (this.2 k hk) hne
  · rintro k ⟨a, ha, hk⟩ hF hp
    have := hok a ha
    rw [Abandonable, if_pos hp] at this
    split at this
    · exact absurd hk (this k hF)
    · rw [hk] at this
      cases this.1
  · rintro k ⟨a, ha, hk⟩ hF
    have := hok a ha
    rw [Abandonable, if_pos (PreKeys.Upload.posted_of_pendingFallback hF),
      if_neg (by rw [rejected_of_pendingFallback hF]; nofun), hk] at this
    cases this.1

/-- **A publication writes its account**: with nothing added since it read the record, all that was there is still
there, and its new keys join it. -/
theorem Inv.write (h : Inv V s) (hst : Started s) {c : ℕ} {a : Attempt α κ} {q : Option ℤ} {x : Call α κ}
    (hc : s.calls c = .writing a q) (hx : x.attempt = none) (hx' : x.receipt = none) (hx'' : x.begun = true)
    (hfresh : Unadded V s a.base) (hsup : Superseding V s a) :
    Inv V { s.setCall c x with record := some a.account } := by
  have ha : (s.calls c).attempt = some a := by rw [hc]; rfl
  have hsh := h.attempt c a ha
  obtain ⟨hkeys, hfb, hprev⟩ := hfresh
  have heq : ∀ b, (s.calls c).attempt = some b → b = a := fun b hb => by
    rw [ha, Option.some.injEq] at hb
    exact hb.symm
  refine h.call (p := s.fallbackPublishedAt) (l := s.started) hst (fun k hk _ => hsh.base k (hkeys k hk)) ?_ ?_ ?_ ?_
    (fun b hb => ?_) (fun b hb => ?_) (fun b hb => ?_) (fun b q' hb => ?_) (fun _ => hx'')
  · rintro k ⟨b, hb, hk, -⟩ - -
    exact .inl (hsh.request k (heq b hb ▸ hk))
  · intro k hF hk
    cases hreq : a.request.fallback with
    | none =>
      obtain ⟨h1, h2⟩ := hsh.kept hreq
      rw [Supports, hfb, hprev] at hk
      exact hk.imp (fun hk => h1.trans hk) fun hk => h2.trans hk
    | some f =>
      obtain ⟨h1, h2⟩ := hsh.rotated f hreq
      rcases hk with hk | hk
      · exact .inr (h2.trans (hfb ▸ hk))
      · rcases hsup with hno | hsup
        · rw [hreq] at hno
          cases hno
        · rcases hsup k hF (hprev ▸ hk) with hk | hk
          · exact .inr (h2.trans hk)
          · rw [hreq] at hk
            exact .inl (h1.trans hk)
  · rintro k ⟨b, hb, hk⟩ - -
    rw [heq b hb] at hk
    exact .inl (.inl (hsh.rotated k hk).1)
  · rintro k - hF
    exfalso
    rcases h.written c a q hc with hp | hacc
    · rw [PreKeys.Upload.posted_of_pendingFallback hF] at hp
      cases hp
    · rw [(PreKeys.Upload.pending_of_ended (PreKeys.Upload.ended_of_accepted hacc)).2] at hF
      cases hF
  · cases x with
    | uploading b n => cases hx
    | _ => cases hb
  · rw [hx] at hb
    cases hb
  · rw [hx'] at hb
    cases hb
  · rw [hb] at hx
    cases hx

/-- **An inbound session writes its account**: the key it used is gone, and the server cannot serve it. -/
theorem Inv.receive (h : Inv V s) (hst : Started s) {c : ℕ} {r : Receipt α κ} (hc : s.calls c = .receiving r)
    (hfresh : Unadded V s r.base) (hserved : ¬Served s r.key) :
    Inv V { s.setCall c .done with record := some r.account } := by
  have hno : (s.calls c).attempt = none := by rw [hc]; rfl
  have hsh := h.receipt c r (by rw [hc]; rfl)
  obtain ⟨hkeys, hfb, hprev⟩ := hfresh
  refine h.call (p := s.fallbackPublishedAt) (l := s.started) hst (fun k hk hsv => ?_)
    (fun k hk => absurd hk (not_new hno)) (fun k _ hk => ?_) (fun k hk => absurd hk (not_newFallback hno))
    (fun k hk => absurd hk (not_newFallback hno)) nofun nofun nofun nofun (fun _ => rfl)
  · refine hsh.keys k (hkeys k hk) ?_
    rintro rfl
    exact hserved hsv
  · rw [Supports, hfb, hprev] at hk
    exact hk.imp (fun hk => hsh.fallback.trans hk) fun hk => hsh.previous.trans hk

end Moves

/-! ## What the callbacks do -/

section Callbacks

variable (hV : V.Lawful) (i : κ × κ) (r : Option α)

include hV

theorem openAccount_keys : V.oneTimeKeys (openAccount V i r) = recordKeys V r := by
  cases r with
  | none => exact hV.oneTimeKeys_createAccount i
  | some a => rfl

theorem openAccount_fallback : V.fallbackKey (openAccount V i r) = recordFallback V r := by
  cases r with
  | none => exact hV.fallbackKey_createAccount i
  | some a => rfl

theorem openAccount_previous : V.previousFallbackKey (openAccount V i r) = recordPrevious V r := by
  cases r with
  | none => exact hV.previous_createAccount i
  | some a => rfl

theorem replenish_keeps (fresh : ℕ → κ) (a : α) {k : κ} (hk : k ∈ V.oneTimeKeys a) :
    k ∈ V.oneTimeKeys (replenish V fresh a) := by
  unfold replenish
  split
  · refine hV.generated_keeps ?_ (.inl hk)
    rename_i hlt
    simp only [List.length_map, List.length_range, targetOneTimeKeys, maxOneTimeKeys, replenishThreshold] at hlt ⊢
    omega
  · exact hk

theorem replenish_fallback (fresh : ℕ → κ) (a : α) : V.fallbackKey (replenish V fresh a) = V.fallbackKey a ∧
    V.previousFallbackKey (replenish V fresh a) = V.previousFallbackKey a := by
  unfold replenish
  split
  · exact ⟨hV.fallbackKey_generated _ a, hV.previous_generated _ a⟩
  · exact ⟨rfl, rfl⟩

theorem prepare_shape (rotate : Bool) (fresh : ℕ → κ) (f : κ) : (prepare V r i rotate fresh f).Shape V := by
  have hb : ∀ k ∈ recordKeys V r, k ∈ V.oneTimeKeys (replenish V fresh (openAccount V i r)) := fun k hk =>
    replenish_keeps hV fresh _ (openAccount_keys hV i r ▸ hk)
  have hq : ∀ k ∈ (V.unpublishedOneTimeKeys (replenish V fresh (openAccount V i r))).map
      (fun k => (⟨k.keyId, k.publicKey⟩ : PreKeys.OneTimeKey ℕ κ)) |>.map PreKeys.OneTimeKey.publicKey,
      k ∈ V.oneTimeKeys (replenish V fresh (openAccount V i r)) := fun k hk => by
    rw [List.map_map] at hk
    obtain ⟨x, hx, rfl⟩ := List.mem_map.1 hk
    exact hV.unpublished_held hx
  obtain ⟨h1, h2⟩ := replenish_fallback hV fresh (openAccount V i r)
  rw [openAccount_fallback hV] at h1
  rw [openAccount_previous hV] at h2
  cases rotate with
  | false => exact ⟨hq, hb, nofun, fun _ => ⟨h1, h2⟩⟩
  | true =>
    refine ⟨fun k hk => ?_, fun k hk => ?_, fun k hk => ?_, nofun⟩
    · exact (hV.oneTimeKeys_rotated f _).symm ▸ hq k hk
    · exact (hV.oneTimeKeys_rotated f _).symm ▸ hb k hk
    · cases hk
      exact ⟨hV.fallbackKey_rotated f _, (hV.previous_rotated f _).trans h1⟩

omit i r in
theorem published_shape {a : Attempt α κ} (h : a.Shape V) :
    ({ a with account := V.markKeysAsPublished a.account } : Attempt α κ).Shape V where
  request k hk := (hV.oneTimeKeys_published a.account).symm ▸ h.request k hk
  base k hk := (hV.oneTimeKeys_published a.account).symm ▸ h.base k hk
  rotated k hk := ⟨(hV.fallbackKey_published _).trans (h.rotated k hk).1, (hV.previous_published _).trans
    (h.rotated k hk).2⟩
  kept hk := ⟨(hV.fallbackKey_published _).trans (h.kept hk).1, (hV.previous_published _).trans (h.kept hk).2⟩

theorem receipt_shape {k : κ} {a : α} (ha : V.createInboundSession k (openAccount V i r) = some a) :
    (⟨r, a, k⟩ : Receipt α κ).Shape V where
  keys _ hj hne := (hV.mem_consumed ha).2 ⟨openAccount_keys hV i r ▸ hj, hne⟩
  fallback := (hV.fallbackKey_consumed ha).trans (openAccount_fallback hV i r)
  previous := (hV.previous_consumed ha).trans (openAccount_previous hV i r)

end Callbacks

theorem inv_step [DecidableEq κ] (hV : V.Lawful) {F : PreKeys.Format ℕ κ} (s : State α κ) (e : Event κ)
    (s' : State α κ) (h : Inv V s) (hst : Started s) (hok : Sound V s e) (hs : s.step V F e = some s') :
    Inv V s' := by
  cases e with
  | publish c create now =>
    simp only [State.step] at hs
    split at hs
    · rename_i hc
      split at hs
      · cases hs
      · cases hs
        refine h.fresh (p := s.fallbackPublishedAt) hst (by rw [hc]; rfl) nofun nofun nofun nofun ?_
        rw [hc]
        nofun
    · cases hs
  | withAccount c i fresh f =>
    simp only [State.step] at hs
    split at hs
    · rename_i publishedAt now hc
      have hno : (s.calls c).attempt = none := by rw [hc]; rfl
      have hp : (s.server.uploads c).posted = false := by
        cases hp : (s.server.uploads c).posted with
        | false => rfl
        | true =>
          have := h.begun c hp
          rw [hc] at this
          cases this
      have hsh := prepare_shape hV i s.record (shouldRotateFallback publishedAt now) fresh f
      split at hs
      · cases hs
        refine h.fresh (p := s.fallbackPublishedAt) (l := s.started) hst hno nofun (fun a ha => ?_) nofun
          (fun _ _ _ => hp) (fun _ => rfl)
        cases ha
        exact hsh
      · cases hs
        refine h.fresh (p := s.fallbackPublishedAt) (l := s.started) hst hno (fun a ha => ?_) (fun a ha => ?_) nofun
          nofun (fun _ => rfl)
        · cases ha
          rfl
        · cases ha
          exact hsh
    · cases hs
  | post c epoch =>
    simp only [State.step] at hs
    split at hs
    · rename_i a now hc
      obtain ⟨server, hsv, rfl⟩ := Option.map_eq_some_iff.1 hs
      exact h.post hc hsv
    · cases hs
  | answer c =>
    simp only [State.step] at hs
    split at hs
    · rename_i a now hc
      split at hs
      · rename_i hacc
        cases hs
        have ha : (s.calls c).attempt = some a := by rw [hc]; rfl
        exact h.goOn hst ha rfl rfl (published_shape hV (h.attempt c a ha)) (.inr hacc)
      · cases hs
    · cases hs
  | tooManyRequests c =>
    simp only [State.step] at hs
    split at hs
    · rename_i a now hc
      split at hs
      · cases hs
      · rename_i hp
        cases hs
        have ha : (s.calls c).attempt = some a := by rw [hc]; rfl
        exact h.goOn hst ha rfl rfl (h.attempt c a ha) (.inl (Bool.not_eq_true _ ▸ hp))
    · cases hs
  | throw c =>
    simp only [State.step] at hs
    split at hs
    · cases hs
    · cases hs
    · cases hs
      exact h.throw hst hok
  | writePickle c =>
    simp only [State.step] at hs
    split at hs
    · rename_i a now hc
      cases hs
      obtain ⟨hfresh, hsup⟩ := hok.1 a (by rw [hc]; rfl)
      exact h.write hst hc rfl rfl rfl hfresh hsup
    · rename_i a hc
      cases hs
      obtain ⟨hfresh, hsup⟩ := hok.1 a (by rw [hc]; rfl)
      exact h.write hst hc rfl rfl rfl hfresh hsup
    · rename_i r hc
      cases hs
      obtain ⟨hfresh, hserved⟩ := hok.2 r (by rw [hc]; rfl)
      exact h.receive hst hc hfresh hserved
    · cases hs
  | markFallbackPublished c =>
    simp only [State.step] at hs
    split at hs
    · rename_i now hc
      cases hs
      exact h.fresh hst (by rw [hc]; rfl) nofun nofun nofun nofun (fun _ => rfl)
    · cases hs
  | receive c i k =>
    simp only [State.step] at hs
    split at hs
    · rename_i hc
      split at hs
      · rename_i a ha
        cases hs
        refine h.fresh (p := s.fallbackPublishedAt) hst (by rw [hc]; rfl) nofun nofun (fun r hr => ?_) nofun
          (fun _ => rfl)
        cases hr
        exact receipt_shape hV i s.record ha
      · cases hs
        exact h.fresh (p := s.fallbackPublishedAt) hst (by rw [hc]; rfl) nofun nofun nofun nofun (fun _ => rfl)
    · cases hs
  | server e =>
    simp only [State.step] at hs
    split at hs
    · cases hs
    · rename_i he
      obtain ⟨server, hsv, rfl⟩ := Option.map_eq_some_iff.1 hs
      exact h.advances (PreKeys.State.advances_step (fun i r epoch hi => he i r epoch hi) hsv)

/-- **The pool is backed in every run that meets the condition**: with no publication under way, every one-time key and
the fallback key the server can serve have their private half in the persisted account; and in any state a key that is
not in it belongs to a publication under way. -/
theorem backed_run [DecidableEq κ] (hV : V.Lawful) {F : PreKeys.Format ℕ κ} {s : State α κ} {es : List (Event κ)}
    (hr : run (State.step V F) State.init es = some s) (hm : Meets (State.step V F) (Sound V) State.init es) :
    ((∀ c, (s.calls c).attempt = none) → Backed V s) ∧
    (∀ k ∈ s.server.account.pool, k ∈ recordKeys V s.record ∨
      ∃ c a, (s.calls c).attempt = some a ∧ k ∈ V.oneTimeKeys a.account) ∧
    ∀ k, s.server.account.fallback = some k → Supports V s.record k ∨
      ∃ c a, (s.calls c).attempt = some a ∧ V.fallbackKey a.account = some k := by
  have h : Inv V s := (Meets.invariant (fun s => Inv V s ∧ Started s)
    (fun s e s' h hok hs => ⟨inv_step hV s e s' h.1 h.2 hok hs, started_step s e s' h.2 hs⟩)
    ⟨inv_init, fun _ _ => rfl⟩ hm hr).1
  refine ⟨fun hq => ⟨fun k hk => ?_, fun k hk => ?_⟩, fun k hk => ?_, fun k hk => ?_⟩
  · rcases h.pool k hk with hk | ⟨d, -, hd⟩
    · exact hk
    · exact absurd hd (not_new (hq d))
  · rcases h.fallback k hk with hk | ⟨d, -, hd⟩
    · exact hk
    · exact absurd hd (not_newFallback (hq d))
  · refine (h.pool k hk).imp id ?_
    rintro ⟨d, -, a, ha, hk, -⟩
    exact ⟨d, a, ha, (h.attempt d a ha).request k hk⟩
  · refine (h.fallback k hk).imp id ?_
    rintro ⟨d, -, a, ha, hk⟩
    exact ⟨d, a, ha, ((h.attempt d a ha).rotated k hk).1⟩

/-- Call `c` publishes and the server accepts its first 50 keys and a fallback key. -/
def upload (c : ℕ) (now : ℤ) (fresh : ℕ → ℕ) (fallbackKey : ℕ) : List (Event ℕ) :=
  .publish c true now :: .withAccount c (1, 2) fresh fallbackKey :: .post c 0 ::
    List.replicate 56 (.server (.advance c))

/-- A publication; a peer fetches key 100 and its message comes in; eight days later a publication is told to wait. -/
def publishFetchReceive : List (Event ℕ) :=
  (upload 0 0 (100 + ·) 50).append
    [.answer 0, .writePickle 0, .markFallbackPublished 0, .server (.fetch 0), .server (.read 0 []),
      .server (.read 0 []), .server (.read 0 []), .receive 1 (1, 2) 100, .writePickle 1, .publish 2 true 691200000,
      .withAccount 2 (1, 2) (200 + ·) 51, .tooManyRequests 2, .writePickle 2]

theorem backed_publishFetchReceive :
    ∃ s, run (State.step plain PreKeys.plainFormat) State.init publishFetchReceive = some s ∧
      s.server.account.pool.length = 49 ∧ s.server.account.fallback = some 50 ∧ Backed plain s := by
  obtain ⟨s, hs, hp, hf, hq⟩ :
      ∃ s, run (State.step plain PreKeys.plainFormat) State.init publishFetchReceive = some s ∧
        s.server.account.pool.length = 49 ∧ s.server.account.fallback = some 50 ∧
        ∀ c ∈ s.started, (s.calls c).attempt.isNone = true := exists_run _ _ _ (by decide +kernel)
  exact ⟨s, hs, hp, hf, (backed_run plain_lawful hs (by decide +kernel)).1 ((started_run hs).quiet hq)⟩

def lostAnswer : List (Event ℕ) := (upload 0 0 (100 + ·) 50).append [.throw 0]

/-- **A lost answer leaves keys on the server that nobody holds.** -/
theorem backed_lostAnswer :
    ∃ s, run (State.step plain PreKeys.plainFormat) State.init lostAnswer = some s ∧
      (∀ c, (s.calls c).attempt = none) ∧ 100 ∈ s.server.account.pool ∧ 100 ∉ recordKeys plain s.record ∧
      s.server.account.fallback = some 50 ∧ ¬Supports plain s.record 50 := by
  obtain ⟨s, hs, hq, hrest⟩ :
      ∃ s, run (State.step plain PreKeys.plainFormat) State.init lostAnswer = some s ∧
        (∀ c ∈ s.started, (s.calls c).attempt.isNone = true) ∧ 100 ∈ s.server.account.pool ∧
        100 ∉ recordKeys plain s.record ∧ s.server.account.fallback = some 50 ∧ ¬Supports plain s.record 50 :=
    exists_run _ _ _ (by decide +kernel)
  exact ⟨s, hs, (started_run hs).quiet hq, hrest⟩

end Publisher
end SecureChat
