import Mathlib.Tactic.Linarith
import SecureChat.ReliableRouting
/-!
# ReliableDelivery — no accepted envelope is lost, none is stranded

`Kept`: an envelope accepted at `a`, not acknowledged since, is stored and indexed until `a` plus the retention.
`Coverage`: what is stored is covered for the registered session.  Together with `Held` every step that meets
`Routing.Sound` preserves them.
-/
namespace SecureChat
namespace Reliable

open Redis Runs

variable {τ π μ : Type} [LinearOrder τ] {P : ServerPrivacy π μ} {q : Queue τ π}

/-! ## Retention -/

/-- The envelope accepted under a token at `a` ms is stored, and indexed with a score not before `a`. -/
def Kept (P : ServerPrivacy π μ) (q : Queue τ π) (t : τ) (a : ℕ) : Prop :=
  (∃ i, q.item t = some i ∧ i.expireAt = some (a + P.offlineQueueTtlSeconds * 1000)) ∧
    ∃ s, q.index.lookup t = some s ∧ (a : ℤ) * 1000 ≤ s

theorem Kept.mem_index {t : τ} {a : ℕ} (h : Kept P q t a) : t ∈ q.index.keys := by
  obtain ⟨-, s, hs, -⟩ := h
  exact Coll.mem_keys_of_lookup hs

theorem Kept.delKeys {t : τ} {a : ℕ} (h : Kept P q t a) (hc : q.index.card = 0) : Kept P q.delKeys t a :=
  absurd h.mem_index (Queue.not_mem_of_card hc)

theorem Kept.remove {t u : τ} {a : ℕ} (h : Kept P q t a) (hne : t ≠ u) : Kept P (q.remove u) t a := by
  obtain ⟨⟨i, hi, hie⟩, s, hs, hle⟩ := h
  refine ⟨⟨i, ?_, hie⟩, s, ?_, hle⟩
  · rw [Queue.item_remove, if_neg hne, hi]
  · rw [Queue.lookup_index_remove hne, hs]

theorem Kept.purgeExpired {t : τ} {a : ℕ} {now : ℤ} (h : Kept P q t a) (hq : Held P q)
    (hnow : now < a + P.offlineQueueTtlSeconds * 1000) : Kept P (q.purgeExpired (P.cutoff now)) t a := by
  obtain ⟨⟨i, hi, hie⟩, s, hs, hle⟩ := h
  have hne : t ∉ q.expired (P.cutoff now) := by
    rw [Queue.mem_expired]
    rintro ⟨s', hs', hs'le⟩
    rw [hs, Option.some.injEq] at hs'
    unfold ServerPrivacy.cutoff at hs'le
    omega
  refine ⟨⟨i, ?_, hie⟩, s, ?_, hle⟩
  · rw [hq.item_purgeExpired, if_neg hne, hi]
  · rw [hq.lookup_purgeExpired hne, hs]

theorem Kept.purge {t : τ} {a : ℕ} {now : ℤ} (h : Kept P q t a) (hq : Held P q)
    (hnow : now < a + P.offlineQueueTtlSeconds * 1000) : Kept P (q.purge (P.cutoff now)) t a := by
  have hp := h.purgeExpired hq hnow
  unfold Queue.purge
  simp only
  split
  · rename_i hc
    exact hp.delKeys hc
  · exact hp

theorem Kept.acknowledge {t u : τ} {a : ℕ} (h : Kept P q t a) (hne : t ≠ u) : Kept P (q.acknowledge u).2 t a := by
  have hr : Kept P (((q.delItem u).zrem u).hdel u) t a := h.remove hne
  unfold Queue.acknowledge
  simp only
  split
  · rename_i hc
    exact hr.delKeys hc
  · exact hr

theorem Kept.zrem {t u : τ} {a : ℕ} (h : Kept P q t a) (hu : q.item u = none) : Kept P (q.zrem u) t a := by
  obtain ⟨⟨i, hi, hie⟩, s, hs, hle⟩ := h
  have hne : t ≠ u := fun htu => by
    rw [htu, hu] at hi
    cases hi
  exact ⟨⟨i, hi, hie⟩, s, (Coll.lookup_del_ne hne).trans hs, hle⟩

omit [LinearOrder τ] in
theorem Queue.le_nextScore (q : Queue τ π) : (q.nowMs : ℤ) * 1000 ≤ q.nextScore := by
  have hclock : q.nowMs * 1000 ≤ q.clock := Nat.div_mul_le_self _ _
  unfold Queue.nextScore
  simp only
  split <;> omega

theorem Kept.store_self (t : τ) (p : π) : Kept P (q.store P t p) t q.nowMs :=
  ⟨⟨_, Queue.item_store_self, rfl⟩, _, Queue.lookup_index_store_self, q.le_nextScore⟩

theorem Kept.store_ne {t u : τ} {p : π} {a : ℕ} (h : Kept P q t a) (hne : t ≠ u) : Kept P (q.store P u p) t a := by
  obtain ⟨⟨i, hi, hie⟩, s, hs, hle⟩ := h
  exact ⟨⟨i, (Queue.item_store_ne hne).trans hi, hie⟩, s, (Queue.lookup_index_store_ne hne).trans hs, hle⟩

theorem Kept.tick {t : τ} {a d : ℕ} (h : Kept P q t a) (hq : Held P q)
    (hnow : (q.tick d).nowMs < a + P.offlineQueueTtlSeconds * 1000) : Kept P (q.tick d) t a := by
  obtain ⟨⟨i, hi, hie⟩, s, hs, hle⟩ := h
  have hlive : i.live ((q.clock + d) / 1000) = true := by
    simp only [Volatile.live, hie, decide_eq_true_eq]
    exact Nat.le_of_lt hnow
  have hit : (q.tick d).item t = some i := Volatile.sweep_eq_some.2 ⟨hi, hlive⟩
  refine ⟨⟨i, hit, hie⟩, s, ?_, hle⟩
  rw [(hq.tick_eq hit).1, hs]

/-! ## What a step can add to the queue -/

theorem Queue.item_of_purge {cutoff : ℤ} {t : τ} {i : Volatile π} (hq : Held P q)
    (h : (q.purge cutoff).item t = some i) : q.item t = some i := by
  have hp : (q.purgeExpired cutoff).item t = some i := by
    unfold Queue.purge at h
    simp only at h
    split at h
    · exact h
    · exact h
  rw [hq.item_purgeExpired] at hp
  split at hp
  · cases hp
  · exact hp

theorem Queue.item_of_acknowledge {t u : τ} {i : Volatile π} (h : (q.acknowledge u).2.item t = some i) :
    q.item t = some i := by
  have hr : (q.remove u).item t = some i := by
    unfold Queue.acknowledge at h
    simp only at h
    split at h
    · exact h
    · exact h
  exact (Queue.item_of_remove hr).2

/-- **The answers of the enqueue script**: the stored envelope and no change, a refusal that stored nothing, or the
envelope stored after a purge. -/
theorem Queue.enqueue_cases (P : ServerPrivacy π μ) (q : Queue τ π) (t : τ) (p : π) (cutoff : ℤ) :
    (∃ i, q.item t = some i ∧ q.enqueue P t p cutoff = (.existing i.val, q)) ∨
    q.enqueue P t p cutoff = (.full, q.purgeExpired cutoff) ∨
    q.item t = none ∧ q.enqueue P t p cutoff = (.written p, (q.purgeExpired cutoff).store P t p) := by
  unfold Queue.enqueue
  cases hi : q.item t with
  | some i => exact .inl ⟨i, rfl, rfl⟩
  | none =>
    simp only
    split
    · exact .inr (.inl rfl)
    · split
      · exact .inr (.inl rfl)
      · exact .inr (.inr ⟨trivial, rfl⟩)

/-! ## The steps of a drain -/

/-- **What a drain step does** when every envelope can be opened. -/
inductive DrainStep (P : ServerPrivacy π μ) (cutoff : ℤ) (q : Queue τ π) :
    Drain τ π → Drain τ π → Queue τ π → Sent τ μ → Prop
  | purge : DrainStep P cutoff q .purging .listing (q.purge cutoff) .nothing
  | list : DrainStep P cutoff q .listing (.reading q.index.zrange) q .nothing
  | read (tokens : List τ) : DrainStep P cutoff q (.reading tokens) (.sending (mget q tokens)) q .nothing
  | finish : DrainStep P cutoff q (.sending []) .done q .nothing
  | gone (t : τ) (rest : List (τ × Option π)) :
    DrainStep P cutoff q (.sending ((t, none) :: rest)) (.sending rest) (q.zrem t) .nothing
  | unindex (t : τ) (rest : List (τ × Option π)) :
    DrainStep P cutoff q (.unindexing t rest) (.sending rest) (q.zrem t) .nothing
  | send (t : τ) (p : π) (m : μ) (rest : List (τ × Option π)) (hm : P.openQueue p = some m) :
    DrainStep P cutoff q (.sending ((t, some p) :: rest)) (.sending rest) q (.frame t m)
  | fail (t : τ) (p : π) (rest : List (τ × Option π)) :
    DrainStep P cutoff q (.sending ((t, some p) :: rest)) .done q .failed

theorem drainStep_cases (hopen : ∀ p, (P.openQueue p).isSome) {cutoff : ℤ} {sendOk : Bool} {d d' : Drain τ π}
    {q' : Queue τ π} {out : Sent τ μ} (h : drainStep P cutoff sendOk q d = some (d', q', out)) :
    DrainStep P cutoff q d d' q' out := by
  unfold drainStep at h
  split at h
  · cases h
  · cases h
  · cases h; exact .purge
  · cases h; exact .list
  · cases h; exact .read _
  · cases h; exact .finish
  · cases h; exact .gone _ _
  · split at h
    · rename_i p _ _ hp
      have := hopen p
      rw [hp] at this
      cases this
    · rename_i hp
      split at h
      · cases h; exact .send _ _ _ _ hp
      · cases h; exact .fail _ _ _
  · cases h; exact .unindex _ _

namespace DrainStep

variable {cutoff : ℤ} {d d' : Drain τ π} {q' : Queue τ π} {out : Sent τ μ}

theorem held (h : DrainStep P cutoff q d d' q' out) (hq : Held P q)
    (hz : ∀ t ∈ d.zremNext, q.item t = none) : Held P q' := by
  cases h with
  | purge => exact held_closed.purge hq cutoff
  | list | read | finish | send | fail => exact hq
  | gone t rest => exact (hq.zrem_iff t).2 (hz t rfl)
  | unindex t rest => exact (hq.zrem_iff t).2 (hz t rfl)

theorem nowMs_eq (h : DrainStep P cutoff q d d' q' out) (hq : Held P q) : q'.nowMs = q.nowMs := by
  cases h with
  | purge =>
    have hc := hq.clock_purgeExpired cutoff
    unfold Queue.nowMs Queue.purge
    simp only
    split
    · rw [← hc]
      rfl
    · rw [hc]
  | list | read | finish | send | fail | gone | unindex => rfl

theorem item_of (h : DrainStep P cutoff q d d' q' out) (hq : Held P q) {t : τ} {i : Volatile π}
    (hi : q'.item t = some i) : q.item t = some i := by
  cases h with
  | purge => exact Queue.item_of_purge hq hi
  | list | read | finish | send | fail | gone | unindex => exact hi

/-- **A drain keeps its promise**: what it was to send is sent by this step, or is still to be sent, or this step's send
failed. -/
theorem covers (h : DrainStep P cutoff q d d' q' out) (hq : Held P q) {t : τ} {i : Volatile π} {m : μ}
    (hi : q.item t = some i) (hm : P.openQueue i.val = some m) (hc : d.covers t i.val) :
    d'.covers t i.val ∨ out = .frame t m ∨ out = .failed := by
  cases h with
  | purge => exact .inl trivial
  | list => exact .inl (Coll.mem_zrange.2 (hq.stored_indexed t i hi))
  | read tokens => exact .inl (List.mem_map.2 ⟨t, hc, by rw [hi]; rfl⟩)
  | finish => cases hc
  | gone u rest =>
    rcases List.mem_cons.1 hc with hh | ht
    · cases hh
    · exact .inl ht
  | unindex u rest => exact .inl hc
  | send u p m' rest hm' =>
    rcases List.mem_cons.1 hc with hh | ht
    · cases hh
      rw [hm, Option.some.injEq] at hm'
      exact .inr (.inl (by rw [hm']))
    · exact .inl ht
  | fail u p rest => exact .inr (.inr rfl)

end DrainStep

/-! ## The invariant of routing -/

def Routing.Covered (s : Routing τ π μ) (n : ℕ) (t : τ) (p : π) (m : μ) : Prop :=
  (t, m) ∈ s.sent n ∨ (s.drains n).covers t p ∨ ∃ k, s.routes k = .lookup t m ∨ s.routes k = .sending t m n

structure Routing.Safe (P : ServerPrivacy π μ) (s : Routing τ π μ) : Prop where
  held : Held P s.queue
  nowLe : (s.queue.nowMs : ℤ) ≤ s.latest
  kept : ∀ t a, s.accepted t = some a → s.acked t = false →
    s.latest < a + P.offlineQueueTtlSeconds * 1000 → Kept P s.queue t a
  coverage : ∀ n, s.connections.current = some n → s.failed n = false →
    ∀ t i m, s.queue.item t = some i → P.openQueue i.val = some m → s.Covered n t i.val m

namespace Routing

variable {s : Routing τ π μ}

theorem safe_init : Safe P (init : Routing τ π μ) where
  held := held_empty
  nowLe := by simp [init, Queue.empty, Queue.nowMs]
  kept _ _ h := by cases h
  coverage _ h := by cases h

/-! ### The queue loses envelopes -/

/-- **A step that only takes out of the queue** is safe if it leaves what is accepted, not acknowledged and not past its
retention. -/
theorem Safe.shrink (h : Safe P s) {q' : Queue τ π} {acked' : τ → Bool} {latest' : ℤ} (hheld : Held P q')
    (hnow : (q'.nowMs : ℤ) ≤ latest') (hle : s.latest ≤ latest')
    (hacked : ∀ t, acked' t = false → s.acked t = false)
    (hkept : ∀ t (a : ℕ), acked' t = false → latest' < a + P.offlineQueueTtlSeconds * 1000 → Kept P s.queue t a →
      Kept P q' t a)
    (hitem : ∀ t i, q'.item t = some i → s.queue.item t = some i) :
    Safe P { s with queue := q', acked := acked', latest := latest' } where
  held := hheld
  nowLe := hnow
  kept t a ha hk hl := hkept t a hk hl (h.kept t a ha (hacked t hk) (Int.lt_of_le_of_lt hle hl))
  coverage n hn hf t i m hi hm := h.coverage n hn hf t i m (hitem t i hi) hm

theorem Safe.reading (h : Safe P s) (now : ℤ) : Safe P { s with latest := max s.latest now } :=
  h.shrink h.held (Int.le_trans h.nowLe (Int.le_max_left _ _)) (Int.le_max_left _ _) (fun _ ht => ht)
    (fun _ _ _ _ hk => hk) (fun _ _ hi => hi)

theorem Held.item_of_purgeExpired (hq : Held P q) {cutoff : ℤ} {t : τ} {i : Volatile π}
    (h : (q.purgeExpired cutoff).item t = some i) : q.item t = some i := by
  rw [hq.item_purgeExpired] at h
  split at h
  · cases h
  · exact h

theorem Safe.purgeExpired (h : Safe P s) (now : ℤ) :
    Safe P { s with queue := s.queue.purgeExpired (P.cutoff now), latest := max s.latest now } := by
  refine h.shrink (held_closed.purgeExpired h.held _) ?_ (Int.le_max_left _ _) (fun _ ht => ht) ?_
    (fun _ _ hi => Held.item_of_purgeExpired h.held hi)
  · unfold Queue.nowMs
    rw [h.held.clock_purgeExpired]
    exact Int.le_trans h.nowLe (Int.le_max_left _ _)
  · intro t a _ hl hk
    exact hk.purgeExpired h.held (Int.lt_of_le_of_lt (Int.le_max_right _ _) hl)

theorem Safe.acknowledge (h : Safe P s) (u : τ) :
    Safe P { s with queue := (s.queue.acknowledge u).2, acked := Function.update s.acked u true } := by
  refine h.shrink (held_closed.acknowledge h.held u) ?_ (Int.le_refl _) ?_ ?_
    (fun _ _ hi => Queue.item_of_acknowledge hi)
  · have hnow : (s.queue.acknowledge u).2.nowMs = s.queue.nowMs := by
      unfold Queue.acknowledge
      simp only
      split <;> rfl
    rw [hnow]
    exact h.nowLe
  · intro t ht
    by_cases htu : t = u
    · rw [htu, Function.update_self] at ht
      cases ht
    · rwa [Function.update_of_ne htu] at ht
  · intro t a ht _ hk
    refine hk.acknowledge (fun htu => ?_)
    rw [htu, Function.update_self] at ht
    cases ht

theorem Safe.elapse (h : Safe P s) (d : ℕ) :
    Safe P { s with queue := s.queue.tick d, latest := max s.latest (s.queue.tick d).nowMs } := by
  refine h.shrink (h.held.tick d) (Int.le_max_right _ _) (Int.le_max_left _ _) (fun _ ht => ht) ?_
    (fun _ _ hi => (Queue.item_of_tick hi).1)
  intro t a _ hl hk
  have hlt := Int.lt_of_le_of_lt (Int.le_max_right _ _) hl
  exact hk.tick h.held (by exact_mod_cast hlt)

/-! ### A call of `routeMessage` -/

omit [LinearOrder τ] in
theorem Covered.setRoute {n k : ℕ} {t : τ} {p : π} {m : μ} {r : Route τ μ} (h : s.Covered n t p m)
    (hk : s.routes k = .lookup t m ∨ s.routes k = .sending t m n → (s.setRoute k r).Covered n t p m) :
    (s.setRoute k r).Covered n t p m := by
  rcases h with h | h | ⟨j, hj⟩
  · exact .inl h
  · exact .inr (.inl h)
  · by_cases hjk : j = k
    · exact hk (hjk ▸ hj)
    · refine .inr (.inr ⟨j, ?_⟩)
      show Function.update s.routes k r j = _ ∨ Function.update s.routes k r j = _
      rwa [Function.update_of_ne hjk]

omit [LinearOrder τ] in
theorem Covered.restart {n k : ℕ} {t : τ} {p : π} {m : μ} {r : Route τ μ} (h : s.Covered n t p m)
    (hk : (s.routes k).finished = true) : (s.setRoute k r).Covered n t p m := by
  refine h.setRoute (fun hr => ?_)
  rcases hr with hr | hr
  · rw [hr] at hk
    cases hk
  · rw [hr] at hk
    cases hk

theorem Safe.restart {k : ℕ} {r : Route τ μ} (h : Safe P s) (hk : (s.routes k).finished = true) :
    Safe P (s.setRoute k r) where
  held := h.held
  nowLe := h.nowLe
  kept := h.kept
  coverage n hn hf t i m hi hm := (h.coverage n hn hf t i m hi hm).restart hk

theorem Safe.written (h : Safe P s) {k : ℕ} (hk : (s.routes k).finished = true) {t : τ} {p : π} {m : μ}
    (hm : P.openQueue p = some m) : Safe P (setRoute k (.lookup t m) { s with
      queue := s.queue.store P t p, accepted := Function.update s.accepted t (some s.queue.nowMs),
      acked := Function.update s.acked t false }) where
  held := h.held.store t p
  nowLe := h.nowLe
  kept u a ha hacked hl := by
    by_cases hut : u = t
    · subst hut
      have ha : Function.update s.accepted u (some s.queue.nowMs) u = some a := ha
      rw [Function.update_self, Option.some.injEq] at ha
      subst ha
      exact Kept.store_self u p
    · have ha : Function.update s.accepted t (some s.queue.nowMs) u = some a := ha
      have hacked : Function.update s.acked t false u = false := hacked
      rw [Function.update_of_ne hut] at ha hacked
      exact (h.kept u a ha hacked hl).store_ne hut
  coverage n hn hf u i m' hi hm' := by
    by_cases hut : u = t
    · subst hut
      have hi : (s.queue.store P u p).item u = some i := hi
      rw [Queue.item_store_self, Option.some.injEq] at hi
      rw [← hi, hm, Option.some.injEq] at hm'
      subst hm'
      exact .inr (.inr ⟨k, .inl (Function.update_self _ _ _)⟩)
    · have hi : (s.queue.store P t p).item u = some i := hi
      rw [Queue.item_store_ne hut] at hi
      have hc := (h.coverage n hn hf u i m' hi hm').restart (r := .lookup t m) hk
      exact hc

theorem Safe.enqueue (hopen : ∀ p, (P.openQueue p).isSome) (h : Safe P s) {k : ℕ} (hk : (s.routes k).finished = true)
    (t : τ) (p : π) (now : ℤ) : Safe P (s.enqueue P k t p now) := by
  unfold Routing.enqueue
  rcases Queue.enqueue_cases P s.queue t p (P.cutoff now) with ⟨i, -, he⟩ | he | ⟨-, he⟩
  · obtain ⟨m, hm⟩ := Option.isSome_iff_exists.1 (hopen i.val)
    simp only [he, Queued.payload, Option.bind_some, hm]
    exact Safe.restart (h.reading now) hk
  · simp only [he, Queued.payload, Option.bind_none]
    exact h.purgeExpired now
  · obtain ⟨m, hm⟩ := Option.isSome_iff_exists.1 (hopen p)
    simp only [he, Queued.payload, Option.bind_some, hm]
    have hw := Safe.written (h.purgeExpired now) hk (t := t) hm
    have hnow : (s.queue.purgeExpired (P.cutoff now)).nowMs = s.queue.nowMs := by
      unfold Queue.nowMs
      rw [h.held.clock_purgeExpired]
    simp only [hnow] at hw
    exact hw

/-! ### Sockets and sessions -/

omit [LinearOrder τ] in
theorem mem_sent_socket {n j : ℕ} {out : Sent τ μ} {x : τ × μ} (h : x ∈ s.sent j) : x ∈ (s.socket n out).sent j := by
  cases out with
  | nothing | failed => exact h
  | frame t m =>
    show x ∈ Function.update s.sent n ((t, m) :: s.sent n) j
    by_cases hj : j = n
    · subst hj
      rw [Function.update_self]
      exact List.mem_cons_of_mem _ h
    · rwa [Function.update_of_ne hj]

omit [LinearOrder τ] in
theorem mem_sent_socket_self (n : ℕ) (t : τ) (m : μ) : (t, m) ∈ (s.socket n (.frame t m)).sent n := by
  show (t, m) ∈ Function.update s.sent n ((t, m) :: s.sent n) n
  rw [Function.update_self]
  exact List.mem_cons_self

omit [LinearOrder τ] in
theorem failed_of_socket {n j : ℕ} {out : Sent τ μ} (h : (s.socket n out).failed j = false) : s.failed j = false := by
  cases out with
  | nothing | frame => exact h
  | failed =>
    have h : Function.update s.failed n true j = false := h
    by_cases hj : j = n
    · subst hj
      rw [Function.update_self] at h
      cases h
    · rwa [Function.update_of_ne hj] at h

omit [LinearOrder τ] in
theorem socket_failed_self (n : ℕ) : (s.socket n (.failed : Sent τ μ)).failed n = true := Function.update_self _ _ _

theorem Safe.socket {n : ℕ} {out : Sent τ μ} (hheld : Held P s.queue) (hnow : (s.queue.nowMs : ℤ) ≤ s.latest)
    (hkept : ∀ t a, s.accepted t = some a → s.acked t = false →
      s.latest < a + P.offlineQueueTtlSeconds * 1000 → Kept P s.queue t a)
    (hcov : ∀ j, s.connections.current = some j → s.failed j = false →
      ∀ t i m, s.queue.item t = some i → P.openQueue i.val = some m →
        s.Covered j t i.val m ∨ j = n ∧ (out = .frame t m ∨ out = .failed)) : Safe P (s.socket n out) := by
  have hframe : ∀ j t i m, s.connections.current = some j → (s.socket n out).failed j = false →
      s.queue.item t = some i → P.openQueue i.val = some m →
        (t, m) ∈ (s.socket n out).sent j ∨ s.Covered j t i.val m := by
    intro j t i m hj hf hi hm
    rcases hcov j hj (failed_of_socket hf) t i m hi hm with hc | ⟨rfl, rfl | rfl⟩
    · exact .inr hc
    · exact .inl (mem_sent_socket_self j t m)
    · rw [socket_failed_self] at hf
      cases hf
  cases out with
  | nothing =>
    refine ⟨hheld, hnow, hkept, fun j hj hf t i m hi hm => ?_⟩
    rcases hframe j t i m hj hf hi hm with h | h
    · exact .inl h
    · exact h
  | frame u v =>
    refine ⟨hheld, hnow, hkept, fun j hj hf t i m hi hm => ?_⟩
    rcases hframe j t i m hj hf hi hm with h | h | h
    · exact .inl h
    · exact .inl (mem_sent_socket h)
    · exact .inr h
  | failed =>
    refine ⟨hheld, hnow, hkept, fun j hj hf t i m hi hm => ?_⟩
    rcases hframe j t i m hj hf hi hm with h | h
    · exact .inl h
    · exact h

theorem Safe.drain (h : Safe P s) {n : ℕ} {now : ℤ} {d : Drain τ π} {q' : Queue τ π} {out : Sent τ μ}
    (hd : DrainStep P (P.cutoff now) s.queue (s.drains n) d q' out)
    (hz : ∀ t ∈ (s.drains n).zremNext, s.queue.item t = none) :
    Safe P (({ s with queue := q', latest := s.latestAt n now }.setDrain n d).socket n out) := by
  have hle : s.latest ≤ s.latestAt n now := by
    unfold latestAt
    split
    · exact Int.le_max_left _ _
    · exact Int.le_refl _
  refine Safe.socket (hd.held h.held hz) ?_ ?_ ?_
  · have hnow : (q'.nowMs : ℤ) ≤ s.latestAt n now := by
      rw [hd.nowMs_eq h.held]
      exact Int.le_trans h.nowLe hle
    exact hnow
  · intro t a ha hacked hl
    change s.latestAt n now < a + P.offlineQueueTtlSeconds * 1000 at hl
    have hk := h.kept t a ha hacked (Int.lt_of_le_of_lt hle hl)
    unfold latestAt at hl
    show Kept P q' t a
    generalize s.drains n = dn at hd hz hl
    cases hd with
    | purge => exact hk.purge h.held (Int.lt_of_le_of_lt (Int.le_max_right _ _) hl)
    | list | read | finish | send | fail => exact hk
    | gone u rest => exact hk.zrem (hz u rfl)
    | unindex u rest => exact hk.zrem (hz u rfl)
  · intro j hj hf t i m hi' hm
    have hi : s.queue.item t = some i := hd.item_of h.held hi'
    rcases h.coverage j hj hf t i m hi hm with hc | hc | hc
    · exact .inl (.inl hc)
    · by_cases hjn : j = n
      · subst hjn
        rcases hd.covers h.held hi hm hc with hc | hc
        · refine .inl (.inr (.inl ?_))
          show (Function.update s.drains j d j).covers t i.val
          rwa [Function.update_self]
        · exact .inr ⟨rfl, hc⟩
      · refine .inl (.inr (.inl ?_))
        show (Function.update s.drains n d j).covers t i.val
        rwa [Function.update_of_ne hjn]
    · exact .inl (.inr (.inr hc))

theorem Safe.lookup (h : Safe P s) {k : ℕ} {t : τ} {m : μ} (hk : s.routes k = .lookup t m) :
    Safe P (s.setRoute k (match s.connections.current with
      | none => .done
      | some n => .sending t m n)) where
  held := h.held
  nowLe := h.nowLe
  kept := h.kept
  coverage n hn hf u i v hi hv := by
    have hn : s.connections.current = some n := hn
    refine (h.coverage n hn hf u i v hi hv).setRoute (fun hr => ?_)
    rw [hk] at hr
    rcases hr with hr | hr
    · cases hr
      refine .inr (.inr ⟨k, .inr ?_⟩)
      rw [hn]
      exact Function.update_self _ _ _
    · cases hr

theorem Safe.send (h : Safe P s) {k n : ℕ} {t : τ} {m : μ} (hk : s.routes k = .sending t m n) (sendOk : Bool) :
    Safe P ((s.setRoute k .done).socket n (if sendOk then .frame t m else .failed)) := by
  refine Safe.socket h.held h.nowLe h.kept (fun j hj hf u i v hi hv => ?_)
  rcases h.coverage j hj hf u i v hi hv with hc | hc | ⟨l, hl⟩
  · exact .inl (.inl hc)
  · exact .inl (.inr (.inl hc))
  · by_cases hlk : l = k
    · rw [hlk, hk] at hl
      rcases hl with hl | hl
      · cases hl
      · cases hl
        refine .inr ⟨rfl, ?_⟩
        cases sendOk with
        | true => exact .inl rfl
        | false => exact .inr rfl
    · refine .inl (.inr (.inr ⟨l, ?_⟩))
      show Function.update s.routes k .done l = _ ∨ Function.update s.routes k .done l = _
      rwa [Function.update_of_ne hlk]

theorem Safe.connect (h : Safe P s) {n : ℕ} {c : Connections} (hc : c.current = some n) :
    Safe P { s.setDrain n .purging with connections := c } where
  held := h.held
  nowLe := h.nowLe
  kept := h.kept
  coverage j hj hf t i m hi hm := by
    have hj : c.current = some j := hj
    rw [hc, Option.some.injEq] at hj
    subst hj
    refine .inr (.inl ?_)
    show (Function.update s.drains n .purging n).covers t i.val
    rw [Function.update_self]
    trivial

theorem Safe.disconnect (h : Safe P s) (session : Option ℕ) :
    Safe P { s with connections := (s.connections.remove session).2 } where
  held := h.held
  nowLe := h.nowLe
  kept := h.kept
  coverage j hj := h.coverage j (Connections.current_of_remove hj)

theorem Safe.abandon (h : Safe P s) {n : ℕ} (hok : s.Sound P (.abandon n)) : Safe P (s.setDrain n .done) where
  held := h.held
  nowLe := h.nowLe
  kept := h.kept
  coverage j hj hf t i m hi hm := by
    rcases h.coverage j hj hf t i m hi hm with hc | hc | hc
    · exact .inl hc
    · by_cases hjn : j = n
      · subst hjn
        exact .inl (hok hj hf t (h.held.stored_indexed t i hi) i hi hc m hm)
      · refine .inr (.inl ?_)
        show (Function.update s.drains n .done j).covers t i.val
        rwa [Function.update_of_ne hjn]
    · exact .inr (.inr hc)

theorem safe_step (hopen : ∀ p, (P.openQueue p).isSome) (s : Routing τ π μ) (e : Event τ π) (s' : Routing τ π μ)
    (h : Safe P s) (hok : s.Sound P e) (hs : step P s e = some s') : Safe P s' := by
  cases e with
  | route i t p now =>
    simp only [step] at hs
    split at hs
    · rename_i hi
      cases hs
      exact h.enqueue hopen hi t p now
    · cases hs
  | lookup i =>
    simp only [step] at hs
    split at hs
    · rename_i t m hi
      have hl := h.lookup hi
      split at hs
      · rename_i hc
        cases hs
        simpa only [hc] using hl
      · rename_i n hc
        cases hs
        simpa only [hc] using hl
    · cases hs
  | send i sendOk =>
    simp only [step] at hs
    split at hs
    · rename_i t m n hi
      cases hs
      exact h.send hi sendOk
    · cases hs
  | connect n callCapable others shuttingDown =>
    simp only [step] at hs
    split at hs
    · split at hs
      · cases hs
        exact h
      · split at hs
        · cases hs
          exact h
        · rename_i hc
          cases hs
          exact h.connect (Connections.current_admitSession hc)
    · cases hs
  | drain n now sendOk =>
    simp only [step] at hs
    split at hs
    · cases hs
    · rename_i hd
      cases hs
      exact h.drain (drainStep_cases hopen hd) hok
  | abandon n =>
    simp only [step] at hs
    split at hs
    · cases hs
    · cases hs
      exact h.abandon hok
  | disconnect session =>
    cases hs
    exact h.disconnect session
  | acknowledge t =>
    cases hs
    exact h.acknowledge t
  | elapse d =>
    cases hs
    exact h.elapse d

theorem safe_run (hopen : ∀ p, (P.openQueue p).isSome) {es : List (Event τ π)} (hr : run (step P) init es = some s)
    (hm : Meets (step P) (Sound P) init es) : Safe P s :=
  Meets.invariant (Safe P) (safe_step hopen) safe_init hm hr

omit [LinearOrder τ] in
theorem Covered.sent {n : ℕ} {t : τ} {p : π} {m : μ} (h : s.Covered n t p m) (hd : (s.drains n).finished = true)
    (hr : ∀ k, (s.routes k).finished = true) : (t, m) ∈ s.sent n := by
  rcases h with h | h | ⟨k, h | h⟩
  · exact h
  · generalize s.drains n = d at hd h
    cases d with
    | idle | done => cases h
    | purging | listing | reading | sending | unindexing => cases hd
  · have := hr k
    rw [h] at this
    cases this
  · have := hr k
    rw [h] at this
    cases this

end Routing

/-- **Routing loses no accepted envelope and strands none**, in every run that meets the condition: what was accepted
and not acknowledged since is stored and indexed until its retention has passed on some clock, and with all calls
finished every envelope stored has been sent to the registered session unless a send to it failed. -/
theorem routing_run (hopen : ∀ p, (P.openQueue p).isSome) {s : Routing τ π μ} {es : List (Routing.Event τ π)}
    (hr : run (Routing.step P) Routing.init es = some s)
    (hm : Meets (Routing.step P) (Routing.Sound P) Routing.init es) :
    (∀ t a, s.accepted t = some a → s.latest < a + P.offlineQueueTtlSeconds * 1000 →
      s.acked t = true ∨ s.queue.item t ≠ none ∧ t ∈ s.queue.index.keys) ∧
    ((∀ n, (s.drains n).finished = true) → (∀ k, (s.routes k).finished = true) →
      ∀ n, s.connections.current = some n → s.failed n = false →
        ∀ t i m, s.queue.item t = some i → P.openQueue i.val = some m → (t, m) ∈ s.sent n) := by
  have h := Routing.safe_run hopen hr hm
  refine ⟨fun t a ha hl => ?_, fun hd hk n hn hf t i m hi hm => ?_⟩
  · cases hacked : s.acked t with
    | true => exact .inl rfl
    | false =>
      have hkept : Kept P s.queue t a := h.kept t a ha hacked hl
      obtain ⟨i, hi, -⟩ := hkept.1
      exact .inr ⟨by rw [hi]; exact Option.some_ne_none i, Kept.mem_index hkept⟩
  · exact (h.coverage n hn hf t i m hi hm).sent (hd n) hk

/-- Session 0 receives an envelope; session 1 takes its place and drains while the envelope is acknowledged. -/
def replacedSession : List (Routing.Event ℕ ℕ) :=
  [.connect 0 true 0 false, .drain 0 0 true, .drain 0 0 true, .drain 0 0 true, .drain 0 0 true,
    .route 0 7 10 0, .lookup 0, .send 0 true,
    .connect 1 true 0 false, .drain 1 0 true, .drain 1 0 true, .acknowledge 7, .drain 1 0 true]

def routedDuringDrain : List (Routing.Event ℕ ℕ) :=
  replacedSession.append [.route 1 8 20 0, .drain 1 0 true, .drain 1 0 true, .lookup 1, .send 1 true]

theorem routing_routedDuringDrain : ∃ s : Routing ℕ ℕ ℕ,
    run (Routing.step plainPrivacy) Routing.init routedDuringDrain = some s ∧
    (s.acked 8 = true ∨ s.queue.item 8 ≠ none ∧ 8 ∈ s.queue.index.keys) := by
  obtain ⟨s, hs, ha, hl⟩ : ∃ s : Routing ℕ ℕ ℕ,
      run (Routing.step plainPrivacy) Routing.init routedDuringDrain = some s ∧
      s.accepted 8 = some 0 ∧ s.latest < 900000 := exists_run _ _ _ (by decide +kernel)
  exact ⟨s, hs, (routing_run (fun _ => rfl) hs (by decide +kernel)).1 8 0 ha hl⟩

/-- The first envelope's sender retries before session 1's `ZREM`; then session 2 connects. -/
def retriedDuringDrain : List (Routing.Event ℕ ℕ) :=
  replacedSession.append [.route 1 7 10 0, .lookup 1, .send 1 true, .drain 1 0 true, .drain 1 0 true,
    .disconnect (some 1), .connect 2 true 0 false, .drain 2 0 true, .drain 2 0 true, .drain 2 0 true, .drain 2 0 true]

/-- **A retry during a drain strands its envelope.** -/
theorem routing_strands : ∃ s : Routing ℕ ℕ ℕ,
    run (Routing.step plainPrivacy) Routing.init retriedDuringDrain = some s ∧
    (∀ n, (s.drains n).finished = true) ∧ (∀ k, (s.routes k).finished = true) ∧
    s.connections.current = some 2 ∧ s.failed 2 = false ∧
    s.accepted 7 = some 0 ∧ s.acked 7 = false ∧ s.latest < 900000 ∧
    s.queue.item 7 = some ⟨10, some 900000⟩ ∧ 7 ∉ s.queue.index.keys ∧ s.sent 2 = [] := by
  refine ⟨_, rfl, fun n => ?_, fun k => ?_, by decide, by decide, by decide, by decide, by decide, by decide, by decide,
    by decide⟩
  · match n with
    | 0 | 1 | 2 => rfl
    | n + 3 => rfl
  · match k with
    | 0 | 1 => rfl
    | k + 2 => rfl

end Reliable
end SecureChat
