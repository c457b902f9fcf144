import SecureChat.ReliableLedger
import SecureChat.Runs
/-!
# ReliableRuns — runs of one recipient's reliable queue

The scripts, the clock and any number of `deliverReliableMessages` calls, in any order.  A call goes one `drainStep` at
a time and may be abandoned between two of them: `deliverOfflineMessages` swallows the exception of a failed Redis call.
The ledger survives every step but one, a drain's `ZREM index token` of a token that is still in the meta hash.
-/
namespace SecureChat
namespace Reliable

open Redis Runs

variable {τ π μ : Type} [LinearOrder τ]

/-- The queue and the calls of `deliverReliableMessages` on it. -/
structure Traffic (τ π : Type) where
  queue : Queue τ π
  drains : ℕ → Drain τ π

/-- A step of a run.  `cutoff` is what the caller of the script computes from its own clock. -/
inductive Traffic.Event (τ π : Type) where
  | enqueue (token : τ) (payload : π) (cutoff : ℤ)
  | acknowledge (token : τ)
  | purge (cutoff : ℤ)
  | elapse (micros : ℕ)
  | deliver (i : ℕ)
  | drain (i : ℕ) (cutoff : ℤ) (sendOk : Bool)
  | abandon (i : ℕ)

namespace Traffic

def init : Traffic τ π := ⟨Queue.empty, fun _ => .idle⟩

def setDrain (i : ℕ) (d : Drain τ π) (s : Traffic τ π) : Traffic τ π :=
  { s with drains := Function.update s.drains i d }

def step (P : ServerPrivacy π μ) (s : Traffic τ π) : Event τ π → Option (Traffic τ π)
  | .enqueue t p cutoff => some { s with queue := (s.queue.enqueue P t p cutoff).2 }
  | .acknowledge t => some { s with queue := (s.queue.acknowledge t).2 }
  | .purge cutoff => some { s with queue := s.queue.purge cutoff }
  | .elapse d => some { s with queue := s.queue.tick d }
  | .deliver i => if (s.drains i).finished then some (s.setDrain i .purging) else none
  | .abandon i => some (s.setDrain i .done)
  | .drain i cutoff ok =>
    match drainStep P cutoff ok s.queue (s.drains i) with
    | none => none
    | some (d, q, _) => some { s.setDrain i d with queue := q }

/-- **The condition under which the ledger holds**: a drain takes no token out of the index that the meta hash still
has, and an enqueue's cutoff takes every token for expired whose item is gone. -/
def Sound (s : Traffic τ π) : Event τ π → Prop
  | .drain i _ _ => ∀ t ∈ (s.drains i).zremNext, t ∉ s.queue.metaHash.keys
  | .enqueue _ _ cutoff => ∀ t ∈ s.queue.index.keys, s.queue.item t = none → t ∈ s.queue.expired cutoff
  | _ => True

instance (s : Traffic τ π) : ∀ e, Decidable (s.Sound e)
  | .drain i _ _ => inferInstanceAs (Decidable (∀ t ∈ (s.drains i).zremNext, t ∉ s.queue.metaHash.keys))
  | .enqueue _ _ cutoff =>
    inferInstanceAs (Decidable (∀ t ∈ s.queue.index.keys, s.queue.item t = none → t ∈ s.queue.expired cutoff))
  | .acknowledge _ | .purge _ | .elapse _ | .deliver _ | .abandon _ => inferInstanceAs (Decidable True)

variable {P : ServerPrivacy π μ}

theorem inv_step (s : Traffic τ π) (e : Event τ π) (s' : Traffic τ π) (h : Inv P s.queue) (hok : s.Sound e)
    (hs : step P s e = some s') : Inv P s'.queue := by
  cases e with
  | enqueue t p cutoff => cases hs; exact inv_closed.enqueue h t p cutoff
  | acknowledge t => cases hs; exact inv_closed.acknowledge h t
  | purge cutoff => cases hs; exact inv_closed.purge h cutoff
  | elapse d => cases hs; exact h.tick d
  | deliver i =>
    simp only [step] at hs
    split at hs
    · cases hs; exact h
    · cases hs
  | abandon i => cases hs; exact h
  | drain i cutoff ok =>
    simp only [step] at hs
    split at hs
    · cases hs
    · rename_i d q out hd
      cases hs
      exact inv_closed.drainStep h h.delItem (fun t ht => (h.zrem_iff t).2 (hok t ht)) hd

theorem inv_run {s : Traffic τ π} {es : List (Event τ π)} (hr : run (step P) init es = some s)
    (hm : Meets (step P) Sound init es) : Inv P s.queue :=
  Meets.invariant (fun s => Inv P s.queue) inv_step inv_empty hm hr

end Traffic

def Queue.storedBytes (P : ServerPrivacy π μ) (q : Queue τ π) (t : τ) : ℕ :=
  match q.item t with
  | none => 0
  | some i => P.len i.val

def Overfull (P : ServerPrivacy π μ) (q : Queue τ π) (incoming : π) : Prop :=
  ∃ ts : List τ, ts.Nodup ∧ (∀ t ∈ ts, (q.item t).isSome) ∧
    (offlineQueueMaxMessages ≤ ts.length ∨
      offlineQueueMaxBytes < (ts.map (q.storedBytes P)).sum + P.len incoming)

section Full

variable {P : ServerPrivacy π μ} {q : Queue τ π}

theorem Inv.total_eq (h : Inv P q) (hst : ∀ t ∈ q.index.keys, (q.item t).isSome) :
    q.total = (q.metaHash.keys.map (q.storedBytes P)).sum := by
  unfold Queue.total
  rw [Coll.map_vals (f := q.storedBytes P)]
  intro t m hm
  obtain ⟨i, hi⟩ := Option.isSome_iff_exists.1 (hst t ((h.meta_iff_index t).1 (Coll.mem_keys_of_lookup hm)))
  simp only [Queue.storedBytes, hi]
  exact h.sized t m i hm hi

theorem Inv.stored_purgeExpired (h : Inv P q) {cutoff : ℤ}
    (hc : ∀ t ∈ q.index.keys, q.item t = none → t ∈ q.expired cutoff) :
    ∀ t ∈ (q.purgeExpired cutoff).index.keys, ((q.purgeExpired cutoff).item t).isSome := by
  intro t ht
  obtain ⟨hne, ht⟩ := (h.mem_index_purgeExpired cutoff t).1 ht
  rw [h.item_purgeExpired, if_neg hne, Option.isSome_iff_ne_none]
  exact fun hi => hne (hc t ht hi)

/-- **A refusal is honest**: an enqueue that answers full leaves items that reach one of the bounds. -/
theorem Inv.overfull (h : Inv P q) {t : τ} {p : π} {cutoff : ℤ}
    (hc : ∀ t ∈ q.index.keys, q.item t = none → t ∈ q.expired cutoff)
    (hf : (q.enqueue P t p cutoff).1 = .full) : Overfull P (q.enqueue P t p cutoff).2 p := by
  have hst := h.stored_purgeExpired hc
  have hp := inv_closed.purgeExpired h cutoff
  unfold Queue.enqueue at hf ⊢
  revert hf
  cases q.item t with
  | some i =>
    intro hf
    cases hf
  | none =>
    simp only
    split
    · rename_i hcard
      exact fun _ => ⟨_, Coll.keys_nodup _, hst, .inl hcard⟩
    · split
      · rename_i hbytes
        rw [hp.total_eq hst] at hbytes
        exact fun _ => ⟨_, Coll.keys_nodup _, fun t ht => hst t ((hp.meta_iff_index t).1 ht), .inr hbytes⟩
      · intro hf
        cases hf

end Full

/-- **The ledger in every run that meets the condition**: at every state reached, and so whenever no step is in
progress, index and meta hash agree, stored items are indexed and sized, and an enqueue is refused only when the stored
items reach a bound. -/
theorem ledger_run {P : ServerPrivacy π μ} {s : Traffic τ π} {es : List (Traffic.Event τ π)}
    (hr : run (Traffic.step P) Traffic.init es = some s) (hm : Meets (Traffic.step P) Traffic.Sound Traffic.init es) :
    Ledger P s.queue ∧ ∀ t p cutoff, s.Sound (.enqueue t p cutoff) → (s.queue.enqueue P t p cutoff).1 = .full →
      Overfull P (s.queue.enqueue P t p cutoff).2 p :=
  have h := Traffic.inv_run hr hm
  ⟨h.toLedger, fun _ _ _ hok hf => h.overfull hok hf⟩

/-- A delivery is acknowledged between a drain's `ZRANGE` and its `MGET`, so the drain takes a token out of the index
that has left the meta hash. -/
def ackDuringDrain : List (Traffic.Event ℕ ℕ) :=
  [.enqueue 7 10 0, .enqueue 8 20 0, .deliver 0, .drain 0 0 true, .drain 0 0 true, .acknowledge 7, .drain 0 0 true,
    .drain 0 0 true, .drain 0 0 true, .drain 0 0 true]

theorem ledger_ackDuringDrain : ∃ s, run (Traffic.step plainPrivacy) Traffic.init ackDuringDrain = some s ∧
    s.queue.index.keys = [8] ∧ Ledger plainPrivacy s.queue := by
  obtain ⟨s, hs, hk⟩ : ∃ s, run (Traffic.step plainPrivacy) Traffic.init ackDuringDrain = some s ∧
      s.queue.index.keys = [8] := exists_run _ _ _ (by decide +kernel)
  exact ⟨s, hs, hk, (ledger_run hs (by decide +kernel)).1⟩

/-- The same, and its sender retries before the drain's `ZREM`. -/
def retryDuringDrain : List (Traffic.Event ℕ ℕ) :=
  [.enqueue 7 10 0, .deliver 0, .drain 0 0 true, .drain 0 0 true, .acknowledge 7, .drain 0 0 true, .enqueue 7 10 0,
    .drain 0 0 true, .drain 0 0 true]

/-- **A retry during a drain leaves a stored message that is not indexed**, and a ledger entry with it. -/
theorem ledger_drifts : ∃ s, run (Traffic.step plainPrivacy) Traffic.init retryDuringDrain = some s ∧
    (∀ i, (s.drains i).finished = true) ∧ s.queue.item 7 ≠ none ∧ 7 ∈ s.queue.metaHash.keys ∧
    7 ∉ s.queue.index.keys := by
  refine ⟨_, rfl, fun i => ?_, by decide, by decide, by decide⟩
  by_cases hi : i = 0 <;> simp [Traffic.init, Traffic.setDrain, hi, Drain.finished]

end Reliable
end SecureChat
