import Mathlib
import SecureChat.ReliableQueue
/-!
# ReliableLedger — what the reliable queue's scripts preserve

`Held` is what keeps a stored item deliverable: it is indexed and charged, its meta entry names it, and index and meta
hash do not expire before it.  `Inv` adds the ledger proper: index and meta hash hold the same tokens and expire
together, and the recorded sizes are the items' sizes.

The scripts are made of a few writes: dropping a token everywhere, dropping the keys of an empty index, and the writes
of an accepted enqueue.  `Closed` says that an invariant survives these, and then it survives the scripts; a drain
adds `DEL item` and `ZREM index token` on their own, and each invariant says when it survives the latter
(`Held.zrem_iff`, `Inv.zrem_iff`).
-/
namespace SecureChat
namespace Reliable

open Redis

variable {τ π μ : Type} [LinearOrder τ] {P : ServerPrivacy π μ}

/-- **A stored item is deliverable.** -/
structure Held (P : ServerPrivacy π μ) (q : Queue τ π) : Prop where
  stored_indexed : ∀ t i, q.item t = some i → t ∈ q.index.keys
  stored_charged : ∀ t i, q.item t = some i → t ∈ q.metaHash.keys
  owner : ∀ t m, q.metaHash.lookup t = some m → m.itemKey = t
  item_expiry : ∀ t i, q.item t = some i → ∃ d, i.expireAt = some d ∧
    d ≤ q.nowMs + P.offlineQueueTtlSeconds * 1000 ∧ (∀ e, q.index.expireAt = some e → d ≤ e) ∧
    ∀ e, q.metaHash.expireAt = some e → d ≤ e

/-- **The ledger agrees with the queue.** -/
structure Ledger (P : ServerPrivacy π μ) (q : Queue τ π) : Prop where
  meta_iff_index : ∀ t, t ∈ q.metaHash.keys ↔ t ∈ q.index.keys
  stored_indexed : ∀ t i, q.item t = some i → t ∈ q.index.keys
  sized : ∀ t m i, q.metaHash.lookup t = some m → q.item t = some i → m.size = P.len i.val

structure Inv (P : ServerPrivacy π μ) (q : Queue τ π) : Prop extends Held P q where
  meta_iff_index : ∀ t, t ∈ q.metaHash.keys ↔ t ∈ q.index.keys
  sized : ∀ t m i, q.metaHash.lookup t = some m → q.item t = some i → m.size = P.len i.val
  same_expiry : ∀ t, t ∈ q.index.keys → q.index.expireAt = q.metaHash.expireAt

theorem Inv.toLedger {q : Queue τ π} (h : Inv P q) : Ledger P q := ⟨h.meta_iff_index, h.stored_indexed, h.sized⟩

namespace Queue

def remove (t : τ) (q : Queue τ π) : Queue τ π := ((q.delItem t).zrem t).hdel t

variable {q : Queue τ π}

theorem item_delItem (t a : τ) : (q.delItem t).item a = if a = t then none else q.item a := by
  show Function.update q.item t none a = _
  rw [Function.update_apply]

theorem item_of_delItem {t a : τ} {i : Volatile π} (h : (q.delItem t).item a = some i) :
    a ≠ t ∧ q.item a = some i := by
  rw [item_delItem] at h
  split at h
  · cases h
  · rename_i hat
    exact ⟨hat, h⟩

@[simp] theorem nowMs_remove (t : τ) : (q.remove t).nowMs = q.nowMs := rfl

theorem item_remove (t a : τ) : (q.remove t).item a = if a = t then none else q.item a := item_delItem t a

theorem item_of_remove {t a : τ} {i : Volatile π} (h : (q.remove t).item a = some i) : a ≠ t ∧ q.item a = some i :=
  item_of_delItem h

theorem mem_index_remove {t a : τ} : a ∈ (q.remove t).index.keys ↔ a ≠ t ∧ a ∈ q.index.keys := Coll.mem_keys_del

theorem mem_meta_remove {t a : τ} : a ∈ (q.remove t).metaHash.keys ↔ a ≠ t ∧ a ∈ q.metaHash.keys := Coll.mem_keys_del

theorem lookup_meta_remove {t a : τ} (h : a ≠ t) : (q.remove t).metaHash.lookup a = q.metaHash.lookup a :=
  Coll.lookup_del_ne h

theorem lookup_index_remove {t a : τ} (h : a ≠ t) : (q.remove t).index.lookup a = q.index.lookup a :=
  Coll.lookup_del_ne h

theorem mem_expired {cutoff : ℤ} {t : τ} :
    t ∈ q.expired cutoff ↔ ∃ s, q.index.lookup t = some s ∧ s ≤ cutoff * 1000 := Coll.mem_zrangeByScore

end Queue

variable {q : Queue τ π}

/-! ## The scripts, for any invariant -/

/-- Under `Held` the purge loop's body removes the token everywhere. -/
theorem Held.dropExpired_eq (h : Held P q) (t : τ) : q.dropExpired t = q.remove t := by
  unfold Queue.dropExpired
  split
  · rename_i m hm
    rw [h.owner t m hm]
    rfl
  · rename_i hm
    have hnm : t ∉ q.metaHash.keys := Coll.lookup_eq_none.1 hm
    have hi : q.item t = none := by
      cases hc : q.item t with
      | none => rfl
      | some i => exact absurd (h.stored_charged t i hc) hnm
    have hu : Function.update q.item t none = q.item := by
      rw [← hi, Function.update_eq_self]
    simp only [Queue.remove, Queue.delItem, Queue.zrem, Queue.hdel, hu, Coll.del_of_not_mem hnm]

structure Closed (P : ServerPrivacy π μ) (I : Queue τ π → Prop) : Prop where
  held : ∀ q, I q → Held P q
  remove : ∀ q t, I q → I (q.remove t)
  delKeys : ∀ q, I q → q.index.card = 0 → I q.delKeys
  store : ∀ q t p, I q → I (q.store P t p)

namespace Closed

variable {I : Queue τ π → Prop}

theorem foldl_dropExpired (hI : Closed P I) : ∀ (ts : List τ) {q : Queue τ π}, I q → I (ts.foldl Queue.dropExpired q)
  | [], _, h => h
  | t :: ts, q, h => by
    rw [List.foldl_cons, (hI.held q h).dropExpired_eq t]
    exact hI.foldl_dropExpired ts (hI.remove q t h)

theorem purgeExpired (hI : Closed P I) (h : I q) (cutoff : ℤ) : I (q.purgeExpired cutoff) :=
  hI.foldl_dropExpired _ h

theorem purge (hI : Closed P I) (h : I q) (cutoff : ℤ) : I (q.purge cutoff) := by
  unfold Queue.purge
  simp only
  split
  · rename_i hc
    exact hI.delKeys _ (hI.purgeExpired h cutoff) hc
  · exact hI.purgeExpired h cutoff

theorem acknowledge (hI : Closed P I) (h : I q) (t : τ) : I (q.acknowledge t).2 := by
  have hr : I (((q.delItem t).zrem t).hdel t) := hI.remove q t h
  unfold Queue.acknowledge
  simp only
  split
  · rename_i hc
    exact hI.delKeys _ hr hc
  · exact hr

theorem enqueue (hI : Closed P I) (h : I q) (t : τ) (p : π) (cutoff : ℤ) : I (q.enqueue P t p cutoff).2 := by
  unfold Queue.enqueue
  cases q.item t with
  | some i => exact h
  | none =>
    simp only
    split
    · exact hI.purgeExpired h cutoff
    · split
      · exact hI.purgeExpired h cutoff
      · exact hI.store _ t p (hI.purgeExpired h cutoff)

/-- A drain step adds the two writes of its own: the item of an unreadable frame, and the token `zremNext` names. -/
theorem drainStep (hI : Closed P I) (h : I q) {cutoff : ℤ} {sendOk : Bool} {d d' : Drain τ π} {q' : Queue τ π}
    {out : Sent τ μ} (hdel : ∀ t, I (q.delItem t)) (hz : ∀ t ∈ d.zremNext, I (q.zrem t))
    (hs : drainStep P cutoff sendOk q d = some (d', q', out)) : I q' := by
  unfold Reliable.drainStep at hs
  split at hs
  · cases hs
  · cases hs
  · cases hs; exact hI.purge h cutoff
  · cases hs; exact h
  · cases hs; exact h
  · cases hs; exact h
  · cases hs; exact hz _ rfl
  · split at hs
    · cases hs; exact hdel _
    · split at hs
      · cases hs; exact h
      · cases hs; exact h
  · cases hs; exact hz _ rfl

end Closed

/-! ## Held -/

theorem held_empty : Held P (Queue.empty : Queue τ π) where
  stored_indexed _ _ h := by cases h
  stored_charged _ _ h := by cases h
  owner _ _ h := by cases h
  item_expiry _ _ h := by cases h

theorem Held.remove (h : Held P q) (t : τ) : Held P (q.remove t) where
  stored_indexed a i hi := by
    obtain ⟨hat, hi⟩ := Queue.item_of_remove hi
    exact Queue.mem_index_remove.2 ⟨hat, h.stored_indexed a i hi⟩
  stored_charged a i hi := by
    obtain ⟨hat, hi⟩ := Queue.item_of_remove hi
    exact Queue.mem_meta_remove.2 ⟨hat, h.stored_charged a i hi⟩
  owner a m hm := by
    have hat : a ≠ t := (Queue.mem_meta_remove.1 (Coll.mem_keys_of_lookup hm)).1
    rw [Queue.lookup_meta_remove hat] at hm
    exact h.owner a m hm
  item_expiry a i hi := by
    obtain ⟨hat, hi⟩ := Queue.item_of_remove hi
    obtain ⟨d, hd, hnow, hx, hm⟩ := h.item_expiry a i hi
    have hax : a ∈ (q.remove t).index.keys := Queue.mem_index_remove.2 ⟨hat, h.stored_indexed a i hi⟩
    have ham : a ∈ (q.remove t).metaHash.keys := Queue.mem_meta_remove.2 ⟨hat, h.stored_charged a i hi⟩
    refine ⟨d, hd, hnow, fun e he => hx e ?_, fun e he => hm e ?_⟩
    · rw [← he]
      exact (Coll.expireAt_del hax).symm
    · rw [← he]
      exact (Coll.expireAt_del ham).symm

theorem Held.item_eq_none (h : Held P q) {t : τ} (ht : t ∉ q.index.keys) : q.item t = none := by
  cases hi : q.item t with
  | none => rfl
  | some i => exact absurd (h.stored_indexed t i hi) ht

omit [LinearOrder τ] in
theorem Queue.not_mem_of_card {t : τ} (hc : q.index.card = 0) : t ∉ q.index.keys := by
  rw [List.length_eq_zero_iff.1 hc]
  exact List.not_mem_nil

theorem Held.delKeys (h : Held P q) (hc : q.index.card = 0) : Held P q.delKeys := by
  have hnone : ∀ t, q.delKeys.item t = none := fun t => h.item_eq_none (Queue.not_mem_of_card hc)
  exact
    { stored_indexed := fun t i hi => by rw [hnone t] at hi; cases hi
      stored_charged := fun t i hi => by rw [hnone t] at hi; cases hi
      owner := fun _ _ hm => by cases hm
      item_expiry := fun t i hi => by rw [hnone t] at hi; cases hi }

namespace Queue

theorem mem_index_store {t a : τ} {p : π} : a ∈ (q.store P t p).index.keys ↔ a = t ∨ a ∈ q.index.keys := by
  simp only [store, Coll.keys_expire, Coll.mem_keys_put]

theorem mem_meta_store {t a : τ} {p : π} : a ∈ (q.store P t p).metaHash.keys ↔ a = t ∨ a ∈ q.metaHash.keys := by
  simp only [store, Coll.keys_expire, Coll.mem_keys_put]

theorem lookup_meta_store_self {t : τ} {p : π} : (q.store P t p).metaHash.lookup t = some ⟨P.len p, t⟩ := by
  simp only [store, Coll.lookup_expire, Coll.lookup_put_self]

theorem lookup_meta_store_ne {t a : τ} {p : π} (h : a ≠ t) :
    (q.store P t p).metaHash.lookup a = q.metaHash.lookup a := by
  simp only [store, Coll.lookup_expire, Coll.lookup_put_ne h]

theorem lookup_index_store_self {t : τ} {p : π} : (q.store P t p).index.lookup t = some q.nextScore := by
  simp only [store, Coll.lookup_expire, Coll.lookup_put_self]

theorem lookup_index_store_ne {t a : τ} {p : π} (h : a ≠ t) :
    (q.store P t p).index.lookup a = q.index.lookup a := by
  simp only [store, Coll.lookup_expire, Coll.lookup_put_ne h]

theorem item_store_self {t : τ} {p : π} :
    (q.store P t p).item t = some ⟨p, some (q.nowMs + P.offlineQueueTtlSeconds * 1000)⟩ :=
  Function.update_self _ _ _

theorem item_store_ne {t a : τ} {p : π} (h : a ≠ t) : (q.store P t p).item a = q.item a :=
  Function.update_of_ne h _ _

theorem index_expireAt_store {t : τ} {p : π} :
    (q.store P t p).index.expireAt = some (q.nowMs + P.offlineQueueTtlSeconds * 1000) :=
  Coll.expireAt_expire (Coll.keys_put_ne_nil _ _ _)

theorem meta_expireAt_store {t : τ} {p : π} :
    (q.store P t p).metaHash.expireAt = some (q.nowMs + P.offlineQueueTtlSeconds * 1000) :=
  Coll.expireAt_expire (Coll.keys_put_ne_nil _ _ _)

end Queue

/-- **An accepted enqueue**: its token is stored, indexed and charged, and the new expiry time of index and meta hash is
not before any item's. -/
theorem Held.store (h : Held P q) (t : τ) (p : π) : Held P (q.store P t p) where
  stored_indexed a i hi := by
    by_cases hat : a = t
    · exact Queue.mem_index_store.2 (.inl hat)
    · rw [Queue.item_store_ne hat] at hi
      exact Queue.mem_index_store.2 (.inr (h.stored_indexed a i hi))
  stored_charged a i hi := by
    by_cases hat : a = t
    · exact Queue.mem_meta_store.2 (.inl hat)
    · rw [Queue.item_store_ne hat] at hi
      exact Queue.mem_meta_store.2 (.inr (h.stored_charged a i hi))
  owner a m hm := by
    by_cases hat : a = t
    · subst hat
      rw [Queue.lookup_meta_store_self, Option.some.injEq] at hm
      rw [← hm]
    · rw [Queue.lookup_meta_store_ne hat] at hm
      exact h.owner a m hm
  item_expiry a i hi := by
    rw [Queue.index_expireAt_store, Queue.meta_expireAt_store]
    obtain ⟨d, hd, hdn⟩ : ∃ d, i.expireAt = some d ∧ d ≤ q.nowMs + P.offlineQueueTtlSeconds * 1000 := by
      by_cases hat : a = t
      · subst hat
        rw [Queue.item_store_self, Option.some.injEq] at hi
        exact ⟨_, by rw [← hi], Nat.le_refl _⟩
      · rw [Queue.item_store_ne hat] at hi
        obtain ⟨d, hd, hdn, -⟩ := h.item_expiry a i hi
        exact ⟨d, hd, hdn⟩
    refine ⟨d, hd, hdn, fun e he => ?_, fun e he => ?_⟩
    · rw [Option.some.injEq] at he
      omega
    · rw [Option.some.injEq] at he
      omega

theorem held_closed : Closed P (Held P : Queue τ π → Prop) :=
  ⟨fun _ h => h, fun _ t h => h.remove t, fun _ h hc => h.delKeys hc, fun _ t p h => h.store t p⟩

omit [LinearOrder τ] in
theorem Queue.item_of_tick {d : ℕ} {t : τ} {i : Volatile π} (h : (q.tick d).item t = some i) :
    q.item t = some i ∧ i.live ((q.clock + d) / 1000) = true := Volatile.sweep_eq_some.1 h

omit [LinearOrder τ] in
theorem Queue.nowMs_tick (d : ℕ) : q.nowMs ≤ (q.tick d).nowMs := Nat.div_le_div_right (Nat.le_add_right _ _)

theorem Held.tick_eq (h : Held P q) {d : ℕ} {t : τ} {i : Volatile π} (hi : (q.tick d).item t = some i) :
    (q.tick d).index = q.index ∧ (q.tick d).metaHash = q.metaHash := by
  obtain ⟨hit, hlive⟩ := Queue.item_of_tick hi
  obtain ⟨x, hx, -, hxi, hxm⟩ := h.item_expiry t i hit
  simp only [Volatile.live, hx, decide_eq_true_eq] at hlive
  constructor
  · by_cases hl : q.index.live ((q.clock + d) / 1000) = true
    · exact Coll.sweep_of_live hl
    · obtain ⟨e, he, hlt⟩ := Coll.expired_of_dead hl
      have := hxi e he
      omega
  · by_cases hl : q.metaHash.live ((q.clock + d) / 1000) = true
    · exact Coll.sweep_of_live hl
    · obtain ⟨e, he, hlt⟩ := Coll.expired_of_dead hl
      have := hxm e he
      omega

theorem Queue.lookup_meta_of_tick {d : ℕ} {t : τ} {m : Meta τ} (h : (q.tick d).metaHash.lookup t = some m) :
    q.metaHash.lookup t = some m := by
  by_cases hl : q.metaHash.live ((q.clock + d) / 1000) = true
  · rwa [show (q.tick d).metaHash = q.metaHash from Coll.sweep_of_live hl] at h
  · rw [show (q.tick d).metaHash = Coll.empty from Coll.sweep_of_dead hl] at h
    cases h

theorem Held.tick (h : Held P q) (d : ℕ) : Held P (q.tick d) where
  stored_indexed t i hi := by
    rw [(h.tick_eq hi).1]
    exact h.stored_indexed t i (Queue.item_of_tick hi).1
  stored_charged t i hi := by
    rw [(h.tick_eq hi).2]
    exact h.stored_charged t i (Queue.item_of_tick hi).1
  owner t m hm := h.owner t m (Queue.lookup_meta_of_tick hm)
  item_expiry t i hi := by
    obtain ⟨x, hx, hn, hxi, hxm⟩ := h.item_expiry t i (Queue.item_of_tick hi).1
    rw [(h.tick_eq hi).1, (h.tick_eq hi).2]
    have hle := q.nowMs_tick d
    exact ⟨x, hx, by omega, hxi, hxm⟩

theorem Held.delItem (h : Held P q) (t : τ) : Held P (q.delItem t) where
  stored_indexed a i hi := h.stored_indexed a i (Queue.item_of_delItem hi).2
  stored_charged a i hi := h.stored_charged a i (Queue.item_of_delItem hi).2
  owner := h.owner
  item_expiry a i hi := h.item_expiry a i (Queue.item_of_delItem hi).2

/-- **A lone `ZREM index token` keeps the stored items deliverable exactly when the token's item is gone.** -/
theorem Held.zrem_iff (h : Held P q) (t : τ) : Held P (q.zrem t) ↔ q.item t = none := by
  constructor
  · intro hz
    cases hi : q.item t with
    | none => rfl
    | some i => exact absurd rfl (Coll.mem_keys_del.1 (hz.stored_indexed t i hi)).1
  · intro hn
    have hne : ∀ a i, q.item a = some i → a ≠ t := fun a i hi hat => by
      rw [hat, hn] at hi
      cases hi
    have hmem : ∀ a i, q.item a = some i → a ∈ (q.zrem t).index.keys := fun a i hi =>
      Coll.mem_keys_del.2 ⟨hne a i hi, h.stored_indexed a i hi⟩
    exact
      { stored_indexed := hmem
        stored_charged := h.stored_charged
        owner := h.owner
        item_expiry := fun a i hi => by
          obtain ⟨x, hx, hxn, hxi, hxm⟩ := h.item_expiry a i hi
          refine ⟨x, hx, hxn, fun e he => hxi e ?_, hxm⟩
          rw [← he]
          exact (Coll.expireAt_del (hmem a i hi)).symm }

/-! ## What the purge loop leaves -/

theorem Held.foldl_dropExpired : ∀ (ts : List τ) {q : Queue τ π}, Held P q →
    (ts.foldl Queue.dropExpired q).clock = q.clock ∧
    (∀ a, a ∈ (ts.foldl Queue.dropExpired q).index.keys ↔ a ∉ ts ∧ a ∈ q.index.keys) ∧
    (∀ a, (ts.foldl Queue.dropExpired q).item a = if a ∈ ts then none else q.item a) ∧
    (∀ a, a ∉ ts → (ts.foldl Queue.dropExpired q).index.lookup a = q.index.lookup a)
  | [], q, _ => ⟨rfl, fun a => by simp, fun a => by simp, fun a _ => rfl⟩
  | t :: ts, q, h => by
    rw [List.foldl_cons, h.dropExpired_eq t]
    obtain ⟨hn, hx, hit, hl⟩ := Held.foldl_dropExpired ts (h.remove t)
    refine ⟨hn, fun a => ?_, fun a => ?_, fun a ha => ?_⟩
    · rw [hx a, Queue.mem_index_remove, List.mem_cons, not_or]
      exact ⟨fun ⟨h1, h2, h3⟩ => ⟨⟨h2, h1⟩, h3⟩, fun ⟨⟨h2, h1⟩, h3⟩ => ⟨h1, h2, h3⟩⟩
    · rw [hit a, Queue.item_remove]
      by_cases hat : a = t <;> by_cases hats : a ∈ ts <;> simp [hat, hats]
    · rw [List.mem_cons, not_or] at ha
      rw [hl a ha.2, Queue.lookup_index_remove ha.1]

theorem Held.clock_purgeExpired (h : Held P q) (cutoff : ℤ) : (q.purgeExpired cutoff).clock = q.clock :=
  (Held.foldl_dropExpired _ h).1

theorem Held.mem_index_purgeExpired (h : Held P q) (cutoff : ℤ) (a : τ) :
    a ∈ (q.purgeExpired cutoff).index.keys ↔ a ∉ q.expired cutoff ∧ a ∈ q.index.keys :=
  (Held.foldl_dropExpired _ h).2.1 a

theorem Held.item_purgeExpired (h : Held P q) (cutoff : ℤ) (a : τ) :
    (q.purgeExpired cutoff).item a = if a ∈ q.expired cutoff then none else q.item a :=
  (Held.foldl_dropExpired _ h).2.2.1 a

theorem Held.lookup_purgeExpired (h : Held P q) {cutoff : ℤ} {a : τ} (ha : a ∉ q.expired cutoff) :
    (q.purgeExpired cutoff).index.lookup a = q.index.lookup a :=
  (Held.foldl_dropExpired _ h).2.2.2 a ha

/-! ## The ledger -/

theorem inv_empty : Inv P (Queue.empty : Queue τ π) where
  toHeld := held_empty
  meta_iff_index _ := Iff.rfl
  sized _ _ _ h := by cases h
  same_expiry _ h := by cases h

theorem Inv.remove (h : Inv P q) (t : τ) : Inv P (q.remove t) where
  toHeld := h.toHeld.remove t
  meta_iff_index a := by rw [Queue.mem_meta_remove, Queue.mem_index_remove, h.meta_iff_index]
  sized a m i hm hi := by
    obtain ⟨hat, hi⟩ := Queue.item_of_remove hi
    rw [Queue.lookup_meta_remove hat] at hm
    exact h.sized a m i hm hi
  same_expiry a ha := by
    have ham : a ∈ (q.remove t).metaHash.keys := by
      rw [Queue.mem_meta_remove, h.meta_iff_index]
      exact Queue.mem_index_remove.1 ha
    rw [show (q.remove t).index.expireAt = q.index.expireAt from Coll.expireAt_del ha,
      show (q.remove t).metaHash.expireAt = q.metaHash.expireAt from Coll.expireAt_del ham]
    exact h.same_expiry a (Queue.mem_index_remove.1 ha).2

theorem Inv.delKeys (h : Inv P q) (hc : q.index.card = 0) : Inv P q.delKeys where
  toHeld := h.toHeld.delKeys hc
  meta_iff_index _ := Iff.rfl
  sized _ _ _ hm := by cases hm
  same_expiry _ ha := by cases ha

theorem Inv.store (h : Inv P q) (t : τ) (p : π) : Inv P (q.store P t p) where
  toHeld := h.toHeld.store t p
  meta_iff_index a := by rw [Queue.mem_meta_store, Queue.mem_index_store, h.meta_iff_index]
  sized a m i hm hi := by
    by_cases hat : a = t
    · subst hat
      rw [Queue.lookup_meta_store_self, Option.some.injEq] at hm
      rw [Queue.item_store_self, Option.some.injEq] at hi
      rw [← hm, ← hi]
    · rw [Queue.lookup_meta_store_ne hat] at hm
      rw [Queue.item_store_ne hat] at hi
      exact h.sized a m i hm hi
  same_expiry _ _ := by rw [Queue.index_expireAt_store, Queue.meta_expireAt_store]

theorem inv_closed : Closed P (Inv P : Queue τ π → Prop) :=
  ⟨fun _ h => h.toHeld, fun _ t h => h.remove t, fun _ h hc => h.delKeys hc, fun _ t p h => h.store t p⟩

theorem Inv.tick (h : Inv P q) (d : ℕ) : Inv P (q.tick d) := by
  have hsized : ∀ t m i, (q.tick d).metaHash.lookup t = some m → (q.tick d).item t = some i → m.size = P.len i.val :=
    fun t m i hm hi => h.sized t m i (Queue.lookup_meta_of_tick hm) (Queue.item_of_tick hi).1
  by_cases hk : q.index.keys = []
  · have hmk : q.metaHash.keys = [] :=
      List.eq_nil_iff_forall_not_mem.2 (fun t ht => by
        have := (h.meta_iff_index t).1 ht
        rw [hk] at this
        cases this)
    have hi' : (q.tick d).index.keys = [] := Coll.keys_sweep_of_nil hk
    have hm' : (q.tick d).metaHash.keys = [] := Coll.keys_sweep_of_nil hmk
    exact
      { toHeld := h.toHeld.tick d
        meta_iff_index := fun t => by rw [hi', hm']
        sized := hsized
        same_expiry := fun t ht => by rw [hi'] at ht; cases ht }
  · obtain ⟨t, ht⟩ := List.exists_mem_of_ne_nil _ hk
    have he := h.same_expiry t ht
    have hlive : q.metaHash.live ((q.clock + d) / 1000) = q.index.live ((q.clock + d) / 1000) := by
      unfold Volatile.live
      rw [he]
    by_cases hl : q.index.live ((q.clock + d) / 1000) = true
    · have hi' : (q.tick d).index = q.index := Coll.sweep_of_live hl
      have hm' : (q.tick d).metaHash = q.metaHash := Coll.sweep_of_live (hlive.trans hl)
      exact
        { toHeld := h.toHeld.tick d
          meta_iff_index := fun t => by rw [hi', hm', h.meta_iff_index]
          sized := hsized
          same_expiry := fun t ht => by
            rw [hi'] at ht ⊢
            rw [hm']
            exact h.same_expiry t ht }
    · have hi' : (q.tick d).index = Coll.empty := Coll.sweep_of_dead hl
      have hm' : (q.tick d).metaHash = Coll.empty := Coll.sweep_of_dead (by rwa [hlive])
      exact
        { toHeld := h.toHeld.tick d
          meta_iff_index := fun t => by rw [hi', hm']; rfl
          sized := hsized
          same_expiry := fun t ht => by rw [hi'] at ht; cases ht }

theorem Inv.delItem (h : Inv P q) (t : τ) : Inv P (q.delItem t) where
  toHeld := h.toHeld.delItem t
  meta_iff_index := h.meta_iff_index
  sized a m i hm hi := h.sized a m i hm (Queue.item_of_delItem hi).2
  same_expiry := h.same_expiry

/-- **A lone `ZREM index token` keeps the ledger exactly when the token has left the meta hash.** -/
theorem Inv.zrem_iff (h : Inv P q) (t : τ) : Inv P (q.zrem t) ↔ t ∉ q.metaHash.keys := by
  constructor
  · intro hz hm
    exact (Coll.mem_keys_del.1 ((hz.meta_iff_index t).1 hm)).1 rfl
  · intro hm
    have : q.zrem t = q := by
      unfold Queue.zrem
      rw [Coll.del_of_not_mem (fun hi => hm ((h.meta_iff_index t).2 hi))]
    rw [this]
    exact h

end Reliable
end SecureChat
