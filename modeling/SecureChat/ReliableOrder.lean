import SecureChat.ReliableRuns
/-!
# ReliableOrder — what is queued stays in the order in which it was accepted

Runs of the queue's scripts with a Redis clock that may be set to any time.  `Fifo` is what the scripts keep whatever
the clock says: the bounds, the ledger, and scores that follow the order of acceptance, as the order key lives as long
as the index and is beyond every score in it.

Where the clock goes back, the time of the index can be set to before the one of an item: the item then outlives the
index and is not read any more.
-/
namespace SecureChat
namespace Redis

/-! ## Collections -/

namespace Coll

section Sums

variable {κ β : Type}

@[simp] theorem card_expire (e : ℕ) (c : Coll κ β) : (c.expire e).card = c.card := by
  unfold card
  rw [keys_expire]

@[simp] theorem vals_expire (e : ℕ) (c : Coll κ β) : (c.expire e).vals = c.vals := by
  unfold expire
  split <;> rfl

theorem vals_of_keys {c : Coll κ β} (h : c.keys = []) : c.vals = [] := by
  have hentries : c.val.entries = [] := List.map_eq_nil_iff.1 h
  unfold vals
  rw [hentries]
  rfl

variable [DecidableEq κ]

theorem card_del_le (k : κ) (c : Coll κ β) : (c.del k).card ≤ c.card := by
  unfold card
  rw [keys_del]
  exact List.length_erase_le

theorem card_put_le (k : κ) (b : β) (c : Coll κ β) : (c.put k b).card ≤ c.card + 1 := by
  show (AList.insert k b c.val).keys.length ≤ c.val.keys.length + 1
  rw [AList.keys_insert, List.length_cons]
  exact Nat.succ_le_succ List.length_erase_le

theorem vals_del_sublist (k : κ) (c : Coll κ β) : (c.del k).vals.Sublist c.vals := by
  unfold del
  split
  · split
    · exact List.nil_sublist _
    · exact (List.kerase_sublist k c.val.entries).map _
  · exact List.Sublist.refl _

theorem vals_put (k : κ) (b : β) (c : Coll κ β) : (c.put k b).vals = b ::
    (AList.erase k c.val).entries.map Sigma.snd := by
  unfold vals put
  rw [AList.entries_insert]
  rfl

theorem vals_erase_sublist (k : κ) (c : Coll κ β) : ((AList.erase k c.val).entries.map Sigma.snd).Sublist c.vals :=
  (List.kerase_sublist k c.val.entries).map _

end Sums

section Sorted

variable {κ : Type} [LinearOrder κ]

/-- **A list of the members with rising scores is what `ZRANGE` reads.** -/
theorem zrange_eq {c : Coll κ ℤ} {l : List κ} (hl : ∀ k, k ∈ l ↔ k ∈ c.keys) (hnodup : l.Nodup)
    (hs : l.Pairwise fun a b => ∀ s s', c.lookup a = some s → c.lookup b = some s' → s < s') : c.zrange = l := by
  let entry : κ → (_ : κ) × ℤ := fun k => ⟨k, (c.lookup k).getD 0⟩
  have hscore : ∀ k ∈ l, ∃ s, c.lookup k = some s ∧ entry k = ⟨k, s⟩ := by
    intro k hk
    obtain ⟨s, hs⟩ := exists_lookup ((hl k).1 hk)
    exact ⟨s, hs, by simp only [entry, hs, Option.getD_some]⟩
  have hperm : (l.map entry).Perm c.val.entries := by
    refine (List.perm_ext_iff_of_nodup ?_ c.val.nodupKeys.nodup).2 fun e => ?_
    · exact hnodup.map fun a b hab => congrArg Sigma.fst hab
    · rw [List.mem_map]
      constructor
      · rintro ⟨k, hk, rfl⟩
        obtain ⟨s, hs, he⟩ := hscore k hk
        rw [he]
        exact mem_entries.2 hs
      · intro he
        obtain ⟨k, s⟩ := e
        have hk : c.lookup k = some s := mem_entries.1 he
        refine ⟨k, (hl k).2 (mem_keys_of_lookup hk), ?_⟩
        simp only [entry, hk, Option.getD_some]
  have hsorted : (l.map entry).Pairwise scoreLe := by
    rw [List.pairwise_map]
    refine hs.imp_of_mem fun {a b} ha hb hab => ?_
    obtain ⟨s, hs, hea⟩ := hscore a ha
    obtain ⟨s', hs', heb⟩ := hscore b hb
    rw [hea, heb]
    exact .inl (hab s s' hs hs')
  have heq : c.sorted = l.map entry :=
    List.Perm.eq_of_pairwise' (List.pairwise_insertionSort scoreLe c.val.entries) hsorted
      ((List.perm_insertionSort scoreLe c.val.entries).trans hperm.symm)
  unfold zrange
  rw [heq, List.map_map]
  exact List.map_id l

end Sorted

end Coll
end Redis

namespace Reliable

open Redis Runs

variable {τ π μ : Type} [LinearOrder τ] {P : ServerPrivacy π μ}

/-! ## Runs of the scripts -/

def Queue.setClock (clock : ℕ) (q : Queue τ π) : Queue τ π :=
  { clock := clock
    index := q.index.sweep (clock / 1000)
    item := fun t => Volatile.sweep (clock / 1000) (q.item t)
    order := Volatile.sweep (clock / 1000) q.order
    metaHash := q.metaHash.sweep (clock / 1000) }

structure Acceptance (τ π : Type) where
  queue : Queue τ π
  accepted : List τ

namespace Acceptance

inductive Event (τ π : Type) where
  | enqueue (token : τ) (payload : π) (cutoff : ℤ)
  | acknowledge (token : τ)
  | purge (cutoff : ℤ)
  | setClock (clock : ℕ)

def init : Acceptance τ π := ⟨Queue.empty, []⟩

def accept (answer : Queued π) (t : τ) (accepted : List τ) : List τ :=
  match answer with
  | .written _ => accepted.filter (· ≠ t) ++ [t]
  | _ => accepted

def step (P : ServerPrivacy π μ) (s : Acceptance τ π) : Event τ π → Option (Acceptance τ π)
  | .enqueue t p cutoff =>
    let r := s.queue.enqueue P t p cutoff
    some ⟨r.2, accept r.1 t s.accepted⟩
  | .acknowledge t => some ⟨(s.queue.acknowledge t).2, s.accepted⟩
  | .purge cutoff => some ⟨s.queue.purge cutoff, s.accepted⟩
  | .setClock clock => some ⟨s.queue.setClock clock, s.accepted⟩

def Forward (s : Acceptance τ π) : Event τ π → Prop
  | .setClock clock => s.queue.clock ≤ clock
  | _ => True

instance (s : Acceptance τ π) : ∀ e, Decidable (s.Forward e)
  | .setClock clock => inferInstanceAs (Decidable (s.queue.clock ≤ clock))
  | .enqueue .. | .acknowledge _ | .purge _ => inferInstanceAs (Decidable True)

end Acceptance

/-! ## The invariant -/

/-- **What the scripts keep, whatever the clock says.** -/
structure Fifo (P : ServerPrivacy π μ) (accepted : List τ) (q : Queue τ π) : Prop where
  charged : ∀ t, t ∈ q.metaHash.keys ↔ t ∈ q.index.keys
  owner : ∀ t m, q.metaHash.lookup t = some m → m.itemKey = t
  sized : ∀ t m i, q.metaHash.lookup t = some m → q.item t = some i → m.size = P.len i.val
  together : ∀ t ∈ q.index.keys, q.index.expireAt = q.metaHash.expireAt
  ordered : ∀ t ∈ q.index.keys, ∃ o, q.order = some o ∧ o.expireAt = q.index.expireAt ∧
    ∀ a s, q.index.lookup a = some s → s ≤ o.val
  card : q.index.card ≤ offlineQueueMaxMessages
  bytes : q.total ≤ offlineQueueMaxBytes
  nodup : accepted.Nodup
  listed : ∀ t ∈ q.index.keys, t ∈ accepted
  scores : accepted.Pairwise fun a b => ∀ s s', q.index.lookup a = some s → q.index.lookup b = some s' → s < s'

section Fifo

variable {q : Queue τ π} {accepted : List τ}

theorem fifo_empty : Fifo P [] (Queue.empty : Queue τ π) where
  charged _ := Iff.rfl
  owner _ _ h := by cases h
  sized _ _ _ h := by cases h
  together _ h := by cases h
  ordered _ h := by cases h
  card := Nat.zero_le _
  bytes := Nat.zero_le _
  nodup := List.nodup_nil
  listed _ h := by cases h
  scores := List.Pairwise.nil

theorem Fifo.zrange_eq (h : Fifo P accepted q) : q.index.zrange = accepted.filter (· ∈ q.index.keys) := by
  refine Coll.zrange_eq (fun k => ?_) (h.nodup.filter _) (h.scores.sublist List.filter_sublist)
  rw [List.mem_filter, decide_eq_true_eq]
  exact ⟨fun hk => hk.2, fun hk => ⟨h.listed k hk, hk⟩⟩

theorem Fifo.scores_of_sub {q' : Queue τ π} (h : Fifo P accepted q)
    (hsub : ∀ t s, q'.index.lookup t = some s → q.index.lookup t = some s) :
    accepted.Pairwise fun a b => ∀ s s', q'.index.lookup a = some s → q'.index.lookup b = some s' → s < s' :=
  h.scores.imp fun hab s s' hs hs' => hab s s' (hsub _ _ hs) (hsub _ _ hs')

theorem Queue.lookup_of_remove {t a : τ} {s : ℤ} (h : (q.remove t).index.lookup a = some s) :
    q.index.lookup a = some s := by
  have hne : a ≠ t := (Queue.mem_index_remove.1 (Coll.mem_keys_of_lookup h)).1
  rwa [Queue.lookup_index_remove hne] at h

theorem Queue.total_remove_le (t : τ) : (q.remove t).total ≤ q.total :=
  ((Coll.vals_del_sublist t q.metaHash).map Meta.size).sum_le_sum fun _ _ => Nat.zero_le _

theorem Fifo.remove (h : Fifo P accepted q) (t : τ) : Fifo P accepted (q.remove t) where
  charged a := by rw [Queue.mem_meta_remove, Queue.mem_index_remove, h.charged]
  owner a m hm := by
    have hat : a ≠ t := (Queue.mem_meta_remove.1 (Coll.mem_keys_of_lookup hm)).1
    rw [Queue.lookup_meta_remove hat] at hm
    exact h.owner a m hm
  sized a m i hm hi := by
    obtain ⟨hat, hi⟩ := Queue.item_of_remove hi
    rw [Queue.lookup_meta_remove hat] at hm
    exact h.sized a m i hm hi
  together a ha := by
    have ham : a ∈ (q.remove t).metaHash.keys := by
      rw [Queue.mem_meta_remove, h.charged]
      exact Queue.mem_index_remove.1 ha
    rw [show (q.remove t).index.expireAt = q.index.expireAt from Coll.expireAt_del ha,
      show (q.remove t).metaHash.expireAt = q.metaHash.expireAt from Coll.expireAt_del ham]
    exact h.together a (Queue.mem_index_remove.1 ha).2
  ordered a ha := by
    obtain ⟨o, ho, hexpire, hle⟩ := h.ordered a (Queue.mem_index_remove.1 ha).2
    refine ⟨o, ho, ?_, fun b s hs => hle b s (Queue.lookup_of_remove hs)⟩
    rw [show (q.remove t).index.expireAt = q.index.expireAt from Coll.expireAt_del ha]
    exact hexpire
  card := (Coll.card_del_le t q.index).trans h.card
  bytes := (Queue.total_remove_le t).trans h.bytes
  nodup := h.nodup
  listed a ha := h.listed a (Queue.mem_index_remove.1 ha).2
  scores := h.scores_of_sub fun _ _ => Queue.lookup_of_remove

theorem Fifo.dropExpired_eq (h : Fifo P accepted q) (t : τ) :
    q.dropExpired t = if t ∈ q.index.keys then q.remove t else q := by
  unfold Queue.dropExpired
  split
  · rename_i m hm
    rw [if_pos ((h.charged t).1 (Coll.mem_keys_of_lookup hm)), h.owner t m hm]
    rfl
  · rename_i hm
    have hindex : t ∉ q.index.keys := fun ht => Coll.lookup_eq_none.1 hm ((h.charged t).2 ht)
    rw [if_neg hindex]
    unfold Queue.zrem
    rw [Coll.del_of_not_mem hindex]

theorem Fifo.foldl_dropExpired : ∀ (ts : List τ) {q : Queue τ π}, Fifo P accepted q →
    Fifo P accepted (ts.foldl Queue.dropExpired q) ∧ ∀ a, a ∉ ts →
      (ts.foldl Queue.dropExpired q).item a = q.item a ∧
        (ts.foldl Queue.dropExpired q).index.lookup a = q.index.lookup a
  | [], _, h => ⟨h, fun _ _ => ⟨rfl, rfl⟩⟩
  | t :: ts, q, h => by
    have hstep : Fifo P accepted (q.dropExpired t) ∧ ∀ a, a ≠ t →
        (q.dropExpired t).item a = q.item a ∧ (q.dropExpired t).index.lookup a = q.index.lookup a := by
      rw [h.dropExpired_eq t]
      split
      · refine ⟨h.remove t, fun a ha => ⟨?_, Queue.lookup_index_remove ha⟩⟩
        rw [Queue.item_remove, if_neg ha]
      · exact ⟨h, fun _ _ => ⟨rfl, rfl⟩⟩
    obtain ⟨hrest, hkeep⟩ := Fifo.foldl_dropExpired ts hstep.1
    refine ⟨hrest, fun a ha => ?_⟩
    rw [List.mem_cons, not_or] at ha
    rw [List.foldl_cons, (hkeep a ha.2).1, (hkeep a ha.2).2]
    exact hstep.2 a ha.1

theorem Fifo.purgeExpired (h : Fifo P accepted q) (cutoff : ℤ) : Fifo P accepted (q.purgeExpired cutoff) :=
  (Fifo.foldl_dropExpired _ h).1

theorem Fifo.of_nil {q' : Queue τ π} (h : Fifo P accepted q) (hindex : q'.index.keys = [])
    (hmeta : q'.metaHash.keys = []) : Fifo P accepted q' where
  charged t := by rw [hindex, hmeta]
  owner t m hm := by
    have hmem := Coll.mem_keys_of_lookup hm
    rw [hmeta] at hmem
    cases hmem
  sized t m i hm := by
    have hmem := Coll.mem_keys_of_lookup hm
    rw [hmeta] at hmem
    cases hmem
  together t ht := by
    rw [hindex] at ht
    cases ht
  ordered t ht := by
    rw [hindex] at ht
    cases ht
  card := by
    unfold Coll.card
    rw [hindex]
    exact Nat.zero_le _
  bytes := by
    unfold Queue.total
    rw [Coll.vals_of_keys hmeta]
    exact Nat.zero_le _
  nodup := h.nodup
  listed t ht := by
    rw [hindex] at ht
    cases ht
  scores := h.scores_of_sub fun t s hs => by
    have hmem := Coll.mem_keys_of_lookup hs
    rw [hindex] at hmem
    cases hmem

theorem Fifo.delKeys (h : Fifo P accepted q) : Fifo P accepted q.delKeys := h.of_nil rfl rfl

theorem Fifo.purge (h : Fifo P accepted q) (cutoff : ℤ) : Fifo P accepted (q.purge cutoff) := by
  unfold Queue.purge
  dsimp only
  split
  · exact (h.purgeExpired cutoff).delKeys
  · exact h.purgeExpired cutoff

theorem Fifo.acknowledge (h : Fifo P accepted q) (t : τ) : Fifo P accepted (q.acknowledge t).2 := by
  have hremove : Fifo P accepted (((q.delItem t).zrem t).hdel t) := h.remove t
  unfold Queue.acknowledge
  dsimp only
  split
  · exact hremove.delKeys
  · exact hremove

theorem Fifo.lt_nextScore (h : Fifo P accepted q) {a : τ} {s : ℤ} (hs : q.index.lookup a = some s) :
    s < q.nextScore := by
  obtain ⟨o, ho, -, hle⟩ := h.ordered a (Coll.mem_keys_of_lookup hs)
  have hs' := hle a s hs
  unfold Queue.nextScore
  simp only [ho, Option.map_some, Option.getD_some]
  split <;> omega

theorem Queue.total_store_le {t : τ} {p : π} : (q.store P t p).total ≤ q.total + P.len p := by
  have hvals : (q.store P t p).metaHash.vals =
      ⟨P.len p, t⟩ :: (AList.erase t q.metaHash.val).entries.map Sigma.snd := by
    show ((q.metaHash.put t ⟨P.len p, t⟩).expire _).vals = _
    rw [Coll.vals_expire, Coll.vals_put]
  have hrest : (((AList.erase t q.metaHash.val).entries.map Sigma.snd).map Meta.size).sum ≤ q.total :=
    ((Coll.vals_erase_sublist t q.metaHash).map Meta.size).sum_le_sum fun _ _ => Nat.zero_le _
  show ((q.store P t p).metaHash.vals.map Meta.size).sum ≤ _
  rw [hvals, List.map_cons, List.sum_cons, Nat.add_comm]
  exact Nat.add_le_add_right hrest _

theorem Fifo.store (h : Fifo P accepted q) (t : τ) (p : π) (hcard : q.index.card < offlineQueueMaxMessages)
    (hbytes : q.total + P.len p ≤ offlineQueueMaxBytes) :
    Fifo P (accepted.filter (· ≠ t) ++ [t]) (q.store P t p) where
  charged a := by rw [Queue.mem_meta_store, Queue.mem_index_store, h.charged]
  owner a m hm := by
    by_cases hat : a = t
    · subst hat
      rw [Queue.lookup_meta_store_self, Option.some.injEq] at hm
      rw [← hm]
    · rw [Queue.lookup_meta_store_ne hat] at hm
      exact h.owner a m hm
  sized a m i hm hi := by
    by_cases hat : a = t
    · subst hat
      rw [Queue.lookup_meta_store_self, Option.some.injEq] at hm
      rw [Queue.item_store_self, Option.some.injEq] at hi
      rw [← hm, ← hi]
    · rw [Queue.lookup_meta_store_ne hat] at hm
      rw [Queue.item_store_ne hat] at hi
      exact h.sized a m i hm hi
  together _ _ := by rw [Queue.index_expireAt_store, Queue.meta_expireAt_store]
  ordered _ _ := by
    refine ⟨_, rfl, Queue.index_expireAt_store.symm, fun a s hs => ?_⟩
    show s ≤ q.nextScore
    by_cases hat : a = t
    · subst hat
      rw [Queue.lookup_index_store_self, Option.some.injEq] at hs
      exact hs.ge
    · rw [Queue.lookup_index_store_ne hat] at hs
      exact (h.lt_nextScore hs).le
  card := by
    show ((q.index.put t q.nextScore).expire _).card ≤ _
    rw [Coll.card_expire]
    exact (Coll.card_put_le ..).trans hcard
  bytes := Queue.total_store_le.trans hbytes
  nodup := by
    refine List.nodup_append.2 ⟨h.nodup.filter _, List.nodup_singleton t, fun a ha b hb => ?_⟩
    rw [List.mem_singleton] at hb
    rw [hb]
    exact of_decide_eq_true (List.mem_filter.1 ha).2
  listed a ha := by
    by_cases hat : a = t
    · exact List.mem_append_right _ (List.mem_singleton.2 hat)
    · refine List.mem_append_left _ (List.mem_filter.2 ⟨h.listed a ?_, decide_eq_true hat⟩)
      exact (Queue.mem_index_store.1 ha).resolve_left hat
  scores := by
    have hne : ∀ a ∈ accepted.filter (· ≠ t), a ≠ t := fun a ha => of_decide_eq_true (List.mem_filter.1 ha).2
    refine List.pairwise_append.2 ⟨?_, List.pairwise_singleton _ _, fun a ha b hb s s' hs hs' => ?_⟩
    · refine (h.scores.sublist List.filter_sublist).imp_of_mem fun {a b} ha hb hab s s' hs hs' => ?_
      rw [Queue.lookup_index_store_ne (hne a ha)] at hs
      rw [Queue.lookup_index_store_ne (hne b hb)] at hs'
      exact hab s s' hs hs'
    · rw [List.mem_singleton] at hb
      subst hb
      rw [Queue.lookup_index_store_ne (hne a ha)] at hs
      rw [Queue.lookup_index_store_self, Option.some.injEq] at hs'
      rw [← hs']
      exact h.lt_nextScore hs

theorem Fifo.enqueue (h : Fifo P accepted q) (t : τ) (p : π) (cutoff : ℤ) :
    Fifo P (Acceptance.accept (q.enqueue P t p cutoff).1 t accepted) (q.enqueue P t p cutoff).2 := by
  have hpurged := h.purgeExpired cutoff
  unfold Queue.enqueue
  cases q.item t with
  | some i => exact h
  | none =>
    dsimp only
    split
    · exact hpurged
    · rename_i hcard
      split
      · exact hpurged
      · rename_i hbytes
        exact hpurged.store t p (Nat.lt_of_not_le hcard) (Nat.le_of_not_lt hbytes)

/-- **Nothing is evicted to make room**: an enqueue keeps what its cutoff does not take for expired. -/
theorem Fifo.keeps (h : Fifo P accepted q) (t : τ) (p : π) (cutoff : ℤ) {a : τ} {x : Volatile π}
    (hx : q.item a = some x) (ha : a ∈ q.index.keys) (hlive : a ∉ q.expired cutoff) :
    (q.enqueue P t p cutoff).2.item a = some x ∧ a ∈ (q.enqueue P t p cutoff).2.index.keys := by
  obtain ⟨hitem, hlookup⟩ := (Fifo.foldl_dropExpired (q.expired cutoff) h).2 a hlive
  have hpurged : (q.purgeExpired cutoff).item a = some x ∧ a ∈ (q.purgeExpired cutoff).index.keys := by
    refine ⟨hitem.trans hx, Coll.lookup_isSome.1 ?_⟩
    show (Coll.lookup _ a).isSome = true
    rw [show (q.purgeExpired cutoff).index.lookup a = q.index.lookup a from hlookup]
    exact Coll.lookup_isSome.2 ha
  unfold Queue.enqueue
  cases ht : q.item t with
  | some i => exact ⟨hx, ha⟩
  | none =>
    have hat : a ≠ t := by
      rintro rfl
      rw [hx] at ht
      cases ht
    dsimp only
    split
    · exact hpurged
    · split
      · exact hpurged
      · exact ⟨(Queue.item_store_ne hat).trans hpurged.1, Queue.mem_index_store.2 (.inr hpurged.2)⟩

theorem Fifo.sweep_cases (h : Fifo P accepted q) (clock : ℕ) :
    (q.setClock clock).index.keys = [] ∧ (q.setClock clock).metaHash.keys = [] ∨
      (q.setClock clock).index = q.index ∧ (q.setClock clock).metaHash = q.metaHash ∧
        (q.setClock clock).order = q.order := by
  by_cases hindex : q.index.keys = []
  · have hmeta : q.metaHash.keys = [] := by
      refine List.eq_nil_iff_forall_not_mem.2 fun t ht => ?_
      have hmem := (h.charged t).1 ht
      rw [hindex] at hmem
      cases hmem
    exact .inl ⟨Coll.keys_sweep_of_nil hindex, Coll.keys_sweep_of_nil hmeta⟩
  · obtain ⟨t, ht⟩ := List.exists_mem_of_ne_nil _ hindex
    obtain ⟨o, ho, hexpire, -⟩ := h.ordered t ht
    have hmeta : q.metaHash.live (clock / 1000) = q.index.live (clock / 1000) := by
      unfold Volatile.live
      rw [h.together t ht]
    have horder : o.live (clock / 1000) = q.index.live (clock / 1000) := by
      unfold Volatile.live
      rw [hexpire]
    by_cases hlive : q.index.live (clock / 1000) = true
    · refine .inr ⟨Coll.sweep_of_live hlive, Coll.sweep_of_live (hmeta.trans hlive), ?_⟩
      show Volatile.sweep (clock / 1000) q.order = q.order
      rw [ho]
      exact Volatile.sweep_eq_some.2 ⟨rfl, horder.trans hlive⟩
    · left
      constructor
      · rw [show (q.setClock clock).index = Coll.empty from Coll.sweep_of_dead hlive]
        rfl
      · rw [show (q.setClock clock).metaHash = Coll.empty from Coll.sweep_of_dead (by rwa [hmeta])]
        rfl

theorem Fifo.setClock (h : Fifo P accepted q) (clock : ℕ) : Fifo P accepted (q.setClock clock) := by
  rcases h.sweep_cases clock with ⟨hindex, hmeta⟩ | ⟨hindex, hmeta, horder⟩
  · exact h.of_nil hindex hmeta
  · refine ⟨?_, ?_, fun t m i hm hi => ?_, ?_, ?_, ?_, ?_, h.nodup, ?_, ?_⟩
    · rw [hindex, hmeta]
      exact h.charged
    · rw [hmeta]
      exact h.owner
    · rw [hmeta] at hm
      exact h.sized t m i hm (Volatile.sweep_eq_some.1 hi).1
    · rw [hindex, hmeta]
      exact h.together
    · rw [hindex, horder]
      exact h.ordered
    · rw [hindex]
      exact h.card
    · unfold Queue.total
      rw [hmeta]
      exact h.bytes
    · rw [hindex]
      exact h.listed
    · rw [hindex]
      exact h.scores

theorem Fifo.stored_le (h : Fifo P accepted q) : (q.index.keys.map (q.storedBytes P)).sum ≤ offlineQueueMaxBytes := by
  refine le_trans ?_ h.bytes
  have hperm : q.index.keys.Perm q.metaHash.keys :=
    (List.perm_ext_iff_of_nodup q.index.keys_nodup q.metaHash.keys_nodup).2 fun t => (h.charged t).symm
  have htotal : q.total = (q.metaHash.keys.map fun t => ((q.metaHash.lookup t).map Meta.size).getD 0).sum := by
    unfold Queue.total
    rw [Coll.map_vals (f := fun t => ((q.metaHash.lookup t).map Meta.size).getD 0)]
    intro t m hm
    rw [hm]
    rfl
  rw [htotal, (hperm.map (q.storedBytes P)).sum_eq]
  refine List.sum_le_sum fun t ht => ?_
  obtain ⟨m, hm⟩ := Coll.exists_lookup ht
  unfold Queue.storedBytes
  rw [hm]
  cases hi : q.item t with
  | none => exact Nat.zero_le _
  | some i => exact (h.sized t m i hm hi).ge

end Fifo

/-! ## Every run -/

theorem fifo_step (s : Acceptance τ π) (e : Acceptance.Event τ π) (s' : Acceptance τ π)
    (h : Fifo P s.accepted s.queue) (hs : Acceptance.step P s e = some s') : Fifo P s'.accepted s'.queue := by
  cases e with
  | enqueue t p cutoff =>
    cases hs
    exact h.enqueue t p cutoff
  | acknowledge t =>
    cases hs
    exact h.acknowledge t
  | purge cutoff =>
    cases hs
    exact h.purge cutoff
  | setClock clock =>
    cases hs
    exact h.setClock clock

theorem held_step (s : Acceptance τ π) (e : Acceptance.Event τ π) (s' : Acceptance τ π) (h : Held P s.queue)
    (hok : s.Forward e) (hs : Acceptance.step P s e = some s') : Held P s'.queue := by
  cases e with
  | enqueue t p cutoff =>
    cases hs
    exact held_closed.enqueue h t p cutoff
  | acknowledge t =>
    cases hs
    exact held_closed.acknowledge h t
  | purge cutoff =>
    cases hs
    exact held_closed.purge h cutoff
  | setClock clock =>
    cases hs
    have htick : s.queue.setClock clock = s.queue.tick (clock - s.queue.clock) := by
      unfold Queue.setClock Queue.tick
      rw [Nat.add_sub_cancel' hok]
    show Held P (s.queue.setClock clock)
    rw [htick]
    exact h.tick _

/-- **The queue is capped, idempotent and in order**, whatever the clock says; and where the clock does not go back,
reading the index returns every stored envelope. -/
theorem fifo_run (P : ServerPrivacy π μ) {s : Acceptance τ π} {es : List (Acceptance.Event τ π)}
    (hr : run (Acceptance.step P) Acceptance.init es = some s) :
    (s.queue.index.card ≤ offlineQueueMaxMessages ∧
      (s.queue.index.keys.map (s.queue.storedBytes P)).sum ≤ offlineQueueMaxBytes) ∧
    s.queue.index.zrange = s.accepted.filter (· ∈ s.queue.index.keys) ∧
    (∀ t p cutoff i, s.queue.item t = some i → s.queue.enqueue P t p cutoff = (.existing i.val, s.queue)) ∧
    (∀ t p cutoff a x, s.queue.item a = some x → a ∈ s.queue.index.keys → a ∉ s.queue.expired cutoff →
      (s.queue.enqueue P t p cutoff).2.item a = some x ∧ a ∈ (s.queue.enqueue P t p cutoff).2.index.keys) ∧
    (Meets (Acceptance.step P) Acceptance.Forward Acceptance.init es →
      ∀ t x, s.queue.item t = some x → t ∈ s.queue.index.zrange) := by
  have h : Fifo P s.accepted s.queue := run_invariant (fun s => Fifo P s.accepted s.queue) fifo_step fifo_empty hr
  refine ⟨⟨h.card, h.stored_le⟩, h.zrange_eq, fun t p cutoff i hi => ?_,
    fun t p cutoff a x hx ha hlive => h.keeps t p cutoff hx ha hlive, fun hm t x hx => ?_⟩
  · unfold Queue.enqueue
    rw [hi]
  · have hheld : Held P s.queue := Meets.invariant (fun s => Held P s.queue) held_step held_empty hm hr
    exact Coll.mem_zrange.2 (hheld.stored_indexed t x hx)

def acceptedTwice : List (Acceptance.Event ℕ ℕ) :=
  [.setClock 1000000, .enqueue 9 10 0, .setClock 0, .enqueue 7 20 (-1000)]

theorem fifo_acceptedTwice : ∃ s, run (Acceptance.step plainPrivacy) Acceptance.init acceptedTwice = some s ∧
    s.accepted = [9, 7] ∧ s.queue.index.zrange = s.accepted.filter (· ∈ s.queue.index.keys) := by
  obtain ⟨s, hs, haccepted⟩ : ∃ s, run (Acceptance.step plainPrivacy) Acceptance.init acceptedTwice = some s ∧
      s.accepted = [9, 7] := exists_run _ _ _ (by decide +kernel)
  exact ⟨s, hs, haccepted, (fifo_run plainPrivacy hs).2.1⟩

/-- The clock goes back after an envelope was accepted, another one is accepted, and its time passes. -/
def clockGoesBack : List (Acceptance.Event ℕ ℕ) :=
  [.setClock 1000000000, .enqueue 7 10 0, .setClock 0, .enqueue 8 20 (-1000), .setClock 901000000]

/-- **A clock that goes back strands an envelope** that was accepted before. -/
theorem clock_strands : ¬ ∀ (es : List (Acceptance.Event ℕ ℕ)) (s : Acceptance ℕ ℕ),
    run (Acceptance.step plainPrivacy) Acceptance.init es = some s →
      ∀ t x, s.queue.item t = some x → t ∈ s.queue.index.zrange := by
  intro h
  obtain ⟨s, hs, ⟨x, hx⟩, hindex⟩ : ∃ s, run (Acceptance.step plainPrivacy) Acceptance.init clockGoesBack = some s ∧
      ((∃ x, s.queue.item 7 = some x) ∧ s.queue.index.zrange = []) := by
    obtain ⟨s, hs, hitem, hindex⟩ : ∃ s, run (Acceptance.step plainPrivacy) Acceptance.init clockGoesBack = some s ∧
        ((s.queue.item 7).isSome = true ∧ s.queue.index.zrange = []) := exists_run _ _ _ (by decide +kernel)
    exact ⟨s, hs, Option.isSome_iff_exists.1 hitem, hindex⟩
  have hmem := h clockGoesBack s hs 7 x hx
  rw [hindex] at hmem
  cases hmem

end Reliable
end SecureChat
