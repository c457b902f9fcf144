import SecureChat.LongestSuffix
import SecureChat.OfflineDelivery
/-!
# QueueTrimming — what a transient queue keeps, and in which order it is replayed

After a push the script drops the oldest members until both limits hold, so the queue keeps the longest suffix of its
own order that fits (`trim_longest`).  But that order is by the millisecond of the push, and within a millisecond by the
bytes of the sealed frame; `trim_keeps` says when it is the order in which the frames were queued.
-/
namespace SecureChat
namespace Redis
namespace Coll

variable {κ : Type} [LinearOrder κ] {c : Coll κ ℤ}

theorem sorted_pairwise (c : Coll κ ℤ) : c.sorted.Pairwise scoreLe := List.pairwise_insertionSort scoreLe _

theorem mem_sorted {e : (_ : κ) × ℤ} : e ∈ c.sorted ↔ c.lookup e.1 = some e.2 :=
  (List.mem_insertionSort scoreLe).trans mem_entries

theorem sorted_nodup (c : Coll κ ℤ) : c.sorted.Nodup :=
  (List.perm_insertionSort scoreLe _).nodup_iff.2 c.val.nodupKeys.nodup

theorem sorted_del (k : κ) (c : Coll κ ℤ) : (c.del k).sorted = c.sorted.filter fun e => decide (e.1 ≠ k) := by
  refine List.Perm.eq_of_pairwise' (sorted_pairwise _) ((sorted_pairwise c).filter _) ?_
  refine (List.perm_ext_iff_of_nodup (sorted_nodup _) ((sorted_nodup c).filter _)).2 fun e => ?_
  rw [List.mem_filter, mem_sorted, mem_sorted, decide_eq_true_eq]
  by_cases he : e.1 = k
  · rw [he, lookup_del_self]
    simp
  · rw [lookup_del_ne he]
    simp [he]

theorem zrange_foldl_del : ∀ (ks : List κ) (c : Coll κ ℤ),
    (ks.foldl (fun c k => c.del k) c).zrange = c.zrange.filter fun k => decide (k ∉ ks)
  | [], c => by simp
  | k :: ks, c => by
    rw [List.foldl_cons, zrange_foldl_del ks]
    unfold zrange
    rw [sorted_del, List.filter_map, List.filter_map, List.filter_filter]
    congr 1
    refine List.filter_congr fun e _ => ?_
    simp only [Function.comp_apply, List.mem_cons, not_or, Bool.decide_and, Bool.and_comm]

end Coll
end Redis

namespace Offline

open Redis Runs

variable {π μ : Type} {P : ServerPrivacy π μ} [LinearOrder π]

/-! ## The script -/

theorem zrange_removeOldest (n : ℕ) (c : Coll π ℤ) : (removeOldest n c).zrange = c.zrange.drop n := by
  unfold removeOldest
  rw [Coll.zrange_foldl_del]
  have hn := zrange_nodup c
  generalize c.zrange = z at hn
  conv_lhs => rw [← List.take_append_drop n z]
  rw [← List.take_append_drop n z] at hn
  rw [List.filter_append, List.take_append_drop, List.filter_eq_nil_iff.2, List.nil_append, List.filter_eq_self.2]
  · intro k hk
    exact decide_eq_true fun hmem => (List.nodup_append.1 hn).2.2 k hmem k hk rfl
  · intro k hk
    simp [hk]

def totalBytes (P : ServerPrivacy π μ) (l : List π) : ℕ := (l.map P.len).sum

def Fits (P : ServerPrivacy π μ) (maxBytes : ℕ) (l : List π) : Prop :=
  l.length ≤ offlineQueueMaxMessages ∧ totalBytes P l ≤ maxBytes

omit [LinearOrder π] in
theorem totalBytes_cons (p : π) (l : List π) : totalBytes P (p :: l) = P.len p + totalBytes P l := by
  unfold totalBytes
  rw [List.map_cons, List.sum_cons]

omit [LinearOrder π] in
theorem fits_hereditary (maxBytes : ℕ) : Hereditary (Fits P maxBytes) := by
  rintro p l ⟨hlength, hbytes⟩
  rw [totalBytes_cons] at hbytes
  rw [List.length_cons] at hlength
  exact ⟨by omega, by omega⟩

omit [LinearOrder π] in
theorem overflow_spec {maxBytes : ℕ} : ∀ {l : List π}, maxBytes < totalBytes P l →
    totalBytes P (l.drop (overflow P maxBytes l (totalBytes P l))) ≤ maxBytes ∧
      ∀ j < overflow P maxBytes l (totalBytes P l), maxBytes < totalBytes P (l.drop j)
  | [], h => absurd h (Nat.not_lt_zero _)
  | p :: l, h => by
    have hrest : totalBytes P (p :: l) - P.len p = totalBytes P l := by
      rw [totalBytes_cons]
      omega
    unfold overflow
    simp only [hrest]
    by_cases hle : totalBytes P l ≤ maxBytes
    · rw [if_pos hle]
      refine ⟨hle, fun j hj => ?_⟩
      obtain rfl : j = 0 := by omega
      exact h
    · rw [if_neg hle]
      obtain ⟨hfits, hmin⟩ := overflow_spec (Nat.lt_of_not_le hle)
      refine ⟨hfits, fun j hj => ?_⟩
      cases j with
      | zero => exact h
      | succ j => exact hmin j (by omega)

theorem trim_eq (maxBytes : ℕ) (c : Coll π ℤ) :
    trim P maxBytes c =
      if totalBytes P (c.zrange.drop (c.card - offlineQueueMaxMessages)) ≤ maxBytes then
        removeOldest (c.card - offlineQueueMaxMessages) c
      else
        removeOldest (overflow P maxBytes (c.zrange.drop (c.card - offlineQueueMaxMessages))
          (totalBytes P (c.zrange.drop (c.card - offlineQueueMaxMessages))))
          (removeOldest (c.card - offlineQueueMaxMessages) c) := by
  unfold trim
  simp only [zrange_removeOldest]
  rfl

theorem trim_longest (maxBytes : ℕ) (c : Coll π ℤ) :
    LongestSuffix (Fits P maxBytes) c.zrange (trim P maxBytes c).zrange := by
  have hcard : c.card = c.zrange.length := by
    unfold Coll.card
    exact (keys_zrange c).length_eq.symm
  have hcount : ∀ j, j < c.card - offlineQueueMaxMessages → ¬ Fits P maxBytes (c.zrange.drop j) := by
    rintro j hj ⟨hlength, -⟩
    rw [List.length_drop] at hlength
    omega
  have hlength : (c.zrange.drop (c.card - offlineQueueMaxMessages)).length ≤ offlineQueueMaxMessages := by
    rw [List.length_drop]
    omega
  rw [trim_eq]
  by_cases hle : totalBytes P (c.zrange.drop (c.card - offlineQueueMaxMessages)) ≤ maxBytes
  · rw [if_pos hle, zrange_removeOldest]
    exact ⟨_, rfl, ⟨hlength, hle⟩, hcount⟩
  · obtain ⟨hfits, hmin⟩ := overflow_spec (P := P) (Nat.lt_of_not_le hle)
    rw [if_neg hle, zrange_removeOldest, zrange_removeOldest, List.drop_drop]
    generalize overflow P maxBytes (c.zrange.drop (c.card - offlineQueueMaxMessages))
      (totalBytes P (c.zrange.drop (c.card - offlineQueueMaxMessages))) = k at hfits hmin ⊢
    rw [List.drop_drop] at hfits
    refine ⟨_, rfl, ⟨?_, hfits⟩, fun j hj hfit => ?_⟩
    · rw [List.length_drop]
      omega
    · by_cases hj' : j < c.card - offlineQueueMaxMessages
      · exact hcount j hj' hfit
      · have hover := hmin (j - (c.card - offlineQueueMaxMessages)) (by omega)
        have hj'' : c.card - offlineQueueMaxMessages + (j - (c.card - offlineQueueMaxMessages)) = j := by omega
        rw [List.drop_drop, hj''] at hover
        exact absurd hfit.2 (Nat.not_le.2 hover)

/-! ## The order of arrival -/

def Holds (c : Coll π ℤ) (l : List π) (time : π → ℤ) : Prop := ∀ p t, c.lookup p = some t ↔ p ∈ l ∧ time p = t

def Before (time : π → ℤ) (p q : π) : Prop := time p < time q ∨ (time p = time q ∧ p ≤ q)

def entryAt (time : π → ℤ) (p : π) : (_ : π) × ℤ := ⟨p, time p⟩

instance decidableBefore (time : π → ℤ) : DecidableRel (Before time) := fun _ _ => inferInstanceAs (Decidable (_ ∨ _))

instance totalBefore (time : π → ℤ) : Std.Total (Before time) :=
  ⟨fun p q => Std.Total.total (r := Coll.scoreLe) (entryAt time p) (entryAt time q)⟩

instance transBefore (time : π → ℤ) : IsTrans π (Before time) :=
  ⟨fun p q r => IsTrans.trans (r := Coll.scoreLe) (entryAt time p) (entryAt time q) (entryAt time r)⟩

instance antisymmBefore (time : π → ℤ) : Std.Antisymm (Before time) :=
  ⟨fun p q hpq hqp => congrArg Sigma.fst
    (Std.Antisymm.antisymm (r := Coll.scoreLe) (entryAt time p) (entryAt time q) hpq hqp)⟩

section Arrival

variable {c : Coll π ℤ} {l : List π} {time : π → ℤ} {p : π} {maxBytes : ℕ}

theorem Holds.put (h : Holds c l time) : Holds (c.put p (time p)) (l ++ [p]) time := by
  intro q t
  by_cases hq : q = p
  · rw [hq, Coll.lookup_put_self]
    simp
  · rw [Coll.lookup_put_ne hq, h]
    simp [hq]

theorem Holds.perm (h : Holds c l time) (hn : l.Nodup) : c.zrange.Perm l := by
  refine (List.perm_ext_iff_of_nodup (zrange_nodup c) hn).2 fun p => ?_
  rw [Coll.mem_zrange]
  constructor
  · intro hp
    obtain ⟨t, ht⟩ := Coll.exists_lookup hp
    exact ((h p t).1 ht).1
  · intro hp
    exact Coll.mem_keys_of_lookup ((h p (time p)).2 ⟨hp, rfl⟩)

theorem Holds.pairwise (h : Holds c l time) : c.zrange.Pairwise (Before time) := by
  unfold Coll.zrange
  rw [List.pairwise_map]
  refine (Coll.sorted_pairwise c).imp_of_mem fun {e e'} he he' hle => ?_
  have ht := ((h e.1 e.2).1 (Coll.mem_sorted.1 he)).2
  have ht' := ((h e'.1 e'.2).1 (Coll.mem_sorted.1 he')).2
  unfold Before
  rw [ht, ht']
  exact hle

end Arrival

/-! ## The replay -/

def Drain.within (b : Bucket) : Drain π → Bool
  | .sending _ b' (_ :: _) => decide (b' = b)
  | .removing _ b' _ _ => decide (b' = b)
  | _ => false

/-- A step of the drain of session `n` within the bucket. -/
def Replays (n : ℕ) (b : Bucket) (s : State π μ) (e : Event μ) : Prop :=
  (s.drains n).within b = true ∧ ∃ now sendOk, e = .drain n now sendOk

theorem replay_step {s s' : State π μ} {e : Event μ} {n : ℕ} {b : Bucket} (hok : Replays n b s e)
    (hs : State.step P s e = some s') :
    ∃ sent : List π, (sent ++ (s'.drains n).rest b).Sublist ((s.drains n).rest b) ∧
      s'.sent n = sent.reverse ++ s.sent n := by
  obtain ⟨hwithin, now, sendOk, rfl⟩ := hok
  have hown : ∀ now' (l : List π), (Drain.sending now' b l).rest b = l := fun now' l => if_pos rfl
  have hset : ∀ (t : State π μ) d, (t.setDrain n d).drains n = d := fun t d => Function.update_self _ _ _
  have hstep : s.drainStep P n now sendOk = some s' := hs
  unfold State.drainStep at hstep
  split at hstep
  · cases hstep
  · cases hstep
  · next hd =>
    rw [hd] at hwithin
    cases hwithin
  · next hd =>
    rw [hd] at hwithin
    cases hwithin
  · next hd =>
    rw [hd] at hwithin
    cases hwithin
  · next hd =>
    rw [hd] at hwithin
    cases hwithin
  · next now' b' p rest hd =>
    rw [hd] at hwithin ⊢
    obtain rfl : b' = b := of_decide_eq_true hwithin
    rw [hown]
    split at hstep
    · cases hstep
      refine ⟨[], ?_, rfl⟩
      have hafter := hset (s.setQueue b' ((s.queue b').del p)) (.sending now' b' rest)
      rw [List.nil_append]
      show (((s.setQueue b' ((s.queue b').del p)).setDrain n (.sending now' b' rest)).drains n).rest b' |>.Sublist _
      rw [hafter, hown]
      exact List.sublist_cons_self p rest
    · cases hstep
      refine ⟨[], ?_, rfl⟩
      rw [hset, hown]
      exact List.sublist_cons_self p rest
    · split at hstep
      · cases hstep
        refine ⟨[p], ?_, Function.update_self _ _ _⟩
        have hrest : (Drain.removing now' b' p rest).rest b' = rest := if_pos rfl
        rw [hset, hrest]
        exact List.Sublist.refl _
      · cases hstep
        refine ⟨[], ?_, rfl⟩
        rw [hset]
        exact List.nil_sublist _
  · next now' b' p rest hd =>
    rw [hd] at hwithin ⊢
    obtain rfl : b' = b := of_decide_eq_true hwithin
    cases hstep
    refine ⟨[], ?_, rfl⟩
    have hrest : (Drain.removing now' b' p rest).rest b' = rest := if_pos rfl
    rw [hset, hown, hrest]
    exact List.Sublist.refl _

theorem replayed_run {s s' : State π μ} {n : ℕ} {b : Bucket} {es : List (Event μ)}
    (hm : Meets (State.step P) (Replays n b) s es) (hr : run (State.step P) s es = some s') :
    ∃ sent : List π, sent.Sublist ((s.drains n).rest b) ∧ s'.sent n = sent.reverse ++ s.sent n := by
  have hinv : ∃ sent : List π, (sent ++ (s'.drains n).rest b).Sublist ((s.drains n).rest b) ∧
      s'.sent n = sent.reverse ++ s.sent n := by
    refine Meets.invariant (fun m => ∃ sent : List π, (sent ++ (m.drains n).rest b).Sublist ((s.drains n).rest b) ∧
      m.sent n = sent.reverse ++ s.sent n) ?_ ⟨[], List.Sublist.refl _, rfl⟩ hm hr
    rintro m e m' ⟨sent, hsub, hsent⟩ hok hstep
    obtain ⟨more, hmore, hsent'⟩ := replay_step hok hstep
    refine ⟨sent ++ more, ?_, ?_⟩
    · rw [List.append_assoc]
      exact ((List.Sublist.refl sent).append hmore).trans hsub
    · rw [hsent', hsent, List.reverse_append, List.append_assoc]
  obtain ⟨sent, hsub, hsent⟩ := hinv
  exact ⟨sent, (List.sublist_append_left sent _).trans hsub, hsent⟩

/-- **What a push leaves**: the longest suffix of the queue's own order that fits; and of the order in which the frames
were queued exactly if each frame that is kept has a later millisecond, or the same and greater bytes, than all that
were queued before it, and the last of the others does not fit. -/
theorem trim_keeps {maxBytes : ℕ} {c : Coll π ℤ} {l : List π} {time : π → ℤ} {p : π} (hc : Holds c l time)
    (hn : (l ++ [p]).Nodup) :
    LongestSuffix (Fits P maxBytes) (c.put p (time p)).zrange (trim P maxBytes (c.put p (time p))).zrange ∧
    (LongestSuffix (Fits P maxBytes) (l ++ [p]) (trim P maxBytes (c.put p (time p))).zrange ↔
      ∃ pre s, l ++ [p] = pre ++ s ∧ LongestSuffix (Fits P maxBytes) (l ++ [p]) s ∧
        (∀ x y, [x, y].Sublist (l ++ [p]) → y ∈ s → Before time x y) ∧
        ∀ g ∈ pre, (∀ x ∈ pre, Before time x g) → ¬ Fits P maxBytes (g :: s)) ∧
    ∀ (s s' : State π μ) n b now es, s.drains n = .sending now b (trim P maxBytes (c.put p (time p))).zrange →
      Meets (State.step P) (Replays n b) s es → run (State.step P) s es = some s' →
      ∃ sent : List π, sent.Sublist (trim P maxBytes (c.put p (time p))).zrange ∧
        s'.sent n = sent.reverse ++ s.sent n := by
  have hput := hc.put (p := p)
  have hlongest := trim_longest (P := P) maxBytes (c.put p (time p))
  refine ⟨hlongest, ?_, fun s s' n b now es hd hm hr => ?_⟩
  · exact longestSuffix_sorted_iff (fits_hereditary maxBytes) hn hput.pairwise (hput.perm hn) hlongest
  · obtain ⟨sent, hsub, hsent⟩ := replayed_run hm hr
    have hrest : (s.drains n).rest b = (trim P maxBytes (c.put p (time p))).zrange := by
      rw [hd]
      exact if_pos rfl
    exact ⟨sent, hrest ▸ hsub, hsent⟩

section Sample

theorem holds_empty (time : ℕ → ℤ) : Holds (Coll.empty : Coll ℕ ℤ) [] time := by
  intro p t
  rw [Coll.lookup_empty]
  simp

/-- Two frames in the milliseconds 5 and 9, where there is room for one. -/
theorem trim_keeps_newest : LongestSuffix (Fits plainPrivacy 1) ([5] ++ [9])
    (trim plainPrivacy 1 ((Coll.empty.put 5 5).put 9 9)).zrange := by
  have hc : Holds ((Coll.empty : Coll ℕ ℤ).put 5 5) [5] (fun p : ℕ => (p : ℤ)) := (holds_empty _).put
  refine (trim_keeps (P := plainPrivacy) (p := 9) hc (by decide)).2.1.2 ⟨[5], [9], rfl, ?_, ?_, ?_⟩
  · refine ⟨1, rfl, by unfold Fits; decide, fun j hj => ?_⟩
    obtain rfl : j = 0 := by omega
    unfold Fits
    decide
  · intro x y hxy _
    obtain ⟨rfl, rfl⟩ : x = 5 ∧ y = 9 := by simpa using hxy.eq_of_length rfl
    exact .inl (by decide)
  · intro g hg _
    rw [List.mem_singleton.1 hg]
    unfold Fits
    decide

/-- **Two frames of one millisecond** are replayed by their bytes, and not in the order in which they were queued. -/
theorem trim_sameMillisecond : ∃ c : Coll ℕ ℤ, Holds c [5] (fun _ => 7) ∧
    (trim plainPrivacy 10 (c.put 3 7)).zrange = [3, 5] ∧
    ¬ LongestSuffix (Fits plainPrivacy 10) ([5] ++ [3]) (trim plainPrivacy 10 (c.put 3 7)).zrange := by
  have hzrange : (trim plainPrivacy 10 (((Coll.empty : Coll ℕ ℤ).put 5 7).put 3 7)).zrange = [3, 5] := by decide +kernel
  refine ⟨Coll.empty.put 5 7, (holds_empty fun _ => 7).put, hzrange, ?_⟩
  rw [hzrange]
  rintro ⟨k, hk, -⟩
  match k with
  | 0 => exact absurd hk (by decide)
  | 1 => exact absurd hk (by decide)
  | k + 2 => exact absurd hk (by simp)

end Sample

end Offline
end SecureChat
