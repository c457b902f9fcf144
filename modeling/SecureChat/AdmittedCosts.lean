import SecureChat.RateLimiter
/-!
# AdmittedCosts — what a key's sorted set remembers of what was admitted

A key's set holds what was admitted after some time that lies a window or more back (`Remembers`): eviction moves that
time, and the key expires only when all of it lies outside the window.  So what the script sums up is what was admitted
in the window that ends now, and no window costs more than the limit.
-/
namespace SecureChat
namespace RateLimiter

open Redis Runs SlidingWindow

/-! ## Members -/

theorem append_separator_inj : ∀ {d d' r r' : Text}, ':' ∉ d → ':' ∉ d' → d ++ ':' :: r = d' ++ ':' :: r' →
    d = d' ∧ r = r'
  | [], [], _, _, _, _, h => ⟨rfl, (List.cons.inj h).2⟩
  | [], c :: d', _, _, _, hd', h => absurd ((List.cons.inj h).1 ▸ List.mem_cons_self) hd'
  | c :: d, [], _, _, hd, _, h => absurd ((List.cons.inj h).1.symm ▸ List.mem_cons_self) hd
  | c :: d, c' :: d', r, r', hd, hd', h => by
    obtain ⟨hc, ht⟩ := List.cons.inj h
    obtain ⟨he, hr⟩ := append_separator_inj (fun hm => hd (List.mem_cons_of_mem c hm))
      (fun hm => hd' (List.mem_cons_of_mem c' hm)) ht
    exact ⟨congrArg₂ List.cons hc he, hr⟩

theorem isDigit_of_mem_toDigits {n : ℕ} {c : Char} (h : c ∈ Nat.toDigits 10 n) : c.isDigit = true :=
  Nat.isDigit_of_mem_toDigits (by omega) (by omega) h

theorem separator_not_mem_toDigits (n : ℕ) : ':' ∉ Nat.toDigits 10 n := fun h => by
  have hdigit := isDigit_of_mem_toDigits h
  revert hdigit
  decide

theorem member_inj {cost cost' now now' : ℕ} {suffix suffix' : Text}
    (h : member cost now suffix = member cost' now' suffix') : suffix = suffix' := by
  have hrest := (append_separator_inj (separator_not_mem_toDigits _) (separator_not_mem_toDigits _) h).2
  exact (append_separator_inj (separator_not_mem_toDigits _) (separator_not_mem_toDigits _) hrest).2

theorem costOf_member (cost now : ℕ) (suffix : Text) : costOf (member cost now suffix) = some cost := by
  have hmem : ':' ∈ member cost now suffix := List.mem_append_right _ List.mem_cons_self
  have htake : (member cost now suffix).takeWhile (fun c => decide (c ≠ ':')) = Nat.toDigits 10 cost := by
    unfold member
    rw [List.takeWhile_append_of_pos]
    · simp
    · intro c hc
      refine decide_eq_true fun he => ?_
      exact separator_not_mem_toDigits cost (he ▸ hc)
  have hdigits : (Nat.toDigits 10 cost).all Char.isDigit = true :=
    List.all_eq_true.2 fun c hc => isDigit_of_mem_toDigits hc
  unfold costOf
  rw [if_pos hmem, htake]
  unfold tonumber
  rw [if_pos ⟨Nat.toDigits_ne_nil, hdigits⟩, Nat.ofDigitChars_toDigits (by omega) (by omega)]

/-! ## The set -/

section Window

variable {κ : Type} [LinearOrder κ]

theorem zscore_foldl_del : ∀ (ms : List κ) {c : Coll κ ℤ} {m : κ} {t : ℤ},
    zscore (ms.foldl (fun c m => c.del m) c) m = some t ↔ zscore c m = some t ∧ m ∉ ms
  | [], c, m, t => by simp
  | k :: ms, c, m, t => by
    rw [List.foldl_cons, zscore_foldl_del ms, List.mem_cons, not_or]
    unfold zscore
    by_cases hm : m = k
    · subst hm
      rw [Coll.lookup_del_self]
      simp
    · rw [Coll.lookup_del_ne hm]
      simp [hm]

theorem zscore_zremrangeByScore {max : ℤ} {c : Coll κ ℤ} {m : κ} {t : ℤ} :
    zscore (zremrangeByScore max c) m = some t ↔ zscore c m = some t ∧ max < t := by
  unfold zremrangeByScore
  rw [zscore_foldl_del, Coll.mem_zrangeByScore]
  unfold zscore
  constructor
  · rintro ⟨hm, hnot⟩
    exact ⟨hm, by by_contra hle; exact hnot ⟨t, hm, by omega⟩⟩
  · rintro ⟨hm, hlt⟩
    refine ⟨hm, ?_⟩
    rintro ⟨t', ht', hle⟩
    rw [hm] at ht'
    cases ht'
    omega

omit [LinearOrder κ] in
theorem used_perm {costOf : κ → Option ℕ} {l l' : List κ} (h : l.Perm l') : used costOf l = used costOf l' := by
  induction h with
  | nil => rfl
  | cons m _ ih => rw [used, used, ih]
  | swap m n l =>
    simp only [used]
    cases costOf m with
    | none =>
      cases costOf n <;> rfl
    | some i =>
      cases costOf n with
      | none => rfl
      | some j =>
        cases used costOf l with
        | none => rfl
        | some k =>
          show some (j + (i + k)) = some (i + (j + k))
          rw [Nat.add_left_comm]
  | trans _ _ ih ih' => exact ih.trans ih'

end Window

/-! ## What is remembered -/

namespace Admitted

def time (x : Admitted) : ℤ := x.request.now

def cost (x : Admitted) : ℕ := x.request.cost

end Admitted

def RateLimit.window (limit : RateLimit) : ℤ := limit.windowSeconds * 1000

section Remembered

variable {κ : Type} [LinearOrder κ] {entry : Admitted → κ} {costOf : κ → Option ℕ} {limit : RateLimit} {now count : ℕ}
  {c : Coll κ ℤ} {log : List Admitted}

/-- The set holds what was admitted after `w`. -/
def Remembers (entry : Admitted → κ) (w : ℤ) (c : Coll κ ℤ) (log : List Admitted) : Prop :=
  ∀ m t, zscore c m = some t ↔ ∃ x ∈ log, w < x.time ∧ entry x = m ∧ x.time = t

/-- The entries of different requests, of the first `n`, are different. -/
def Distinguishes (entry : Admitted → κ) (n : ℕ) : Prop :=
  ∀ x y, x.index < n → y.index < n → entry x = entry y → x.index = y.index

structure Inv (entry : Admitted → κ) (limit : RateLimit) (now count : ℕ) (c : Coll κ ℤ) (log : List Admitted) :
    Prop where
  stored : ∃ w : ℤ, w ≤ now - limit.window ∧ Remembers entry w c log
  expiry : ∀ e, c.expireAt = some e → ∀ x ∈ log, x.time + limit.window + 1000 ≤ e
  past : ∀ x ∈ log, x.request.now ≤ now ∧ x.index < count
  distinct : (log.map Admitted.index).Nodup
  ordered : log.Pairwise fun x y => y.time ≤ x.time
  bounded : Bounded Admitted.time Admitted.cost limit.window limit.maxRequests log

omit [LinearOrder κ] in
theorem used_entries (hcost : ∀ x, costOf (entry x) = some x.cost) : ∀ l : List Admitted,
    used costOf (l.map entry) = some (total Admitted.cost (fun _ => true) l)
  | [] => rfl
  | x :: l => by
    rw [List.map_cons, used, used_entries hcost l, hcost]
    rfl

omit [LinearOrder κ] in
theorem entry_nodup (hentry : Distinguishes entry count) {l : List Admitted} (hl : ∀ x ∈ l, x.index < count)
    (h : (l.map Admitted.index).Nodup) : (l.map entry).Nodup :=
  List.Nodup.map_on (fun x hx y hy he => List.inj_on_of_nodup_map h hx hy (hentry x y (hl x hx) (hl y hy) he))
    (List.Nodup.of_map _ h)

theorem used_eq (hentry : Distinguishes entry count) (hcost : ∀ x, costOf (entry x) = some x.cost)
    (hl : ∀ x ∈ log, x.index < count) (hn : (log.map Admitted.index).Nodup) {w : ℤ} (h : Remembers entry w c log) :
    used costOf (zrangeFrom w c) = some (total Admitted.cost (fun x => decide (w < x.time)) log) := by
  have hfrom : ∀ m, m ∈ zrangeFrom w c ↔ ∃ t, zscore c m = some t := by
    intro m
    simp only [zrangeFrom, Coll.sorted, List.mem_map, List.mem_filter, List.mem_insertionSort, decide_eq_true_eq]
    constructor
    · rintro ⟨⟨m', t⟩, ⟨he, -⟩, rfl⟩
      exact ⟨t, Coll.mem_entries.1 he⟩
    · rintro ⟨t, ht⟩
      obtain ⟨x, -, hw, -, rfl⟩ := (h m t).1 ht
      exact ⟨⟨m, x.time⟩, ⟨Coll.mem_entries.2 ht, hw.le⟩, rfl⟩
  have hnodup : (zrangeFrom w c).Nodup := by
    unfold zrangeFrom
    have hkeys : (c.sorted.map Sigma.fst).Nodup :=
      ((List.perm_insertionSort _ _).map Sigma.fst).nodup_iff.2 c.keys_nodup
    exact (List.filter_sublist.map Sigma.fst).nodup hkeys
  have hfilter : ((log.filter fun x => decide (w < x.time)).map Admitted.index).Nodup :=
    (List.filter_sublist.map Admitted.index).nodup hn
  have hperm : (zrangeFrom w c).Perm ((log.filter fun x => decide (w < x.time)).map entry) := by
    refine (List.perm_ext_iff_of_nodup hnodup
      (entry_nodup hentry (fun x hx => hl x (List.mem_filter.1 hx).1) hfilter)).2 fun m => ?_
    rw [hfrom]
    constructor
    · rintro ⟨t, ht⟩
      obtain ⟨x, hx, hw, rfl, -⟩ := (h m t).1 ht
      exact List.mem_map_of_mem (List.mem_filter.2 ⟨hx, decide_eq_true hw⟩)
    · intro hm
      obtain ⟨x, hx, rfl⟩ := List.mem_map.1 hm
      obtain ⟨hx, hw⟩ := List.mem_filter.1 hx
      exact ⟨x.time, (h _ _).2 ⟨x, hx, of_decide_eq_true hw, rfl, rfl⟩⟩
  rw [used_perm hperm, used_entries hcost, ← total_filter]

theorem Inv.sweep (h : Inv entry limit now count c log) {now' : ℕ} (hle : now ≤ now') :
    Inv entry limit now' count (c.sweep now') log := by
  have hpast : ∀ x ∈ log, x.request.now ≤ now' ∧ x.index < count :=
    fun x hx => ⟨(h.past x hx).1.trans hle, (h.past x hx).2⟩
  by_cases hlive : c.live now' = true
  · rw [Coll.sweep_of_live hlive]
    obtain ⟨w, hw, hrem⟩ := h.stored
    exact ⟨⟨w, by omega, hrem⟩, h.expiry, hpast, h.distinct, h.ordered, h.bounded⟩
  · rw [Coll.sweep_of_dead hlive]
    obtain ⟨e, he, hlt⟩ := Coll.expired_of_dead hlive
    refine ⟨⟨now' - limit.window, Int.le_refl _, fun m t => ?_⟩, fun e he => (by cases he), hpast, h.distinct,
      h.ordered, h.bounded⟩
    constructor
    · intro ht
      cases ht
    · rintro ⟨x, hx, hw, -, -⟩
      have hexpiry := h.expiry e he x hx
      omega

theorem Inv.evict (h : Inv entry limit now count c log) :
    Remembers entry (now - limit.window) (zremrangeByScore (now - limit.window) c) log := by
  obtain ⟨w, hw, hrem⟩ := h.stored
  intro m t
  rw [zscore_zremrangeByScore, hrem]
  constructor
  · rintro ⟨⟨x, hx, -, hm, rfl⟩, hlt⟩
    exact ⟨x, hx, hlt, hm, rfl⟩
  · rintro ⟨x, hx, hlt, hm, rfl⟩
    exact ⟨⟨x, hx, by omega, hm, rfl⟩, hlt⟩

theorem expireAt_zremrangeByScore {max : ℤ} {e : ℕ} (h : (zremrangeByScore max c).expireAt = some e) :
    c.expireAt = some e := by
  have hdel : ∀ (ms : List κ) (c : Coll κ ℤ), (ms.foldl (fun c m => c.del m) c).expireAt = some e →
      c.expireAt = some e := by
    intro ms
    induction ms with
    | nil => exact fun c h => h
    | cons m ms ih =>
      intro c h
      have hm : (c.del m).expireAt = some e := ih (c.del m) h
      unfold Coll.del at hm
      split at hm
      · split at hm
        · cases hm
        · exact hm
      · exact hm
  exact hdel _ _ h

omit [LinearOrder κ] in
theorem expireAt_sweep {e : ℕ} (h : (c.sweep now).expireAt = some e) : c.expireAt = some e := by
  by_cases hlive : c.live now = true
  · rwa [Coll.sweep_of_live hlive] at h
  · rw [Coll.sweep_of_dead hlive] at h
    cases h

theorem Inv.later (h : Inv entry limit now count c log) {now' count' : ℕ} (hle : now ≤ now') (hcount : count ≤ count') :
    Inv entry limit now' count' c log := by
  obtain ⟨w, hw, hrem⟩ := h.stored
  exact ⟨⟨w, by omega, hrem⟩, h.expiry,
    fun x hx => ⟨(h.past x hx).1.trans hle, Nat.lt_of_lt_of_le (h.past x hx).2 hcount⟩, h.distinct,
      h.ordered, h.bounded⟩

theorem Inv.total_inside (h : Inv entry limit now count c log) :
    total Admitted.cost (fun x => decide ((now : ℤ) - limit.window < x.time)) log =
      total Admitted.cost (inside Admitted.time limit.window now) log := by
  refine total_congr fun x hx => ?_
  have hpast : x.time ≤ now := Int.ofNat_le.2 (h.past x hx).1
  simp [inside, hpast]

theorem Inv.refuse (h : Inv entry limit now count c log) :
    Inv entry limit now count (zremrangeByScore (now - limit.window) c) log :=
  ⟨⟨_, Int.le_refl _, h.evict⟩, fun e he => h.expiry e (expireAt_zremrangeByScore he), h.past, h.distinct, h.ordered,
    h.bounded⟩

theorem Inv.allow (h : Inv entry limit now count c log) (hentry : Distinguishes entry (count + 1))
    (hpos : 0 < limit.windowSeconds) {x : Admitted} (hx : x.request.now = now) (hi : x.index = count)
    (hle : total Admitted.cost (inside Admitted.time limit.window now) log + x.cost ≤ limit.maxRequests) :
    Inv entry limit now (count + 1) (zadd (entry x) now (limit.windowSeconds + 1)
      (zremrangeByScore (now - limit.window) c)) (x :: log) := by
  have htime : x.time = now := congrArg Nat.cast hx
  have hfresh : ∀ y ∈ log, entry y ≠ entry x := by
    intro y hy he
    have hlt := (h.past y hy).2
    rw [hentry y x (Nat.lt_succ_of_lt hlt) (by omega) he, hi] at hlt
    exact Nat.lt_irrefl _ hlt
  have hevict := h.evict
  refine ⟨⟨now - limit.window, Int.le_refl _, fun m t => ?_⟩, fun e he => ?_, ?_, ?_, ?_, ?_, h.bounded⟩
  · have hscore : zscore (zadd (entry x) now (limit.windowSeconds + 1) (zremrangeByScore (now - limit.window) c)) m =
        if m = entry x then some (now : ℤ) else zscore (zremrangeByScore (now - limit.window) c) m := by
      unfold zscore zadd
      rw [Coll.lookup_expire]
      by_cases hm : m = entry x
      · rw [if_pos hm, hm, Coll.lookup_put_self]
      · rw [if_neg hm, Coll.lookup_put_ne hm]
    rw [hscore]
    by_cases hm : m = entry x
    · rw [if_pos hm]
      constructor
      · rintro ⟨rfl⟩
        refine ⟨x, List.mem_cons_self, ?_, hm.symm, htime⟩
        rw [htime]
        have hwindow : 0 < limit.window := by
          unfold RateLimit.window
          omega
        omega
      · rintro ⟨y, hy, -, hym, rfl⟩
        rcases List.mem_cons.1 hy with rfl | hy
        · rw [htime]
        · exact absurd (hym.trans hm) (hfresh y hy)
    · rw [if_neg hm, hevict]
      constructor
      · rintro ⟨y, hy, hyw, hym, hyt⟩
        exact ⟨y, List.mem_cons_of_mem x hy, hyw, hym, hyt⟩
      · rintro ⟨y, hy, hyw, hym, hyt⟩
        rcases List.mem_cons.1 hy with rfl | hy
        · exact absurd hym.symm hm
        · exact ⟨y, hy, hyw, hym, hyt⟩
  · unfold zadd at he
    rw [Coll.expireAt_expire (Coll.keys_put_ne_nil _ _ _)] at he
    cases he
    intro y hy
    have hy : y.time ≤ now := by
      rcases List.mem_cons.1 hy with rfl | hy
      · exact htime.le
      · exact Int.ofNat_le.2 (h.past y hy).1
    unfold RateLimit.window
    push_cast
    omega
  · intro y hy
    rcases List.mem_cons.1 hy with rfl | hy
    · exact ⟨hx.le, by omega⟩
    · exact ⟨(h.past y hy).1, Nat.lt_succ_of_lt (h.past y hy).2⟩
  · refine List.nodup_cons.2 ⟨fun hm => ?_, h.distinct⟩
    obtain ⟨y, hy, he⟩ := List.mem_map.1 hm
    have hlt := (h.past y hy).2
    omega
  · refine List.pairwise_cons.2 ⟨fun y hy => ?_, h.ordered⟩
    rw [htime]
    exact Int.ofNat_le.2 (h.past y hy).1
  · rw [htime]
    omega

theorem slidingWindow_eq (h : Inv entry limit now count c log)
    (hentry : Distinguishes entry count) (hcost : ∀ x, costOf (entry x) = some x.cost)
    (cost : ℕ) (m : κ) :
    slidingWindow costOf (now - limit.window) limit.maxRequests now (limit.windowSeconds + 1) cost m c =
      if limit.maxRequests < total Admitted.cost (inside Admitted.time limit.window now) log + cost then
        (some false, zremrangeByScore (now - limit.window) c)
      else (some true, zadd m now (limit.windowSeconds + 1) (zremrangeByScore (now - limit.window) c)) := by
  have hused := used_eq hentry hcost (fun x hx => (h.past x hx).2) h.distinct h.evict
  rw [h.total_inside] at hused
  unfold slidingWindow
  simp only [hused]

end Remembered

/-! ## Requests -/

theorem windowSeconds_pos {endpoint : String} {limit : RateLimit} (h : limitOf endpoint = some limit) :
    0 < limit.windowSeconds := by
  have hall : ∀ e ∈ LIMITS, 0 < e.2.windowSeconds := by decide
  unfold limitOf at h
  obtain ⟨l₁, l₂, he, -⟩ := List.lookup_eq_some_iff.1 h
  exact hall (endpoint, limit) (he ▸ by simp)

def entryOf (suffix : ℕ → Text) (x : Admitted) : Text := member x.request.cost x.request.now (suffix x.index)

def State.allowed (s : State) (k : String × String) : List Request :=
  (s.answered.filter fun x => decide (x.1.key = k) && x.2).map Prod.fst

structure Sound (suffix : ℕ → Text) (s : State) : Prop where
  window : ∀ k limit, limitOf k.1 = some limit → Inv (entryOf suffix) limit s.now s.count (s.keys k) (s.log k)
  told : ∀ k limit, limitOf k.1 = some limit → (s.allowed k).Sublist ((s.log k).map Admitted.request)

theorem sound_init (suffix : ℕ → Text) : Sound suffix State.init := by
  constructor
  · intro k limit _
    refine ⟨⟨0 - limit.window, Int.le_refl _, fun m t => ?_⟩, ?_, ?_, List.nodup_nil, List.Pairwise.nil, trivial⟩
    · constructor
      · intro h
        cases h
      · rintro ⟨x, hx, -⟩
        cases hx
    · intro e he
      cases he
    · intro x hx
      cases hx
  · intro k limit _
    exact List.Sublist.slnil

section Steps

variable {suffix : ℕ → Text} {s s' : State} {r : Request} {limit : RateLimit}

theorem entryOf_distinguishes {n : ℕ} (hs : Set.InjOn suffix (Set.Iio n)) : Distinguishes (entryOf suffix) n :=
  fun _ _ hx hy h => hs hx hy (member_inj h)

theorem costOf_entryOf (x : Admitted) : costOf (entryOf suffix x) = some x.cost := costOf_member _ _ _

theorem evaluate_eq {now count : ℕ} {c : Coll Text ℤ} {log : List Admitted}
    (hs : Set.InjOn suffix (Set.Iio (count + 1))) (h : Inv (entryOf suffix) limit now count c log)
      (hle : now ≤ r.now) (t : Text) :
    evaluate limit t r c =
      if limit.maxRequests < total Admitted.cost (inside Admitted.time limit.window r.now) log + r.cost then
        (some false, zremrangeByScore (r.now - limit.window) (c.sweep r.now))
      else (some true, zadd (member r.cost r.now t) r.now (limit.windowSeconds + 1)
        (zremrangeByScore (r.now - limit.window) (c.sweep r.now))) :=
  slidingWindow_eq (h.sweep hle) (entryOf_distinguishes (hs.mono (Set.Iio_subset_Iio (Nat.le_succ count))))
    costOf_entryOf r.cost (member r.cost r.now t)

theorem evaluate_inv {now count : ℕ} {c : Coll Text ℤ} {log : List Admitted}
    (hs : Set.InjOn suffix (Set.Iio (count + 1))) (h : Inv (entryOf suffix) limit now count c log) (hle : now ≤ r.now)
      (hpos : 0 < limit.windowSeconds) :
    Inv (entryOf suffix) limit r.now (count + 1) (evaluate limit (suffix count) r c).2
      (if (evaluate limit (suffix count) r c).1 = some true then ⟨count, r⟩ :: log else log) := by
  rw [evaluate_eq hs h hle]
  by_cases hfull : limit.maxRequests < total Admitted.cost (inside Admitted.time limit.window r.now) log + r.cost
  · rw [if_pos hfull, if_neg (by simp)]
    exact (h.sweep hle).refuse.later (Nat.le_refl _) (Nat.le_succ _)
  · rw [if_neg hfull, if_pos rfl]
    exact (h.sweep hle).allow (x := ⟨count, r⟩) (entryOf_distinguishes hs) hpos rfl rfl (Nat.le_of_not_lt hfull)

theorem step_now (h : step suffix s r = some s') : s.now ≤ r.now := by
  unfold step at h
  split at h
  · cases h
  · next hlt => exact Nat.le_of_not_lt hlt

theorem step_eq (h : step suffix s r = some s') :
    s' = { (consume suffix r s).2 with
      now := r.now
      count := s.count + 1
      answered := (r, (consume suffix r s).1) :: s.answered } := by
  unfold step at h
  rw [if_neg (Nat.not_lt.2 (step_now h))] at h
  exact (Option.some.inj h).symm

theorem consume_other (suffix : ℕ → Text) (s : State) {k : String × String} (hk : k ≠ r.key) :
    (consume suffix r s).2.keys k = s.keys k ∧ (consume suffix r s).2.log k = s.log k := by
  unfold consume
  cases limitOf r.endpoint with
  | none => exact ⟨rfl, rfl⟩
  | some limit =>
    cases r.link with
    | failsBefore => exact ⟨rfl, rfl⟩
    | answers =>
      refine ⟨Function.update_of_ne hk _ _, ?_⟩
      show (if _ then _ else _ : String × String → List Admitted) k = _
      split
      · exact Function.update_of_ne hk _ _
      · rfl
    | failsAfter =>
      refine ⟨Function.update_of_ne hk _ _, ?_⟩
      show (if _ then _ else _ : String × String → List Admitted) k = _
      split
      · exact Function.update_of_ne hk _ _
      · rfl

theorem consume_eq (suffix : ℕ → Text) (s : State) (hl : limitOf r.endpoint = some limit)
    (hlink : r.link ≠ .failsBefore) :
    consume suffix r s =
      (decide (r.link = .answers ∧ (evaluate limit (suffix s.count) r (s.keys r.key)).1 = some true), { s with
        keys := Function.update s.keys r.key (evaluate limit (suffix s.count) r (s.keys r.key)).2
        log := if (evaluate limit (suffix s.count) r (s.keys r.key)).1 = some true then
            Function.update s.log r.key (⟨s.count, r⟩ :: s.log r.key)
          else s.log }) := by
  unfold consume
  rw [hl]
  cases hr : r.link with
  | failsBefore => exact absurd hr hlink
  | answers => rfl
  | failsAfter => rfl

theorem consume_failsBefore (hl : limitOf r.endpoint = some limit) (hlink : r.link = .failsBefore) :
    consume suffix r s = (false, s) := by
  unfold consume
  rw [hl, hlink]

theorem consume_key (suffix : ℕ → Text) (s : State) (hl : limitOf r.endpoint = some limit)
    (hlink : r.link ≠ .failsBefore) :
    (consume suffix r s).2.keys r.key = (evaluate limit (suffix s.count) r (s.keys r.key)).2 ∧
    (consume suffix r s).2.log r.key =
      if (evaluate limit (suffix s.count) r (s.keys r.key)).1 = some true then ⟨s.count, r⟩ :: s.log r.key
      else s.log r.key := by
  rw [consume_eq suffix s hl hlink]
  refine ⟨Function.update_self _ _ _, ?_⟩
  show (if _ then _ else _ : String × String → List Admitted) r.key = _
  split
  · exact Function.update_self _ _ _
  · rfl

theorem Sound.after (h : Sound suffix s) (hs : Set.InjOn suffix (Set.Iio (s.count + 1)))
    (hstep : step suffix s r = some s') :
    Sound suffix s' := by
  have hnow := step_now hstep
  rw [step_eq hstep]
  constructor
  · intro k limit hl
    have hinv := h.window k limit hl
    by_cases hk : k = r.key
    · subst hk
      by_cases hlink : r.link = .failsBefore
      · rw [consume_failsBefore hl hlink]
        exact hinv.later hnow (Nat.le_succ _)
      · obtain ⟨hkeys, hlog⟩ := consume_key suffix s hl hlink
        show Inv (entryOf suffix) limit r.now (s.count + 1) ((consume suffix r s).2.keys r.key)
          ((consume suffix r s).2.log r.key)
        rw [hkeys, hlog]
        exact evaluate_inv hs hinv hnow (windowSeconds_pos hl)
    · obtain ⟨hkeys, hlog⟩ := consume_other suffix s hk
      show Inv (entryOf suffix) limit r.now (s.count + 1) ((consume suffix r s).2.keys k) ((consume suffix r s).2.log k)
      rw [hkeys, hlog]
      exact hinv.later hnow (Nat.le_succ _)
  · intro k limit hl
    have htold := h.told k limit hl
    show ((((r, (consume suffix r s).1) :: s.answered).filter fun x => decide (x.1.key = k) && x.2).map
      Prod.fst).Sublist (((consume suffix r s).2.log k).map Admitted.request)
    by_cases hk : k = r.key
    · subst hk
      by_cases hlink : r.link = .failsBefore
      · rw [consume_failsBefore hl hlink, List.filter_cons_of_neg (by simp)]
        exact htold
      · obtain ⟨-, hlog⟩ := consume_key suffix s hl hlink
        have hanswer : (consume suffix r s).1 =
            decide (r.link = .answers ∧ (evaluate limit (suffix s.count) r (s.keys r.key)).1 = some true) :=
          congrArg Prod.fst (consume_eq suffix s hl hlink)
        rw [hlog, hanswer]
        by_cases hallow : (evaluate limit (suffix s.count) r (s.keys r.key)).1 = some true
        · rw [if_pos hallow]
          by_cases hlink : r.link = .answers
          · rw [List.filter_cons_of_pos (by simp [hlink, hallow])]
            exact htold.cons_cons r
          · rw [List.filter_cons_of_neg (by simp [hlink])]
            exact htold.cons r
        · rw [if_neg hallow, List.filter_cons_of_neg (by simp [hallow])]
          exact htold
    · obtain ⟨-, hlog⟩ := consume_other suffix s hk
      rw [hlog, List.filter_cons_of_neg (by simp [Ne.symm hk])]
      exact htold

theorem Sound.total_le (h : Sound suffix s) {k : String × String} (hl : limitOf k.1 = some limit) (t : ℤ) :
    total Request.cost (inside (fun q : Request => (q.now : ℤ)) limit.window t) (s.allowed k) ≤ limit.maxRequests := by
  have hinv := h.window k limit hl
  calc total Request.cost (inside (fun q : Request => (q.now : ℤ)) limit.window t) (s.allowed k)
      ≤ total Request.cost (inside (fun q : Request => (q.now : ℤ)) limit.window t)
          ((s.log k).map Admitted.request) := total_sublist (h.told k limit hl)
    _ = total Admitted.cost (inside Admitted.time limit.window t) (s.log k) := total_map _ _
    _ ≤ limit.maxRequests := SlidingWindow.total_le hinv.bounded hinv.ordered t

theorem Sound.stored (h : Sound suffix s) {k : String × String} (hl : limitOf k.1 = some limit) {x : Admitted}
    (hx : x ∈ s.log k) {now : ℕ} (hnow : s.now ≤ now) (hin : (now : ℤ) - limit.window < x.time) :
    zscore ((s.keys k).sweep now) (entryOf suffix x) = some x.time := by
  obtain ⟨w, hw, hrem⟩ := ((h.window k limit hl).sweep hnow).stored
  exact (hrem _ _).2 ⟨x, hx, by omega, rfl, rfl⟩

/-- **A request that the script denies** would have cost too much, and only what lies outside the window is gone. -/
theorem Sound.denied (h : Sound suffix s) (hs : Set.InjOn suffix (Set.Iio (s.count + 1)))
    (hstep : step suffix s r = some s')
    (hl : limitOf r.endpoint = some limit) (hlink : r.link = .answers) (hdenied : (consume suffix r s).1 = false) :
    limit.maxRequests < total Admitted.cost (inside Admitted.time limit.window r.now) (s.log r.key) + r.cost ∧
    s'.log = s.log ∧ (∀ k, k ≠ r.key → s'.keys k = s.keys k) ∧
    (∀ e, (s'.keys r.key).expireAt = some e → (s.keys r.key).expireAt = some e) ∧
    ∀ m t, zscore (s'.keys r.key) m = some t ↔ zscore (s.keys r.key) m = some t ∧ r.now - limit.window < t := by
  have hnow := step_now hstep
  have hinv : Inv (entryOf suffix) limit s.now s.count (s.keys r.key) (s.log r.key) := h.window r.key limit hl
  have hlets : r.link ≠ .failsBefore := by simp [hlink]
  have heval := evaluate_eq (r := r) hs hinv hnow (suffix s.count)
  have hx := consume_eq suffix s hl hlets
  by_cases hfull : limit.maxRequests <
      total Admitted.cost (inside Admitted.time limit.window r.now) (s.log r.key) + r.cost
  · rw [if_pos hfull] at heval
    rw [heval, if_neg (by simp)] at hx
    have hkeys : s'.keys = Function.update s.keys r.key
        (zremrangeByScore (r.now - limit.window) ((s.keys r.key).sweep r.now)) := by
      rw [step_eq hstep, hx]
    have hlog : s'.log = s.log := by
      rw [step_eq hstep, hx]
    refine ⟨hfull, hlog, fun k hk => ?_, fun e he => ?_, fun m t => ?_⟩
    · rw [hkeys, Function.update_of_ne hk]
    · rw [hkeys, Function.update_self] at he
      exact expireAt_sweep (expireAt_zremrangeByScore he)
    · rw [hkeys, Function.update_self, zscore_zremrangeByScore]
      refine and_congr_left fun hlt => ?_
      by_cases hlive : (s.keys r.key).live r.now = true
      · rw [Coll.sweep_of_live hlive]
      · -- a set that has expired held nothing of the window
        rw [Coll.sweep_of_dead hlive]
        constructor
        · intro ht
          cases ht
        · intro ht
          obtain ⟨e, he, hpast⟩ := Coll.expired_of_dead hlive
          obtain ⟨w, -, hrem⟩ := hinv.stored
          obtain ⟨x, hx, -, -, rfl⟩ := (hrem m t).1 ht
          have hexpiry := hinv.expiry e he x hx
          omega
  · rw [if_neg hfull] at heval
    rw [hx, heval] at hdenied
    simp [hlink] at hdenied

theorem sound_run {rs : List Request} (h : run (step suffix) State.init rs = some s)
    (hs : Set.InjOn suffix (Set.Iio s.count)) : Sound suffix s := by
  refine run_invariant (fun s => Set.InjOn suffix (Set.Iio s.count) → Sound suffix s) ?_
    (fun _ => sound_init suffix) h hs
  intro s r s' ih hstep hs
  have hcount : s'.count = s.count + 1 := by
    rw [step_eq hstep]
  rw [hcount] at hs
  exact (ih (hs.mono (Set.Iio_subset_Iio (Nat.le_succ _)))).after hs hstep

end Steps

/-- **The limit holds over any run** whose requests draw different suffixes. -/
theorem consume_run {suffix : ℕ → Text} {rs : List Request} {s : State}
    (h : run (step suffix) State.init rs = some s) (hs : Set.InjOn suffix (Set.Iio (s.count + 1))) :
    (∀ k limit, limitOf k.1 = some limit →
      (∀ a : ℤ, total Request.cost (fun r => decide (a ≤ (r.now : ℤ)) && decide ((r.now : ℤ) < a + limit.window))
        (s.allowed k) ≤ limit.maxRequests) ∧
      (∀ t : ℤ, total Request.cost (inside (fun r : Request => (r.now : ℤ)) limit.window t) (s.allowed k) ≤
        limit.maxRequests) ∧
      ∀ x ∈ s.log k, ∀ now : ℕ, s.now ≤ now → now - limit.window < x.time →
        zscore ((s.keys k).sweep now) (entryOf suffix x) = some x.time) ∧
    ∀ r s' limit, step suffix s r = some s' → limitOf r.endpoint = some limit → (consume suffix r s).1 = false →
      (r.link = .answers →
        limit.maxRequests < total Admitted.cost (inside Admitted.time limit.window r.now) (s.log r.key) + r.cost ∧
        s'.log = s.log ∧ (∀ k, k ≠ r.key → s'.keys k = s.keys k) ∧
        (∀ e, (s'.keys r.key).expireAt = some e → (s.keys r.key).expireAt = some e) ∧
        ∀ m t, zscore (s'.keys r.key) m = some t ↔ zscore (s.keys r.key) m = some t ∧ r.now - limit.window < t) ∧
      (r.link = .failsBefore → s'.log = s.log ∧ s'.keys = s.keys) := by
  have hsound : Sound suffix s := sound_run h (hs.mono (Set.Iio_subset_Iio (Nat.le_succ _)))
  constructor
  · intro k limit hl
    refine ⟨fun a => ?_, hsound.total_le hl, fun x hx now hnow hin => hsound.stored hl hx hnow hin⟩
    have hle := hsound.total_le hl (a + limit.window - 1)
    refine Nat.le_trans (total_mono fun r _ hr => ?_) hle
    simp only [inside, Bool.and_eq_true, decide_eq_true_eq] at hr ⊢
    omega
  · intro r s' limit hstep hl hdenied
    refine ⟨fun hlink => hsound.denied hs hstep hl hlink hdenied, fun hlink => ?_⟩
    rw [step_eq hstep, consume_failsBefore hl hlink]
    exact ⟨rfl, rfl⟩

def wholeQuota : Request := ⟨"attachment_upload_bytes", "a", 1610612736, 86400000, .answers⟩

def sampleSuffix (n : ℕ) : Text := List.replicate n 'a'

def overQuota : Request := ⟨"attachment_upload_bytes", "a", 1, 172799999, .answers⟩

/-- A request one millisecond before the window is over is denied, and leaves the log. -/
theorem consume_overQuota : ∃ s s', run (step sampleSuffix) State.init [wholeQuota] = some s ∧
    step sampleSuffix s overQuota = some s' ∧ s'.answered.map Prod.snd = [false, true] ∧
    s'.allowed overQuota.key = [wholeQuota] ∧ s'.log = s.log ∧
    ∀ t : ℤ, total Request.cost (inside (fun r : Request => (r.now : ℤ)) 86400000 t) (s'.allowed overQuota.key) ≤
      1610612736 := by
  have hinj : ∀ s : State, Set.InjOn sampleSuffix (Set.Iio (s.count + 1)) := by
    intro s i _ j _ he
    simpa [sampleSuffix] using congrArg List.length he
  obtain ⟨s', hs', hanswered, hallowed⟩ : ∃ s', run (step sampleSuffix) State.init [wholeQuota, overQuota] = some s' ∧
      s'.answered.map Prod.snd = [false, true] ∧ s'.allowed overQuota.key = [wholeQuota] :=
    exists_run _ _ _ (by decide +kernel)
  obtain ⟨s, hs, hdenied⟩ : ∃ s, run (step sampleSuffix) State.init [wholeQuota] = some s ∧
      (consume sampleSuffix overQuota s).1 = false := exists_run _ _ _ (by decide +kernel)
  have hstep : step sampleSuffix s overQuota = some s' := by
    obtain ⟨t, ht, hrest⟩ := run_cons.1 hs'
    obtain ⟨t', ht', hnil⟩ := run_cons.1 hrest
    obtain ⟨u, hu, hs⟩ := run_cons.1 hs
    cases hnil
    cases hs
    cases ht.symm.trans hu
    exact ht'
  refine ⟨s, s', hs, hstep, hanswered, hallowed, ?_,
    ((consume_run hs' (hinj s')).1 overQuota.key ⟨1610612736, 86400⟩ rfl).2.1⟩
  exact (((consume_run hs (hinj s)).2 overQuota s' ⟨1610612736, 86400⟩ hstep rfl hdenied).1 rfl).2.1

/-- **A request is denied although nothing has been admitted** when the link to Redis fails. -/
theorem consume_failClosed :
    limitOf "otp_request" = some ⟨5, 600⟩ ∧ State.init.log ("otp_request", "a") = [] ∧
    ∃ s', step sampleSuffix State.init ⟨"otp_request", "a", 1, 0, .failsBefore⟩ = some s' ∧
      s'.answered = [(⟨"otp_request", "a", 1, 0, .failsBefore⟩, false)] :=
  ⟨rfl, rfl, _, rfl, by decide +kernel⟩

end RateLimiter
end SecureChat
