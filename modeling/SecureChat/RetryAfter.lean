import SecureChat.AdmittedCosts
/-!
# RetryAfter — when a refused caller may come back

`retryAfter` reads the oldest score under a key, adds the window and rounds what is left of it down to seconds.  So a
caller who waits that long comes up to a second too early, unless the oldest entries leave the window on a whole second
and one of them costs something (`retryAfter_sufficient`).
-/
namespace SecureChat
namespace Redis
namespace Coll

variable {κ : Type} [LinearOrder κ]

/-- The score in `ZRANGE key 0 0 WITHSCORES`. -/
def oldest (c : Coll κ ℤ) : Option ℤ := c.sorted.head?.map Sigma.snd

theorem oldest_eq_none {c : Coll κ ℤ} (h : c.oldest = none) (m : κ) : c.lookup m = none := by
  have hnil : c.val.entries = [] := by
    have hsorted : c.sorted = [] := List.head?_eq_none_iff.1 (Option.map_eq_none_iff.1 h)
    exact List.length_eq_zero_iff.1 (by rw [← List.length_insertionSort scoreLe]; exact congrArg List.length hsorted)
  cases hm : c.lookup m with
  | none => rfl
  | some z =>
    have hmem := mem_entries.2 hm
    rw [hnil] at hmem
    cases hmem

theorem oldest_spec {c : Coll κ ℤ} {o : ℤ} (h : c.oldest = some o) :
    (∃ m, c.lookup m = some o) ∧ ∀ m z, c.lookup m = some z → o ≤ z := by
  obtain ⟨e, he, rfl⟩ := Option.map_eq_some_iff.1 h
  obtain ⟨rest, hsorted⟩ := List.head?_eq_some_iff.1 he
  have hmem : ∀ x, x ∈ e :: rest ↔ x ∈ c.val.entries := by
    intro x
    rw [← hsorted]
    exact List.mem_insertionSort scoreLe
  constructor
  · exact ⟨e.1, mem_entries.1 ((hmem e).1 List.mem_cons_self)⟩
  · intro m z hz
    have hpairwise : (e :: rest).Pairwise scoreLe := hsorted ▸ List.pairwise_insertionSort scoreLe c.val.entries
    rcases List.mem_cons.1 ((hmem ⟨m, z⟩).2 (mem_entries.2 hz)) with heq | hrest
    · exact (congrArg Sigma.snd heq).ge
    · rcases (List.pairwise_cons.1 hpairwise).1 _ hrest with hlt | ⟨heq, -⟩
      · exact hlt.le
      · exact heq.le

end Coll
end Redis

namespace RateLimiter

open Redis Runs SlidingWindow

/-- `retryAfter`, when it reads the clock at `now`. -/
def retryAfter (endpoint identifier : String) (link : Link) (now : ℕ) (s : State) : ℤ :=
  match limitOf endpoint with
  | none => 0
  | some limit =>
    match link with
    | .answers =>
      match ((s.keys (endpoint, identifier)).sweep now).oldest with
      | some oldestTime =>
        let windowEnd := oldestTime + limit.windowSeconds * 1000
        let remaining := (windowEnd - now).tdiv 1000
        if 0 < remaining then remaining else 0
      | none => 0
    | _ => 0

/-- What was admitted in the window that ends at `now` leaves room for a request of cost 1. -/
def Room (limit : RateLimit) (now : ℕ) (log : List Admitted) : Prop :=
  total Admitted.cost (inside Admitted.time limit.window now) log < limit.maxRequests

/-- An entry of the window that costs something has the oldest score of the set, and leaves the window after a whole
number of seconds. -/
def LeavesOnTheSecond (limit : RateLimit) (now : ℕ) (c : Coll Text ℤ) (log : List Admitted) : Prop :=
  ∃ x ∈ log, now - limit.window < x.time ∧ 0 < x.cost ∧ (∀ m z, zscore (c.sweep now) m = some z → x.time ≤ z) ∧
    1000 ∣ x.time + limit.window - now

section Steps

variable {suffix : ℕ → Text} {s s' : State} {r : Request} {limit : RateLimit} {link : Link} {t : ℕ}

theorem Sound.consume_iff (h : Sound suffix s) (hs : Set.InjOn suffix (Set.Iio (s.count + 1)))
    (hl : limitOf r.endpoint = some limit) (hlink : r.link = .answers) (hnow : s.now ≤ r.now) (hcost : r.cost = 1) :
    (consume suffix r s).1 = true ↔ Room limit r.now (s.log r.key) := by
  have hinv : Inv (entryOf suffix) limit s.now s.count (s.keys r.key) (s.log r.key) := h.window r.key limit hl
  have heval := evaluate_eq (r := r) hs hinv hnow (suffix s.count)
  rw [consume_eq suffix s hl (by simp [hlink]), heval]
  unfold Room
  split
  · next hfull =>
    rw [hcost] at hfull
    simp only [Option.some.injEq, Bool.false_eq_true, and_false, decide_false, false_iff]
    omega
  · next hroom =>
    rw [hcost] at hroom
    simp only [hlink, and_self, decide_true, true_iff]
    omega

theorem run_other {k : String × String} {rs : List Request} (h : run (step suffix) s rs = some s')
    (hk : ∀ r ∈ rs, r.key ≠ k) : s'.keys k = s.keys k ∧ s'.log k = s.log k := by
  induction rs generalizing s with
  | nil =>
    cases h
    exact ⟨rfl, rfl⟩
  | cons r rs ih =>
    obtain ⟨m, hm, hrun⟩ := run_cons.1 h
    obtain ⟨hkeys, hlog⟩ := ih hrun fun q hq => hk q (List.mem_cons_of_mem r hq)
    obtain ⟨hkeys', hlog'⟩ := consume_other suffix s (hk r List.mem_cons_self).symm
    rw [hkeys, hlog, step_eq hm]
    exact ⟨hkeys', hlog'⟩

theorem Room.later {log : List Admitted} (h : Room limit t log) (hlog : ∀ x ∈ log, x.time ≤ t) {now : ℕ}
    (hle : t ≤ now) : Room limit now log := by
  refine Nat.lt_of_le_of_lt (total_mono fun x hx hin => ?_) h
  have hpast := hlog x hx
  simp only [inside, Bool.and_eq_true, decide_eq_true_eq] at hin ⊢
  omega

theorem retryAfter_nonneg (endpoint identifier : String) : 0 ≤ retryAfter endpoint identifier link t s := by
  unfold retryAfter
  split
  · exact le_refl 0
  · split
    · split
      · dsimp only
        split
        · next hpos => exact hpos.le
        · exact le_refl 0
      · exact le_refl 0
    · exact le_refl 0

theorem retryAfter_eq {endpoint identifier : String} (hl : limitOf endpoint = some limit) {o : ℤ}
    (ho : ((s.keys (endpoint, identifier)).sweep t).oldest = some o) (hin : t < o + limit.window) :
    retryAfter endpoint identifier .answers t s = (o + limit.window - t) / 1000 := by
  have hdiv : (o + limit.window - t).tdiv 1000 = (o + limit.window - t) / 1000 :=
    Int.tdiv_eq_ediv_of_nonneg (by omega)
  unfold retryAfter
  simp only [hl, ho]
  show (if 0 < (o + limit.window - t).tdiv 1000 then (o + limit.window - t).tdiv 1000 else 0) = _
  rw [hdiv]
  split
  · rfl
  · omega

theorem retryAfter_pos {endpoint identifier : String} (hl : limitOf endpoint = some limit)
    (h : 0 < retryAfter endpoint identifier link t s) :
    link = .answers ∧ ∃ o, ((s.keys (endpoint, identifier)).sweep t).oldest = some o ∧ t < o + limit.window := by
  unfold retryAfter at h
  simp only [hl] at h
  cases link with
  | failsBefore => exact absurd h (lt_irrefl 0)
  | failsAfter => exact absurd h (lt_irrefl 0)
  | answers =>
    cases ho : ((s.keys (endpoint, identifier)).sweep t).oldest with
    | none =>
      rw [ho] at h
      exact absurd h (lt_irrefl 0)
    | some o =>
      rw [ho] at h
      refine ⟨rfl, o, rfl, ?_⟩
      by_contra hout
      have hneg : ¬ 0 < (o + (limit.windowSeconds : ℤ) * 1000 - t).tdiv 1000 := by
        rw [not_lt]
        have hle : o + (limit.windowSeconds : ℤ) * 1000 - t ≤ 0 := by
          unfold RateLimit.window at hout
          omega
        rw [← Int.neg_nonneg, ← Int.neg_tdiv]
        exact Int.tdiv_nonneg (by omega) (by omega)
      simp only [if_neg hneg] at h
      exact absurd h (lt_irrefl 0)

/-- **When the wait is over there is room**, if there was before it or the oldest entry leaves on the second. -/
theorem Sound.room_iff (h : Sound suffix s) {k : String × String} (hl : limitOf k.1 = some limit) (hnow : s.now ≤ t)
    {now : ℕ} (hwait : (now : ℤ) = t + 1000 * retryAfter k.1 k.2 link t s) :
    Room limit now (s.log k) ↔
      Room limit t (s.log k) ∨ (link = .answers ∧ LeavesOnTheSecond limit t (s.keys k) (s.log k)) := by
  have hinv := h.window k limit hl
  have hpast : ∀ x ∈ s.log k, x.time ≤ t := by
    intro x hx
    exact Int.ofNat_le.2 ((hinv.past x hx).1.trans hnow)
  have hnonneg : 0 ≤ retryAfter k.1 k.2 link t s := retryAfter_nonneg k.1 k.2
  have hbound : total Admitted.cost (inside Admitted.time limit.window t) (s.log k) ≤ limit.maxRequests :=
    SlidingWindow.total_le hinv.bounded hinv.ordered t
  have hstored : ∀ x ∈ s.log k, t - limit.window < x.time → zscore ((s.keys k).sweep t) (entryOf suffix x) =
      some x.time := fun x hx hin => h.stored hl hx hnow hin
  constructor
  · intro hroom
    by_cases hbefore : Room limit t (s.log k)
    · exact .inl hbefore
    · -- something has left the window while the caller waited
      obtain ⟨x, hx, hin, hout, hcost⟩ := exists_of_total_lt (Nat.lt_of_lt_of_le hroom (Nat.le_of_not_lt hbefore))
      simp only [inside, Bool.and_eq_true, decide_eq_true_eq, Bool.and_eq_false_iff, decide_eq_false_iff_not,
        not_lt, not_le] at hin hout
      have hleft : x.time ≤ now - limit.window := by omega
      obtain ⟨rfl, o, ho, hwindow⟩ := retryAfter_pos hl (show 0 < retryAfter k.1 k.2 link t s by omega)
      rw [retryAfter_eq hl ho hwindow] at hwait
      obtain ⟨-, hmin⟩ := Coll.oldest_spec ho
      have hox := hmin _ _ (hstored x hx hin.1)
      refine .inr ⟨rfl, x, hx, hin.1, hcost, fun m z hz => ?_, ?_⟩
      · have hoz := hmin m z hz
        omega
      · omega
  · rintro (hroom | ⟨rfl, x, hx, hin, hcost, hmin, hdvd⟩)
    · exact hroom.later hpast (by omega)
    · have hx' := hstored x hx hin
      cases ho : ((s.keys k).sweep t).oldest with
      | none =>
        have hnone := Coll.oldest_eq_none ho (entryOf suffix x)
        unfold zscore at hx'
        rw [hx'] at hnone
        cases hnone
      | some o =>
        obtain ⟨⟨m, hm⟩, hle⟩ := Coll.oldest_spec ho
        have hox : o = x.time := le_antisymm (hle _ _ hx') (hmin m o hm)
        rw [retryAfter_eq hl ho (by omega)] at hwait
        have hleft : inside Admitted.time limit.window now x = false := by
          simp only [inside, Bool.and_eq_false_iff, decide_eq_false_iff_not, not_lt]
          omega
        have hcounted : inside Admitted.time limit.window t x = true := by
          have hxt := hpast x hx
          simp only [inside, Bool.and_eq_true, decide_eq_true_eq]
          omega
        refine Nat.lt_of_lt_of_le (total_lt hcounted hleft hcost hx fun y hy hyin => ?_) hbound
        have hyt := hpast y hy
        simp only [inside, Bool.and_eq_true, decide_eq_true_eq] at hyin ⊢
        omega

/-- Whoever waits what `retryAfter` says at `t` is admitted next, if no request for the key comes in between. -/
def WaitSuffices (suffix : ℕ → Text) (k : String × String) (link : Link) (t : ℕ) (s : State) : Prop :=
  ∀ others s' q, run (step suffix) s others = some s' → (∀ r ∈ others, r.key ≠ k) →
    Set.InjOn suffix (Set.Iio (s'.count + 1)) → s'.now ≤ q.now → q.key = k → q.cost = 1 → q.link = .answers →
    t + 1000 * retryAfter k.1 k.2 link t s ≤ q.now → (consume suffix q s').1 = true

/-- **The wait after a denial suffices** exactly if there is room when `retryAfter` reads the clock, or it reaches Redis
and the oldest entry leaves the window on the second. -/
theorem retryAfter_sufficient {rs : List Request} (h : run (step suffix) State.init rs = some s)
    (hstep : step suffix s r = some s') (hs : Set.InjOn suffix (Set.Iio (s'.count + 1))) (hcost : r.cost = 1)
    (hdenied : (consume suffix r s).1 = false) (hnow : r.now ≤ t) :
    ∃ limit, limitOf r.endpoint = some limit ∧
      (WaitSuffices suffix r.key link t s' ↔
        Room limit t (s'.log r.key) ∨
          (link = .answers ∧ LeavesOnTheSecond limit t (s'.keys r.key) (s'.log r.key))) := by
  obtain ⟨limit, hl⟩ : ∃ limit, limitOf r.endpoint = some limit := by
    cases hl : limitOf r.endpoint with
    | some limit => exact ⟨limit, rfl⟩
    | none =>
      unfold consume at hdenied
      rw [hl] at hdenied
      cases hdenied
  have hrun : run (step suffix) State.init (rs ++ [r]) = some s' :=
    run_trans h (run_cons.2 ⟨s', hstep, rfl⟩)
  have hsound : Sound suffix s' := sound_run hrun (hs.mono (Set.Iio_subset_Iio (Nat.le_succ _)))
  have hnow' : s'.now ≤ t := by
    rw [step_eq hstep]
    exact hnow
  have hnonneg : 0 ≤ retryAfter r.endpoint r.identifier link t s' := retryAfter_nonneg _ _
  -- the moment at which the wait is over
  obtain ⟨finish, hfinish⟩ : ∃ finish : ℕ, (finish : ℤ) = t + 1000 * retryAfter r.endpoint r.identifier link t s' :=
    ⟨(t + 1000 * retryAfter r.endpoint r.identifier link t s').toNat, by omega⟩
  have hroom := hsound.room_iff (k := r.key) hl hnow' hfinish
  refine ⟨limit, hl, ?_⟩
  rw [← hroom]
  constructor
  · intro hwait
    have hlater : s'.now ≤ finish := by omega
    let q : Request := { r with now := finish, link := .answers }
    have hadmitted : (consume suffix q s').1 = true :=
      hwait [] s' q rfl (by simp) hs hlater rfl hcost rfl (le_of_eq hfinish.symm)
    exact (hsound.consume_iff (r := q) hs hl rfl hlater hcost).1 hadmitted
  · intro hadmits others s'' q hothers hkeys hinj hlater hkey hq hlink hle
    have hsound'' : Sound suffix s'' :=
      sound_run (run_trans hrun hothers) (hinj.mono (Set.Iio_subset_Iio (Nat.le_succ _)))
    have hlog := (run_other hothers hkeys).2
    have hl' : limitOf q.endpoint = some limit := by
      rw [show q.endpoint = r.endpoint from congrArg Prod.fst hkey]
      exact hl
    rw [hsound''.consume_iff hinj hl' hlink hlater hq, hkey, hlog]
    refine hadmits.later (fun x hx => ?_) (by
      show finish ≤ q.now
      have hle' : (t : ℤ) + 1000 * retryAfter r.endpoint r.identifier link t s' ≤ q.now := hle
      omega)
    have hpast := ((hsound.window r.key limit hl).past x hx).1
    unfold Admitted.time
    omega

end Steps

def fourRequests : List Request := List.replicate 4 ⟨"directory_self_update", "a", 1, 0, .answers⟩

def oneMore (now : ℕ) : Request := ⟨"directory_self_update", "a", 1, now, .answers⟩

theorem sampleSuffix_injOn (n : ℕ) : Set.InjOn sampleSuffix (Set.Iio n) := by
  intro i _ j _ he
  simpa [sampleSuffix] using congrArg List.length he

theorem retryAfter_oneMore : ∃ s s', run (step sampleSuffix) State.init fourRequests = some s ∧
    step sampleSuffix s (oneMore 1000) = some s' ∧ retryAfter "directory_self_update" "a" .answers 1000 s' = 86399 ∧
    ∃ limit, limitOf "directory_self_update" = some limit ∧
      (WaitSuffices sampleSuffix ("directory_self_update", "a") .answers 1000 s' ↔
        Room limit 1000 (s'.log ("directory_self_update", "a")) ∨
          (Link.answers = .answers ∧ LeavesOnTheSecond limit 1000 (s'.keys ("directory_self_update", "a"))
            (s'.log ("directory_self_update", "a")))) := by
  obtain ⟨s, hs, ⟨hdenied, hstep⟩⟩ : ∃ s, run (step sampleSuffix) State.init fourRequests = some s ∧
      (consume sampleSuffix (oneMore 1000) s).1 = false ∧ ((step sampleSuffix s (oneMore 1000)).any fun s' =>
        decide (retryAfter "directory_self_update" "a" .answers 1000 s' = 86399)) = true :=
    exists_run _ _ _ (by decide +kernel)
  obtain ⟨s', hstep, hafter⟩ := Option.any_eq_true _ _ |>.1 hstep
  exact ⟨s, s', hs, hstep, of_decide_eq_true hafter,
    retryAfter_sufficient hs hstep (sampleSuffix_injOn _) rfl hdenied (Nat.le_refl 1000)⟩

/-- **Half a second before the window ends the wait is none**, and the next request is denied as the one before. -/
theorem retryAfter_zero : ∃ s s', run (step sampleSuffix) State.init fourRequests = some s ∧
    step sampleSuffix s (oneMore 86399500) = some s' ∧ (consume sampleSuffix (oneMore 86399500) s).1 = false ∧
    retryAfter "directory_self_update" "a" .answers 86399500 s' = 0 ∧
    (consume sampleSuffix (oneMore 86399500) s').1 = false ∧
    ¬ WaitSuffices sampleSuffix ("directory_self_update", "a") .answers 86399500 s' := by
  obtain ⟨s, hs, ⟨hdenied, hstep⟩⟩ : ∃ s, run (step sampleSuffix) State.init fourRequests = some s ∧
      (consume sampleSuffix (oneMore 86399500) s).1 = false ∧
      ((step sampleSuffix s (oneMore 86399500)).any fun s' => decide (s'.now = 86399500 ∧
        retryAfter "directory_self_update" "a" .answers 86399500 s' = 0 ∧
        (consume sampleSuffix (oneMore 86399500) s').1 = false)) = true :=
    exists_run _ _ _ (by decide +kernel)
  obtain ⟨s', hstep, hafter⟩ := Option.any_eq_true _ _ |>.1 hstep
  obtain ⟨hnow, hzero, hagain⟩ := of_decide_eq_true hafter
  refine ⟨s, s', hs, hstep, hdenied, hzero, hagain, fun hwait => ?_⟩
  have hadmitted := hwait [] s' (oneMore 86399500) rfl (by simp) (sampleSuffix_injOn _) (le_of_eq hnow) rfl rfl rfl
    (by rw [hzero]; rfl)
  rw [hagain] at hadmitted
  cases hadmitted

end RateLimiter
end SecureChat
