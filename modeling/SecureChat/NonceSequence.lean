import SecureChat.BigEndian
import SecureChat.Runs
/-!
# NonceSequence — the nonces of a key

A nonce is a random prefix and the number of the invocation, which a shared counter gives out.  A call takes its number
in one step and makes its nonce in another, and any threads' steps may come in between.  The counter has 64 bits and
goes on counting when the budget is used up, so it is refused only until the counter has come round
(`nonces_distinct`).
-/
namespace SecureChat
namespace GcmNonceSequence

open Runs (run run_cons run_trans)

def maxInvocationsOfKey : ℕ := 2 ^ 32

/-- A sequence with its budget; `prefixBytes` are random. -/
structure Sequence where
  prefixBytes : List UInt8
  maxInvocations : Int64
  inBudget : 1 ≤ maxInvocations.toInt ∧ maxInvocations.toInt ≤ maxInvocationsOfKey

def nonce (S : Sequence) (invocation : Int64) : List UInt8 :=
  S.prefixBytes ++ BigEndian.bytes 4 invocation.toUInt64.toNat

/-- What the threads share and where each of them is: a call that has its number has not returned yet.  `calls` counts
the calls that were begun. -/
structure State (τ : Type) where
  counter : Int64
  pending : τ → Option Int64
  returned : List (List UInt8)
  calls : ℕ

inductive Step (τ : Type)
  | getAndIncrement (thread : τ)
  | finish (thread : τ)

section
variable {τ : Type} [DecidableEq τ]

def initial : State τ where
  counter := 0
  pending := fun _ => none
  returned := []
  calls := 0

/-- A step of `next()`; a call that is refused returns nothing. -/
def step (S : Sequence) (s : State τ) : Step τ → Option (State τ)
  | .getAndIncrement t =>
    match s.pending t with
    | some _ => none
    | none => some
      { s with
          counter := s.counter + 1
          pending := Function.update s.pending t (some s.counter)
          calls := s.calls + 1 }
  | .finish t =>
    (s.pending t).map fun invocation =>
      { s with
          pending := Function.update s.pending t none
          returned := if invocation < S.maxInvocations then s.returned ++ [nonce S invocation] else s.returned }

variable {S : Sequence} {s s' : State τ}

/-! ## Numbers and nonces -/

theorem lt_budget {k : ℕ} (h : k < 2 ^ 63) (hlt : Int64.ofNat k < S.maxInvocations) : k < maxInvocationsOfKey := by
  have hint : (Int64.ofNat k).toInt = k := Int64.toInt_ofNat_of_lt h
  have hbudget := S.inBudget.2
  rw [Int64.lt_iff_toInt_lt, hint] at hlt
  omega

theorem toNat_ofNat {k : ℕ} (h : k < 2 ^ 64) : (Int64.ofNat k).toUInt64.toNat = k := by
  have hbits : (Int64.ofNat k).toUInt64 = UInt64.ofNat k := rfl
  rw [hbits]
  exact UInt64.toNat_ofNat_of_lt' h

theorem nonce_inj {j k : ℕ} (hj : j < maxInvocationsOfKey) (hk : k < maxInvocationsOfKey)
    (h : nonce S (Int64.ofNat j) = nonce S (Int64.ofNat k)) : j = k := by
  have hmax : maxInvocationsOfKey < 2 ^ 64 := by decide
  have hbytes := List.append_cancel_left h
  rw [toNat_ofNat (hj.trans hmax), toNat_ofNat (hk.trans hmax)] at hbytes
  rw [← BigEndian.value_bytes (n := 4) hj, hbytes, BigEndian.value_bytes (n := 4) hk]

/-! ## Any order of the threads -/

/-- The numbers of the calls: those that threads hold and those whose nonces were returned are different ones. -/
structure Numbered (S : Sequence) (s : State τ) (held : τ → Option ℕ) (given : List ℕ) : Prop where
  counter : s.counter = Int64.ofNat s.calls
  pending : ∀ t, s.pending t = (held t).map Int64.ofNat
  returned : s.returned = given.map fun k => nonce S (Int64.ofNat k)
  fresh : ∀ t k, held t = some k → k < s.calls ∧ k ∉ given
  apart : ∀ t t' k, held t = some k → held t' = some k → t = t'
  nodup : given.Nodup
  admitted : ∀ k ∈ given, k < s.calls ∧ Int64.ofNat k < S.maxInvocations

omit [DecidableEq τ] in
theorem numbered_initial : Numbered S (initial : State τ) (fun _ => none) [] where
  counter := rfl
  pending := fun _ => rfl
  returned := rfl
  fresh := fun _ _ h => (by cases h)
  apart := fun _ _ _ h => (by cases h)
  nodup := List.nodup_nil
  admitted := fun _ h => (by cases h)

theorem numbered_getAndIncrement {held : τ → Option ℕ} {given : List ℕ} {t : τ} (h : Numbered S s held given)
    (hs : step S s (.getAndIncrement t) = some s') :
    Numbered S s' (Function.update held t (some s.calls)) given := by
  unfold step at hs
  dsimp only at hs
  split at hs
  · cases hs
  · cases hs
    refine ⟨?_, ?_, h.returned, ?_, ?_, h.nodup, ?_⟩
    · show s.counter + 1 = Int64.ofNat (s.calls + 1)
      rw [h.counter, Int64.ofNat_add]
      rfl
    · intro t'
      show Function.update s.pending t (some s.counter) t' = _
      by_cases ht : t' = t
      · subst ht
        rw [Function.update_self, Function.update_self, h.counter]
        rfl
      · rw [Function.update_of_ne ht, Function.update_of_ne ht, h.pending t']
    · intro t' k hk
      show k < s.calls + 1 ∧ k ∉ given
      by_cases ht : t' = t
      · subst ht
        rw [Function.update_self] at hk
        cases hk
        exact ⟨Nat.lt_succ_self _, fun hmem => Nat.lt_irrefl _ (h.admitted _ hmem).1⟩
      · rw [Function.update_of_ne ht] at hk
        obtain ⟨hlt, hnot⟩ := h.fresh t' k hk
        exact ⟨Nat.lt_succ_of_lt hlt, hnot⟩
    · intro t₁ t₂ k h₁ h₂
      by_cases ht₁ : t₁ = t
      · by_cases ht₂ : t₂ = t
        · rw [ht₁, ht₂]
        · subst ht₁
          rw [Function.update_self] at h₁
          cases h₁
          rw [Function.update_of_ne ht₂] at h₂
          exact absurd (h.fresh _ _ h₂).1 (Nat.lt_irrefl _)
      · rw [Function.update_of_ne ht₁] at h₁
        by_cases ht₂ : t₂ = t
        · subst ht₂
          rw [Function.update_self] at h₂
          cases h₂
          exact absurd (h.fresh _ _ h₁).1 (Nat.lt_irrefl _)
        · rw [Function.update_of_ne ht₂] at h₂
          exact h.apart t₁ t₂ k h₁ h₂
    · intro k hk
      obtain ⟨hlt, hbudget⟩ := h.admitted k hk
      exact ⟨Nat.lt_succ_of_lt hlt, hbudget⟩

theorem numbered_finish {held : τ → Option ℕ} {given : List ℕ} {t : τ} (h : Numbered S s held given)
    (hs : step S s (.finish t) = some s') : ∃ given', Numbered S s' (Function.update held t none) given' := by
  unfold step at hs
  dsimp only at hs
  obtain ⟨invocation, hpending, rfl⟩ := Option.map_eq_some_iff.1 hs
  rw [h.pending t] at hpending
  obtain ⟨k, hk, rfl⟩ := Option.map_eq_some_iff.1 hpending
  have hpendings : ∀ t', Function.update s.pending t none t' = (Function.update held t none t').map Int64.ofNat := by
    intro t'
    by_cases ht : t' = t
    · subst ht
      rw [Function.update_self, Function.update_self]
      rfl
    · rw [Function.update_of_ne ht, Function.update_of_ne ht, h.pending t']
  have hothers : ∀ t' j, Function.update held t none t' = some j → t' ≠ t ∧ held t' = some j := by
    intro t' j hj
    by_cases ht : t' = t
    · subst ht
      rw [Function.update_self] at hj
      cases hj
    · rw [Function.update_of_ne ht] at hj
      exact ⟨ht, hj⟩
  have hapart : ∀ t₁ t₂ j, Function.update held t none t₁ = some j → Function.update held t none t₂ = some j →
      t₁ = t₂ := fun t₁ t₂ j h₁ h₂ => h.apart t₁ t₂ j (hothers t₁ j h₁).2 (hothers t₂ j h₂).2
  by_cases hbudget : Int64.ofNat k < S.maxInvocations
  · refine ⟨given ++ [k], h.counter, hpendings, ?_, ?_, hapart, ?_, ?_⟩
    · show (if _ then _ else _) = _
      rw [if_pos hbudget, List.map_append, h.returned]
      rfl
    · intro t' j hj
      obtain ⟨ht, hj⟩ := hothers t' j hj
      refine ⟨(h.fresh t' j hj).1, fun hmem => ?_⟩
      rcases List.mem_append.1 hmem with hmem | hmem
      · exact (h.fresh t' j hj).2 hmem
      · rw [List.mem_singleton.1 hmem] at hj
        exact ht (h.apart t' t k hj hk)
    · refine List.nodup_append.2 ⟨h.nodup, List.nodup_singleton k, fun a ha b hb hab => ?_⟩
      rw [List.mem_singleton.1 hb] at hab
      exact (h.fresh t k hk).2 (hab ▸ ha)
    · intro j hj
      rcases List.mem_append.1 hj with hj | hj
      · exact h.admitted j hj
      · rw [List.mem_singleton.1 hj]
        exact ⟨(h.fresh t k hk).1, hbudget⟩
  · refine ⟨given, h.counter, hpendings, ?_, ?_, hapart, h.nodup, h.admitted⟩
    · show (if _ then _ else _) = _
      rw [if_neg hbudget, h.returned]
    · intro t' j hj
      obtain ⟨-, hj⟩ := hothers t' j hj
      exact h.fresh t' j hj

theorem numbered_run {steps : List (Step τ)} (hr : run (step S) initial steps = some s) :
    ∃ held given, Numbered S s held given := by
  refine Runs.run_invariant (fun s => ∃ held given, Numbered S s held given) ?_
    ⟨_, _, numbered_initial⟩ hr
  rintro s i s' ⟨held, given, h⟩ hs
  cases i with
  | getAndIncrement t => exact ⟨_, _, numbered_getAndIncrement h hs⟩
  | finish t =>
    obtain ⟨given', h'⟩ := numbered_finish h hs
    exact ⟨_, _, h'⟩

def Sound (S : Sequence) (s : State τ) : Prop :=
  s.returned.Nodup ∧ (s.returned.length : ℤ) ≤ S.maxInvocations.toInt

theorem sound_run {steps : List (Step τ)} (hr : run (step S) initial steps = some s) (hcalls : s.calls ≤ 2 ^ 63) :
    Sound S s := by
  obtain ⟨held, given, h⟩ := numbered_run hr
  have hsmall : ∀ k ∈ given, k < 2 ^ 63 := fun k hk => Nat.lt_of_lt_of_le (h.admitted k hk).1 hcalls
  have hbudget : ∀ k ∈ given, k < S.maxInvocations.toInt.toNat := by
    intro k hk
    have hlt := (h.admitted k hk).2
    rw [Int64.lt_iff_toInt_lt, Int64.toInt_ofNat_of_lt (hsmall k hk)] at hlt
    omega
  constructor
  · rw [h.returned]
    refine h.nodup.map_on fun j hj k hk heq => ?_
    exact nonce_inj (lt_budget (hsmall j hj) (h.admitted j hj).2) (lt_budget (hsmall k hk) (h.admitted k hk).2) heq
  · have hsub : given ⊆ List.range S.maxInvocations.toInt.toNat := fun k hk => List.mem_range.2 (hbudget k hk)
    have hlength := (h.nodup.subperm hsub).length_le
    have hpos := S.inBudget.1
    rw [List.length_range] at hlength
    rw [h.returned, List.length_map]
    omega

/-! ## One thread for as long as it likes -/

def admitted (S : Sequence) (n : ℕ) : List ℕ := (List.range n).filter fun k => decide (Int64.ofNat k < S.maxInvocations)

theorem admitted_succ (S : Sequence) (n : ℕ) :
    admitted S (n + 1) = admitted S n ++ if Int64.ofNat n < S.maxInvocations then [n] else [] := by
  rw [admitted, admitted, List.range_succ, List.filter_append, List.filter_singleton]
  by_cases hbudget : Int64.ofNat n < S.maxInvocations
  · rw [if_pos hbudget, decide_eq_true hbudget]
    rfl
  · rw [if_neg hbudget, decide_eq_false hbudget]
    rfl

theorem run_alone (S : Sequence) (t : τ) : ∀ n : ℕ, ∃ steps s, run (step S) initial steps = some s ∧ s.calls = n ∧
    s.counter = Int64.ofNat n ∧ s.pending t = none ∧
    s.returned = (admitted S n).map fun k => nonce S (Int64.ofNat k)
  | 0 => ⟨[], initial, rfl, rfl, rfl, rfl, rfl⟩
  | n + 1 => by
    obtain ⟨steps, s, hr, hcalls, hcounter, hpending, hreturned⟩ := run_alone S t n
    let s₁ : State τ :=
      { s with
          counter := s.counter + 1
          pending := Function.update s.pending t (some s.counter)
          calls := s.calls + 1 }
    let s₂ : State τ :=
      { s₁ with
          pending := Function.update s₁.pending t none
          returned := if s.counter < S.maxInvocations then s₁.returned ++ [nonce S s.counter] else s₁.returned }
    have hbegin : step S s (.getAndIncrement t) = some s₁ := by rw [step, hpending]
    have hheld : s₁.pending t = some s.counter := Function.update_self ..
    have hfinish : step S s₁ (.finish t) = some s₂ := by rw [step, hheld]; rfl
    have htwo : run (step S) s [.getAndIncrement t, .finish t] = some s₂ :=
      run_cons.2 ⟨s₁, hbegin, run_cons.2 ⟨s₂, hfinish, rfl⟩⟩
    refine ⟨_, s₂, run_trans hr htwo, congrArg (· + 1) hcalls, ?_, Function.update_self .., ?_⟩
    · show s.counter + 1 = Int64.ofNat (n + 1)
      rw [hcounter, Int64.ofNat_add]
      rfl
    · show (if s.counter < S.maxInvocations then s.returned ++ [nonce S s.counter] else s.returned) = _
      rw [hreturned, hcounter, admitted_succ]
      by_cases hbudget : Int64.ofNat n < S.maxInvocations
      · rw [if_pos hbudget, if_pos hbudget, List.map_append]
        rfl
      · rw [if_neg hbudget, if_neg hbudget, List.append_nil]

theorem mem_admitted {n k : ℕ} : k ∈ admitted S n ↔ k < n ∧ Int64.ofNat k < S.maxInvocations := by
  rw [admitted, List.mem_filter, List.mem_range, decide_eq_true_eq]

theorem admitted_wrapped (S : Sequence) : Int64.ofNat 0 < S.maxInvocations ∧ Int64.ofNat (2 ^ 63) < S.maxInvocations ∧
    nonce S (Int64.ofNat (2 ^ 63)) = nonce S (Int64.ofNat 0) := by
  have hbudget := S.inBudget.1
  have hfirst : (Int64.ofNat 0).toInt = 0 := by decide
  have hwrapped : (Int64.ofNat (2 ^ 63)).toInt = -2 ^ 63 := by decide
  have hbytes : BigEndian.bytes 4 (2 ^ 63) = BigEndian.bytes 4 0 := by decide
  refine ⟨?_, ?_, ?_⟩
  · rw [Int64.lt_iff_toInt_lt, hfirst]
    omega
  · rw [Int64.lt_iff_toInt_lt, hwrapped]
    omega
  · rw [nonce, nonce, toNat_ofNat (by decide), toNat_ofNat (by decide), hbytes]

theorem exists_repeated (S : Sequence) (t : τ) : ∃ steps s, run (step S) (initial : State τ) steps = some s ∧
    s.calls = 2 ^ 63 + 1 ∧ ¬ s.returned.Nodup := by
  obtain ⟨steps, s, hr, hcalls, -, -, hreturned⟩ := run_alone S t (2 ^ 63 + 1)
  obtain ⟨hfirst, hwrapped, hsame⟩ := admitted_wrapped S
  refine ⟨steps, s, hr, hcalls, fun hnodup => ?_⟩
  rw [hreturned] at hnodup
  have heq := List.inj_on_of_nodup_map hnodup (mem_admitted.2 ⟨Nat.lt_succ_self _, hwrapped⟩)
    (mem_admitted.2 ⟨Nat.succ_pos _, hfirst⟩) hsame
  exact absurd heq (by decide)

/-- **How long nonces are distinct.**  In every run of any threads with so many calls, no nonce is returned twice and no
more of them than the budget, exactly if the calls are at most 2^63. -/
theorem nonces_distinct (S : Sequence) (t : τ) (n : ℕ) :
    (∀ (steps : List (Step τ)) (s : State τ), run (step S) initial steps = some s → s.calls ≤ n → Sound S s) ↔
      n ≤ 2 ^ 63 := by
  constructor
  · intro h
    by_contra hn
    obtain ⟨steps, s, hr, hcalls, hrepeated⟩ := exists_repeated S t
    exact hrepeated (h steps s hr (by omega)).1
  · intro hn steps s hr hcalls
    exact sound_run hr (hcalls.trans hn)

def zeros : Sequence := ⟨List.replicate 8 0, 2 ^ 32, by decide⟩

theorem nonces_wrap : ∃ (steps : List (Step Unit)) (s : State Unit), run (step zeros) initial steps = some s ∧
    ¬ s.returned.Nodup := by
  obtain ⟨steps, s, hr, -, hrepeated⟩ := exists_repeated zeros ()
  exact ⟨steps, s, hr, hrepeated⟩

end

end GcmNonceSequence
end SecureChat
