import Mathlib
/-!
# SortedTake — the first elements of a sorted list

`Sorts r l out` says that `out` is `l` in the order `r`; elements of the same rank may stand in any order.  When some
elements were left out before the sort, the first `n` are still the first `n` of all of them exactly when each one left
out has `n` of the others at or before its rank (`take_append_iff`).
-/
namespace SecureChat

/-- `out` is `l` in the order `r`, ties in any order. -/
def Sorts {α : Type} (r : α → α → Prop) (l out : List α) : Prop := out.Perm l ∧ out.Pairwise r

structure Sorter {α : Type} (r : α → α → Prop) where
  sort : List α → List α
  sorts : ∀ l, Sorts r l (sort l)

namespace Sorts

variable {α : Type} {r : α → α → Prop}

theorem of_perm {l l' out : List α} (h : Sorts r l out) (hl : l.Perm l') : Sorts r l' out := ⟨h.1.trans hl, h.2⟩

section
variable [DecidableRel r] [Std.Total r] [IsTrans α r]

def stable (r : α → α → Prop) [DecidableRel r] [Std.Total r] [IsTrans α r] : Sorter r where
  sort := List.insertionSort r
  sorts l := ⟨List.perm_insertionSort r l, List.pairwise_insertionSort r l⟩

end

/-- The elements of a sorted list that satisfy a condition closed under what comes before stand at its front. -/
theorem forall_take_of_le_countP {p : α → Bool} (hp : ∀ a b, r a b → p b = true → p a = true) :
    ∀ {l : List α} {n : ℕ}, l.Pairwise r → n ≤ l.countP p → ∀ a ∈ l.take n, p a = true := by
  intro l
  induction l with
  | nil => simp
  | cons b l ih =>
    intro n hl hn a ha
    obtain ⟨hb, hl⟩ := List.pairwise_cons.1 hl
    cases n with
    | zero => simp at ha
    | succ n =>
      have hfirst : p b = true := by
        by_contra hnot
        have hnone : (b :: l).countP p = 0 := by
          refine List.countP_eq_zero.2 fun c hc hpc => ?_
          rcases List.mem_cons.1 hc with rfl | hc
          · exact hnot hpc
          · exact hnot (hp b c (hb c hc) hpc)
        omega
      rw [List.countP_cons_of_pos hfirst] at hn
      rcases List.mem_cons.1 (List.take_succ_cons ▸ ha) with rfl | ha
      · exact hfirst
      · exact ih hl (by omega) a ha

section
variable [DecidableRel r] [Std.Total r] [IsTrans α r]

/-- **Elements left out before a sort do not show in its first `n` exactly when each of them has `n` kept elements at
or before its rank.** -/
theorem take_append_iff {kept s : List α} (hs : Sorts r kept s) (cut : List α) (n : ℕ) :
    (∃ s', Sorts r (kept ++ cut) s' ∧ s'.take n = s.take n) ↔
      ∀ c ∈ cut, n ≤ kept.countP fun a => decide (r a c) := by
  constructor
  · rintro ⟨s', hs', htake⟩ c hc
    have hparts : (s.take n ++ s'.drop n).Perm (s.take n ++ (s.drop n ++ cut)) := by
      rw [← htake, List.take_append_drop, htake, ← List.append_assoc, List.take_append_drop]
      exact hs'.1.trans (hs.1.symm.append_right cut)
    have hrest : c ∈ s'.drop n :=
      (List.perm_append_left_iff _).1 hparts |>.mem_iff.2 (List.mem_append.2 (.inr hc))
    have hlong : n ≤ s'.length := by
      have hpos : 0 < (s'.drop n).length := List.length_pos_of_mem hrest
      rw [List.length_drop] at hpos
      omega
    have hbefore : ∀ a ∈ s.take n, decide (r a c) = true := by
      intro a ha
      rw [← List.take_append_drop n s'] at hs'
      exact decide_eq_true ((List.pairwise_append.1 hs'.2).2.2 a (htake ▸ ha) c hrest)
    calc n = (s.take n).length := by rw [← htake, List.length_take, Nat.min_eq_left hlong]
      _ = (s.take n).countP fun a => decide (r a c) := (List.countP_eq_length.2 hbefore).symm
      _ ≤ s.countP fun a => decide (r a c) := (List.take_sublist n s).countP_le
      _ = kept.countP fun a => decide (r a c) := hs.1.countP_eq _
  · intro h
    by_cases hcut : cut = []
    · refine ⟨s, ?_, rfl⟩
      rw [hcut, List.append_nil]
      exact hs
    · obtain ⟨c₀, hc₀⟩ := List.exists_mem_of_ne_nil cut hcut
      have hlong : n ≤ s.length := by
        rw [hs.1.length_eq]
        exact (h c₀ hc₀).trans List.countP_le_length
      have hbefore : ∀ a ∈ s.take n, ∀ c ∈ cut, r a c := by
        intro a ha c hc
        have hcount : n ≤ s.countP fun a => decide (r a c) := by
          rw [hs.1.countP_eq]
          exact h c hc
        refine of_decide_eq_true (forall_take_of_le_countP (r := r) (fun a b hab hb => ?_) hs.2 hcount a ha)
        exact decide_eq_true (IsTrans.trans a b c hab (of_decide_eq_true hb))
      have hsorted := hs.2
      rw [← List.take_append_drop n s] at hsorted
      obtain ⟨hfront, -, hcross⟩ := List.pairwise_append.1 hsorted
      have hback : Sorts r (s.drop n ++ cut) ((stable r).sort (s.drop n ++ cut)) :=
        (stable r).sorts _
      refine ⟨s.take n ++ (stable r).sort (s.drop n ++ cut), ⟨?_, ?_⟩, ?_⟩
      · refine (hback.1.append_left _).trans ?_
        rw [← List.append_assoc, List.take_append_drop]
        exact hs.1.append_right cut
      · refine List.pairwise_append.2 ⟨hfront, hback.2, fun a ha b hb => ?_⟩
        rcases List.mem_append.1 (hback.1.mem_iff.1 hb) with hb | hb
        · exact hcross a ha b hb
        · exact hbefore a ha b hb
      · rw [List.take_append_of_le_length (by rw [List.length_take, Nat.min_eq_left hlong]), List.take_take,
          Nat.min_self]

end

end Sorts
end SecureChat
