import Mathlib
/-!
# LongestSuffix — what is left of a list that loses its first elements until the rest fits

`LongestSuffix fits l s` says that `s` is what is left of `l`.  When the elements are taken in another order than the
list's, `longestSuffix_sorted_iff` says when the same is left, in the list's order.
-/
namespace SecureChat

variable {α : Type}

/-- `s` is the longest suffix of `l` that fits. -/
def LongestSuffix (fits : List α → Prop) (l s : List α) : Prop :=
  ∃ k, s = l.drop k ∧ fits s ∧ ∀ j < k, ¬ fits (l.drop j)

def Hereditary (fits : List α → Prop) : Prop := ∀ x l, fits (x :: l) → fits l

variable {fits : List α → Prop} {l s s' : List α}

theorem Hereditary.append (h : Hereditary fits) : ∀ {pre : List α}, fits (pre ++ s) → fits s
  | [], hs => hs
  | x :: _, hs => h.append (h x _ hs)

theorem LongestSuffix.unique (h : LongestSuffix fits l s) (h' : LongestSuffix fits l s') : s = s' := by
  obtain ⟨k, rfl, hfits, hmin⟩ := h
  obtain ⟨k', rfl, hfits', hmin'⟩ := h'
  rcases lt_trichotomy k k' with hlt | rfl | hlt
  · exact absurd hfits (hmin' k hlt)
  · rfl
  · exact absurd hfits' (hmin k' hlt)

theorem longestSuffix_iff (hfits : Hereditary fits) : LongestSuffix fits l s ↔
    ∃ pre, l = pre ++ s ∧ fits s ∧ ∀ front x, pre = front ++ [x] → ¬ fits (x :: s) := by
  constructor
  · rintro ⟨k, rfl, hs, hmin⟩
    refine ⟨l.take k, (List.take_append_drop k l).symm, hs, fun front x hpre hx => ?_⟩
    have hlength : (l.take k).length = front.length + 1 := by
      rw [hpre, List.length_append, List.length_singleton]
    have hlt : front.length < k := by
      rw [List.length_take] at hlength
      omega
    refine hmin _ hlt ?_
    have hl : l = front ++ (x :: l.drop k) := by
      conv_lhs => rw [← List.take_append_drop k l, hpre, List.append_assoc]
      rfl
    have hdrop : l.drop front.length = x :: l.drop k := by
      conv_lhs => rw [hl]
      exact List.drop_left
    rw [hdrop]
    exact hx
  · rintro ⟨pre, rfl, hs, hlast⟩
    refine ⟨pre.length, List.drop_left.symm, hs, fun j hj hdrop => ?_⟩
    have hne : pre.drop j ≠ [] := fun hnil => absurd (List.drop_eq_nil_iff.1 hnil) (by omega)
    have hsplit : pre.drop j = (pre.drop j).dropLast ++ [(pre.drop j).getLast hne] :=
      (List.dropLast_append_getLast hne).symm
    refine hlast (pre.take j ++ (pre.drop j).dropLast) ((pre.drop j).getLast hne) ?_ ?_
    · rw [List.append_assoc, ← hsplit, List.take_append_drop]
    · rw [List.drop_append_of_le_length hj.le, hsplit, List.append_assoc] at hdrop
      exact hfits.append hdrop

section Sorted

variable {r : α → α → Prop} [DecidableRel r] [Std.Total r] [IsTrans α r] [Std.Antisymm r] {z t : List α}

omit [DecidableRel r] [Std.Total r] [IsTrans α r] [Std.Antisymm r] in
theorem pair_sublist_append {pre : List α} {x y : α} (hn : (pre ++ s).Nodup) (hy : y ∈ s) :
    [x, y].Sublist (pre ++ s) ↔ x ∈ pre ∨ [x, y].Sublist s := by
  constructor
  · intro h
    obtain ⟨l₁, l₂, heq, h₁, h₂⟩ := List.sublist_append_iff.1 h
    match l₁ with
    | [] => exact .inr (heq ▸ h₂)
    | [x'] =>
      obtain ⟨rfl, -⟩ := List.cons.inj heq
      exact .inl (List.singleton_sublist.1 h₁)
    | x' :: y' :: _ =>
      obtain ⟨rfl, htail⟩ := List.cons.inj heq
      obtain ⟨rfl, -⟩ := List.cons.inj htail
      have hpre : y ∈ pre := h₁.subset (by simp)
      exact absurd rfl ((List.nodup_append.1 hn).2.2 y hpre y hy)
  · rintro (hx | h)
    · exact (List.singleton_sublist.2 hx).append (List.singleton_sublist.2 hy)
    · exact h.trans (List.sublist_append_right pre s)

omit [DecidableRel r] in
/-- **What a sorted list keeps is what the list itself keeps**, if whatever is kept is after all that came before it,
and the last of the others does not fit either. -/
theorem longestSuffix_sorted_iff (hfits : Hereditary fits) (hn : l.Nodup) (hz : z.Pairwise r) (hp : z.Perm l)
    (ht : LongestSuffix fits z t) : LongestSuffix fits l t ↔
      ∃ pre s, l = pre ++ s ∧ LongestSuffix fits l s ∧ (∀ x y, [x, y].Sublist l → y ∈ s → r x y) ∧
        ∀ g ∈ pre, (∀ x ∈ pre, r x g) → ¬ fits (g :: s) := by
  constructor
  · intro hl
    obtain ⟨pre, rfl, -, -⟩ := (longestSuffix_iff hfits).1 hl
    obtain ⟨pre', rfl, -, hlast⟩ := (longestSuffix_iff hfits).1 ht
    obtain ⟨hpre', htail, hcross⟩ := List.pairwise_append.1 hz
    have hperm : pre'.Perm pre := (List.perm_append_right_iff t).1 hp
    refine ⟨pre, t, rfl, hl, fun x y hxy hy => ?_, fun g hg hmax hgt => ?_⟩
    · rcases (pair_sublist_append hn hy).1 hxy with hx | hxy
      · exact hcross x (hperm.mem_iff.2 hx) y hy
      · exact (List.pairwise_cons.1 (htail.sublist hxy)).1 y (by simp)
    · have hne : pre' ≠ [] := List.ne_nil_of_mem (hperm.mem_iff.2 hg)
      have hsplit : pre' = pre'.dropLast ++ [pre'.getLast hne] := (List.dropLast_append_getLast hne).symm
      -- the last one is the greatest
      have hle : r g (pre'.getLast hne) := by
        have hg' := hperm.mem_iff.2 hg
        rw [hsplit] at hpre' hg'
        rcases List.mem_append.1 hg' with hg' | hg'
        · exact (List.pairwise_append.1 hpre').2.2 g hg' _ List.mem_cons_self
        · rw [List.mem_singleton.1 hg']
          exact (Std.Total.total (r := r) _ _).elim id id
      have hge : r (pre'.getLast hne) g := hmax _ (hperm.mem_iff.1 (List.getLast_mem hne))
      refine hlast _ _ hsplit ?_
      rw [← Std.Antisymm.antisymm (r := r) _ _ hle hge]
      exact hgt
  · rintro ⟨pre, s, rfl, hs, hafter, hmax⟩
    classical
    have hsort : (pre.insertionSort r ++ s).Pairwise r := by
      refine List.pairwise_append.2 ⟨List.pairwise_insertionSort r pre, ?_, fun x hx y hy => ?_⟩
      · refine List.pairwise_iff_forall_sublist.2 fun {x y} hxy => ?_
        exact hafter x y (hxy.trans (List.sublist_append_right pre s)) (hxy.subset (by simp))
      · exact hafter x y ((pair_sublist_append hn hy).2 (.inl ((List.mem_insertionSort r).1 hx))) hy
    have hperm : (pre.insertionSort r ++ s).Perm z :=
      ((List.perm_insertionSort r pre).append_right s).trans hp.symm
    have hzeq : z = pre.insertionSort r ++ s := List.Perm.eq_of_pairwise' hz hsort hperm.symm
    have hzs : LongestSuffix fits z s := by
      refine (longestSuffix_iff hfits).2 ⟨_, hzeq, ?_, fun front g hfront => ?_⟩
      · obtain ⟨_, _, hfit, _⟩ := hs
        exact hfit
      · have hg : g ∈ pre := (List.mem_insertionSort r).1 (hfront ▸ List.mem_append_right _ List.mem_cons_self)
        refine hmax g hg fun x hx => ?_
        have hx' : x ∈ front ++ [g] := hfront ▸ (List.mem_insertionSort r).2 hx
        have hpairwise := List.pairwise_insertionSort r pre
        rw [hfront] at hpairwise
        rcases List.mem_append.1 hx' with hx' | hx'
        · exact (List.pairwise_append.1 hpairwise).2.2 x hx' g List.mem_cons_self
        · rw [List.mem_singleton.1 hx']
          exact (Std.Total.total (r := r) _ _).elim id id
    rw [ht.unique hzs]
    exact hs

end Sorted

end SecureChat
