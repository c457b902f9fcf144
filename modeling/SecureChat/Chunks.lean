import Mathlib.Data.List.Basic
/-!
# Chunks — a list in pieces of one size

`chunks n l` cuts a list into pieces of `n` elements; the last piece holds what is left and is empty only if the list
is.  More elements at the end change the last piece only (`chunks_append`).
-/
namespace SecureChat

variable {α : Type} {n : ℕ} {l : List α}

def chunks (n : ℕ) (l : List α) : List (List α) :=
  if 0 < n ∧ n < l.length then l.take n :: chunks n (l.drop n) else [l]
termination_by l.length
decreasing_by
  rename_i h
  rw [List.length_drop]
  omega

theorem chunks_of_le (h : l.length ≤ n) : chunks n l = [l] := by
  rw [chunks, if_neg (by omega)]

theorem chunks_of_lt (hn : 0 < n) (h : n < l.length) : chunks n l = l.take n :: chunks n (l.drop n) := by
  rw [chunks, if_pos ⟨hn, h⟩]

theorem chunks_ne_nil : chunks n l ≠ [] := by
  rw [chunks]
  split <;> exact List.cons_ne_nil _ _

theorem flatten_chunks (n : ℕ) (l : List α) : (chunks n l).flatten = l := by
  fun_induction chunks n l with
  | case1 l h ih => rw [List.flatten_cons, ih, List.take_append_drop]
  | case2 l h => rw [List.flatten_singleton]

theorem foldl_chunks (n : ℕ) (l : List α) : (chunks n l).foldl (· ++ ·) [] = l := by
  refine (List.foldl_append_eq_append (f := id)).trans ?_
  rw [List.map_id, List.nil_append, flatten_chunks]

theorem getLastD_cons_of_ne_nil {a d : α} (h : l ≠ []) : (a :: l).getLastD d = l.getLastD d := by
  cases l with
  | nil => exact absurd rfl h
  | cons _ _ => rfl

theorem length_of_mem_chunks (hn : 0 < n) (l : List α) :
    (∀ c ∈ (chunks n l).dropLast, c.length = n) ∧ ((chunks n l).getLastD []).length ≤ n := by
  fun_induction chunks n l with
  | case1 l h ih =>
    have hne : chunks n (l.drop n) ≠ [] := chunks_ne_nil
    rw [List.dropLast_cons_of_ne_nil hne, getLastD_cons_of_ne_nil hne]
    refine ⟨fun c hc => ?_, ih.2⟩
    rcases List.mem_cons.1 hc with rfl | hc
    · rw [List.length_take]
      omega
    · exact ih.1 c hc
  | case2 l h =>
    have hlast : [l].getLastD [] = l := rfl
    refine ⟨nofun, ?_⟩
    rw [hlast]
    omega

theorem length_getLastD_chunks (n : ℕ) (l : List α) :
    ((chunks n l).length - 1) * n + ((chunks n l).getLastD []).length = l.length := by
  fun_induction chunks n l with
  | case1 l h ih =>
    have hne : chunks n (l.drop n) ≠ [] := chunks_ne_nil
    have hpos : 0 < (chunks n (l.drop n)).length := List.length_pos_iff.2 hne
    have hstep : (chunks n (l.drop n)).length * n = ((chunks n (l.drop n)).length - 1) * n + n := by
      rw [← Nat.succ_mul]
      congr 1
      omega
    rw [List.length_drop] at ih
    rw [getLastD_cons_of_ne_nil hne, List.length_cons, Nat.add_sub_cancel]
    omega
  | case2 l h => rw [List.length_singleton, Nat.sub_self, Nat.zero_mul, Nat.zero_add]; rfl

theorem chunks_append (hn : 0 < n) (l m : List α) : chunks n (l ++ m) =
    (chunks n l).dropLast ++ chunks n ((chunks n l).getLastD [] ++ m) := by
  fun_induction chunks n l with
  | case1 l h ih =>
    have hne : chunks n (l.drop n) ≠ [] := chunks_ne_nil
    have hlong : n < (l ++ m).length := by
      rw [List.length_append]
      omega
    have hle : n ≤ l.length := by omega
    rw [chunks_of_lt hn hlong, List.take_append_of_le_length hle, List.drop_append_of_le_length hle, ih,
      List.dropLast_cons_of_ne_nil hne, getLastD_cons_of_ne_nil hne, List.cons_append]
  | case2 l h => rfl

theorem length_chunks (hn : 0 < n) (l : List α) : l.length ≤ (chunks n l).length * n ∧
    ((chunks n l).length = 1 ∨ ((chunks n l).length - 1) * n < l.length) := by
  fun_induction chunks n l with
  | case1 l h ih =>
    have hdrop : (l.drop n).length = l.length - n := List.length_drop
    have hpos : 0 < (chunks n (l.drop n)).length := List.length_pos_iff.2 chunks_ne_nil
    rw [hdrop] at ih
    rw [List.length_cons, Nat.add_sub_cancel, Nat.succ_mul]
    refine ⟨by omega, .inr ?_⟩
    rcases ih.2 with hone | hmore
    · rw [hone, Nat.one_mul]
      exact h.2
    · have hstep : (chunks n (l.drop n)).length * n = ((chunks n (l.drop n)).length - 1) * n + n := by
        rw [← Nat.succ_mul]
        congr 1
        omega
      omega
  | case2 l h =>
    rw [List.length_singleton, Nat.one_mul]
    exact ⟨by omega, .inl rfl⟩

theorem drop_chunks_append {k : ℕ} {m : List α} (hn : 0 < n) (hl : l.length = k * n) (hk : 0 < k) (hm : 0 < m.length)
    (hlast : m.length ≤ n) : (chunks n (l ++ m)).drop k = [m] := by
  obtain ⟨hupper, hlower⟩ := length_chunks hn l
  have htotal := length_getLastD_chunks n l
  rw [hl] at hupper hlower htotal
  have hcount : (chunks n l).length = k := by
    have hle := Nat.le_of_mul_le_mul_right hupper hn
    rcases hlower with hone | hmore
    · omega
    · have hlt := Nat.lt_of_mul_lt_mul_right hmore
      omega
  have hfull : ((chunks n l).getLastD []).length = n := by
    have hstep : k * n = (k - 1) * n + n := by
      rw [← Nat.succ_mul]
      congr 1
      omega
    rw [hcount] at htotal
    omega
  have htwo : chunks n ((chunks n l).getLastD [] ++ m) = [(chunks n l).getLastD [], m] := by
    rw [chunks_of_lt hn (by rw [List.length_append]; omega), List.take_left' hfull, List.drop_left' hfull,
      chunks_of_le hlast]
  have hfront : (chunks n l).dropLast.length = k - 1 := by rw [List.length_dropLast, hcount]
  rw [chunks_append hn, htwo, List.drop_append, hfront, List.drop_eq_nil_of_le (by omega), Nat.sub_sub_self hk]
  rfl

end SecureChat
