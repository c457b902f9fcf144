import Mathlib.Data.List.Basic
import Mathlib.Order.Basic
import Mathlib.Data.Int.Order.Basic
/-!
# SlidingWindow — logs whose entries were admitted one window at a time

A log is a list of admitted entries, the newest first.  An entry is admitted if it and what is left of the log in the
window that ends with it cost no more than the limit (`Bounded`).  Then no window of that length costs more, wherever it
lies (`total_le`).
-/
namespace SecureChat
namespace SlidingWindow

variable {α : Type} (time : α → ℤ) (cost : α → ℕ)

/-- The cost of the entries that `p` selects. -/
def total (p : α → Bool) : List α → ℕ
  | [] => 0
  | a :: l => (if p a then cost a else 0) + total p l

/-- The entry's time lies in the window of this length that ends at `t`, its end included and its start not. -/
def inside (window t : ℤ) (a : α) : Bool := decide (t - window < time a) && decide (time a ≤ t)

def Bounded (window : ℤ) (limit : ℕ) : List α → Prop
  | [] => True
  | a :: l => cost a + total cost (inside time window (time a)) l ≤ limit ∧ Bounded window limit l

variable {time cost}

theorem total_mono {p q : α → Bool} : ∀ {l : List α}, (∀ a ∈ l, p a = true → q a = true) →
    total cost p l ≤ total cost q l
  | [], _ => Nat.le_refl 0
  | a :: l, h => by
    have ih : total cost p l ≤ total cost q l := total_mono fun b hb => h b (List.mem_cons_of_mem a hb)
    have ha := h a List.mem_cons_self
    unfold total
    by_cases hp : p a = true
    · rw [if_pos hp, if_pos (ha hp)]
      omega
    · rw [if_neg hp]
      omega

theorem exists_of_total_lt {p q : α → Bool} : ∀ {l : List α}, total cost p l < total cost q l →
    ∃ a ∈ l, q a = true ∧ p a = false ∧ 0 < cost a
  | [], h => absurd h (Nat.lt_irrefl 0)
  | a :: l, h => by
    by_cases hrest : total cost p l < total cost q l
    · obtain ⟨b, hb, hlost⟩ := exists_of_total_lt hrest
      exact ⟨b, List.mem_cons_of_mem a hb, hlost⟩
    · unfold total at h
      cases hp : p a with
      | true =>
        rw [if_pos hp] at h
        split at h <;> omega
      | false =>
        cases hq : q a with
        | false =>
          rw [hp, hq] at h
          omega
        | true =>
          rw [hp, if_pos hq, if_neg (by simp)] at h
          exact ⟨a, List.mem_cons_self, hq, hp, by omega⟩

theorem total_lt {p q : α → Bool} {a : α} (ha : q a = true) (hp : p a = false) (hcost : 0 < cost a) :
    ∀ {l : List α}, a ∈ l → (∀ b ∈ l, p b = true → q b = true) → total cost p l < total cost q l
  | [], hm, _ => (by cases hm)
  | b :: l, hm, h => by
    have hrest : total cost p l ≤ total cost q l := total_mono fun c hc => h c (List.mem_cons_of_mem b hc)
    unfold total
    rcases List.mem_cons.1 hm with rfl | hm
    · rw [hp, if_pos ha, if_neg (by simp)]
      omega
    · have ih := total_lt ha hp hcost hm fun c hc => h c (List.mem_cons_of_mem b hc)
      by_cases hb : p b = true
      · rw [if_pos hb, if_pos (h b List.mem_cons_self hb)]
        omega
      · rw [if_neg hb]
        omega

theorem total_congr {p q : α → Bool} {l : List α} (h : ∀ a ∈ l, p a = q a) : total cost p l = total cost q l :=
  Nat.le_antisymm (total_mono fun a ha hp => h a ha ▸ hp) (total_mono fun a ha hq => (h a ha).symm ▸ hq)

theorem total_filter (p : α → Bool) : ∀ l : List α, total cost p l = total cost (fun _ => true) (l.filter p)
  | [] => rfl
  | a :: l => by
    have ih := total_filter p l
    show (if p a = true then cost a else 0) + total cost p l = _
    by_cases hp : p a = true
    · rw [if_pos hp, List.filter_cons_of_pos hp, ih]
      rfl
    · rw [if_neg hp, List.filter_cons_of_neg hp, Nat.zero_add, ih]

theorem total_sublist {p : α → Bool} {l l' : List α} (h : l.Sublist l') : total cost p l ≤ total cost p l' := by
  induction h with
  | slnil => exact Nat.le_refl 0
  | cons a _ ih => exact Nat.le_trans ih (Nat.le_add_left _ _)
  | cons_cons a _ ih => exact Nat.add_le_add_left ih _

theorem total_map {β : Type} {f : β → α} (p : α → Bool) : ∀ l : List β,
    total cost p (l.map f) = total (fun b => cost (f b)) (fun b => p (f b)) l
  | [] => rfl
  | b :: l => by
    have ih := total_map (f := f) p l
    unfold total
    rw [← ih]
    rfl

theorem total_le {window : ℤ} {limit : ℕ} : ∀ {l : List α}, Bounded time cost window limit l →
    l.Pairwise (fun a b => time b ≤ time a) → ∀ t, total cost (inside time window t) l ≤ limit
  | [], _, _, _ => Nat.zero_le limit
  | a :: l, hb, hs, t => by
    obtain ⟨hle, hs⟩ := List.pairwise_cons.1 hs
    obtain ⟨ha, hb⟩ := hb
    have ih := total_le hb hs t
    unfold total
    by_cases hin : inside time window t a = true
    · -- what else lies in the window lies in the one that ends with the newest entry
      have hsub : total cost (inside time window t) l ≤ total cost (inside time window (time a)) l := by
        refine total_mono fun b hbl hbin => ?_
        have hba := hle b hbl
        simp only [inside, Bool.and_eq_true, decide_eq_true_eq] at hin hbin ⊢
        omega
      rw [if_pos hin]
      omega
    · rw [if_neg hin]
      omega

end SlidingWindow
end SecureChat
