import Mathlib.Data.List.Basic
import Mathlib.Data.List.DropRight
import SecureChat.Collections
/-!
# Csv — lists kept as text between separators

`join` writes a list as one text and `csv` reads a text as the set of its non-empty pieces.  An element that contains
the separator comes back as its pieces (`mem_csv_join`).
-/
namespace SecureChat
namespace Csv

variable {α : Type} [DecidableEq α] {sep : α}

def pieces (sep : α) (text : List α) : List (List α) := (text.splitOn sep).filter fun p => decide (p ≠ [])

def join (sep : α) (l : List (List α)) : List α := [sep].intercalate l

def csv (sep : α) (text : Option (List α)) : LinkedSet (List α) := LinkedSet.ofList ((text.map (pieces sep)).getD [])

theorem pieces_append (a b : List α) : pieces sep (a ++ sep :: b) = pieces sep a ++ pieces sep b := by
  rw [pieces, List.splitOn_append_cons_self, List.filter_append]
  rfl

theorem pieces_join : ∀ l : List (List α), pieces sep (join sep l) = l.flatMap (pieces sep)
  | [] => rfl
  | [a] => by rw [join, List.intercalate_singleton, List.flatMap_cons, List.flatMap_nil, List.append_nil]
  | a :: b :: l => by
    rw [join, List.intercalate_cons_cons, List.append_assoc, List.singleton_append, pieces_append, List.flatMap_cons]
    exact congrArg _ (pieces_join (b :: l))

theorem not_mem_of_mem_splitOn : ∀ {text p : List α}, p ∈ text.splitOn sep → ¬ sep ∈ p
  | [], p, hp => by
    rw [List.splitOn_nil, List.mem_singleton] at hp
    exact hp ▸ List.not_mem_nil
  | c :: text, p, hp => by
    rw [List.splitOn_cons_eq_if_modifyHead] at hp
    split at hp
    · rcases List.mem_cons.1 hp with rfl | hp
      · exact List.not_mem_nil
      · exact not_mem_of_mem_splitOn hp
    · rename_i hc
      cases hs : text.splitOn sep with
      | nil => exact absurd hs (List.splitOn_ne_nil sep text)
      | cons q qs =>
        rw [hs, List.modifyHead_cons] at hp
        rcases List.mem_cons.1 hp with rfl | hp
        · have hq : ¬ sep ∈ q := not_mem_of_mem_splitOn (hs ▸ List.mem_cons_self)
          rw [List.mem_cons, not_or]
          exact ⟨fun he => hc (by rw [he]; exact BEq.rfl), hq⟩
        · exact not_mem_of_mem_splitOn (hs ▸ List.mem_cons_of_mem q hp)

theorem clean_of_mem_pieces {text p : List α} (h : p ∈ pieces sep text) : p ≠ [] ∧ ¬ sep ∈ p := by
  obtain ⟨hmem, hne⟩ := List.mem_filter.1 h
  exact ⟨of_decide_eq_true hne, not_mem_of_mem_splitOn hmem⟩

theorem pieces_of_clean {p : List α} (hne : p ≠ []) (hsep : ¬ sep ∈ p) : pieces sep p = [p] := by
  rw [pieces, List.splitOn_eq_singleton hsep]
  exact List.filter_cons_of_pos (decide_eq_true hne)

theorem mem_csv {text : List α} {p : List α} : p ∈ csv sep (some text) ↔ p ∈ pieces sep text :=
  LinkedSet.mem_ofList

theorem mem_csv_join {l : List (List α)} {p : List α} :
    p ∈ csv sep (some (join sep l)) ↔ ∃ a ∈ l, p ∈ pieces sep a := by
  rw [mem_csv, pieces_join, List.mem_flatMap]

theorem clean_of_mem_csv {text : Option (List α)} {p : List α} (h : p ∈ csv sep text) : p ≠ [] ∧ ¬ sep ∈ p := by
  cases text with
  | none => exact absurd h (LinkedSet.not_mem_empty p)
  | some t => exact clean_of_mem_pieces (mem_csv.1 h)

theorem mem_pieces_of_mem_csv {text : Option (List α)} {a p : List α} (h : a ∈ csv sep text) :
    p ∈ pieces sep a ↔ p = a := by
  obtain ⟨hne, hsep⟩ := clean_of_mem_csv h
  rw [pieces_of_clean hne hsep, List.mem_singleton]

/-! ## What stands around a list -/

section
variable {β : Type} (p : β → Bool)

/-- A list without what `p` takes off both its ends. -/
def strip (l : List β) : List β := ((l.dropWhile p).reverse.dropWhile p).reverse

theorem dropWhile_strip (l : List β) : (strip p l).dropWhile p = strip p l := by
  cases hd : l.dropWhile p with
  | nil => simp [strip, hd]
  | cons b d =>
    have hb : p b = false := by
      have hhead := List.head?_dropWhile_not p l
      rw [hd] at hhead
      simpa using hhead
    have hprefix : strip p l <+: b :: d := hd ▸ List.rdropWhile_prefix _ _
    generalize strip p l = s at hprefix
    cases s with
    | nil => rfl
    | cons x s =>
      obtain ⟨rfl, -⟩ := List.cons_prefix_cons.1 hprefix
      simp [hb]

theorem strip_replicate {b : β} (h : p b = false) (n : ℕ) : strip p (List.replicate n b) = List.replicate n b := by
  have hdrop : ∀ n, (List.replicate n b).dropWhile p = List.replicate n b := by
    intro n
    cases n with
    | zero => rfl
    | succ n => exact List.dropWhile_cons_of_neg (by simp [h])
  rw [strip, hdrop, List.reverse_replicate, hdrop, List.reverse_replicate]

theorem strip_strip (l : List β) : strip p (strip p l) = strip p l := by
  have hr : (strip p l).rdropWhile p = strip p l := List.rdropWhile_idempotent _ _
  rw [show strip p (strip p l) = ((strip p l).dropWhile p).rdropWhile p from rfl, dropWhile_strip, hr]

end

end Csv
end SecureChat
