import SecureChat.Collections
/-!
# KeyedTable — rows that are stored under their own keys

A `Keyed` table carries that each row lies under the key that the row itself names, so no write through a row can land
on another one.
-/
namespace SecureChat

structure Keyed {κ β : Type} [DecidableEq κ] (key : β → κ) where
  rows : Table κ β
  keyed : ∀ k v, rows.get k = some v → key v = k

namespace Keyed

variable {κ β : Type} [DecidableEq κ] {key : β → κ} {t : Keyed key} {k k' : κ} {v w : β}

def empty : Keyed key := ⟨.empty, fun _ _ h => by cases h⟩

def get (k : κ) (t : Keyed key) : Option β := t.rows.get k

def values (t : Keyed key) : List β := t.rows.values

def insert (v : β) (t : Keyed key) : Keyed key where
  rows := t.rows.assign (key v) v
  keyed := by
    intro k w h
    rw [Table.get_assign] at h
    split at h
    · cases h
      exact Eq.symm ‹_›
    · exact t.keyed k w h

def patch (k : κ) (f : β → β) (t : Keyed key) : Keyed key :=
  match t.get k with
  | none => t
  | some v => t.insert (f v)

def map (f : β → β) (hf : ∀ v, key (f v) = key v) (t : Keyed key) : Keyed key where
  rows := t.rows.filterMapValues fun v => some (f v)
  keyed := by
    intro k v h
    rw [Table.get_filterMapValues] at h
    obtain ⟨w, hw, he⟩ := Option.bind_eq_some_iff.1 h
    cases he
    exact (hf w).trans (t.keyed k w hw)

def filter (p : β → Bool) (t : Keyed key) : Keyed key where
  rows := t.rows.filter fun x => p x.2
  keyed := fun k v h => t.keyed k v (Table.get_filter_eq_some.1 h).1

theorem key_of_get (h : t.get k = some v) : key v = k := t.keyed k v h

theorem mem_values (h : v ∈ t.values) : t.get (key v) = some v := by
  obtain ⟨k, hk⟩ := Table.mem_values.1 h
  rw [show key v = k from t.keyed k v hk]
  exact hk

theorem get_filter_eq_some {p : β → Bool} : (t.filter p).get k = some v ↔ t.get k = some v ∧ p v = true :=
  Table.get_filter_eq_some

theorem filter_eq_self {p : β → Bool} (h : ∀ v ∈ t.values, p v = true) : t.filter p = t := by
  have hrows : t.rows.filter (fun x => p x.2) = t.rows := by
    unfold Table.filter
    congr 1
    exact List.filter_eq_self.2 fun x hx => h x.2 (List.mem_map_of_mem hx)
  unfold filter
  congr 1

theorem get_insert : (t.insert v).get k = if k = key v then some v else t.get k := Table.get_assign

theorem get_insert_of_ne (h : k ≠ key v) : (t.insert v).get k = t.get k := Table.get_assign_of_ne h

theorem get_patch {f : β → β} (hf : ∀ v, key (f v) = key v) :
    (t.patch k f).get k' = if k' = k then (t.get k).map f else t.get k' := by
  unfold patch
  cases h : t.get k with
  | none =>
    by_cases hk : k' = k
    · rw [if_pos hk, hk, h]
      rfl
    · rw [if_neg hk]
  | some v =>
    have hkey : key (f v) = k := (hf v).trans (key_of_get h)
    show (t.insert (f v)).get k' = _
    rw [get_insert, hkey]
    rfl

theorem get_patch_of_ne {f : β → β} (hf : ∀ v, key (f v) = key v) (h : k' ≠ k) : (t.patch k f).get k' = t.get k' := by
  rw [get_patch hf, if_neg h]

theorem get_map (f : β → β) (hf : ∀ v, key (f v) = key v) : (t.map f hf).get k = (t.get k).map f := by
  refine (Table.get_filterMapValues _).trans ?_
  show (t.get k).bind _ = _
  cases t.get k <;> rfl

end Keyed
end SecureChat
