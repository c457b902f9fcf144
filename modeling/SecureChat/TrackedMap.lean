import Mathlib
import SecureChat.Collections
/-!
# TrackedMap — a map with a journal of what it held

Every change first notes what the key held before, once.  `Journal f` says that the notes and the map together still
know the original `f`; every operation keeps it (`Journal.put`, `Journal.remove`, `Journal.clear`), `rollback` gives `f`
back, and only noted keys differ from it (`Journal.get_of_not_noted`).
-/
namespace SecureChat

structure TrackedMap (κ ν : Type) where
  inner : Table κ ν
  previous : Table κ (Option ν)

namespace TrackedMap

variable {κ ν : Type} [DecidableEq κ] {t : TrackedMap κ ν} {k k' : κ} {v : ν} {f : κ → Option ν}

def ofTable (inner : Table κ ν) : TrackedMap κ ν := ⟨inner, .empty⟩

def get (k : κ) (t : TrackedMap κ ν) : Option ν := t.inner.get k

def mark (k : κ) (t : TrackedMap κ ν) : TrackedMap κ ν :=
  if (t.previous.get k).isSome then t else { t with previous := t.previous.assign k (t.inner.get k) }

def put (k : κ) (v : ν) (t : TrackedMap κ ν) : TrackedMap κ ν :=
  { t.mark k with inner := t.inner.assign k v }

def remove (k : κ) (t : TrackedMap κ ν) : TrackedMap κ ν :=
  { (if (t.inner.get k).isSome then t.mark k else t) with inner := t.inner.remove k }

def markAll (t : TrackedMap κ ν) : TrackedMap κ ν := (t.inner.entries.map Prod.fst).foldl (fun t k => t.mark k) t

def clear (t : TrackedMap κ ν) : TrackedMap κ ν := { t.markAll with inner := .empty }

def removeWhere (p : κ → ν → Bool) (t : TrackedMap κ ν) : TrackedMap κ ν :=
  ((t.inner.entries.filter fun x => p x.1 x.2).map Prod.fst).foldl (fun t k => t.remove k) t

def addAll (l : List (κ × ν)) (t : TrackedMap κ ν) : TrackedMap κ ν := l.foldl (fun t x => t.put x.1 x.2) t

/-- What `collect` hands to the store: the noted keys with what they hold now. -/
def changes (t : TrackedMap κ ν) : List (κ × Option ν) := t.previous.entries.map fun x => (x.1, t.inner.get x.1)

def restore (inner : Table κ ν) (x : κ × Option ν) : Table κ ν :=
  match x.2 with
  | none => inner.remove x.1
  | some v => inner.assign x.1 v

def rollback (t : TrackedMap κ ν) : TrackedMap κ ν := ⟨t.previous.entries.foldl restore t.inner, .empty⟩

def commit (t : TrackedMap κ ν) : TrackedMap κ ν := { t with previous := .empty }

/-- **The journal knows `f`**: a noted key was noted with what it held, any other still holds it. -/
structure Journal (f : κ → Option ν) (t : TrackedMap κ ν) : Prop where
  noted : ∀ k v, t.previous.get k = some v → v = f k
  unnoted : ∀ k, t.previous.get k = none → t.inner.get k = f k

theorem Journal.of_empty (h : t.previous = .empty) : Journal t.get t where
  noted k v hv := by
    rw [h] at hv
    cases hv
  unnoted k _ := rfl

@[simp] theorem mark_inner : (t.mark k).inner = t.inner := by
  unfold mark
  split
  · rfl
  · rfl

theorem mark_previous_isSome : ((t.mark k).previous.get k).isSome = true := by
  unfold mark
  split
  · assumption
  · simp [Table.get_assign_self]

theorem mark_previous_mono (h : (t.previous.get k').isSome = true) : ((t.mark k).previous.get k').isSome = true := by
  unfold mark
  split
  · exact h
  · simp only [Table.get_assign]
    split
    · rfl
    · exact h

theorem Journal.mark (h : Journal f t) (k : κ) : Journal f (t.mark k) := by
  cases hk : t.previous.get k with
  | some v₀ =>
    have hsame : t.mark k = t := by simp [TrackedMap.mark, hk]
    rw [hsame]
    exact h
  | none =>
    have hmark : t.mark k = { t with previous := t.previous.assign k (t.inner.get k) } := by
      simp [TrackedMap.mark, hk]
    rw [hmark]
    constructor
    · intro k' v hv
      simp only [Table.get_assign] at hv
      split at hv
      · rename_i hkk
        rw [← Option.some.inj hv, hkk]
        exact h.unnoted k hk
      · exact h.noted k' v hv
    · intro k' hv
      simp only [Table.get_assign] at hv
      split at hv
      · cases hv
      · exact h.unnoted k' hv

theorem Journal.change (h : Journal f t) {inner : Table κ ν} (hk : (t.previous.get k).isSome = true)
    (hother : ∀ k', k' ≠ k → inner.get k' = t.inner.get k') : Journal f { t with inner := inner } := by
  constructor
  · exact h.noted
  · intro k' hv
    have hne : k' ≠ k := by
      rintro rfl
      rw [hv] at hk
      cases hk
    exact (hother k' hne).trans (h.unnoted k' hv)

theorem Journal.put (h : Journal f t) (k : κ) (v : ν) : Journal f (t.put k v) := by
  refine (h.mark k).change mark_previous_isSome fun k' hne => ?_
  rw [Table.get_assign_of_ne hne, mark_inner]

theorem Journal.remove (h : Journal f t) (k : κ) : Journal f (t.remove k) := by
  unfold TrackedMap.remove
  split
  · refine (h.mark k).change mark_previous_isSome fun k' hne => ?_
    rw [Table.get_remove_of_ne hne, mark_inner]
  · rename_i hnone
    constructor
    · exact h.noted
    · intro k' hv
      rw [← h.unnoted k' hv]
      simp only [Table.get_remove]
      split
      · rename_i hkk
        rw [hkk]
        exact (Option.not_isSome_iff_eq_none.1 hnone).symm
      · rfl

theorem Journal.foldl {α : Type} {g : TrackedMap κ ν → α → TrackedMap κ ν} (hg : ∀ t a, Journal f t → Journal f (g t a)) :
    ∀ {l : List α} {t : TrackedMap κ ν}, Journal f t → Journal f (l.foldl g t)
  | []    , _, h => h
  | a :: l, t, h => Journal.foldl hg (l := l) (hg t a h)

theorem markAll_spec (l : List κ) : ∀ t : TrackedMap κ ν,
    (l.foldl (fun t k => t.mark k) t).inner = t.inner ∧
    ∀ k, k ∈ l ∨ (t.previous.get k).isSome = true →
      ((l.foldl (fun t k => t.mark k) t).previous.get k).isSome = true := by
  induction l with
  | nil =>
    intro t
    exact ⟨rfl, fun k hk => hk.resolve_left List.not_mem_nil⟩
  | cons a l ih =>
    intro t
    obtain ⟨hinner, hnoted⟩ := ih (t.mark a)
    refine ⟨hinner.trans mark_inner, fun k hk => hnoted k ?_⟩
    rcases hk with hk | hk
    · rcases List.mem_cons.1 hk with rfl | hk
      · exact .inr mark_previous_isSome
      · exact .inl hk
    · exact .inr (mark_previous_mono hk)

@[simp] theorem markAll_inner : t.markAll.inner = t.inner := (markAll_spec _ t).1

/-- After `markAll` every key that holds something is noted. -/
theorem markAll_noted (h : (t.inner.get k).isSome = true) : (t.markAll.previous.get k).isSome = true := by
  obtain ⟨v, hv⟩ := Option.isSome_iff_exists.1 h
  exact (markAll_spec _ t).2 k (.inl (List.mem_map_of_mem (Table.get_eq_some.1 hv)))

theorem Journal.markAll (h : Journal f t) : Journal f t.markAll := Journal.foldl (fun _ k h => h.mark k) h

theorem Journal.clear (h : Journal f t) : Journal f t.clear := by
  constructor
  · exact h.markAll.noted
  · intro k hk
    have hempty : t.inner.get k = none := by
      by_contra hsome
      have hnoted := markAll_noted (Option.isSome_iff_ne_none.2 hsome)
      simp only [TrackedMap.clear] at hk
      rw [hk] at hnoted
      cases hnoted
    have horiginal := h.markAll.unnoted k hk
    rw [markAll_inner, hempty] at horiginal
    exact horiginal

theorem Journal.removeWhere (h : Journal f t) (p : κ → ν → Bool) : Journal f (t.removeWhere p) :=
  Journal.foldl (fun _ k h => h.remove k) h

theorem Journal.addAll (h : Journal f t) (l : List (κ × ν)) : Journal f (t.addAll l) :=
  Journal.foldl (fun _ x h => h.put x.1 x.2) h

theorem Journal.get_of_not_noted (h : Journal f t) (hk : ¬ k ∈ t.changes.map Prod.fst) : t.get k = f k := by
  refine h.unnoted k (Table.get_eq_none.2 fun hmem => hk ?_)
  rw [changes, List.map_map]
  exact hmem

theorem mem_changes {x : κ × Option ν} (h : x ∈ t.changes) : x.2 = t.get x.1 := by
  obtain ⟨y, -, rfl⟩ := List.mem_map.1 h
  rfl

theorem foldl_restore {l : List (κ × Option ν)} : ∀ {inner : Table κ ν}, (∀ x ∈ l, x.2 = f x.1) →
    ∀ k, (l.foldl restore inner).get k = if k ∈ l.map Prod.fst then f k else inner.get k := by
  induction l with
  | nil => simp
  | cons x l ih =>
    intro inner hl k
    have hx : x.2 = f x.1 := hl x List.mem_cons_self
    have hstep : ∀ k, (restore inner x).get k = if k = x.1 then f x.1 else inner.get k := by
      intro k
      unfold restore
      rw [← hx]
      cases x.2 with
      | none => exact Table.get_remove
      | some v => exact Table.get_assign
    rw [List.foldl_cons, ih (fun y hy => hl y (List.mem_cons_of_mem _ hy)), hstep]
    by_cases hmem : k ∈ l.map Prod.fst
    · simp [hmem]
    · by_cases hk : k = x.1
      · simp [hk]
      · simp [hmem, hk]

theorem Journal.rollback (h : Journal f t) (k : κ) : t.rollback.get k = f k := by
  have hentries : ∀ x ∈ t.previous.entries, x.2 = f x.1 := fun x hx => h.noted x.1 x.2 (Table.get_eq_some.2 hx)
  have hget : t.rollback.get k = (t.previous.entries.foldl restore t.inner).get k := rfl
  rw [hget, foldl_restore hentries]
  split
  · rfl
  · rename_i hnot
    exact h.unnoted k (Table.get_eq_none.2 hnot)

end TrackedMap
end SecureChat
