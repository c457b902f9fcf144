import Mathlib.Data.List.Nodup
import Mathlib.Data.List.Dedup
/-!
# Collections — sets in insertion order and tables with one value for each key

`LinkedSet` is a set that lists its elements in the order in which they came, `Table` a map whose entries have distinct
keys.  Both carry that as a field, so `card` and `countP` count what they should.
-/
namespace SecureChat

structure LinkedSet (α : Type) where
  elems : List α
  nodup : elems.Nodup
deriving DecidableEq

namespace LinkedSet

variable {α : Type} {s : LinkedSet α} {a b : α}

instance : Membership α (LinkedSet α) := ⟨fun s a => a ∈ s.elems⟩

instance [DecidableEq α] (a : α) (s : LinkedSet α) : Decidable (a ∈ s) := inferInstanceAs (Decidable (a ∈ s.elems))

def empty : LinkedSet α := ⟨[], List.nodup_nil⟩

def card (s : LinkedSet α) : ℕ := s.elems.length

@[simp] theorem not_mem_empty (a : α) : ¬ a ∈ (empty : LinkedSet α) := List.not_mem_nil

variable [DecidableEq α]

def insert (a : α) (s : LinkedSet α) : LinkedSet α :=
  if h : a ∈ s.elems then s
  else ⟨s.elems ++ [a], List.nodup_append.2 ⟨s.nodup, List.nodup_singleton a, fun x hx y hy hxy => by
    rw [List.mem_singleton.1 hy] at hxy
    exact h (hxy ▸ hx)⟩⟩

def erase (a : α) (s : LinkedSet α) : LinkedSet α := ⟨s.elems.erase a, s.nodup.erase a⟩

def ofList (l : List α) : LinkedSet α := l.foldl (fun s a => s.insert a) empty

@[simp] theorem mem_insert : b ∈ s.insert a ↔ b ∈ s ∨ b = a := by
  by_cases h : a ∈ s.elems
  · rw [insert, dif_pos h]
    exact ⟨.inl, fun hb => hb.elim id fun hb => hb ▸ h⟩
  · rw [insert, dif_neg h]
    exact List.mem_append.trans (or_congr Iff.rfl List.mem_singleton)

@[simp] theorem mem_erase : b ∈ s.erase a ↔ b ∈ s ∧ b ≠ a := by
  rw [and_comm]
  exact s.nodup.mem_erase_iff

theorem mem_ofList {l : List α} : b ∈ ofList l ↔ b ∈ l := by
  have hfold : ∀ (l : List α) (s : LinkedSet α), b ∈ l.foldl (fun s a => s.insert a) s ↔ b ∈ s ∨ b ∈ l := by
    intro l
    induction l with
    | nil => simp
    | cons a l ih =>
      intro s
      rw [List.foldl_cons, ih, mem_insert, List.mem_cons, or_assoc]
  exact (hfold l empty).trans (or_iff_right (not_mem_empty b))

theorem elems_ofList {l : List α} (h : l.Nodup) : (ofList l).elems = l := by
  have hfold : ∀ (l : List α) (s : LinkedSet α), (s.elems ++ l).Nodup →
      (l.foldl (fun s a => s.insert a) s).elems = s.elems ++ l := by
    intro l
    induction l with
    | nil => simp
    | cons a l ih =>
      intro s hs
      have hnot : ¬ a ∈ s.elems := fun ha => (List.nodup_append.1 hs).2.2 a ha a List.mem_cons_self rfl
      have hinsert : (s.insert a).elems = s.elems ++ [a] := by rw [insert, dif_neg hnot]
      have hrest : ((s.insert a).elems ++ l).Nodup := by
        rw [hinsert, List.append_assoc]
        exact hs
      rw [List.foldl_cons, ih _ hrest, hinsert, List.append_assoc]
      rfl
  exact hfold l empty h

theorem card_insert_of_mem (h : a ∈ s) : (s.insert a).card = s.card := by
  rw [insert, dif_pos (show a ∈ s.elems from h)]

theorem card_insert_of_not_mem (h : ¬ a ∈ s) : (s.insert a).card = s.card + 1 := by
  rw [insert, dif_neg (show ¬ a ∈ s.elems from h), card, card, List.length_append, List.length_singleton]

theorem card_insert_le : (s.insert a).card ≤ s.card + 1 := by
  by_cases h : a ∈ s
  · rw [card_insert_of_mem h]
    exact Nat.le_succ _
  · exact Nat.le_of_eq (card_insert_of_not_mem h)

theorem le_card_insert : s.card ≤ (s.insert a).card := by
  by_cases h : a ∈ s
  · exact Nat.le_of_eq (card_insert_of_mem h).symm
  · rw [card_insert_of_not_mem h]
    exact Nat.le_succ _

theorem card_erase_le : (s.erase a).card ≤ s.card := List.length_erase_le

end LinkedSet

structure Table (κ β : Type) where
  entries : List (κ × β)
  nodup : (entries.map Prod.fst).Nodup

namespace Table

variable {κ β : Type} {t : Table κ β} {k k' : κ} {v v' : β}

def empty : Table κ β := ⟨[], List.nodup_nil⟩

def card (t : Table κ β) : ℕ := t.entries.length

def values (t : Table κ β) : List β := t.entries.map Prod.snd

/-- How many values satisfy `p`. -/
def countP (p : β → Bool) (t : Table κ β) : ℕ := t.values.countP p

def filter (p : κ × β → Bool) (t : Table κ β) : Table κ β :=
  ⟨t.entries.filter p, (List.filter_sublist.map Prod.fst).nodup t.nodup⟩

theorem countP_filter_le {p : β → Bool} {q : κ × β → Bool} : (t.filter q).countP p ≤ t.countP p :=
  (List.filter_sublist.map Prod.snd).countP_le

theorem card_filter_le {q : κ × β → Bool} : (t.filter q).card ≤ t.card := List.length_filter_le _ _

theorem card_eq_countP (t : Table κ β) : t.card = t.countP fun _ => true := by
  rw [countP, values, List.countP_true, List.length_map]
  rfl

variable [DecidableEq κ]

def get (k : κ) (t : Table κ β) : Option β := (t.entries.find? fun x => decide (x.1 = k)).map Prod.snd

def remove (k : κ) (t : Table κ β) : Table κ β := t.filter fun x => decide (x.1 ≠ k)

def put (k : κ) (v : β) (t : Table κ β) : Table κ β where
  entries := (k, v) :: (t.remove k).entries
  nodup := by
    refine List.nodup_cons.2 ⟨fun h => ?_, (t.remove k).nodup⟩
    obtain ⟨x, hx, hk⟩ := List.mem_map.1 h
    exact of_decide_eq_true (List.mem_filter.1 hx).2 hk

theorem get_eq_some : t.get k = some v ↔ (k, v) ∈ t.entries := by
  constructor
  · intro h
    obtain ⟨x, hx, rfl⟩ := Option.map_eq_some_iff.1 h
    have hk : x.1 = k := by simpa using List.find?_some hx
    exact hk ▸ List.mem_of_find?_eq_some hx
  · intro h
    have hsome : (t.entries.find? fun x => decide (x.1 = k)).isSome :=
      List.find?_isSome.2 ⟨(k, v), h, decide_eq_true rfl⟩
    obtain ⟨x, hx⟩ := Option.isSome_iff_exists.1 hsome
    have hk : x.1 = k := by simpa using List.find?_some hx
    have hxv : x = (k, v) := List.inj_on_of_nodup_map t.nodup (List.mem_of_find?_eq_some hx) h hk
    rw [get, hx, hxv]
    rfl

theorem mem_values : v ∈ t.values ↔ ∃ k, t.get k = some v := by
  simp only [values, List.mem_map, get_eq_some]
  exact ⟨fun ⟨x, hx, hv⟩ => ⟨x.1, hv ▸ hx⟩, fun ⟨k, h⟩ => ⟨(k, v), h, rfl⟩⟩

theorem get_filter_eq_some {p : κ × β → Bool} : (t.filter p).get k = some v ↔ t.get k = some v ∧ p (k, v) = true := by
  rw [get_eq_some, get_eq_some]
  exact List.mem_filter

theorem get_put_self : (t.put k v).get k = some v := get_eq_some.2 List.mem_cons_self

theorem get_remove_self : (t.remove k).get k = none := by
  rw [Option.eq_none_iff_forall_ne_some]
  intro v h
  exact of_decide_eq_true (get_filter_eq_some.1 h).2 rfl

theorem get_remove_of_ne (h : k' ≠ k) : (t.remove k).get k' = t.get k' := by
  ext v
  exact get_filter_eq_some.trans (and_iff_left (decide_eq_true h))

theorem get_put_of_ne (h : k' ≠ k) : (t.put k v).get k' = t.get k' := by
  ext v'
  have hput : (t.put k v).get k' = some v' ↔ (t.remove k).get k' = some v' := by
    rw [get_eq_some, get_eq_some]
    exact List.mem_cons.trans (or_iff_right fun he => h (Prod.mk.inj he).1)
  rw [hput, get_remove_of_ne h]

@[simp] theorem get_empty : (empty : Table κ β).get k = none := rfl

theorem get_eq_none : t.get k = none ↔ ¬ k ∈ t.entries.map Prod.fst := by
  rw [Option.eq_none_iff_forall_ne_some]
  constructor
  · intro h hk
    obtain ⟨x, hx, rfl⟩ := List.mem_map.1 hk
    exact h x.2 (get_eq_some.2 hx)
  · intro h v hv
    exact h (List.mem_map_of_mem (get_eq_some.1 hv))

theorem entries_put (h : t.get k = none) : (t.put k v).entries = (k, v) :: t.entries := by
  have hall : t.entries.filter (fun x => decide (x.1 ≠ k)) = t.entries := by
    refine List.filter_eq_self.2 fun x hx => decide_eq_true fun hk => ?_
    exact get_eq_none.1 h (hk ▸ List.mem_map_of_mem hx)
  have hentries : (t.put k v).entries = (k, v) :: t.entries.filter fun x => decide (x.1 ≠ k) := rfl
  rw [hentries, hall]

def assign (k : κ) (v : β) (t : Table κ β) : Table κ β where
  entries := if (t.get k).isSome then t.entries.map fun x => if x.1 = k then (k, v) else x else t.entries ++ [(k, v)]
  nodup := by
    split
    · have hkeys : (t.entries.map fun x => if x.1 = k then (k, v) else x).map Prod.fst = t.entries.map Prod.fst := by
        rw [List.map_map]
        refine List.map_congr_left fun x _ => ?_
        by_cases hk : x.1 = k
        · simp [hk]
        · simp [hk]
      rw [hkeys]
      exact t.nodup
    · rename_i hnone
      have hfresh : ¬ k ∈ t.entries.map Prod.fst := get_eq_none.1 (Option.not_isSome_iff_eq_none.1 hnone)
      rw [List.map_append]
      refine List.nodup_append.2 ⟨t.nodup, List.nodup_singleton k, fun a ha b hb hab => ?_⟩
      have hk : a = k := hab.trans (List.mem_singleton.1 hb)
      exact hfresh (hk ▸ ha)

theorem mem_assign {x : κ × β} : x ∈ (t.assign k v).entries ↔ x = (k, v) ∨ x.1 ≠ k ∧ x ∈ t.entries := by
  unfold assign
  simp only
  split
  · rename_i hsome
    obtain ⟨v₀, hv₀⟩ := Option.isSome_iff_exists.1 hsome
    rw [List.mem_map]
    constructor
    · rintro ⟨y, hy, rfl⟩
      by_cases hk : y.1 = k
      · simp [hk]
      · simp [hk, hy]
    · rintro (rfl | ⟨hk, hx⟩)
      · exact ⟨(k, v₀), get_eq_some.1 hv₀, by simp⟩
      · exact ⟨x, hx, by simp [hk]⟩
  · rename_i hnone
    have hfresh : ¬ k ∈ t.entries.map Prod.fst := get_eq_none.1 (Option.not_isSome_iff_eq_none.1 hnone)
    rw [List.mem_append, List.mem_singleton]
    constructor
    · rintro (hx | hx)
      · exact .inr ⟨fun hk => hfresh (hk ▸ List.mem_map_of_mem hx), hx⟩
      · exact .inl hx
    · rintro (hx | ⟨-, hx⟩)
      · exact .inr hx
      · exact .inl hx

theorem get_assign_self : (t.assign k v).get k = some v := get_eq_some.2 (mem_assign.2 (.inl rfl))

theorem get_assign_of_ne (h : k' ≠ k) : (t.assign k v).get k' = t.get k' := by
  ext v'
  rw [get_eq_some, get_eq_some, mem_assign]
  simp [h]

theorem get_assign : (t.assign k v).get k' = if k' = k then some v else t.get k' := by
  by_cases h : k' = k
  · rw [if_pos h, h, get_assign_self]
  · rw [if_neg h, get_assign_of_ne h]

theorem get_put : (t.put k v).get k' = if k' = k then some v else t.get k' := by
  by_cases h : k' = k
  · rw [if_pos h, h, get_put_self]
  · rw [if_neg h, get_put_of_ne h]

theorem get_remove : (t.remove k).get k' = if k' = k then none else t.get k' := by
  by_cases h : k' = k
  · rw [if_pos h, h, get_remove_self]
  · rw [if_neg h, get_remove_of_ne h]

/-- The entries whose value `f` reads. -/
def filterMapValues {γ : Type} (f : β → Option γ) (t : Table κ β) : Table κ γ where
  entries := t.entries.filterMap fun x => (f x.2).map fun v => (x.1, v)
  nodup := by
    have hkeys : (t.entries.filterMap fun x => (f x.2).map fun v => (x.1, v)).map Prod.fst =
        (t.entries.filter fun x => (f x.2).isSome).map Prod.fst := by
      induction t.entries with
      | nil => rfl
      | cons x l ih => cases hx : f x.2 with
        | none => simpa [hx] using ih
        | some v => simpa [hx] using ih
    rw [hkeys]
    exact (List.filter_sublist.map Prod.fst).nodup t.nodup

theorem get_filterMapValues {γ : Type} (f : β → Option γ) : (t.filterMapValues f).get k = (t.get k).bind f := by
  ext v
  rw [get_eq_some, Option.bind_eq_some_iff]
  unfold filterMapValues
  simp only [List.mem_filterMap, Option.map_eq_some_iff, get_eq_some]
  constructor
  · rintro ⟨x, hx, w, hw, he⟩
    obtain ⟨rfl, rfl⟩ := Prod.mk.inj he
    exact ⟨x.2, hx, hw⟩
  · rintro ⟨w, hw, hv⟩
    exact ⟨(k, w), hw, v, hv, rfl⟩

def ofList (l : List (κ × β)) : Table κ β := l.foldl (fun t x => t.assign x.1 x.2) empty

theorem get_ofList {l : List (κ × β)} (h : (l.map Prod.fst).Nodup) : (ofList l).get k = some v ↔ (k, v) ∈ l := by
  have hfold : ∀ (l : List (κ × β)) (t : Table κ β), (l.map Prod.fst).Nodup →
      ((l.foldl (fun t x => t.assign x.1 x.2) t).get k = some v ↔
        (k, v) ∈ l ∨ ¬ k ∈ l.map Prod.fst ∧ t.get k = some v) := by
    intro l
    induction l with
    | nil => simp
    | cons x l ih =>
      intro t hnodup
      obtain ⟨hx, hnodup⟩ := List.nodup_cons.1 hnodup
      rw [List.foldl_cons, ih _ hnodup, get_assign]
      by_cases hk : k = x.1
      · have hnot : ¬ k ∈ l.map Prod.fst := hk ▸ hx
        have hmem : ¬ (k, v) ∈ l := fun hmem => hnot (List.mem_map_of_mem hmem)
        simp only [hk, if_true, List.map_cons, List.mem_cons, true_or, not_true, false_and, or_false]
        rw [← hk]
        simp only [hmem, hnot, false_or, or_false, not_false_iff, true_and, Option.some.injEq]
        exact ⟨fun hv => by rw [← hv, hk], fun hv => congrArg Prod.snd hv.symm⟩
      · have hne : ¬ (k, v) = x := fun hv => hk (congrArg Prod.fst hv)
        simp only [hk, if_false, List.map_cons, List.mem_cons, hne, false_or]
  rw [ofList, hfold l empty h]
  simp

theorem countP_put (p : β → Bool) : (t.put k v).countP p = (t.remove k).countP p + if p v then 1 else 0 :=
    List.countP_cons

theorem countP_of_mem (p : β → Bool) : ∀ {l : List (κ × β)}, (l.map Prod.fst).Nodup → (k, v) ∈ l →
    (l.map Prod.snd).countP p = ((l.filter fun x => decide (x.1 ≠ k)).map Prod.snd).countP p + if p v then 1 else 0
  | x :: l, hl, h => by
    obtain ⟨hx, hl⟩ := List.nodup_cons.1 hl
    by_cases hk : x.1 = k
    · have hrest : l.filter (fun x => decide (x.1 ≠ k)) = l := by
        refine List.filter_eq_self.2 fun y hy => decide_eq_true fun hyk => hx ?_
        exact hk ▸ hyk ▸ List.mem_map_of_mem hy
      have hv : x.2 = v := by
        rcases List.mem_cons.1 h with rfl | h
        · rfl
        · exact absurd (hk ▸ List.mem_map_of_mem h) hx
      rw [List.filter_cons_of_neg (by simpa using hk), hrest, List.map_cons, List.countP_cons, hv]
    · have hmem : (k, v) ∈ l := (List.mem_cons.1 h).resolve_left fun hxk => hk (hxk ▸ rfl)
      rw [List.filter_cons_of_pos (by simpa using hk), List.map_cons, List.map_cons, List.countP_cons, List.countP_cons,
        countP_of_mem p hl hmem]
      omega

theorem countP_remove (p : β → Bool) (h : t.get k = some v) :
    t.countP p = (t.remove k).countP p + if p v then 1 else 0 := countP_of_mem p t.nodup (get_eq_some.1 h)

theorem card_remove (h : t.get k = some v) : t.card = (t.remove k).card + 1 := by
  rw [card_eq_countP, card_eq_countP, countP_remove (fun _ => true) h]
  rfl

theorem card_put_le : (t.put k v).card ≤ t.card + 1 := Nat.succ_le_succ card_filter_le

theorem card_put_of_get (h : t.get k = some v) : (t.put k v').card = t.card := (card_remove h).symm

theorem countP_put_le {p : β → Bool} (h : t.get k = some v) (hp : p v' = true → p v = true) :
    (t.put k v').countP p ≤ t.countP p := by
  rw [countP_put, countP_remove p h]
  cases hv : p v' with
  | false => exact Nat.add_le_add_left (Nat.zero_le _) _
  | true =>
    have hold : p v = true := hp hv
    simp [hold]

theorem countP_put_le_succ {p : β → Bool} : (t.put k v).countP p ≤ t.countP p + 1 := by
  rw [countP_put]
  refine Nat.add_le_add countP_filter_le ?_
  split
  · exact Nat.le_refl 1
  · exact Nat.zero_le 1

end Table

end SecureChat
