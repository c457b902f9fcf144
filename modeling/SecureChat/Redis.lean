import Mathlib.Data.List.AList
import Mathlib.Data.List.Sort
import Mathlib.Data.Int.Order.Basic
/-!
# Redis — keys that expire, sorted sets and hashes

The part of Redis the server's scripts use.  A string key is `Option (Volatile β)`.  A sorted set (member ↦ score) and
a hash (field ↦ value) are both a `Coll`: a finite map with an expiry time.  Redis deletes a collection with its last
element, so an empty `Coll` carries no expiry time once `Coll.del` has emptied it, and `EXPIRE` on a missing key does
nothing.

Redis drops an expired key when it is next looked at; a key past its time is never served.  Here `sweep` drops it when
the clock passes the time, which no command can tell apart.  Times are milliseconds of the server's clock.
-/
namespace SecureChat
namespace Redis

/-- A value with the time after which it is no longer served; `none` never expires. -/
structure Volatile (α : Type) where
  val : α
  expireAt : Option ℕ
deriving DecidableEq

namespace Volatile

variable {α : Type}

def live (now : ℕ) (v : Volatile α) : Bool :=
  match v.expireAt with
  | none => true
  | some e => decide (now ≤ e)

/-- A string key once the clock stands at `now`. -/
def sweep (now : ℕ) : Option (Volatile α) → Option (Volatile α)
  | none => none
  | some v => if v.live now then some v else none

theorem sweep_eq_some {now : ℕ} {o : Option (Volatile α)} {v : Volatile α} :
    sweep now o = some v ↔ o = some v ∧ v.live now = true := by
  cases o with
  | none => simp [sweep]
  | some w =>
    by_cases hw : w.live now = true
    · simp only [sweep, hw, if_true, Option.some.injEq]
      exact ⟨fun h => ⟨h, h ▸ hw⟩, fun h => h.1⟩
    · simp only [sweep, hw, Option.some.injEq]
      exact ⟨fun h => by simp at h, fun h => absurd (h.1 ▸ h.2) hw⟩

end Volatile

abbrev Coll (κ β : Type) := Volatile (AList (fun _ : κ => β))

namespace Coll

variable {κ β : Type}

def empty : Coll κ β := ⟨∅, none⟩

def keys (c : Coll κ β) : List κ := c.val.keys

/-- `ZCARD`, `HLEN`. -/
def card (c : Coll κ β) : ℕ := c.keys.length

/-- `HVALS`. -/
def vals (c : Coll κ β) : List β := c.val.entries.map Sigma.snd

def expire (e : ℕ) (c : Coll κ β) : Coll κ β := if c.keys.isEmpty then c else { c with expireAt := some e }

/-- The collection once the clock stands at `now`. -/
def sweep (now : ℕ) (c : Coll κ β) : Coll κ β := if c.live now then c else empty

@[simp] theorem keys_empty : (empty : Coll κ β).keys = [] := rfl

theorem keys_nodup (c : Coll κ β) : c.keys.Nodup := AList.keys_nodup c.val

@[simp] theorem keys_expire (e : ℕ) (c : Coll κ β) : (c.expire e).keys = c.keys := by
  unfold expire
  split <;> rfl

theorem expireAt_expire {e : ℕ} {c : Coll κ β} (h : c.keys ≠ []) : (c.expire e).expireAt = some e := by
  unfold expire
  rw [if_neg (by simpa using h)]

theorem sweep_of_live {now : ℕ} {c : Coll κ β} (h : c.live now = true) : c.sweep now = c := if_pos h

theorem sweep_of_dead {now : ℕ} {c : Coll κ β} (h : ¬ c.live now = true) : c.sweep now = empty := if_neg h

theorem keys_sweep_of_nil {now : ℕ} {c : Coll κ β} (h : c.keys = []) : (c.sweep now).keys = [] := by
  unfold sweep
  split
  · exact h
  · rfl

theorem expired_of_dead {now : ℕ} {c : Coll κ β} (h : ¬ c.live now = true) : ∃ e, c.expireAt = some e ∧ e < now := by
  cases hx : c.expireAt with
  | none => exact absurd (by simp [Volatile.live, hx]) h
  | some e => exact ⟨e, rfl, by simpa [Volatile.live, hx] using h⟩

variable [DecidableEq κ]

def lookup (c : Coll κ β) (k : κ) : Option β := AList.lookup k c.val

/-- `ZADD`, `HSET`. -/
def put (k : κ) (b : β) (c : Coll κ β) : Coll κ β := { c with val := AList.insert k b c.val }

/-- `ZREM`, `HDEL`: a missing key changes nothing, the last one takes the collection with it. -/
def del (k : κ) (c : Coll κ β) : Coll κ β :=
  if k ∈ c.keys then
    if (c.keys.erase k).isEmpty then empty else { c with val := AList.erase k c.val }
  else c

@[simp] theorem lookup_empty (k : κ) : (empty : Coll κ β).lookup k = none := rfl

theorem lookup_isSome {c : Coll κ β} {k : κ} : (c.lookup k).isSome = true ↔ k ∈ c.keys := by
  rw [lookup, AList.lookup_isSome, AList.mem_keys, keys]

theorem lookup_eq_none {c : Coll κ β} {k : κ} : c.lookup k = none ↔ k ∉ c.keys := by
  rw [lookup, AList.lookup_eq_none, AList.mem_keys, keys]

theorem mem_keys_of_lookup {c : Coll κ β} {k : κ} {b : β} (h : c.lookup k = some b) : k ∈ c.keys :=
  lookup_isSome.1 (by rw [h]; rfl)

theorem exists_lookup {c : Coll κ β} {k : κ} (h : k ∈ c.keys) : ∃ b, c.lookup k = some b :=
  Option.isSome_iff_exists.1 (lookup_isSome.2 h)

@[simp] theorem expireAt_put (k : κ) (b : β) (c : Coll κ β) : (c.put k b).expireAt = c.expireAt := rfl

theorem mem_keys_put {k a : κ} {b : β} {c : Coll κ β} : a ∈ (c.put k b).keys ↔ a = k ∨ a ∈ c.keys := by
  simp only [put, keys, ← AList.mem_keys, AList.mem_insert]

@[simp] theorem lookup_put_self (k : κ) (b : β) (c : Coll κ β) : (c.put k b).lookup k = some b := by
  simp [put, lookup]

theorem lookup_put_ne {k a : κ} {b : β} {c : Coll κ β} (h : a ≠ k) : (c.put k b).lookup a = c.lookup a := by
  simp [put, lookup, h]

theorem keys_put_ne_nil (k : κ) (b : β) (c : Coll κ β) : (c.put k b).keys ≠ [] :=
  List.ne_nil_of_mem (mem_keys_put.2 (.inl rfl))

theorem keys_del (k : κ) (c : Coll κ β) : (c.del k).keys = c.keys.erase k := by
  unfold del
  split
  · split
    · rename_i h
      rw [keys_empty, List.isEmpty_iff.1 h]
    · exact AList.keys_erase k c.val
  · rename_i h
    rw [List.erase_of_not_mem h]

theorem mem_keys_del {k a : κ} {c : Coll κ β} : a ∈ (c.del k).keys ↔ a ≠ k ∧ a ∈ c.keys := by
  rw [keys_del]
  exact c.keys_nodup.mem_erase_iff

theorem lookup_del_self (k : κ) (c : Coll κ β) : (c.del k).lookup k = none :=
  lookup_eq_none.2 (fun h => (mem_keys_del.1 h).1 rfl)

theorem lookup_del_ne {k a : κ} {c : Coll κ β} (h : a ≠ k) : (c.del k).lookup a = c.lookup a := by
  unfold del
  split
  · split
    · rename_i he
      have hn : a ∉ c.keys := fun ha => by
        have : a ∈ c.keys.erase k := (c.keys_nodup.mem_erase_iff).2 ⟨h, ha⟩
        rw [List.isEmpty_iff.1 he] at this
        cases this
      rw [lookup_empty, lookup_eq_none.2 hn]
    · simp [lookup, h]
  · rfl

theorem del_of_not_mem {k : κ} {c : Coll κ β} (h : k ∉ c.keys) : c.del k = c := if_neg h

theorem expireAt_del {k a : κ} {c : Coll κ β} (h : a ∈ (c.del k).keys) : (c.del k).expireAt = c.expireAt := by
  unfold del at h ⊢
  split
  · rename_i hk
    rw [if_pos hk] at h
    split
    · rename_i he
      rw [if_pos he] at h
      cases h
    · rfl
  · rfl

@[simp] theorem lookup_expire (e : ℕ) (c : Coll κ β) (k : κ) : (c.expire e).lookup k = c.lookup k := by
  unfold expire
  split <;> rfl

theorem mem_entries {c : Coll κ β} {k : κ} {b : β} : ⟨k, b⟩ ∈ c.val.entries ↔ c.lookup k = some b :=
  AList.mem_lookup_iff.symm

theorem map_vals {γ : Type} {c : Coll κ β} {g : β → γ} {f : κ → γ} (h : ∀ k b, c.lookup k = some b → g b = f k) :
    c.vals.map g = c.keys.map f := by
  unfold vals keys AList.keys List.keys
  rw [List.map_map, List.map_map]
  exact List.map_congr_left (fun e he => h e.1 e.2 (mem_entries.1 he))

/-! ## Sorted sets -/

section ZSet

variable {κ : Type} [LinearOrder κ]

def scoreLe (a b : (_ : κ) × ℤ) : Prop := a.2 < b.2 ∨ (a.2 = b.2 ∧ a.1 ≤ b.1)

instance : DecidableRel (scoreLe (κ := κ)) := fun _ _ => inferInstanceAs (Decidable (_ ∨ _))

instance : Std.Total (scoreLe (κ := κ)) where
  total a b := by
    rcases lt_trichotomy a.2 b.2 with h | h | h
    · exact .inl (.inl h)
    · rcases le_total a.1 b.1 with h' | h'
      · exact .inl (.inr ⟨h, h'⟩)
      · exact .inr (.inr ⟨h.symm, h'⟩)
    · exact .inr (.inl h)

instance : IsTrans ((_ : κ) × ℤ) (scoreLe (κ := κ)) where
  trans a b c hab hbc := by
    rcases hab with hab | ⟨hab, hab'⟩
    · rcases hbc with hbc | ⟨hbc, -⟩
      · exact .inl (hab.trans hbc)
      · exact .inl (hbc ▸ hab)
    · rcases hbc with hbc | ⟨hbc, hbc'⟩
      · exact .inl (hab ▸ hbc)
      · exact .inr ⟨hab.trans hbc, hab'.trans hbc'⟩

instance : Std.Antisymm (scoreLe (κ := κ)) where
  antisymm a b hab hba := by
    rcases hab with hab | ⟨hab, hab'⟩
    · rcases hba with hba | ⟨hba, -⟩
      · exact absurd (hab.trans hba) (lt_irrefl _)
      · exact absurd (hba ▸ hab) (lt_irrefl _)
    · rcases hba with hba | ⟨-, hba'⟩
      · exact absurd (hab ▸ hba) (lt_irrefl _)
      · exact Sigma.ext (le_antisymm hab' hba') (heq_of_eq hab)

def sorted (c : Coll κ ℤ) : List ((_ : κ) × ℤ) := c.val.entries.insertionSort scoreLe

/-- `ZRANGE key 0 -1`. -/
def zrange (c : Coll κ ℤ) : List κ := c.sorted.map Sigma.fst

/-- `ZRANGEBYSCORE key -inf max`. -/
def zrangeByScore (c : Coll κ ℤ) (max : ℤ) : List κ := (c.sorted.filter (fun e => decide (e.2 ≤ max))).map Sigma.fst

theorem mem_zrange {c : Coll κ ℤ} {k : κ} : k ∈ c.zrange ↔ k ∈ c.keys := by
  simp only [zrange, sorted, List.mem_map, List.mem_insertionSort, keys, AList.keys, List.keys]

theorem mem_zrangeByScore {c : Coll κ ℤ} {max : ℤ} {k : κ} :
    k ∈ c.zrangeByScore max ↔ ∃ s, c.lookup k = some s ∧ s ≤ max := by
  simp only [zrangeByScore, sorted, List.mem_map, List.mem_filter, List.mem_insertionSort, decide_eq_true_eq]
  constructor
  · rintro ⟨⟨k', s⟩, ⟨he, hs⟩, rfl⟩
    exact ⟨s, mem_entries.1 he, hs⟩
  · rintro ⟨s, hs, hle⟩
    exact ⟨⟨k, s⟩, ⟨mem_entries.2 hs, hle⟩, rfl⟩

end ZSet

end Coll
end Redis
end SecureChat
