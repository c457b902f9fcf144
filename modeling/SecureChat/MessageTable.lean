import SecureChat.Collections
import SecureChat.SortedTake
import SecureChat.StorageEntities
/-!
# MessageTable — messages on disk under the changes of a write

The rows of the table stay on disk.  A write keeps its changes in `pending` until it commits, and every read lays them
over the rows it fetched; `cache` holds decoded rows.
-/
namespace SecureChat
namespace Storage

open GroupControl (Text)

abbrev MessageRows := Table Text MessageEntity

abbrev MessageRow := Text × MessageEntity

structure MessageTable where
  cache : Table Text MessageEntity
  pending : Table Text (Option MessageEntity)
  detached : Bool
  clearPending : Bool

namespace MessageTable

variable {disk : Option MessageRows} {t : MessageTable} {id : Text} {m : MessageEntity}

def cacheLimit : ℕ := 5000

def Coherent (disk : Option MessageRows) (t : MessageTable) : Prop :=
  ∀ rows, disk = some rows → ∀ id m, t.cache.get id = some m → rows.get id = some m

def connected : MessageTable := ⟨.empty, .empty, false, false⟩

def diskVisible (disk : Option MessageRows) (t : MessageTable) : Bool :=
  disk.isSome && !t.detached && !t.clearPending

def remember (id : Text) (m : MessageEntity) (t : MessageTable) : MessageTable :=
  { t with cache := (if cacheLimit ≤ t.cache.card then .empty else t.cache).put id m }

def get (disk : Option MessageRows) (id : Text) (t : MessageTable) : Option MessageEntity × MessageTable :=
  match t.pending.get id with
  | some m => (m, t)
  | none =>
    if t.diskVisible disk then
      match t.cache.get id, disk.bind fun rows => rows.get id with
      | some m, _ => (some m, t)
      | none  , some m => (some m, t.remember id m)
      | none  , none => (none, t)
    else (none, t)

def put (id : Text) (m : MessageEntity) (t : MessageTable) : MessageTable :=
  { t with pending := t.pending.assign id (some m) }

def remove (disk : Option MessageRows) (id : Text) (t : MessageTable) : Option MessageEntity × MessageTable :=
  let (current, t) := t.get disk id
  (current, if current.isSome then { t with pending := t.pending.assign id none } else t)

def clear (t : MessageTable) : MessageTable :=
  { t with pending := .empty, clearPending := t.clearPending || !t.detached }

end MessageTable

/-- What a selection asks for; the arguments of the clause are part of it. -/
structure MessageQuery where
  conversationId : Option Text
  sqlWhere : Option (MessageEntity → Bool)
  test : Option (MessageEntity → Bool)
  newestFirst : Bool
  limit : Option ℤ

namespace MessageQuery

variable {q : MessageQuery} {m : MessageEntity}

def accept (q : MessageQuery) (m : MessageEntity) : Bool :=
  (q.conversationId.all fun id => m.conversationId == id) && q.test.all fun test => test m

def clause (q : MessageQuery) (m : MessageEntity) : Bool :=
  (q.conversationId.all fun id => m.conversationId == id) && q.sqlWhere.all fun sql => sql m

def Implied (q : MessageQuery) : Prop := ∀ m, q.accept m = true → q.clause m = true

def NoLater (newestFirst : Bool) (a b : MessageEntity) : Prop :=
  if newestFirst then b.timestamp ≤ a.timestamp else a.timestamp ≤ b.timestamp

instance (newestFirst : Bool) : DecidableRel (NoLater newestFirst) := fun a b =>
  inferInstanceAs (Decidable (if newestFirst = true then b.timestamp ≤ a.timestamp else a.timestamp ≤ b.timestamp))

instance (newestFirst : Bool) : Std.Total (NoLater newestFirst) where
  total a b := by
    unfold NoLater
    split
    · exact le_total b.timestamp a.timestamp
    · exact le_total a.timestamp b.timestamp

instance (newestFirst : Bool) : IsTrans MessageEntity (NoLater newestFirst) where
  trans a b c hab hbc := by
    unfold NoLater at *
    cases newestFirst with
    | false => exact le_trans (α := ℤ) hab hbc
    | true => exact le_trans (α := ℤ) hbc hab

/-- The two sorts of a selection: `ORDER BY` of the statement and `sort` of the list.  Neither promises an order among
rows of one millisecond. -/
structure Sorters where
  sql : ∀ newestFirst, Sorter fun a b : MessageRow => NoLater newestFirst a.2 b.2
  dart : ∀ newestFirst, Sorter (NoLater newestFirst)

instance (newestFirst : Bool) : DecidableRel fun a b : MessageRow => NoLater newestFirst a.2 b.2 :=
  fun a b => inferInstanceAs (Decidable (NoLater newestFirst a.2 b.2))

instance (newestFirst : Bool) : Std.Total fun a b : MessageRow => NoLater newestFirst a.2 b.2 where
  total a b := Std.Total.total (r := NoLater newestFirst) a.2 b.2

instance (newestFirst : Bool) : IsTrans MessageRow fun a b => NoLater newestFirst a.2 b.2 where
  trans a b c := IsTrans.trans (r := NoLater newestFirst) a.2 b.2 c.2

def Sorters.stable : Sorters where
  sql _ := Sorts.stable _
  dart _ := Sorts.stable _

def limited {α : Type} (q : MessageQuery) (l : List α) : List α :=
  match q.limit with
  | none => l
  | some n => if (l.length : ℤ) ≤ n then l else l.take n.toNat

end MessageQuery

namespace MessageTable

open MessageQuery (Sorters NoLater)

/-- The rows of the statement, without its limit. -/
def answer (sorters : Sorters) (disk : Option MessageRows) (q : MessageQuery) (t : MessageTable) : List MessageRow :=
  if t.diskVisible disk then
    (sorters.sql q.newestFirst).sort ((disk.elim [] fun rows => rows.entries).filter fun row => q.clause row.2)
  else []

def sqlLimit (q : MessageQuery) (t : MessageTable) (rows : List MessageRow) : ℕ :=
  match q.limit with
  | none => rows.length
  | some n => (n + t.pending.card).toNat

def visit (q : MessageQuery) (acc : Table Text MessageEntity × MessageTable) (row : MessageRow) :
    Table Text MessageEntity × MessageTable :=
  let (found, t) := acc
  if (t.pending.get row.1).isSome then (found, t)
  else
    let (message, t) := match t.cache.get row.1 with
      | some m => (m, t)
      | none => (row.2, t.remember row.1 row.2)
    (if q.accept message then found.put row.1 message else found, t)

def lay (q : MessageQuery) (found : Table Text MessageEntity) (entry : Text × Option MessageEntity) :
    Table Text MessageEntity :=
  match entry.2 with
  | some m => if q.accept m then found.put entry.1 m else found
  | none => found

def select (sorters : Sorters) (disk : Option MessageRows) (q : MessageQuery) (t : MessageTable) :
    List MessageEntity × MessageTable :=
  if q.limit.any fun n => n ≤ 0 then ([], t)
  else
    let rows := t.answer sorters disk q
    let (found, t) := (rows.take (t.sqlLimit q rows)).foldl (visit q) (.empty, t)
    let found := t.pending.entries.foldl (lay q) found
    (q.limited ((sorters.dart q.newestFirst).sort found.values), t)

variable {disk : Option MessageRows} {rows : MessageRows} {t : MessageTable} {q : MessageQuery} {id : Text}
  {m : MessageEntity}

structure SameChanges (t t' : MessageTable) : Prop where
  pending : t'.pending = t.pending
  detached : t'.detached = t.detached
  clearPending : t'.clearPending = t.clearPending

theorem SameChanges.refl (t : MessageTable) : SameChanges t t := ⟨rfl, rfl, rfl⟩

theorem SameChanges.trans {t t' t'' : MessageTable} (h : SameChanges t t') (h' : SameChanges t' t'') :
    SameChanges t t'' :=
  ⟨h'.pending.trans h.pending, h'.detached.trans h.detached, h'.clearPending.trans h.clearPending⟩

def kept (q : MessageQuery) (t : MessageTable) (row : MessageRow) : Bool :=
  (t.pending.get row.1).isNone && q.accept row.2

def keptPending (q : MessageQuery) (entry : Text × Option MessageEntity) : Option MessageRow :=
  entry.2.bind fun m => if q.accept m then some (entry.1, m) else none

theorem remember_coherent (hc : t.Coherent (some rows)) (hm : rows.get id = some m) :
    (t.remember id m).Coherent (some rows) := by
  rintro _ ⟨rfl⟩ id' m' h
  by_cases hid : id' = id
  · rw [hid] at h ⊢
    rw [remember, Table.get_put_self] at h
    rw [hm, h]
  · rw [remember, Table.get_put_of_ne hid] at h
    split at h
    · simp at h
    · exact hc rows rfl id' m' h

theorem visit_eq {row : MessageRow} (q : MessageQuery) (found : Table Text MessageEntity)
    (hc : t.Coherent (some rows)) (hrow : rows.get row.1 = some row.2) :
    ∃ t' : MessageTable, SameChanges t t' ∧ t'.Coherent (some rows) ∧
      visit q (found, t) row = (if t.kept q row then found.put row.1 row.2 else found, t') := by
  cases hp : t.pending.get row.1 with
  | some m => exact ⟨t, .refl t, hc, by simp [visit, kept, hp]⟩
  | none =>
    cases hcache : t.cache.get row.1 with
    | some m =>
      have hm : m = row.2 := Option.some.inj ((hc rows rfl _ _ hcache).symm.trans hrow)
      exact ⟨t, .refl t, hc, by simp [visit, kept, hp, hcache, hm]⟩
    | none =>
      exact ⟨t.remember row.1 row.2, ⟨rfl, rfl, rfl⟩, remember_coherent hc hrow, by simp [visit, kept, hp, hcache]⟩

theorem foldl_visit (q : MessageQuery) {l : List MessageRow} :
    ∀ {found : Table Text MessageEntity} {t : MessageTable}, t.Coherent (some rows) →
      (∀ row ∈ l, rows.get row.1 = some row.2) → (l.map Prod.fst).Nodup → (∀ row ∈ l, found.get row.1 = none) →
      ∃ found' t', l.foldl (visit q) (found, t) = (found', t') ∧ SameChanges t t' ∧
        t'.Coherent (some rows) ∧ found'.entries.Perm (found.entries ++ l.filter (t.kept q)) := by
  induction l with
  | nil =>
    intro found t hc _ _ _
    exact ⟨found, t, rfl, .refl t, hc, by simp⟩
  | cons row l ih =>
    intro found t hc hrows hnodup hfresh
    obtain ⟨hnot, hnodup⟩ := List.nodup_cons.1 hnodup
    obtain ⟨t₁, hp₁, hc₁, hvisit⟩ := visit_eq q found hc (hrows row List.mem_cons_self)
    have hkept : t₁.kept q = t.kept q := by
      funext x
      simp only [kept, hp₁.pending]
    have hfresh₁ : ∀ x ∈ l, (if t.kept q row then found.put row.1 row.2 else found).get x.1 = none := by
      intro x hx
      have hne : x.1 ≠ row.1 := fun h => hnot (h ▸ List.mem_map_of_mem hx)
      split
      · rw [Table.get_put_of_ne hne]
        exact hfresh x (List.mem_cons_of_mem _ hx)
      · exact hfresh x (List.mem_cons_of_mem _ hx)
    obtain ⟨found', t', hfold, hp', hc', hperm⟩ :=
      ih hc₁ (fun x hx => hrows x (List.mem_cons_of_mem _ hx)) hnodup hfresh₁
    refine ⟨found', t', by rw [List.foldl_cons, hvisit, hfold], hp₁.trans hp', hc', hperm.trans ?_⟩
    rw [hkept]
    cases hk : t.kept q row with
    | false => simp [hk]
    | true =>
      simp only [if_true, Table.entries_put (hfresh row List.mem_cons_self), List.filter_cons_of_pos hk]
      exact (@List.perm_middle _ row found.entries _).symm

theorem foldl_lay (q : MessageQuery) {l : List (Text × Option MessageEntity)} :
    ∀ {found : Table Text MessageEntity}, (l.map Prod.fst).Nodup → (∀ entry ∈ l, found.get entry.1 = none) →
      (l.foldl (lay q) found).entries.Perm (found.entries ++ l.filterMap (keptPending q)) := by
  induction l with
  | nil => simp
  | cons entry l ih =>
    intro found hnodup hfresh
    obtain ⟨hnot, hnodup⟩ := List.nodup_cons.1 hnodup
    have hnone : found.get entry.1 = none := hfresh entry List.mem_cons_self
    have hrest : ∀ x ∈ l, found.get x.1 = none := fun x hx => hfresh x (List.mem_cons_of_mem _ hx)
    cases hk : keptPending q entry with
    | none =>
      have hlay : lay q found entry = found := by
        unfold lay
        unfold keptPending at hk
        cases hm : entry.2 with
        | none => rfl
        | some m =>
          have hreject : ¬ q.accept m = true := by simpa [hm] using hk
          simp [hreject]
      rw [List.foldl_cons, hlay, List.filterMap_cons_none hk]
      exact ih hnodup hrest
    | some row =>
      obtain ⟨m, hm, hrow⟩ := Option.bind_eq_some_iff.1 hk
      obtain ⟨haccept, rfl⟩ : q.accept m = true ∧ (entry.1, m) = row := by
        split at hrow
        · exact ⟨‹_›, Option.some.inj hrow⟩
        · cases hrow
      have hlay : lay q found entry = found.put entry.1 m := by simp [lay, hm, haccept]
      have hfresh₁ : ∀ x ∈ l, (found.put entry.1 m).get x.1 = none := by
        intro x hx
        have hne : x.1 ≠ entry.1 := fun h => hnot (h ▸ List.mem_map_of_mem hx)
        rw [Table.get_put_of_ne hne]
        exact hrest x hx
      rw [List.foldl_cons, hlay, List.filterMap_cons_some hk]
      refine (ih hnodup hfresh₁).trans ?_
      rw [Table.entries_put hnone]
      exact (@List.perm_middle _ (entry.1, m) found.entries _).symm

/-- `removeWhere` has no order and no limit. -/
def removeWhere (sorters : Sorters) (disk : Option MessageRows) (q : MessageQuery) (t : MessageTable) :
    ℕ × MessageTable :=
  let (found, t) := t.select sorters disk { q with newestFirst := false, limit := none }
  (found.length, { t with pending := found.foldl (fun pending m => pending.assign m.id none) t.pending })

def rollback (t : MessageTable) : MessageTable := { t with pending := .empty, clearPending := false }

def cachePending (cache : Table Text MessageEntity) (entry : Text × Option MessageEntity) : Table Text MessageEntity :=
  match entry.2 with
  | none => cache.remove entry.1
  | some m => if cache.card < cacheLimit then cache.assign entry.1 m else cache

def cacheBefore (t : MessageTable) : Table Text MessageEntity :=
  if t.clearPending || t.detached then .empty else t.cache

def commit (t : MessageTable) : MessageTable where
  cache := t.pending.entries.foldl cachePending t.cacheBefore
  pending := .empty
  detached := false
  clearPending := false

def current (disk : Option MessageRows) (id : Text) (t : MessageTable) : Option MessageEntity :=
  match t.pending.get id with
  | some m => m
  | none => if t.diskVisible disk then disk.bind fun rows => rows.get id else none

theorem get_spec (id : Text) (hc : t.Coherent disk) :
    ∃ t', t.get disk id = (t.current disk id, t') ∧ SameChanges t t' ∧ t'.Coherent disk := by
  unfold get current
  cases hp : t.pending.get id with
  | some m => exact ⟨t, rfl, .refl t, hc⟩
  | none =>
    cases hvisible : t.diskVisible disk with
    | false => exact ⟨t, by simp, .refl t, hc⟩
    | true =>
      obtain ⟨rows, rfl⟩ : ∃ rows, disk = some rows := by
        cases disk with
        | none => simp [diskVisible] at hvisible
        | some rows => exact ⟨rows, rfl⟩
      cases hcache : t.cache.get id with
      | some m => exact ⟨t, by simp [hc rows rfl id m hcache], .refl t, hc⟩
      | none =>
        cases hrow : rows.get id with
        | none => exact ⟨t, by simp [hrow], .refl t, hc⟩
        | some m => exact ⟨t.remember id m, by simp [hrow], ⟨rfl, rfl, rfl⟩, remember_coherent hc hrow⟩

end MessageTable

end Storage
end SecureChat
