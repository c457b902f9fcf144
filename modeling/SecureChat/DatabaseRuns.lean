import SecureChat.DatabaseWrite
import SecureChat.Runs
/-!
# DatabaseRuns — writes one after another

From an opened store, through writes and the commits of other connections, every write is atomic exactly when its
messages fit into the cache (`write_atomic_iff`).  A full cache keeps the old version of a message that a write changes
(`write_keeps_old_version`).
-/
namespace SecureChat
namespace Storage

open GroupControl (Text)
open MessageQuery (Sorters)

namespace Database

variable {db : Database}

/-- What a store may hold when it is opened, or after a commit of another connection. -/
structure Disk where
  records : Records
  wellFormed : WellFormed records

def opened (disk : Disk) : Database where
  records := disk.records
  savepoints := []
  cached := .empty
  shelved := none
  stale := true
  fullReset := false

inductive Action
  | write (env : Environment) (mutate : StorageSnapshot → Mutation)
  | elsewhere (disk : Disk)

def step (db : Database) : Action → Option Database
  | .write env mutate => some (db.write env mutate).1
  | .elsewhere disk => some { db with records := disk.records, stale := true }

def ActionFits (db : Database) : Action → Prop
  | .write env mutate => Fitting env mutate db
  | .elsewhere _ => True

theorem opened_resting (disk : Disk) : Resting (opened disk) := by
  refine ⟨rfl, rfl, ⟨fun _ => rfl, rfl, rfl⟩, disk.wellFormed, ?_, ?_⟩
  · intro hfalse
    cases hfalse
  · intro hfalse
    cases hfalse

theorem step_resting (db : Database) (a : Action) (db' : Database) (h : Resting db) (hfit : ActionFits db a)
    (hstep : step db a = some db') : Resting db' := by
  cases a with
  | write env mutate =>
    obtain rfl := Option.some.inj hstep
    exact write_resting h env mutate hfit
  | elsewhere disk =>
    obtain rfl := Option.some.inj hstep
    refine ⟨h.shelved, h.fullReset, h.quiet, disk.wellFormed, ?_, ?_⟩
    · intro hfalse
      cases hfalse
    · intro hfalse
      cases hfalse

/-- **In every run whose writes fit, a write is atomic exactly when it fits.** -/
theorem write_atomic_iff (disk : Disk) (actions : List Action) (db : Database)
    (hmeets : Runs.Meets step ActionFits (opened disk) actions) (hrun : Runs.run step (opened disk) actions = some db)
    (env : Environment) (mutate : StorageSnapshot → Mutation) : Atomic env mutate db ↔ Fitting env mutate db :=
  atomic_iff (hmeets.invariant Resting step_resting (opened_resting disk) hrun) env mutate

/-- **A store that is opened again reads what memory held**: after any run whose writes fit the rows load, and a snapshot
that is in use reads what the loaded one does. -/
theorem reloaded_run (disk : Disk) (actions : List Action) (db : Database)
    (hmeets : Runs.Meets step ActionFits (opened disk) actions) (hrun : Runs.run step (opened disk) actions = some db)
    (now : ℤ) : ∃ s, loadSnapshot now db.records = some s ∧ (db.stale = false →
      (∀ c k, (s.maps c).get k = (db.cached.maps c).get k) ∧
      ∀ id, (s.messages.get (some (messageRows db.records)) id).1 =
        (db.cached.messages.get (some (messageRows db.records)) id).1) := by
  have hresting := hmeets.invariant Resting step_resting (opened_resting disk) hrun
  obtain ⟨s, hload, hsame, -⟩ := loadSnapshot_spec now hresting.wellFormed
  refine ⟨s, hload, fun hfresh => ⟨fun c k => ?_, fun id => ?_⟩⟩
  · have hrow := (hsame.maps c k).symm.trans ((hresting.rows hfresh).maps c k)
    exact Option.map_injective (fun _ _ => document_inj) hrow
  · have hrow := (hsame.messages id).symm.trans ((hresting.rows hfresh).messages id)
    rw [← bind_readMessage (s.messages.get _ id).1, hrow, bind_readMessage]

def calm : Environment := ⟨0, .stable, ⟨false, false, false, none, false⟩⟩

def emptyDisk : Disk where
  records := fun _ => .empty
  wellFormed := ⟨fun _ _ _ h => (by cases h), fun _ _ h => (by cases h)⟩

def letter (starred : Bool) : MessageEntity := MessageTable.received "a".toList 1 starred

def change (c : Change) : Action := .write calm fun _ => ⟨[c], none⟩

/-- A message is stored and starred. -/
def starring : List Action :=
  [change (.putMessage "a".toList (letter false)), change (.putMessage "a".toList (letter true))]

/-- The message is removed after that. -/
def removing : List Action := starring ++ [change (.removeMessage "a".toList)]

theorem starring_fit : Runs.Meets step ActionFits (opened emptyDisk) starring :=
  ⟨fun _ => ⟨fun m hm => .inl (by decide), trivial⟩, fun _ => ⟨fun m hm => .inl (by decide +kernel), trivial⟩, trivial⟩

theorem removing_fit : Runs.Meets step ActionFits (opened emptyDisk) removing :=
  ⟨fun _ => ⟨fun m hm => .inl (by decide), trivial⟩, fun _ => ⟨fun m hm => .inl (by decide +kernel), trivial⟩,
    fun _ => ⟨fun m hm => .inl (by decide +kernel), trivial⟩, trivial⟩

theorem write_atomic_iff_removing : ∃ db, Runs.run step (opened emptyDisk) removing = some db ∧
    Atomic calm (fun _ => ⟨[.putMessage "a".toList (letter false)], none⟩) db := by
  refine ⟨_, rfl, (write_atomic_iff emptyDisk removing _ removing_fit rfl _ _).2 fun _ => ⟨fun m hm => .inl ?_, trivial⟩⟩
  decide +kernel

theorem reloaded_run_starring : ∃ db s, Runs.run step (opened emptyDisk) starring = some db ∧
    loadSnapshot 0 db.records = some s ∧ (∀ c k, (s.maps c).get k = (db.cached.maps c).get k) ∧
    ∀ id, (s.messages.get (some (messageRows db.records)) id).1 =
      (db.cached.messages.get (some (messageRows db.records)) id).1 := by
  obtain ⟨s, hs, hsame⟩ := reloaded_run emptyDisk starring _ starring_fit rfl 0
  exact ⟨_, s, rfl, hs, hsame rfl⟩

/-! A full cache: as many messages as it takes, all of them read, and the first one changed. -/

/-- The id of the `n`-th message. -/
def nthId (n : ℕ) : Text := List.replicate n 'a'

theorem nthId_inj {n k : ℕ} (h : nthId n = nthId k) : n = k := by
  have hlength := congrArg List.length h
  simpa [nthId] using hlength

def nth (n : ℕ) : MessageEntity := MessageTable.received (nthId n) n false

def messagesTable (count : ℕ) : Rows where
  entries := (List.range count).map fun n => (nthId n, .obj (nth n).toJson)
  nodup := by
    have hkeys : ((List.range count).map fun n => (nthId n, Json.obj (nth n).toJson)).map Prod.fst =
        (List.range count).map nthId := by rw [List.map_map]; rfl
    rw [hkeys]
    exact List.nodup_range.map fun _ _ h => nthId_inj h

def manyRecords (count : ℕ) : CollectionName → Rows
  | .messages => messagesTable count
  | .tracked _ => .empty

def manyMessages (count : ℕ) : Disk where
  records := manyRecords count
  wellFormed := by
    refine ⟨fun c id data h => (by cases h), fun id data h => ?_⟩
    obtain ⟨n, -, hn⟩ := List.mem_map.1 (Table.get_eq_some.1 h)
    exact ⟨nth n, (Prod.mk.inj hn).2.symm⟩

theorem manyMessages_get {count n : ℕ} (h : n < count) :
    (messageRows (manyRecords count)).get (nthId n) = some (nth n) := by
  have hget : (manyRecords count .messages).get (nthId n) = some (.obj (nth n).toJson) :=
    Table.get_eq_some.2 (List.mem_map.2 ⟨n, List.mem_range.2 h, rfl⟩)
  rw [get_messageRows, hget, Option.bind_some, readMessage_obj, MessageEntity.fromJson_toJson]

/-- The table after the first `k` messages were read. -/
structure ReadUpTo (k : ℕ) (t : MessageTable) : Prop where
  pending : t.pending = .empty
  detached : t.detached = false
  clearPending : t.clearPending = false
  card : t.cache.card = k
  cached : ∀ n < k, t.cache.get (nthId n) = some (nth n)
  others : ∀ n, k ≤ n → t.cache.get (nthId n) = none

theorem ReadUpTo.read {count k : ℕ} {t : MessageTable} (h : ReadUpTo k t) (hk : k < count)
    (hlimit : k < MessageTable.cacheLimit) :
    ReadUpTo (k + 1) (t.get (some (messageRows (manyRecords count))) (nthId k)).2 := by
  have hvisible : t.diskVisible (some (messageRows (manyRecords count))) = true := by
    simp [MessageTable.diskVisible, h.detached, h.clearPending]
  have hnone : t.cache.get (nthId k) = none := h.others k (Nat.le_refl k)
  have hget : (t.get (some (messageRows (manyRecords count))) (nthId k)).2 =
      { t with cache := t.cache.put (nthId k) (nth k) } := by
    have hroom : ¬ MessageTable.cacheLimit ≤ t.cache.card := by
      rw [h.card]
      omega
    simp [MessageTable.get, h.pending, hvisible, hnone, manyMessages_get hk, MessageTable.remember, hroom]
  rw [hget]
  refine ⟨h.pending, h.detached, h.clearPending, ?_, fun n hn => ?_, fun n hn => ?_⟩
  · have hcard := congrArg List.length (Table.entries_put (v := nth k) hnone)
    rw [List.length_cons] at hcard
    exact hcard.trans (congrArg (· + 1) h.card)
  · by_cases hnk : n = k
    · rw [hnk, Table.get_put_self]
    · rw [Table.get_put_of_ne fun he => hnk (nthId_inj he)]
      exact h.cached n (by omega)
  · have hnk : nthId n ≠ nthId k := fun he => by
      have hnk := nthId_inj he
      omega
    rw [Table.get_put_of_ne hnk]
    exact h.others n (by omega)

theorem readUpTo (count : ℕ) (sorters : Sorters) : ∀ k ≤ count, k ≤ MessageTable.cacheLimit →
    ReadUpTo k (((List.range k).map fun n => Change.readMessage (nthId n)).foldl
      (StorageSnapshot.apply sorters (messageRows (manyRecords count)))
      ⟨fun _ => .ofTable .empty, .connected⟩).messages
  | 0    , _, _ => ⟨rfl, rfl, rfl, rfl, fun n hn => absurd hn (Nat.not_lt_zero n), fun _ _ => rfl⟩
  | k + 1, hk, hlimit => by
    rw [List.range_succ, List.map_append, List.foldl_append]
    exact (readUpTo count sorters k (by omega) (by omega)).read (by omega) (by omega)

/-- Read the first `k` messages and star the first one. -/
def readAndStar (k : ℕ) : Mutation where
  changes := ((List.range k).map fun n => .readMessage (nthId n)) ++
    [.putMessage (nthId 0) { nth 0 with isStarred := true }]
  replacement := none

theorem loadSnapshot_many (count : ℕ) (now : ℤ) :
    loadSnapshot now (manyRecords count) = some ⟨fun _ => .ofTable .empty, .connected⟩ := by
  have hload : ∀ c, loadCollection now c (manyRecords count (.tracked c)) = some .empty := fun _ => rfl
  simp [loadSnapshot, hload]

theorem not_fits_of_full {count : ℕ} (hpos : 0 < count) (hfull : count = MessageTable.cacheLimit) :
    ¬ Fitting calm (fun _ => readAndStar count) (opened (manyMessages count)) := by
  intro hfits
  have hspared : ¬ (opened (manyMessages count)).Strikes calm fun _ => readAndStar count := by
    simp [Strikes, calm]
  have hsnapshot : (opened (manyMessages count)).snapshot 0 = ⟨fun _ => .ofTable .empty, .connected⟩ := by
    simp [snapshot, opened, manyMessages, loadSnapshot_many]
  have hread := readUpTo count .stable count (Nat.le_refl count) (Nat.le_of_eq hfull)
  have hprepared : ((opened (manyMessages count)).prepared calm fun _ => readAndStar count).cached.messages =
      (((List.range count).map fun n => Change.readMessage (nthId n)).foldl
        (StorageSnapshot.apply .stable (messageRows (manyRecords count)))
        ⟨fun _ => .ofTable .empty, .connected⟩).messages.put (nthId 0) { nth 0 with isStarred := true } := by
    have hnow : calm.now = 0 := rfl
    simp only [prepared, mutated, readAndStar, hnow, hsnapshot, List.foldl_append]
    rfl
  have hfit := hfits hspared
  rw [hprepared] at hfit
  generalize (((List.range count).map fun n => Change.readMessage (nthId n)).foldl
    (StorageSnapshot.apply .stable (messageRows (manyRecords count)))
    ⟨fun _ => .ofTable .empty, .connected⟩).messages = t at hread hfit
  have hcache : (t.put (nthId 0) { nth 0 with isStarred := true }).cacheBefore = t.cache := by
    simp [MessageTable.cacheBefore, MessageTable.put, hread.detached, hread.clearPending]
  have hpending : (t.put (nthId 0) { nth 0 with isStarred := true }).pending.entries =
      [(nthId 0, some { nth 0 with isStarred := true })] := by
    simp only [MessageTable.put, hread.pending]
    rfl
  rw [hcache, hpending] at hfit
  rcases hfit.1 _ rfl with hroom | hold
  · rw [hread.card] at hroom
    omega
  · have hsame := congrArg MessageEntity.isStarred (hold _ (hread.cached 0 hpos))
    simp [nth, MessageTable.received] at hsame

/-- **A full cache keeps the old version**: as many messages as fit were read, and the first one is starred. -/
theorem write_keeps_old_version :
    ¬ ∀ (disk : Disk) (actions : List Action) (db : Database), Runs.run step (opened disk) actions = some db →
      ∀ (env : Environment) (mutate : StorageSnapshot → Mutation), Atomic env mutate db := by
  intro h
  obtain ⟨count, hcount⟩ : ∃ count, count = MessageTable.cacheLimit := ⟨_, rfl⟩
  have hpos : 0 < count := by
    rw [hcount]
    decide
  have hatomic := h (manyMessages count) [] _ (Runs.run_nil _) calm fun _ => readAndStar count
  exact not_fits_of_full hpos hcount ((atomic_iff (opened_resting _) _ _).1 hatomic)

end Database

end Storage
end SecureChat
