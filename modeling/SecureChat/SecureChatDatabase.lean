import SecureChat.RecordStore
/-!
# SecureChatDatabase — one write against memory and disk

`write` runs a mutation on the tables in memory inside a transaction and then hands the noted changes to the store.  A
failure anywhere rolls the disk back to the transaction's beginning and the memory back by its journals.
-/
namespace SecureChat
namespace Storage

open GroupControl (Text)
open MessageQuery (Sorters)

/-- Where a write fails.  A statement fails after `n` others were executed. -/
structure Faults where
  beginFails : Bool
  loadFails : Bool
  mutationThrows : Bool
  statementFails : Option ℕ
  commitFails : Bool

structure Environment where
  now : ℤ
  sorters : Sorters
  faults : Faults

/-- A snapshot built elsewhere, to take the place of the one in memory; its messages do not see the disk. -/
structure Replacement where
  snapshot : StorageSnapshot
  detached : snapshot.messages.detached = true
  clearPending : snapshot.messages.clearPending = false

structure Mutation where
  changes : List Change
  replacement : Option Replacement

/-- `stale`: another connection has committed since the snapshot was loaded.  `shelved` is the snapshot that a mutation
replaced, until the write ends. -/
structure Database where
  records : Records
  savepoints : List Records
  cached : StorageSnapshot
  shelved : Option StorageSnapshot
  stale : Bool
  fullReset : Bool

namespace StorageSnapshot

def rowChanges (s : StorageSnapshot) : List (CollectionName × Text × Option Json) :=
  (Collection.all.flatMap fun c =>
    (s.maps c).changes.map fun x => (.tracked c, c.idOf x.1, x.2.map (document c))) ++
  s.messages.pending.entries.map fun x => (.messages, x.1, x.2.map fun m => .obj m.toJson)

def markAll (s : StorageSnapshot) : StorageSnapshot := { s with maps := fun c => (s.maps c).markAll }

def rollback (s : StorageSnapshot) : StorageSnapshot where
  maps c := (s.maps c).rollback
  messages := s.messages.rollback

def commit (s : StorageSnapshot) : StorageSnapshot where
  maps c := (s.maps c).commit
  messages := s.messages.commit

end StorageSnapshot

def upsert (change : CollectionName × Text × Option Json) : Option Statement :=
  change.2.2.map (.insertOrReplace change.1 change.2.1)

def deletion (change : CollectionName × Text × Option Json) : Option Statement :=
  if change.2.2.isSome then none else some (.delete change.1 change.2.1)

def rowStatements (l : List (CollectionName × Text × Option Json)) : List Statement :=
  l.filterMap upsert ++ l.filterMap deletion

def clears (clearFirst : Bool) (s : StorageSnapshot) : List Statement :=
  (if clearFirst then [.deleteAll] else []) ++
  if s.messages.clearPending then [.deleteCollection .messages] else []

/-- What `applyChanges` executes. -/
def statements (clearFirst : Bool) (s : StorageSnapshot) : List Statement :=
  clears clearFirst s ++ rowStatements s.rowChanges

namespace Database

def snapshot (now : ℤ) (db : Database) : StorageSnapshot :=
  if db.stale then (loadSnapshot now db.records).getD db.cached else db.cached

def refreshSnapshot (env : Environment) (db : Database) : Database × Bool :=
  if db.stale then
    match loadSnapshot env.now db.records, env.faults.loadFails with
    | some s, false => ({ db with cached := s, stale := false }, true)
    | _     , _ => (db, false)
  else (db, true)

/-- `COMMIT` or `RELEASE` after a body that returned, else `ROLLBACK`. -/
def endTransaction (commitFails : Bool) (out : Database × Bool) : Database × Bool :=
  if out.2 && !commitFails then ({ out.1 with savepoints := out.1.savepoints.tail }, true)
  else
    ({ out.1 with records := out.1.savepoints.headD out.1.records, savepoints := out.1.savepoints.tail }, false)

def writeTransaction (beginFails commitFails : Bool) (body : Database → Database × Bool) (db : Database) :
    Database × Bool :=
  if beginFails then (db, false)
  else endTransaction commitFails (body { db with savepoints := db.records :: db.savepoints })

def mutated (env : Environment) (mutation : Mutation) (db : Database) : Database :=
  let s := mutation.changes.foldl (StorageSnapshot.apply env.sorters (messageRows db.records)) db.cached
  match mutation.replacement with
  | none => { db with cached := s }
  | some r => { db with shelved := some s, cached := r.snapshot.markAll, fullReset := true }

def execute (statementFails : Option ℕ) (plan : List Statement) (db : Database) : Database × Bool :=
  if statementFails.any fun n => decide (n ≤ plan.length) then
    ({ db with records := Statement.execAll (plan.take (statementFails.getD 0)) db.records }, false)
  else ({ db with records := Statement.execAll plan db.records }, true)

def persist (env : Environment) (db : Database) : Database × Bool :=
  let plan := statements db.fullReset db.cached
  if plan.isEmpty then (db, true)
  else db.writeTransaction false false (execute env.faults.statementFails plan)

/-- The journals are dropped after the commit, or rolled back. -/
def finish (previousFullReset : Bool) (out : Database × Bool) : Database × Bool :=
  if out.2 then ({ out.1 with cached := out.1.cached.commit, shelved := none, fullReset := false }, true)
  else
    ({ out.1 with
        cached := (out.1.shelved.getD out.1.cached).rollback
        shelved := none
        fullReset := previousFullReset }, false)

def write (env : Environment) (mutate : StorageSnapshot → Mutation) (db : Database) : Database × Bool :=
  finish db.fullReset (db.writeTransaction env.faults.beginFails env.faults.commitFails fun db =>
    let (db, loaded) := db.refreshSnapshot env
    if loaded then
      let db := db.mutated env (mutate db.cached)
      if env.faults.mutationThrows then (db, false) else db.persist env
    else (db, false))

end Database

end Storage
end SecureChat
