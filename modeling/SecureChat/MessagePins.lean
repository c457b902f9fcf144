import SecureChat.DatabaseWrite
/-!
# MessagePins — pinned messages under the writes of the table

A pin is refused while another message of the conversation is pinned that has not expired and is not deleted; that one
is looked for with a query of one row.  Every operation is a write of its own, which reads through the cache and commits
its changes to the rows of the disk.
-/
namespace SecureChat
namespace Storage

open GroupControl (Text)
open MessageQuery (Sorters)

def canPin (m : MessageEntity) (now : ℤ) : Bool :=
  decide (m.contentType ≠ .deleted) && m.expiresAt.all fun t => decide (now < t)

def livePin (m : MessageEntity) (now : ℤ) : Bool := m.isPinned && canPin m now

def otherPin (current : MessageEntity) (id : Text) (now : ℤ) : MessageQuery where
  conversationId := some current.conversationId
  sqlWhere := some MessageEntity.isPinned
  test := some fun other => decide (other.id ≠ id) && livePin other now
  newestFirst := false
  limit := some 1

structure PinResult where
  accepted : Bool
  wasPinned : Bool
deriving DecidableEq

def updatePinned (sorters : Sorters) (rows : MessageRows) (id : Text) (isPinned : Bool)
    (pinnedAt expectedPinnedAt : Option ℤ) (now : ℤ) (t : MessageTable) : PinResult × MessageTable :=
  let (current, t) := t.get (some rows) id
  match current with
  | none => (⟨false, false⟩, t)
  | some current =>
    if expectedPinnedAt ≠ none ∧ (current.isPinned = false ∨ current.pinnedAt ≠ expectedPinnedAt) then
      (⟨false, false⟩, t)
    else if isPinned = true ∧ canPin current now = false then (⟨false, false⟩, t)
    else
      let (others, t) := if isPinned then t.select sorters (some rows) (otherPin current id now) else ([], t)
      if others ≠ [] then (⟨false, false⟩, t)
      else
        (⟨true, current.isPinned⟩, t.put id { current with
          isPinned := isPinned
          pinnedAt := if isPinned then some (pinnedAt.getD now) else none })

/-- A change of a row that does not touch the pin and brings nothing back that was deleted or has expired. -/
structure Revision where
  f : MessageEntity → MessageEntity
  id : ∀ m, (f m).id = m.id
  conversationId : ∀ m, (f m).conversationId = m.conversationId
  isPinned : ∀ m, (f m).isPinned = m.isPinned
  canPin : ∀ m now, canPin (f m) now = true → canPin m now = true

/-- `_patch` -/
def patchRow (rows : MessageRows) (id : Text) (r : Revision) (t : MessageTable) : MessageTable :=
  let (current, t) := t.get (some rows) id
  match current with
  | none => t
  | some current => t.put id (r.f current)

/-- The query of `deleteExpiredMessages`. -/
def expired (now : ℤ) : MessageQuery where
  conversationId := none
  sqlWhere := some fun m => m.expiresAt.any fun t => decide (t ≤ now)
  test := some fun m => m.expiresAt.any fun t => decide (t ≤ now)
  newestFirst := false
  limit := none

def deleteExpiredMessages (sorters : Sorters) (rows : MessageRows) (now : ℤ) (t : MessageTable) : MessageTable :=
  let (found, t) := t.select sorters (some rows) (expired now)
  found.foldl (fun t m => (t.remove (some rows) m.id).2) t

namespace Pins

/-- One operation on the table; rows come in without a pin. -/
inductive Op where
  | updatePinned (id : Text) (isPinned : Bool) (pinnedAt expectedPinnedAt : Option ℤ)
  | insert (m : MessageEntity)
  | patch (id : Text) (r : Revision)
  | delete (id : Text)
  | removeWhere (q : MessageQuery)
  | deleteExpiredMessages
  | refresh
  | passes (t : ℤ)

/-- The rows on disk, the table between two writes, the clock, and what the pins were told, newest first. -/
structure Store where
  rows : MessageRows
  table : MessageTable
  now : ℤ
  results : List (Text × PinResult)

def Store.empty : Store := ⟨.empty, .connected, 0, []⟩

def writeRow (rows : MessageRows) (entry : Text × Option MessageEntity) : MessageRows :=
  match entry.2 with
  | some m => rows.assign entry.1 m
  | none => rows.remove entry.1

def Store.commit (t : MessageTable) (s : Store) : Store :=
  { s with rows := t.pending.entries.foldl writeRow s.rows, table := t.commit }

def step (sorters : Sorters) (s : Store) : Op → Option Store
  | .updatePinned id isPinned pinnedAt expectedPinnedAt =>
    let x := updatePinned sorters s.rows id isPinned pinnedAt expectedPinnedAt s.now s.table
    some { s.commit x.2 with results := (id, x.1) :: s.results }
  | .insert m => if m.isPinned then none else some (s.commit (s.table.put m.id m))
  | .patch id r => some (s.commit (patchRow s.rows id r s.table))
  | .delete id => some (s.commit (s.table.remove (some s.rows) id).2)
  | .removeWhere q => some (s.commit (s.table.removeWhere sorters (some s.rows) q).2)
  | .deleteExpiredMessages => some (s.commit (deleteExpiredMessages sorters s.rows s.now s.table))
  | .refresh => some { s with table := .connected }
  | .passes t => if t < s.now then none else some { s with now := t }

end Pins
end Storage
end SecureChat
