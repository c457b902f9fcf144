import Mathlib.Data.Nat.Notation
import Mathlib.Logic.Function.Basic
/-!
# Connections — one user's entry of `ConnectionManager.connections`

A session is a number.  `current` is `connections[userId]`, `messageOnly` the user's part of `messageOnlySessions`.
Both change under the mutex, so `admitSession` and `remove` are single steps.
-/
namespace SecureChat

def maxConnections : ℕ := 6000

structure Connections where
  current : Option ℕ
  messageOnly : ℕ → Bool

namespace Connections

def init : Connections := ⟨none, fun _ => false⟩

/-- The locked part of `addConnection`: the session that was replaced, or `none` for a refusal.  `others` is the number
of other users with a connection. -/
def admitSession (others session : ℕ) (callCapable : Bool) (c : Connections) : Option (Option ℕ × Connections) :=
  if c.current = none ∧ maxConnections ≤ others then none
  else if callCapable = false ∧ (c.current.any (fun current => !c.messageOnly current)) = true then none
  else
    let messageOnly := if callCapable then c.messageOnly else Function.update c.messageOnly session true
    match c.current with
    | none => some (none, ⟨some session, messageOnly⟩)
    | some existing =>
      some (some existing, ⟨some session,
        if existing = session then messageOnly else Function.update messageOnly existing false⟩)

/-- The locked part of `removeConnection`: compare-and-remove for a given session, plain removal without one. -/
def remove (session : Option ℕ) (c : Connections) : Bool × Connections :=
  match c.current with
  | none => (false, c)
  | some current =>
    if session = none ∨ session = some current then
      (true, ⟨none, Function.update c.messageOnly current false⟩)
    else (false, c)

theorem current_admitSession {others session : ℕ} {callCapable : Bool} {c c' : Connections} {previous : Option ℕ}
    (h : c.admitSession others session callCapable = some (previous, c')) : c'.current = some session := by
  unfold admitSession at h
  split at h
  · cases h
  · split at h
    · cases h
    · simp only at h
      split at h
      · cases h; rfl
      · cases h; rfl

theorem current_of_remove {session : Option ℕ} {c : Connections} {n : ℕ} (h : (c.remove session).2.current = some n) :
    c.current = some n := by
  unfold remove at h
  split at h
  · exact h
  · split at h
    · cases h
    · exact h

end Connections
end SecureChat
