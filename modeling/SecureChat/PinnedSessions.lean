import SecureChat.ReleasedMessages
/-!
# PinnedSessions — every session is one with the pinned identity

An approval of a changed identity writes the pin and then deletes the sessions with the old one.  If the process stops
between the two writes, or the second one fails, the sessions stay and are used again.  `bound_run` says that nothing
else unbinds a session.
-/
namespace SecureChat
namespace PeerSessions

open Async
open GroupControl (Text)

/-- **Sessions are bound to the pinned identity** in every run in which no approval is cut short between its writes. -/
theorem bound_run {A S G : Type} {V : Ratchets A S G} (hV : V.Lawful) {q : State A S G}
    {ls : List (Pool.Label Event (Option Answer))}
    (hm : Runs.Meets (tasks V).step (Pool.Moves (Tasks.Orderly (rules V True))) ⟨{}, []⟩ ls)
    (hr : Runs.run (tasks V).step ⟨{}, []⟩ ls = some q) :
    (∀ c ∈ q.shared.pins, c.Lawful) ∧ (∀ m ∈ q.shared.messages, m.pinned = some m.establishedWith) ∧
      ∀ peerId, q.shared.BoundTo peerId ↔ ∀ w ∈ Task.labels q.threads, w.clears q.shared ≠ some peerId := by
  have hkept := kept_run hV hm hr
  exact ⟨hkept.good.pins, hkept.good.messages trivial, fun _ => hkept.boundTo_iff trivial⟩

section Sample

def newIdentity : Identity := ⟨"bob-new-ed".toList, "bob-new-curve".toList⟩

def goNew (i : ℕ) : Pool.Label Event (Option Answer) :=
    .step i (some ⟨some ⟨newIdentity, "bob-new-one-time".toList⟩, 0⟩)

def sampleReview : Review :=
  ⟨0, "bob".toList, some sampleIdentity, newIdentity, ⟨"local-ed".toList, "local-curve".toList⟩⟩

/-- After a first message a changed identity is reviewed and approved, up to the write of the pin. -/
def pinChanged : List (Pool.Label Event (Option Answer)) :=
  firstSent ++ .start (.reviewPeerIdentity "bob".toList) :: List.replicate 6 (goNew 1) ++
    .start (.approvePeerIdentity sampleReview) :: List.replicate 7 (goNew 2)

def approved : List (Pool.Label Event (Option Answer)) :=
  pinChanged ++ goNew 2 :: .start (.encryptDirect "bob".toList "two".toList) :: List.replicate 14 (goNew 3)

theorem bound_approved : ∃ q : State ℕ PlainSession PlainSession,
    Runs.run (tasks plain).step ⟨{}, []⟩ approved = some q ∧ q.shared.pins.length = 2 ∧ q.shared.messages.length = 2 ∧
      ∀ peerId, q.shared.BoundTo peerId ↔ ∀ w ∈ Task.labels q.threads, w.clears q.shared ≠ some peerId := by
  obtain ⟨q, hr, hpins, hmessages⟩ : ∃ q, Runs.run (tasks plain).step ⟨{}, []⟩ approved = some q ∧
      (q.shared.pins.length = 2 ∧ q.shared.messages.length = 2) :=
    Runs.exists_run _ _ (fun q : State ℕ PlainSession PlainSession => q.shared.pins.length = 2 ∧
      q.shared.messages.length = 2) (by decide +kernel)
  exact ⟨q, hr, hpins, hmessages, (bound_run plain_lawful (by decide +kernel) hr).2.2⟩

/-- The process stops after the pin was written, and the next message is sent with the session of the old identity. -/
def cutShort : List (Pool.Label Event (Option Answer)) :=
  pinChanged ++ [.start .stop, go 3] ++
    .start (.encryptDirect "bob".toList "two".toList) :: List.replicate 8 (go 4)

/-- **An approval that is cut short leaves the old session in use.** -/
theorem cut_approval_unbinds : ¬ ∀ (A S G : Type) (V : Ratchets A S G), V.Lawful →
    ∀ (ls : List (Pool.Label Event (Option Answer))) (q : State A S G),
      Runs.run (tasks V).step ⟨{}, []⟩ ls = some q → ∀ m ∈ q.shared.messages, m.pinned = some m.establishedWith := by
  intro h
  obtain ⟨q, hr, m, hmem, hne⟩ : ∃ q, Runs.run (tasks plain).step ⟨{}, []⟩ cutShort = some q ∧
      ∃ m ∈ q.shared.messages, m.pinned ≠ some m.establishedWith :=
    Runs.exists_run _ _ (fun q : State ℕ PlainSession PlainSession => ∃ m ∈ q.shared.messages,
      m.pinned ≠ some m.establishedWith) (by decide +kernel)
  exact hne (h _ _ _ plain plain_lawful cutShort q hr m hmem)

end Sample

end PeerSessions
end SecureChat
