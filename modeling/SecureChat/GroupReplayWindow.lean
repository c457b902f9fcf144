import Mathlib.Data.List.Perm.Subperm
import Mathlib.Data.List.Dedup
import Mathlib.Data.List.Sort
import SecureChat.Runs
/-!
# GroupReplayWindow — the replay window of an inbound Megolm session

Megolm encrypts every message of a session at an index of its own.  `GroupReplayWindow` keeps a watermark, at and below
which every index counts as used, and the used indices above it.  Consecutive ones are absorbed; when more than
`maxOutOfOrder` are kept, the oldest gap is given up.

The law of the window is `Window`, an invariant over the list of all indices it has accepted.  `replay_run` carries it
through every history of distributions, messages and deletions of the protocol store.
-/
namespace SecureChat
namespace Megolm

structure GroupReplayWindow where
  watermark : ℤ
  seen : List ℤ
deriving DecidableEq

def absorb : ℤ → List ℤ → ℤ × List ℤ
  | mark, [] => (mark, [])
  | mark, p :: pending => if p = mark + 1 then absorb p pending else (mark, p :: pending)

theorem length_absorb : ∀ (pending : List ℤ) (mark : ℤ), (absorb mark pending).2.length ≤ pending.length
  | [], _ => Nat.le_refl _
  | p :: pending, mark => by
    rw [absorb]
    split
    · exact Nat.le_succ_of_le (length_absorb pending p)
    · exact Nat.le_refl _

/-- Gives up the oldest gap while more than `limit` indices are pending, for `n` rounds; a round takes one away. -/
def evict (limit : ℕ) : ℕ → ℤ → List ℤ → ℤ × List ℤ
  | 0, mark, pending => (mark, pending)
  | _ + 1, mark, [] => (mark, [])
  | n + 1, mark, p :: pending =>
    if limit < (p :: pending).length then
      let next := absorb p pending
      evict limit n next.1 next.2
    else (mark, p :: pending)

namespace GroupReplayWindow

def maxOutOfOrder : ℕ := 1024

def isReplay (w : GroupReplayWindow) (index : ℤ) : Bool := decide (index ≤ w.watermark) || w.seen.contains index

/-- The window once `index` is used; `none` is a replay. -/
def accept (w : GroupReplayWindow) (index : ℤ) : Option GroupReplayWindow :=
  if w.isReplay index then none
  else
    let pending := (index :: w.seen).dedup.insertionSort (· ≤ ·)
    let absorbed := absorb w.watermark pending
    let kept := evict maxOutOfOrder absorbed.2.length absorbed.1 absorbed.2
    some ⟨kept.1, kept.2⟩

end GroupReplayWindow

open GroupReplayWindow

def larger (index : ℤ) (accepted : List ℤ) : List ℤ := accepted.filter fun i => decide (index < i)

/-- The law of the window, with what it has accepted: what the watermark covers is accepted or has been given up. -/
structure Window (accepted : List ℤ) (mark : ℤ) (pending : List ℤ) : Prop where
  sorted : pending.Pairwise (· < ·)
  above : ∀ i ∈ pending, mark < i
  used : ∀ i ∈ pending, i ∈ accepted
  covered : ∀ i ∈ accepted, i ≤ mark ∨ i ∈ pending
  given : ∀ i, 0 ≤ i → i ≤ mark → i ∈ accepted ∨ maxOutOfOrder < (larger i accepted).length

section Window

variable {accepted pending : List ℤ} {mark p : ℤ}

theorem Window.advance (h : Window accepted mark (p :: pending))
    (hgap : ∀ i, mark < i → i < p → maxOutOfOrder < (larger i accepted).length) : Window accepted p pending where
  sorted := h.sorted.tail
  above _ hi := List.rel_of_pairwise_cons h.sorted hi
  used i hi := h.used i (List.mem_cons_of_mem p hi)
  covered i hi := by
    rcases h.covered i hi with hle | hmem
    · exact .inl (hle.trans (h.above p List.mem_cons_self).le)
    · rcases List.mem_cons.1 hmem with rfl | hmem
      · exact .inl le_rfl
      · exact .inr hmem
  given i h0 hi := by
    rcases lt_or_ge mark i with hgt | hle
    · rcases eq_or_lt_of_le hi with rfl | hlt
      · exact .inl (h.used i List.mem_cons_self)
      · exact .inr (hgap i hgt hlt)
    · exact h.given i h0 hle

theorem Window.absorb : ∀ {pending : List ℤ} {mark : ℤ}, Window accepted mark pending →
    Window accepted (absorb mark pending).1 (absorb mark pending).2
  | [], _, h => h
  | p :: pending, mark, h => by
    rw [Megolm.absorb]
    split
    · rename_i hp
      refine (h.advance fun i hgt hlt => ?_).absorb
      omega
    · exact h

theorem Window.length_le_larger (h : Window accepted mark pending) {i : ℤ} (hi : ∀ j ∈ pending, i < j) :
    pending.length ≤ (larger i accepted).length := by
  have hnodup : pending.Nodup := h.sorted.imp fun hlt => hlt.ne
  refine (List.subperm_of_subset hnodup fun j hj => ?_).length_le
  exact List.mem_filter.2 ⟨h.used j hj, decide_eq_true (hi j hj)⟩

theorem Window.evict : ∀ {n : ℕ} {pending : List ℤ} {mark : ℤ}, Window accepted mark pending → pending.length ≤ n →
    Window accepted (evict maxOutOfOrder n mark pending).1 (evict maxOutOfOrder n mark pending).2 ∧
      (evict maxOutOfOrder n mark pending).2.length ≤ maxOutOfOrder
  | 0, pending, _, h, hn => ⟨h, hn.trans (Nat.zero_le _)⟩
  | n + 1, [], _, h, _ => ⟨h, Nat.zero_le _⟩
  | n + 1, p :: pending, mark, h, hn => by
    rw [Megolm.evict]
    split
    · rename_i hlong
      have hgap : ∀ i, mark < i → i < p → maxOutOfOrder < (larger i accepted).length := by
        intro i _ hlt
        refine lt_of_lt_of_le hlong (h.length_le_larger fun j hj => ?_)
        rcases List.mem_cons.1 hj with rfl | hj
        · exact hlt
        · exact hlt.trans (List.rel_of_pairwise_cons h.sorted hj)
      exact (h.advance hgap).absorb.evict ((length_absorb pending p).trans (Nat.le_of_succ_le_succ hn))
    · rename_i hshort
      exact ⟨h, Nat.le_of_not_lt hshort⟩

theorem larger_cons (i index : ℤ) (accepted : List ℤ) :
    (larger i accepted).length ≤ (larger i (index :: accepted)).length := by
  rw [larger, larger, List.filter_cons]
  split
  · exact Nat.le_succ _
  · exact Nat.le_refl _

theorem Window.accept {w w' : GroupReplayWindow} {index : ℤ} (h : Window accepted w.watermark w.seen)
    (hw : w.accept index = some w') :
    index ∉ accepted ∧ Window (index :: accepted) w'.watermark w'.seen ∧ w'.seen.length ≤ maxOutOfOrder := by
  rw [GroupReplayWindow.accept] at hw
  split at hw
  · cases hw
  · rename_i hfresh
    obtain ⟨hmark, hseen⟩ : w.watermark < index ∧ index ∉ w.seen := by simpa [isReplay] using hfresh
    cases hw
    have hperm := List.perm_insertionSort (· ≤ ·) (index :: w.seen).dedup
    have hmem : ∀ i, i ∈ (index :: w.seen).dedup.insertionSort (· ≤ ·) ↔ i = index ∨ i ∈ w.seen := by
      intro i
      rw [hperm.mem_iff, List.mem_dedup, List.mem_cons]
    have hle := List.pairwise_insertionSort (· ≤ ·) (index :: w.seen).dedup
    have hpending : Window (index :: accepted) w.watermark ((index :: w.seen).dedup.insertionSort (· ≤ ·)) := by
      refine ⟨?_, fun i hi => ?_, fun i hi => ?_, fun i hi => ?_, fun i h0 hi => ?_⟩
      · refine (hle.and (hperm.nodup_iff.2 (List.nodup_dedup _))).imp fun hxy => ?_
        exact lt_of_le_of_ne hxy.1 hxy.2
      · rcases (hmem i).1 hi with rfl | hi
        · exact hmark
        · exact h.above i hi
      · exact List.mem_cons.2 (((hmem i).1 hi).imp_right (h.used i))
      · rcases List.mem_cons.1 hi with rfl | hi
        · exact .inr ((hmem i).2 (.inl rfl))
        · exact (h.covered i hi).imp_right fun hi => (hmem i).2 (.inr hi)
      · exact (h.given i h0 hi).imp (List.mem_cons_of_mem index) fun hlost =>
          hlost.trans_le (larger_cons i index accepted)
    refine ⟨fun hacc => ?_, hpending.absorb.evict le_rfl⟩
    rcases h.covered index hacc with hi | hi
    · omega
    · exact hseen hi

theorem Window.refused {w : GroupReplayWindow} {index : ℕ} (h : Window accepted w.watermark w.seen)
    (hw : w.accept index = none) : (index : ℤ) ∈ accepted ∨ maxOutOfOrder < (larger index accepted).length := by
  rw [GroupReplayWindow.accept] at hw
  split at hw
  · rename_i hreplay
    rw [isReplay, Bool.or_eq_true, decide_eq_true_eq, List.contains_iff_mem] at hreplay
    rcases hreplay with hle | hmem
    · exact h.given index (Int.natCast_nonneg index) hle
    · exact .inl (h.used index hmem)
  · cases hw

end Window

/-- What the Megolm library does: a session key is opened, a message is decrypted at its index. -/
structure Library (ν π : Type) where
  inboundGroupSession : ν → Option (ν × π)
  decrypt : π → ν → Option (ℕ × ν × π)

structure InboundGroupSession (π : Type) where
  pickle : π
  highestMessageIndex : ℤ
  seenMessageIndexes : List ℤ

def InboundGroupSession.window {π : Type} (r : InboundGroupSession π) : GroupReplayWindow :=
  ⟨r.highestMessageIndex, r.seenMessageIndexes⟩

structure SessionKey (ν : Type) where
  groupId : ν
  senderId : ν
  sessionId : ν
deriving DecidableEq

/-- The inbound sessions; as a ghost, the indices that each has accepted since it was stored. -/
structure Store (ν π : Type) where
  sessions : SessionKey ν → Option (InboundGroupSession π)
  accepted : SessionKey ν → List ℤ

inductive Refusal where
  | unknownSession
  | undecryptable
  | replay
deriving DecidableEq

inductive Call (ν : Type) where
  | acceptGroupSessionKey (groupId senderId sessionKey : ν)
  | decryptGroupMessage (key : SessionKey ν) (message : ν)
  | deleteGroupSessions (groupId : ν)

namespace Store

open Runs

variable {ν π : Type} [DecidableEq ν] (L : Library ν π)

def init : Store ν π := ⟨fun _ => none, fun _ => []⟩

def upsert (key : SessionKey ν) (r : InboundGroupSession π) (accepted : List ℤ) (s : Store ν π) : Store ν π :=
  ⟨Function.update s.sessions key (some r), Function.update s.accepted key accepted⟩

/-- `acceptGroupSessionKey`: a session that is stored keeps what it has seen. -/
def acceptGroupSessionKey (groupId senderId sessionKey : ν) (s : Store ν π) : Store ν π :=
  match L.inboundGroupSession sessionKey with
  | none => s
  | some (sessionId, pickle) =>
    let key : SessionKey ν := ⟨groupId, senderId, sessionId⟩
    match s.sessions key with
    | some _ => s
    | none => s.upsert key ⟨pickle, -1, []⟩ []

def decryptGroupMessage (key : SessionKey ν) (message : ν) (s : Store ν π) : Except Refusal (ν × Store ν π) :=
  match s.sessions key with
  | none => .error .unknownSession
  | some stored =>
    match L.decrypt stored.pickle message with
    | none => .error .undecryptable
    | some (index, plaintext, pickle) =>
      match stored.window.accept index with
      | none => .error .replay
      | some next =>
        .ok (plaintext, s.upsert key ⟨pickle, next.watermark, next.seen⟩ ((index : ℤ) :: s.accepted key))

def deleteGroupSessions (groupId : ν) (s : Store ν π) : Store ν π :=
  { s with sessions := fun key => if key.groupId = groupId then none else s.sessions key }

def step (s : Store ν π) : Call ν → Option (Store ν π)
  | .acceptGroupSessionKey groupId senderId sessionKey => some (s.acceptGroupSessionKey L groupId senderId sessionKey)
  | .decryptGroupMessage key message =>
    match s.decryptGroupMessage L key message with
    | .ok (_, s') => some s'
    | .error _ => some s
  | .deleteGroupSessions groupId => some (s.deleteGroupSessions groupId)

def Exact (accepted : List ℤ) (r : InboundGroupSession π) : Prop :=
  Window accepted r.highestMessageIndex r.seenMessageIndexes ∧ accepted.Nodup ∧
    r.seenMessageIndexes.length ≤ maxOutOfOrder

def Kept (s : Store ν π) : Prop := ∀ key r, s.sessions key = some r → Exact (s.accepted key) r

variable {L}

theorem Kept.upsert {s : Store ν π} (h : Kept s) {key : SessionKey ν} {r : InboundGroupSession π} {accepted : List ℤ}
    (hr : Exact accepted r) : Kept (s.upsert key r accepted) := by
  intro key' r' hr'
  rw [Store.upsert] at hr' ⊢
  by_cases hkey : key' = key
  · subst hkey
    simp only [Function.update_self, Option.some.injEq] at hr' ⊢
    exact hr' ▸ hr
  · simp only [Function.update_of_ne hkey] at hr' ⊢
    exact h key' r' hr'

theorem Kept.acceptGroupSessionKey {s : Store ν π} (h : Kept s) (groupId senderId sessionKey : ν) :
    Kept (s.acceptGroupSessionKey L groupId senderId sessionKey) := by
  rw [Store.acceptGroupSessionKey]
  split
  · exact h
  · rename_i sessionId pickle _
    dsimp only
    split
    · exact h
    · refine h.upsert ⟨⟨List.Pairwise.nil, nofun, nofun, nofun, fun i h0 hi => ?_⟩, List.nodup_nil, Nat.zero_le _⟩
      have hneg : (0 : ℤ) ≤ -1 := h0.trans hi
      exact absurd hneg (by decide)

theorem Kept.decryptGroupMessage {s s' : Store ν π} (h : Kept s) {key : SessionKey ν} {message plaintext : ν}
    (hs : s.decryptGroupMessage L key message = .ok (plaintext, s')) : Kept s' := by
  rw [Store.decryptGroupMessage] at hs
  split at hs
  · cases hs
  · rename_i stored hstored
    split at hs
    · cases hs
    · rename_i index _ pickle _
      split at hs
      · cases hs
      · rename_i next hnext
        cases hs
        obtain ⟨hwindow, hnodup, -⟩ := h key stored hstored
        obtain ⟨hnew, hwindow, hlength⟩ := Window.accept (w := stored.window) hwindow hnext
        exact h.upsert ⟨hwindow, List.nodup_cons.2 ⟨hnew, hnodup⟩, hlength⟩

theorem kept_step (s : Store ν π) (c : Call ν) (s' : Store ν π) (h : Kept s) (hs : s.step L c = some s') : Kept s' := by
  cases c with
  | acceptGroupSessionKey groupId senderId sessionKey =>
    cases hs
    exact h.acceptGroupSessionKey groupId senderId sessionKey
  | decryptGroupMessage key message =>
    simp only [step] at hs
    split at hs
    · rename_i hd
      cases hs
      exact h.decryptGroupMessage hd
    · cases hs
      exact h
  | deleteGroupSessions groupId =>
    cases hs
    intro key r hr
    simp only [deleteGroupSessions] at hr
    split at hr
    · cases hr
    · exact h key r hr

variable (L)

/-- **Replay protection is exact**: of every stored session an index is accepted once at most, and refused unaccepted
only after more than `maxOutOfOrder` larger ones; the kept indices are strictly increasing, above the
watermark and at most `maxOutOfOrder`. -/
theorem replay_run {s : Store ν π} {calls : List (Call ν)} (hr : run (step L) init calls = some s) {key : SessionKey ν}
    {r : InboundGroupSession π} (hsession : s.sessions key = some r) :
    (s.accepted key).Nodup ∧
    (∀ message index plaintext pickle, L.decrypt r.pickle message = some (index, plaintext, pickle) →
      ((index : ℤ) ∈ s.accepted key → s.decryptGroupMessage L key message = .error .replay) ∧
      ((index : ℤ) ∉ s.accepted key → s.decryptGroupMessage L key message = .error .replay →
        1025 ≤ (larger index (s.accepted key)).length)) ∧
    r.seenMessageIndexes.Pairwise (· < ·) ∧ (∀ i ∈ r.seenMessageIndexes, r.highestMessageIndex < i) ∧
    r.seenMessageIndexes.length ≤ 1024 := by
  obtain ⟨hwindow, hnodup, hlength⟩ := run_invariant Kept kept_step (fun _ _ h => by cases h) hr key r hsession
  refine ⟨hnodup, fun message index plaintext pickle hd => ?_, hwindow.sorted, hwindow.above, hlength⟩
  have hcall : s.decryptGroupMessage L key message = match r.window.accept index with
      | none => .error .replay
      | some next =>
        .ok (plaintext, s.upsert key ⟨pickle, next.watermark, next.seen⟩ ((index : ℤ) :: s.accepted key)) := by
    rw [decryptGroupMessage, hsession]
    dsimp only
    rw [hd]
  rw [hcall]
  cases ha : r.window.accept index with
  | none =>
    refine ⟨fun _ => rfl, fun hnew _ => ?_⟩
    exact (Window.refused (w := r.window) hwindow ha).resolve_left hnew
  | some next => exact ⟨fun hused => absurd hused (Window.accept (w := r.window) hwindow ha).1, fun _ h => nomatch h⟩

def sampleLibrary : Library ℕ ℕ := ⟨fun k => some (k, k), fun pickle m => some (m, m, pickle)⟩

/-- A message ahead of its turn, the first one, and a second time each. -/
theorem replay_outOfOrder :
    ∃ s, run (step sampleLibrary) init [.acceptGroupSessionKey 1 2 3, .decryptGroupMessage ⟨1, 2, 3⟩ 5,
        .decryptGroupMessage ⟨1, 2, 3⟩ 0, .decryptGroupMessage ⟨1, 2, 3⟩ 5, .acceptGroupSessionKey 1 2 3] = some s ∧
      s.accepted ⟨1, 2, 3⟩ = [0, 5] ∧ s.decryptGroupMessage sampleLibrary ⟨1, 2, 3⟩ 5 = .error .replay := by
  have hex : ∃ s, run (step sampleLibrary) init [.acceptGroupSessionKey 1 2 3, .decryptGroupMessage ⟨1, 2, 3⟩ 5,
      .decryptGroupMessage ⟨1, 2, 3⟩ 0, .decryptGroupMessage ⟨1, 2, 3⟩ 5, .acceptGroupSessionKey 1 2 3] = some s ∧
      (s.accepted ⟨1, 2, 3⟩ = [0, 5] ∧ (s.sessions ⟨1, 2, 3⟩).isSome = true) := exists_run _ _ _ (by decide +kernel)
  obtain ⟨s, hr, haccepted, hsession⟩ := hex
  obtain ⟨r, hsession⟩ := Option.isSome_iff_exists.1 hsession
  refine ⟨s, hr, haccepted, ((replay_run sampleLibrary hr hsession).2.1 5 5 5 r.pickle rfl).1 ?_⟩
  rw [haccepted]
  decide

end Store

end Megolm
end SecureChat
