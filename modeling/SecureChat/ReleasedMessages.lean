import SecureChat.PeerSessionCalls
/-!
# ReleasedMessages — a ciphertext is returned after its session was written

`released_run` is about every run, with the process stopping at any time: every ciphertext that was returned belongs to
a session whose successor was written, and no two of them have the same message key.  A ciphertext that is not returned
is another matter: where its session is not written, the next plaintext is encrypted with the same key.
-/
namespace SecureChat
namespace PeerSessions

open Async
open GroupControl (Text)

section Released

variable {A S G : Type} {V : Ratchets A S G} {strict : Prop} {d : Device A S G}

theorem Device.Good.eq_of_key (h : d.Good V strict) {e e' : Release S G} (he : e ∈ d.returned) (he' : e' ∈ d.returned)
    (hk : e.key V = e'.key V) : e = e' :=
  List.inj_on_of_nodup_map h.sound.once (h.returned e he) (h.returned e' he') hk

/-- **Persist before release.** -/
theorem released_run (hV : V.Lawful) {q : State A S G} {ls : List (Pool.Label Event (Option Answer))}
    (hr : Runs.run (tasks V).step ⟨{}, []⟩ ls = some q) :
    (∀ e ∈ q.shared.returned, e.Persisted V q.shared) ∧
      ∀ e ∈ q.shared.returned, ∀ e' ∈ q.shared.returned, e.key V = e'.key V → e.plaintext = e'.plaintext := by
  have hm : Runs.Meets (tasks V).step (Pool.Moves (Tasks.Orderly (rules V False))) ⟨{}, []⟩ ls := by
    refine Runs.meets_of_forall (fun p l => ?_) _ ls
    cases l with
    | start e => trivial
    | step i answer =>
      intro t _
      cases t with
      | called e => exact False.elim
      | running x =>
        cases x with
        | await => exact False.elim
        | pure | throw | sync => trivial
  have hgood := (kept_run hV hm hr).good
  exact ⟨fun e he => hgood.persisted e (hgood.returned e he), fun e he e' he' hk =>
    congrArg Release.plaintext (hgood.eq_of_key he he' hk)⟩

end Released

/-! ## A library -/

structure PlainSession where
  id : ℕ
  chain : Option ℕ
  index : ℕ
deriving DecidableEq

namespace PlainSession

def key (draw : ℕ) (s : PlainSession) : ℕ × ℕ :=
  match s.chain with
  | some c => (c, s.index)
  | none => (draw, 0)

def advance (k : ℕ × ℕ) (s : PlainSession) : PlainSession := ⟨s.id, some k.1, k.2 + 1⟩

end PlainSession

def sealWith (k : ℕ × ℕ) (plaintext : Text) : Text :=
  List.replicate k.1 'c' ++ List.replicate k.2 'i' ++ ':' :: plaintext

def plain : Ratchets ℕ PlainSession PlainSession where
  createAccount draw := draw
  identityKeys _ := ⟨"local-ed".toList, "local-curve".toList⟩
  createOutboundSession _ _ _ draw := .ok ⟨draw, some draw, 0⟩
  createInboundSession _ _ _ := .error .invalidMessage
  sessionId s := List.replicate s.id 's'
  encrypt draw plaintext s := (s.advance (s.key draw), ⟨.preKey, sealWith (s.key draw) plaintext⟩)
  decrypt _ _ := .error .invalidMessage
  createGroupSession draw := ⟨draw, some draw, 0⟩
  groupSessionId s := List.replicate s.id 'g'
  sessionKey s := List.replicate s.id 'k'
  encryptGroup plaintext s := (s.advance (s.key 0), sealWith (s.key 0) plaintext)
  groupRoutingToken groupId := groupId
  position s := ⟨s.chain, s.index⟩
  groupChain s := (s.key 0).1
  groupIndex s := (s.key 0).2

theorem plain_lawful : plain.Lawful where
  outbound h := by
    cases h
    rfl
  inbound h := by cases h
  encrypt draw t s := by
    show (⟨some (s.key draw).1, (s.key draw).2 + 1⟩ : Position) = _
    unfold PlainSession.key Ratchets.nextKey
    rfl
  decrypt h := by cases h
  group draw := rfl
  encryptGroup t s := rfl

section Sample

def sampleIdentity : Identity := ⟨"bob-ed".toList, "bob-curve".toList⟩

def sampleBundle : OlmPreKeyBundle := ⟨sampleIdentity, "bob-one-time".toList⟩

def go (i : ℕ) : Pool.Label Event (Option Answer) := .step i (some ⟨some sampleBundle, 0⟩)

def refuse (i : ℕ) : Pool.Label Event (Option Answer) := .step i none

def firstSent : List (Pool.Label Event (Option Answer)) :=
  .start (.encryptDirect "bob".toList "one".toList) :: List.replicate 15 (go 0)

theorem released_firstSent : ∃ q : State ℕ PlainSession PlainSession,
    Runs.run (tasks plain).step ⟨{}, []⟩ firstSent = some q ∧ q.shared.returned.length = 1 ∧
      ∀ e ∈ q.shared.returned, e.Persisted plain q.shared := by
  obtain ⟨q, hr, hlen⟩ : ∃ q, Runs.run (tasks plain).step ⟨{}, []⟩ firstSent = some q ∧ q.shared.returned.length = 1 :=
    Runs.exists_run _ _ (fun q : State ℕ PlainSession PlainSession => q.shared.returned.length = 1) (by decide +kernel)
  exact ⟨q, hr, hlen, (released_run plain_lawful hr).1⟩

def firstLost : List (Pool.Label Event (Option Answer)) :=
  .start (.encryptDirect "bob".toList "one".toList) :: List.replicate 12 (go 0) ++ [refuse 0] ++
    .start (.encryptDirect "bob".toList "two".toList) :: List.replicate 8 (go 1)

/-- **Two plaintexts are encrypted with one message key** where the first ciphertext is not returned. -/
theorem lost_key_returns : ¬ ∀ (A S G : Type) (V : Ratchets A S G), V.Lawful →
    ∀ (ls : List (Pool.Label Event (Option Answer))) (q : State A S G),
      Runs.run (tasks V).step ⟨{}, []⟩ ls = some q → ∀ e ∈ q.shared.encrypted, ∀ e' ∈ q.shared.encrypted,
        e.key V = e'.key V → e.plaintext = e'.plaintext := by
  intro h
  obtain ⟨q, hr, e, he, e', he', hk, hne⟩ : ∃ q, Runs.run (tasks plain).step ⟨{}, []⟩ firstLost = some q ∧
      ∃ e ∈ q.shared.encrypted, ∃ e' ∈ q.shared.encrypted, e.key plain = e'.key plain ∧ e.plaintext ≠ e'.plaintext :=
    Runs.exists_run _ _ (fun q : State ℕ PlainSession PlainSession => ∃ e ∈ q.shared.encrypted,
      ∃ e' ∈ q.shared.encrypted, e.key plain = e'.key plain ∧ e.plaintext ≠ e'.plaintext) (by decide +kernel)
  exact hne (h _ _ _ plain plain_lawful firstLost q hr e he e' he' hk)

end Sample

end PeerSessions
end SecureChat
