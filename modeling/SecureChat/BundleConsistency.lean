import SecureChat.PreKeyHandout
/-!
# BundleConsistency — the keys of one bundle are of one generation

Each statement of a fetch reads keys of the account's generation at that moment.  So a bundle is of one generation
exactly as long as no replacement commits between the identity and a later statement that finds a key.
-/
namespace SecureChat
namespace PreKeys

open Runs

variable {ι κ : Type} {F : Format ι κ}

/-- **All keys of the bundle belong to one generation.** -/
def Bundle.Consistent (b : Bundle ι κ) : Prop :=
  b.signingKey.generation = b.identityKey.generation ∧
  (∀ k ∈ b.oneTimeKey, k.generation = b.identityKey.generation) ∧
  ∀ k ∈ b.fallbackKey, k.generation = b.identityKey.generation

def Fetch.Consistent : Fetch ι κ → Prop
  | .idle | .identity | .done none => True
  | .oneTimeKey ik sk => sk.generation = ik.generation
  | .fallback ik sk key => sk.generation = ik.generation ∧ ∀ k ∈ key, k.generation = ik.generation
  | .done (some b) => b.Consistent

namespace State

variable {s : State ι κ}

/-- Each call of `fetchBundle` is consistent. -/
def Consistent (s : State ι κ) : Prop := ∀ j, (s.fetches j).Consistent

theorem Consistent.setFetch (h : s.Consistent) {j : ℕ} {f : Fetch ι κ} (hf : f.Consistent) :
    (s.setFetch j f).Consistent := by
  intro l
  show (Function.update s.fetches j f l).Consistent
  by_cases hl : l = j
  · subst hl
    rw [Function.update_self]
    exact hf
  · rw [Function.update_of_ne hl]
    exact h l

variable [DecidableEq ι]

def finds (j : ℕ) (locked : List ι) (s : State ι κ) : Bool :=
  match s.fetches j with
  | .oneTimeKey .. => (s.account.nextKey locked).isSome
  | .fallback .. => s.account.fallbackKey.isSome
  | _ => false

/-- **The condition under which bundles are consistent**: a statement after the identity's that finds a key runs in the
generation the identity was read in. -/
def SameGeneration (s : State ι κ) : Event ι κ → Prop
  | .read j locked => s.finds j locked = true → ∀ g ∈ (s.fetches j).generation, g = s.account.generation
  | _ => True

instance (s : State ι κ) : ∀ e, Decidable (s.SameGeneration e)
  | .read j locked => inferInstanceAs (Decidable
    (s.finds j locked = true → ∀ g ∈ (s.fetches j).generation, g = s.account.generation))
  | .upload .. | .advance _ | .miscount _ | .abort _ | .fetch _ | .fail _ | .replace _ | .rotate =>
    inferInstanceAs (Decidable True)

theorem consistent_read (h : s.Consistent) (hv : s.Inv) {j : ℕ} {locked : List ι} {s' : State ι κ}
    (hok : s.SameGeneration (.read j locked)) (hs : Read s locked j s') : s'.Consistent := by
  have hj' := h j
  cases hs with
  | identity ik sk hj hi hsk =>
    refine h.setFetch ?_
    show sk.generation = ik.generation
    rw [hv.tags.signing sk hsk, hv.tags.identity ik hi]
  | nobody | nothing => exact h.setFetch trivial
  | empty ik sk hj =>
    rw [hj] at hj'
    exact h.setFetch ⟨hj', nofun⟩
  | consume ik sk row hj hr =>
    rw [hj] at hj'
    have hg : ik.generation = s.account.generation :=
      hok (by simp only [finds, hj, hr, Option.isSome_some]) _ (by rw [hj]; rfl)
    refine Consistent.setFetch (s := { s with account := _, consumed := _ }) h ⟨hj', fun k hk => ?_⟩
    cases hk
    rw [hg]
    exact hv.tags.pool row (mem_of_nextKey hr)
  | bundle ik sk key hj =>
    rw [hj] at hj'
    refine h.setFetch ⟨hj'.1, hj'.2, fun k hk => ?_⟩
    have hk : s.account.fallbackKey = some k := hk
    have hg : ik.generation = s.account.generation :=
      hok (by simp only [finds, hj, hk, Option.isSome_some]) _ (by rw [hj]; rfl)
    show k.generation = ik.generation
    rw [hg]
    exact hv.tags.fallback k hk

variable [DecidableEq κ]

theorem consistent_step (s : State ι κ) (e : Event ι κ) (s' : State ι κ) (h : s.Consistent) (hv : s.Inv)
    (hok : s.SameGeneration e) (hs : step F s e = some s') : s'.Consistent := by
  cases step_cases hs with
  | upload | advance | miscount | abort | replace | rotate => exact h
  | fetch | fail => exact h.setFetch trivial
  | read hread => exact consistent_read h hv hok hread

end State

/-- **Every bundle returned is of one generation**, in every run whose steps meet the condition. -/
theorem bundle_run [DecidableEq ι] [DecidableEq κ] {s : State ι κ} {es : List (Event ι κ)}
    (hr : run (State.step F) State.init es = some s)
    (hm : Meets (State.step F) State.SameGeneration State.init es) {j : ℕ} {b : Bundle ι κ}
    (hj : s.fetches j = .done (some b)) : b.Consistent := by
  have h : s.Inv ∧ s.Consistent := Meets.invariant (fun s => s.Inv ∧ s.Consistent)
    (fun s e s' h hok hs => ⟨State.inv_step s e s' h.1 hs, State.consistent_step s e s' h.2 h.1 hok hs⟩)
    ⟨State.inv_init, fun _ => trivial⟩ hm hr
  have hb := h.2 j
  rw [hj] at hb
  exact hb

/-- The new identity `(11, 12)` after a replacement that pinned `12`. -/
def secondRequest : PreKeyUploadRequest ℕ ℕ := ⟨11, 12, some ⟨13, 1013⟩, [⟨15, 17⟩]⟩

def replacedBeforeFetch : List (Event ℕ ℕ) :=
  .flatten [uploadCall 0 firstRequest 0, [.fetch 0, .replace 12], uploadCall 1 secondRequest 1,
    List.replicate 3 (.read 0 [])]

theorem bundle_replacedBeforeFetch : ∃ s : State ℕ ℕ,
    run (State.step plainFormat) State.init replacedBeforeFetch = some s ∧
    ∀ b, s.fetches 0 = .done (some b) → b.Consistent := by
  obtain ⟨s, hs, -⟩ : ∃ s : State ℕ ℕ, run (State.step plainFormat) State.init replacedBeforeFetch = some s ∧
      s.fetches 0 = .done (some ⟨⟨11, 1⟩, ⟨12, 1⟩, some ⟨⟨15, 17⟩, 1⟩, some ⟨⟨13, 1013⟩, 1⟩⟩) :=
    exists_run _ _ _ (by decide +kernel)
  exact ⟨s, hs, fun b hb => bundle_run hs (by decide +kernel) hb⟩

/-- The replacement and the next uploads fall between the identity statement and the next one. -/
def replacedDuringFetch : List (Event ℕ ℕ) :=
  .flatten [uploadCall 0 firstRequest 0, [.fetch 0, .read 0 [], .replace 12], uploadCall 1 secondRequest 1,
    List.replicate 2 (.read 0 [])]

/-- **A bundle with the old identity and the new one-time and fallback keys.** -/
theorem bundle_mixed : ∃ s : State ℕ ℕ,
    run (State.step plainFormat) State.init replacedDuringFetch = some s ∧
    s.fetches 0 = .done (some ⟨⟨1, 0⟩, ⟨2, 0⟩, some ⟨⟨15, 17⟩, 1⟩, some ⟨⟨13, 1013⟩, 1⟩⟩) ∧
    ¬ Bundle.Consistent (⟨⟨1, 0⟩, ⟨2, 0⟩, some ⟨⟨15, 17⟩, 1⟩, some ⟨⟨13, 1013⟩, 1⟩⟩ : Bundle ℕ ℕ) := by
  obtain ⟨s, hs, hf⟩ : ∃ s : State ℕ ℕ, run (State.step plainFormat) State.init replacedDuringFetch = some s ∧
      s.fetches 0 = .done (some ⟨⟨1, 0⟩, ⟨2, 0⟩, some ⟨⟨15, 17⟩, 1⟩, some ⟨⟨13, 1013⟩, 1⟩⟩) :=
    exists_run _ _ _ (by decide +kernel)
  refine ⟨s, hs, hf, fun h => ?_⟩
  have := h.2.1 _ rfl
  cases this

end PreKeys
end SecureChat
