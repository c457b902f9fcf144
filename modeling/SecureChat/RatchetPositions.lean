import Mathlib.Data.List.Nodup
import Mathlib.Logic.Function.Basic
/-!
# RatchetPositions — message keys that are used once

A ratchet is at a position: the chain that it sends on, if it has begun one, and the index of its next message key.  A
store keeps ratchets under keys `κ`, each guarded by a lock `ω`.  A chain is named by the number of the random value that
began it, and every value is drawn under a lock.

`Sound` says that no message key has been used twice, as every ratchet is beyond those of its chain.  `Move` is what an
operation makes of the ratchet at one key, and `Sound.move` and `Fresh.move` are what it leaves, to itself and to those
that hold another lock.
-/
namespace SecureChat

structure Position where
  chain : Option ℕ
  index : ℕ
deriving DecidableEq

namespace Position

variable {κ ω : Type} {owner : κ → ω} {pos pos' : κ → Option Position} {drawn : List ω} {used : List (ℕ × ℕ)} {l : ω}
  {r : ℕ} {k : κ} {p : Position}

structure Sound (owner : κ → ω) (pos : κ → Option Position) (drawn : List ω) (used : List (ℕ × ℕ)) : Prop where
  owned : ∀ k p c, pos k = some p → p.chain = some c → drawn[c]? = some (owner k)
  apart : ∀ k k' p p' c, pos k = some p → pos k' = some p' → p.chain = some c → p'.chain = some c → k = k'
  known : ∀ u ∈ used, u.1 < drawn.length
  beyond : ∀ u ∈ used, ∀ k p, pos k = some p → p.chain = some u.1 → u.2 < p.index
  once : used.Nodup

structure Fresh (pos : κ → Option Position) (drawn : List ω) (used : List (ℕ × ℕ)) (l : ω) (r : ℕ) : Prop where
  drawn : drawn[r]? = some l
  unheld : ∀ k p, pos k = some p → p.chain ≠ some r
  unused : ∀ u ∈ used, u.1 ≠ r

/-- What becomes of the ratchet at a key, with the message key that is used. -/
inductive Move (fresh : ℕ → Prop) : Option Position → Position → Option (ℕ × ℕ) → Prop
  | keep (p : Position) : Move fresh (some p) p none
  | rest {before : Option Position} (p : Position) : p.chain = none → Move fresh before p none
  | begin {before : Option Position} (r : ℕ) : fresh r → Move fresh before ⟨some r, 0⟩ none
  | first {before : Option Position} (r : ℕ) : fresh r → Move fresh before ⟨some r, 1⟩ (some (r, 0))
  | next (c i : ℕ) : Move fresh (some ⟨some c, i⟩) ⟨some c, i + 1⟩ (some (c, i))

theorem sound_empty (owner : κ → ω) : Sound owner (fun _ => none) [] [] where
  owned _ _ _ h := by cases h
  apart _ _ _ _ _ h := by cases h
  known _ h := by cases h
  beyond _ h := by cases h
  once := List.nodup_nil

theorem Sound.mono (h : Sound owner pos drawn used) (hsub : ∀ k p, pos' k = some p → pos k = some p) :
    Sound owner pos' drawn used where
  owned k p c hp := h.owned k p c (hsub k p hp)
  apart k k' p p' c hp hp' := h.apart k k' p p' c (hsub k p hp) (hsub k' p' hp')
  known := h.known
  beyond u hu k p hp := h.beyond u hu k p (hsub k p hp)
  once := h.once

theorem Fresh.mono (h : Fresh pos drawn used l r) (hsub : ∀ k p, pos' k = some p → pos k = some p) :
    Fresh pos' drawn used l r := ⟨h.drawn, fun k p hp => h.unheld k p (hsub k p hp), h.unused⟩

theorem getElem?_append_drawn {c : ℕ} {l' : ω} (h : drawn[c]? = some l') : (drawn ++ [l])[c]? = some l' := by
  have hlt : c < drawn.length := (List.getElem?_eq_some_iff.1 h).1
  rw [List.getElem?_append_left hlt, h]

theorem Sound.draw (h : Sound owner pos drawn used) (l : ω) : Sound owner pos (drawn ++ [l]) used where
  owned k p c hp hc := getElem?_append_drawn (h.owned k p c hp hc)
  apart := h.apart
  known u hu := by
    rw [List.length_append]
    exact Nat.lt_add_right _ (h.known u hu)
  beyond := h.beyond
  once := h.once

theorem Fresh.draw {l' : ω} (h : Fresh pos drawn used l r) : Fresh pos (drawn ++ [l']) used l r :=
  ⟨getElem?_append_drawn h.drawn, h.unheld, h.unused⟩

theorem Sound.fresh_draw (h : Sound owner pos drawn used) (l : ω) :
    Fresh pos (drawn ++ [l]) used l drawn.length where
  drawn := List.getElem?_concat_length
  unheld k p hp hc := by
    obtain ⟨hlt, -⟩ := List.getElem?_eq_some_iff.1 (h.owned k p _ hp hc)
    exact Nat.lt_irrefl _ hlt
  unused u hu he := by
    have hlt := h.known u hu
    rw [he] at hlt
    exact Nat.lt_irrefl _ hlt

theorem Move.imp {fresh fresh' : ℕ → Prop} {before : Option Position} {u : Option (ℕ × ℕ)}
    (hm : Move fresh before p u) (hf : ∀ r, fresh r → fresh' r) : Move fresh' before p u := by
  cases hm with
  | keep => exact .keep p
  | rest _ hp => exact .rest p hp
  | begin r hr => exact .begin r (hf r hr)
  | first r hr => exact .first r (hf r hr)
  | next c i => exact .next c i

section Moves

variable {before : Option Position} {u : Option (ℕ × ℕ)}

theorem Move.chain_eq (hm : Move (Fresh pos drawn used (owner k)) before p u) (h : Sound owner pos drawn used)
    (hb : ∀ b, before = some b → pos k = some b) {c : ℕ} (hc : p.chain = some c) :
    drawn[c]? = some (owner k) ∧ (∀ k' p', pos k' = some p' → p'.chain = some c → k' = k) ∧
      ∀ v ∈ used, v.1 = c → v.2 < p.index := by
  have hself : ∀ b, pos k = some b → b.chain = some c → drawn[c]? = some (owner k) ∧
      (∀ k' p', pos k' = some p' → p'.chain = some c → k' = k) ∧ ∀ v ∈ used, v.1 = c → v.2 < b.index := by
    intro b hpos hbc
    refine ⟨h.owned k b c hpos hbc, fun k' p' hp' hc' => h.apart k' k p' b c hp' hpos hc' hbc, fun v hv hvc => ?_⟩
    exact h.beyond v hv k b hpos (hbc.trans (congrArg some hvc.symm))
  have hfresh : ∀ r, Fresh pos drawn used (owner k) r → r = c → drawn[c]? = some (owner k) ∧
      (∀ k' p', pos k' = some p' → p'.chain = some c → k' = k) ∧ ∀ v ∈ used, v.1 = c → v.2 < p.index := by
    rintro r hr rfl
    exact ⟨hr.drawn, fun k' p' hp' hc' => absurd hc' (hr.unheld k' p' hp'), fun v hv hvc => absurd hvc (hr.unused v hv)⟩
  cases hm with
  | keep => exact hself p (hb p rfl) hc
  | rest _ hp =>
    rw [hp] at hc
    cases hc
  | begin r hr => exact hfresh r hr (Option.some_inj.1 hc)
  | first r hr => exact hfresh r hr (Option.some_inj.1 hc)
  | next c' i =>
    obtain ⟨hd, hk, hv⟩ := hself ⟨some c', i⟩ (hb _ rfl) hc
    exact ⟨hd, hk, fun v hvm hvc => Nat.lt_succ_of_lt (hv v hvm hvc)⟩

theorem Move.used_eq (hm : Move (Fresh pos drawn used (owner k)) before p u) (h : Sound owner pos drawn used)
    (hb : ∀ b, before = some b → pos k = some b) {v : ℕ × ℕ} (hv : u = some v) :
    v ∉ used ∧ p.chain = some v.1 ∧ v.2 < p.index := by
  cases hm with
  | keep | rest | begin => cases hv
  | first r hr =>
    cases hv
    exact ⟨fun hmem => hr.unused _ hmem rfl, rfl, Nat.lt_succ_self 0⟩
  | next c i =>
    cases hv
    refine ⟨fun hmem => ?_, rfl, Nat.lt_succ_self i⟩
    exact Nat.lt_irrefl _ (h.beyond _ hmem k ⟨some c, i⟩ (hb _ rfl) rfl)

theorem Sound.move [DecidableEq κ] (h : Sound owner pos drawn used) (hb : ∀ b, before = some b → pos k = some b)
    (hm : Move (Fresh pos drawn used (owner k)) before p u) :
    Sound owner (Function.update pos k (some p)) drawn (used ++ u.toList) := by
  have hget : ∀ k' p', Function.update pos k (some p) k' = some p' → k' = k ∧ p' = p ∨ k' ≠ k ∧ pos k' = some p' := by
    intro k' p' hp'
    by_cases hk : k' = k
    · subst hk
      rw [Function.update_self] at hp'
      exact .inl ⟨rfl, (Option.some_inj.1 hp').symm⟩
    · rw [Function.update_of_ne hk] at hp'
      exact .inr ⟨hk, hp'⟩
  refine ⟨fun k' p' c hp' hc => ?_, fun k₁ k₂ p₁ p₂ c h₁ h₂ hc₁ hc₂ => ?_, fun v hv => ?_, fun v hv k' p' hp' hc => ?_,
    ?_⟩
  · rcases hget k' p' hp' with ⟨rfl, rfl⟩ | ⟨-, hold⟩
    · exact (hm.chain_eq h hb hc).1
    · exact h.owned k' p' c hold hc
  · rcases hget k₁ p₁ h₁ with ⟨rfl, rfl⟩ | ⟨-, hold₁⟩
    · rcases hget k₂ p₂ h₂ with ⟨rfl, rfl⟩ | ⟨-, hold₂⟩
      · rfl
      · exact ((hm.chain_eq h hb hc₁).2.1 k₂ p₂ hold₂ hc₂).symm
    · rcases hget k₂ p₂ h₂ with ⟨rfl, rfl⟩ | ⟨-, hold₂⟩
      · exact (hm.chain_eq h hb hc₂).2.1 k₁ p₁ hold₁ hc₁
      · exact h.apart k₁ k₂ p₁ p₂ c hold₁ hold₂ hc₁ hc₂
  · rcases List.mem_append.1 hv with hold | hnew
    · exact h.known v hold
    · obtain ⟨-, hc, -⟩ := hm.used_eq h hb (Option.mem_toList.1 hnew)
      exact (List.getElem?_eq_some_iff.1 (hm.chain_eq h hb hc).1).1
  · rcases List.mem_append.1 hv with hold | hnew
    · rcases hget k' p' hp' with ⟨rfl, rfl⟩ | ⟨-, hpos⟩
      · exact (hm.chain_eq h hb hc).2.2 v hold rfl
      · exact h.beyond v hold k' p' hpos hc
    · obtain ⟨-, hchain, hlt⟩ := hm.used_eq h hb (Option.mem_toList.1 hnew)
      rcases hget k' p' hp' with ⟨rfl, rfl⟩ | ⟨hk, hpos⟩
      · exact hlt
      · exact absurd ((hm.chain_eq h hb hchain).2.1 k' p' hpos hc) hk
  · cases hu : u with
    | none => simpa using h.once
    | some v =>
      rw [Option.toList_some, List.nodup_append]
      refine ⟨h.once, List.nodup_singleton v, fun a ha b hb' => ?_⟩
      rw [List.mem_singleton.1 hb']
      rintro rfl
      exact (hm.used_eq h hb hu).1 ha

theorem Fresh.move [DecidableEq κ] (hf : Fresh pos drawn used l r) (hl : l ≠ owner k) (h : Sound owner pos drawn used)
    (hb : ∀ b, before = some b → pos k = some b) (hm : Move (Fresh pos drawn used (owner k)) before p u) :
    Fresh (Function.update pos k (some p)) drawn (used ++ u.toList) l r := by
  have hchain : p.chain ≠ some r := by
    intro hc
    have howner := (hm.chain_eq h hb hc).1
    rw [hf.drawn] at howner
    exact hl (Option.some_inj.1 howner)
  refine ⟨hf.drawn, fun k' p' hp' => ?_, fun v hv => ?_⟩
  · by_cases hk : k' = k
    · subst hk
      rw [Function.update_self] at hp'
      cases hp'
      exact hchain
    · rw [Function.update_of_ne hk] at hp'
      exact hf.unheld k' p' hp'
  · rcases List.mem_append.1 hv with hold | hnew
    · exact hf.unused v hold
    · rintro rfl
      exact hchain (hm.used_eq h hb (Option.mem_toList.1 hnew)).2.1

end Moves

end Position
end SecureChat
