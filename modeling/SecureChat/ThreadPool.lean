import Mathlib.Data.List.Perm.Basic
import SecureChat.Runs
/-!
# ThreadPool — threads over a shared state

A pool is a shared state with the threads that work on it.  Requests start threads at any time; a step is one atomic
operation of one thread.  The threads are what they are in any order, so an invariant speaks of the thread that moves
and of the others (`Meets.pool`).
-/
namespace SecureChat

structure Pool (σ τ : Type) where
  shared : σ
  threads : List τ

namespace Pool

variable {σ τ ρ ε : Type}

/-- A request comes in, or a thread does its next operation with what it reads of its environment. -/
inductive Label (ρ ε : Type)
  | start (request : ρ)
  | step (thread : ℕ) (reading : ε)

def step (spawn : ρ → τ) (exec : σ → τ → ε → Option (σ × τ)) (p : Pool σ τ) : Label ρ ε → Option (Pool σ τ)
  | .start r => some ⟨p.shared, p.threads ++ [spawn r]⟩
  | .step i e => p.threads[i]?.bind fun t => (exec p.shared t e).map fun next => ⟨next.1, p.threads.set i next.2⟩

def Moves (safe : σ → τ → ε → List τ → Prop) (p : Pool σ τ) : Label ρ ε → Prop
  | .start _ => True
  | .step i e => ∀ t ∈ p.threads[i]?, safe p.shared t e (p.threads.eraseIdx i)

instance decidableMoves (safe : σ → τ → ε → List τ → Prop) [∀ s t e o, Decidable (safe s t e o)] (p : Pool σ τ) :
    ∀ l : Label ρ ε, Decidable (Moves safe p l)
  | .start _ => inferInstanceAs (Decidable True)
  | .step i e => inferInstanceAs (Decidable (∀ t ∈ p.threads[i]?, safe p.shared t e (p.threads.eraseIdx i)))

variable {spawn : ρ → τ} {exec : σ → τ → ε → Option (σ × τ)} {safe : σ → τ → ε → List τ → Prop}

theorem step_start {p p' : Pool σ τ} {r : ρ} (h : step spawn exec p (.start r) = some p') :
    p' = ⟨p.shared, p.threads ++ [spawn r]⟩ := (Option.some.inj h).symm

theorem step_step {p p' : Pool σ τ} {i : ℕ} {e : ε} (h : step spawn exec p (.step i e) = some p') :
    ∃ t s' t', p.threads[i]? = some t ∧ exec p.shared t e = some (s', t') ∧ p' = ⟨s', p.threads.set i t'⟩ := by
  obtain ⟨t, ht, h⟩ := Option.bind_eq_some_iff.1 h
  obtain ⟨⟨s', t'⟩, he, rfl⟩ := Option.map_eq_some_iff.1 h
  exact ⟨t, s', t', ht, he, rfl⟩

theorem perm_others {ts : List τ} {i : ℕ} {t : τ} (h : ts[i]? = some t) : List.Perm ts (t :: ts.eraseIdx i) := by
  obtain ⟨hi, rfl⟩ := List.getElem?_eq_some_iff.1 h
  exact (List.getElem_cons_eraseIdx_perm hi).symm

theorem set_perm_others {ts : List τ} {i : ℕ} {t : τ} (h : ts[i]? = some t) (t' : τ) :
    List.Perm (ts.set i t') (t' :: ts.eraseIdx i) := by
  obtain ⟨hi, -⟩ := List.getElem?_eq_some_iff.1 h
  exact List.set_perm_cons_eraseIdx hi t'

/-- **The invariant rule for pools**: an invariant that does not depend on the order of the threads, that a new thread
keeps, and that every operation keeps that meets the condition. -/
theorem invariant (Inv : σ → List τ → Prop) (hperm : ∀ s ts ts', List.Perm ts ts' → Inv s ts → Inv s ts')
    (hspawn : ∀ s ts r, Inv s ts → Inv s (spawn r :: ts))
    (hexec : ∀ s t e o s' t', Inv s (t :: o) → safe s t e o → exec s t e = some (s', t') → Inv s' (t' :: o))
    {p q : Pool σ τ} {ls : List (Label ρ ε)} (hi : Inv p.shared p.threads)
    (hm : Runs.Meets (step spawn exec) (Moves safe) p ls) (hr : Runs.run (step spawn exec) p ls = some q) :
    Inv q.shared q.threads := by
  refine Runs.Meets.invariant (fun p => Inv p.shared p.threads) (fun p l p' hi hok hs => ?_) hi hm hr
  cases l with
  | start r =>
    cases step_start hs
    exact hperm _ _ _ (List.perm_append_singleton _ _).symm (hspawn _ _ r hi)
  | step i e =>
    obtain ⟨t, s', t', ht, he, rfl⟩ := step_step hs
    have hnext := hexec _ t e _ s' t' (hperm _ _ _ (perm_others ht) hi) (hok t ht) he
    exact hperm _ _ _ (set_perm_others ht t').symm hnext

theorem run_invariant (Inv : σ → List τ → Prop) (hperm : ∀ s ts ts', List.Perm ts ts' → Inv s ts → Inv s ts')
    (hspawn : ∀ s ts r, Inv s ts → Inv s (spawn r :: ts))
    (hexec : ∀ s t e o s' t', Inv s (t :: o) → exec s t e = some (s', t') → Inv s' (t' :: o)) {p q : Pool σ τ}
    {ls : List (Label ρ ε)} (hi : Inv p.shared p.threads) (hr : Runs.run (step spawn exec) p ls = some q) :
    Inv q.shared q.threads := by
  have hm : Runs.Meets (step spawn exec) (Moves fun _ _ _ _ => True) p ls := by
    refine Runs.meets_of_forall (fun p l => ?_) p ls
    cases l with
    | start r => trivial
    | step i e => exact fun _ _ => trivial
  exact invariant Inv hperm hspawn (fun s t e o s' t' h _ => hexec s t e o s' t' h) hi hm hr

end Pool
end SecureChat
