import SecureChat.Runs
/-!
# RunCounts — what happens in a run, and how often
-/
namespace SecureChat
namespace Runs

variable {σ ι : Type} {step : σ → ι → Option σ} {ok : σ → ι → Prop}

/-- The steps of a run at which `p` holds. -/
def count (step : σ → ι → Option σ) (p : σ → ι → Bool) : σ → List ι → ℕ
  | _, [] => 0
  | s, i :: is => (if p s i then 1 else 0) +
    match step s i with
    | none => 0
    | some s' => count step p s' is

/-- **A budget**: if what counts spends one of it and nothing adds to it, no more counts than there was at first. -/
theorem Meets.count_le {p : σ → ι → Bool} (m : σ → ℕ)
    (hstep : ∀ s i s', ok s i → step s i = some s' → m s' + (if p s i then 1 else 0) ≤ m s) :
    ∀ {s t : σ} {is : List ι}, Meets step ok s is → run step s is = some t → count step p s is + m t ≤ m s
  | s, t, [], _, hr => by
    cases hr
    simp [count]
  | s, t, i :: is, hm, hr => by
    obtain ⟨s', hs, hr⟩ := run_cons.1 hr
    have hhead := hstep s i s' hm.1 hs
    have htail := Meets.count_le m hstep (hm.tail hs) hr
    rw [count, hs]
    simp only
    omega

def shown {α : Type} (step : σ → ι → Option σ) (obs : σ → ι → Option α) : σ → List ι → List α
  | _, [] => []
  | s, i :: is => (obs s i).toList ++
    match step s i with
    | none => []
    | some s' => shown step obs s' is

/-- **What is shown stands in a relation to what was shown before it**, if an invariant that speaks of what was shown
last says so at every step. -/
theorem Meets.isChain {α : Type} {R : α → α → Prop} {obs : σ → ι → Option α} (Inv : Option α → σ → Prop)
    (hstep : ∀ last s i s', Inv last s → ok s i → step s i = some s' →
      (∀ a, obs s i = some a → (∀ b, last = some b → R b a) ∧ Inv (some a) s') ∧ (obs s i = none → Inv last s')) :
    ∀ {last : Option α} {s t : σ} {is : List ι}, Inv last s → Meets step ok s is → run step s is = some t →
      List.IsChain R (last.toList ++ shown step obs s is)
  | last, s, t, [], _, _, hr => by
    cases last with
    | none => exact List.IsChain.nil
    | some b => exact List.IsChain.singleton b
  | last, s, t, i :: is, hi, hm, hr => by
    obtain ⟨s', hs, hr⟩ := run_cons.1 hr
    obtain ⟨hsome, hnone⟩ := hstep last s i s' hi hm.1 hs
    have hshown : shown step obs s (i :: is) = (obs s i).toList ++ shown step obs s' is := by
      rw [shown, hs]
    rw [hshown]
    cases ho : obs s i with
    | none => exact Meets.isChain Inv hstep (hnone ho) (hm.tail hs) hr
    | some a =>
      obtain ⟨hR, hinv⟩ := hsome a ho
      have htail := Meets.isChain Inv hstep hinv (hm.tail hs) hr
      cases last with
      | none => exact htail
      | some b => exact List.IsChain.cons_cons (hR b rfl) htail

end Runs
end SecureChat
