import Mathlib.Data.List.Basic
/-!
# Runs — runs of a step function

A system is a step function `σ → ι → Option σ`: a label says which party takes its next step and what its environment
answers, `none` says that the step is not enabled.  `run` takes a list of labels in order, `Meets` says that every
step taken meets a condition at the state before it, and `Meets.invariant` is the one induction every safety result
of this development rests on.
-/
namespace SecureChat
namespace Runs

variable {σ ι : Type}

/-- The state a list of steps reaches, if every one of them is enabled in turn. -/
def run (step : σ → ι → Option σ) : σ → List ι → Option σ
  | s, [] => some s
  | s, i :: is =>
    match step s i with
    | none => none
    | some s' => run step s' is

/-- Every step taken meets `ok` at the state before it. -/
def Meets (step : σ → ι → Option σ) (ok : σ → ι → Prop) : σ → List ι → Prop
  | _, [] => True
  | s, i :: is => ok s i ∧
    match step s i with
    | none => True
    | some s' => Meets step ok s' is

instance decidableMeets (step : σ → ι → Option σ) (ok : σ → ι → Prop) [∀ s i, Decidable (ok s i)] :
    ∀ (s : σ) (is : List ι), Decidable (Meets step ok s is)
  | _, [] => inferInstanceAs (Decidable True)
  | s, i :: is =>
    match hs : step s i with
    | none => decidable_of_iff (ok s i) (by simp [Meets, hs])
    | some s' =>
      have := decidableMeets step ok s' is
      decidable_of_iff (ok s i ∧ Meets step ok s' is) (by simp [Meets, hs])

variable {step : σ → ι → Option σ} {ok : σ → ι → Prop}

@[simp] theorem run_nil (s : σ) : run step s [] = some s := rfl

theorem run_cons {s t : σ} {i : ι} {is : List ι} :
    run step s (i :: is) = some t ↔ ∃ s', step s i = some s' ∧ run step s' is = some t := by
  rw [run]
  cases step s i with
  | none => simp
  | some s' => simp

theorem run_trans : ∀ {s t r : σ} {is js : List ι}, run step s is = some t → run step t js = some r →
    run step s (is ++ js) = some r
  | s, t, r, [], js, hs, ht => by
    cases hs
    exact ht
  | s, t, r, i :: is, js, hs, ht => by
    obtain ⟨s', hi, hs⟩ := run_cons.1 hs
    exact run_cons.2 ⟨s', hi, run_trans hs ht⟩

theorem exists_run (s : σ) (is : List ι) (p : σ → Prop) [DecidablePred p]
    (h : (run step s is).any (fun t => decide (p t)) = true) : ∃ t, run step s is = some t ∧ p t := by
  obtain ⟨t, ht, hp⟩ := Option.any_eq_true _ _ |>.1 h
  exact ⟨t, ht, of_decide_eq_true hp⟩

theorem Meets.tail {s s' : σ} {i : ι} {is : List ι} (h : Meets step ok s (i :: is)) (hs : step s i = some s') :
    Meets step ok s' is := by
  have h2 := h.2
  rw [hs] at h2
  exact h2

theorem meets_of_forall (hok : ∀ s i, ok s i) : ∀ (s : σ) (is : List ι), Meets step ok s is
  | _, [] => trivial
  | s, i :: is => by
    refine ⟨hok s i, ?_⟩
    cases step s i with
    | none => trivial
    | some s' => exact meets_of_forall hok s' is

/-- **The invariant rule**: what every step that meets the condition preserves holds at the end of every run whose
steps all meet it. -/
theorem Meets.invariant (Inv : σ → Prop) (hstep : ∀ s i s', Inv s → ok s i → step s i = some s' → Inv s') :
    ∀ {s t : σ} {is : List ι}, Inv s → Meets step ok s is → run step s is = some t → Inv t
  | s, t, [], hi, _, hr => by
    cases hr
    exact hi
  | s, t, i :: is, hi, hm, hr => by
    obtain ⟨s', hs, hr'⟩ := run_cons.1 hr
    exact Meets.invariant Inv hstep (hstep s i s' hi hm.1 hs) (hm.tail hs) hr'

theorem run_invariant (Inv : σ → Prop) (hstep : ∀ s i s', Inv s → step s i = some s' → Inv s') {s t : σ}
    {is : List ι} (hi : Inv s) (hr : run step s is = some t) : Inv t :=
  Meets.invariant Inv (fun s i s' h _ hs => hstep s i s' h hs) hi (meets_of_forall (fun _ _ => trivial) s is) hr

def Between (step : σ → ι → Option σ) (s : σ) (is : List ι) (m : σ) : Prop :=
  ∃ pre post, is = pre ++ post ∧ run step s pre = some m

theorem between_first (s : σ) (is : List ι) : Between step s is s := ⟨[], is, rfl, rfl⟩

theorem Between.cons {s s' m : σ} {i : ι} {is : List ι} (hs : step s i = some s') (h : Between step s' is m) :
    Between step s (i :: is) m := by
  obtain ⟨pre, post, rfl, hr⟩ := h
  exact ⟨i :: pre, post, rfl, run_cons.2 ⟨s', hs, hr⟩⟩

/-- **The rule for what a run has seen**: an invariant that speaks of the states passed so far, that holds of more of
them if it holds of some, and that a step keeps that adds the state it leads to. -/
theorem between_invariant (Inv : (σ → Prop) → σ → Prop)
    (hmono : ∀ M M' s, (∀ m, M m → M' m) → Inv M s → Inv M' s)
    (hstep : ∀ M s i s', Inv M s → step s i = some s' → Inv (fun m => M m ∨ m = s') s') :
    ∀ {s t : σ} {is : List ι} {M : σ → Prop}, Inv M s → run step s is = some t →
      Inv (fun m => M m ∨ Between step s is m) t
  | s, t, [], M, hi, hr => by
    cases hr
    exact hmono M _ s (fun m hm => .inl hm) hi
  | s, t, i :: is, M, hi, hr => by
    obtain ⟨s', hs, hr⟩ := run_cons.1 hr
    refine hmono _ _ t (fun m hm => ?_) (between_invariant Inv hmono hstep (hstep M s i s' hi hs) hr)
    rcases hm with (hm | rfl) | hm
    · exact .inl hm
    · exact .inr ((between_first _ is).cons hs)
    · exact .inr (hm.cons hs)

end Runs
end SecureChat
