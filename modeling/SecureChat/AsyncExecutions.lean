import SecureChat.AsyncProgram
/-!
# AsyncExecutions — a program on its own

`Executes` relates a program and a state to what the program ends with and the state then, where nothing else moves the
state: `A` says which answers an awaited step may get, `F` which steps may fail.  What a program made of others does is
read off with `of_bind` and `of_attempt`; `execute` computes the execution of given answers.
-/
namespace SecureChat
namespace Async
namespace Program

variable {ι π σ ε α β : Type}

inductive Executes (A : π → ι → Prop) (F : π → Prop) : Program ι π σ ε α → σ → Except ε α → σ → Prop
  | pure {a s} : Executes A F (.pure a) s (.ok a) s
  | throw {e s} : Executes A F (.throw e) s (.error e) s
  | sync {f k s r s'} : Executes A F (k s) (f s) r s' → Executes A F (.sync f k) s r s'
  | answered {l f k h s r s'} (i : ι) : A l i → Executes A F (k i s) (f i s) r s' →
    Executes A F (.await l f k h) s r s'
  | failed {l f k h s r s'} : F l → Executes A F h s r s' → Executes A F (.await l f k h) s r s'

def execute (answers : π → Option ι) : Program ι π σ ε α → σ → Except ε α × σ
  | .pure a, s => (.ok a, s)
  | .throw e, s => (.error e, s)
  | .sync f k, s => (k s).execute answers (f s)
  | .await l f k h, s =>
    match answers l with
    | some i => (k i s).execute answers (f i s)
    | none => h.execute answers s

namespace Executes

variable {A : π → ι → Prop} {F : π → Prop} {s s' : σ}

theorem of_execute {answers : π → Option ι} (hA : ∀ l i, answers l = some i → A l i)
    (hF : ∀ l, answers l = none → F l) : ∀ (p : Program ι π σ ε α) (s : σ),
    Executes A F p s (p.execute answers s).1 (p.execute answers s).2
  | .pure _, _ => .pure
  | .throw _, _ => .throw
  | .sync f k, s => .sync (of_execute hA hF (k s) (f s))
  | .await l f k h, s => by
    rw [execute]
    cases hl : answers l with
    | some i => exact .answered i (hA l i hl) (of_execute hA hF (k i s) (f i s))
    | none => exact .failed (hF l hl) (of_execute hA hF h s)

theorem of_pure {a : α} {r : Except ε α} (h : Executes A F (Pure.pure a : Program ι π σ ε α) s r s') :
    r = .ok a ∧ s' = s := by
  cases h
  exact ⟨rfl, rfl⟩

theorem of_throw {e : ε} {r : Except ε α} (h : Executes A F (.throw e : Program ι π σ ε α) s r s') :
    r = .error e ∧ s' = s := by
  cases h
  exact ⟨rfl, rfl⟩

/-- **The rule of `bind`**: the first program ends and the second goes on, or the first throws. -/
theorem of_bind {p : Program ι π σ ε α} {g : α → Program ι π σ ε β} {r : Except ε β}
    (h : Executes A F (p >>= g) s r s') :
    (∃ a s₁, Executes A F p s (.ok a) s₁ ∧ Executes A F (g a) s₁ r s') ∨
      ∃ e, Executes A F p s (.error e) s' ∧ r = .error e := by
  induction p generalizing s with
  | pure a => exact .inl ⟨a, s, .pure, h⟩
  | throw e =>
    obtain ⟨rfl, rfl⟩ := of_throw (e := e) h
    exact .inr ⟨e, .throw, rfl⟩
  | sync f k ih =>
    cases h with
    | sync h =>
      rcases ih s h with ⟨a, s₁, hp, hg⟩ | ⟨e, hp, hr⟩
      · exact .inl ⟨a, s₁, .sync hp, hg⟩
      · exact .inr ⟨e, .sync hp, hr⟩
  | await l f k h' ihk ihh =>
    cases h with
    | answered i hi h =>
      rcases ihk i s h with ⟨a, s₁, hp, hg⟩ | ⟨e, hp, hr⟩
      · exact .inl ⟨a, s₁, .answered i hi hp, hg⟩
      · exact .inr ⟨e, .answered i hi hp, hr⟩
    | failed hl h =>
      rcases ihh h with ⟨a, s₁, hp, hg⟩ | ⟨e, hp, hr⟩
      · exact .inl ⟨a, s₁, .failed hl hp, hg⟩
      · exact .inr ⟨e, .failed hl hp, hr⟩

/-- **The rule of `try`.** -/
theorem of_attempt {p : Program ι π σ ε α} {r : Except ε (Except ε α)} (h : Executes A F p.attempt s r s') :
    ∃ r', r = .ok r' ∧ Executes A F p s r' s' := by
  induction p generalizing s with
  | pure a =>
    cases h
    exact ⟨_, rfl, .pure⟩
  | throw e =>
    cases h
    exact ⟨_, rfl, .throw⟩
  | sync f k ih =>
    cases h with
    | sync h =>
      obtain ⟨r', hr, hp⟩ := ih s h
      exact ⟨r', hr, .sync hp⟩
  | await l f k h' ihk ihh =>
    cases h with
    | answered i hi h =>
      obtain ⟨r', hr, hp⟩ := ihk i s h
      exact ⟨r', hr, .answered i hi hp⟩
    | failed hl h =>
      obtain ⟨r', hr, hp⟩ := ihh h
      exact ⟨r', hr, .failed hl hp⟩

end Executes

end Program
end Async
end SecureChat
