import SecureChat.Runs
/-!
# AsyncProgram — asynchronous programs whose steps may fail, in a process that may stop

A program alternates `sync` parts, which run at once, and `await`ed steps, each of which gets an answer `ι` from outside
and may fail instead, which the program may catch.  A process runs one program at a time; between two steps the outside
may move the state, and the process may stop, which ends the program and loses what is in memory.

`Holds` is the condition under which a program keeps an invariant `Inv` of every state and ends with `Q`, if it only
fails or stops at states that are `Safe` and gets only answers that are `Admitted`.  `holds_run` is the rule: if every
program meets it, every run of the process keeps the invariant.
-/
namespace SecureChat
namespace Async

open Runs

/-- A program; the label of an awaited step is `π`, what follows its failure is `h`. -/
inductive Program (ι π σ ε α : Type) where
  | pure (a : α)
  | throw (e : ε)
  | sync (f : σ → σ) (k : σ → Program ι π σ ε α)
  | await (l : π) (f : ι → σ → σ) (k : ι → σ → Program ι π σ ε α) (h : Program ι π σ ε α)

namespace Program

variable {ι π σ ε α β : Type}

def bind (p : Program ι π σ ε α) (g : α → Program ι π σ ε β) : Program ι π σ ε β :=
  match p with
  | .pure a => g a
  | .throw e => .throw e
  | .sync f k => .sync f fun s => (k s).bind g
  | .await l f k h => .await l f (fun i s => (k i s).bind g) (h.bind g)

instance : Monad (Program ι π σ ε) where
  pure := .pure
  bind := bind

/-- `try`: an exception becomes a value. -/
def attempt : Program ι π σ ε α → Program ι π σ ε (Except ε α)
  | .pure a => .pure (.ok a)
  | .throw e => .pure (.error e)
  | .sync f k => .sync f fun s => (k s).attempt
  | .await l f k h => .await l f (fun i s => (k i s).attempt) h.attempt

/-- Some execution, with some answers and failures, reaches a step with this label. -/
inductive Attempts : Program ι π σ ε α → π → Prop
  | here {l f k h} : Attempts (.await l f k h) l
  | answered {l f k h a} (i : ι) (s : σ) : Attempts (k i s) a → Attempts (.await l f k h) a
  | failed {l f k h a} : Attempts h a → Attempts (.await l f k h) a
  | sync {f k a} (s : σ) : Attempts (k s) a → Attempts (.sync f k) a

/-- Whatever comes, every step awaited meets `P`, and what is returned meets `Q`. -/
def Keeps (P : π → Prop) (Q : α → Prop) : Program ι π σ ε α → Prop
  | .pure a => Q a
  | .throw _ => True
  | .sync _ k => ∀ s, (k s).Keeps P Q
  | .await l _ k h => P l ∧ (∀ i s, (k i s).Keeps P Q) ∧ h.Keeps P Q

section Keeps

variable {P : π → Prop} {Q : α → Prop} {R : β → Prop}

theorem Keeps.of_attempts : ∀ {p : Program ι π σ ε α}, p.Keeps P Q → ∀ {a : π}, p.Attempts a → P a
  | .sync _ _, h, _, .sync s ha => (h s).of_attempts ha
  | .await _ _ _ _, h, _, .here => h.1
  | .await _ _ _ _, h, _, .answered i s ha => (h.2.1 i s).of_attempts ha
  | .await _ _ _ _, h, _, .failed ha => h.2.2.of_attempts ha

/-- The rule of `bind`. -/
theorem Keeps.bind {p : Program ι π σ ε α} {g : α → Program ι π σ ε β} (h : p.Keeps P Q)
    (hg : ∀ a, Q a → (g a).Keeps P R) : (p >>= g).Keeps P R := by
  induction p with
  | pure a => exact hg a h
  | throw e => trivial
  | sync f k ih => exact fun s => ih s (h s)
  | await l f k h' ihk ihh => exact ⟨h.1, fun i s => ihk i s (h.2.1 i s), ihh h.2.2⟩

/-- The rule of `try`. -/
theorem Keeps.attempt : ∀ {p : Program ι π σ ε α}, p.Keeps P Q → p.attempt.Keeps P fun r => ∀ a, r = .ok a → Q a
  | .pure a, h => fun a' ha => by cases ha; exact h
  | .throw _, _ => nofun
  | .sync _ _, h => fun s => (h s).attempt
  | .await _ _ _ _, h => ⟨h.1, fun i s => (h.2.1 i s).attempt, h.2.2.attempt⟩

end Keeps

structure Rules (ι π σ : Type) where
  Inv : σ → Prop
  Safe : σ → Prop
  Admitted : π → ι → σ → Prop
  Outside : σ → σ → Prop

/-- Every execution that fails only at safe states and gets only admitted answers keeps the invariant, wherever the
outside moves the state, and ends with `Q`. -/
def Holds (R : Rules ι π σ) (Q : Except ε α → σ → Prop) : Program ι π σ ε α → σ → Prop
  | .pure a, s => Q (.ok a) s
  | .throw e, s => Q (.error e) s
  | .sync f k, s => (k s).Holds R Q (f s)
  | .await l f k h, s => R.Inv s ∧ ∀ s', R.Outside s s' → (R.Safe s' → h.Holds R Q s') ∧
    ∀ i, R.Admitted l i s' → (k i s').Holds R Q (f i s')

section Holds

variable {R : Rules ι π σ}

theorem Holds.imp {Q Q' : Except ε α → σ → Prop} (hQ : ∀ r s, Q r s → Q' r s) :
    ∀ {p : Program ι π σ ε α} {s : σ}, p.Holds R Q s → p.Holds R Q' s
  | .pure _, s, h => hQ _ s h
  | .throw _, s, h => hQ _ s h
  | .sync _ k, s, h => Holds.imp hQ (p := k s) h
  | .await _ _ _ _, _, h => ⟨h.1, fun s' hs => ⟨fun hsafe => ((h.2 s' hs).1 hsafe).imp hQ,
      fun i hi => ((h.2 s' hs).2 i hi).imp hQ⟩⟩

/-- The rule of `bind`. -/
theorem Holds.bind {Q : Except ε β → σ → Prop} {g : α → Program ι π σ ε β} {p : Program ι π σ ε α} {s : σ}
    (h : p.Holds R (fun r s => match r with
      | .ok a => (g a).Holds R Q s
      | .error e => Q (.error e) s) s) : (p >>= g).Holds R Q s := by
  induction p generalizing s with
  | pure a => exact h
  | throw e => exact h
  | sync f k ih => exact ih s h
  | await l f k h' ihk ihh =>
    exact ⟨h.1, fun s' hs => ⟨fun hsafe => ihh ((h.2 s' hs).1 hsafe), fun i hi => ihk i s' ((h.2 s' hs).2 i hi)⟩⟩

/-- The rule of `try`. -/
theorem Holds.attempt {Q : Except ε (Except ε α) → σ → Prop} {p : Program ι π σ ε α} {s : σ}
    (h : p.Holds R (fun r s => Q (.ok r) s) s) : p.attempt.Holds R Q s := by
  induction p generalizing s with
  | pure a => exact h
  | throw e => exact h
  | sync f k ih => exact ih s h
  | await l f k h' ihk ihh =>
    exact ⟨h.1, fun s' hs => ⟨fun hsafe => ihh ((h.2 s' hs).1 hsafe), fun i hi => ihk i s' ((h.2 s' hs).2 i hi)⟩⟩

end Holds

end Program

/-- A process that runs the programs of its calls one at a time: `finish` is what the end of a call does, `stop` what
the end of the process does, `outside` what others do between two steps. -/
structure Process (ι π σ ε ρ κ χ : Type) where
  program : κ → Program ι π σ ε ρ
  finish : κ → Except ε ρ → σ → σ
  stop : σ → σ
  outside : χ → σ → σ

structure System (ι π σ ε ρ κ : Type) where
  state : σ
  running : Option (κ × Program ι π σ ε ρ)

inductive Event (ι κ χ : Type) where
  | start (x : κ)
  | answer (i : ι)
  | fail
  | stop
  | outside (j : χ)

namespace Process

variable {ι π σ ε ρ κ χ : Type} (M : Process ι π σ ε ρ κ χ)

def settle (x : κ) : Program ι π σ ε ρ → σ → System ι π σ ε ρ κ
  | .pure a, s => ⟨M.finish x (.ok a) s, none⟩
  | .throw e, s => ⟨M.finish x (.error e) s, none⟩
  | .sync f k, s => settle x (k s) (f s)
  | .await l f k h, s => ⟨s, some (x, .await l f k h)⟩

def step (S : System ι π σ ε ρ κ) : Event ι κ χ → Option (System ι π σ ε ρ κ)
  | .start x =>
    match S.running with
    | none => some (M.settle x (M.program x) S.state)
    | some _ => none
  | .answer i =>
    match S.running with
    | some (x, .await _ f k _) => some (M.settle x (k i S.state) (f i S.state))
    | _ => none
  | .fail =>
    match S.running with
    | some (x, .await _ _ _ h) => some (M.settle x h S.state)
    | _ => none
  | .stop => some ⟨M.stop S.state, none⟩
  | .outside j => some { S with state := M.outside j S.state }

/-- The condition on a step: failures and stops at safe states, admitted answers. -/
def Orderly (R : Program.Rules ι π σ) (S : System ι π σ ε ρ κ) : Event ι κ χ → Prop
  | .start _ | .outside _ => True
  | .answer i =>
    match S.running with
    | some (_, .await l _ _ _) => R.Admitted l i S.state
    | _ => True
  | .fail | .stop => R.Safe S.state

instance decidableOrderly (R : Program.Rules ι π σ) [∀ l i s, Decidable (R.Admitted l i s)] [DecidablePred R.Safe]
    (S : System ι π σ ε ρ κ) : ∀ e : Event ι κ χ, Decidable (Orderly R S e)
  | .start _ | .outside _ => isTrue trivial
  | .fail | .stop => inferInstanceAs (Decidable (R.Safe S.state))
  | .answer i =>
    match hr : S.running with
    | some (_, .await l _ _ _) => decidable_of_iff (R.Admitted l i S.state)
        (by simp [Orderly, hr])
    | some (_, .pure _) | some (_, .throw _) | some (_, .sync _ _) | none => isTrue (by simp [Orderly, hr])

def Ends (R : Program.Rules ι π σ) (x : κ) (r : Except ε ρ) (s : σ) : Prop :=
  R.Inv (M.finish x r s) ∧ R.Safe (M.finish x r s)

def Kept (R : Program.Rules ι π σ) (S : System ι π σ ε ρ κ) : Prop :=
  R.Inv S.state ∧ match S.running with
    | none => R.Safe S.state
    | some (x, p) => ∃ last, R.Outside last S.state ∧ p.Holds R (M.Ends R x) last

section Rule

variable {M} {R : Program.Rules ι π σ} (hrefl : ∀ s, R.Outside s s)
  (htrans : ∀ a b c, R.Outside a b → R.Outside b c → R.Outside a c) (hout : ∀ j s, R.Outside s (M.outside j s))
  (hkeep : ∀ s s', R.Outside s s' → R.Inv s → R.Inv s') (hsafe : ∀ s s', R.Outside s s' → R.Safe s → R.Safe s')
  (hstop : ∀ s, R.Inv s → R.Safe s → R.Inv (M.stop s) ∧ R.Safe (M.stop s))
  (hprog : ∀ x s, R.Inv s → R.Safe s → (M.program x).Holds R (M.Ends R x) s)

theorem kept_settle (hrefl : ∀ s, R.Outside s s) (x : κ) :
    ∀ (p : Program ι π σ ε ρ) (s : σ), p.Holds R (M.Ends R x) s → M.Kept R (M.settle x p s)
  | .pure _, _, h => h
  | .throw _, _, h => h
  | .sync _ k, s, h => kept_settle hrefl x (k s) _ h
  | .await _ _ _ _, s, h => ⟨h.1, s, hrefl s, h⟩

include hrefl htrans hout hkeep hsafe hstop hprog

theorem kept_step (S : System ι π σ ε ρ κ) (e : Event ι κ χ) (S' : System ι π σ ε ρ κ) (h : M.Kept R S)
    (he : Orderly R S e) (hs : M.step S e = some S') : M.Kept R S' := by
  obtain ⟨s, running⟩ := S
  obtain ⟨hinv, hrun⟩ := h
  cases e with
  | start x =>
    simp only [step] at hs
    split at hs
    · cases hs
      exact kept_settle hrefl x _ _ (hprog x s hinv hrun)
    · cases hs
  | answer i =>
    simp only [step] at hs
    split at hs
    · cases hs
      obtain ⟨last, hl, hp⟩ := hrun
      exact kept_settle hrefl _ _ _ ((hp.2 s hl).2 i he)
    · cases hs
  | fail =>
    simp only [step] at hs
    split at hs
    · cases hs
      obtain ⟨last, hl, hp⟩ := hrun
      exact kept_settle hrefl _ _ _ ((hp.2 s hl).1 he)
    · cases hs
  | stop =>
    cases hs
    exact hstop s hinv he
  | outside j =>
    cases hs
    refine ⟨hkeep _ _ (hout j s) hinv, ?_⟩
    cases running with
    | none => exact hsafe _ _ (hout j s) hrun
    | some call =>
      obtain ⟨last, hl, hp⟩ := hrun
      exact ⟨last, htrans _ _ _ hl (hout j s), hp⟩

theorem kept_run {s : σ} (hinv : R.Inv s) (hs : R.Safe s) {S : System ι π σ ε ρ κ} {es : List (Event ι κ χ)}
    (hm : Meets M.step (Orderly R) ⟨s, none⟩ es) (hr : run M.step ⟨s, none⟩ es = some S) : M.Kept R S :=
  hm.invariant (M.Kept R) (kept_step hrefl htrans hout hkeep hsafe hstop hprog) ⟨hinv, hs⟩ hr

end Rule

end Process

end Async
end SecureChat
