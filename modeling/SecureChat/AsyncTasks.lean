import SecureChat.AsyncProgram
import SecureChat.ThreadPool
/-!
# AsyncTasks — asynchronous programs side by side

A pool of calls over one state.  A call starts when its event is taken from the queue and runs up to its first awaited
step; while it waits the others run.  The label of an awaited step says what the call is in the middle of, so an
invariant speaks of the state and of the labels of the calls that wait, in any order.

`Holds` is the condition under which a program keeps such an invariant, `Steady` the simple case of a program that keeps
one assertion at each of its steps, and `holds_run` the rule: if the program of every event meets it, every run of the
pool keeps the invariant.
-/
namespace SecureChat
namespace Async

namespace Program

variable {ι π σ ε α β : Type}

def get : Program ι π σ ε σ := .sync id fun s => .pure s

def modify (f : σ → σ) : Program ι π σ ε Unit := .sync f fun _ => .pure ()

/-- An awaited step that changes nothing by itself; its failure throws `e`. -/
def wait (e : ε) (l : π) : Program ι π σ ε ι := .await l (fun _ s => s) (fun i _ => .pure i) (.throw e)

/-- `if` without `else`. -/
def whenever (c : Prop) [Decidable c] (p : Program ι π σ ε Unit) : Program ι π σ ε Unit := if c then p else .pure ()

/-- `try` with a `catch` that takes no notice of the exception. -/
def catching (p : Program ι π σ ε α) (handler : Program ι π σ ε Unit) : Program ι π σ ε Unit := do
  let result ← p.attempt
  match result with
  | .ok _ => Pure.pure ()
  | .error _ => handler

/-- What becomes of a program that gets these answers; a step without an answer fails. -/
def outcome (answers : π → Option ι) : Program ι π σ ε α → σ → Except ε α
  | .pure a, _ => .ok a
  | .throw e, _ => .error e
  | .sync f k, s => (k s).outcome answers (f s)
  | .await l f k h, s =>
    match answers l with
    | some i => (k i s).outcome answers (f i s)
    | none => h.outcome answers s

def settle : Program ι π σ ε α → σ → σ × Program ι π σ ε α
  | .pure a, s => (s, .pure a)
  | .throw e, s => (s, .throw e)
  | .sync f k, s => settle (k s) (f s)
  | .await l f k h, s => (s, .await l f k h)

end Program

inductive Task (ι π σ ε κ : Type) where
  | called (x : κ)
  | running (p : Program ι π σ ε Unit)

/-- What runs, and which answers an awaited step may get: `none` is its failure. -/
structure Tasks (ι π σ ε κ : Type) where
  program : κ → Program ι π σ ε Unit
  ready : π → Option ι → σ → Bool

namespace Task

variable {ι π σ ε κ : Type}

def label : Task ι π σ ε κ → Option π
  | .running (.await l _ _ _) => some l
  | _ => none

def labels (ts : List (Task ι π σ ε κ)) : List π := ts.filterMap label

theorem labels_perm {ts ts' : List (Task ι π σ ε κ)} (h : ts.Perm ts') : (labels ts).Perm (labels ts') :=
  h.filterMap _

end Task

namespace Tasks

variable {ι π σ ε κ : Type} (M : Tasks ι π σ ε κ)

def exec (s : σ) : Task ι π σ ε κ → Option ι → Option (σ × Task ι π σ ε κ)
  | .called x, _ =>
    let next := (M.program x).settle s
    some (next.1, .running next.2)
  | .running (.await l f k h), answer =>
    if M.ready l answer s then
      let next := match answer with
        | some i => (k i s).settle (f i s)
        | none => h.settle s
      some (next.1, .running next.2)
    else none
  | .running _, _ => none

abbrev State (ι π σ ε κ : Type) := Pool σ (Task ι π σ ε κ)

def step : State ι π σ ε κ → Pool.Label κ (Option ι) → Option (State ι π σ ε κ) := Pool.step .called M.exec

/-- The invariant, and the conditions on the start of a call and on an answer. -/
structure Rules (ι π σ κ : Type) where
  Inv : σ → List π → Prop
  Starts : κ → σ → List π → Prop
  Admitted : π → Option ι → σ → List π → Prop

def Orderly (R : Rules ι π σ κ) (s : σ) (t : Task ι π σ ε κ) (answer : Option ι) (o : List (Task ι π σ ε κ)) : Prop :=
  match t with
  | .called x => R.Starts x s (Task.labels o)
  | .running (.await l _ _ _) => R.Admitted l answer s (Task.labels o)
  | .running _ => True

instance decidableOrderly (R : Rules ι π σ κ) [∀ x s o, Decidable (R.Starts x s o)]
    [∀ l a s o, Decidable (R.Admitted l a s o)] (s : σ) (answer : Option ι) (o : List (Task ι π σ ε κ)) :
    ∀ t : Task ι π σ ε κ, Decidable (Orderly R s t answer o)
  | .called x => inferInstanceAs (Decidable (R.Starts x s (Task.labels o)))
  | .running (.await l _ _ _) => inferInstanceAs (Decidable (R.Admitted l answer s (Task.labels o)))
  | .running (.pure _) => inferInstanceAs (Decidable True)
  | .running (.throw _) => inferInstanceAs (Decidable True)
  | .running (.sync _ _) => inferInstanceAs (Decidable True)

end Tasks

namespace Program

variable {ι π σ ε κ α β : Type} (M : Tasks ι π σ ε κ) (R : Tasks.Rules ι π σ κ)

/-- Beside calls that wait for `o`, every execution keeps the invariant at each awaited step, whatever the others do
meanwhile within it, and ends with `Q`. -/
def HoldsBeside (Q : Except ε α → σ → List π → Prop) : Program ι π σ ε α → σ → List π → Prop
  | .pure a, s, o => Q (.ok a) s o
  | .throw e, s, o => Q (.error e) s o
  | .sync f k, s, o => (k s).HoldsBeside Q (f s) o
  | .await l f k h, s, o => R.Inv s (l :: o) ∧ ∀ s' o', R.Inv s' (l :: o') →
    (M.ready l none s' = true → R.Admitted l none s' o' → h.HoldsBeside Q s' o') ∧
    ∀ i, M.ready l (some i) s' = true → R.Admitted l (some i) s' o' → (k i s').HoldsBeside Q (f i s') o'

def Resumes (p : Program ι π σ ε Unit) : Prop :=
  match p with
  | .await l f k h => ∀ s' o', R.Inv s' (l :: o') →
    (M.ready l none s' = true → R.Admitted l none s' o' → h.HoldsBeside M R (fun _ => R.Inv) s' o') ∧
    ∀ i, M.ready l (some i) s' = true → R.Admitted l (some i) s' o' →
      (k i s').HoldsBeside M R (fun _ => R.Inv) (f i s') o'
  | _ => True

/-- A program each of whose steps keeps the assertion `A`, and whose awaited steps hold it while they wait.  It throws
only if it may (`T`). -/
def Steady (T : Prop) (A : σ → List π → Prop) : Program ι π σ ε α → Prop
  | .pure _ => True
  | .throw _ => T
  | .sync f k => (∀ s o, A s o → A (f s) o) ∧ ∀ s, (k s).Steady T A
  | .await l f k h => (∀ s o, A s o ↔ R.Inv s (l :: o)) ∧ (∀ i s o, A s o → A (f i s) o) ∧
    (∀ i s, (k i s).Steady T A) ∧ (h.Steady T A ∨ ∀ s o, ¬ R.Admitted l none s o)

section Holds

variable {M R} {s : σ} {o : List π}

theorem HoldsBeside.imp {Q Q' : Except ε α → σ → List π → Prop} (hQ : ∀ r s o, Q r s o → Q' r s o)
    {p : Program ι π σ ε α} (h : p.HoldsBeside M R Q s o) : p.HoldsBeside M R Q' s o := by
  induction p generalizing s o with
  | pure a => exact hQ _ _ _ h
  | throw e => exact hQ _ _ _ h
  | sync f k ih => exact ih s h
  | await l f k h' ihk ihh =>
    refine ⟨h.1, fun s' o' hi => ⟨fun hr ha => ihh ((h.2 s' o' hi).1 hr ha), fun i hr ha => ?_⟩⟩
    exact ihk i s' ((h.2 s' o' hi).2 i hr ha)

/-- The rule of `bind`. -/
theorem HoldsBeside.bind {Q : Except ε β → σ → List π → Prop} {g : α → Program ι π σ ε β} {p : Program ι π σ ε α}
    (h : p.HoldsBeside M R (fun r s o => match r with
      | .ok a => (g a).HoldsBeside M R Q s o
      | .error e => Q (.error e) s o) s o) : (p >>= g).HoldsBeside M R Q s o := by
  induction p generalizing s o with
  | pure a => exact h
  | throw e => exact h
  | sync f k ih => exact ih s h
  | await l f k h' ihk ihh =>
    refine ⟨h.1, fun s' o' hi => ⟨fun hr ha => ihh ((h.2 s' o' hi).1 hr ha), fun i hr ha => ?_⟩⟩
    exact ihk i s' ((h.2 s' o' hi).2 i hr ha)

/-- The rule of `try`. -/
theorem HoldsBeside.attempt {Q : Except ε (Except ε α) → σ → List π → Prop} {p : Program ι π σ ε α}
    (h : p.HoldsBeside M R (fun r s o => Q (.ok r) s o) s o) : p.attempt.HoldsBeside M R Q s o := by
  induction p generalizing s o with
  | pure a => exact h
  | throw e => exact h
  | sync f k ih => exact ih s h
  | await l f k h' ihk ihh =>
    refine ⟨h.1, fun s' o' hi => ⟨fun hr ha => ihh ((h.2 s' o' hi).1 hr ha), fun i hr ha => ?_⟩⟩
    exact ihk i s' ((h.2 s' o' hi).2 i hr ha)

theorem HoldsBeside.catching {Q : Except ε Unit → σ → List π → Prop} {p : Program ι π σ ε α}
    {handler : Program ι π σ ε Unit} (h : p.HoldsBeside M R (fun r s o => match r with
      | .ok _ => Q (.ok ()) s o
      | .error _ => handler.HoldsBeside M R Q s o) s o) : (p.catching handler).HoldsBeside M R Q s o := by
  refine HoldsBeside.bind (HoldsBeside.attempt (h.imp fun r s o hr => ?_))
  cases r with
  | ok a => exact hr
  | error e => exact hr

theorem HoldsBeside.whenever {Q : Except ε Unit → σ → List π → Prop} {c : Prop} [Decidable c]
    {p : Program ι π σ ε Unit} (hp : c → p.HoldsBeside M R Q s o) (hn : ¬ c → Q (.ok ()) s o) :
    (p.whenever c).HoldsBeside M R Q s o := by
  unfold Program.whenever
  split
  · exact hp ‹_›
  · exact hn ‹_›

end Holds

section Steady

variable {M R} {T : Prop} {A : σ → List π → Prop}

theorem Steady.bind {p : Program ι π σ ε α} {g : α → Program ι π σ ε β} (hp : p.Steady R T A)
    (hg : ∀ a, (g a).Steady R T A) : (p >>= g).Steady R T A := by
  induction p with
  | pure a => exact hg a
  | throw e => exact hp
  | sync f k ih => exact ⟨hp.1, fun s => ih s (hp.2 s)⟩
  | await l f k h ihk ihh => exact ⟨hp.1, hp.2.1, fun i s => ihk i s (hp.2.2.1 i s), hp.2.2.2.imp ihh id⟩

theorem steady_pure (a : α) : (Pure.pure a : Program ι π σ ε α).Steady R T A := trivial

theorem steady_get : (get : Program ι π σ ε σ).Steady R T A := ⟨fun _ _ h => h, fun _ => trivial⟩

theorem steady_modify {f : σ → σ} (hf : ∀ s o, A s o → A (f s) o) : (modify f : Program ι π σ ε Unit).Steady R T A :=
  ⟨hf, fun _ => trivial⟩

theorem steady_wait {e : ε} {l : π} (hl : ∀ s o, A s o ↔ R.Inv s (l :: o)) (ht : T ∨ ∀ s o, ¬ R.Admitted l none s o) :
    (wait e l : Program ι π σ ε ι).Steady R T A :=
  ⟨hl, fun _ _ _ h => h, fun _ _ => trivial, ht⟩

theorem Steady.whenever {c : Prop} [Decidable c] {p : Program ι π σ ε Unit} (hp : p.Steady R T A) :
    (p.whenever c).Steady R T A := by
  unfold Program.whenever
  split
  · exact hp
  · trivial

theorem Steady.holds {Q : Except ε α → σ → List π → Prop} {p : Program ι π σ ε α} {s : σ} {o : List π}
    (hp : p.Steady R T A) (ha : A s o) (hQ : ∀ a s o, A s o → Q (.ok a) s o)
      (ht : T → ∀ e s o, A s o → Q (.error e) s o) :
    p.HoldsBeside M R Q s o := by
  induction p generalizing s o with
  | pure a => exact hQ _ _ _ ha
  | throw e => exact ht hp _ _ _ ha
  | sync f k ih => exact ih s (hp.2 s) (hp.1 s o ha)
  | await l f k h ihk ihh =>
    refine ⟨(hp.1 s o).1 ha, fun s' o' hi => ⟨fun _ hadm => ?_, fun i _ _ => ?_⟩⟩
    · rcases hp.2.2.2 with hh | hnot
      · exact ihh hh ((hp.1 s' o').2 hi)
      · exact absurd hadm (hnot s' o')
    · exact ihk i s' (hp.2.2.1 i s') (hp.2.1 i s' o' ((hp.1 s' o').2 hi))

end Steady

/-- A program that leaves the invariant as it finds it, whatever comes of it. -/
def Preserves (p : Program ι π σ ε α) : Prop :=
  ∀ (Q : Except ε α → σ → List π → Prop) s o, R.Inv s o → (∀ r s o, R.Inv s o → Q r s o) → p.HoldsBeside M R Q s o

section Preserves

variable {M R}

theorem Steady.preserves {p : Program ι π σ ε α} (hp : p.Steady R True R.Inv) : p.Preserves M R :=
  fun _ _ _ hi hQ => hp.holds hi (fun _ => hQ _) fun _ _ => hQ _

theorem preserves_pure (a : α) : (Pure.pure a : Program ι π σ ε α).Preserves M R := fun _ _ _ hi hQ => hQ _ _ _ hi

theorem preserves_throw (e : ε) : (.throw e : Program ι π σ ε α).Preserves M R := fun _ _ _ hi hQ => hQ _ _ _ hi

theorem preserves_get : (get : Program ι π σ ε σ).Preserves M R := fun _ _ _ hi hQ => hQ _ _ _ hi

theorem preserves_modify {f : σ → σ} (hf : ∀ s o, R.Inv s o → R.Inv (f s) o) :
    (modify f : Program ι π σ ε Unit).Preserves M R := fun _ _ _ hi hQ => hQ _ _ _ (hf _ _ hi)

theorem preserves_wait {e : ε} {l : π} (hl : ∀ s o, R.Inv s o ↔ R.Inv s (l :: o)) :
    (wait e l : Program ι π σ ε ι).Preserves M R := (steady_wait hl (.inl trivial)).preserves

theorem Preserves.bind {p : Program ι π σ ε α} {g : α → Program ι π σ ε β} (hp : p.Preserves M R)
    (hg : ∀ a, (g a).Preserves M R) : (p >>= g).Preserves M R := by
  intro Q s o hi hQ
  refine HoldsBeside.bind (hp _ s o hi fun r s o hi => ?_)
  cases r with
  | ok a => exact hg a Q s o hi hQ
  | error e => exact hQ _ s o hi

theorem Preserves.attempt {p : Program ι π σ ε α} (hp : p.Preserves M R) : p.attempt.Preserves M R :=
  fun _ s o hi hQ => HoldsBeside.attempt (hp _ s o hi fun _ s o hi => hQ _ s o hi)

theorem Preserves.catching {p : Program ι π σ ε α} {handler : Program ι π σ ε Unit} (hp : p.Preserves M R)
    (hh : handler.Preserves M R) : (p.catching handler).Preserves M R := by
  refine hp.attempt.bind fun result => ?_
  cases result with
  | ok a => exact preserves_pure ()
  | error e => exact hh

theorem Preserves.whenever {c : Prop} [Decidable c] {p : Program ι π σ ε Unit} (hp : p.Preserves M R) :
    (p.whenever c).Preserves M R := by
  unfold Program.whenever
  split
  · exact hp
  · exact preserves_pure ()

theorem holds_get_bind {Q : Except ε α → σ → List π → Prop} {g : σ → Program ι π σ ε α} {s : σ} {o : List π}
    (h : (g s).HoldsBeside M R Q s o) : (get >>= g).HoldsBeside M R Q s o := h

theorem holds_modify_bind {Q : Except ε α → σ → List π → Prop} {f : σ → σ} {g : Unit → Program ι π σ ε α} {s : σ}
    {o : List π} (h : (g ()).HoldsBeside M R Q (f s) o) : (modify f >>= g).HoldsBeside M R Q s o := h

theorem holds_wait_bind {Q : Except ε α → σ → List π → Prop} {e : ε} {l : π} {g : ι → Program ι π σ ε α} {s : σ}
    {o : List π} (hl : R.Inv s (l :: o))
    (hf : ∀ s' o', R.Inv s' (l :: o') → M.ready l none s' = true → R.Admitted l none s' o' → Q (.error e) s' o')
    (ha : ∀ i s' o', R.Inv s' (l :: o') → M.ready l (some i) s' = true → R.Admitted l (some i) s' o' →
      (g i).HoldsBeside M R Q s' o') : (wait e l >>= g).HoldsBeside M R Q s o :=
  ⟨hl, fun s' o' hi => ⟨hf s' o' hi, fun i => ha i s' o' hi⟩⟩

end Preserves

/-- From `P` a program ends with `Q`, or throws within the invariant. -/
def Triple (P : σ → List π → Prop) (p : Program ι π σ ε α) (Q : α → σ → List π → Prop) : Prop :=
  ∀ s o, P s o → p.HoldsBeside M R (fun r s o => match r with
    | .ok a => Q a s o
    | .error _ => R.Inv s o) s o

section Triple

variable {M R} {P : σ → List π → Prop}

theorem triple_pure {Q : α → σ → List π → Prop} {a : α} (h : ∀ s o, P s o → Q a s o) :
    (Pure.pure a : Program ι π σ ε α).Triple M R P Q := h

theorem triple_throw {Q : α → σ → List π → Prop} {e : ε} (h : ∀ s o, P s o → R.Inv s o) :
    (.throw e : Program ι π σ ε α).Triple M R P Q := h

theorem triple_get : (get : Program ι π σ ε σ).Triple M R P fun a s o => a = s ∧ P s o := fun _ _ hp => ⟨rfl, hp⟩

theorem triple_modify {f : σ → σ} {Q : Unit → σ → List π → Prop} (h : ∀ s o, P s o → Q () (f s) o) :
    (modify f : Program ι π σ ε Unit).Triple M R P Q := h

theorem triple_await {l : π} {f : ι → σ → σ} {g : ι → σ → α} {e : ε} {Q : α → σ → List π → Prop}
    (hl : ∀ s o, P s o → R.Inv s (l :: o)) (hf : ∀ s o, R.Inv s (l :: o) → R.Inv s o)
    (ha : ∀ i s o, R.Inv s (l :: o) → R.Admitted l (some i) s o → Q (g i s) (f i s) o) :
    (.await l f (fun i s => .pure (g i s)) (.throw e) : Program ι π σ ε α).Triple M R P Q :=
  fun s o hp => ⟨hl s o hp, fun s' o' hi => ⟨fun _ _ => hf s' o' hi, fun i _ hadm => ha i s' o' hi hadm⟩⟩

theorem Triple.mono {P' : σ → List π → Prop} {p : Program ι π σ ε α} {Q Q' : α → σ → List π → Prop}
    (h : p.Triple M R P Q) (hp : ∀ s o, P' s o → P s o) (hq : ∀ a s o, Q a s o → Q' a s o) :
    p.Triple M R P' Q' := by
  intro s o hs
  refine (h s o (hp s o hs)).imp fun r s o hr => ?_
  cases r with
  | ok a => exact hq a s o hr
  | error e => exact hr

theorem Triple.bind {p : Program ι π σ ε α} {k : α → Program ι π σ ε β} {Q : α → σ → List π → Prop}
    {S : β → σ → List π → Prop} (hp : p.Triple M R P Q) (hk : ∀ a, (k a).Triple M R (Q a) S) :
    (p >>= k).Triple M R P S := by
  intro s o hs
  refine HoldsBeside.bind ((hp s o hs).imp fun r s o hr => ?_)
  cases r with
  | ok a => exact hk a s o hr
  | error e => exact hr

theorem Triple.attempt {p : Program ι π σ ε α} {Q : α → σ → List π → Prop} (hp : p.Triple M R P Q) :
    p.attempt.Triple M R P fun r s o => match r with
      | .ok a => Q a s o
      | .error _ => R.Inv s o :=
  fun s o hs => HoldsBeside.attempt (hp s o hs)

theorem Triple.catching {p : Program ι π σ ε α} {handler : Program ι π σ ε Unit} {Q : α → σ → List π → Prop}
    {S : Unit → σ → List π → Prop} (hp : p.Triple M R P Q) (hq : ∀ a s o, Q a s o → S () s o)
    (hh : handler.Triple M R R.Inv S) : (p.catching handler).Triple M R P S := by
  refine hp.attempt.bind fun r => ?_
  cases r with
  | ok a => exact triple_pure (hq a)
  | error e => exact hh

theorem Triple.whenever {c : Prop} [Decidable c] {p : Program ι π σ ε Unit} {Q : Unit → σ → List π → Prop}
    (hp : c → p.Triple M R P Q) (hn : ¬ c → ∀ s o, P s o → Q () s o) : (p.whenever c).Triple M R P Q := by
  unfold Program.whenever
  split
  · exact hp ‹_›
  · exact triple_pure (hn ‹_›)

theorem triple_of {c : Prop} {p : Program ι π σ ε α} {Q : α → σ → List π → Prop}
    (h : c → p.Triple M R P Q) : p.Triple M R (fun s o => c ∧ P s o) Q := fun s o hp => h hp.1 s o hp.2

end Triple

end Program

namespace Tasks

variable {ι π σ ε κ : Type} {M : Tasks ι π σ ε κ} {R : Rules ι π σ κ}

open Program

def Kept (M : Tasks ι π σ ε κ) (R : Rules ι π σ κ) (s : σ) (ts : List (Task ι π σ ε κ)) : Prop :=
  R.Inv s (Task.labels ts) ∧ ∀ p, .running p ∈ ts → p.Resumes M R

theorem kept_settle {p : Program ι π σ ε Unit} {s : σ} {o : List (Task ι π σ ε κ)}
    (h : p.HoldsBeside M R (fun _ => R.Inv) s (Task.labels o)) (ho : ∀ q, .running q ∈ o → q.Resumes M R) :
    Kept M R (p.settle s).1 (.running (p.settle s).2 :: o) := by
  have hcons : ∀ q : Program ι π σ ε Unit, q.Resumes M R →
      ∀ r, Task.running r ∈ Task.running q :: o → r.Resumes M R := by
    intro q hq r hr
    rcases List.mem_cons.1 hr with he | hr
    · cases he
      exact hq
    · exact ho r hr
  induction p generalizing s with
  | pure a => exact ⟨h, hcons _ trivial⟩
  | throw e => exact ⟨h, hcons _ trivial⟩
  | sync f k ih => exact ih s h
  | await l f k h' _ _ => exact ⟨h.1, hcons _ h.2⟩

theorem kept_exec (hprog : ∀ x s o, R.Inv s o → R.Starts x s o → (M.program x).HoldsBeside M R (fun _ => R.Inv) s o)
    {s s' : σ} {t t' : Task ι π σ ε κ} {answer : Option ι} {o : List (Task ι π σ ε κ)} (h : Kept M R s (t :: o))
    (hok : Orderly R s t answer o) (he : M.exec s t answer = some (s', t')) : Kept M R s' (t' :: o) := by
  obtain ⟨hi, hr⟩ := h
  have ho : ∀ q, Task.running q ∈ o → q.Resumes M R := fun q hq => hr q (List.mem_cons_of_mem _ hq)
  cases t with
  | called x =>
    cases he
    exact kept_settle (hprog x s _ hi hok) ho
  | running p =>
    cases p with
    | pure a => cases he
    | throw e => cases he
    | sync f k => cases he
    | await l f k h' =>
      simp only [exec] at he
      split at he
      · rename_i hready
        cases he
        have hp := hr _ List.mem_cons_self s _ hi
        cases answer with
        | none => exact kept_settle (hp.1 hready hok) ho
        | some i => exact kept_settle (hp.2 i hready hok) ho
      · cases he

theorem holds_run (hperm : ∀ s o o', o.Perm o' → R.Inv s o → R.Inv s o')
    (hprog : ∀ x s o, R.Inv s o → R.Starts x s o → (M.program x).HoldsBeside M R (fun _ => R.Inv) s o) {s : σ}
    {q : State ι π σ ε κ} {ls : List (Pool.Label κ (Option ι))} (hi : R.Inv s [])
    (hm : Runs.Meets M.step (Pool.Moves (Orderly R)) ⟨s, []⟩ ls) (hr : Runs.run M.step ⟨s, []⟩ ls = some q) :
    R.Inv q.shared (Task.labels q.threads) := by
  have hspawn : ∀ s ts x, Kept M R s ts → Kept M R s (.called x :: ts) := by
    intro s ts x h
    refine ⟨h.1, fun p hp => ?_⟩
    rcases List.mem_cons.1 hp with he | hp
    · cases he
    · exact h.2 p hp
  have hexec : ∀ s t answer o s' t', Kept M R s (t :: o) → Orderly R s t answer o →
      M.exec s t answer = some (s', t') → Kept M R s' (t' :: o) := fun s t answer o s' t' h hok he =>
    kept_exec hprog h hok he
  have hkept : Kept M R q.shared q.threads :=
    Pool.invariant (Kept M R)
      (fun s ts ts' hts h => ⟨hperm s _ _ (Task.labels_perm hts) h.1, fun p hp => h.2 p (hts.mem_iff.2 hp)⟩) hspawn
      hexec ⟨hi, fun p hp => absurd hp (by simp)⟩ hm hr
  exact hkept.1

end Tasks

end Async
end SecureChat
