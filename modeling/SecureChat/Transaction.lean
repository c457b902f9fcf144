import Mathlib.Algebra.Ring.Nat
import Mathlib.Data.List.Nodup
import Mathlib.Logic.Function.Basic
import SecureChat.Runs
/-!
# Transaction — programs of statements that serialize on one row lock

A transaction is a program of statements: reads, writes and the lock of one row, each of which may find another time `τ`
on the clock.  Before it has the lock a transaction reads what others have committed; from then on it works on its own
copy, which becomes the committed state when it commits and is dropped when it fails, at any statement.

`Open` and `Locked` are the conditions under which every execution of a program meets a postcondition `Q pre r post`,
where others may move the committed state by a preorder `R` until the lock is taken.  `serial_run` is the rule: if every
program meets its condition and every commit moves the state by `R`, then in any interleaving with any failures the
commits follow one another and meet `Q`, and nothing else changes the state.
-/
namespace SecureChat

/-- A transaction; `rollback` is an exception of its own, `read` also tells the time. -/
inductive Tx (τ σ ρ : Type) where
  | commit (r : ρ)
  | rollback
  | read (k : τ → σ → Tx τ σ ρ)
  | write (f : σ → σ) (k : Tx τ σ ρ)
  | lock (k : Tx τ σ ρ)

namespace Tx

open Runs

variable {τ σ ρ κ : Type}

/-- With the lock, every execution from `w` that commits meets `Q`. -/
def Locked (Q : ρ → σ → Prop) : Tx τ σ ρ → σ → Prop
  | .commit r, w => Q r w
  | .rollback, _ => True
  | .read k, w => ∀ t, (k t w).Locked Q w
  | .write f k, w => k.Locked Q (f w)
  | .lock k, w => k.Locked Q w

/-- Without the lock, every execution that commits meets `Q`, wherever others move the state `last` it saw last. -/
def Open (R : σ → σ → Prop) (Q : σ → ρ → σ → Prop) : Tx τ σ ρ → σ → Prop
  | .commit r, last => ∀ w, R last w → Q w r w
  | .rollback, _ => True
  | .read k, last => ∀ t w, R last w → (k t w).Open R Q w
  | .write _ _, _ => False
  | .lock k, last => ∀ w, R last w → k.Locked (Q w) w

/-- A call of the program labelled `x`. -/
inductive Call (τ σ ρ κ : Type) where
  | idle
  | reading (x : κ) (p : Tx τ σ ρ)
  | holding (x : κ) (p : Tx τ σ ρ) (pre copy : σ)
  | committed (r : ρ)
  | failed

structure Entry (σ ρ κ : Type) where
  call : ℕ
  label : κ
  result : ρ
  pre : σ
  post : σ

/-- The committed state, the row lock, the calls and, as a ghost, the commits in their order. -/
structure System (τ σ ρ κ : Type) where
  db : σ
  holder : Option ℕ
  calls : ℕ → Call τ σ ρ κ
  log : List (Entry σ ρ κ)

inductive Event (τ κ : Type) where
  | start (c : ℕ) (x : κ)
  | exec (c : ℕ) (t : τ)
  | fail (c : ℕ)

namespace System

def init (db : σ) : System τ σ ρ κ := ⟨db, none, fun _ => .idle, []⟩

def setCall (c : ℕ) (x : Call τ σ ρ κ) (s : System τ σ ρ κ) : System τ σ ρ κ :=
  { s with calls := Function.update s.calls c x }

/-- The next statement of a call, at time `t`. -/
def exec (c : ℕ) (t : τ) (s : System τ σ ρ κ) : Option (System τ σ ρ κ) :=
  match s.calls c with
  | .reading x (.commit r) => some { s.setCall c (.committed r) with log := s.log ++ [⟨c, x, r, s.db, s.db⟩] }
  | .reading _ .rollback => some (s.setCall c .failed)
  | .reading x (.read k) => some (s.setCall c (.reading x (k t s.db)))
  | .reading _ (.write _ _) => none
  | .reading x (.lock k) =>
    match s.holder with
    | none => some { s.setCall c (.holding x k s.db s.db) with holder := some c }
    | some _ => none
  | .holding x (.commit r) pre copy =>
    some { s.setCall c (.committed r) with db := copy, holder := none, log := s.log ++ [⟨c, x, r, pre, copy⟩] }
  | .holding _ .rollback _ _ => some { s.setCall c .failed with holder := none }
  | .holding x (.read k) pre copy => some (s.setCall c (.holding x (k t copy) pre copy))
  | .holding x (.write f k) pre copy => some (s.setCall c (.holding x k pre (f copy)))
  | .holding x (.lock k) pre copy => some (s.setCall c (.holding x k pre copy))
  | .idle | .committed _ | .failed => none

def step (prog : κ → Tx τ σ ρ) (s : System τ σ ρ κ) : Event τ κ → Option (System τ σ ρ κ)
  | .start c x =>
    match s.calls c with
    | .idle => some (s.setCall c (.reading x (prog x)))
    | _ => none
  | .exec c t => s.exec c t
  | .fail c =>
    match s.calls c with
    | .reading _ _ => some (s.setCall c .failed)
    | .holding _ _ _ _ => some { s.setCall c .failed with holder := none }
    | _ => none

end System

/-- The commits take the state from `a` to `b`, each from where the one before it left it. -/
def Follows : σ → List (Entry σ ρ κ) → σ → Prop
  | a, [], b => a = b
  | a, e :: es, b => e.pre = a ∧ Follows e.post es b

theorem Follows.append {a b : σ} {es : List (Entry σ ρ κ)} {e : Entry σ ρ κ} (h : Follows a es b) (he : e.pre = b) :
    Follows a (es ++ [e]) e.post := by
  induction es generalizing a with
  | nil =>
    cases h
    exact ⟨he, rfl⟩
  | cons e' es ih => exact ⟨h.1, ih h.2⟩

theorem Follows.split {a b : σ} {es es' : List (Entry σ ρ κ)} (h : Follows a (es ++ es') b) :
    ∃ c, Follows a es c ∧ Follows c es' b := by
  induction es generalizing a with
  | nil => exact ⟨a, rfl, h⟩
  | cons e es ih =>
    obtain ⟨c, hc, hc'⟩ := ih h.2
    exact ⟨c, ⟨h.1, hc⟩, hc'⟩

/-- What the commits spend, each from what is left before it, is no more than there was. -/
theorem Follows.sum_le {a b : σ} {es : List (Entry σ ρ κ)} (h : Follows a es b) (m : σ → ℕ) (spent : Entry σ ρ κ → ℕ)
    (he : ∀ e ∈ es, m e.post + spent e ≤ m e.pre) : m b + (es.map spent).sum ≤ m a := by
  induction es generalizing a with
  | nil =>
    cases h
    exact Nat.le_refl _
  | cons e es ih =>
    obtain ⟨rfl, h⟩ := h
    have hhead := he e List.mem_cons_self
    have htail := ih h fun e' h' => he e' (List.mem_cons_of_mem _ h')
    rw [List.map_cons, List.sum_cons]
    omega

section Order

variable {R : σ → σ → Prop} (hrefl : ∀ a, R a a) (htrans : ∀ a b c, R a b → R b c → R a c)

include hrefl htrans

/-- If every commit moves the state by `R`, so do all of them together. -/
theorem Follows.rel {a b : σ} {es : List (Entry σ ρ κ)} (h : Follows a es b) (he : ∀ e ∈ es, R e.pre e.post) :
    R a b := by
  induction es generalizing a with
  | nil =>
    cases h
    exact hrefl _
  | cons e es ih =>
    obtain ⟨rfl, h⟩ := h
    exact htrans _ _ _ (he e List.mem_cons_self) (ih h fun e' h' => he e' (List.mem_cons_of_mem _ h'))

/-- An earlier commit's state moves by `R` to a later one's. -/
theorem Follows.pairwise {a b : σ} {es : List (Entry σ ρ κ)} (h : Follows a es b) (he : ∀ e ∈ es, R e.pre e.post) :
    es.Pairwise fun e e' => R e.post e'.pre := by
  have hlater : ∀ {es : List (Entry σ ρ κ)} {a}, Follows a es b → (∀ e ∈ es, R e.pre e.post) →
      ∀ e' ∈ es, R a e'.pre := by
    intro es
    induction es with
    | nil => exact fun _ _ e' h' => absurd h' List.not_mem_nil
    | cons e es ih =>
      rintro a ⟨rfl, h⟩ he e' h'
      rcases List.mem_cons.1 h' with rfl | h'
      · exact hrefl _
      · exact htrans _ _ _ (he e List.mem_cons_self) (ih h (fun e' h' => he e' (List.mem_cons_of_mem _ h')) e' h')
  induction es generalizing a with
  | nil => exact .nil
  | cons e es ih =>
    refine .cons (fun e' h' => ?_) (ih h.2 fun e' h' => he e' (List.mem_cons_of_mem _ h'))
    exact hlater h.2 (fun e' h' => he e' (List.mem_cons_of_mem _ h')) e' h'

end Order

structure Serial (Q : κ → σ → ρ → σ → Prop) (a : σ) (s : System τ σ ρ κ) : Prop where
  follows : Follows a s.log s.db
  meets : ∀ e ∈ s.log, Q e.label e.pre e.result e.post
  committed : ∀ e ∈ s.log, s.calls e.call = .committed e.result
  nodup : (s.log.map Entry.call).Nodup

/-- What the induction carries: the condition of what is left of every program. -/
structure Inv (R : σ → σ → Prop) (Q : κ → σ → ρ → σ → Prop) (a : σ) (s : System τ σ ρ κ) : Prop
    extends Serial Q a s where
  reading : ∀ c x p, s.calls c = .reading x p → ∃ last, R last s.db ∧ p.Open R (Q x) last
  holding : ∀ c x p pre copy, s.calls c = .holding x p pre copy →
    s.holder = some c ∧ pre = s.db ∧ p.Locked (Q x pre) copy

theorem inv_init {R : σ → σ → Prop} {Q : κ → σ → ρ → σ → Prop} (a : σ) :
    Inv R Q a (System.init a : System τ σ ρ κ) where
  follows := rfl
  meets := nofun
  committed := nofun
  nodup := List.nodup_nil
  reading := nofun
  holding := nofun

section Steps

variable {R : σ → σ → Prop} {Q : κ → σ → ρ → σ → Prop} {a : σ} {s : System τ σ ρ κ}

theorem Inv.setCall (h : Inv R Q a s) {c : ℕ} {x : Call τ σ ρ κ} {holder : Option ℕ}
    (hc : ∀ r, s.calls c ≠ .committed r)
    (hreading : ∀ y p, x = .reading y p → ∃ last, R last s.db ∧ p.Open R (Q y) last)
    (hholding : ∀ y p pre copy, x = .holding y p pre copy →
      holder = some c ∧ pre = s.db ∧ p.Locked (Q y pre) copy)
    (hothers : ∀ d, d ≠ c → s.holder = some d → holder = some d) :
    Inv R Q a { s.setCall c x with holder := holder } where
  follows := h.follows
  meets := h.meets
  committed e he := by
    have := h.committed e he
    have hec : e.call ≠ c := by
      rintro rfl
      exact hc _ this
    simpa only [System.setCall, Function.update_of_ne hec] using this
  nodup := h.nodup
  reading d y p hd := by
    by_cases hdc : d = c
    · subst hdc
      simp only [System.setCall, Function.update_self] at hd
      exact hreading y p hd
    · simp only [System.setCall, Function.update_of_ne hdc] at hd
      exact h.reading d y p hd
  holding d y p pre copy hd := by
    by_cases hdc : d = c
    · subst hdc
      simp only [System.setCall, Function.update_self] at hd
      exact hholding y p pre copy hd
    · simp only [System.setCall, Function.update_of_ne hdc] at hd
      obtain ⟨h1, h2, h3⟩ := h.holding d y p pre copy hd
      exact ⟨hothers d hdc h1, h2, h3⟩

theorem Inv.commit (htrans : ∀ a b c, R a b → R b c → R a c) (h : Inv R Q a s) {c : ℕ} {x : κ} {r : ρ} {w : σ}
    (hc : ∀ r, s.calls c ≠ .committed r) (hQ : Q x s.db r w) (hR : R s.db w)
    (hothers : ∀ d, d ≠ c → s.holder = some d → w = s.db) {holder : Option ℕ}
    (hkeep : ∀ d, d ≠ c → s.holder = some d → holder = some d) :
    Inv R Q a { s.setCall c (.committed r) with
      db := w, holder := holder, log := s.log ++ [⟨c, x, r, s.db, w⟩] } where
  follows := h.follows.append rfl
  meets e he := by
    rcases List.mem_append.1 he with he | he
    · exact h.meets e he
    · rw [List.mem_singleton] at he
      subst he
      exact hQ
  committed e he := by
    rcases List.mem_append.1 he with he | he
    · have := h.committed e he
      have hec : e.call ≠ c := by
        rintro rfl
        exact hc _ this
      simpa only [System.setCall, Function.update_of_ne hec] using this
    · rw [List.mem_singleton] at he
      subst he
      simp only [System.setCall, Function.update_self]
  nodup := by
    rw [List.map_append, List.nodup_append]
    refine ⟨h.nodup, List.nodup_singleton _, fun d hd d' hd' => ?_⟩
    obtain ⟨e, he, rfl⟩ := List.mem_map.1 hd
    rw [List.map_singleton, List.mem_singleton] at hd'
    subst hd'
    rintro heq
    exact hc _ (heq ▸ h.committed e he)
  reading d y p hd := by
    by_cases hdc : d = c
    · subst hdc
      simp only [System.setCall, Function.update_self] at hd
      cases hd
    · simp only [System.setCall, Function.update_of_ne hdc] at hd
      obtain ⟨last, hl, hp⟩ := h.reading d y p hd
      exact ⟨last, htrans _ _ _ hl hR, hp⟩
  holding d y p pre copy hd := by
    by_cases hdc : d = c
    · subst hdc
      simp only [System.setCall, Function.update_self] at hd
      cases hd
    · simp only [System.setCall, Function.update_of_ne hdc] at hd
      obtain ⟨h1, h2, h3⟩ := h.holding d y p pre copy hd
      exact ⟨hkeep d hdc h1, h2.trans (hothers d hdc h1).symm, h3⟩

theorem Inv.not_holder (h : Inv R Q a s) {c d : ℕ} {x : κ} {p : Tx τ σ ρ} {pre copy : σ}
    (hc : s.calls c = .holding x p pre copy) (hd : d ≠ c) : s.holder ≠ some d := by
  obtain ⟨hh, -⟩ := h.holding c x p pre copy hc
  intro hhd
  rw [hh, Option.some.injEq] at hhd
  exact hd hhd.symm

theorem inv_step {prog : κ → Tx τ σ ρ} (hrefl : ∀ a, R a a) (htrans : ∀ a b c, R a b → R b c → R a c)
    (hQR : ∀ x pre r post, Q x pre r post → R pre post) (hprog : ∀ x last, (prog x).Open R (Q x) last)
    (s : System τ σ ρ κ) (e : Event τ κ) (s' : System τ σ ρ κ) (h : Inv R Q a s) (hs : s.step prog e = some s') :
    Inv R Q a s' := by
  cases e with
  | start c x =>
    simp only [System.step] at hs
    split at hs
    · rename_i hc
      cases hs
      refine h.setCall (by rw [hc]; nofun) (fun y p hx => ?_) nofun (fun _ _ hd => hd)
      cases hx
      exact ⟨s.db, hrefl _, hprog x s.db⟩
    · cases hs
  | exec c t =>
    simp only [System.step, System.exec] at hs
    split at hs
    · rename_i x r hc
      cases hs
      obtain ⟨last, hl, hp⟩ := h.reading c x _ hc
      exact h.commit htrans (by rw [hc]; nofun) (hp s.db hl) (hrefl _) (fun _ _ _ => rfl) fun _ _ hd => hd
    · rename_i hc
      cases hs
      exact h.setCall (by rw [hc]; nofun) nofun nofun fun _ _ hd => hd
    · rename_i x k hc
      cases hs
      obtain ⟨last, hl, hp⟩ := h.reading c x _ hc
      refine h.setCall (by rw [hc]; nofun) (fun y p hx => ?_) nofun fun _ _ hd => hd
      cases hx
      exact ⟨s.db, hrefl _, hp t s.db hl⟩
    · cases hs
    · rename_i x k hc
      split at hs
      · rename_i hno
        cases hs
        obtain ⟨last, hl, hp⟩ := h.reading c x _ hc
        refine h.setCall (by rw [hc]; nofun) nofun (fun y p pre copy hx => ?_) fun d _ hd => ?_
        · cases hx
          exact ⟨rfl, rfl, hp s.db hl⟩
        · rw [hno] at hd
          cases hd
      · cases hs
    · rename_i x r pre copy hc
      cases hs
      obtain ⟨hh, rfl, hp⟩ := h.holding c x _ pre copy hc
      exact h.commit htrans (by rw [hc]; nofun) hp (hQR x _ r _ hp)
        (fun d hd hhd => absurd hhd (h.not_holder hc hd)) fun d hd hhd => absurd hhd (h.not_holder hc hd)
    · rename_i x pre copy hc
      cases hs
      exact h.setCall (by rw [hc]; nofun) nofun nofun fun d hd hhd => absurd hhd (h.not_holder hc hd)
    · rename_i x k pre copy hc
      cases hs
      obtain ⟨hh, hpre, hp⟩ := h.holding c x _ pre copy hc
      refine h.setCall (by rw [hc]; nofun) nofun (fun y p pre' copy' hx => ?_) fun _ _ hd => hd
      cases hx
      exact ⟨hh, hpre, hp t⟩
    · rename_i x f k pre copy hc
      cases hs
      obtain ⟨hh, hpre, hp⟩ := h.holding c x _ pre copy hc
      refine h.setCall (by rw [hc]; nofun) nofun (fun y p pre' copy' hx => ?_) fun _ _ hd => hd
      cases hx
      exact ⟨hh, hpre, hp⟩
    · rename_i x k pre copy hc
      cases hs
      obtain ⟨hh, hpre, hp⟩ := h.holding c x _ pre copy hc
      refine h.setCall (by rw [hc]; nofun) nofun (fun y p pre' copy' hx => ?_) fun _ _ hd => hd
      cases hx
      exact ⟨hh, hpre, hp⟩
    · cases hs
    · cases hs
    · cases hs
  | fail c =>
    simp only [System.step] at hs
    split at hs
    · rename_i hc
      cases hs
      exact h.setCall (by rw [hc]; nofun) nofun nofun fun _ _ hd => hd
    · rename_i x p pre copy hc
      cases hs
      exact h.setCall (by rw [hc]; nofun) nofun nofun fun d hd hhd => absurd hhd (h.not_holder hc hd)
    · cases hs

end Steps

/-- **The rule**: if every program meets its condition, then in every interleaving, with any failures, the commits
follow one another from the first state to the last, each as its program promises, and a call that failed is not among
them. -/
theorem serial_run {R : σ → σ → Prop} {Q : κ → σ → ρ → σ → Prop} {prog : κ → Tx τ σ ρ} (hrefl : ∀ a, R a a)
    (htrans : ∀ a b c, R a b → R b c → R a c) (hQR : ∀ x pre r post, Q x pre r post → R pre post)
    (hprog : ∀ x last, (prog x).Open R (Q x) last) {a : σ} {s : System τ σ ρ κ} {es : List (Event τ κ)}
    (hr : run (System.step prog) (System.init a) es = some s) : Serial Q a s :=
  (run_invariant (Inv R Q a) (inv_step hrefl htrans hQR hprog) (inv_init a) hr).toSerial

end Tx
end SecureChat
