import Mathlib.Data.List.Nodup
import Mathlib.Logic.Function.Basic
import SecureChat.Runs
/-!
# Cell — read, modify, write of one stored record

Any number of calls load the record, run operations on their own copy of it and store the copy back; nothing keeps them
apart.  A call whose operation fails stores nothing.  `log` is a ghost: the operations of the calls that stored, in the
order of their stores.

A store is undisturbed when the record is still the one its call loaded.  If every store is, the record is what the
logged operations make of the first one, one call after the other.
-/
namespace SecureChat
namespace Cell

open Runs

variable {α ο : Type}

inductive Call (α ο : Type) where
  | idle
  | running (base copy : α) (ops : List ο)
  | done (ops : List ο)
  | failed

structure State (α ο : Type) where
  record : α
  calls : ℕ → Call α ο
  log : List (ℕ × List ο)

inductive Event (ο : Type) where
  | load (c : ℕ)
  | act (c : ℕ) (op : ο)
  | throw (c : ℕ)
  | store (c : ℕ)

def Call.base : Call α ο → Option α
  | .running base _ _ => some base
  | _ => none

namespace State

def init (a : α) : State α ο := ⟨a, fun _ => .idle, []⟩

def setCall (c : ℕ) (x : Call α ο) (s : State α ο) : State α ο := { s with calls := Function.update s.calls c x }

def step (apply : ο → α → Option α) (s : State α ο) : Event ο → Option (State α ο)
  | .load c =>
    match s.calls c with
    | .idle => some (s.setCall c (.running s.record s.record []))
    | _ => none
  | .act c op =>
    match s.calls c with
    | .running base copy ops =>
      match apply op copy with
      | some copy' => some (s.setCall c (.running base copy' (ops ++ [op])))
      | none => some (s.setCall c .failed)
    | _ => none
  | .throw c =>
    match s.calls c with
    | .running _ _ _ => some (s.setCall c .failed)
    | _ => none
  | .store c =>
    match s.calls c with
    | .running _ copy ops => some { s.setCall c (.done ops) with record := copy, log := s.log ++ [(c, ops)] }
    | _ => none

def Undisturbed (s : State α ο) : Event ο → Prop
  | .store c => ∀ base ∈ (s.calls c).base, s.record = base
  | _ => True

@[simp] theorem calls_setCall_self (c : ℕ) (x : Call α ο) (s : State α ο) : (s.setCall c x).calls c = x := by
  simp only [setCall, Function.update_self]

theorem calls_setCall_ne {c d : ℕ} (h : d ≠ c) (x : Call α ο) (s : State α ο) :
    (s.setCall c x).calls d = s.calls d := by
  simp only [setCall, Function.update_of_ne h]

end State

/-- The operations one after the other; `none` if one of them fails. -/
def replay (apply : ο → α → Option α) : List ο → α → Option α
  | [],        a => some a
  | op :: ops, a => (apply op a).bind (replay apply ops)

section Replay

variable {apply : ο → α → Option α}

@[simp] theorem replay_nil (a : α) : replay apply [] a = some a := rfl

theorem replay_cons (op : ο) (ops : List ο) (a : α) :
    replay apply (op :: ops) a = (apply op a).bind (replay apply ops) := rfl

theorem replay_append (xs ys : List ο) (a : α) :
    replay apply (xs ++ ys) a = (replay apply xs a).bind (replay apply ys) := by
  induction xs generalizing a with
  | nil => rfl
  | cons op xs ih =>
    rw [List.cons_append, replay_cons, replay_cons]
    cases apply op a with
    | none => rfl
    | some b => exact ih b

theorem replay_invariant {p : α → Prop} {ops : List ο} {a b : α}
    (hop : ∀ op ∈ ops, ∀ x y, p x → apply op x = some y → p y) (ha : p a) (hr : replay apply ops a = some b) : p b := by
  induction ops generalizing a with
  | nil => cases hr; exact ha
  | cons op ops ih =>
    rw [replay_cons, Option.bind_eq_some_iff] at hr
    obtain ⟨x, hx, hr⟩ := hr
    exact ih (fun o ho => hop o (List.mem_cons_of_mem _ ho)) (hop op List.mem_cons_self a x ha hx) hr

end Replay

def State.history (s : State α ο) : List ο := s.log.flatMap Prod.snd

/-- Serial: the record is the replay of the history, and the history is that of the completed calls. -/
structure Serial (apply : ο → α → Option α) (a : α) (s : State α ο) : Prop where
  record_eq : replay apply s.history a = some s.record
  logged : ∀ c ops, (c, ops) ∈ s.log ↔ s.calls c = .done ops
  nodup : (s.log.map Prod.fst).Nodup

/-- What the induction carries: a running call's copy is what its operations make of the record it loaded. -/
structure Inv (apply : ο → α → Option α) (a : α) (s : State α ο) : Prop extends Serial apply a s where
  copied : ∀ c base copy ops, s.calls c = .running base copy ops → replay apply ops base = some copy

section

variable {apply : ο → α → Option α} {a : α} {s : State α ο}

theorem inv_init : Inv apply a (State.init a : State α ο) where
  record_eq := rfl
  logged _ _ := ⟨nofun, nofun⟩
  nodup := List.nodup_nil
  copied := nofun

theorem Inv.setCall (h : Inv apply a s) {c : ℕ} {x : Call α ο} (hc : ∀ ops, s.calls c ≠ .done ops)
    (hx : ∀ ops, x ≠ .done ops) (hcopy : ∀ base copy ops, x = .running base copy ops →
      replay apply ops base = some copy) : Inv apply a (s.setCall c x) where
  record_eq := h.record_eq
  logged d ops := by
    by_cases hd : d = c
    · subst hd
      rw [State.calls_setCall_self]
      exact ⟨fun hm => absurd ((h.logged d ops).1 hm) (hc ops), fun hm => absurd hm (hx ops)⟩
    · rw [State.calls_setCall_ne hd]
      exact h.logged d ops
  nodup := h.nodup
  copied d base copy ops hd := by
    by_cases hdc : d = c
    · subst hdc
      rw [State.calls_setCall_self] at hd
      exact hcopy base copy ops hd
    · rw [State.calls_setCall_ne hdc] at hd
      exact h.copied d base copy ops hd

theorem Inv.store (h : Inv apply a s) {c : ℕ} {copy : α} {ops : List ο} (hc : s.calls c = .running s.record copy ops) :
    Inv apply a { s.setCall c (.done ops) with record := copy, log := s.log ++ [(c, ops)] } where
  record_eq := by
    simp only [State.history, List.flatMap_append, List.flatMap_cons, List.flatMap_nil, List.append_nil]
    rw [replay_append]
    show (replay apply s.history a).bind _ = _
    rw [h.record_eq]
    exact h.copied c _ _ _ hc
  logged d ops' := by
    simp only [List.mem_append, List.mem_singleton, Prod.mk.injEq]
    by_cases hd : d = c
    · subst hd
      have hno : (d, ops') ∉ s.log := fun hm => by
        rw [h.logged, hc] at hm
        cases hm
      simp only [hno, false_or, true_and, State.setCall, Function.update_self, Call.done.injEq]
      exact eq_comm
    · simp only [hd, false_and, or_false, State.setCall, Function.update_of_ne hd]
      exact h.logged d ops'
  nodup := by
    rw [List.map_append, List.nodup_append]
    refine ⟨h.nodup, List.nodup_singleton _, fun x hx y hy hxy => ?_⟩
    obtain ⟨⟨d, ops'⟩, hm, rfl⟩ := List.mem_map.1 hx
    rw [List.map_singleton, List.mem_singleton] at hy
    subst hy
    rw [h.logged] at hm
    simp only at hxy
    rw [hxy, hc] at hm
    cases hm
  copied d base copy' ops' hd := by
    by_cases hdc : d = c
    · subst hdc
      simp [State.setCall] at hd
    · simp only [State.setCall, Function.update_of_ne hdc] at hd
      exact h.copied d base copy' ops' hd

theorem inv_step (s : State α ο) (e : Event ο) (s' : State α ο) (h : Inv apply a s) (hok : s.Undisturbed e)
    (hs : s.step apply e = some s') : Inv apply a s' := by
  cases e with
  | load c =>
    simp only [State.step] at hs
    split at hs
    · rename_i hc
      cases hs
      refine h.setCall (fun ops hd => ?_) nofun (fun base copy ops hx => ?_)
      · rw [hc] at hd
        cases hd
      · cases hx
        rfl
    · cases hs
  | act c op =>
    simp only [State.step] at hs
    split at hs
    · rename_i base copy ops hc
      have hnd : ∀ ops', s.calls c ≠ .done ops' := fun ops' hd => by
        rw [hc] at hd
        cases hd
      split at hs
      · rename_i copy' hop
        cases hs
        refine h.setCall hnd nofun (fun base' copy'' ops' hx => ?_)
        cases hx
        rw [replay_append, h.copied c _ _ _ hc]
        simp [replay_cons, hop]
      · cases hs
        exact h.setCall hnd nofun nofun
    · cases hs
  | throw c =>
    simp only [State.step] at hs
    split at hs
    · rename_i hc
      cases hs
      refine h.setCall (fun ops hd => ?_) nofun nofun
      rw [hc] at hd
      cases hd
    · cases hs
  | store c =>
    simp only [State.step] at hs
    split at hs
    · rename_i base copy ops hc
      cases hs
      have hb : s.record = base := hok base (by rw [hc]; rfl)
      exact h.store (hb ▸ hc)
    · cases hs

end

end Cell
end SecureChat
