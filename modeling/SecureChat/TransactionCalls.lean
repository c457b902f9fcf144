import SecureChat.Transaction
/-!
# TransactionCalls — what every run keeps, and what one call obtains

Two rules over `Transaction`.  If no program writes before it has the lock and every write keeps `I`, then `I` holds of
the committed state of every run (`guarded_run`).  And a call whose program meets `Obtains` does not fail by itself, is
never stuck while the lock is free, and ends, if it ends, as `Obtains` says, in every run in which the others move the
committed state by `R` and the call finds times that meet `T` (`Obtains.yields`).
-/
namespace SecureChat
namespace Tx

open Runs

variable {τ σ ρ ρ' κ : Type}

def map (g : ρ → ρ') : Tx τ σ ρ → Tx τ σ ρ'
  | .commit r => .commit (g r)
  | .rollback => .rollback
  | .read k => .read fun t w => (k t w).map g
  | .write f k => .write f (k.map g)
  | .lock k => .lock (k.map g)

/-- Every write keeps `I`. -/
def Keeps (I : σ → Prop) : Tx τ σ ρ → Prop
  | .commit _ | .rollback => True
  | .read k => ∀ t w, (k t w).Keeps I
  | .write f k => (∀ w, I w → I (f w)) ∧ k.Keeps I
  | .lock k => k.Keeps I

/-- No write before the lock, and every write keeps `I`. -/
def Guarded (I : σ → Prop) : Tx τ σ ρ → Prop
  | .commit _ | .rollback => True
  | .read k => ∀ t w, (k t w).Guarded I
  | .write _ _ => False
  | .lock k => k.Keeps I

/-- With the lock, every execution from `w` at times that meet `T` commits and meets `Q`. -/
def Total (T : τ → Prop) (Q : ρ → σ → Prop) : Tx τ σ ρ → σ → Prop
  | .commit r, w => Q r w
  | .rollback, _ => False
  | .read k, w => ∀ t, T t → (k t w).Total T Q w
  | .write f k, w => k.Total T Q (f w)
  | .lock k, w => k.Total T Q w

/-- Without the lock, every execution at times that meet `T` commits and meets `Q`, wherever others move the state
`last` it saw last. -/
def Obtains (T : τ → Prop) (R : σ → σ → Prop) (Q : ρ → σ → Prop) : Tx τ σ ρ → σ → Prop
  | .commit r, last => ∀ w, R last w → Q r w
  | .rollback, _ => False
  | .read k, last => ∀ t w, T t → R last w → (k t w).Obtains T R Q w
  | .write _ _, _ => False
  | .lock k, last => ∀ w, R last w → k.Total T Q w

section Imp

variable {T : τ → Prop} {R : σ → σ → Prop} {Q Q' : ρ → σ → Prop} (hQ : ∀ r w, Q r w → Q' r w)

include hQ

theorem Total.imp : ∀ {p : Tx τ σ ρ} {w : σ}, p.Total T Q w → p.Total T Q' w
  | .commit r, w, h => hQ r w h
  | .read _, _, h => fun t ht => (h t ht).imp
  | .write _ k, _, h => Total.imp (p := k) h
  | .lock k, _, h => Total.imp (p := k) h

theorem Obtains.imp : ∀ {p : Tx τ σ ρ} {last : σ}, p.Obtains T R Q last → p.Obtains T R Q' last
  | .commit r, _, h => fun w hw => hQ r w (h w hw)
  | .read _, _, h => fun t w ht hw => (h t w ht hw).imp
  | .lock k, _, h => fun w hw => Total.imp hQ (p := k) (h w hw)

end Imp

section Map

variable {T : τ → Prop} {R : σ → σ → Prop} {Q : ρ' → σ → Prop} {g : ρ → ρ'}

theorem Total.map : ∀ {p : Tx τ σ ρ} {w : σ}, p.Total T (fun r => Q (g r)) w → (p.map g).Total T Q w
  | .commit _, _, h => h
  | .read _, _, h => fun t ht => (h t ht).map
  | .write _ k, _, h => Total.map (p := k) h
  | .lock k, _, h => Total.map (p := k) h

theorem Obtains.map : ∀ {p : Tx τ σ ρ} {last : σ}, p.Obtains T R (fun r => Q (g r)) last → (p.map g).Obtains T R Q last
  | .commit _, _, h => h
  | .read _, _, h => fun t w ht hw => (h t w ht hw).map
  | .lock k, _, h => fun w hw => Total.map (p := k) (h w hw)

end Map

section MapPost

variable {R : σ → σ → Prop} {g : ρ → ρ'}

theorem Locked.map {Q : ρ' → σ → Prop} : ∀ {p : Tx τ σ ρ} {w : σ}, p.Locked (fun r => Q (g r)) w → (p.map g).Locked Q w
  | .commit _, _, h => h
  | .rollback, _, _ => trivial
  | .read _, _, h => fun t => (h t).map
  | .write _ k, _, h => Locked.map (p := k) h
  | .lock k, _, h => Locked.map (p := k) h

theorem Open.map {Q : σ → ρ' → σ → Prop} :
    ∀ {p : Tx τ σ ρ} {last : σ}, p.Open R (fun pre r => Q pre (g r)) last → (p.map g).Open R Q last
  | .commit _, _, h => h
  | .rollback, _, _ => trivial
  | .read _, _, h => fun t w hw => (h t w hw).map
  | .lock k, _, h => fun w hw => Locked.map (p := k) (h w hw)

theorem Locked.imp {Q Q' : ρ → σ → Prop} (hQ : ∀ r w, Q r w → Q' r w) :
    ∀ {p : Tx τ σ ρ} {w : σ}, p.Locked Q w → p.Locked Q' w
  | .commit r, w, h => hQ r w h
  | .rollback, _, _ => trivial
  | .read _, _, h => fun t => (h t).imp hQ
  | .write _ k, _, h => Locked.imp (p := k) hQ h
  | .lock k, _, h => Locked.imp (p := k) hQ h

theorem Locked.and {Q Q' : ρ → σ → Prop} :
    ∀ {p : Tx τ σ ρ} {w : σ}, p.Locked Q w → p.Locked Q' w → p.Locked (fun r w => Q r w ∧ Q' r w) w
  | .commit _, _, h, h' => ⟨h, h'⟩
  | .rollback, _, _, _ => trivial
  | .read _, _, h, h' => fun t => (h t).and (h' t)
  | .write _ k, _, h, h' => Locked.and (p := k) h h'
  | .lock k, _, h, h' => Locked.and (p := k) h h'

theorem Open.imp {Q Q' : σ → ρ → σ → Prop} (hQ : ∀ pre r w, Q pre r w → Q' pre r w) :
    ∀ {p : Tx τ σ ρ} {last : σ}, p.Open R Q last → p.Open R Q' last
  | .commit r, _, h => fun w hw => hQ w r w (h w hw)
  | .rollback, _, _ => trivial
  | .read _, _, h => fun t w hw => (h t w hw).imp hQ
  | .lock k, _, h => fun w hw => Locked.imp (p := k) (hQ w) (h w hw)

end MapPost

section Keeps

variable {I : σ → Prop}

theorem Keeps.map {g : ρ → ρ'} : ∀ {p : Tx τ σ ρ}, p.Keeps I → (p.map g).Keeps I
  | .commit _, _ | .rollback, _ => trivial
  | .read _, h => fun t w => (h t w).map
  | .write _ _, h => ⟨h.1, h.2.map⟩
  | .lock k, h => Keeps.map (p := k) h

theorem Guarded.map {g : ρ → ρ'} : ∀ {p : Tx τ σ ρ}, p.Guarded I → (p.map g).Guarded I
  | .commit _, _ | .rollback, _ => trivial
  | .read _, h => fun t w => (h t w).map
  | .lock k, h => Keeps.map (p := k) h

theorem Keeps.locked_of_imp {p : Tx τ σ ρ} {w : σ} (h : p.Keeps I) {J : Prop} (hw : J → I w) :
    p.Locked (fun _ post => J → I post) w := by
  induction p generalizing w with
  | commit r => exact hw
  | rollback => trivial
  | read k ih => exact fun t => ih t w (h t w) hw
  | write f k ih => exact ih h.2 fun hJ => h.1 w (hw hJ)
  | lock k ih => exact ih h hw

theorem Guarded.open_ {p : Tx τ σ ρ} (h : p.Guarded I) (last : σ) :
    p.Open (fun _ _ => True) (fun pre _ post => I pre → I post) last := by
  induction p generalizing last with
  | commit r => exact fun _ _ hw => hw
  | rollback => trivial
  | read k ih => exact fun t w _ => ih t w (h t w) w
  | write f k => exact h.elim
  | lock k => exact fun w _ => Keeps.locked_of_imp h id

theorem Guarded.open_of_forall {R J : σ → σ → Prop} (hrefl : ∀ a, J a a) {p : Tx τ σ ρ} (h : ∀ a, p.Guarded (J a))
    (last : σ) : p.Open R (fun pre _ post => J pre post) last := by
  induction p generalizing last with
  | commit r => exact fun w _ => hrefl w
  | rollback => trivial
  | read k ih => exact fun t w _ => ih t w (fun a => h a t w) w
  | write f k => exact (h last).elim
  | lock k =>
    intro w _
    exact (Keeps.locked_of_imp (h w) (J := True) fun _ => hrefl w).imp fun _ _ hw => hw trivial

theorem guarded_run {prog : κ → Tx τ σ ρ} (hprog : ∀ x, (prog x).Guarded I) {a : σ} {s : System τ σ ρ κ}
    {es : List (Event τ κ)} (ha : I a) (hr : run (System.step prog) (System.init a) es = some s) : I s.db := by
  have h := serial_run (R := fun _ _ => True) (Q := fun _ pre _ post => I pre → I post) (fun _ => trivial)
    (fun _ _ _ _ _ => trivial) (fun _ _ _ _ _ => trivial) (fun x last => (hprog x).open_ last) hr
  exact Follows.rel (R := fun pre post => I pre → I post) (fun _ h => h) (fun _ _ _ h h' ha => h' (h ha)) h.follows
    h.meets ha

end Keeps

namespace System

/-- The steps that leave call `c` alone: it finds times that meet `T` and is not made to fail, and the commits of the
others move the state by `R`. -/
def Aside (T : τ → Prop) (R : σ → σ → Prop) (c : ℕ) (s : System τ σ ρ κ) : Event τ κ → Prop
  | .start _ _ => True
  | .exec d t => if d = c then T t else ∀ s', s.exec d t = some s' → R s.db s'.db
  | .fail d => d ≠ c

/-- **Call `c`, started as `x` and left alone**, does not fail, can go on while the lock is free or its own, and meets
`Q` once it has committed. -/
def Yields (prog : κ → Tx τ σ ρ) (T : τ → Prop) (R : σ → σ → Prop) (c : ℕ) (x : κ) (Q : ρ → System τ σ ρ κ → Prop)
    (s : System τ σ ρ κ) : Prop :=
  ∀ s₀ es s', s.step prog (.start c x) = some s₀ → Meets (step prog) (Aside T R c) s₀ es →
    run (step prog) s₀ es = some s' →
      match s'.calls c with
      | .committed r => Q r s'
      | .reading _ _ => s'.holder = none → ∀ t, (s'.exec c t).isSome
      | .holding _ _ _ _ => ∀ t, (s'.exec c t).isSome
      | .idle | .failed => False

def Promised (T : τ → Prop) (R : σ → σ → Prop) (Q : ρ → σ → Prop) (c : ℕ) (s : System τ σ ρ κ) : Prop :=
  match s.calls c with
  | .committed r => ∃ w, R w s.db ∧ Q r w
  | .reading _ p => ∃ last, R last s.db ∧ p.Obtains T R Q last
  | .holding _ p _ w => p.Total T Q w
  | .idle | .failed => False

variable {s s' : System τ σ ρ κ} {c d : ℕ} {t : τ}

theorem setCall_calls_of_ne (h : c ≠ d) (x : Call τ σ ρ κ) : (s.setCall d x).calls c = s.calls c :=
  Function.update_of_ne h _ _

theorem setCall_calls_self (x : Call τ σ ρ κ) : (s.setCall c x).calls c = x := Function.update_self _ _ _

theorem exec_calls_of_ne (h : c ≠ d) (hs : s.exec d t = some s') : s'.calls c = s.calls c := by
  have hx : ∃ x, s'.calls = (s.setCall d x).calls := by
    simp only [exec] at hs
    split at hs
    case h_5 =>
      split at hs
      · cases hs
        exact ⟨_, rfl⟩
      · cases hs
    all_goals first
      | (cases hs; exact ⟨_, rfl⟩)
      | cases hs
  obtain ⟨x, hx⟩ := hx
  rw [hx, setCall_calls_of_ne h]

section Promised

variable {T : τ → Prop} {R : σ → σ → Prop} {Q : ρ → σ → Prop}

theorem Promised.mono (htrans : ∀ a b c, R a b → R b c → R a c) (h : Promised T R Q c s)
    (hcalls : s'.calls c = s.calls c) (hR : R s.db s'.db) : Promised T R Q c s' := by
  unfold Promised at h ⊢
  rw [hcalls]
  split at h
  · obtain ⟨w, hw, hQ⟩ := h
    exact ⟨w, htrans _ _ _ hw hR, hQ⟩
  · obtain ⟨last, hl, hp⟩ := h
    exact ⟨last, htrans _ _ _ hl hR, hp⟩
  · exact h
  · exact h
  · exact h

theorem Promised.exec (hrefl : ∀ a, R a a) (h : Promised T R Q c s) (ht : T t) (hs : s.exec c t = some s') :
    Promised T R Q c s' := by
  unfold Promised at h ⊢
  simp only [System.exec] at hs
  split at hs
  · rename_i x r hc
    cases hs
    rw [hc] at h
    obtain ⟨last, hl, hp⟩ := h
    rw [setCall_calls_self]
    exact ⟨s.db, hrefl _, hp s.db hl⟩
  · rename_i hc
    rw [hc] at h
    obtain ⟨last, hl, hp⟩ := h
    exact hp.elim
  · rename_i x k hc
    cases hs
    rw [hc] at h
    obtain ⟨last, hl, hp⟩ := h
    rw [setCall_calls_self]
    exact ⟨s.db, hrefl _, hp t s.db ht hl⟩
  · cases hs
  · rename_i x k hc
    rw [hc] at h
    obtain ⟨last, hl, hp⟩ := h
    split at hs
    · cases hs
      rw [setCall_calls_self]
      exact hp s.db hl
    · cases hs
  · rename_i x r pre copy hc
    cases hs
    rw [hc] at h
    rw [setCall_calls_self]
    exact ⟨copy, hrefl _, h⟩
  · rename_i hc
    rw [hc] at h
    exact h.elim
  · rename_i x k pre copy hc
    cases hs
    rw [hc] at h
    rw [setCall_calls_self]
    exact h t ht
  · rename_i x f k pre copy hc
    cases hs
    rw [hc] at h
    rw [setCall_calls_self]
    exact h
  · rename_i x k pre copy hc
    cases hs
    rw [hc] at h
    rw [setCall_calls_self]
    exact h
  all_goals cases hs

theorem promised_step {prog : κ → Tx τ σ ρ} (hrefl : ∀ a, R a a) (htrans : ∀ a b c, R a b → R b c → R a c)
    (s : System τ σ ρ κ) (e : Event τ κ) (s' : System τ σ ρ κ) (h : Promised T R Q c s) (he : Aside T R c s e)
    (hs : s.step prog e = some s') : Promised T R Q c s' := by
  cases e with
  | start d x =>
    simp only [step] at hs
    split at hs
    · rename_i hd
      cases hs
      have hcd : c ≠ d := by
        rintro rfl
        unfold Promised at h
        rw [hd] at h
        exact h
      exact h.mono htrans (setCall_calls_of_ne hcd _) (hrefl _)
    · cases hs
  | exec d t =>
    simp only [Aside] at he
    split at he
    · subst d
      exact h.exec hrefl he hs
    · rename_i hdc
      exact h.mono htrans (exec_calls_of_ne (Ne.symm hdc) hs) (he s' hs)
  | fail d =>
    simp only [step] at hs
    split at hs
    · cases hs
      exact h.mono htrans (setCall_calls_of_ne (Ne.symm he) _) (hrefl _)
    · cases hs
      exact h.mono htrans (setCall_calls_of_ne (Ne.symm he) _) (hrefl _)
    · cases hs

theorem Promised.enabled (h : Promised T R Q c s) :
    match s.calls c with
    | .committed r => ∃ w, R w s.db ∧ Q r w
    | .reading _ _ => s.holder = none → ∀ t, (s.exec c t).isSome
    | .holding _ _ _ _ => ∀ t, (s.exec c t).isSome
    | .idle | .failed => False := by
  unfold Promised at h
  split at h
  · exact h
  · rename_i x p hc
    intro hfree t
    obtain ⟨last, hl, hp⟩ := h
    cases p with
    | write f k => exact hp.elim
    | commit | rollback | read | lock => simp [System.exec, hc, hfree]
  · rename_i x p pre w hc
    intro t
    cases p <;> simp [System.exec, hc]
  · exact h
  · exact h

end Promised

end System

theorem Obtains.yields {prog : κ → Tx τ σ ρ} {T : τ → Prop} {R : σ → σ → Prop} {Q : ρ → σ → Prop}
    (hrefl : ∀ a, R a a) (htrans : ∀ a b c, R a b → R b c → R a c) {x : κ} {s : System τ σ ρ κ}
    (h : (prog x).Obtains T R Q s.db) (c : ℕ) :
    s.Yields prog T R c x fun r s' => ∃ w, R w s'.db ∧ Q r w := by
  intro s₀ es s' h₀ hm hr
  have hstart : System.Promised T R Q c s₀ := by
    simp only [System.step] at h₀
    split at h₀
    · cases h₀
      unfold System.Promised
      rw [System.setCall_calls_self]
      exact ⟨s.db, hrefl _, h⟩
    · cases h₀
  exact (hm.invariant _ (System.promised_step hrefl htrans) hstart hr).enabled

theorem System.Yields.imp {prog : κ → Tx τ σ ρ} {T : τ → Prop} {R : σ → σ → Prop} {c : ℕ} {x : κ}
    {Q Q' : ρ → System τ σ ρ κ → Prop} {s : System τ σ ρ κ} (h : s.Yields prog T R c x Q)
    (hQ : ∀ r s', Q r s' → Q' r s') : s.Yields prog T R c x Q' := by
  intro s₀ es s' h₀ hm hr
  have := h s₀ es s' h₀ hm hr
  split at this
  · exact hQ _ _ this
  · exact this
  · exact this
  · exact this
  · exact this

end Tx
end SecureChat
