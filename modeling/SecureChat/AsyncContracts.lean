import SecureChat.AsyncTasks
/-!
# AsyncContracts — pre- and postconditions of asynchronous programs

`Contract E P p Q`: beside calls that keep the invariant, `p` started where `P` holds ends with `Q`, or throws with `E`.
Where the calls of a pool hold locks, the assertions speak of what the call that runs holds; the invariant is asked for
only where it waits.
-/
namespace SecureChat
namespace Async
namespace Program

variable {ι π σ ε κ α β : Type} (M : Tasks ι π σ ε κ) (R : Tasks.Rules ι π σ κ)

/-- From `P` a program ends with `Q`, or throws with `E`. -/
def Contract (E P : σ → List π → Prop) (p : Program ι π σ ε α) (Q : α → σ → List π → Prop) : Prop :=
  ∀ s o, P s o → p.HoldsBeside M R (fun r s o => match r with
    | .ok a => Q a s o
    | .error _ => E s o) s o

variable {M R} {E P : σ → List π → Prop}

theorem contract_pure {Q : α → σ → List π → Prop} {a : α} (h : ∀ s o, P s o → Q a s o) :
    (Pure.pure a : Program ι π σ ε α).Contract M R E P Q := h

theorem contract_throw {Q : α → σ → List π → Prop} {e : ε} (h : ∀ s o, P s o → E s o) :
    (.throw e : Program ι π σ ε α).Contract M R E P Q := h

theorem contract_get : (get : Program ι π σ ε σ).Contract M R E P fun a s o => a = s ∧ P s o := fun _ _ hp => ⟨rfl, hp⟩

theorem contract_sync {f : σ → σ} {g : σ → α} {Q : α → σ → List π → Prop} (h : ∀ s o, P s o → Q (g s) (f s) o) :
    (.sync f fun s => .pure (g s) : Program ι π σ ε α).Contract M R E P Q := h

theorem contract_modify {f : σ → σ} {Q : Unit → σ → List π → Prop} (h : ∀ s o, P s o → Q () (f s) o) :
    (modify f : Program ι π σ ε Unit).Contract M R E P Q := h

theorem contract_await {l : π} {f : ι → σ → σ} {g : ι → σ → α} {e : ε} {Q : α → σ → List π → Prop}
    (hl : ∀ s o, P s o → R.Inv s (l :: o))
    (hf : ∀ s o, R.Inv s (l :: o) → M.ready l none s = true → R.Admitted l none s o → E s o)
    (ha : ∀ i s o, R.Inv s (l :: o) → M.ready l (some i) s = true → R.Admitted l (some i) s o → Q (g i s) (f i s) o) :
    (.await l f (fun i s => .pure (g i s)) (.throw e) : Program ι π σ ε α).Contract M R E P Q :=
  fun s o hp => ⟨hl s o hp, fun s' o' hi => ⟨hf s' o' hi, fun i => ha i s' o' hi⟩⟩

theorem Contract.mono {P' : σ → List π → Prop} {p : Program ι π σ ε α} {Q Q' : α → σ → List π → Prop}
    (h : p.Contract M R E P Q) (hp : ∀ s o, P' s o → P s o) (hq : ∀ a s o, Q a s o → Q' a s o) :
    p.Contract M R E P' Q' := by
  intro s o hs
  refine (h s o (hp s o hs)).imp fun r s o hr => ?_
  cases r with
  | ok a => exact hq a s o hr
  | error e => exact hr

theorem Contract.bind {p : Program ι π σ ε α} {k : α → Program ι π σ ε β} {Q : α → σ → List π → Prop}
    {S : β → σ → List π → Prop} (hp : p.Contract M R E P Q) (hk : ∀ a, (k a).Contract M R E (Q a) S) :
    (p >>= k).Contract M R E P S := by
  intro s o hs
  refine HoldsBeside.bind ((hp s o hs).imp fun r s o hr => ?_)
  cases r with
  | ok a => exact hk a s o hr
  | error e => exact hr

theorem Contract.attempt {E' : σ → List π → Prop} {p : Program ι π σ ε α} {Q : α → σ → List π → Prop}
    (hp : p.Contract M R E P Q) : p.attempt.Contract M R E' P fun r s o => match r with
      | .ok a => Q a s o
      | .error _ => E s o :=
  fun s o hs => HoldsBeside.attempt (hp s o hs)

theorem contract_of {c : Prop} {p : Program ι π σ ε α} {Q : α → σ → List π → Prop}
    (h : c → p.Contract M R E P Q) : p.Contract M R E (fun s o => c ∧ P s o) Q := fun s o hp => h hp.1 s o hp.2

end Program
end Async
end SecureChat
