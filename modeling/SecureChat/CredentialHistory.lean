import Mathlib.Data.List.Nodup
import Mathlib.Order.Basic
import SecureChat.CredentialState
/-!
# CredentialHistory — what the `users` row has been

Every value written to the row is new, so the epochs and generations it has had are ordered, and a generation names one
state of the row (`Ordered.was_unique`).  A statement extends the history (`Extends`).
-/
namespace SecureChat
namespace Credentials

namespace Users

/-- The row is `x`, or was until an `UPDATE`. -/
def Was (u : Users) (x : Snapshot) : Prop := x = u.row ∨ ∃ w ∈ u.updates, w.1 = x

/-- `g'` came directly after `g`, within one epoch. -/
def Succeeds (u : Users) (g g' : ℕ) : Prop :=
  ∃ w ∈ u.updates, w.1.refreshGeneration = g ∧ w.2.refreshGeneration = g' ∧ w.1.credentialEpoch = w.2.credentialEpoch

structure Ordered (u : Users) : Prop where
  epoch_lt : u.row.credentialEpoch < u.nextValue
  generation_lt : u.row.refreshGeneration < u.nextValue
  past : ∀ w ∈ u.updates, w.1.credentialEpoch ≤ u.row.credentialEpoch ∧
    w.1.refreshGeneration < u.row.refreshGeneration
  landed : ∀ w ∈ u.updates, u.Was w.2
  nodup : (u.updates.map fun w => w.1.refreshGeneration).Nodup

structure Extends (u u' : Users) : Prop where
  updates : ∀ w ∈ u.updates, w ∈ u'.updates
  was : ∀ x, u.Was x → u'.Was x
  epoch : u.row.credentialEpoch ≤ u'.row.credentialEpoch
  counted : ∀ p : Snapshot × Snapshot → Bool, u.updates.countP p ≤ u'.updates.countP p

variable {u u' : Users} {x y next : Snapshot} {v : ℕ}

theorem Extends.refl (u : Users) : Extends u u :=
  ⟨fun _ h => h, fun _ h => h, Nat.le_refl _, fun _ => Nat.le_refl _⟩

theorem was_row (u : Users) : u.Was u.row := .inl rfl

theorem Succeeds.mono {g g' : ℕ} (h : u.Succeeds g g') (he : Extends u u') : u'.Succeeds g g' := by
  obtain ⟨w, hw, h⟩ := h
  exact ⟨w, he.updates w hw, h⟩

theorem mem_write {w : Snapshot × Snapshot} (h : w ∈ (u.write next v).updates) : w ∈ u.updates ∨ w = (u.row, next) :=
  (List.mem_append.1 h).imp id List.mem_singleton.1

theorem was_write (h : u.Was x) : (u.write next v).Was x := by
  rcases h with rfl | ⟨w, hw, rfl⟩
  · exact .inr ⟨_, List.mem_append_right _ List.mem_cons_self, rfl⟩
  · exact .inr ⟨w, List.mem_append_left _ hw, rfl⟩

theorem extends_write (he : u.row.credentialEpoch ≤ next.credentialEpoch) : Extends u (u.write next v) where
  updates _ hw := List.mem_append_left _ hw
  was _ hx := was_write hx
  epoch := he
  counted _ := (List.sublist_append_left _ _).countP_le

theorem Ordered.write (h : u.Ordered) (he : u.row.credentialEpoch ≤ next.credentialEpoch)
    (hg : u.row.refreshGeneration < next.refreshGeneration) (hev : next.credentialEpoch < v)
    (hgv : next.refreshGeneration < v) : (u.write next v).Ordered where
  epoch_lt := hev
  generation_lt := hgv
  past w hw := by
    rcases mem_write hw with hw | rfl
    · exact ⟨(h.past w hw).1.trans he, (h.past w hw).2.trans hg⟩
    · exact ⟨he, hg⟩
  landed w hw := by
    rcases mem_write hw with hw | rfl
    · exact was_write (h.landed w hw)
    · exact was_row _
  nodup := by
    have hnew : ∀ g ∈ u.updates.map (fun w => w.1.refreshGeneration), g ≠ u.row.refreshGeneration := by
      intro g hg he
      obtain ⟨w, hw, rfl⟩ := List.mem_map.1 hg
      exact (h.past w hw).2.ne he
    rw [Users.write, List.map_append]
    refine List.nodup_append.2 ⟨h.nodup, List.nodup_singleton _, fun g hg g' hg' => ?_⟩
    rw [List.mem_singleton.1 hg']
    exact hnew g hg

theorem Ordered.was_lt (h : u.Ordered) (hx : u.Was x) :
    x = u.row ∨ x.refreshGeneration < u.row.refreshGeneration := by
  rcases hx with rfl | ⟨w, hw, rfl⟩
  · exact .inl rfl
  · exact .inr (h.past w hw).2

theorem Ordered.was_unique (h : u.Ordered) (hx : u.Was x) (hy : u.Was y)
    (he : x.refreshGeneration = y.refreshGeneration) : x = y := by
  rcases hx with rfl | ⟨w, hw, rfl⟩
  · rcases h.was_lt hy with rfl | hlt
    · rfl
    · exact absurd he hlt.ne'
  · rcases hy with rfl | ⟨w', hw', rfl⟩
    · exact absurd he (h.past w hw).2.ne
    · exact congrArg Prod.fst (List.inj_on_of_nodup_map h.nodup hw hw' he)

theorem Ordered.update_unique (h : u.Ordered) {w w' : Snapshot × Snapshot} (hw : w ∈ u.updates) (hw' : w' ∈ u.updates)
    (he : w.1.refreshGeneration = w'.1.refreshGeneration) : w = w' := List.inj_on_of_nodup_map h.nodup hw hw' he

theorem Ordered.succeeds_row (h : u.Ordered) (hx : u.Was x)
    (hs : u.Succeeds x.refreshGeneration u.row.refreshGeneration) :
    x.credentialEpoch = u.row.credentialEpoch := by
  obtain ⟨w, hw, hold, hnew, hepoch⟩ := hs
  have hwx : w.1 = x := h.was_unique (.inr ⟨w, hw, rfl⟩) hx hold
  have hrow : w.2 = u.row := h.was_unique (h.landed w hw) u.was_row hnew
  rw [← hwx, hepoch, hrow]

theorem rotateRefreshGeneration_some {g : ℕ} (h : u.rotateRefreshGeneration g = some u') :
    u.row.refreshGeneration = g ∧ u' = u.write ⟨u.row.credentialEpoch, u.nextValue⟩ (u.nextValue + 1) := by
  rw [rotateRefreshGeneration] at h
  split at h
  · exact ⟨‹_›, (Option.some.inj h).symm⟩
  · cases h

theorem rotateRefreshGeneration_extends {g : ℕ} (h : u.rotateRefreshGeneration g = some u') : Extends u u' := by
  obtain ⟨-, rfl⟩ := rotateRefreshGeneration_some h
  exact extends_write (Nat.le_refl _)

theorem Ordered.rotateRefreshGeneration {g : ℕ} (hu : u.Ordered) (h : u.rotateRefreshGeneration g = some u') :
    u'.Ordered := by
  obtain ⟨-, rfl⟩ := rotateRefreshGeneration_some h
  exact hu.write (Nat.le_refl _) hu.generation_lt (Nat.lt_succ_of_lt hu.epoch_lt) (Nat.lt_succ_self _)

theorem rotateRefreshGeneration_succeeds {g : ℕ} (h : u.rotateRefreshGeneration g = some u') :
    u'.Succeeds g u'.row.refreshGeneration := by
  obtain ⟨rfl, rfl⟩ := rotateRefreshGeneration_some h
  exact ⟨_, List.mem_append_right _ List.mem_cons_self, rfl, rfl, rfl⟩

theorem rotateCredentialEpoch_extends (hu : u.Ordered) (e : Option ℕ) : Extends u (u.rotateCredentialEpoch e) := by
  rw [rotateCredentialEpoch]
  split
  · exact extends_write hu.epoch_lt.le
  · exact Extends.refl u

theorem Ordered.rotateCredentialEpoch (hu : u.Ordered) (e : Option ℕ) : (u.rotateCredentialEpoch e).Ordered := by
  rw [Users.rotateCredentialEpoch]
  split
  · exact hu.write hu.epoch_lt.le (Nat.lt_succ_of_lt hu.generation_lt) (Nat.lt_add_of_pos_right Nat.two_pos)
      (Nat.lt_succ_self _)
  · exact hu

theorem Ordered.earlierEpochs_lt (hu : u.Ordered) {e : ℕ} (h : e ∈ u.earlierEpochs) : e < u.row.credentialEpoch := by
  obtain ⟨hm, hne⟩ := List.mem_filter.1 h
  obtain ⟨w, hw, rfl⟩ := List.mem_map.1 hm
  exact lt_of_le_of_ne (hu.past w hw).1 (of_decide_eq_true hne)

end Users

theorem conclude_users (i : ℕ) (a : Account) (p : Purpose) (returned : List (ℕ × ℕ)) (state : Snapshot) :
    (conclude i a p returned state).1.users = a.users := by
  unfold conclude
  split
  · rfl
  · cases p <;> rfl

theorem Effect.users {i : ℕ} {a a' : Account} {t t' : Task} (h : Effect i a t a' t') :
    a'.users = a.users ∨ (∃ g, a.users.rotateRefreshGeneration g = some a'.users) ∨
      ∃ e, a'.users = a.users.rotateCredentialEpoch e := by
  cases h with
  | hit p returned c _ => exact .inl (conclude_users i a p returned c.snapshot)
  | filled p returned now loaded => exact .inl (conclude_users i _ p returned loaded)
  | rotated token kind g users hrot => exact .inr (.inl ⟨g, hrot⟩)
  | rotatedLost token kind g users hrot => exact .inr (.inl ⟨g, hrot⟩)
  | revoked e => exact .inr (.inr ⟨e, rfl⟩)
  | revokedLost e => exact .inr (.inr ⟨e, rfl⟩)
  | _ => exact .inl rfl

theorem Effect.history {i : ℕ} {a a' : Account} {t t' : Task} (h : Effect i a t a' t') (hu : a.users.Ordered) :
    Users.Extends a.users a'.users ∧ a'.users.Ordered := by
  rcases h.users with h | ⟨g, h⟩ | ⟨e, h⟩
  · rw [h]
    exact ⟨Users.Extends.refl _, hu⟩
  · exact ⟨Users.rotateRefreshGeneration_extends h, hu.rotateRefreshGeneration h⟩
  · rw [h]
    exact ⟨Users.rotateCredentialEpoch_extends hu e, hu.rotateCredentialEpoch e⟩

end Credentials
end SecureChat
