import SecureChat.OfflineMessageQueue
/-!
# OutboxProgress — what a flush hands to the transport

A flush ends at the first entry that does not decode or that the transport refuses, and the entry stays where it is
(`reach`).  So an entry that can be sent is handed over exactly by the flushes in which no such entry stands before it.
-/
namespace SecureChat
namespace Outbox

open Runs
open Storage (PendingSignalEntity)

variable {σ : Type} (S : SignalMessage σ)

/-! ## The entries of a snapshot -/

def due (now : ℤ) (p : PendingSignalEntity) : Bool := !expired now p && resendDue p now

def deliverable (p : PendingSignalEntity) : Bool := (S.decode p.encodedSignal).any S.fits

def sendable (now : ℤ) (p : PendingSignalEntity) : Bool := due now p && deliverable S p

def blocks (now : ℤ) (p : PendingSignalEntity) : Bool := due now p && !deliverable S p

/-- **No bad entry stands before one that can be sent.** -/
def Clear (now : ℤ) (snapshot : List PendingSignalEntity) : Prop :=
  snapshot.Pairwise fun b p => blocks S now b = true → sendable S now p = false

instance (now : ℤ) (snapshot : List PendingSignalEntity) : Decidable (Clear S now snapshot) :=
  inferInstanceAs (Decidable (List.Pairwise _ _))

/-- What a flush hands over: the entries whose turn has come, up to the first that blocks, which is handed over if it
decodes. -/
def reach (now : ℤ) : List PendingSignalEntity → List PendingSignalEntity
  | [] => []
  | p :: rest =>
    if due now p then
      match S.decode p.encodedSignal with
      | none => []
      | some signal => if S.fits signal then p :: reach now rest else [p]
    else reach now rest

theorem reach_of_not_due {now : ℤ} {p : PendingSignalEntity} {rest : List PendingSignalEntity}
    (h : due now p = false) : reach S now (p :: rest) = reach S now rest := by
  rw [reach, h]
  rfl

theorem reach_of_due {now : ℤ} {p : PendingSignalEntity} {rest : List PendingSignalEntity} {signal : σ}
    (h : due now p = true) (hd : S.decode p.encodedSignal = some signal) :
    reach S now (p :: rest) = if S.fits signal then p :: reach S now rest else [p] := by
  rw [reach, if_pos h, hd]

theorem reach_of_decode {now : ℤ} {p : PendingSignalEntity} {rest : List PendingSignalEntity}
    (h : due now p = true) (hd : S.decode p.encodedSignal = none) : reach S now (p :: rest) = [] := by
  rw [reach, if_pos h, hd]

theorem reach_sublist (now : ℤ) : ∀ l : List PendingSignalEntity, (reach S now l).Sublist l
  | [] => List.Sublist.slnil
  | p :: rest => by
    have ih := reach_sublist now rest
    cases hdue : due now p with
    | false =>
      rw [reach_of_not_due S hdue]
      exact ih.cons p
    | true =>
      cases hd : S.decode p.encodedSignal with
      | none =>
        rw [reach_of_decode S hdue hd]
        exact List.nil_sublist _
      | some signal =>
        rw [reach_of_due S hdue hd]
        split
        · exact ih.cons_cons p
        · exact (List.nil_sublist rest).cons_cons p

theorem reach_cons {now : ℤ} {b p : PendingSignalEntity} {rest : List PendingSignalEntity} (hne : b ≠ p) :
    p ∈ reach S now (b :: rest) ↔ blocks S now b = false ∧ p ∈ reach S now rest := by
  cases hdue : due now b with
  | false =>
    rw [reach_of_not_due S hdue]
    simp [blocks, hdue]
  | true =>
    cases hd : S.decode b.encodedSignal with
    | none =>
      rw [reach_of_decode S hdue hd]
      simp [blocks, deliverable, hdue, hd]
    | some signal =>
      rw [reach_of_due S hdue hd]
      cases hfits : S.fits signal with
      | true => simp [blocks, deliverable, hdue, hd, hfits, Ne.symm hne]
      | false => simp [blocks, deliverable, hdue, hd, hfits, Ne.symm hne]

theorem mem_reach_self {now : ℤ} {p : PendingSignalEntity} {rest : List PendingSignalEntity}
    (h : sendable S now p = true) : p ∈ reach S now (p :: rest) := by
  obtain ⟨hdue, hdel⟩ := Bool.and_eq_true_iff.1 h
  obtain ⟨signal, hd, hfits⟩ := Option.any_eq_true _ _ |>.1 hdel
  rw [reach_of_due S hdue hd, if_pos hfits]
  exact List.mem_cons_self

theorem mem_reach {now : ℤ} {p : PendingSignalEntity} (hp : sendable S now p = true) :
    ∀ {before after : List PendingSignalEntity}, p ∉ before →
      (p ∈ reach S now (before ++ p :: after) ↔ ∀ b ∈ before, blocks S now b = false)
  | [], after, _ => by
    simp only [List.nil_append, List.not_mem_nil, false_imp_iff, implies_true, iff_true]
    exact mem_reach_self S hp
  | b :: before, after, hnot => by
    have hne : b ≠ p := fun he => hnot (he ▸ List.mem_cons_self)
    have ih : p ∈ reach S now (before ++ p :: after) ↔ ∀ b ∈ before, blocks S now b = false :=
      mem_reach hp fun hm => hnot (List.mem_cons_of_mem b hm)
    rw [List.cons_append, reach_cons S hne, ih, List.forall_mem_cons]

theorem mem_reach_of_clear {now : ℤ} {p : PendingSignalEntity} {l : List PendingSignalEntity} (hn : l.Nodup)
    (hc : Clear S now l) (hp : p ∈ l) (hs : sendable S now p = true) : p ∈ reach S now l := by
  obtain ⟨before, after, rfl⟩ := List.append_of_mem hp
  have hnot : p ∉ before := fun hm => (List.nodup_append.1 hn).2.2 p hm p List.mem_cons_self rfl
  refine (mem_reach S hs hnot).2 fun b hb => ?_
  have hpair := (List.pairwise_append.1 hc).2.2 b hb p List.mem_cons_self
  cases hblocks : blocks S now b with
  | false => rfl
  | true =>
    rw [hpair hblocks] at hs
    cases hs

/-! ## A flush -/

theorem PendingSignals.Lists.nodup {t : PendingSignals} {snapshot : List PendingSignalEntity}
    (h : t.Lists snapshot) : (snapshot.map PendingSignalEntity.id).Nodup := by
  have hkeys : t.values.map PendingSignalEntity.id = t.rows.entries.map Prod.fst := by
    unfold Keyed.values Table.values
    rw [List.map_map]
    refine List.map_congr_left fun x hx => ?_
    exact t.keyed x.1 x.2 (Table.get_eq_some.2 hx)
  refine (h.1.map _).nodup_iff.2 ?_
  rw [hkeys]
  exact t.rows.nodup

def Phase.ahead (now : ℤ) : Phase → List PendingSignalEntity
  | .next rest | .failing _ rest | .recording _ rest => reach S now rest
  | .counting _ | .returning => []

def Phase.cost : Phase → ℕ
  | .next rest => 2 * rest.length + 2
  | .failing _ rest | .recording _ rest => 2 * rest.length + 3
  | .counting _ => 2
  | .returning => 1

variable (Q : ℤ → List PendingSignalEntity → Prop)

/-- What a flush has handed over and will hand over is what its snapshot lets it reach.  `Q` is what the condition on
its start says of its clock reading and its snapshot. -/
structure Flush.OnCourse (f : Flush) : Prop where
  began : Q f.now f.snapshot
  distinct : (f.snapshot.map PendingSignalEntity.id).Nodup
  handed : f.handed.reverse ++ f.phase.ahead S f.now = reach S f.now f.snapshot
  taken : f.taken + f.phase.cost ≤ 2 * f.snapshot.length + 2

structure Flush.Over (f : Flush) : Prop where
  began : Q f.now f.snapshot
  distinct : (f.snapshot.map PendingSignalEntity.id).Nodup
  handed : f.handed.reverse = reach S f.now f.snapshot
  taken : f.taken ≤ 2 * f.snapshot.length + 2

variable {S Q}

theorem Flush.OnCourse.move {f : Flush} (h : f.OnCourse S Q) {phase : Phase} {l : List PendingSignalEntity} {sent : ℕ}
    (hahead : l ++ phase.ahead S f.now = f.phase.ahead S f.now) (hcost : phase.cost + 1 ≤ f.phase.cost) :
    Flush.OnCourse S Q ⟨f.now, f.snapshot, phase, sent, l.reverse ++ f.handed, f.taken + 1⟩ where
  began := h.began
  distinct := h.distinct
  handed := by
    show (l.reverse ++ f.handed).reverse ++ phase.ahead S f.now = reach S f.now f.snapshot
    rw [List.reverse_append, List.reverse_reverse, List.append_assoc, hahead]
    exact h.handed
  taken := by
    have htaken := h.taken
    show f.taken + 1 + phase.cost ≤ 2 * f.snapshot.length + 2
    omega

theorem Flush.OnCourse.over {f : Flush} (h : f.OnCourse S Q) (hahead : f.phase.ahead S f.now = []) :
    Flush.Over S Q { f with taken := f.taken + 1 } where
  began := h.began
  distinct := h.distinct
  handed := by
    have hhanded := h.handed
    rwa [hahead, List.append_nil] at hhanded
  taken := by
    have htaken := h.taken
    have hcost : 1 ≤ f.phase.cost := by
      cases f.phase <;> simp [Phase.cost]
    show f.taken + 1 ≤ 2 * f.snapshot.length + 2
    omega

theorem Flush.Over.nodup {f : Flush} (h : f.Over S Q) : (f.handed.map PendingSignalEntity.id).Nodup := by
  have hsub := (reach_sublist S f.now f.snapshot).map PendingSignalEntity.id
  rw [← h.handed, List.map_reverse] at hsub
  exact List.nodup_reverse.1 (h.distinct.sublist hsub)

theorem Flush.OnCourse.nodup {f : Flush} (h : f.OnCourse S Q) : (f.handed.map PendingSignalEntity.id).Nodup := by
  have hsub := (reach_sublist S f.now f.snapshot).map PendingSignalEntity.id
  rw [← h.handed, List.map_append, List.map_reverse] at hsub
  exact List.nodup_reverse.1 (List.nodup_append.1 (h.distinct.sublist hsub)).1

namespace OfflineMessageQueue

variable {s s' : OfflineMessageQueue σ}

structure Flushes (S : SignalMessage σ) (Q : ℤ → List PendingSignalEntity → Prop)
    (s : OfflineMessageQueue σ) : Prop where
  active : ∀ f, s.activeFlush = some f → f.OnCourse S Q
  ended : ∀ x ∈ s.ended, x.1.Over S Q

theorem Flushes.of_eq (h : Flushes S Q s) (ha : s'.activeFlush = s.activeFlush) (he : s'.ended = s.ended) :
    Flushes S Q s' := by
  refine ⟨fun f hf => ?_, fun x hx => ?_⟩
  · rw [ha] at hf
    exact h.active f hf
  · rw [he] at hx
    exact h.ended x hx

theorem Flushes.advance (h : Flushes S Q s) {f : Flush} {phase : Phase} (he : s'.ended = s.ended)
    (hf : Flush.OnCourse S Q { f with
      phase := phase
      taken := f.taken + 1 }) : Flushes S Q (s'.advance f phase) := by
  refine ⟨fun g hg => ?_, fun x hx => ?_⟩
  · cases hg
    exact hf
  · have hx : x ∈ s'.ended := hx
    rw [he] at hx
    exact h.ended x hx

theorem Flushes.finish (h : Flushes S Q s) {f : Flush} {outcome : Outcome}
    (hf : Flush.Over S Q { f with taken := f.taken + 1 }) : Flushes S Q (s.finish f outcome) := by
  refine ⟨fun g hg => (by cases hg), fun x hx => ?_⟩
  rcases List.mem_cons.1 hx with rfl | hx
  · exact hf
  · exact h.ended x hx

theorem Flushes.flushStep (h : Flushes S Q s) {f : Flush} (hf : f.OnCourse S Q) :
    Flushes S Q (s.flushStep S true f) := by
  unfold OfflineMessageQueue.flushStep
  split
  · next hphase =>
    refine h.advance rfl (hf.move (l := []) ?_ ?_)
    · rw [hphase]
      rfl
    · rw [hphase]
      exact Nat.le_refl 2
  · next p rest hphase =>
    split
    · next hexpired =>
      have hdue : due f.now p = false := by
        unfold due
        rw [hexpired]
        rfl
      cases hid : p.messageId with
      | none =>
        refine h.advance rfl (hf.move (l := []) ?_ ?_)
        · rw [hphase]
          exact (reach_of_not_due S hdue).symm
        · rw [hphase]
          simp only [Phase.cost, Option.elim, List.length_cons]
          omega
      | some id =>
        refine h.advance rfl (hf.move (l := []) ?_ ?_)
        · rw [hphase]
          exact (reach_of_not_due S hdue).symm
        · rw [hphase]
          simp only [Phase.cost, Option.elim, List.length_cons]
          omega
    · next hexpired =>
      have hexpired : expired f.now p = false := Bool.eq_false_iff.2 hexpired
      split
      · next hresend =>
        have hdue : due f.now p = true := by
          unfold due
          rw [hexpired, hresend]
          rfl
        split
        · next hd =>
          refine h.finish (hf.over ?_)
          rw [hphase]
          exact reach_of_decode S hdue hd
        · next signal hd =>
          have hreach : reach S f.now (p :: rest) = _ := reach_of_due S hdue hd
          split
          · next hsend =>
            have hfits : S.fits signal = true := hsend
            rw [if_pos hfits] at hreach
            refine h.advance (f := { f with handed := p :: f.handed }) rfl (hf.move (l := [p]) ?_ ?_)
            · rw [hphase]
              exact hreach.symm
            · rw [hphase]
              simp only [Phase.cost, List.length_cons]
              omega
          · next hsend =>
            have hfits : ¬ S.fits signal = true := hsend
            rw [if_neg hfits] at hreach
            refine h.advance (f := { f with handed := p :: f.handed }) rfl (hf.move (l := [p]) ?_ ?_)
            · rw [hphase]
              exact hreach.symm
            · rw [hphase]
              simp only [Phase.cost, List.length_cons]
              omega
      · next hresend =>
        have hdue : due f.now p = false := by
          unfold due
          rw [hexpired, Bool.eq_false_iff.2 hresend]
          rfl
        refine h.advance rfl (hf.move (l := []) ?_ ?_)
        · rw [hphase]
          exact (reach_of_not_due S hdue).symm
        · rw [hphase]
          simp only [Phase.cost, List.length_cons]
          omega
  · next id rest hphase =>
    refine h.advance rfl (hf.move (l := []) ?_ ?_)
    · rw [hphase]
      rfl
    · rw [hphase]
      exact Nat.le_refl _
  · next p rest hphase =>
    refine h.advance (f := { f with sent := f.sent + 1 }) rfl (hf.move (l := []) ?_ ?_)
    · rw [hphase]
      rfl
    · rw [hphase]
      exact Nat.le_refl _
  · next p hphase =>
    refine h.advance rfl (hf.move (l := []) ?_ ?_)
    · rw [hphase]
      rfl
    · rw [hphase]
      exact Nat.le_refl _
  · next hphase =>
    refine h.finish (hf.over ?_)
    rw [hphase]
    rfl

def Working : Event σ → Prop
  | .flush connected => connected = true
  | .fail => False
  | _ => True

instance : DecidablePred (Working : Event σ → Prop)
  | .flush connected => inferInstanceAs (Decidable (connected = true))
  | .fail => inferInstanceAs (Decidable False)
  | .enqueue _ | .sendReliably .. | .send .. | .record .. | .abandon _ | .acknowledgeReceipt .. | .flushQueue .. |
    .restart => inferInstanceAs (Decidable True)

/-- A flush that begins meets `Q`. -/
def Begins (Q : ℤ → List PendingSignalEntity → Prop) (s : OfflineMessageQueue σ) : Event σ → Prop
  | .flushQueue now snapshot => s.activeFlush = none → Q now snapshot
  | _ => True

theorem begins_true (s : OfflineMessageQueue σ) (e : Event σ) : s.Begins (fun _ _ => True) e := by
  cases e with
  | flushQueue now snapshot => exact fun _ => trivial
  | _ => trivial

theorem ended_foldl_put : ∀ (l : List PendingSignalEntity) (s : OfflineMessageQueue σ),
    (l.foldl (fun s p => s.put p) s).activeFlush = s.activeFlush ∧ (l.foldl (fun s p => s.put p) s).ended = s.ended
  | [], _ => ⟨rfl, rfl⟩
  | p :: l, s => ended_foldl_put l (s.put p)

theorem flushes_step (s : OfflineMessageQueue σ) (e : Event σ) (s' : OfflineMessageQueue σ) (h : Flushes S Q s)
    (hw : Working e) (hq : s.Begins Q e) (hs : step S s e = some s') : Flushes S Q s' := by
  cases e with
  | enqueue signals =>
    simp only [step] at hs
    split at hs
    · cases hs
      obtain ⟨ha, he⟩ := ended_foldl_put signals s
      exact h.of_eq ha he
    · cases hs
  | sendReliably i signal deliveryId messageId createdAt =>
    simp only [step] at hs
    split at hs
    · split at hs
      · cases hs
        exact h.of_eq rfl rfl
      · cases hs
    · cases hs
  | send i connected =>
    simp only [step] at hs
    split at hs
    · split at hs
      · cases hs
        exact h.of_eq rfl rfl
      · cases hs
        exact h.of_eq rfl rfl
    · cases hs
  | record i now =>
    simp only [step] at hs
    split at hs
    · cases hs
      exact h.of_eq rfl rfl
    · cases hs
      exact h.of_eq rfl rfl
    · cases hs
  | abandon i =>
    simp only [step] at hs
    split at hs
    · cases hs
      exact h.of_eq rfl rfl
    · cases hs
      exact h.of_eq rfl rfl
    · cases hs
  | acknowledgeReceipt messageId recipientId =>
    cases hs
    exact h.of_eq rfl rfl
  | flushQueue now snapshot =>
    simp only [step] at hs
    split at hs
    · cases hs
      exact h
    · next hnone =>
      split at hs
      · next hlists =>
        cases hs
        refine ⟨fun f hf => ?_, h.ended⟩
        cases hf
        exact ⟨hq hnone, hlists.nodup, rfl, Nat.le_of_eq (Nat.zero_add _)⟩
      · cases hs
  | flush connected =>
    obtain ⟨f, hf, rfl⟩ := Option.map_eq_some_iff.1 hs
    have hc : connected = true := hw
    rw [hc]
    exact h.flushStep (h.active f hf)
  | fail => cases hw
  | restart =>
    cases hs
    exact ⟨fun f hf => (by cases hf), h.ended⟩

theorem flushes_start (t : PendingSignals) : Flushes S Q (start t) where
  active _ hf := by cases hf
  ended _ hx := by cases hx

/-- **The condition under which a flush hands over all that can be sent**: where it begins, no entry whose turn has come
and that does not decode, or that the transport refuses, stands before one that can be sent. -/
def Sound (S : SignalMessage σ) (s : OfflineMessageQueue σ) (e : Event σ) : Prop :=
  Working e ∧ s.Begins (Clear S) e

instance (s : OfflineMessageQueue σ) : DecidablePred (s.Begins (Clear S))
  | .flushQueue now snapshot => inferInstanceAs (Decidable (s.activeFlush = none → Clear S now snapshot))
  | .enqueue _ | .sendReliably .. | .send .. | .record .. | .abandon _ | .acknowledgeReceipt .. | .flush _ | .fail |
    .restart => inferInstanceAs (Decidable True)

instance (s : OfflineMessageQueue σ) (e : Event σ) : Decidable (Sound S s e) :=
  inferInstanceAs (Decidable (Working e ∧ s.Begins (Clear S) e))

theorem flushes_run {t : PendingSignals} {ls : List (Event σ)} (hr : run (step S) (start t) ls = some s)
    (hm : Meets (step S) (fun s e => Working e ∧ s.Begins Q e) (start t) ls) : Flushes S Q s :=
  Meets.invariant (Flushes S Q) (fun s e s' h hok hs => flushes_step s e s' h hok.1 hok.2 hs) (flushes_start t) hm hr

/-- **What flushes over a working connection do.**  An entry that can be sent is handed over exactly by the flushes in
which no entry that blocks stands before it; no flush hands an entry over twice or takes more than two steps an entry
and two more, and a call during a flush joins it. -/
theorem flushQueue_run {t : PendingSignals} {ls : List (Event σ)} (hr : run (step S) (start t) ls = some s)
    (hw : Meets (step S) (fun _ e => Working e) (start t) ls) :
    (∀ x ∈ s.ended, ∀ before p after, x.1.snapshot = before ++ p :: after → sendable S x.1.now p = true →
      (p ∈ x.1.handed ↔ ∀ b ∈ before, blocks S x.1.now b = false)) ∧
    (Meets (step S) (Sound S) (start t) ls →
      ∀ x ∈ s.ended, ∀ p ∈ x.1.snapshot, sendable S x.1.now p = true → p ∈ x.1.handed) ∧
    (∀ x ∈ s.ended, (x.1.handed.map PendingSignalEntity.id).Nodup ∧ x.1.taken ≤ 2 * x.1.snapshot.length + 2) ∧
    (∀ f, s.activeFlush = some f → (f.handed.map PendingSignalEntity.id).Nodup ∧
      f.taken ≤ 2 * f.snapshot.length + 2 ∧ (∀ connected, (step S s (.flush connected)).isSome = true) ∧
      ∀ now snapshot, step S s (.flushQueue now snapshot) = some s) ∧
    ∀ now snapshot s', s.activeFlush = none → step S s (.flushQueue now snapshot) = some s' →
      snapshot.Perm s.pendingSignals.values ∧ ∃ f, s'.activeFlush = some f ∧ f.now = now ∧ f.snapshot = snapshot := by
  have h : Flushes S (fun _ _ => True) s :=
    Meets.invariant _ (fun s e s' h he hs => flushes_step s e s' h he (s.begins_true e) hs) (flushes_start t) hw hr
  refine ⟨fun x hx before p after he hs => ?_, fun hm x hx p hp hs => ?_,
    fun x hx => ⟨(h.ended x hx).nodup, (h.ended x hx).taken⟩, fun f hf => ?_, fun now snapshot s' hnone hs => ?_⟩
  · have hover := h.ended x hx
    have hdistinct := hover.distinct
    rw [he] at hdistinct
    have hnot : p ∉ before := fun hm =>
      (List.nodup_append.1 (List.Nodup.of_map _ hdistinct)).2.2 p hm p List.mem_cons_self rfl
    rw [← List.mem_reverse, hover.handed, he]
    exact mem_reach S hs hnot
  · have hover := (flushes_run hr hm).ended x hx
    rw [← List.mem_reverse, hover.handed]
    exact mem_reach_of_clear S (List.Nodup.of_map _ hover.distinct) hover.began hp hs
  · have hcourse := h.active f hf
    refine ⟨hcourse.nodup, (Nat.le_add_right _ _).trans hcourse.taken, fun connected => ?_, fun now snapshot => ?_⟩
    · show (s.activeFlush.map _).isSome = true
      rw [hf]
      rfl
    · simp only [step]
      rw [hf]
  · simp only [step] at hs
    rw [hnone] at hs
    simp only at hs
    split at hs
    · next hlists =>
      cases hs
      exact ⟨hlists.1, _, rfl, rfl, rfl⟩
    · cases hs

theorem step_flushQueue (S : SignalMessage σ) (now : ℤ) (s : OfflineMessageQueue σ) (hnone : s.activeFlush = none)
    {snapshot : List PendingSignalEntity} (h : s.pendingSignals.Lists snapshot) :
    step S s (.flushQueue now snapshot) =
      some { s with activeFlush := some ⟨now, snapshot, .next snapshot, 0, [], 0⟩ } := by
  simp only [step, hnone, if_pos h]

def sampleSignals : SignalMessage Bool where
  parse t := if t = ['a'] then some false else if t = ['b'] then some true else none
  encode m := if m then ['b'] else ['a']
  recipientId m := if m then ['y'] else ['x']
  parse_encode m := by cases m <;> rfl

def malformed : PendingSignalEntity := { id := ['m'], encodedSignal := ['{', '}'], createdAt := 1 }

def wellFormed : PendingSignalEntity := { id := ['w'], encodedSignal := ['a'], createdAt := 2 }

def goodFirst : List (Event Bool) :=
  [.flushQueue 9 [wellFormed, { malformed with createdAt := 3 }], .flush true, .flush true, .flush true]

theorem flushQueue_goodFirst : ∃ s : OfflineMessageQueue Bool,
    run (step sampleSignals)
      (start ((Keyed.empty.insert { malformed with createdAt := 3 }).insert wellFormed)) goodFirst =
      some s ∧ s.ended.length = 1 ∧
    ∀ x ∈ s.ended, ∀ p ∈ x.1.snapshot, sendable sampleSignals x.1.now p = true → p ∈ x.1.handed := by
  obtain ⟨s, hs, hn⟩ : ∃ s : OfflineMessageQueue Bool,
      run (step sampleSignals) (start ((Keyed.empty.insert { malformed with createdAt := 3 }).insert wellFormed))
        goodFirst = some s ∧ s.ended.length = 1 := exists_run _ _ _ (by decide +kernel)
  exact ⟨s, hs, hn, (flushQueue_run hs (by decide +kernel)).2.1 (by decide +kernel)⟩

def flushes (n : ℕ) : List (Event Bool) :=
  (List.replicate n [.flushQueue 9 [malformed, wellFormed], .flush true]).flatten

def blocked : Flush × Outcome := (⟨9, [malformed, wellFormed], .next [malformed, wellFormed], 0, [], 1⟩, .threw)

def afterFlushes (l : List (Flush × Outcome)) : OfflineMessageQueue Bool :=
  { start ((Keyed.empty.insert malformed).insert wellFormed) with ended := l }

theorem run_flushes : ∀ (n : ℕ) (l : List (Flush × Outcome)),
    run (step sampleSignals) (afterFlushes l) (flushes n) = some (afterFlushes (List.replicate n blocked ++ l))
  | 0, _ => rfl
  | n + 1, l => by
    have hlists : PendingSignals.Lists ((Keyed.empty.insert malformed).insert wellFormed) [malformed, wellFormed] := by
      decide +kernel
    have hbegins := step_flushQueue sampleSignals 9 (afterFlushes l) rfl hlists
    have hrest := run_flushes n (blocked :: l)
    rw [List.replicate_succ', List.append_assoc]
    exact run_cons.2 ⟨_, hbegins, run_cons.2 ⟨afterFlushes (blocked :: l), rfl, hrest⟩⟩

/-- **A malformed entry holds up a well-formed one for ever**: it is in the snapshot of every flush, could be sent, and
no flush hands it over. -/
theorem flushQueue_blocked :
    PendingSignals.Lists ((Keyed.empty.insert malformed).insert wellFormed) [malformed, wellFormed] ∧
    ∀ n : ℕ, ∃ s : OfflineMessageQueue Bool,
      run (step sampleSignals) (start ((Keyed.empty.insert malformed).insert wellFormed)) (flushes n) = some s ∧
      s.ended.length = n ∧ ∀ x ∈ s.ended, wellFormed ∈ x.1.snapshot ∧
        sendable sampleSignals x.1.now wellFormed = true ∧ wellFormed ∉ x.1.handed := by
  refine ⟨by decide +kernel, fun n => ⟨_, run_flushes n [], ?_, fun x hx => ?_⟩⟩
  · show (List.replicate n blocked ++ []).length = n
    rw [List.append_nil, List.length_replicate]
  · have hx : x ∈ List.replicate n blocked ++ [] := hx
    rw [List.append_nil] at hx
    rw [List.eq_of_mem_replicate hx]
    decide +kernel

end OfflineMessageQueue

end Outbox
end SecureChat
