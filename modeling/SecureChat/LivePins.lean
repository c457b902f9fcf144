import SecureChat.MessagePins
import SecureChat.Runs
/-!
# LivePins — one live pin in a conversation

Every operation but a pin writes rows that are no more live than the ones before (`Milder`).  A pin finds another live
one if the query's limit does not leave it out (`MessageSelect`'s `Covered`) and the cache holds rows of the disk; in a
run whose operations meet this condition a conversation has one live pin at most (`pins_run`).
-/
namespace SecureChat
namespace Storage
namespace Pins

open GroupControl (Text)
open MessageQuery (Sorters)
open MessageTable (SameChanges Covered)
open Runs

structure Calm (t : MessageTable) : Prop where
  pending : t.pending = .empty
  clearPending : t.clearPending = false
  detached : t.detached = false

def Named (rows : MessageRows) : Prop := ∀ id m, rows.get id = some m → m.id = id

def AtMostOne (rows : MessageRows) (now : ℤ) : Prop :=
  ∀ id id' m m', rows.get id = some m → rows.get id' = some m' → m.conversationId = m'.conversationId →
    livePin m now = true → livePin m' now = true → id = id'

structure Sound (s : Store) : Prop where
  calm : Calm s.table
  named : Named s.rows
  one : AtMostOne s.rows s.now

theorem sound_empty : Sound Store.empty where
  calm := ⟨rfl, rfl, rfl⟩
  named := fun _ _ h => by cases h
  one := fun _ _ _ _ h => by cases h

/-! ## Writes -/

section Writes

variable {rows : MessageRows} {t : MessageTable} {s : Store} {id : Text} {m : MessageEntity} {q : MessageQuery}
  {sorters : Sorters} {disk : Option MessageRows}

theorem get_foldl_writeRow (id : Text) : ∀ (l : List (Text × Option MessageEntity)) (rows : MessageRows),
    (l.map Prod.fst).Nodup → (∀ m, (id, m) ∈ l → (l.foldl writeRow rows).get id = m) ∧
    (id ∉ l.map Prod.fst → (l.foldl writeRow rows).get id = rows.get id)
  | [], rows, _ => ⟨fun m hm => (by cases hm), fun _ => rfl⟩
  | entry :: l, rows, h => by
    obtain ⟨hnot, h⟩ := List.nodup_cons.1 h
    have ih := get_foldl_writeRow id l (writeRow rows entry) h
    have hself : (writeRow rows entry).get entry.1 = entry.2 := by
      unfold writeRow
      cases entry.2 with
      | none => exact Table.get_remove_self
      | some m => exact Table.get_assign_self
    have hother : id ≠ entry.1 → (writeRow rows entry).get id = rows.get id := by
      intro hne
      unfold writeRow
      cases entry.2 with
      | none => exact Table.get_remove_of_ne hne
      | some m => exact Table.get_assign_of_ne hne
    rw [List.foldl_cons, List.map_cons, List.mem_cons, not_or]
    constructor
    · intro m hm
      rcases List.mem_cons.1 hm with he | hm
      · have hid : id = entry.1 := congrArg Prod.fst he
        rw [hid] at ih ⊢
        rw [ih.2 hnot, hself]
        exact (congrArg Prod.snd he).symm
      · exact ih.1 m hm
    · rintro ⟨hne, hmem⟩
      rw [ih.2 hmem, hother hne]

theorem get_commit (s : Store) (t : MessageTable) (id : Text) :
    (s.commit t).rows.get id = (t.pending.get id).getD (s.rows.get id) := by
  have h := get_foldl_writeRow id t.pending.entries s.rows t.pending.nodup
  cases hp : t.pending.get id with
  | none => exact h.2 (Table.get_eq_none.1 hp)
  | some m => exact h.1 m (Table.get_eq_some.1 hp)

/-- The pending rows are no more live than the ones before. -/
def Milder (rows : MessageRows) (t : MessageTable) : Prop :=
  ∀ id m, t.pending.get id = some (some m) → m.id = id ∧
    (m.isPinned = false ∨ ∃ m₀, rows.get id = some m₀ ∧ m₀.conversationId = m.conversationId ∧
      ∀ now, livePin m now = true → livePin m₀ now = true)

theorem Sound.commit (h : Sound s) (ht : Milder s.rows t) : Sound (s.commit t) := by
  have hrow : ∀ id m, (s.commit t).rows.get id = some m → m.id = id ∧ (m.isPinned = false ∨ ∃ m₀,
      s.rows.get id = some m₀ ∧ m₀.conversationId = m.conversationId ∧
        ∀ now, livePin m now = true → livePin m₀ now = true) := by
    intro id m hm
    rw [get_commit] at hm
    cases hp : t.pending.get id with
    | none =>
      rw [hp] at hm
      exact ⟨h.named id m hm, Or.inr ⟨m, hm, rfl, fun _ hl => hl⟩⟩
    | some x =>
      rw [hp] at hm
      have hx : x = some m := hm
      exact ht id m (hp.trans (congrArg some hx))
  have hlive : ∀ id m, (s.commit t).rows.get id = some m → livePin m s.now = true →
      ∃ m₀, s.rows.get id = some m₀ ∧ m₀.conversationId = m.conversationId ∧ livePin m₀ s.now = true := by
    intro id m hm hl
    rcases (hrow id m hm).2 with hpin | ⟨m₀, hm₀, hc, hmild⟩
    · unfold livePin at hl
      rw [hpin, Bool.false_and] at hl
      cases hl
    · exact ⟨m₀, hm₀, hc, hmild _ hl⟩
  refine ⟨⟨rfl, rfl, rfl⟩, fun id m hm => (hrow id m hm).1, ?_⟩
  intro id id' m m' hm hm' hc hl hl'
  obtain ⟨m₀, hm₀, hc₀, hl₀⟩ := hlive id m hm hl
  obtain ⟨m₀', hm₀', hc₀', hl₀'⟩ := hlive id' m' hm' hl'
  exact h.one id id' m₀ m₀' hm₀ hm₀' (by rw [hc₀, hc₀', hc]) hl₀ hl₀'

def OnlyRemoves (t : MessageTable) : Prop := ∀ id m, t.pending.get id = some m → m = none

theorem OnlyRemoves.milder (h : OnlyRemoves t) : Milder rows t := by
  intro id m hm
  cases h id _ hm

theorem Calm.onlyRemoves (h : Calm t) : OnlyRemoves t := by
  intro id m hm
  rw [h.pending] at hm
  cases hm

theorem get_pending (disk : Option MessageRows) (id : Text) (t : MessageTable) :
    (t.get disk id).2.pending = t.pending := by
  unfold MessageTable.get
  cases t.pending.get id with
  | some m => rfl
  | none =>
    simp only
    split
    · split
      · rfl
      · rfl
      · rfl
    · rfl

theorem visit_pending (q : MessageQuery) : ∀ (l : List MessageRow) (acc : Table Text MessageEntity × MessageTable),
    (l.foldl (MessageTable.visit q) acc).2.pending = acc.2.pending
  | [], _ => rfl
  | row :: l, acc => by
    rw [List.foldl_cons, visit_pending q l]
    unfold MessageTable.visit
    simp only
    split
    · rfl
    · split
      · rfl
      · rfl

theorem select_pending (sorters : Sorters) (disk : Option MessageRows) (q : MessageQuery) (t : MessageTable) :
    (t.select sorters disk q).2.pending = t.pending := by
  unfold MessageTable.select
  split
  · rfl
  · exact visit_pending q _ _

theorem OnlyRemoves.remove (h : OnlyRemoves t) (disk : Option MessageRows) (id : Text) :
    OnlyRemoves (t.remove disk id).2 := by
  intro id' m hm
  unfold MessageTable.remove at hm
  simp only at hm
  split at hm
  · simp only [get_pending] at hm
    rw [Table.get_assign] at hm
    split at hm
    · cases hm
      rfl
    · exact h id' m hm
  · rw [get_pending] at hm
    exact h id' m hm

theorem OnlyRemoves.foldl_remove (disk : Option MessageRows) : ∀ (l : List MessageEntity) {t : MessageTable},
    OnlyRemoves t → OnlyRemoves (l.foldl (fun t m => (t.remove disk m.id).2) t)
  | [], _, h => h
  | m :: l, _, h => OnlyRemoves.foldl_remove disk l (h.remove disk m.id)

theorem OnlyRemoves.removeWhere (h : OnlyRemoves t) (sorters : Sorters) (disk : Option MessageRows) (q : MessageQuery) :
    OnlyRemoves (t.removeWhere sorters disk q).2 := by
  have hfold : ∀ (l : List MessageEntity) (p : Table Text (Option MessageEntity)),
      (∀ id m, p.get id = some m → m = none) →
      ∀ id m, (l.foldl (fun p m => p.assign m.id none) p).get id = some m → m = none := by
    intro l
    induction l with
    | nil => exact fun p hp => hp
    | cons a l ih =>
      intro p hp
      refine ih _ fun id m hm => ?_
      rw [Table.get_assign] at hm
      split at hm
      · cases hm
        rfl
      · exact hp id m hm
  intro id m hm
  unfold MessageTable.removeWhere at hm
  refine hfold _ _ (fun id m hm => h id m ?_) id m hm
  rw [← select_pending sorters disk { q with newestFirst := false, limit := none } t]
  exact hm

/-! ## Pins -/

theorem not_canPin_expired {m : MessageEntity} {now now' : ℤ} (hle : now ≤ now') (h : canPin m now' = true) :
    canPin m now = true := by
  unfold canPin at h ⊢
  rw [Bool.and_eq_true] at h ⊢
  refine ⟨h.1, ?_⟩
  cases he : m.expiresAt with
  | none => rfl
  | some t =>
    have hlt := h.2
    rw [he] at hlt
    have hlt : now' < t := of_decide_eq_true hlt
    exact decide_eq_true (by omega)

theorem AtMostOne.later {now now' : ℤ} (h : AtMostOne rows now) (hle : now ≤ now') : AtMostOne rows now' := by
  have hlive : ∀ m, livePin m now' = true → livePin m now = true := by
    intro m hm
    unfold livePin at hm ⊢
    rw [Bool.and_eq_true] at hm ⊢
    exact ⟨hm.1, not_canPin_expired hle hm.2⟩
  intro id id' m m' hm hm' hc hl hl'
  exact h id id' m m' hm hm' hc (hlive m hl) (hlive m' hl')

theorem otherPin_implied (current : MessageEntity) (id : Text) (now : ℤ) : (otherPin current id now).Implied := by
  intro m h
  simp only [MessageQuery.accept, MessageQuery.clause, otherPin, livePin, Option.all_some, Bool.and_eq_true] at h ⊢
  exact ⟨h.1, h.2.2.1⟩

theorem no_other_of_select_nil (ht : Calm t) (hc : t.Coherent (some rows)) {current : MessageEntity} {now : ℤ}
    (hcov : Covered sorters (some rows) (otherPin current id now) t)
    (h : (t.select sorters (some rows) (otherPin current id now)).1 = []) :
    ∀ id' m, rows.get id' = some m → m.conversationId = current.conversationId → livePin m now = true → m.id = id := by
  obtain ⟨sorted, hsorts, hout⟩ := (MessageTable.select_iff sorters ⟨some rows, t, hc⟩ (otherPin current id now)
    (otherPin_implied current id now)).2 hcov
  have hnil : sorted = [] := by
    have htake : sorted.take 1 = [] := hout.symm.trans h
    rcases List.take_eq_nil_iff.1 htake with h1 | hnil
    · cases h1
    · exact hnil
  have hmerged : ((t.merged (some rows)).map Prod.snd).filter (otherPin current id now).accept = [] := by
    have hperm := hsorts.1
    rw [hnil] at hperm
    exact hperm.symm.eq_nil
  intro id' m hm hconv hlive
  by_contra hid
  have hmem : m ∈ (t.merged (some rows)).map Prod.snd := by
    have hvisible : t.diskVisible (some rows) = true := by
      simp [MessageTable.diskVisible, ht.detached, ht.clearPending]
    have hrow : (id', m) ∈ t.merged (some rows) := by
      unfold MessageTable.merged MessageTable.diskRows
      rw [if_pos hvisible, ht.pending]
      exact List.mem_append_left _ (List.mem_filter.2 ⟨Table.get_eq_some.1 hm, rfl⟩)
    exact List.mem_map_of_mem hrow
  have haccept : (otherPin current id now).accept m = true := by
    simp [MessageQuery.accept, otherPin, hconv, hid, hlive]
  have hfilter : m ∈ ((t.merged (some rows)).map Prod.snd).filter (otherPin current id now).accept :=
    List.mem_filter.2 ⟨hmem, haccept⟩
  rw [hmerged] at hfilter
  cases hfilter

theorem covered_congr {t' : MessageTable} (h : SameChanges t t') :
    Covered sorters disk q t ↔ Covered sorters disk q t' := by
  obtain ⟨hp, hd, hc⟩ := h
  cases t
  cases t'
  simp only at hp hd hc
  subst hp hd hc
  exact Iff.rfl

theorem current_calm (ht : Calm t) (id : Text) : t.current (some rows) id = rows.get id := by
  have hvisible : t.diskVisible (some rows) = true := by
    simp [MessageTable.diskVisible, ht.detached, ht.clearPending]
  unfold MessageTable.current
  rw [ht.pending]
  exact if_pos hvisible

theorem SameChanges.calm {t' : MessageTable} (h : SameChanges t t') (ht : Calm t) : Calm t' :=
  ⟨h.pending.trans ht.pending, h.clearPending.trans ht.clearPending, h.detached.trans ht.detached⟩

/-- The row that `updatePinned` writes. -/
def pinned (isPinned : Bool) (pinnedAt : Option ℤ) (now : ℤ) (m : MessageEntity) : MessageEntity :=
  { m with isPinned := isPinned, pinnedAt := if isPinned then some (pinnedAt.getD now) else none }

/-- **What a pin does**: what is refused changes nothing; what is accepted is one row, and no other pin of the
conversation is live. -/
theorem updatePinned_spec (pinnedAt expectedPinnedAt : Option ℤ) {isPinned : Bool} {now : ℤ} (ht : Calm t)
    (hc : t.Coherent (some rows))
    (hcov : isPinned = true → ∀ current, rows.get id = some current → canPin current now = true →
      Covered sorters (some rows) (otherPin current id now) t) :
    ((updatePinned sorters rows id isPinned pinnedAt expectedPinnedAt now t).1.accepted = false →
      (updatePinned sorters rows id isPinned pinnedAt expectedPinnedAt now t).2.pending = .empty) ∧
    ((updatePinned sorters rows id isPinned pinnedAt expectedPinnedAt now t).1.accepted = true →
      ∃ current, rows.get id = some current ∧
        (updatePinned sorters rows id isPinned pinnedAt expectedPinnedAt now t).2.pending =
          Table.empty.assign id (some (pinned isPinned pinnedAt now current)) ∧
        (isPinned = true → canPin current now = true ∧ ∀ id' m, rows.get id' = some m →
          m.conversationId = current.conversationId → livePin m now = true → m.id = id)) := by
  obtain ⟨t', hget, hsame, hc'⟩ := MessageTable.get_spec id hc
  have ht' := SameChanges.calm hsame ht
  rw [current_calm ht] at hget
  unfold updatePinned
  rw [hget]
  cases hrow : rows.get id with
  | none => exact ⟨fun _ => ht'.pending, fun h => by cases h⟩
  | some current =>
    simp only
    split
    · exact ⟨fun _ => ht'.pending, fun h => by cases h⟩
    · split
      · exact ⟨fun _ => ht'.pending, fun h => by cases h⟩
      · next hcan =>
        cases isPinned with
        | false =>
          refine ⟨fun h => (by cases h), fun _ => ⟨current, rfl, ?_, fun h => (by cases h)⟩⟩
          show t'.pending.assign id _ = _
          rw [ht'.pending]
          rfl
        | true =>
          have hcan : canPin current now = true := by
            by_contra hnot
            exact hcan ⟨rfl, by simpa using hnot⟩
          have hpending := select_pending sorters (some rows) (otherPin current id now) t'
          simp only [if_true]
          by_cases hnil : (t'.select sorters (some rows) (otherPin current id now)).1 = []
          · rw [if_neg (not_not.2 hnil)]
            refine ⟨fun h => (by cases h), fun _ => ⟨current, rfl, ?_, fun _ => ⟨hcan, ?_⟩⟩⟩
            · show (t'.select sorters (some rows) (otherPin current id now)).2.pending.assign id _ = _
              rw [hpending, ht'.pending]
              rfl
            · exact no_other_of_select_nil ht' hc' ((covered_congr hsame).1 (hcov rfl current hrow hcan)) hnil
          · rw [if_pos hnil]
            exact ⟨fun _ => hpending.trans ht'.pending, fun h => by cases h⟩

theorem livePin_pinned {m : MessageEntity} {pinnedAt : Option ℤ} {now : ℤ} (h : canPin m now = true) :
    livePin (pinned true pinnedAt now m) now = true := h

theorem commit_pinned (h : Sound s) {current : MessageEntity} {pinnedAt : Option ℤ}
    (hrow : s.rows.get id = some current)
    (hother : ∀ id' m, s.rows.get id' = some m →
      m.conversationId = current.conversationId → livePin m s.now = true → m.id = id)
    (hp : t.pending = Table.empty.assign id (some (pinned true pinnedAt s.now current))) :
    Sound (s.commit t) ∧ (s.commit t).rows.get id = some (pinned true pinnedAt s.now current) ∧
      ∀ id' m, (s.commit t).rows.get id' = some m → m.conversationId = current.conversationId →
        livePin m s.now = true → id' = id := by
  have hget : ∀ id', (s.commit t).rows.get id' =
      if id' = id then some (pinned true pinnedAt s.now current) else s.rows.get id' := by
    intro id'
    rw [get_commit, hp, Table.get_assign]
    by_cases hid : id' = id
    · rw [if_pos hid, if_pos hid]
      rfl
    · rw [if_neg hid, if_neg hid]
      rfl
  have hid : current.id = id := h.named id current hrow
  have hsole : ∀ id' m, (s.commit t).rows.get id' = some m → m.conversationId = current.conversationId →
      livePin m s.now = true → id' = id := by
    intro id' m hm hconv hlive
    rw [hget] at hm
    split at hm
    · next he => exact he
    · rw [← h.named id' m hm]
      exact hother id' m hm hconv hlive
  have hself := (hget id).trans (if_pos rfl)
  refine ⟨⟨⟨rfl, rfl, rfl⟩, fun id' m hm => ?_, ?_⟩, hself, hsole⟩
  · rw [hget] at hm
    split at hm
    · next he =>
      cases hm
      exact hid.trans he.symm
    · exact h.named id' m hm
  · intro a b m m' hm hm' hc hl hl'
    by_cases hconv : m.conversationId = current.conversationId
    · exact (hsole a m hm hconv hl).trans (hsole b m' hm' (hc.symm.trans hconv) hl').symm
    · -- a conversation that was not touched
      have hne : ∀ c x, (s.commit t).rows.get c = some x → x.conversationId ≠ current.conversationId →
          s.rows.get c = some x := by
        intro c x hx hx'
        rw [hget] at hx
        split at hx
        · cases hx
          exact absurd rfl hx'
        · exact hx
      exact h.one a b m m' (hne a m hm hconv) (hne b m' hm' fun he => hconv (hc.trans he)) hc hl hl'

/-- The condition on an operation: one that reads rows finds the rows of the disk in the cache, and the query of a pin
does not leave a live pin out. -/
def Fresh (sorters : Sorters) (s : Store) : Op → Prop
  | .updatePinned id isPinned _ _ => s.table.Coherent (some s.rows) ∧ (isPinned = true → ∀ current,
      s.rows.get id = some current → canPin current s.now = true →
        Covered sorters (some s.rows) (otherPin current id s.now) s.table)
  | .patch _ _ => s.table.Coherent (some s.rows)
  | _ => True

theorem patchRow_milder (h : Sound s) (hc : s.table.Coherent (some s.rows)) (id : Text) (r : Revision) :
    Milder s.rows (patchRow s.rows id r s.table) := by
  obtain ⟨t', hget, hsame, -⟩ := MessageTable.get_spec id hc
  have ht' := SameChanges.calm hsame h.calm
  rw [current_calm h.calm] at hget
  unfold patchRow
  rw [hget]
  cases hrow : s.rows.get id with
  | none => exact ht'.onlyRemoves.milder
  | some current =>
    intro id' m hm
    have hm : (t'.pending.assign id (some (r.f current))).get id' = some (some m) := hm
    rw [ht'.pending, Table.get_assign] at hm
    split at hm
    · next he =>
      cases hm
      subst he
      refine ⟨(r.id current).trans (h.named _ _ hrow), Or.inr ⟨current, hrow, (r.conversationId current).symm, ?_⟩⟩
      intro now hl
      unfold livePin at hl ⊢
      rw [Bool.and_eq_true] at hl ⊢
      exact ⟨(r.isPinned current).symm.trans hl.1, r.canPin current now hl.2⟩
    · cases hm

theorem Sound.step (h : Sound s) {op : Op} {s' : Store} (hok : Fresh sorters s op)
    (hs : Pins.step sorters s op = some s') : Sound s' := by
  cases op with
  | updatePinned id isPinned pinnedAt expectedPinnedAt =>
    obtain ⟨hrefused, haccepted⟩ := updatePinned_spec pinnedAt expectedPinnedAt h.calm hok.1 hok.2
    cases hs
    have hsound : ∀ t, Sound (s.commit t) → ∀ r, Sound { s.commit t with results := r } :=
      fun t ht r => ⟨ht.calm, ht.named, ht.one⟩
    apply hsound
    cases hacc : (updatePinned sorters s.rows id isPinned pinnedAt expectedPinnedAt s.now s.table).1.accepted with
    | false =>
      refine h.commit (OnlyRemoves.milder fun id m hm => ?_)
      rw [hrefused hacc] at hm
      cases hm
    | true =>
      obtain ⟨current, hrow, hp, hother⟩ := haccepted hacc
      cases isPinned with
      | true => exact (commit_pinned h hrow (hother rfl).2 hp).1
      | false =>
        refine h.commit fun id' m hm => ?_
        rw [hp, Table.get_assign] at hm
        split at hm
        · next he =>
          cases hm
          exact ⟨(h.named _ _ hrow).trans he.symm, Or.inl rfl⟩
        · cases hm
  | insert m =>
    have hs : (if m.isPinned = true then none else some (s.commit (s.table.put m.id m))) = some s' := hs
    split at hs
    · cases hs
    · next hpin =>
      cases hs
      refine h.commit fun id' x hx => ?_
      have hx : (s.table.pending.assign m.id (some m)).get id' = some (some x) := hx
      rw [h.calm.pending, Table.get_assign] at hx
      split at hx
      · next he =>
        cases hx
        exact ⟨he.symm, Or.inl (by simpa using hpin)⟩
      · cases hx
  | patch id r =>
    cases hs
    exact h.commit (patchRow_milder h hok id r)
  | delete id =>
    cases hs
    exact h.commit (h.calm.onlyRemoves.remove (some s.rows) id).milder
  | removeWhere q =>
    cases hs
    exact h.commit (h.calm.onlyRemoves.removeWhere sorters (some s.rows) q).milder
  | deleteExpiredMessages =>
    cases hs
    have hselect : OnlyRemoves (s.table.select sorters (some s.rows) (expired s.now)).2 := by
      intro id m hm
      rw [select_pending] at hm
      exact h.calm.onlyRemoves id m hm
    exact h.commit (OnlyRemoves.foldl_remove (some s.rows) _ hselect).milder
  | refresh =>
    cases hs
    exact ⟨⟨rfl, rfl, rfl⟩, h.named, h.one⟩
  | passes t =>
    have hs : (if t < s.now then none else some { s with now := t }) = some s' := hs
    split at hs
    · cases hs
    · next hle =>
      cases hs
      exact ⟨h.calm, h.named, h.one.later (Int.not_lt.1 hle)⟩

end Writes

/-- **One live pin at most**, in every run whose operations meet the condition, and a pin that is accepted is the one.
-/
theorem pins_run {sorters : Sorters} {ops : List Op} {s : Store} (h : run (step sorters) Store.empty ops = some s)
    (hok : Meets (step sorters) (Fresh sorters) Store.empty ops) :
    AtMostOne s.rows s.now ∧
    ∀ id pinnedAt expectedPinnedAt s', Fresh sorters s (.updatePinned id true pinnedAt expectedPinnedAt) →
      step sorters s (.updatePinned id true pinnedAt expectedPinnedAt) = some s' →
      (updatePinned sorters s.rows id true pinnedAt expectedPinnedAt s.now s.table).1.accepted = true →
      ∃ m, s'.rows.get id = some m ∧ livePin m s'.now = true ∧ ∀ id' m', s'.rows.get id' = some m' →
        m'.conversationId = m.conversationId → livePin m' s'.now = true → id' = id := by
  have hsound : Sound s := hok.invariant Sound (fun _ _ _ h hok hs => h.step hok hs) sound_empty h
  refine ⟨hsound.one, fun id pinnedAt expectedPinnedAt s' hfresh hs hacc => ?_⟩
  obtain ⟨current, hrow, hp, hother⟩ := (updatePinned_spec pinnedAt expectedPinnedAt hsound.calm hfresh.1
    hfresh.2).2 hacc
  obtain ⟨-, hself, hsole⟩ := commit_pinned hsound hrow (hother rfl).2 hp
  cases hs
  exact ⟨_, hself, livePin_pinned (hother rfl).1, hsole⟩

/-! ## A pin that has expired -/

def sampleRow (id : Text) (timestamp : ℤ) (expiresAt : Option ℤ) : MessageEntity where
  id := id
  conversationId := ['c']
  senderId := ['p']
  content := ['h', 'i']
  contentType := .text
  timestamp := timestamp
  status := .delivered
  isOutgoing := false
  expiresAt := expiresAt

def expiredPin : List Op :=
  [.insert (sampleRow ['x'] 1 (some 100)), .insert (sampleRow ['y'] 2 none), .insert (sampleRow ['z'] 3 none),
    .updatePinned ['x'] true none none, .passes 100, .updatePinned ['y'] true none none,
    .updatePinned ['z'] true none none]

/-- **Two live pins**: the expired one is the only row that the query fetches. -/
theorem updatePinned_twice : ∃ s, run (step .stable) Store.empty expiredPin = some s ∧
    s.results.map (fun x => (x.1, x.2.accepted)) = [(['z'], true), (['y'], true), (['x'], true)] ∧
    ¬ AtMostOne s.rows s.now := by
  obtain ⟨s, hs, hresults, hy, hz⟩ : ∃ s, run (step .stable) Store.empty expiredPin = some s ∧
      s.results.map (fun x => (x.1, x.2.accepted)) = [(['z'], true), (['y'], true), (['x'], true)] ∧
      (s.rows.get ['y']).any (fun m => livePin m s.now && decide (m.conversationId = ['c'])) = true ∧
      (s.rows.get ['z']).any (fun m => livePin m s.now && decide (m.conversationId = ['c'])) = true :=
    exists_run _ _ _ (by decide +kernel)
  refine ⟨s, hs, hresults, fun hone => ?_⟩
  obtain ⟨m, hm, hlive⟩ := (Option.any_eq_true _ _).1 hy
  obtain ⟨m', hm', hlive'⟩ := (Option.any_eq_true _ _).1 hz
  rw [Bool.and_eq_true, decide_eq_true_eq] at hlive hlive'
  have heq := hone _ _ m m' hm hm' (hlive.2.trans hlive'.2.symm) hlive.1 hlive'.1
  revert heq
  decide

/-- A pin, which is taken off again, and another one. -/
def twoPins : List Op :=
  [.insert (sampleRow ['x'] 1 none), .insert (sampleRow ['y'] 2 none), .refresh, .updatePinned ['x'] true none none,
    .refresh, .updatePinned ['x'] false none none, .refresh, .updatePinned ['y'] true none none]

theorem covered_unpinned {rows : MessageRows} {current : MessageEntity} {id : Text} {now : ℤ}
    (hrows : rows.entries.all (fun row => !row.2.isPinned) = true) :
    Covered .stable (some rows) (otherPin current id now) MessageTable.connected := by
  refine MessageTable.covered_of_exact fun row hrow hclause => ?_
  have hrow : row ∈ rows.entries := hrow
  have hunpinned := List.all_eq_true.1 hrows row hrow
  have hpinned := ((Bool.and_eq_true _ _).mp hclause).2
  simp [otherPin] at hpinned
  simp [hpinned] at hunpinned

theorem pins_run_twoPins : ∃ s, run (step .stable) Store.empty twoPins = some s ∧
    s.results = [(['y'], ⟨true, false⟩), (['x'], ⟨true, true⟩), (['x'], ⟨true, false⟩)] ∧ AtMostOne s.rows s.now := by
  obtain ⟨s, hs, hresults⟩ : ∃ s, run (step .stable) Store.empty twoPins = some s ∧
      s.results = [(['y'], ⟨true, false⟩), (['x'], ⟨true, true⟩), (['x'], ⟨true, false⟩)] :=
    exists_run _ _ _ (by decide +kernel)
  have hcoherent : ∀ rows, MessageTable.connected.Coherent (some rows) := by
    intro rows _ _ _ _ hget
    cases hget
  exact ⟨s, hs, hresults, (pins_run hs
    ⟨trivial, trivial, trivial, ⟨hcoherent _, fun _ current _ _ => covered_unpinned (by decide +kernel)⟩, trivial,
      ⟨hcoherent _, fun h => by cases h⟩, trivial,
      ⟨hcoherent _, fun _ current _ _ => covered_unpinned (by decide +kernel)⟩, trivial⟩).1⟩

end Pins
end Storage
end SecureChat
