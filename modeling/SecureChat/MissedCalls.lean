import SecureChat.MissedCallTracker
/-!
# MissedCalls — an accepted call is not missed, and a missed one is recorded once

The timer of the tracker runs for 30 seconds and a call rings for longer, so a call can be recorded and notified as
missed while it still rings, and be accepted then (`lateAcceptance_recorded`).  `recorded_once_run` says which runs keep
the books right.  Notifications may fail, and the tracker may be triggered as often as one likes.
-/
namespace SecureChat
namespace MissedCalls

open Async
open Calls (CallDirection CallSession CallState CallType ControlAction)
open GroupControl (Text)
open Program (get modify whenever HoldsBeside)
open Storage (ConversationEntity)

/-! ## The conditions -/

def sound (w : Wait) (answer : Option Answer) (s : State) : Bool :=
  match w.op with
  | .accepting session true => answer.isNone || !s.stillThere session ||
    (!s.terminating && (s.timers.get session.callId).isSome)
  | .lookUp session found => answer.isSome && (found.isSome || decide (session.callId ∈ s.recorded))
  | .record _ id => answer.isSome && (s.conversations.get id).isSome
  | .closeGroupMedia _ _ => answer.isSome
  | .saveLog _ => answer.isSome
  | .load _ => answer.isSome
  | _ => true

def unused (callId : Text) (ids : List Text) : Bool := ids.all fun c => decide (c ≠ callId)

theorem unused_iff {callId : Text} {ids : List Text} : unused callId ids = true ↔ callId ∉ ids := by
  simp only [unused, List.all_eq_true, decide_eq_true_eq]
  exact ⟨fun h hc => h callId hc rfl, fun h c hc he => h (he ▸ hc)⟩

def Event.starts (x : Event) (s : State) : Bool :=
  match x with
  | .incoming session _ => (targetId session).isSome && unused session.callId s.seen &&
    (s.hasLiveCall || unused session.callId s.dialed && unused session.callId s.refused)
  | .dial session => unused session.callId s.seen
  | .control action => !s.rings || decide (action ∉ [ControlAction.accept, .reject, .busy])
  | _ => true

/-! ## What the waiting handlers are about -/

namespace Op

def tracked : Op → Option Text
  | .load session | .lookUp session _ | .record session _ | .presenting session | .settled session =>
    some session.callId
  | _ => none

def reporting : Op → Option Text
  | .reportIncoming session => some session.callId
  | _ => none

def comes : Op → Option Text
  | .closeGroupMedia session final => if isMissed session final then some session.callId else none
  | .saveLog session => some session.callId
  | op => op.tracked

end Op

def Wait.tracked (w : Wait) : Option Text := w.op.tracked
def Wait.reporting (w : Wait) : Option Text := w.op.reporting
def Wait.comes (w : Wait) : Option Text := w.op.comes

/-- No call that rings has this id, except one that is being ended. -/
def State.Over (s : State) (callId : Text) : Prop :=
  ∀ t, s.current = some t → t.direction = .incoming → t.callId = callId → t.state = .ringing → s.terminating = true

/-- A session is one of those that came in, with somebody to record it for, or one that was dialed. -/
def Known (s : State) (t : CallSession) : Prop :=
  (t.direction = .incoming → t.callId ∈ s.seen ∧ (targetId t).isSome) ∧
    (t.direction = .outgoing → t.callId ∈ s.dialed)

def Ended (s : State) (t : CallSession) : Prop := Known s t ∧ (t.direction = .incoming → t.callId ∈ s.ended)

def Op.Fits (s : State) : Op → Prop
  | .reportIncoming t => t.direction = .incoming ∧ Known s t ∧ t.callId ∉ s.accepted ∧
    s.timers.get t.callId = none
  | .accepting t _ => t.direction = .incoming ∧ Known s t
  | .closeGroupMedia t final => isMissed t final = true →
    t.callId ∈ s.seen ∧ t.callId ∉ s.accepted ∧ s.Over t.callId
  | .sendBusy t => (targetId t).isSome ∧ t.callId ∈ s.refused
  | .saveLog t => (targetId t).isSome ∧ t.callId ∈ s.refused
  | .record t _ => t.callId ∉ s.recorded
  | .presenting t => t.callId ∈ s.recorded
  | .settled t => t.callId ∈ s.recorded
  | _ => True

def Wait.Fits (s : State) (w : Wait) : Prop := w.op.Fits s ∧ ∀ t ∈ w.ending, Ended s t

def State.recordsOf (s : State) (callId : Text) : List Record := s.records.filter fun r => decide (r.callId = callId)

/-- The books are right; of the call `x` that is just being ended this is not asked yet. -/
structure Accounts (x : Option Text) (s : State) (o : List Wait) : Prop where
  disjoint : ∀ c ∈ s.seen, c ∉ s.dialed ∧ c ∉ s.refused
  current : ∀ t, s.current = some t → Known s t
  ringing : ∀ t, s.current = some t → t.direction = .incoming →
    t.state = .ringing ∨ t.callId ∈ s.accepted ∨ t.isTerminal = true ∧ t.callId ∈ s.ended
  timers : ∀ c a, s.timers.get c = some a →
    a.session.callId = c ∧ a.session.direction = .incoming ∧ Known s a.session ∧ c ∉ s.accepted
  reports : (o.filterMap Wait.reporting).Nodup
  tracked : (o.filterMap Wait.tracked).Nodup
  pending : ∀ c, c ∈ o.filterMap Wait.tracked ↔ (s.pending.get c).isSome
  recorded : ∀ c, c ∈ s.recorded → ∃ id, s.recordsOf c = [⟨c, id, 1⟩]
  unrecorded : ∀ c, ¬ c ∈ s.recorded → s.recordsOf c = []
  known : ∀ c, (c ∈ s.recorded ∨ (s.pending.get c).isSome) → c ∈ s.seen ∨ c ∈ s.refused
  notified : ∀ c, c ∈ s.notified → c ∈ s.recorded
  presented : ∀ n ∈ s.presented, n.callId ∈ s.recorded
  fits : ∀ w ∈ o, w.Fits s
  accepted : ∀ c ∈ s.accepted, c ∈ s.seen ∧ ¬ c ∈ s.recorded ∧ s.pending.get c = none ∧
    ∀ t, s.current = some t → t.callId = c → t.state ≠ .ringing
  untouched : ∀ t, s.current = some t → t.direction = .incoming → t.state = .ringing → s.terminating = false →
    ((s.timers.get t.callId).isSome ∨ t.callId ∈ o.filterMap Wait.reporting) →
    ¬ t.callId ∈ s.recorded ∧ s.pending.get t.callId = none
  unanswered : ∀ c, some c ≠ x → (c ∈ s.ended ∨ c ∈ s.busied) →
    c ∈ s.accepted ∨ c ∈ s.declined ∨ c ∈ s.recorded ∨ c ∈ o.filterMap Wait.comes

def rules : Tasks.Rules Answer Wait State Event where
  Inv := Accounts none
  Starts x s _ := x.starts s = true
  Admitted w answer s _ := sound w answer s = true

namespace Accounts

variable {x : Option Text} {s s' : State} {o o' : List Wait} {w : Wait} {op op' : Op} {e : Option CallSession}
  {c : Text} {t : CallSession}

theorem perm (hp : o.Perm o') (h : Accounts x s o) : Accounts x s o' :=
  { h with
      reports := (hp.filterMap _).nodup_iff.1 h.reports
      tracked := (hp.filterMap _).nodup_iff.1 h.tracked
      pending := fun c => (hp.filterMap _).mem_iff.symm.trans (h.pending c)
      fits := fun w hw => h.fits w (hp.mem_iff.2 hw)
      untouched := fun t ht hi hr hn hor => h.untouched t ht hi hr hn (hor.imp_right (hp.filterMap _).mem_iff.2)
      unanswered := fun c hx hc =>
        (h.unanswered c hx hc).imp_right (·.imp_right (·.imp_right (hp.filterMap _).mem_iff.1)) }

theorem initial : Accounts none {} [] where
  disjoint := fun _ h => (by cases h)
  current := fun _ h => (by cases h)
  ringing := fun _ h => (by cases h)
  timers := fun _ _ h => (by cases h)
  reports := List.nodup_nil
  tracked := List.nodup_nil
  pending := fun c => by simp
  recorded := fun c h => absurd h (LinkedSet.not_mem_empty c)
  unrecorded := fun _ _ => rfl
  known := fun c h => (by
    rcases h with h | h
    · exact absurd h (LinkedSet.not_mem_empty c)
    · cases h)
  notified := fun c h => absurd h (LinkedSet.not_mem_empty c)
  presented := fun _ h => (by cases h)
  fits := fun _ h => (by cases h)
  accepted := fun _ h => (by cases h)
  untouched := fun _ h => (by cases h)
  unanswered := fun _ _ h => (by rcases h with h | h <;> cases h)

/-! ### Steps that are awaited -/

theorem forall_cons (h : Accounts x s o) (hw : w.Fits s) : ∀ v ∈ w :: o, v.Fits s := by
  intro v hv
  rcases List.mem_cons.1 hv with rfl | hv
  · exact hw
  · exact h.fits v hv

theorem mem_filterMap_cons {f : Wait → Option Text} (h : c ∈ o.filterMap f) : c ∈ (w :: o).filterMap f :=
  ((List.sublist_cons_self w o).filterMap f).subset h

theorem head_fits (h : Accounts x s (w :: o)) : w.Fits s := h.fits w List.mem_cons_self

theorem cons (h : Accounts x s o) (ht : w.tracked = none) (hr : w.reporting = none) (hw : w.Fits s) :
    Accounts x s (w :: o) :=
  { h with
      reports := by rw [List.filterMap_cons_none hr]; exact h.reports
      tracked := by rw [List.filterMap_cons_none ht]; exact h.tracked
      pending := by rw [List.filterMap_cons_none ht]; exact h.pending
      fits := h.forall_cons hw
      untouched := by rw [List.filterMap_cons_none hr]; exact h.untouched
      unanswered := fun c hx hc => (h.unanswered c hx hc).imp_right (·.imp_right (·.imp_right mem_filterMap_cons)) }

theorem tail (h : Accounts none s (w :: o)) (ht : w.tracked = none) (hr : w.reporting = none) :
    Accounts w.comes s o where
  disjoint := h.disjoint
  current := h.current
  ringing := h.ringing
  timers := h.timers
  reports := by simpa only [List.filterMap_cons_none hr] using h.reports
  tracked := by simpa only [List.filterMap_cons_none ht] using h.tracked
  pending := by simpa only [List.filterMap_cons_none ht] using h.pending
  recorded := h.recorded
  unrecorded := h.unrecorded
  known := h.known
  notified := h.notified
  presented := h.presented
  fits v hv := h.fits v (List.mem_cons_of_mem w hv)
  accepted := h.accepted
  untouched := by simpa only [List.filterMap_cons_none hr] using h.untouched
  unanswered c hx hc := by
    refine (h.unanswered c (by simp) hc).imp_right (·.imp_right (·.imp_right fun hcomes => ?_))
    obtain ⟨v, hv, hcv⟩ := List.mem_filterMap.1 hcomes
    rcases List.mem_cons.1 hv with rfl | hv
    · exact absurd hcv.symm hx
    · exact List.mem_filterMap.2 ⟨v, hv, hcv⟩

theorem cover (h : Accounts w.comes s o) (ht : w.tracked = none) (hr : w.reporting = none) (hw : w.Fits s) :
    Accounts none s (w :: o) := by
  have hcons := h.cons ht hr hw
  refine { hcons with unanswered := fun k _ hk => ?_ }
  by_cases hkw : w.comes = some k
  · exact .inr (.inr (.inr (List.mem_filterMap.2 ⟨w, List.mem_cons_self, hkw⟩)))
  · exact hcons.unanswered k (fun he => hkw he.symm) hk

theorem exchange (h : Accounts none s (⟨op, e⟩ :: o)) (ht : op.tracked = some c) (ht' : op'.tracked = some c)
    (hr : op.reporting = none) (hr' : op'.reporting = none) (hc : op.comes = some c) (hc' : op'.comes = some c)
    (hop : op'.Fits s) : Accounts none s (⟨op', e⟩ :: o) := by
  have htracked : (⟨op', e⟩ :: o).filterMap Wait.tracked = (⟨op, e⟩ :: o).filterMap Wait.tracked := by
    rw [List.filterMap_cons_some (f := Wait.tracked) (a := ⟨op, e⟩) ht]
    exact List.filterMap_cons_some ht'
  have hreports : (⟨op', e⟩ :: o).filterMap Wait.reporting = (⟨op, e⟩ :: o).filterMap Wait.reporting := by
    rw [List.filterMap_cons_none (f := Wait.reporting) (a := ⟨op, e⟩) hr]
    exact List.filterMap_cons_none hr'
  have hcomes : (⟨op', e⟩ :: o).filterMap Wait.comes = (⟨op, e⟩ :: o).filterMap Wait.comes := by
    rw [List.filterMap_cons_some (f := Wait.comes) (a := ⟨op, e⟩) hc]
    exact List.filterMap_cons_some hc'
  refine { h with reports := ?_, tracked := ?_, pending := ?_, fits := ?_, untouched := ?_, unanswered := ?_ }
  · rw [hreports]
    exact h.reports
  · rw [htracked]
    exact h.tracked
  · rw [htracked]
    exact h.pending
  · intro v hv
    rcases List.mem_cons.1 hv with rfl | hv
    · exact ⟨hop, h.head_fits.2⟩
    · exact h.fits v (List.mem_cons_of_mem _ hv)
  · rw [hreports]
    exact h.untouched
  · rw [hcomes]
    exact h.unanswered

/-! ### The tracker -/

theorem cancel (h : Accounts x s o) (callId : Text) : Accounts x (s.cancel callId) o := by
  have hget : ∀ k t, (s.cancel callId).timers.get k = some t → s.timers.get k = some t := by
    intro k t hk
    rw [State.cancel, Table.get_remove] at hk
    split at hk
    · cases hk
    · exact hk
  have hnone : ∀ k, s.timers.get k = none → (s.cancel callId).timers.get k = none := by
    intro k hk
    rw [State.cancel, Table.get_remove, hk, ite_self]
  refine { h with timers := fun k t hk => h.timers k t (hget k t hk), fits := fun w hw => ?_, untouched := ?_ }
  · refine ⟨?_, (h.fits w hw).2⟩
    have hfits := (h.fits w hw).1
    cases hop : w.op with
    | reportIncoming t =>
      rw [hop] at hfits
      exact ⟨hfits.1, hfits.2.1, hfits.2.2.1, hnone _ hfits.2.2.2⟩
    | _ =>
      rw [hop] at hfits
      exact hfits
  · intro t ht hi hr hn hor
    refine h.untouched t ht hi hr hn (hor.imp_left fun hsome => ?_)
    obtain ⟨u, hu⟩ := Option.isSome_iff_exists.1 hsome
    exact Option.isSome_iff_exists.2 ⟨u, hget _ u hu⟩

theorem not_mem_tracked (h : Accounts x s o) (hc : s.pending.get c = none) : c ∉ o.filterMap Wait.tracked := by
  intro hmem
  rw [h.pending c, hc] at hmem
  cases hmem

theorem begin (h : Accounts x s o) (hx : ∀ k ∈ x, k = t.callId) (hpending : s.pending.get t.callId = none)
    (haccepted : t.callId ∉ s.accepted)
    (hover : s.Over t.callId ∨ s.timers.get t.callId = none ∧ t.callId ∉ o.filterMap Wait.reporting)
    (hknown : t.callId ∈ s.seen ∨ t.callId ∈ s.refused) (he : ∀ u ∈ e, Ended s u) :
    Accounts none (s.begin t.callId) (⟨.load t, e⟩ :: o) := by
  have hget : ∀ k, (s.begin t.callId).pending.get k = if k = t.callId then some s.issued else s.pending.get k :=
    fun k => Table.get_assign
  have hcons : (⟨.load t, e⟩ :: o).filterMap Wait.tracked = t.callId :: o.filterMap Wait.tracked := rfl
  refine { h with
    reports := h.reports, tracked := ?_, pending := fun k => ?_, known := fun k hk => ?_, fits := ?_,
    accepted := fun k hk => ?_, untouched := fun u hu hi hr hn hor => ?_, unanswered := fun k _ hk => ?_ }
  · rw [hcons]
    exact List.nodup_cons.2 ⟨h.not_mem_tracked hpending, h.tracked⟩
  · rw [hcons, List.mem_cons, h.pending k, hget]
    split <;> simp [*]
  · rw [hget] at hk
    split at hk
    · rename_i he
      exact he ▸ hknown
    · exact h.known k hk
  · exact fun v hv => by
      rcases List.mem_cons.1 hv with rfl | hv
      · exact ⟨trivial, he⟩
      · exact h.fits v hv
  · obtain ⟨hseen, hrecorded, hp, hstate⟩ := h.accepted k hk
    have hne : k ≠ t.callId := fun he => haccepted (he ▸ hk)
    refine ⟨hseen, hrecorded, ?_, hstate⟩
    rw [hget, if_neg hne]
    exact hp
  · have hn' : s.terminating = false := hn
    have hne : u.callId ≠ t.callId := fun he => by
      rcases hover with hover | ⟨htimer, hreport⟩
      · simpa [hn'] using hover u hu hi he hr
      · rcases hor with hsome | hmem
        · have hsome' : (s.timers.get u.callId).isSome = true := hsome
          rw [he, htimer] at hsome'
          cases hsome'
        · exact hreport (he ▸ hmem)
    obtain ⟨hrecorded, hp⟩ := h.untouched u hu hi hr hn hor
    refine ⟨hrecorded, ?_⟩
    rw [hget, if_neg hne]
    exact hp
  · by_cases hkt : k = t.callId
    · exact .inr (.inr (.inr (List.mem_filterMap.2 ⟨⟨.load t, e⟩, List.mem_cons_self, congrArg some hkt.symm⟩)))
    · have hkx : some k ≠ x := fun hkx => hkt (hx k hkx.symm)
      exact (h.unanswered k hkx hk).imp_right (·.imp_right (·.imp_right mem_filterMap_cons))

theorem mark (h : Accounts none s (⟨op, e⟩ :: o)) (ht : op.tracked = some t.callId) (hr : op.reporting = none)
    (hc : op.comes = some t.callId) {records : List Record} {conversations : ChatControl.Conversations}
    {shown : MissedCallNotification} (hshown : shown.callId = t.callId)
    (hown : ∃ id, records.filter (fun r => decide (r.callId = t.callId)) = [⟨t.callId, id, 1⟩])
    (hothers : ∀ k, k ≠ t.callId → records.filter (fun r => decide (r.callId = k)) = s.recordsOf k) :
    Accounts none (({ s with conversations := conversations, records := records } : State).present shown)
      (⟨.presenting t, e⟩ :: o) := by
  have hmem : ∀ k, k ∈ s.recorded.insert shown.callId ↔ k ∈ s.recorded ∨ k = t.callId := fun k => by
    rw [LinkedSet.mem_insert, hshown]
  have hcons : (⟨op, e⟩ :: o).filterMap Wait.tracked = t.callId :: o.filterMap Wait.tracked :=
    List.filterMap_cons_some ht
  have hsameTracked : (⟨.presenting t, e⟩ :: o).filterMap Wait.tracked = (⟨op, e⟩ :: o).filterMap Wait.tracked :=
    hcons.symm
  have hsameReports : (⟨.presenting t, e⟩ :: o).filterMap Wait.reporting = (⟨op, e⟩ :: o).filterMap Wait.reporting :=
    (List.filterMap_cons_none (f := Wait.reporting) (a := ⟨op, e⟩) hr).symm
  have hpending : (s.pending.get t.callId).isSome := by
    rw [← h.pending, hcons]
    exact List.mem_cons_self
  have hne : ∀ k, s.pending.get k = none → k ≠ t.callId := fun k hk he => by
    rw [← he, hk] at hpending
    cases hpending
  have hothers' : t.callId ∉ o.filterMap Wait.tracked := by
    have htracked := h.tracked
    rw [hcons] at htracked
    exact (List.nodup_cons.1 htracked).1
  refine { h with
    reports := ?_, tracked := ?_, pending := ?_, recorded := fun k hk => ?_, unrecorded := fun k hk => ?_,
    known := fun k hk => ?_, notified := fun k hk => (hmem k).2 (.inl (h.notified k hk)), presented := ?_, fits := ?_,
    accepted := fun k hk => ?_, untouched := fun u hu hi hring hn hor => ?_, unanswered := fun k hx hk => ?_ }
  · rw [hsameReports]
    exact h.reports
  · rw [hsameTracked]
    exact h.tracked
  · rw [hsameTracked]
    exact h.pending
  · by_cases he : k = t.callId
    · exact he ▸ hown
    · obtain ⟨id, hid⟩ := h.recorded k (((hmem k).1 hk).resolve_right he)
      exact ⟨id, (hothers k he).trans hid⟩
  · have hk' : ¬ (k ∈ s.recorded ∨ k = t.callId) := fun hor => hk ((hmem k).2 hor)
    rw [not_or] at hk'
    exact (hothers k hk'.2).trans (h.unrecorded k hk'.1)
  · rcases hk with hk | hk
    · rcases (hmem k).1 hk with hk | rfl
      · exact h.known k (.inl hk)
      · exact h.known _ (.inr hpending)
    · exact h.known k (.inr hk)
  · intro n hn
    rcases List.mem_cons.1 hn with rfl | hn
    · exact (hmem _).2 (.inr hshown)
    · exact (hmem _).2 (.inl (h.presented n hn))
  · intro v hv
    rcases List.mem_cons.1 hv with rfl | hv
    · exact ⟨(hmem _).2 (.inr rfl), h.head_fits.2⟩
    · have hv' := List.mem_cons_of_mem ⟨op, e⟩ hv
      refine ⟨?_, (h.fits v hv').2⟩
      have hfits := (h.fits v hv').1
      cases hop : v.op with
      | record u id =>
        rw [hop] at hfits
        refine fun hmem' => ((hmem _).1 hmem').elim hfits fun he => ?_
        have hu : v.tracked = some t.callId := by rw [Wait.tracked, hop, ← he]; rfl
        exact hothers' (List.mem_filterMap.2 ⟨v, hv, hu⟩)
      | presenting u =>
        rw [hop] at hfits
        exact (hmem _).2 (.inl hfits)
      | settled u =>
        rw [hop] at hfits
        exact (hmem _).2 (.inl hfits)
      | _ =>
        rw [hop] at hfits
        exact hfits
  · obtain ⟨hseen, hrecorded, hp, hstate⟩ := h.accepted k hk
    exact ⟨hseen, fun hmem' => ((hmem k).1 hmem').elim hrecorded (hne k hp), hp, hstate⟩
  · rw [hsameReports] at hor
    obtain ⟨hrecorded, hp⟩ := h.untouched u hu hi hring hn hor
    exact ⟨fun hmem' => ((hmem _).1 hmem').elim hrecorded (hne _ hp), hp⟩
  · refine (h.unanswered k hx hk).imp_right (·.imp_right fun hor => ?_)
    rw [show (⟨op, e⟩ :: o).filterMap Wait.comes = t.callId :: o.filterMap Wait.comes from
      List.filterMap_cons_some hc] at hor
    exact hor.imp_left fun hk => (hmem k).2 (.inl hk)

theorem records_recordMissedCall {id : Text} (hrow : (s.conversations.get id).isSome) (message : Text) (timestamp : ℤ) :
    (s.recordMissedCall c id message timestamp).records = ⟨c, id, 1⟩ :: s.records := by
  obtain ⟨row, hget⟩ := Option.isSome_iff_exists.1 hrow
  have hpatch : (s.conversations.patch id (missed message timestamp)).get id = some (missed message timestamp row) := by
    rw [Keyed.get_patch (f := missed message timestamp) fun _ => rfl, if_pos rfl, hget]
    rfl
  have hrise : (missed message timestamp row).unreadCount - row.unreadCount = 1 := by
    show row.unreadCount + 1 - row.unreadCount = 1
    omega
  simp only [State.recordMissedCall, State.unreadCount, hpatch, hget, Option.isSome_some, if_true, Option.map_some,
    Option.getD_some, hrise]

theorem record {id : Text} (h : Accounts none s (⟨.record t id, e⟩ :: o)) (hrow : (s.conversations.get id).isSome)
    (message : Text) (timestamp : ℤ) {shown : MissedCallNotification} (hshown : shown.callId = t.callId) :
    Accounts none ((s.recordMissedCall t.callId id message timestamp).present shown)
      (⟨.presenting t, e⟩ :: o) := by
  have hnone : s.recordsOf t.callId = [] := h.unrecorded _ h.head_fits.1
  have hrecords := records_recordMissedCall (c := t.callId) hrow message timestamp
  have hstate : s.recordMissedCall t.callId id message timestamp =
      { s with
          conversations := (s.recordMissedCall t.callId id message timestamp).conversations
          records := ⟨t.callId, id, 1⟩ :: s.records } := by
    rw [← hrecords]
    rfl
  rw [hstate]
  refine h.mark rfl rfl rfl hshown ⟨id, ?_⟩ fun k hk => ?_
  · rw [List.filter_cons_of_pos (by simp)]
    exact congrArg _ hnone
  · rw [List.filter_cons_of_neg (by simpa using fun he => hk he.symm)]
    rfl

theorem present (h : Accounts none s (⟨op, e⟩ :: o)) (ht : op.tracked = some t.callId) (hr : op.reporting = none)
    (hc : op.comes = some t.callId) (hrecorded : t.callId ∈ s.recorded) {shown : MissedCallNotification}
    (hshown : shown.callId = t.callId) : Accounts none (s.present shown) (⟨.presenting t, e⟩ :: o) :=
  h.mark ht hr hc hshown (h.recorded _ hrecorded) fun _ _ => rfl

theorem notify (h : Accounts x s o) (hc : c ∈ s.recorded) :
    Accounts x { s with notified := s.notified.insert c } o :=
  { h with
      notified := fun k hk => (LinkedSet.mem_insert.1 hk).elim (h.notified k) fun he => he ▸ hc }

theorem settle (h : Accounts x s o) (operation : ℕ) (outcome : Bool) : Accounts x (s.settle operation outcome) o :=
  { h with }

theorem unpend (h : Accounts none s (⟨.settled t, e⟩ :: o)) :
    Accounts none { s with pending := s.pending.remove t.callId } o := by
  have hrecorded : t.callId ∈ s.recorded := h.head_fits.1
  have hcons : (⟨.settled t, e⟩ :: o).filterMap Wait.tracked = t.callId :: o.filterMap Wait.tracked := rfl
  have hget : ∀ k, (s.pending.remove t.callId).get k = if k = t.callId then none else s.pending.get k :=
    fun k => Table.get_remove
  have htracked := h.tracked
  rw [hcons, List.nodup_cons] at htracked
  refine { h with
    reports := h.reports, tracked := htracked.2, pending := fun k => ?_, known := fun k hk => ?_,
    fits := fun v hv => h.fits v (List.mem_cons_of_mem _ hv), accepted := fun k hk => ?_,
    untouched := fun u hu hi hr hn hor => ?_, unanswered := fun k hx hk => ?_ }
  · have hk := h.pending k
    rw [hcons, List.mem_cons] at hk
    rw [hget]
    split
    · rename_i he
      subst he
      simp [htracked.1]
    · rename_i hne
      rw [← hk]
      simp [hne]
  · rw [hget] at hk
    refine h.known k (hk.imp_right fun hk => ?_)
    split at hk
    · cases hk
    · exact hk
  · obtain ⟨hseen, hnot, hp, hstate⟩ := h.accepted k hk
    refine ⟨hseen, hnot, ?_, hstate⟩
    rw [hget, hp, ite_self]
  · obtain ⟨hnot, hp⟩ := h.untouched u hu hi hr hn hor
    refine ⟨hnot, ?_⟩
    rw [hget, hp, ite_self]
  · refine (h.unanswered k hx hk).imp_right (·.imp_right fun hor => ?_)
    rcases hor with hrec | hcomes
    · exact .inl hrec
    · rcases List.mem_cons.1 (show k ∈ t.callId :: o.filterMap Wait.comes from hcomes) with rfl | hcomes
      · exact .inl hrecorded
      · exact .inr hcomes

/-! ### The calls -/

theorem fits_of (h : Accounts x s o) (hop : ∀ w ∈ o, w.op.Fits s → w.op.Fits s')
    (hended : ∀ t, Ended s t → Ended s' t) : ∀ w ∈ o, w.Fits s' :=
  fun w hw => ⟨hop w hw (h.fits w hw).1, fun t ht => hended t ((h.fits w hw).2 t ht)⟩

theorem not_reporting (h : Accounts x s o) (hc : c ∉ s.seen) : c ∉ o.filterMap Wait.reporting := by
  intro hmem
  obtain ⟨w, hw, hreport⟩ := List.mem_filterMap.1 hmem
  have hfits := (h.fits w hw).1
  rw [Wait.reporting] at hreport
  cases hop : w.op with
  | reportIncoming t =>
    rw [hop] at hreport hfits
    cases hreport
    exact hc (hfits.2.1.1 hfits.1).1
  | _ =>
    rw [hop] at hreport
    cases hreport

theorem incoming_of_seen (h : Accounts x s o) (ht : s.current = some t) (hseen : t.callId ∈ s.seen) :
    t.direction = .incoming := by
  cases hdirection : t.direction with
  | incoming => rfl
  | outgoing => exact absurd ((h.current t ht).2 hdirection) (h.disjoint _ hseen).1

theorem over_of_not_seen (h : Accounts x s o) (hc : c ∉ s.seen) : s.Over c :=
  fun t ht hi he _ => absurd (he ▸ ((h.current t ht).1 hi).1) hc

theorem beginEnding (h : Accounts none s o) (ht : s.current = some t) {final : CallState}
    (hfinal : t.direction = .incoming → t.state = .ringing → isMissed t final = true ∨ t.callId ∈ s.declined) :
    Accounts (if isMissed t final then some t.callId else none) (s.beginEnding t) o := by
  have hended : ∀ k, k ∈ (s.beginEnding t).ended ↔ k ∈ s.ended ∨ t.direction = .incoming ∧ k = t.callId := by
    intro k
    show k ∈ (if t.direction = .incoming then t.callId :: s.ended else s.ended) ↔ _
    split
    · rename_i hi
      rw [List.mem_cons, or_comm]
      simp only [hi, true_and]
    · rename_i hi
      simp only [hi, false_and, or_false]
  refine { h with
    ringing := fun u hu hi => ?_, fits := h.fits_of (fun w hw hfits => ?_) fun u hu => ?_,
    untouched := fun u hu hi hr hn => absurd hn (by simp [State.beginEnding]), unanswered := fun k hx hk => ?_ }
  · exact (h.ringing u hu hi).imp_right (·.imp_right fun hor => ⟨hor.1, (hended _).2 (.inl hor.2)⟩)
  · cases hop : w.op with
    | closeGroupMedia u final' =>
      rw [hop] at hfits
      exact fun hmissed => ⟨(hfits hmissed).1, (hfits hmissed).2.1, fun _ _ _ _ _ => rfl⟩
    | _ =>
      rw [hop] at hfits
      exact hfits
  · exact ⟨hu.1, fun hi => (hended _).2 (.inl (hu.2 hi))⟩
  · rcases hk with hk | hk
    · rcases (hended k).1 hk with hk | ⟨hi, rfl⟩
      · exact h.unanswered k (by simp) (.inl hk)
      · rcases h.ringing t ht hi with hr | haccepted | ⟨-, hended⟩
        · rcases hfinal hi hr with hmissed | hdeclined
          · rw [if_pos hmissed] at hx
            exact absurd rfl hx
          · exact .inr (.inl hdeclined)
        · exact .inl haccepted
        · exact h.unanswered _ (by simp) (.inl hended)
    · exact h.unanswered k (by simp) (.inr hk)

theorem endWith (h : Accounts none s o) (ht : Ended s t) {final : CallState} (hfinal : final.isTerminal = true) :
    Accounts none (s.endWith t final) o := by
  have hstate : final ≠ .ringing := fun he => by rw [he] at hfinal; cases hfinal
  refine { h with
    current := fun u hu => ?_, ringing := fun u hu hi => ?_,
    fits := h.fits_of (fun w hw hfits => ?_) fun u hu => hu, accepted := fun k hk => ?_,
    untouched := fun u hu _ hr => ?_ }
  · cases hu
    exact ht.1
  · cases hu
    exact .inr (.inr ⟨hfinal, ht.2 hi⟩)
  · cases hop : w.op with
    | closeGroupMedia u final' =>
      rw [hop] at hfits
      refine fun hmissed => ⟨(hfits hmissed).1, (hfits hmissed).2.1, fun v hv _ _ hr => ?_⟩
      cases hv
      exact absurd hr hstate
    | _ =>
      rw [hop] at hfits
      exact hfits
  · obtain ⟨hseen, hnot, hp, -⟩ := h.accepted k hk
    refine ⟨hseen, hnot, hp, fun u hu _ => ?_⟩
    cases hu
    exact hstate
  · cases hu
    exact absurd hr hstate

theorem ring (h : Accounts none s o) (hi : t.direction = .incoming) (hr : t.state = .ringing)
    (hnamed : (targetId t).isSome) (hseen : t.callId ∉ s.seen) (hdialed : t.callId ∉ s.dialed)
    (hrefused : t.callId ∉ s.refused) : Accounts none (s.ring t) (⟨.reportIncoming t, none⟩ :: o) := by
  have hknown : ∀ u, Known s u → Known (s.ring t) u := fun u hu =>
    ⟨fun hi => ⟨List.mem_cons_of_mem _ (hu.1 hi).1, (hu.1 hi).2⟩, hu.2⟩
  have hne : ∀ k ∈ s.seen, t.callId ≠ k := fun k hk he => hseen (he ▸ hk)
  have htimer : s.timers.get t.callId = none := by
    cases hget : s.timers.get t.callId with
    | none => rfl
    | some u =>
      obtain ⟨he, hu, hk, -⟩ := h.timers _ u hget
      exact absurd (he ▸ (hk.1 hu).1) hseen
  have hreports : (⟨.reportIncoming t, none⟩ :: o).filterMap Wait.reporting = t.callId :: o.filterMap Wait.reporting :=
    rfl
  refine { h with
    disjoint := fun k hk => ?_, current := fun u hu => ?_, ringing := fun u hu _ => ?_, timers := fun k u hk => ?_,
    reports := ?_, known := fun k hk => (h.known k hk).imp_left (List.mem_cons_of_mem _),
    fits := fun w hw => ?_, accepted := fun k hk => ?_, untouched := fun u hu _ _ _ _ => ?_,
    unanswered := fun k hx hk =>
      (h.unanswered k hx hk).imp_right (·.imp_right (·.imp_right mem_filterMap_cons)) }
  · rcases List.mem_cons.1 hk with rfl | hk
    · exact ⟨hdialed, hrefused⟩
    · exact h.disjoint k hk
  · cases hu
    exact ⟨fun _ => ⟨List.mem_cons_self, hnamed⟩, fun ho => by rw [hi] at ho; cases ho⟩
  · cases hu
    exact .inl hr
  · obtain ⟨he, hu, hk, hnot⟩ := h.timers k u hk
    exact ⟨he, hu, hknown u.session hk, hnot⟩
  · rw [hreports]
    exact List.nodup_cons.2 ⟨h.not_reporting hseen, h.reports⟩
  · rcases List.mem_cons.1 hw with rfl | hw
    · exact ⟨⟨hi, ⟨fun _ => ⟨List.mem_cons_self, hnamed⟩, fun ho => by rw [hi] at ho; cases ho⟩,
        fun hk => hseen (h.accepted _ hk).1, htimer⟩, fun u hu => by cases hu⟩
    · refine h.fits_of (fun w hw hfits => ?_) (fun u hu => ⟨hknown u hu.1, hu.2⟩) w hw
      cases hop : w.op with
      | reportIncoming u =>
        rw [hop] at hfits
        exact ⟨hfits.1, hknown u hfits.2.1, hfits.2.2⟩
      | accepting u last =>
        rw [hop] at hfits
        exact ⟨hfits.1, hknown u hfits.2⟩
      | closeGroupMedia u final =>
        rw [hop] at hfits
        refine fun hmissed => ⟨List.mem_cons_of_mem _ (hfits hmissed).1, (hfits hmissed).2.1, fun v hv _ he _ => ?_⟩
        cases hv
        exact absurd he (hne _ (hfits hmissed).1)
      | _ =>
        rw [hop] at hfits
        exact hfits
  · obtain ⟨hk', hnot, hp, -⟩ := h.accepted k hk
    refine ⟨List.mem_cons_of_mem _ hk', hnot, hp, fun u hu he => ?_⟩
    cases hu
    exact absurd he (hne k hk')
  · cases hu
    have hnone : ¬ (t.callId ∈ s.recorded ∨ (s.pending.get t.callId).isSome) := fun hor =>
      (h.known _ hor).elim hseen hrefused
    rw [not_or, Option.not_isSome_iff_eq_none] at hnone
    exact hnone

theorem start (h : Accounts none s (⟨.reportIncoming t, e⟩ :: o)) : Accounts none (s.start t) o := by
  obtain ⟨hi, hknown, haccepted, htimer⟩ := h.head_fits.1
  have hreports := h.reports
  rw [show (⟨.reportIncoming t, e⟩ :: o).filterMap Wait.reporting = t.callId :: o.filterMap Wait.reporting from rfl,
    List.nodup_cons] at hreports
  have hget : ∀ k, (s.start t).timers.get k = if k = t.callId then some ⟨t, s.now + timeout⟩ else s.timers.get k := by
    intro k
    rw [State.start, Table.get_assign]
    split
    · rfl
    · rw [Table.get_remove, if_neg ‹_›]
  refine { h with
    timers := fun k u hk => ?_, reports := hreports.2, tracked := h.tracked, pending := h.pending,
    fits := fun w hw => ⟨?_, (h.fits w (List.mem_cons_of_mem _ hw)).2⟩, untouched := fun u hu hui hr hn hor => ?_,
    unanswered := h.unanswered }
  · rw [hget] at hk
    split at hk
    · rename_i he
      cases hk
      exact ⟨he.symm, hi, hknown, he ▸ haccepted⟩
    · exact h.timers k u hk
  · have hfits := (h.fits w (List.mem_cons_of_mem _ hw)).1
    cases hop : w.op with
    | reportIncoming u =>
      rw [hop] at hfits
      have hne : u.callId ≠ t.callId := by
        intro he
        refine hreports.1 (List.mem_filterMap.2 ⟨w, hw, ?_⟩)
        rw [Wait.reporting, hop, ← he]
        rfl
      refine ⟨hfits.1, hfits.2.1, hfits.2.2.1, ?_⟩
      rw [hget, if_neg hne]
      exact hfits.2.2.2
    | _ =>
      rw [hop] at hfits
      exact hfits
  · refine h.untouched u hu hui hr hn ?_
    by_cases he : u.callId = t.callId
    · exact .inr (List.mem_filterMap.2 ⟨_, List.mem_cons_self, congrArg some he.symm⟩)
    · rw [hget, if_neg he] at hor
      exact hor.imp_right mem_filterMap_cons

theorem unreported (h : Accounts none s (⟨.reportIncoming t, e⟩ :: o)) : Accounts none s o :=
  { h with
      reports := h.reports.sublist ((List.sublist_cons_self _ o).filterMap _)
      tracked := h.tracked
      pending := h.pending
      fits := fun w hw => h.fits w (List.mem_cons_of_mem _ hw)
      untouched := fun u hu hi hr hn hor => h.untouched u hu hi hr hn (hor.imp_right mem_filterMap_cons)
      unanswered := h.unanswered }

theorem refuse (h : Accounts none s o) (hseen : c ∉ s.seen) : Accounts none { s with refused := c :: s.refused } o := by
  refine { h with
    disjoint := fun k hk => ⟨(h.disjoint k hk).1, fun hmem => ?_⟩,
    known := fun k hk => (h.known k hk).imp_right (List.mem_cons_of_mem _),
    fits := h.fits_of (fun w hw hfits => ?_) fun u hu => hu }
  · rcases List.mem_cons.1 hmem with rfl | hmem
    · exact hseen hk
    · exact (h.disjoint k hk).2 hmem
  · cases hop : w.op with
    | sendBusy u =>
      rw [hop] at hfits
      exact ⟨hfits.1, List.mem_cons_of_mem _ hfits.2⟩
    | saveLog u =>
      rw [hop] at hfits
      exact ⟨hfits.1, List.mem_cons_of_mem _ hfits.2⟩
    | _ =>
      rw [hop] at hfits
      exact hfits

theorem claim (h : Accounts none s o) (hnamed : (targetId t).isSome) (hrefused : t.callId ∈ s.refused) (key : Text) :
    Accounts none (s.claim t key) (⟨.saveLog t, none⟩ :: o) := by
  have hclaimed : Accounts (some t.callId) (s.claim t key) o := by
    refine { h with unanswered := fun k hx hk => h.unanswered k (fun he => by cases he) (hk.imp_right fun hmem => ?_) }
    exact (List.mem_cons.1 hmem).resolve_left fun he => hx (congrArg some he)
  exact hclaimed.cover (w := ⟨.saveLog t, none⟩) rfl rfl ⟨⟨hnamed, hrefused⟩, fun u hu => by cases hu⟩

theorem dial (h : Accounts none s o) (ho : t.direction = .outgoing) (hseen : t.callId ∉ s.seen) :
    Accounts none { s with terminating := false, current := some t, dialed := t.callId :: s.dialed } o := by
  have hknown : ∀ u, Known s u →
      Known { s with terminating := false, current := some t, dialed := t.callId :: s.dialed } u := fun u hu =>
     ⟨hu.1, fun ho => List.mem_cons_of_mem _ (hu.2 ho)⟩
  have hout : ∀ u : CallSession, some t = some u → u.direction ≠ .incoming := fun u hu => by
    cases hu
    rw [ho]
    exact fun he => (by cases he)
  refine { h with
    disjoint := fun k hk => ⟨fun hmem => ?_, (h.disjoint k hk).2⟩, current := fun u hu => ?_,
    ringing := fun u hu hi => absurd hi (hout u hu), timers := fun k u hk => ?_,
    fits := h.fits_of (fun w hw hfits => ?_) fun u hu => ⟨hknown u hu.1, hu.2⟩,
    accepted := fun k hk => ?_, untouched := fun u hu hi => absurd hi (hout u hu) }
  · rcases List.mem_cons.1 hmem with rfl | hmem
    · exact hseen hk
    · exact (h.disjoint k hk).1 hmem
  · cases hu
    exact ⟨fun hi => absurd hi (hout t rfl), fun _ => List.mem_cons_self⟩
  · obtain ⟨he, hi, hk, hnot⟩ := h.timers k u hk
    exact ⟨he, hi, hknown u.session hk, hnot⟩
  · cases hop : w.op with
    | reportIncoming u =>
      rw [hop] at hfits
      exact ⟨hfits.1, hknown u hfits.2.1, hfits.2.2⟩
    | accepting u last =>
      rw [hop] at hfits
      exact ⟨hfits.1, hknown u hfits.2⟩
    | closeGroupMedia u final =>
      rw [hop] at hfits
      exact fun hmissed => ⟨(hfits hmissed).1, (hfits hmissed).2.1, fun v hv hi => absurd hi (hout v hv)⟩
    | _ =>
      rw [hop] at hfits
      exact hfits
  · obtain ⟨hk', hnot, hp, -⟩ := h.accepted k hk
    refine ⟨hk', hnot, hp, fun u hu he => ?_⟩
    cases hu
    exact absurd (he ▸ hk') hseen

theorem accept (h : Accounts none s o) (hi : t.direction = .incoming) (hknown : Known s t)
    (hthere : s.stillThere t = true) (hn : s.terminating = false) (htimer : (s.timers.get t.callId).isSome) :
    Accounts none (s.accept t) o := by
  obtain ⟨u, hu, hsame⟩ := (Option.any_eq_true _ _).1 hthere
  simp only [Bool.and_eq_true, decide_eq_true_eq, Bool.not_eq_true'] at hsame
  obtain ⟨he, hlive⟩ := hsame
  have hseen := (hknown.1 hi).1
  have hui : u.direction = .incoming := h.incoming_of_seen hu (he ▸ hseen)
  have hnew : t.callId ∉ s.accepted := by
    obtain ⟨v, hv⟩ := Option.isSome_iff_exists.1 htimer
    exact (h.timers _ v hv).2.2.2
  have hring : u.state = .ringing := by
    rcases h.ringing u hu hui with hr | haccepted | ⟨hover, -⟩
    · exact hr
    · exact absurd (he ▸ haccepted) hnew
    · rw [hlive] at hover
      cases hover
  obtain ⟨hrecorded, hpending⟩ := h.untouched u hu hui hring hn (.inl (he ▸ htimer))
  rw [he] at hrecorded hpending
  have hget : ∀ k, (s.accept t).timers.get k = if k = t.callId then none else s.timers.get k :=
    fun k => Table.get_remove
  have hstate : ∀ v : CallSession, some { t with state := .connecting } = some v → v.state ≠ .ringing := fun v hv => by
    cases hv
    exact fun hr => (by cases hr)
  refine { h with
    current := fun v hv => ?_, ringing := fun v hv _ => ?_, timers := fun k v hk => ?_,
    fits := h.fits_of (fun w hw hfits => ?_) fun v hv => hv, accepted := fun k hk => ?_,
    untouched := fun v hv _ hr => absurd hr (hstate v hv),
    unanswered := fun k hx hk => (h.unanswered k hx hk).imp_left (List.mem_cons_of_mem _) }
  · cases hv
    exact hknown
  · cases hv
    exact .inr (.inl List.mem_cons_self)
  · rw [hget] at hk
    split at hk
    · cases hk
    · rename_i hne
      obtain ⟨hv, hvi, hvk, hnot⟩ := h.timers k v hk
      exact ⟨hv, hvi, hvk, fun hmem => (List.mem_cons.1 hmem).elim hne hnot⟩
  · cases hop : w.op with
    | reportIncoming v =>
      rw [hop] at hfits
      have hne : v.callId ≠ t.callId := fun hvt => by
        rw [← hvt, hfits.2.2.2] at htimer
        cases htimer
      refine ⟨hfits.1, hfits.2.1, fun hmem => (List.mem_cons.1 hmem).elim hne hfits.2.2.1, ?_⟩
      rw [hget, if_neg hne]
      exact hfits.2.2.2
    | closeGroupMedia v final =>
      rw [hop] at hfits
      refine fun hmissed => ⟨(hfits hmissed).1, fun hmem => ?_, fun v' hv' _ _ hr => absurd hr (hstate v' hv')⟩
      rcases List.mem_cons.1 hmem with hvt | hmem
      · have hover := (hfits hmissed).2.2 u hu hui (he.trans hvt.symm) hring
        rw [hn] at hover
        cases hover
      · exact (hfits hmissed).2.1 hmem
    | _ =>
      rw [hop] at hfits
      exact hfits
  · rcases List.mem_cons.1 hk with rfl | hk
    · exact ⟨hseen, hrecorded, hpending, fun v hv _ => hstate v hv⟩
    · obtain ⟨hk', hnot, hp, -⟩ := h.accepted k hk
      exact ⟨hk', hnot, hp, fun v hv _ => hstate v hv⟩

theorem decline (h : Accounts none s o) : Accounts none s.decline o := by
  unfold State.decline
  split
  · split
    · exact h
    · exact { h with
        unanswered := fun k hx hk => (h.unanswered k hx hk).imp_right (·.imp_left (List.mem_cons_of_mem _)) }
  · exact h

theorem connect (h : Accounts none s o) (ht : s.current = some t)
    (hnot : t.direction = .incoming → t.state ≠ .ringing) :
    Accounts none { s with
      ringTimer := none
      current := some (if t.state = .ringing then { t with state := .connecting } else t) } o := by
  by_cases hr : t.state = .ringing
  · have hout : ∀ u : CallSession, some { t with state := .connecting } = some u → u.direction ≠ .incoming ∧
        u.state ≠ .ringing := fun u hu => by
      cases hu
      exact ⟨fun hi => hnot hi hr, fun he => (by cases he)⟩
    rw [if_pos hr]
    refine { h with
      current := fun u hu => ?_, ringing := fun u hu hi => absurd hi (hout u hu).1,
      fits := h.fits_of (fun w hw hfits => ?_) fun u hu => hu, accepted := fun k hk => ?_,
      untouched := fun u hu hi => absurd hi (hout u hu).1 }
    · cases hu
      exact h.current t ht
    · cases hop : w.op with
      | closeGroupMedia u final =>
        rw [hop] at hfits
        exact fun hmissed => ⟨(hfits hmissed).1, (hfits hmissed).2.1, fun v hv hi => absurd hi (hout v hv).1⟩
      | _ =>
        rw [hop] at hfits
        exact hfits
    · obtain ⟨hk', hno, hp, -⟩ := h.accepted k hk
      exact ⟨hk', hno, hp, fun u hu _ => (hout u hu).2⟩
  · rw [if_neg hr, ← ht]
    exact { h with }

theorem clear (h : Accounts none s o) :
    Accounts none { s with current := none, terminating := false, terminalTimer := false } o :=
  { h with
      current := fun _ hu => (by cases hu)
      ringing := fun _ hu => (by cases hu)
      fits := h.fits_of (fun w hw hfits => by
        cases hop : w.op with
        | closeGroupMedia u final =>
          rw [hop] at hfits
          exact fun hmissed => ⟨(hfits hmissed).1, (hfits hmissed).2.1, fun _ hv => (by cases hv)⟩
        | _ =>
          rw [hop] at hfits
          exact hfits) fun u hu => hu
      accepted := fun k hk =>
        ⟨(h.accepted k hk).1, (h.accepted k hk).2.1, (h.accepted k hk).2.2.1, fun _ hu => (by cases hu)⟩
      untouched := fun _ hu => (by cases hu) }

end Accounts

/-! ## The programs keep the books -/

section Programs

variable {Q : Except Unit Unit → State → List Wait → Prop} {s : State} {o : List Wait} {t : CallSession}
  {e : Option CallSession}

theorem mem_comes {c : Text} (h : c ∈ o.filterMap Wait.tracked) : c ∈ o.filterMap Wait.comes := by
  obtain ⟨w, hw, hc⟩ := List.mem_filterMap.1 h
  refine List.mem_filterMap.2 ⟨w, hw, ?_⟩
  rw [Wait.tracked] at hc
  rw [Wait.comes]
  cases hop : w.op with
  | load | lookUp | record | presenting | settled =>
    rw [hop] at hc
    exact hc
  | _ =>
    rw [hop] at hc
    cases hc

theorem showMissedCall_holds {shown : MissedCallNotification}
    (h : Accounts none (s.present shown) (⟨.presenting t, e⟩ :: o))
    (hQ : ∀ r s o, Accounts none s (⟨.settled t, e⟩ :: o) → Q r s o) :
    (showMissedCall e t shown).HoldsBeside tasks rules Q s o := by
  have hsettled : ∀ s o, Accounts none s (⟨.presenting t, e⟩ :: o) → Accounts none s (⟨.settled t, e⟩ :: o) :=
    fun s o h => h.exchange rfl rfl rfl rfl rfl rfl h.head_fits.1
  refine Program.holds_modify_bind (Program.holds_wait_bind h (fun s' o' hi _ _ => hQ _ _ _ (hsettled _ _ hi)) ?_)
  exact fun _ s' o' hi _ _ => hQ _ _ _ ((hsettled _ _ hi).notify hi.head_fits.1)

theorem recordAndNotify_holds (hnamed : (targetId t).isSome) (h : Accounts none s (⟨.load t, e⟩ :: o))
    (hQ : ∀ r s o, Accounts none s (⟨.settled t, e⟩ :: o) → Q r s o) :
    (recordAndNotify e t).HoldsBeside tasks rules Q s o := by
  obtain ⟨target, htarget⟩ := Option.isSome_iff_exists.1 hnamed
  unfold recordAndNotify
  rw [htarget]
  refine Program.holds_wait_bind h (fun _ _ _ _ hadm => absurd hadm Bool.false_ne_true) fun strings s₁ o₁ h₁ _ _ => ?_
  refine Program.holds_get_bind ?_
  generalize conversationOf t target s₁.conversations = conversation
  refine Program.holds_wait_bind (h₁.exchange rfl rfl rfl rfl rfl rfl trivial)
    (fun _ _ _ _ hadm => absurd hadm Bool.false_ne_true) fun _ s₂ o₂ h₂ _ hadm => Program.holds_get_bind ?_
  have hfound : conversation.isSome ∨ t.callId ∈ s₂.recorded := by
    simpa [rules, sound] using hadm
  cases conversation with
  | none =>
    have hrecorded : t.callId ∈ s₂.recorded := hfound.resolve_left Bool.false_ne_true
    exact showMissedCall_holds (h₂.present rfl rfl rfl hrecorded rfl) hQ
  | some c =>
    refine HoldsBeside.bind (HoldsBeside.whenever (fun hnot => ?_) fun hmem => ?_)
    · refine ⟨h₂.exchange rfl rfl rfl rfl rfl rfl hnot, fun s₃ o₃ h₃ =>
        ⟨fun _ hadm => absurd hadm Bool.false_ne_true, fun _ _ hadm => ?_⟩⟩
      have hrow : (s₃.conversations.get c.id).isSome := by simpa [rules, sound] using hadm
      exact showMissedCall_holds (h₃.record hrow _ _ rfl) hQ
    · exact showMissedCall_holds (h₂.present rfl rfl rfl (not_not.1 hmem) rfl) hQ

/-- **The tracker is triggered**: in the end the call is recorded, by this operation or by one that is under way. -/
theorem triggerNow_holds {x : Option Text} (hnamed : (targetId t).isSome) (h : Accounts x s o)
    (hx : ∀ k ∈ x, k = t.callId) (haccepted : t.callId ∉ s.accepted)
    (hover : s.Over t.callId ∨ t.callId ∉ o.filterMap Wait.reporting)
    (hknown : t.callId ∈ s.seen ∨ t.callId ∈ s.refused) (he : ∀ u ∈ e, Ended s u)
    (hQ : ∀ r s o, Accounts none s o → (∀ u ∈ e, Ended s u) → Q r s o) :
    (triggerNow e t).HoldsBeside tasks rules Q s o := by
  have hcancel := h.cancel t.callId
  have hdone : t.callId ∈ s.recorded ∨ t.callId ∈ o.filterMap Wait.tracked → Accounts none (s.cancel t.callId) o := by
    intro hor
    refine { hcancel with unanswered := fun k _ hk => ?_ }
    by_cases hkt : k = t.callId
    · rw [hkt]
      exact .inr (.inr (hor.imp_right mem_comes))
    · exact hcancel.unanswered k (fun hkx => hkt (hx k hkx.symm)) hk
  refine Program.holds_modify_bind (Program.holds_get_bind ?_)
  split
  · exact hQ _ _ _ (hdone (.inl (h.notified _ ‹_›))) he
  · split
    · rename_i operation hoperation
      have htracked : t.callId ∈ o.filterMap Wait.tracked := (h.pending _).2 (hoperation ▸ rfl)
      have hback : ∀ s o, Accounts none s (⟨.joined t.callId operation, e⟩ :: o) → ∀ r, Q r s o := fun s o hi r =>
        hQ r s o (hi.tail rfl rfl) hi.head_fits.2
      exact Program.holds_wait_bind ((hdone (.inr htracked)).cons rfl rfl ⟨trivial, he⟩)
        (fun _ _ hi _ _ => hback _ _ hi _) fun _ _ _ hi _ _ => hback _ _ hi _
    · rename_i hpending
      have hbegun : Accounts none ((s.cancel t.callId).begin t.callId) (⟨.load t, e⟩ :: o) :=
        hcancel.begin hx hpending haccepted (hover.imp_right fun hreport => ⟨Table.get_remove_self, hreport⟩) hknown he
      refine Program.holds_modify_bind (HoldsBeside.bind (HoldsBeside.attempt ?_))
      refine recordAndNotify_holds hnamed hbegun fun result s₁ o₁ h₁ => Program.holds_modify_bind ?_
      refine Program.holds_wait_bind (h₁.settle _ _) (fun _ _ _ hready _ => absurd hready Bool.false_ne_true) ?_
      refine fun _ s₂ o₂ h₂ _ _ => Program.holds_modify_bind ?_
      cases result with
      | ok a => exact hQ _ _ _ h₂.unpend h₂.head_fits.2
      | error _ => exact hQ _ _ _ h₂.unpend h₂.head_fits.2

theorem endSession_holds {final : CallState} (hfinal : final.isTerminal = true) (h : Accounts none s o)
    (he : Ended s t) (hQ : ∀ r s o, Accounts none s o → Q r s o) :
    (endSession t final).HoldsBeside tasks rules Q s o := by
  refine Program.holds_wait_bind (h.cons rfl rfl ⟨trivial, fun u hu => by cases hu; exact he⟩)
    (fun _ _ hi _ _ => hQ _ _ _ (hi.tail rfl rfl)) fun _ s₁ o₁ hi _ _ => ?_
  exact hQ _ _ _ ((hi.tail rfl rfl).endWith (hi.head_fits.2 t rfl) hfinal)

theorem endMissed_holds {final : CallState} (hterminal : final.isTerminal = true)
    (h : Accounts (if isMissed t final then some t.callId else none) s o) (he : Ended s t)
    (hmissed : isMissed t final = true → t.callId ∈ s.seen ∧ t.callId ∉ s.accepted ∧ s.Over t.callId)
    (hQ : ∀ r s o, Accounts none s o → Q r s o) :
    (recordMissed t final >>= fun _ => endSession t final).HoldsBeside tasks rules Q s o := by
  refine HoldsBeside.bind ?_
  unfold recordMissed
  split
  · rename_i hmiss
    obtain ⟨hseen, haccepted, hover⟩ := hmissed hmiss
    have hi : t.direction = .incoming := by
      simp only [isMissed, Bool.and_eq_true, decide_eq_true_eq] at hmiss
      exact hmiss.1.1.1
    rw [if_pos hmiss] at h
    refine triggerNow_holds (e := some t) ((he.1.1 hi).2) h (fun k hk => by cases hk; rfl) haccepted (.inl hover)
      (.inl hseen) (fun u hu => by cases hu; exact he) fun r s o h he => ?_
    cases r with
    | ok a => exact endSession_holds hterminal h (he t rfl) hQ
    | error _ => exact hQ _ _ _ h
  · rename_i hmiss
    rw [if_neg hmiss] at h
    exact endSession_holds hterminal (h.cancel t.callId) he hQ

theorem finish_holds {final : CallState} (hterminal : final.isTerminal = true) (h : Accounts none s o)
    (hfinal : ∀ t, s.current = some t → s.terminating = false → t.direction = .incoming → t.state = .ringing →
      isMissed t final = true ∨ t.callId ∈ s.declined)
    (hQ : ∀ r s o, Accounts none s o → Q r s o) : (finish final).HoldsBeside tasks rules Q s o := by
  refine Program.holds_get_bind ?_
  split
  · exact hQ _ _ _ h
  · rename_i t ht
    split
    · exact hQ _ _ _ h
    · rename_i hn
      have hbegun := h.beginEnding ht (hfinal t ht (Bool.eq_false_of_not_eq_true hn))
      have hended : Ended (s.beginEnding t) t := by
        refine ⟨h.current t ht, fun hi => ?_⟩
        show t.callId ∈ (if t.direction = .incoming then t.callId :: s.ended else s.ended)
        rw [if_pos hi]
        exact List.mem_cons_self
      have hmissed : isMissed t final = true → t.callId ∈ (s.beginEnding t).seen ∧
          t.callId ∉ (s.beginEnding t).accepted ∧ (s.beginEnding t).Over t.callId := by
        intro hm
        simp only [isMissed, Bool.and_eq_true, decide_eq_true_eq] at hm
        exact ⟨((h.current t ht).1 hm.1.1.1).1, fun hk => (h.accepted _ hk).2.2.2 t ht rfl hm.1.1.2,
          fun _ _ _ _ _ => rfl⟩
      refine Program.holds_modify_bind (HoldsBeside.bind (HoldsBeside.whenever (fun _ => ?_) fun _ => ?_))
      · refine Program.holds_wait_bind
          (hbegun.cover (w := ⟨.closeGroupMedia t final, some t⟩) rfl rfl
            ⟨hmissed, fun u hu => by cases hu; exact hended⟩)
          (fun _ _ _ _ hadm => absurd hadm Bool.false_ne_true) fun _ s₁ o₁ h₁ _ _ => ?_
        exact endMissed_holds hterminal (h₁.tail rfl rfl) (h₁.head_fits.2 t rfl) h₁.head_fits.1 hQ
      · exact endMissed_holds hterminal hbegun hended hmissed hQ

theorem ring_holds (hi : t.direction = .incoming) (hr : t.state = .ringing) (hnamed : (targetId t).isSome)
    (hseen : t.callId ∉ s.seen) (hdialed : t.callId ∉ s.dialed) (hrefused : t.callId ∉ s.refused)
    (h : Accounts none s o) (hQ : ∀ r s o, Accounts none s o → Q r s o) :
    (ring t).HoldsBeside tasks rules Q s o := by
  refine Program.holds_modify_bind (Program.holds_wait_bind (h.ring hi hr hnamed hseen hdialed hrefused) ?_ ?_)
  · exact fun s₁ o₁ h₁ _ _ => hQ _ _ _ h₁.unreported
  · intro _ s₁ o₁ h₁ _ _
    refine Program.holds_modify_bind (HoldsBeside.bind (HoldsBeside.whenever (fun _ => ?_) fun _ => ?_))
    · refine Program.holds_wait_bind (h₁.start.cons rfl rfl ⟨trivial, fun _ hu => by cases hu⟩)
        (fun _ _ hi _ _ => hQ _ _ _ (hi.tail rfl rfl)) fun _ s₂ o₂ h₂ _ _ => ?_
      exact hQ _ _ _ { h₂.tail rfl rfl with }
    · exact hQ _ _ _ { h₁.start with }

theorem recordBusyCall_holds (hnamed : (targetId t).isSome) (hrefused : t.callId ∈ s.refused) (key : Text)
    (h : Accounts none s o) (hQ : ∀ r s o, Accounts none s o → Q r s o) :
    (recordBusyCall t key).HoldsBeside tasks rules Q s o := by
  refine Program.holds_modify_bind (Program.holds_get_bind ?_)
  have hforgot : Accounts none s.forgetOld o := { h with }
  split
  · exact hQ _ _ _ hforgot
  · refine Program.holds_modify_bind (HoldsBeside.catching (Program.holds_wait_bind (hforgot.claim hnamed hrefused key)
      (fun _ _ _ _ hadm => absurd hadm Bool.false_ne_true) fun _ s₁ o₁ h₁ _ _ => ?_))
    obtain ⟨-, hrefused⟩ := h₁.head_fits.1
    have htail := h₁.tail rfl rfl
    have hnew : t.callId ∉ s₁.seen := fun hk => (h₁.disjoint _ hk).2 hrefused
    refine triggerNow_holds (t := { t with state := .busy }) (e := none) hnamed htail (fun k hk => by cases hk; rfl)
      (fun hk => hnew (h₁.accepted _ hk).1) (.inl (h₁.over_of_not_seen hnew)) (.inr hrefused)
      (fun u hu => by cases hu) fun r s o h _ => ?_
    cases r with
    | ok a => exact hQ _ _ _ h
    | error _ => exact hQ _ _ _ { h with }

theorem handleIncoming_holds {key : Text} (hstarts : (Event.incoming t key).starts s = true) (h : Accounts none s o)
    (hQ : ∀ r s o, Accounts none s o → Q r s o) : (handleIncoming t key).HoldsBeside tasks rules Q s o := by
  simp only [Event.starts, Bool.and_eq_true, unused_iff, Bool.or_eq_true] at hstarts
  obtain ⟨⟨hnamed, hseen⟩, hfree⟩ := hstarts
  refine Program.holds_get_bind ?_
  split
  · have hbusy : ∀ s o, Accounts none s (⟨.sendBusy t, none⟩ :: o) →
        (recordBusyCall t key).HoldsBeside tasks rules Q s o := fun s o h =>
      recordBusyCall_holds h.head_fits.1.1 h.head_fits.1.2 key (h.tail rfl rfl) hQ
    refine Program.holds_modify_bind (HoldsBeside.bind (HoldsBeside.attempt ?_))
    exact ⟨(h.refuse hseen).cons rfl rfl ⟨⟨hnamed, List.mem_cons_self⟩, fun _ hu => by cases hu⟩,
      fun s₁ o₁ h₁ => ⟨fun _ _ => hbusy _ _ h₁, fun _ _ _ => hbusy _ _ h₁⟩⟩
  · rename_i hlive
    obtain ⟨hdialed, hrefused⟩ := hfree.resolve_left hlive
    exact ring_holds rfl rfl hnamed hseen hdialed hrefused h hQ

theorem finish_failed_holds (h : Accounts none s o) (hQ : ∀ r s o, Accounts none s o → Q r s o) :
    (finish .failed).HoldsBeside tasks rules Q s o :=
  finish_holds rfl h (fun _ _ _ hi hr => .inl (by simp [isMissed, hi, hr])) hQ

theorem acceptAnswered_holds (h : Accounts none s (⟨.accepting t true, none⟩ :: o))
    (hsound : sound ⟨.accepting t true, none⟩ (some {}) s = true) (hQ : ∀ r s o, Accounts none s o → Q r s o) :
    (acceptAnswered t).HoldsBeside tasks rules Q s o := by
  obtain ⟨hi, hknown⟩ := h.head_fits.1
  have htail : Accounts none s o := h.tail rfl rfl
  refine Program.holds_get_bind ?_
  split
  · exact hQ _ _ _ htail
  · rename_i hgo
    rw [not_or, not_not] at hgo
    have hthere : s.stillThere t = true := hgo.1
    simp only [sound, hthere, Option.isNone_some, Bool.false_or, Bool.not_true, Bool.and_eq_true,
      Bool.not_eq_true'] at hsound
    have haccepted := htail.accept hi hknown hthere hsound.1 hsound.2
    refine Program.holds_modify_bind (HoldsBeside.catching (Program.holds_wait_bind
      (haccepted.cons rfl rfl ⟨trivial, fun _ hu => by cases hu⟩) (fun _ _ h₁ _ _ => ?_) fun _ _ _ h₁ _ _ => ?_))
    · exact finish_failed_holds (h₁.tail rfl rfl) hQ
    · exact hQ _ _ _ { h₁.tail rfl rfl with }

theorem acceptCallNow_holds (fromNative : Bool) (h : Accounts none s o) (hQ : ∀ r s o, Accounts none s o → Q r s o) :
    (acceptCallNow fromNative).HoldsBeside tasks rules Q s o := by
  refine Program.holds_get_bind ?_
  split
  · exact hQ _ _ _ h
  · rename_i t ht
    split
    · exact hQ _ _ _ h
    · rename_i hringing
      rw [not_or, not_not, not_not] at hringing
      have hfits : ∀ last, (⟨.accepting t last, none⟩ : Wait).Fits s := fun _ =>
        ⟨⟨hringing.1, h.current t ht⟩, fun _ hu => by cases hu⟩
      refine HoldsBeside.bind (HoldsBeside.attempt (Program.holds_wait_bind (h.cons rfl rfl (hfits fromNative))
        (fun _ _ h₁ _ _ => hQ _ _ _ (h₁.tail rfl rfl)) fun a s₁ o₁ h₁ _ hadm => ?_))
      cases fromNative with
      | true => exact acceptAnswered_holds h₁ hadm hQ
      | false =>
        refine Program.holds_wait_bind ((h₁.tail rfl rfl).cons rfl rfl ⟨h₁.head_fits.1, fun _ hu => by cases hu⟩)
          (fun _ _ h₂ _ _ => hQ _ _ _ (h₂.tail rfl rfl)) fun _ _ _ h₂ _ hadm => ?_
        exact acceptAnswered_holds h₂ hadm hQ

theorem acceptCall_holds (fromNative : Bool) (h : Accounts none s o) (hQ : ∀ r s o, Accounts none s o → Q r s o) :
    (acceptCall fromNative).HoldsBeside tasks rules Q s o := by
  refine Program.holds_get_bind (HoldsBeside.whenever (fun _ => ?_) fun _ => hQ _ _ _ h)
  refine Program.holds_modify_bind (HoldsBeside.bind (HoldsBeside.attempt ?_))
  exact acceptCallNow_holds fromNative { h with } fun _ _ _ h₁ => hQ _ _ _ { h₁ with }

theorem handleControl_holds {action : ControlAction} (hstarts : (Event.control action).starts s = true)
    (h : Accounts none s o) (hQ : ∀ r s o, Accounts none s o → Q r s o) :
    (handleControl action).HoldsBeside tasks rules Q s o := by
  have hrings : ∀ t, s.current = some t → t.direction = .incoming → t.state = .ringing →
      action ∉ [ControlAction.accept, .reject, .busy] := by
    intro t ht hi hr
    have hrings : s.rings = true := by simp [State.rings, ht, hi, hr]
    simpa only [Event.starts, hrings, Bool.not_true, Bool.false_or, decide_eq_true_eq] using hstarts
  have hended : (finish .ended).HoldsBeside tasks rules Q s o :=
    finish_holds rfl h (fun _ _ _ hi hr => .inl (by simp [isMissed, hi, hr])) hQ
  refine Program.holds_get_bind ?_
  split
  · exact hQ _ _ _ h
  · rename_i t ht
    split
    · exact HoldsBeside.whenever (fun _ => hended) fun _ => hQ _ _ _ h
    · cases action with
      | accept => exact hQ _ _ _ (h.connect ht fun hi hr => hrings t ht hi hr (by simp))
      | reject => exact finish_holds rfl h (fun u hu _ hi hr => absurd (hrings u hu hi hr) (by simp)) hQ
      | busy => exact finish_holds rfl h (fun u hu _ hi hr => absurd (hrings u hu hi hr) (by simp)) hQ
      | hangup => exact hended
      | _ => exact hQ _ _ _ h

theorem mem_declined (ht : s.current = some t) (hn : s.terminating = false) : t.callId ∈ s.decline.declined := by
  unfold State.decline
  rw [ht]
  dsimp only
  rw [if_neg (by rw [hn]; exact Bool.false_ne_true)]
  exact List.mem_cons_self

theorem same_decline (s : State) : s.decline.current = s.current ∧ s.decline.terminating = s.terminating := by
  unfold State.decline
  split
  · split <;> exact ⟨rfl, rfl⟩
  · exact ⟨rfl, rfl⟩

theorem rejectCall_holds (h : Accounts none s o) (hQ : ∀ r s o, Accounts none s o → Q r s o) :
    rejectCall.HoldsBeside tasks rules Q s o := by
  refine Program.holds_modify_bind (finish_holds rfl h.decline (fun t ht hn _ _ => .inr (mem_declined ?_ ?_)) hQ)
  · exact (same_decline s).1.symm.trans ht
  · exact (same_decline s).2.symm.trans hn

theorem onRingTimeout_holds (h : Accounts none s o) (hQ : ∀ r s o, Accounts none s o → Q r s o) :
    onRingTimeout.HoldsBeside tasks rules Q s o := by
  have h' : Accounts none { s with ringTimer := none } o := { h with }
  refine Program.holds_get_bind (HoldsBeside.whenever (fun _ => Program.holds_modify_bind ?_) fun _ => hQ _ _ _ h)
  split
  · exact hQ _ _ _ h'
  · split
    · exact hQ _ _ _ h'
    · split
      · exact finish_holds rfl h' (fun _ _ _ hi hr => .inl (by simp [isMissed, hi, hr])) hQ
      · exact finish_failed_holds h' hQ

theorem trackerTimeout_holds (callId : Text) (h : Accounts none s o) (hQ : ∀ r s o, Accounts none s o → Q r s o) :
    (trackerTimeout callId).HoldsBeside tasks rules Q s o := by
  refine Program.holds_get_bind ?_
  split
  · exact hQ _ _ _ h
  · rename_i t ht
    obtain ⟨rfl, hi, hknown, haccepted⟩ := h.timers _ t ht
    have hreport : t.session.callId ∉ o.filterMap Wait.reporting := by
      intro hmem
      obtain ⟨w, hw, hreport⟩ := List.mem_filterMap.1 hmem
      have hfits := (h.fits w hw).1
      rw [Wait.reporting] at hreport
      cases hop : w.op with
      | reportIncoming u =>
        rw [hop] at hreport hfits
        have he : u.callId = t.session.callId := Option.some.inj hreport
        rw [← he, hfits.2.2.2] at ht
        cases ht
      | _ =>
        rw [hop] at hreport
        cases hreport
    refine HoldsBeside.whenever (fun _ => ?_) fun _ => hQ _ _ _ h
    exact triggerNow_holds (e := none) (hknown.1 hi).2 h (fun k hk => by cases hk) haccepted (.inr hreport)
      (.inl (hknown.1 hi).1) (fun u hu => by cases hu) fun r s o h _ => hQ r s o h

theorem program_holds (x : Event) (h : Accounts none s o) (hstarts : x.starts s = true)
    (hQ : ∀ r s o, Accounts none s o → Q r s o) : (program x).HoldsBeside tasks rules Q s o := by
  cases x with
  | incoming t key => exact handleIncoming_holds hstarts h hQ
  | dial t =>
    refine Program.holds_get_bind (HoldsBeside.whenever (fun _ => ?_) fun _ => hQ _ _ _ h)
    exact hQ _ _ _ (h.dial (t := { t with direction := .outgoing, state := .initiating }) rfl
      (unused_iff.1 hstarts))
  | acceptCall fromNative => exact acceptCall_holds fromNative h hQ
  | rejectCall => exact rejectCall_holds h hQ
  | endCall => exact finish_holds rfl h (fun _ _ _ hi hr => .inl (by simp [isMissed, hi, hr])) hQ
  | control action => exact handleControl_holds hstarts h hQ
  | mediaFailed =>
    exact Program.holds_get_bind (HoldsBeside.whenever (fun _ => finish_failed_holds h hQ) fun _ => hQ _ _ _ h)
  | ringTimeout => exact onRingTimeout_holds h hQ
  | trackerTimeout callId => exact trackerTimeout_holds callId h hQ
  | terminalTimeout =>
    exact Program.holds_get_bind (HoldsBeside.whenever (fun _ => hQ _ _ _ h.clear) fun _ => hQ _ _ _ h)
  | write conversations => exact hQ _ _ _ { h with }
  | clock now => exact hQ _ _ _ { h with }

end Programs

/-! ## Runs -/

instance (x : Event) (s : State) (o : List Wait) : Decidable (rules.Starts x s o) :=
  inferInstanceAs (Decidable (x.starts s = true))

instance (w : Wait) (answer : Option Answer) (s : State) (o : List Wait) : Decidable (rules.Admitted w answer s o) :=
  inferInstanceAs (Decidable (sound w answer s = true))

def Quiet (c : Text) (o : List Wait) : Prop := c ∉ o.filterMap Wait.comes

/-- An accepted call is neither recorded nor notified, no call is recorded twice, and one that has ended unanswered is
recorded once and raises the unread count by one. -/
structure Accounted (s : State) (o : List Wait) : Prop where
  accepted : ∀ c ∈ s.accepted, s.recordsOf c = [] ∧ ∀ n ∈ s.presented, n.callId ≠ c
  once : ∀ c, s.recordsOf c = [] ∨ ∃ id, s.recordsOf c = [⟨c, id, 1⟩]
  unanswered : ∀ c, c ∈ s.ended ∨ c ∈ s.busied → c ∉ s.accepted → c ∉ s.declined → Quiet c o →
    ∃ id, s.recordsOf c = [⟨c, id, 1⟩]

theorem Accounts.accounted {s : State} {o : List Wait} (h : Accounts none s o) : Accounted s o where
  accepted c hc := by
    have hnot := (h.accepted c hc).2.1
    exact ⟨h.unrecorded c hnot, fun n hn he => hnot (he ▸ h.presented n hn)⟩
  once c := by
    by_cases hc : c ∈ s.recorded
    · exact .inr (h.recorded c hc)
    · exact .inl (h.unrecorded c hc)
  unanswered c hc haccepted hdeclined hquiet := by
    rcases h.unanswered c (by simp) hc with hk | hk | hk | hk
    · exact absurd hk haccepted
    · exact absurd hk hdeclined
    · exact h.recorded c hk
    · exact absurd hk hquiet

/-- **Missed calls are accounted for**, in every run whose steps meet the conditions. -/
theorem recorded_once_run {steps : List Step} {q : Pool}
    (hm : Runs.Meets tasks.step (SecureChat.Pool.Moves (Tasks.Orderly rules)) initial steps)
    (hr : Runs.run tasks.step initial steps = some q) : Accounted q.shared (Task.labels q.threads) := by
  have h : Accounts none q.shared (Task.labels q.threads) :=
    Tasks.holds_run (R := rules) (fun _ _ _ hp h => h.perm hp)
      (fun x _ _ h hstarts => program_holds x h hstarts fun _ _ _ h => h) Accounts.initial hm hr
  exact h.accounted

def veli : ConversationEntity :=
  { id := ['k'], peerId := ['v'], peerName := ['V'], peerPhone := [] }

def call (callId : Text) : CallSession :=
  { callId := callId, peerId := ['v'], peerName := ['V'], callType := .voice, direction := .incoming,
    state := .ringing }

def ringing (callId : Text) (i : ℕ) : List Step :=
  [.start (.incoming (call callId) []), .step i none, .step i (some {}), .step i (some {})]

def stored : List Step := [.start (.write (Keyed.empty.insert veli)), .step 0 none]

def timedOut (shown : Option Answer) : List Step :=
  [.start (.clock 31000), .step 2 none, .start (.trackerTimeout ['a']), .step 3 none, .step 3 (some {}),
    .step 3 (some {}), .step 3 (some {}), .step 3 shown, .step 3 (some {})]

def hangUp (i : ℕ) : List Step :=
  .start (.control .hangup) :: .step i none :: List.replicate 5 (.step i (some {}))

def cleared (i : ℕ) : List Step := [.start .terminalTimeout, .step i none]

def clock (now : ℤ) (i : ℕ) : List Step := [.start (.clock now), .step i none]

def answered (i : ℕ) : List Step := [.start (.acceptCall true), .step i none, .step i (some {})]

/-- The notification fails and is repeated when the caller hangs up; the next call is accepted. -/
def missedThenAccepted : List Step :=
  List.flatten [stored, ringing ['a'] 1, timedOut none, hangUp 4, cleared 5, ringing ['b'] 6, answered 7]

theorem recorded_once_missedThenAccepted : ∃ q, Runs.run tasks.step initial missedThenAccepted = some q ∧
    q.shared.records = [⟨['a'], ['k'], 1⟩] ∧ q.shared.accepted = [['b']] ∧
    Accounted q.shared (Task.labels q.threads) := by
  obtain ⟨q, hq, hrecords, haccepted⟩ : ∃ q, Runs.run tasks.step initial missedThenAccepted = some q ∧
      q.shared.records = [⟨['a'], ['k'], 1⟩] ∧ q.shared.accepted = [['b']] :=
    Runs.exists_run _ _ _ (by decide +kernel)
  exact ⟨q, hq, hrecords, haccepted, recorded_once_run (by decide +kernel) hq⟩

def lateAcceptance : List Step :=
  List.flatten [stored, ringing ['a'] 1, timedOut (some {}), clock 40000 4, answered 5]

/-- **An accepted call is recorded as missed.** -/
theorem lateAcceptance_recorded : ∃ q, Runs.run tasks.step initial lateAcceptance = some q ∧
    ['a'] ∈ q.shared.accepted ∧ q.shared.records = [⟨['a'], ['k'], 1⟩] ∧
    ¬ Accounted q.shared (Task.labels q.threads) := by
  obtain ⟨q, hq, haccepted, hrecords⟩ : ∃ q, Runs.run tasks.step initial lateAcceptance = some q ∧
      ['a'] ∈ q.shared.accepted ∧ q.shared.records = [⟨['a'], ['k'], 1⟩] :=
    Runs.exists_run _ _ _ (by decide +kernel)
  refine ⟨q, hq, haccepted, hrecords, fun h => ?_⟩
  have hnone := (h.accepted _ haccepted).1
  rw [State.recordsOf, hrecords] at hnone
  exact absurd hnone (by decide)

end MissedCalls
end SecureChat
