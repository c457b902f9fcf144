import SecureChat.CallRecord
import SecureChat.CallRules
/-!
# CallEnding — a live call is dropped only by its own ending

`_finish` sets `_terminating` and starts the terminal timer, and both outlive the call.  The timer clears whichever call
is current when it fires, and no direct call cancels it; and a live session that is made current while `_terminating`
stands cannot be ended.  `ending_run` is what is left.
-/
namespace SecureChat
namespace Calls

open Async
open GroupControl (Text)
open Program (HoldsBeside)

def Dropless (l : List Publication) : Prop :=
  l.IsChain fun later earlier => ∀ s ∈ earlier.session, s.isTerminal = false → ∃ t ∈ later.session, t.callId = s.callId

instance : DecidablePred Dropless := fun l => inferInstanceAs (Decidable (List.IsChain _ l))

theorem Dropless.cons {l : List Publication} {p : Publication} (h : Dropless l)
    (hp : ∀ s ∈ shownLast l, s.isTerminal = false → ∃ t ∈ p.session, t.callId = s.callId) : Dropless (p :: l) := by
  cases l with
  | nil => exact List.IsChain.singleton _
  | cons q earlier => exact List.isChain_cons_cons.2 ⟨hp, h⟩

def endings (o : List Wait) : List Text := o.filterMap fun w => w.ending.map CallSession.callId

def Manager.sameKind (m : Manager) (callId : Text) (isGroup : Bool) : Bool :=
  m.published.all fun s => s.callId ≠ callId || s.isGroupCall = isGroup

/-- A session that is made current belongs to the live call; where there is none, it is ended, or no call is
terminating. -/
def Manager.takes (m : Manager) (callId : Text) (isGroup ended : Bool) : Bool :=
  m.sameKind callId isGroup &&
    if m.hasLiveCall then m.current.any fun s => s.callId = callId else ended || !m.terminating

def Wait.writesHere (w : Wait) (a : Answer) (m : Manager) : Bool :=
  match w.writes a with
  | none => true
  | some (s, c) =>
    (w.guarded && !m.current.any fun x => x.callId = s.callId && !x.isTerminal) ||
      m.takes s.callId s.isGroupCall (c.apply s).isTerminal

def Wait.beginsHere (w : Wait) (m : Manager) : Bool :=
  w.beginning.all fun b => if b.2 then m.takes b.1 true false else m.hasLiveCall || m.sameKind b.1 false

/-- The terminal timer fires with no live call current; the answer to a direct call does not come while that call is
terminating. -/
def Event.sparesOthers (D : Device) (x : Event) (m : Manager) : Bool :=
  match x with
  | .initiateCall _ _ _ => m.hasLiveCall || m.sameKind (D.newId m.drawn) false
  | .initiateGroupCall _ _ _ _ => m.hasLiveCall || m.sameKind (D.newId m.drawn) true
  | .signal (.answer reply) => !(m.terminating && m.current.any fun s =>
      !s.isGroupCall && s.peerId = reply.senderId && s.direction = .outgoing && s.isTerminal)
  | .terminalTimeout => !(m.terminalTimer && m.hasLiveCall)
  | _ => true

structure Undropped (m : Manager) (o : List Wait) : Prop where
  recorded : Recorded m o
  dropless : Dropless m.sessions
  ignored : ∀ s ∈ m.current, s.isTerminal = false → m.terminating = true → s.callId ∈ endings o
  asked : ∀ callId ∈ m.asked, callId ∈ endings o ∨ ∃ t ∈ m.published, t.callId = callId ∧ t.isTerminal = true

/-- **The conditions**: the timer, the copies that are written back and the calls that begin spare the live call, and no
step of an ending fails. -/
def endingOwn (D : Device) : Rules where
  Inv := Undropped
  Starts x m _ := x.sparesOthers D m = true
  Admitted w answer m _ :=
    match answer with
    | none => w.ending = none
    | some a => w.writesHere a m = true ∧ w.beginsHere m = true

instance (D : Device) (x : Event) (m : Manager) (o : List Wait) : Decidable ((endingOwn D).Starts x m o) :=
  inferInstanceAs (Decidable (_ = true))

instance (D : Device) (w : Wait) (m : Manager) (o : List Wait) :
    ∀ a : Option Answer, Decidable ((endingOwn D).Admitted w a m o)
  | none => inferInstanceAs (Decidable (_ = none))
  | some _ => inferInstanceAs (Decidable (_ ∧ _))

theorem Manager.sameKind_iff {m : Manager} {callId : Text} {isGroup : Bool} :
    m.sameKind callId isGroup = true ↔ ∀ s ∈ m.published, s.callId = callId → s.isGroupCall = isGroup := by
  simp only [sameKind, List.all_eq_true, Bool.or_eq_true, decide_eq_true_eq, ne_eq, decide_not, Bool.not_eq_true']
  refine forall₂_congr fun s _ => ?_
  by_cases hid : s.callId = callId <;> simp [hid]

theorem endings_cons_none {w : Wait} (hw : w.ending = none) (o : List Wait) : endings (w :: o) = endings o := by
  simp [endings, hw]

theorem endings_cons_some {w : Wait} {s : CallSession} (hw : w.ending = some s) (o : List Wait) :
    endings (w :: o) = s.callId :: endings o := by
  simp [endings, hw]

theorem Manager.takes_live {m : Manager} {callId : Text} {isGroup ended : Bool} (h : m.takes callId isGroup ended = true)
    {s : CallSession} (hs : m.current = some s) (hlive : s.isTerminal = false) : s.callId = callId := by
  have hlive : m.hasLiveCall = true := by simp [hasLiveCall, hs, hlive]
  simpa [takes, hlive, hs] using (Bool.and_eq_true_iff.1 h).2

namespace Undropped

variable {m m' : Manager} {o o' : List Wait}

theorem congr (h : Undropped m o) (hcurrent : m'.current = m.current) (hsecondary : m'.secondary = m.secondary)
    (hsessions : m'.sessions = m.sessions) (hasked : m'.asked = m.asked)
    (hterminating : m'.terminating = true → m.terminating = true) : Undropped m' o := by
  refine ⟨h.recorded.congr hcurrent hsecondary hsessions, ?_, ?_, ?_⟩
  · rw [hsessions]
    exact h.dropless
  · rw [hcurrent]
    exact fun s hs hlive ht => h.ignored s hs hlive (hterminating ht)
  · rw [hasked, Manager.published, hsessions]
    exact h.asked

theorem core (h : Undropped m o) (hm : m'.core = m.core) : Undropped m' o :=
  h.congr (congrArg Core.current hm) (congrArg Core.secondary hm) (congrArg Core.sessions hm) (congrArg Core.asked hm)
    fun ht => (congrArg Core.terminating hm).symm.trans ht

theorem mono (h : Undropped m o) (hr : Recorded m o') (he : ∀ c ∈ endings o, c ∈ endings o') : Undropped m o' :=
  ⟨hr, h.dropless, fun s hs hlive ht => he _ (h.ignored s hs hlive ht), fun c hc => (h.asked c hc).imp_left (he c)⟩

theorem cons {w : Wait} (he : w.ending = none) (ht : w.op.isTurn = false) : Undropped m o ↔ Undropped m (w :: o) := by
  constructor
  · exact fun h => h.mono ((Recorded.cons ht).1 h.recorded) fun c hc => by rwa [endings_cons_none he]
  · exact fun h => h.mono h.recorded.tail fun c hc => by rwa [endings_cons_none he] at hc

theorem swap {v w : Wait} {s : CallSession} (hv : v.ending = some s) (hw : w.ending = some s) (ht : w.op.isTurn = false)
    (h : Undropped m (v :: o)) : Undropped m (w :: o) := by
  refine h.mono ((Recorded.cons ht).1 h.recorded.tail) fun c hc => ?_
  rw [endings_cons_some hw]
  rwa [endings_cons_some hv] at hc

/-- A session is made current: one of the live call, or with none live; and it is ended, or the live one is not ignored
either, or no call is terminating. -/
theorem install {session : CallSession} {changes : Option (List Change)} {o' : List Wait} (h : Undropped m o)
    (hr : Recorded m o') (hkind : ∀ t ∈ m.published, t.callId = session.callId → t.isGroupCall = session.isGroupCall)
    (hown : ∀ s, m.current = some s → s.isTerminal = false → s.callId = session.callId)
    (hignored : session.isTerminal = false → m.terminating = true → session.callId ∈ endings o')
    (hasked : ∀ c ∈ endings o, c ∈ endings o' ∨ (c = session.callId ∧ session.isTerminal = true)) :
    Undropped (m.setSession session changes) o' := by
  obtain ⟨shown, route, hi⟩ := setSession_installs m session changes
  refine ⟨hr.install hi hkind, ?_, ?_, ?_⟩
  · rw [hi.sessions]
    refine h.dropless.cons fun s hs hlive => ⟨shown, rfl, ?_⟩
    rw [hi.callId, hown s (h.recorded.current.trans hs) hlive]
  · rw [hi.current, hi.terminating]
    intro s hs hlive ht
    cases hs
    rw [hi.isTerminal] at hlive
    rw [hi.callId]
    exact hignored hlive ht
  · rw [hi.asked, hi.published]
    intro c hc
    rcases h.asked c hc with hc | ⟨t, ht, hover⟩
    · refine (hasked c hc).imp_right fun hover => ⟨shown, List.mem_cons_self, ?_⟩
      rw [hi.callId, hi.isTerminal]
      exact ⟨hover.1.symm, hover.2⟩
    · exact .inr ⟨t, List.mem_cons_of_mem _ ht, hover⟩

/-- A session that the manager `takes` is made current. -/
theorem take {session : CallSession} {changes : Option (List Change)} (h : Undropped m o)
    (ht : m.takes session.callId session.isGroupCall session.isTerminal = true) :
    Undropped (m.setSession session changes) o := by
  refine h.install h.recorded (Manager.sameKind_iff.1 (Bool.and_eq_true_iff.1 ht).1)
    (fun s hs hlive => Manager.takes_live ht hs hlive) (fun hlive hterm => ?_) fun c hc => .inl hc
  cases hl : m.hasLiveCall with
  | true =>
    obtain ⟨s, hs, hslive⟩ := (Option.any_eq_true _ _).1 hl
    have hslive : s.isTerminal = false := by simpa using hslive
    rw [← Manager.takes_live ht hs hslive]
    exact h.ignored s hs hslive hterm
  | false => simp [Manager.takes, hl, hlive, hterm] at ht

theorem change {s : CallSession} {c : Change} (h : Undropped m o) (hs : m.current = some s)
    (hc : (c.apply s).isTerminal = false → m.terminating = true → s.isTerminal = false) :
    Undropped (m.setSession (c.apply s) (some [c])) o := by
  have hmem := mem_published h.recorded.current hs
  refine h.install h.recorded (fun t ht hid => ?_) (fun t ht _ => ?_) (fun hlive hterm => ?_) fun c hc => .inl hc
  · rw [Change.apply_callId] at hid
    rw [Change.apply_isGroupCall]
    exact h.recorded.kinds t ht s hmem hid
  · cases hs.symm.trans ht
    rw [Change.apply_callId]
  · rw [Change.apply_callId]
    exact h.ignored s hs (hc hlive hterm) hterm

theorem begin {s : CallSession} (h : Undropped m o) (hlive : m.hasLiveCall = false)
    (hkind : m.sameKind s.callId s.isGroupCall = true) (hcurrent : m'.current = m.current)
    (hsecondary : m'.secondary = m.secondary) (hsessions : m'.sessions = m.sessions) (hasked : m'.asked = m.asked)
    (hterminating : m'.terminating = false) : Undropped (m'.setSession s none) o := by
  have h' : Undropped m' o := h.congr hcurrent hsecondary hsessions hasked (by simp [hterminating])
  refine h'.take ?_
  have hlive : m'.hasLiveCall = false := by rw [Manager.hasLiveCall, hcurrent, ← Manager.hasLiveCall, hlive]
  have hkind : m'.sameKind s.callId s.isGroupCall = true := by
    rw [Manager.sameKind, Manager.published, hsessions]
    exact hkind
  simp [Manager.takes, hkind, hlive, hterminating]

theorem clear (h : Undropped m o) (hlive : m.hasLiveCall = false) (hcurrent : m'.current = none)
    (hsecondary : m'.secondary = m.secondary) (hsessions : m'.sessions = ⟨none, none⟩ :: m.sessions)
    (hasked : m'.asked = m.asked) : Undropped m' o := by
  refine ⟨h.recorded.clear hcurrent hsecondary hsessions, ?_, ?_, ?_⟩
  · rw [hsessions]
    refine h.dropless.cons fun s hs hslive => ?_
    rw [Manager.hasLiveCall, h.recorded.current, hs, Option.any_some, hslive] at hlive
    cases hlive
  · intro s hs
    rw [hcurrent] at hs
    cases hs
  · rw [hasked, Manager.published, hsessions]
    exact h.asked

/-- An end that is asked for while another is under way is ignored: that of the same call, or one that is ended. -/
theorem ask {s : CallSession} (h : Undropped m o) (hs : m.current = some s) (hterm : m.terminating = true) :
    Undropped { m with asked := s.callId :: m.asked } o := by
  refine ⟨h.recorded.congr rfl rfl rfl, h.dropless, h.ignored, fun c hc => ?_⟩
  rcases List.mem_cons.1 hc with rfl | hc
  · cases hover : s.isTerminal with
    | true => exact .inr ⟨s, mem_published h.recorded.current hs, rfl, hover⟩
    | false => exact .inl (h.ignored s hs hover hterm)
  · exact h.asked c hc

theorem endCurrent {s : CallSession} (h : Undropped m o) (hs : m.current = some s) (op : Op) (ht : op.isTurn = false) :
    Undropped ({ m with asked := s.callId :: m.asked }.terminate s) (endingOf s op :: o) := by
  have he : endings (endingOf s op :: o) = s.callId :: endings o := endings_cons_some rfl o
  refine ⟨(Recorded.cons ht).1 (h.recorded.congr rfl rfl rfl), h.dropless, fun t ht _ _ => ?_, fun c hc => ?_⟩
  · cases hs.symm.trans ht
    rw [he]
    exact List.mem_cons_self
  · rw [he]
    rcases List.mem_cons.1 hc with rfl | hc
    · exact .inl List.mem_cons_self
    · exact (h.asked c hc).imp_left (List.mem_cons_of_mem _)

theorem finished {s : CallSession} {w : Wait} {c : Change} (h : Undropped m (w :: o)) (hw : w.ending = some s)
    (hover : (c.apply s).isTerminal = true) (ht : m.takes s.callId s.isGroupCall true = true) :
    Undropped (m.setSession (c.apply s) (some [c])) o := by
  refine h.install h.recorded.tail (fun t hmem hid => ?_) (fun t hcurrent hlive => ?_) (fun hlive => ?_) fun d hd => ?_
  · rw [Change.apply_callId] at hid
    rw [Change.apply_isGroupCall]
    exact Manager.sameKind_iff.1 (Bool.and_eq_true_iff.1 ht).1 t hmem hid
  · rw [Change.apply_callId]
    exact Manager.takes_live ht hcurrent hlive
  · rw [hover] at hlive
    cases hlive
  · rw [endings_cons_some hw] at hd
    rcases List.mem_cons.1 hd with rfl | hd
    · exact .inr ⟨by simp, hover⟩
    · exact .inl hd

end Undropped

theorem keeps_finishOwn (D : Device) {final : CallState} (hfinal : final.isTerminal = true) (action : ControlAction)
    (notify : Bool) : Keeps D (endingOwn D) (finish final action notify) := by
  intro Q m o hi hQ
  have hi : Undropped m o := hi
  refine Program.holds_get_bind ?_
  split
  · exact hQ _ _ _ hi
  · rename_i session hsession
    refine Program.holds_modify_bind ?_
    split
    · rename_i hterm
      exact hQ _ _ _ (hi.ask hsession hterm)
    · refine Program.holds_modify_bind
        (finishSession_holds (A := fun m o => Undropped m (endingOf session .closeMedia :: o))
        (T := False) ?_ ?_ ?_ ?_ ?_ ?_ ?_ ?_ action notify)
      · exact fun hm ha => ha.core hm
      · exact fun op m o hop => ⟨Undropped.swap rfl rfl hop, Undropped.swap rfl rfl rfl⟩
      · exact fun op => .inr fun m o ha => nomatch ha
      · exact hi.endCurrent hsession _ rfl
      · exact nofun
      · exact fun _ m o => ⟨Undropped.swap rfl rfl rfl, Undropped.swap rfl rfl rfl⟩
      · exact fun _ => .inr fun m o ha => nomatch ha
      · intro duration a m' o' hi' ha
        have htakes : m'.takes session.callId session.isGroupCall final.isTerminal = true := by
          simpa [endingOwn, Wait.writesHere, savingOf, endingOf, Change.apply, CallSession.isTerminal] using ha.1
        rw [hfinal] at htakes
        exact hQ _ _ _ ((Undropped.finished (c := .finished final duration) hi' rfl hfinal htakes).congr rfl
          rfl rfl rfl id)

theorem endingOwn_laws (D : Device) :
    Laws D (endingOwn D) fun callId isGroup m => m.hasLiveCall = true ∨ m.sameKind callId isGroup = true where
  core hm hi := Undropped.core hi hm
  wait he ht := Undropped.cons he ht
  queued n hi := Undropped.mono hi (hi.recorded.turn n) fun c hc => by rwa [endings_cons_none rfl]
  turned hi := ⟨Undropped.mono hi hi.recorded.tail fun c hc => by rwa [endings_cons_none rfl] at hc,
    hi.recorded.sameKind⟩
  secondary hi := hi.recorded.secondary
  finish hfinal := keeps_finishOwn D hfinal
  update hi hs hc := Undropped.change hi hs fun hlive _ => hc.symm.trans hlive
  written := by
    intro m m' o w a s c hi ha he ht hw hguard hm
    have hi : Undropped m' o := ((Undropped.cons he ht).2 hi).core hm
    have hcurrent : m'.current = m.current := congrArg Core.current hm
    have hwrites := ha.1
    rw [Wait.writesHere, hw] at hwrites
    simp only [Bool.or_eq_true, Bool.and_eq_true, Bool.not_eq_true'] at hwrites
    rcases hwrites with ⟨hg, hnot⟩ | htakes
    · rw [hguard hg] at hnot
      cases hnot
    · refine hi.take ?_
      rw [Change.apply_callId, Change.apply_isGroupCall, Manager.takes, Manager.sameKind, Manager.published,
        Manager.hasLiveCall, hcurrent, show m'.sessions = m.sessions from congrArg Core.sessions hm,
        show m'.terminating = m.terminating from congrArg Core.terminating hm]
      exact htakes
  initiated hs := by simpa [endingOwn, Event.sparesOthers] using hs
  groupInitiated hs := by simpa [endingOwn, Event.sparesOthers] using hs
  beginning := by
    intro m o w a id g ha hw hlive
    have hbegins := ha.2
    rw [Wait.beginsHere, hw] at hbegins
    cases g with
    | true =>
      have htakes : m.takes id true false = true := by simpa using hbegins
      exact .inr (Bool.and_eq_true_iff.1 htakes).1
    | false => exact .inr (by simpa [hlive] using hbegins)
  begun := by
    intro m m' o s hi hlive hkind _ hcurrent hsecondary hsessions hterminating hasked
    have hi : Undropped m o := hi
    refine hi.begin hlive (hkind.resolve_left (by simp [hlive])) hcurrent ?_ hsessions hasked hterminating
    rw [hsecondary, hi.recorded.secondary]
  invited := by
    intro m o w a s hi ha he ht hw hgroup hlive
    have hi : Undropped m o := (Undropped.cons he ht).2 hi
    have hbegins := ha.2
    rw [Wait.beginsHere, hw] at hbegins
    refine hi.take ?_
    rw [hgroup, hlive]
    simpa using hbegins
  setUp _ hi _ := Undropped.congr hi rfl rfl rfl rfl nofun
  timer := by
    intro m o hs hi ht
    have hlive : m.hasLiveCall = false := by simpa [endingOwn, Event.sparesOthers, ht] using hs
    exact Undropped.clear hi hlive rfl rfl rfl rfl
  answered := by
    intro m m' o signal s hi hs hcurrent hgroup hpeer hdirection hm
    have hi : Undropped m o := hi
    refine (hi.core hm).change ((congrArg Core.current hm).trans hcurrent) fun _ hterm => ?_
    have hterm : m.terminating = true := (congrArg Core.terminating hm).symm.trans hterm
    simpa [endingOwn, Event.sparesOthers, hcurrent, hgroup, hpeer, hdirection, hterm] using hs

/-- **A live call is dropped only by its own ending, and every end that is asked for takes effect**, in every run whose
steps meet the conditions. -/
theorem ending_run {D : Device} {ls : List Step} {q : State}
    (hm : Runs.Meets (tasks D).step (Pool.Moves (Tasks.Orderly (endingOwn D))) initial ls)
    (hr : Runs.run (tasks D).step initial ls = some q) :
    Dropless q.shared.sessions ∧
      (∀ s ∈ q.shared.current, s.isTerminal = false → q.shared.terminating = true →
        s.callId ∈ endings (Task.labels q.threads)) ∧
      ∀ callId ∈ q.shared.asked, callId ∈ endings (Task.labels q.threads) ∨
        ∃ t ∈ q.shared.published, t.callId = callId ∧ t.isTerminal = true := by
  have hi : Undropped {} [] := ⟨.initial, .nil, fun s hs => (nomatch hs), fun c hc => (nomatch hc)⟩
  have hperm : ∀ m o o', o.Perm o' → Undropped m o → Undropped m o' := fun m o o' hp h =>
    h.mono (h.recorded.perm hp) fun c hc => (hp.filterMap _).mem_iff.1 hc
  have h : Undropped q.shared (Task.labels q.threads) :=
    Tasks.holds_run (R := endingOwn D) hperm (fun x m o hi hs => (endingOwn_laws D).program_holds x m o hi hs) hi hm hr
  exact ⟨h.dropless, h.ignored, h.asked⟩

def callAfterCall : List Step :=
  (outgoingCall ++ endsAs 1).append [.start .terminalTimeout, .step 2 none,
    .start (.initiateCall "can".toList "Can".toList .voice), .step 3 none, .start .endCall, .step 4 none,
      .start .endCall,
    .step 5 none]

theorem ending_callAfterCall : ∃ q, Runs.run (tasks phone).step initial callAfterCall = some q ∧
    q.shared.asked = ["b".toList, "b".toList, "a".toList] ∧ Dropless q.shared.sessions ∧
    "b".toList ∈ endings (Task.labels q.threads) := by
  obtain ⟨q, hq, ha, hb⟩ : ∃ q, Runs.run (tasks phone).step initial callAfterCall = some q ∧
      q.shared.asked = ["b".toList, "b".toList, "a".toList] ∧
      ∀ t ∈ q.shared.published, ¬ (t.callId = "b".toList ∧ t.isTerminal = true) :=
    Runs.exists_run _ _ _ (by decide +kernel)
  obtain ⟨hd, -, hasked⟩ := ending_run (by decide +kernel) hq
  refine ⟨q, hq, ha, hd, (hasked _ ?_).resolve_right fun ⟨t, ht, hover⟩ => hb t ht hover⟩
  rw [ha]
  exact List.mem_cons_self

/-- The second call begins while the first is still visible as ended, and the first one's timer fires. -/
def callWithinVisibility : List Step :=
  (outgoingCall ++ endsAs 1).append [.start (.initiateCall "can".toList "Can".toList .voice), .step 2 none,
    .start .terminalTimeout, .step 3 none]

/-- **The live call is cleared**, and nobody has asked for its end. -/
theorem callWithinVisibility_drops : ∃ q, Runs.run (tasks phone).step initial callWithinVisibility = some q ∧
    ¬ Dropless q.shared.sessions ∧ "b".toList ∉ q.shared.asked :=
  Runs.exists_run _ _ _ (by decide +kernel)

end Calls
end SecureChat
