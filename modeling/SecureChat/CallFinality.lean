import SecureChat.CallRecord
import SecureChat.CallRules
/-!
# CallFinality — a finished call stays finished, and updates are not lost

A handler that waits keeps a copy of the session and writes it back.  Whatever other handlers have published meanwhile,
the end of the call included, is then put back to what the copy says: so a mute that is answered after the end of the
call shows the call as live again.  `final_run` is what is left.
-/
namespace SecureChat
namespace Calls

open Async
open GroupControl (Text)
open Program (HoldsBeside)

/-- Newest first: after a session that is over, its call is over in every later one. -/
def Final (l : List CallSession) : Prop :=
  l.Pairwise fun later earlier => earlier.isTerminal = true → earlier.callId = later.callId → later.isTerminal = true

instance : DecidablePred Final := fun l => inferInstanceAs (Decidable (List.Pairwise _ l))

/-- Newest first: each publication is what was shown before it, changed by its handler's changes and by nothing else. -/
def Faithful : List Publication → Prop
  | [] => True
  | p :: earlier =>
    (∀ changes ∈ p.changes, p.session = (shownLast earlier).map fun s => changes.foldl Change.apply s) ∧
      Faithful earlier

instance decidableFaithful : DecidablePred Faithful
  | [] => inferInstanceAs (Decidable True)
  | _ :: earlier =>
    have := decidableFaithful earlier
    inferInstanceAs (Decidable (_ ∧ _))

theorem Final.cons {l : List CallSession} {s : CallSession} (h : Final l)
    (hs : ∀ t ∈ l, t.isTerminal = true → t.callId = s.callId → s.isTerminal = true) : Final (s :: l) :=
  List.pairwise_cons.2 ⟨hs, h⟩

theorem Final.newest {l : List CallSession} {s t : CallSession} (h : Final (s :: l)) (ht : t ∈ s :: l)
    (hover : t.isTerminal = true) (hid : t.callId = s.callId) : s.isTerminal = true := by
  rcases List.mem_cons.1 ht with rfl | ht
  · exact hover
  · exact (List.pairwise_cons.1 h).1 t ht hover hid

/-- What is written back on the answer is the current session with the change of the handler, and does not make a call
live that is over. -/
def Wait.upToDate (w : Wait) (a : Answer) (m : Manager) : Bool :=
  match w.writes a with
  | none => true
  | some (s, c) =>
    (w.guarded && !m.current.any fun x => x.callId = s.callId && !x.isTerminal) ||
      m.current.any fun latest => c.apply s = c.apply latest && (!latest.isTerminal || (c.apply latest).isTerminal)

def Manager.isNew (m : Manager) (callId : Text) : Bool := m.published.all fun s => s.callId ≠ callId

/-- A call that begins has an id under which none has been shown; the answer to a direct call does not come after the
call's end. -/
def Event.startsNothingOld (D : Device) (x : Event) (m : Manager) : Bool :=
  match x with
  | .initiateCall _ _ _ => m.hasLiveCall || m.isNew (D.newId m.drawn)
  | .initiateGroupCall _ _ _ _ => m.hasLiveCall || m.isNew (D.newId m.drawn)
  | .signal (.answer reply) => !m.current.any fun s =>
      !s.isGroupCall && s.peerId = reply.senderId && s.direction = .outgoing && s.isTerminal
  | _ => true

def Wait.beginsNothingOld (w : Wait) (m : Manager) : Bool :=
  w.beginning.all fun b => (!b.2 && m.hasLiveCall) || m.isNew b.1

structure Consistent (m : Manager) (o : List Wait) : Prop where
  recorded : Recorded m o
  final : Final m.published
  faithful : Faithful m.sessions

/-- **The conditions**: no copy that is written back is outdated, and a call begins under an id of its own. -/
def finality (D : Device) : Rules where
  Inv := Consistent
  Starts x m _ := x.startsNothingOld D m = true
  Admitted w answer m _ := answer.all (fun a => w.upToDate a m && w.beginsNothingOld m) = true

instance (D : Device) (x : Event) (m : Manager) (o : List Wait) : Decidable ((finality D).Starts x m o) :=
  inferInstanceAs (Decidable (_ = true))

instance (D : Device) (w : Wait) (a : Option Answer) (m : Manager) (o : List Wait) :
    Decidable ((finality D).Admitted w a m o) := inferInstanceAs (Decidable (_ = true))

theorem Manager.isNew_iff {m : Manager} {callId : Text} : m.isNew callId = true ↔
    ∀ s ∈ m.published, s.callId ≠ callId := by
  simp [isNew]

namespace Consistent

variable {m m' : Manager} {o o' : List Wait}

theorem congr (h : Consistent m o) (hcurrent : m'.current = m.current) (hsecondary : m'.secondary = m.secondary)
    (hsessions : m'.sessions = m.sessions) : Consistent m' o := by
  refine ⟨h.recorded.congr hcurrent hsecondary hsessions, ?_, ?_⟩
  · rw [Manager.published, hsessions]
    exact h.final
  · rw [hsessions]
    exact h.faithful

theorem cons {w : Wait} (hw : w.op.isTurn = false) : Consistent m o ↔ Consistent m (w :: o) :=
  ⟨fun h => ⟨(Recorded.cons hw).1 h.recorded, h.final, h.faithful⟩,
    fun h => ⟨h.recorded.tail, h.final, h.faithful⟩⟩

theorem change {latest s : CallSession} {c : Change} (h : Consistent m o) (hlatest : m.current = some latest)
    (hsame : c.apply s = c.apply latest) (hover : latest.isTerminal = true → (c.apply latest).isTerminal = true) :
    Consistent (m.setSession (c.apply s) (some [c])) o := by
  obtain ⟨shown, route, hi⟩ := setSession_installs m (c.apply s) (some [c])
  rw [hsame] at hi ⊢
  obtain ⟨earlier, he⟩ := published_eq_cons h.recorded.current hlatest
  refine ⟨h.recorded.installLater hi (mem_published h.recorded.current hlatest) (by simp) (by simp), ?_, ?_⟩
  · rw [hi.published]
    refine h.final.cons fun t ht hterminal hid => ?_
    have hfinal := h.final
    rw [he] at hfinal ht
    rw [hi.isTerminal]
    refine hover (hfinal.newest ht hterminal ?_)
    rw [hid, hi.callId, Change.apply_callId]
  · rw [hi.sessions]
    refine ⟨fun changes hchanges => ?_, h.faithful⟩
    cases hchanges
    rw [← h.recorded.current, hlatest, hi.routed]
    rfl

theorem begin {s : CallSession} (h : Consistent m o) (hnew : m.isNew s.callId = true)
    (hcurrent : m'.current = m.current)
    (hsecondary : m'.secondary = m.secondary) (hsessions : m'.sessions = m.sessions) :
    Consistent (m'.setSession s none) o := by
  have hnew : ∀ t ∈ m'.published, t.callId ≠ s.callId := by
    rw [Manager.published, hsessions]
    exact Manager.isNew_iff.1 hnew
  have h' : Consistent m' o := h.congr hcurrent hsecondary hsessions
  obtain ⟨shown, route, hi⟩ := setSession_installs m' s none
  refine ⟨h'.recorded.install hi fun t ht hid => absurd hid (hnew t ht), ?_, ?_⟩
  · rw [hi.published]
    refine h'.final.cons fun t ht _ hid => absurd ?_ (hnew t ht)
    rw [hid, hi.callId]
  · rw [hi.sessions]
    exact ⟨fun _ hcs => (by cases hcs), h'.faithful⟩

theorem clear (h : Consistent m o) (hcurrent : m'.current = none) (hsecondary : m'.secondary = m.secondary)
    (hsessions : m'.sessions = ⟨none, none⟩ :: m.sessions) : Consistent m' o := by
  refine ⟨h.recorded.clear hcurrent hsecondary hsessions, ?_, ?_⟩
  · rw [Manager.published, hsessions]
    exact h.final
  · rw [hsessions]
    exact ⟨fun _ hcs => (by cases hcs), h.faithful⟩

theorem written {w : Wait} {a : Answer} {s : CallSession} {c : Change} (h : Consistent m o)
    (hw : w.writes a = some (s, c)) (hdate : w.upToDate a m = true)
    (hguard : w.guarded = true → m.current.any (fun x => x.callId = s.callId && !x.isTerminal) = true) :
    Consistent (m.setSession (c.apply s) (some [c])) o := by
  unfold Wait.upToDate at hdate
  rw [hw] at hdate
  simp only [Bool.or_eq_true, Bool.and_eq_true, Bool.not_eq_true'] at hdate
  rcases hdate with ⟨hg, hnot⟩ | hdate
  · rw [hguard hg] at hnot
    cases hnot
  · obtain ⟨latest, hlatest, hsame⟩ := (Option.any_eq_true _ _).1 hdate
    simp only [Bool.and_eq_true, decide_eq_true_eq, Bool.or_eq_true, Bool.not_eq_true'] at hsame
    refine h.change hlatest hsame.1 fun hover => hsame.2.resolve_left ?_
    simp [hover]

end Consistent

theorem keeps_finish (D : Device) (final : CallState) (action : ControlAction) (notify : Bool) :
    Keeps D (finality D) (finish final action notify) := by
  intro Q m o hi hQ
  refine Program.holds_get_bind ?_
  split
  · exact hQ _ _ _ hi
  · rename_i session _
    refine Program.holds_modify_bind ?_
    split
    · exact hQ _ _ _ (Consistent.congr hi rfl rfl rfl)
    · refine Program.holds_modify_bind (finishSession_holds (A := Consistent) (T := True) ?_ ?_ ?_ ?_ ?_ ?_ ?_ ?_ action
        notify)
      · exact fun hm ha => ha.congr (congrArg Core.current hm) (congrArg Core.secondary hm) (congrArg Core.sessions hm)
      · exact fun op m o hop => Consistent.cons hop
      · exact fun _ => .inl trivial
      · exact Consistent.congr hi rfl rfl rfl
      · exact fun _ m o ha => hQ _ m o ha
      · exact fun _ m o => Consistent.cons rfl
      · exact fun _ => .inl trivial
      · intro duration a m' o' hi' ha
        have hi' : Consistent m' o' := (Consistent.cons rfl).2 hi'
        simp only [finality, Option.all_some, Bool.and_eq_true] at ha
        have hwritten := hi'.written (c := .finished final duration) (s := session) rfl ha.1 nofun
        exact hQ _ _ _ (hwritten.congr rfl rfl rfl)

theorem finality_laws (D : Device) :
    Laws D (finality D) fun callId _ m => m.hasLiveCall = true ∨ m.isNew callId = true where
  core hm hi := Consistent.congr hi (congrArg Core.current hm) (congrArg Core.secondary hm) (congrArg Core.sessions hm)
  wait _ ht := Consistent.cons ht
  queued n hi := ⟨hi.recorded.turn n, hi.final, hi.faithful⟩
  turned hi := ⟨⟨hi.recorded.tail, hi.final, hi.faithful⟩, hi.recorded.sameKind⟩
  secondary hi := hi.recorded.secondary
  finish _ := keeps_finish D _
  update hi hs hc := hi.change hs rfl fun hover => by rw [hc, hover]
  written := by
    intro m m' o w a s c hi ha _ ht hw hguard hm
    have hi : Consistent m o := (Consistent.cons ht).2 hi
    simp only [finality, Option.all_some, Bool.and_eq_true] at ha
    have hcurrent : m'.current = m.current := congrArg Core.current hm
    refine (Consistent.congr hi hcurrent (congrArg Core.secondary hm) (congrArg Core.sessions hm)).written hw ?_ ?_
    · rw [Wait.upToDate, hcurrent]
      exact ha.1
    · rw [hcurrent]
      exact hguard
  initiated hs := by simpa [finality, Event.startsNothingOld] using hs
  groupInitiated hs := by simpa [finality, Event.startsNothingOld] using hs
  beginning := by
    intro m o w a id g ha hw hlive
    simp only [finality, Option.all_some, Bool.and_eq_true, Wait.beginsNothingOld, hw, hlive, Bool.and_false,
      Bool.false_or] at ha
    exact .inr ha.2
  begun := by
    intro m m' o s hi hlive hnew _ hcurrent hsecondary hsessions _ _
    refine hi.begin (hnew.resolve_left (by simp [hlive])) hcurrent ?_ hsessions
    rw [hsecondary, hi.recorded.secondary]
  invited := by
    intro m o w a s hi ha _ ht hw _ _
    have hi : Consistent m o := (Consistent.cons ht).2 hi
    simp only [finality, Option.all_some, Bool.and_eq_true, Wait.beginsNothingOld, hw, Bool.not_true, Bool.false_and,
      Bool.false_or] at ha
    exact hi.begin ha.2 rfl rfl rfl
  setUp _ hi _ := hi.congr rfl rfl rfl
  timer _ hi _ := hi.clear rfl rfl rfl
  answered := by
    intro m m' o signal s hi hs hcurrent hgroup hpeer hdirection hm
    have hlive : s.isTerminal = false := by
      simpa [finality, Event.startsNothingOld, hcurrent, hgroup, hpeer, hdirection] using hs
    have hi : Consistent m' o :=
      Consistent.congr hi (congrArg Core.current hm) (congrArg Core.secondary hm) (congrArg Core.sessions hm)
    refine hi.change ((congrArg Core.current hm).trans hcurrent) rfl fun hover => ?_
    rw [hlive] at hover
    cases hover

/-- **A finished call stays finished and no update is lost**, in every run whose steps meet the condition. -/
theorem final_run {D : Device} {ls : List Step} {q : State}
    (hm : Runs.Meets (tasks D).step (Pool.Moves (Tasks.Orderly (finality D))) initial ls)
    (hr : Runs.run (tasks D).step initial ls = some q) : Final q.shared.published ∧ Faithful q.shared.sessions := by
  have hi : Consistent {} [] := ⟨.initial, .nil, trivial⟩
  have h : Consistent q.shared (Task.labels q.threads) :=
    Tasks.holds_run (R := finality D) (fun m o o' hp h => ⟨h.recorded.perm hp, h.final, h.faithful⟩)
      (fun x m o hi hs => (finality_laws D).program_holds x m o hi hs) hi hm hr
  exact ⟨h.final, h.faithful⟩

def muteThenEnd : List Step :=
  .flatten [outgoingCall, [.start .toggleMute, .step 1 none, .step 1 (some {})], endsAs 2]

theorem final_muteThenEnd : ∃ q, Runs.run (tasks phone).step initial muteThenEnd = some q ∧
    q.shared.published.map (fun s => (s.isMuted, s.isTerminal)) = [(true, true), (true, false), (false, false)] ∧
    Final q.shared.published ∧ Faithful q.shared.sessions := by
  obtain ⟨q, hq, hs⟩ : ∃ q, Runs.run (tasks phone).step initial muteThenEnd = some q ∧
      q.shared.published.map (fun s => (s.isMuted, s.isTerminal)) = [(true, true), (true, false), (false, false)] :=
    Runs.exists_run _ _ _ (by decide +kernel)
  exact ⟨q, hq, hs, final_run (by decide +kernel) hq⟩

def muteAcrossEnd : List Step :=
  .flatten [outgoingCall, [.start .toggleMute, .step 1 none], endsAs 2, [.step 1 (some {})]]

/-- **The finished call is shown as live again**, and its end is lost. -/
theorem muteAcrossEnd_revives : ∃ q, Runs.run (tasks phone).step initial muteAcrossEnd = some q ∧
    ¬ Final q.shared.published ∧ ¬ Faithful q.shared.sessions :=
  Runs.exists_run _ _ _ (by decide +kernel)

end Calls
end SecureChat
