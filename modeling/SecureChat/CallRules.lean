import SecureChat.CallEvents
/-!
# CallRules — what a rule about the current session has to meet

Most of a handler has nothing to do with which session is current.  `Laws` lists what an invariant has to meet where a
handler has: it begins a session, writes one back after it has waited, changes the one it has just read, ends one, or
is the timer that clears it.  `program_holds` concludes that every handler keeps the invariant.
-/
namespace SecureChat
namespace Calls

open Async
open GroupControl (Text)
open Program (get modify whenever)
open Program (HoldsBeside)

structure Core where
  current : Option CallSession
  secondary : Option CallSession
  terminating : Bool
  terminalTimer : Bool
  sessions : List Publication
  asked : List Text

def Manager.core (m : Manager) : Core :=
  ⟨m.current, m.secondary, m.terminating, m.terminalTimer, m.sessions, m.asked⟩

abbrev Rules := Tasks.Rules Answer Wait Manager Event

abbrev Keeps {α : Type} (D : Device) (R : Rules) (p : Call α) : Prop := p.Preserves (tasks D) R

def Manager.cleared (m : Manager) : Manager :=
  { m with
    terminalTimer := false, current := none, currentGroupRoutingToken := none, sessions := ⟨none, none⟩ :: m.sessions,
    terminating := false }

/-- `Fresh` is what is asked of the id of a call that begins. -/
structure Laws (D : Device) (R : Rules) (Fresh : Text → Bool → Manager → Prop) : Prop where
  core {m m' : Manager} {o : List Wait} : m'.core = m.core → R.Inv m o → R.Inv m' o
  wait {m : Manager} {o : List Wait} {w : Wait} : w.ending = none → w.op.isTurn = false →
    (R.Inv m o ↔ R.Inv m (w :: o))
  queued {m : Manager} {o : List Wait} (n : ℕ) : R.Inv m o → R.Inv m (plain (.turn n m.current) :: o)
  turned {m : Manager} {o : List Wait} {n : ℕ} {q : Option CallSession} : R.Inv m (plain (.turn n q) :: o) →
    R.Inv m o ∧ ∀ x ∈ q, ∀ y ∈ m.current, y.callId = x.callId → y.isGroupCall = x.isGroupCall
  secondary {m : Manager} {o : List Wait} : R.Inv m o → m.secondary = none
  finish {final : CallState} (hfinal : final.isTerminal = true) (action : ControlAction) (notify : Bool) :
    Keeps D R (finish final action notify)
  update {m : Manager} {o : List Wait} {s : CallSession} {c : Change} : R.Inv m o → m.current = some s →
    (c.apply s).isTerminal = s.isTerminal → R.Inv (m.setSession (c.apply s) (some [c])) o
  written {m m' : Manager} {o : List Wait} {w : Wait} {a : Answer} {s : CallSession} {c : Change} :
    R.Inv m (w :: o) → R.Admitted w (some a) m o → w.ending = none → w.op.isTurn = false →
    w.writes a = some (s, c) →
    (w.guarded = true → m.current.any (fun x => x.callId = s.callId && !x.isTerminal) = true) → m'.core = m.core →
    R.Inv (m'.setSession (c.apply s) (some [c])) o
  initiated {m : Manager} {o : List Wait} {p n : Text} {t : CallType} : R.Starts (.initiateCall p n t) m o →
    Fresh (D.newId m.drawn) false m
  groupInitiated {m : Manager} {o : List Wait} {g n : Text} {l : List Text} {t : CallType} :
    R.Starts (.initiateGroupCall g n l t) m o → Fresh (D.newId m.drawn) true m
  beginning {m : Manager} {o : List Wait} {w : Wait} {a : Answer} {id : Text} {g : Bool} :
    R.Admitted w (some a) m o → w.beginning = some (id, g) → m.hasLiveCall = false → Fresh id g m
  begun {m m' : Manager} {o : List Wait} {s : CallSession} : R.Inv m o → m.hasLiveCall = false →
    Fresh s.callId s.isGroupCall m → s.isTerminal = false → m'.current = m.current → m'.secondary = none →
    m'.sessions = m.sessions → m'.terminating = false → m'.asked = m.asked → R.Inv (m'.setSession s none) o
  invited {m : Manager} {o : List Wait} {w : Wait} {a : Answer} {s : CallSession} : R.Inv m (w :: o) →
    R.Admitted w (some a) m o → w.ending = none → w.op.isTurn = false →
    w.beginning = some (s.callId, true) → s.isGroupCall = true → s.isTerminal = false → R.Inv (m.setSession s none) o
  setUp {m : Manager} {o : List Wait} (signal : GroupCallInviteSignal) : R.Inv m o → m.hasLiveCall = false →
    R.Inv (m.setUpInvite signal) o
  timer {m : Manager} {o : List Wait} : R.Starts .terminalTimeout m o → R.Inv m o → m.terminalTimer = true →
    R.Inv m.cleared o
  answered {m m' : Manager} {o : List Wait} {signal : SdpAnswerSignal} {s : CallSession} : R.Inv m o →
    R.Starts (.signal (.answer signal)) m o → m.current = some s → s.isGroupCall = false →
    s.peerId = signal.senderId → s.direction = .outgoing → m'.core = m.core →
    R.Inv (m'.setSession ((Change.state .connecting).apply s) (some [.state .connecting])) o

section Control

variable {D : Device} {R : Rules} {T : Prop} {A : Manager → List Wait → Prop} {w : Op → Wait}
  (hw : ∀ op m o, op.isTurn = false → (A m o ↔ R.Inv m (w op :: o)))
    (ht : ∀ op, T ∨ ∀ m o, ¬ R.Admitted (w op) none m o)

include hw ht

theorem steady_at {op : Op} (hop : op.isTurn = false) : (awaiting (w op)).Steady R T A :=
  Program.steady_wait (fun m o => hw op m o hop) (ht op)

theorem awaitAck_steady (sent : Answer) : (awaitAck w sent).Steady R T A := by
  unfold awaitAck
  split
  · exact (steady_at hw ht rfl).bind fun _ => Program.steady_pure _
  · exact Program.steady_pure _

theorem sendReliably_steady (peerId : Text) (action : ControlAction) (groupId : Option Text) :
    ∀ n, (sendReliably w peerId action groupId n).Steady R T A
  | 0 => Program.steady_pure _
  | n + 1 => by
    refine (steady_at hw ht rfl).bind fun sent => (awaitAck_steady hw ht sent).bind fun acked => ?_
    split
    · exact Program.steady_pure _
    · exact (steady_at hw ht rfl).bind fun _ => sendReliably_steady peerId action groupId n

theorem sendControl_steady (peerId : Text) (action : ControlAction) (reliable : Bool) (groupId : Option Text) :
    (sendControl w peerId action reliable groupId).Steady R T A := by
  unfold sendControl
  split
  · exact sendReliably_steady hw ht peerId action groupId 3
  · exact (steady_at hw ht rfl).bind fun _ => Program.steady_pure _

theorem sendControls_steady (action : ControlAction) (groupId : Option Text) :
    ∀ peers, (sendControls w action groupId peers).Steady R T A
  | [] => Program.steady_pure _
  | peer :: rest =>
    (sendControl_steady hw ht peer action true groupId).bind fun _ => sendControls_steady action groupId rest

end Control

section Ending

variable {D : Device} {R : Rules} {T : Prop} {A : Manager → List Wait → Prop} {session : CallSession}
  (hcore : ∀ {m m' : Manager} {o : List Wait}, m'.core = m.core → A m o → A m' o)
  (hw : ∀ op m o, op.isTurn = false → (A m o ↔ R.Inv m (endingOf session op :: o)))
  (ht : ∀ op, T ∨ ∀ m o, ¬ R.Admitted (endingOf session op) none m o)

include hcore hw ht

theorem tellPeers_steady (finalState : CallState) (action : ControlAction) (notifyPeer : Bool) :
    (tellPeers session finalState action notifyPeer).Steady R T A := by
  refine ((steady_at hw ht rfl).bind fun _ => Program.steady_pure _).whenever.bind fun _ => ?_
  refine ((steady_at hw ht rfl).bind fun _ => Program.steady_pure _).whenever.bind fun _ => ?_
  refine (Program.steady_modify fun _ _ ha => hcore (by rfl) ha).bind fun _ => ?_
  refine Program.Steady.bind (Program.Steady.whenever ?_) fun _ => Program.Steady.whenever ?_
  · exact Program.steady_get.bind fun _ => (sendControl_steady hw ht _ _ _ _).bind fun _ =>
      sendControls_steady hw ht _ _ _
  · exact (sendControl_steady hw ht _ _ _ _).bind fun _ => Program.steady_pure _

theorem closeCall_steady : (closeCall session).Steady R T A := by
  refine Program.Steady.bind (Program.Steady.whenever ?_) fun _ =>
    (steady_at hw ht rfl).bind fun _ => Program.steady_pure _
  exact (steady_at hw ht rfl).bind fun _ => Program.steady_modify fun _ _ ha => hcore (by rfl) ha

/-- **The ending of a session**: what holds while it goes on, and what is left to show of its end and its failure. -/
theorem finishSession_holds {Q : Except Unit Unit → Manager → List Wait → Prop} {m : Manager} {o : List Wait}
    {finalState : CallState} (hA : A m o) (hfail : T → ∀ m o, A m o → Q (.error ()) m o)
    (hsave : ∀ duration m o, A m o ↔ R.Inv m (savingOf session finalState duration :: o))
    (htsave : ∀ duration, T ∨ ∀ m o, ¬ R.Admitted (savingOf session finalState duration) none m o)
    (hend : ∀ duration a m o, R.Inv m (savingOf session finalState duration :: o) →
      R.Admitted (savingOf session finalState duration) (some a) m o →
      Q (.ok ()) (m.setSession ((Change.finished finalState duration).apply session)
        (some [.finished finalState duration])).ended o) (action : ControlAction) (notifyPeer : Bool) :
    (finishSession session finalState action notifyPeer).HoldsBeside (tasks D) R Q m o := by
  refine HoldsBeside.bind ((tellPeers_steady (A := A) hcore hw ht finalState action notifyPeer).holds hA
    (fun _ m o hA => ?_)
    fun t e m o hA => hfail t m o hA)
  refine Program.holds_get_bind ?_
  refine HoldsBeside.bind ((closeCall_steady (A := A) hcore hw ht).holds hA (fun _ m o hA => ?_) fun t e m o hA =>
    hfail t m o hA)
  refine Program.holds_wait_bind ((hsave _ m o).1 hA) (fun m' o' hi _ ha => ?_) fun a m' o' hi _ ha =>
    hend _ a m' o' hi ha
  rcases htsave _ with t | hnot
  · exact hfail t m' o' ((hsave _ m' o').2 hi)
  · exact absurd ha (hnot m' o')

end Ending

theorem peerChange_isTerminal {session : CallSession} (hlive : session.isTerminal = false) (peerId : Text)
    (state : MediaConnectionState) (now : ℤ) :
    ((peerChange peerId state now).apply session).isTerminal = session.isTerminal := by
  cases state with
  | connected => exact hlive.symm
  | _ => rfl

section Require

variable {D : Device} {R : Rules}

theorem keeps_require {α : Type} {p : Call Answer} {g : Call α} (hp : Keeps D R p) (hg : Keeps D R g) : Keeps D R (do
    let answer ← p
    if ¬ answer.yes then fail else g) := by
  refine hp.bind fun answer => ?_
  split
  · exact Program.preserves_throw _
  · exact hg

theorem keeps_unit {p : Call Answer} (hp : Keeps D R p) : Keeps D R (do
    let _ ← p) := hp.bind fun _ => Program.preserves_pure _

theorem holds_draw_bind {α : Type} {Q : Except Unit α → Manager → List Wait → Prop} {g : ℕ → Call α} {m : Manager}
    {o : List Wait} (hg : (g m.drawn).HoldsBeside (tasks D) R Q { m with drawn := m.drawn + 1 } o) :
    (draw >>= g).HoldsBeside (tasks D) R Q m o := hg

end Require

namespace Laws

variable {D : Device} {R : Rules} {Fresh : Text → Bool → Manager → Prop} (h : Laws D R Fresh)

include h

theorem keeps_on (op : Op) (hop : op.isTurn = false) : Keeps D R (on op) :=
  Program.preserves_wait fun _ _ => h.wait rfl hop

theorem keeps_modify {f : Manager → Manager} (hf : ∀ m, (f m).core = m.core) : Keeps D R (modify f) :=
  Program.preserves_modify fun _ _ hi => h.core (hf _) hi

theorem keeps_control (peerId : Text) (action : ControlAction) (reliable : Bool) (groupId : Option Text) :
    Keeps D R (sendControl plain peerId action reliable groupId) :=
  (sendControl_steady (fun _ _ _ hop => h.wait rfl hop) (fun _ => .inl trivial) peerId action reliable
    groupId).preserves

theorem keeps_draw : Keeps D R draw :=
  Program.preserves_get.bind fun _ => (h.keeps_modify fun _ => by rfl).bind fun _ => Program.preserves_pure _

theorem keeps_awaited {α : Type} {p : Call α} (hp : Keeps D R p) : Keeps D R (awaited p) := by
  refine hp.attempt.bind fun result => (h.keeps_on _ rfl).bind fun _ => ?_
  cases result with
  | ok a => exact Program.preserves_pure _
  | error e => exact Program.preserves_throw _

/-! ## Media keys -/

theorem keeps_generate (callId : Text) (epoch : ℕ) : Keeps D R (CallMediaKey.generate D callId epoch) :=
  h.keeps_draw.bind fun _ => Program.preserves_pure _

theorem keeps_distribute (key : CallMediaKey) (recipientId : Text) (rest : List Text) :
    Keeps D R (distribute key recipientId rest) := by
  refine (h.keeps_on _ rfl).attempt.bind fun result => ?_
  cases result with
  | ok answer =>
    dsimp only
    split
    · exact (h.keeps_modify fun _ => by rfl).bind fun _ => Program.preserves_pure _
    · exact Program.preserves_pure _
  | error e => exact Program.preserves_pure _

theorem keeps_distributeAll (key : CallMediaKey) : ∀ recipients, Keeps D R (distributeAll key recipients)
  | [] => Program.preserves_pure _
  | recipient :: rest => by
    refine (h.keeps_distribute key recipient rest).bind fun delivered => ?_
    split
    · exact keeps_distributeAll key rest
    · exact Program.preserves_pure _

theorem keeps_prepareMediaEncryption (callId : Text) (recipients : List Text) :
    Keeps D R (prepareMediaEncryption D callId recipients) := by
  unfold prepareMediaEncryption
  split
  · exact Program.preserves_pure _
  · refine (h.keeps_generate callId 0).bind fun key => (h.keeps_distributeAll key recipients).bind fun delivered => ?_
    split
    · exact (h.keeps_modify fun _ => by rfl).bind fun _ => Program.preserves_pure _
    · refine (h.keeps_on _ rfl).attempt.bind fun result => ?_
      cases result with
      | ok a => exact (h.keeps_modify fun _ => by rfl).bind fun _ => Program.preserves_pure _
      | error e => exact (h.keeps_modify fun _ => by rfl).bind fun _ => Program.preserves_pure _

theorem keeps_rotateTo (rotated : CallMediaKey) : Keeps D R (rotateTo rotated) := by
  refine (h.keeps_on _ rfl).attempt.bind fun result => ?_
  cases result with
  | ok a => exact (h.keeps_modify fun _ => by rfl).bind fun _ => Program.preserves_pure _
  | error e => exact (h.keeps_modify fun _ => by rfl).bind fun _ => Program.preserves_pure _

theorem keeps_rotateMediaKey (recipients : List Text) : Keeps D R (rotateMediaKey D recipients) := by
  refine Program.preserves_get.bind fun m => ?_
  split
  · exact Program.preserves_pure _
  · split
    · exact Program.preserves_pure _
    · split
      · exact Program.preserves_pure _
      · refine (h.keeps_generate _ _).bind fun rotated => (h.keeps_distributeAll rotated _).bind fun delivered => ?_
        split
        · exact h.keeps_rotateTo rotated
        · exact Program.preserves_pure _

theorem keeps_installMediaKey (key : CallMediaKey) (first : Bool) : Keeps D R (installMediaKey key first) := by
  have hon : Keeps D R (on (if first then .enableMediaEncryption key else .rotateMediaKey key)) := by
    refine h.keeps_on _ ?_
    split <;> rfl
  refine hon.attempt.bind fun result => ?_
  cases result with
  | ok a => exact (h.keeps_modify fun _ => by rfl).bind fun _ => Program.preserves_pure _
  | error e =>
    exact (h.keeps_modify fun _ => by rfl).bind fun _ => (h.finish (by rfl) _ _).bind fun _ => Program.preserves_pure _

theorem keeps_stage (senderId : Text) (key : CallMediaKey) (b : Bool) : Keeps D R (do
    modify fun m => m.stageIncomingMediaKey senderId key
    pure b) :=
  (h.keeps_modify fun _ => by rfl).bind fun _ => Program.preserves_pure _

theorem keeps_applyIncomingMediaKeyNow (senderId : Text) (payload : Option CallMediaKey) :
    Keeps D R (applyIncomingMediaKeyNow D senderId payload) := by
  unfold applyIncomingMediaKeyNow
  cases payload with
  | none => exact Program.preserves_pure _
  | some key =>
    dsimp only
    split
    · exact Program.preserves_pure _
    · refine Program.preserves_get.bind fun m => ?_
      split
      · exact h.keeps_stage senderId key true
      · split
        · exact h.keeps_stage senderId key true
        · split
          · exact Program.preserves_pure _
          · split
            · exact h.keeps_stage senderId key false
            · split
              · exact h.keeps_installMediaKey key true
              · split
                · exact Program.preserves_pure _
                · split
                  · split
                    · exact Program.preserves_pure _
                    · exact (h.finish (by rfl) _ _).bind fun _ => Program.preserves_pure _
                  · exact h.keeps_installMediaKey key false

/-! ## The queue of the group signals -/

theorem keeps_runGroupSignal {operation : Call Unit} {m : Manager} {o : List Wait}
    {Q : Except Unit Unit → Manager → List Wait → Prop} (hQ : ∀ r m o, R.Inv m o → Q r m o)
    (hop : ∀ Q, (∀ r m o, R.Inv m o → Q r m o) → operation.HoldsBeside (tasks D) R Q m o) :
    (runGroupSignal operation).HoldsBeside (tasks D) R Q m o := by
  refine HoldsBeside.bind (HoldsBeside.attempt (hop _ fun result m o hi => ?_))
  refine (h.keeps_on .resumed rfl).bind (fun _ => ?_) Q m o hi hQ
  cases result with
  | ok a => exact Program.preserves_pure _
  | error e => exact Program.preserves_get.bind fun _ => (h.finish (by rfl) _ _).whenever

theorem queue_holds {operation : Call Unit} {m : Manager} {o : List Wait}
    {Q : Except Unit Unit → Manager → List Wait → Prop} (hi : R.Inv m o) (hQ : ∀ r m o, R.Inv m o → Q r m o)
    (hop : ∀ Q m' o', R.Inv m' o' → (∀ x ∈ m.current, ∃ y, m'.current = some y ∧ y.isGroupCall = x.isGroupCall) →
      (∀ r m o, R.Inv m o → Q r m o) → operation.HoldsBeside (tasks D) R Q m' o') :
    (queueGroupSignal operation).HoldsBeside (tasks D) R Q m o := by
  refine Program.holds_get_bind (Program.holds_modify_bind ?_)
  have hwait : R.Inv { m with groupSignals := { m.groupSignals with issued := m.groupSignals.issued + 1 } }
      (plain (.turn m.groupSignals.issued m.current) :: o) := h.core (by rfl) (h.queued _ hi)
  refine Program.holds_wait_bind hwait (fun m' o' hi' _ _ => hQ _ _ _ (h.turned hi').1) fun a m' o' hi' _ _ => ?_
  obtain ⟨hi', hkind⟩ := h.turned hi'
  refine Program.holds_get_bind ?_
  split
  · exact hQ _ _ _ (h.core (by rfl) hi')
  · rename_i hsame
    refine HoldsBeside.bind (HoldsBeside.attempt (h.keeps_runGroupSignal (fun result m o hi => ?_) fun Q' hQ' => ?_))
    · cases result with
      | ok a => exact hQ _ _ _ (h.core (by rfl) hi)
      | error e => exact hQ _ _ _ (h.core (by rfl) hi)
    · refine hop Q' m' o' hi' (fun x hx => ?_) hQ'
      have hid : m'.currentCallId = some x.callId := by
        rw [Option.mem_def] at hx
        by_contra hne
        exact hsame ⟨by simp [Manager.currentCallId, hx], fun he => hne (by rw [he, Manager.currentCallId, hx]; rfl)⟩
      obtain ⟨y, hy, hyid⟩ := Option.map_eq_some_iff.1 hid
      exact ⟨y, hy, hkind x hx y hy hyid⟩

theorem keeps_queue {operation : Call Unit} (hop : Keeps D R operation) : Keeps D R (queueGroupSignal operation) :=
  fun _ _ _ hi hQ => h.queue_holds hi hQ fun Q' m' o' hi' _ hQ' => hop Q' m' o' hi' hQ'

theorem keeps_applyIncomingMediaKey (senderId : Text) (payload : Option CallMediaKey) :
    Keeps D R (applyIncomingMediaKey D senderId payload) :=
  h.keeps_queue ((h.keeps_applyIncomingMediaKeyNow senderId payload).bind fun _ => Program.preserves_pure _)

/-! ## Writers -/

section Write

variable {α : Type} {m : Manager} {o : List Wait} {Q : Except Unit α → Manager → List Wait → Prop}
  (hQ : ∀ r m o, R.Inv m o → Q r m o)

include hQ

theorem await_holds {w : Wait} {g : Answer → Call α} (hi : R.Inv m o) (he : w.ending = none) (ht : w.op.isTurn = false)
    (hg : ∀ a m' o', R.Inv m' (w :: o') → R.Admitted w (some a) m' o' → (g a).HoldsBeside (tasks D) R Q m' o') :
    (awaiting w >>= g).HoldsBeside (tasks D) R Q m o :=
  Program.holds_wait_bind ((h.wait he ht).1 hi) (fun _ _ hi' _ _ => hQ _ _ _ ((h.wait he ht).2 hi'))
    fun a m' o' hi' _ ha => hg a m' o' hi' ha

theorem update_holds {s : CallSession} {c : Change} {g : Unit → Call α} (hi : R.Inv m o) (hs : m.current = some s)
    (hc : (c.apply s).isTerminal = s.isTerminal) (hg : Keeps D R (g ())) :
    (setSession s c >>= g).HoldsBeside (tasks D) R Q m o :=
  Program.holds_modify_bind (hg Q _ _ (h.update hi hs hc) hQ)

/-- As `update_holds`, where the change is not always needed. -/
theorem update_if_holds {c : Prop} [Decidable c] {s : CallSession} {change : Change} {g : Unit → Call α}
    (hi : R.Inv m o) (hs : m.current = some s) (hc : (change.apply s).isTerminal = s.isTerminal)
    (hg : Keeps D R (g ())) : (whenever c (setSession s change) >>= g).HoldsBeside (tasks D) R Q m o :=
  HoldsBeside.bind (HoldsBeside.whenever (fun _ => hg Q _ _ (h.update hi hs hc) hQ) fun _ => hg Q m o hi hQ)

end Write

theorem keeps_toggleMute : Keeps D R toggleMute := by
  intro Q m o hi hQ
  refine Program.holds_get_bind ?_
  split
  · exact hQ _ _ _ hi
  · split
    · exact hQ _ _ _ hi
    · exact h.await_holds hQ hi rfl rfl fun a m' o' hi' ha => hQ _ _ _ (h.written hi' ha rfl rfl rfl nofun rfl)

theorem keeps_switchCamera : Keeps D R switchCamera := by
  intro Q m o hi hQ
  refine Program.holds_get_bind ?_
  split
  · exact hQ _ _ _ hi
  · split
    · exact hQ _ _ _ hi
    · exact h.await_holds hQ hi rfl rfl fun a m' o' hi' ha => hQ _ _ _ (h.written hi' ha rfl rfl rfl nofun rfl)

theorem keeps_toggleCamera : Keeps D R toggleCamera := by
  intro Q m o hi hQ
  refine Program.holds_get_bind ?_
  split
  · exact hQ _ _ _ hi
  · rename_i session _
    split
    · exact hQ _ _ _ hi
    · refine h.await_holds hQ hi rfl rfl fun a m' o' hi' ha => Program.holds_modify_bind ?_
      have hsend : Keeps D R (do
          let m ← get
          let _ ← sendControl plain session.peerId (if !session.isCameraEnabled then .cameraOn else .cameraOff) false
            (if session.isGroupCall then m.currentGroupRoutingToken else none)
          pure ()) :=
        Program.preserves_get.bind fun _ => (h.keeps_control _ _ _ _).bind fun _ => Program.preserves_pure _
      exact hsend Q _ _ (h.written hi' ha rfl rfl rfl nofun rfl) hQ

theorem keeps_setSpeaker (callId : Text) (enabled : Bool) : Keeps D R (do
    let m ← get
    match m.current with
    | none => pure ()
    | some latest =>
      if latest.callId ≠ callId ∨ latest.isTerminal then pure ()
      else setSession latest (.speaker enabled)) := by
  intro Q m o hi hQ
  refine Program.holds_get_bind ?_
  split
  · exact hQ _ _ _ hi
  · rename_i latest hlatest
    split
    · exact hQ _ _ _ hi
    · exact hQ _ _ _ (h.update hi hlatest rfl)

theorem keeps_requestSpeaker (callId : Text) (enabled : Bool) : Keeps D R (requestSpeaker callId enabled) :=
  Program.preserves_get.bind fun _ => ((h.keeps_on _ rfl).bind fun _ =>
    ((h.keeps_on _ rfl).bind fun _ => Program.preserves_pure _).whenever.bind fun _ =>
      h.keeps_setSpeaker callId enabled).whenever

theorem keeps_toggleSpeaker : Keeps D R toggleSpeaker := by
  refine Program.preserves_get.bind fun m => ?_
  split
  · exact Program.preserves_pure _
  · split
    · exact Program.preserves_pure _
    · exact h.keeps_requestSpeaker _ _

theorem keeps_routeVideoToSpeakerOnce (session : CallSession) : Keeps D R (routeVideoToSpeakerOnce session) := by
  refine Program.preserves_get.bind fun m => ?_
  split
  · exact Program.preserves_pure _
  · exact (h.keeps_modify fun _ => by rfl).bind fun _ => (h.keeps_on _ rfl).bind fun _ => h.keeps_requestSpeaker _ _

theorem keeps_startRingTimeout : Keeps D R startRingTimeout := h.keeps_modify fun _ => by rfl

theorem keeps_handleMediaState (state : MediaConnectionState) : Keeps D R (handleMediaState state) := by
  intro Q m o hi hQ
  refine Program.holds_get_bind ?_
  split
  · exact hQ _ _ _ hi
  · rename_i session hsession
    split
    · exact hQ _ _ _ hi
    · rename_i hlive
      have hlive : false = session.isTerminal := (Bool.not_eq_true _ ▸ hlive).symm
      cases state with
      | connected =>
        refine Program.holds_modify_bind ?_
        exact h.update_holds hQ (h.core (by rfl) hi) hsession hlive
          (h.keeps_routeVideoToSpeakerOnce session)
      | disconnected =>
        refine HoldsBeside.whenever (fun _ => ?_) fun _ => hQ _ _ _ hi
        exact h.update_holds hQ hi hsession hlive (h.keeps_modify fun _ => by rfl)
      | failed => exact h.finish (by rfl) _ _ Q m o hi hQ
      | closed => exact (h.finish (by rfl) _ _).whenever Q m o hi hQ
      | newConnection => exact hQ _ _ _ hi
      | connecting => exact hQ _ _ _ hi

theorem keeps_handleGroupPeerState (peerId : Text) (state : MediaConnectionState) :
    Keeps D R (handleGroupPeerState peerId state) := by
  intro Q m o hi hQ
  refine Program.holds_get_bind ?_
  split
  · exact hQ _ _ _ hi
  · rename_i session hsession
    split
    · exact hQ _ _ _ hi
    · rename_i hguard
      have hlive : session.isTerminal = false := by
        by_contra hne
        exact hguard (.inr (.inl (by simpa using hne)))
      have hrest : Keeps D R (whenever (state = .connected ∧ session.state ≠ .active)
        (routeVideoToSpeakerOnce session)) :=
        (h.keeps_routeVideoToSpeakerOnce session).whenever
      have hstep : ∀ m', m'.core = m.core → (setSession session (peerChange peerId state m.now) >>= fun _ =>
          whenever (state = .connected ∧ session.state ≠ .active)
            (routeVideoToSpeakerOnce session)).HoldsBeside (tasks D) R
          Q m' o := fun m' hm' =>
        h.update_holds hQ (h.core hm' hi) ((congrArg Core.current hm').trans hsession)
          (peerChange_isTerminal hlive peerId state m.now) hrest
      refine HoldsBeside.bind (HoldsBeside.whenever (fun _ => ?_) fun _ => hstep m rfl)
      exact hstep _ rfl

/-! ## Group calls -/

theorem keeps_replayGroupCandidates (peerId : Text) : ∀ signals, Keeps D R (replayGroupCandidates peerId signals)
  | [] => Program.preserves_pure _
  | signal :: rest => by
    refine (h.keeps_on _ rfl).attempt.bind fun result => ?_
    cases result with
    | ok a => exact keeps_replayGroupCandidates peerId rest
    | error e => exact (h.keeps_modify fun _ => by rfl).bind fun _ => keeps_replayGroupCandidates peerId rest

theorem keeps_replayGroupIce (peerId : Text) : Keeps D R (replayGroupIce peerId) :=
  Program.preserves_get.bind fun _ => (h.keeps_modify fun _ => by rfl).bind fun _ =>
    h.keeps_replayGroupCandidates peerId _

theorem keeps_negotiate {first : Op} {second : Answer → Op} (hfirst : first.isTurn = false)
    (hsecond : ∀ a, (second a).isTurn = false) (peerId : Text) : Keeps D R (do
      let reply ← on first
      let sent ← on (second reply)
      if sent.yes then replayGroupIce peerId else fail) := by
  refine (h.keeps_on _ hfirst).bind fun reply => (h.keeps_on _ (hsecond reply)).bind fun sent => ?_
  split
  · exact h.keeps_replayGroupIce peerId
  · exact Program.preserves_throw _

theorem keeps_offerToGroupPeer (peerId : Text) : Keeps D R (offerToGroupPeer D peerId) := by
  refine Program.preserves_get.bind fun m => ?_
  split
  · exact Program.preserves_pure _
  · split
    · exact Program.preserves_pure _
    · exact (h.keeps_modify fun _ => by rfl).bind fun _ => h.keeps_negotiate rfl (fun _ => rfl) peerId

theorem keeps_acceptGroupPeerOffer (peerId offerSdp : Text) : Keeps D R (acceptGroupPeerOffer D peerId offerSdp) := by
  refine Program.preserves_get.bind fun m => ?_
  split
  · exact Program.preserves_pure _
  · split
    · exact Program.preserves_pure _
    · exact (h.keeps_modify fun _ => by rfl).bind fun _ => h.keeps_negotiate rfl (fun _ => rfl) peerId

theorem keeps_announcePair (memberId peerId : Text) : Keeps D R (announcePair memberId peerId) := by
  refine (h.keeps_on _ rfl).bind fun first => ?_
  split
  · exact Program.preserves_throw _
  · refine (h.keeps_on _ rfl).bind fun second => ?_
    split
    · exact Program.preserves_throw _
    · exact Program.preserves_pure _

theorem keeps_announceMember (memberId : Text) : ∀ peers, Keeps D R (announceMember memberId peers)
  | [] => Program.preserves_pure _
  | peerId :: rest => (h.keeps_announcePair memberId peerId).whenever.bind fun _ => keeps_announceMember memberId rest

theorem keeps_connectNewGroupMember (memberId : Text) : Keeps D R (connectNewGroupMember D memberId) := by
  refine Program.preserves_get.bind fun m => ?_
  split
  · exact Program.preserves_pure _
  · split
    · exact Program.preserves_pure _
    · refine (h.keeps_modify fun _ => by rfl).bind fun _ =>
        (h.keeps_awaited (h.keeps_rotateMediaKey _)).bind fun rotated => ?_
      split
      · exact Program.preserves_throw _
      · exact Program.preserves_get.bind fun _ => (h.keeps_announceMember memberId _).bind fun _ =>
          h.keeps_offerToGroupPeer memberId

theorem keeps_rotateOrFail (recipients : List Text) : Keeps D R (do
    let rotated ← awaited (rotateMediaKey D recipients)
    whenever (¬ rotated) (Calls.finish .failed .hangup true)) :=
  (h.keeps_awaited (h.keeps_rotateMediaKey recipients)).bind fun _ => (h.finish (by rfl) _ _).whenever

theorem keeps_removeGroupPeer (peerId : Text) : Keeps D R (removeGroupPeer D peerId) := by
  intro Q m o hi hQ
  refine Program.holds_get_bind ?_
  split
  · exact hQ _ _ _ hi
  · rename_i session _
    split
    · exact hQ _ _ _ hi
    · refine Program.holds_modify_bind (h.await_holds hQ (h.core (by rfl) hi) rfl rfl fun a m' o' hi' ha => ?_)
      refine Program.holds_modify_bind (Program.holds_modify_bind ?_)
      have hrest : Keeps D R (if session.peerIds.filter (· ≠ peerId) = [] then Calls.finish .ended .hangup false
          else do
            let m ← get
            whenever m.isGroupCoordinator do
              let rotated ← awaited (rotateMediaKey D (session.peerIds.filter (· ≠ peerId)))
              whenever (¬ rotated) (Calls.finish .failed .hangup true)) := by
        split
        · exact h.finish (by rfl) _ _
        · exact Program.preserves_get.bind fun _ => (h.keeps_rotateOrFail _).whenever
      exact hrest Q _ _ (h.written hi' ha rfl rfl rfl nofun rfl) hQ

theorem keeps_handleGroupMemberLeft (signal : GroupCallMemberLeftSignal) :
    Keeps D R (handleGroupMemberLeft D signal) :=
  Program.preserves_get.bind fun _ => (h.keeps_removeGroupPeer _).whenever

theorem keeps_handleCoordinatorChanged (signal : GroupCallCoordinatorChangedSignal) :
    Keeps D R (handleCoordinatorChanged D signal) := by
  intro Q m o hi hQ
  refine Program.holds_get_bind ?_
  split
  · exact hQ _ _ _ hi
  · rename_i session _
    split
    · exact hQ _ _ _ hi
    · refine Program.holds_modify_bind (h.await_holds hQ (h.core (by rfl) hi) rfl rfl fun a m' o' hi' ha => ?_)
      refine Program.holds_modify_bind (Program.holds_get_bind ?_)
      have hi'' := h.written hi' ha rfl rfl rfl nofun rfl
      split
      · exact h.keeps_rotateOrFail _ Q _ _ hi'' hQ
      · split
        · exact hQ _ _ _ hi''
        · refine Program.holds_modify_bind ?_
          exact ((h.keeps_applyIncomingMediaKeyNow _ _).bind fun _ => Program.preserves_pure ()) Q _ _
            (h.core (by rfl) hi'') hQ

theorem keeps_handleGroupError (signal : GroupCallErrorSignal) : Keeps D R (handleGroupError signal) :=
  Program.preserves_get.bind fun _ => (h.finish (by rfl) _ _).whenever

theorem keeps_handleGroupStatus (signal : GroupCallStatusResponseSignal) : Keeps D R (handleGroupStatus signal) :=
  Program.preserves_get.bind fun _ => (h.finish (by rfl) _ _).whenever

theorem keeps_admit (signal : GroupCallJoinRequestSignal) : Keeps D R (do
    let m ← get
    if m.mediaEncryptionRequired ∧ ¬ signal.mediaE2ee then fail
    else connectNewGroupMember D signal.senderId) := by
  refine Program.preserves_get.bind fun m => ?_
  split
  · exact Program.preserves_throw _
  · exact h.keeps_connectNewGroupMember _

theorem keeps_handleGroupJoinRequest (signal : GroupCallJoinRequestSignal) :
    Keeps D R (handleGroupJoinRequest D signal) := by
  intro Q m o hi hQ
  refine Program.holds_get_bind ?_
  split
  · exact hQ _ _ _ hi
  · rename_i session hsession
    split
    · exact hQ _ _ _ hi
    · -- the rest, if the change that the list needs keeps the invariant
      have hrest : ∀ (valid : Answer) m' o', R.Inv m' o' → (valid.yes = true → ¬ signal.senderId ∈ session.peerIds →
          hasRoom D session = true →
          R.Inv (m'.setSession ((Change.addPeer signal.senderId).apply session) (some [.addPeer signal.senderId])) o') →
          (if ¬ valid.yes ∨ (¬ signal.senderId ∈ session.peerIds ∧ ¬ hasRoom D session) then pure ()
            else do
              whenever (¬ signal.senderId ∈ session.peerIds) (setSession session (.addPeer signal.senderId))
              let m ← get
              if m.mediaEncryptionRequired ∧ ¬ signal.mediaE2ee then fail
              else connectNewGroupMember D signal.senderId : Call Unit).HoldsBeside (tasks D) R Q m' o' := by
        intro valid m' o' hi' hadd
        split
        · exact hQ _ _ _ hi'
        · rename_i hguard
          rw [not_or] at hguard
          refine HoldsBeside.bind (HoldsBeside.whenever (fun hnot => ?_) fun _ => h.keeps_admit signal Q m' o' hi' hQ)
          refine h.keeps_admit signal Q _ _ (hadd (by simpa using hguard.1) hnot ?_) hQ
          by_contra hroom
          exact hguard.2 ⟨hnot, hroom⟩
      unfold validateJoin
      split
      · refine h.await_holds hQ hi rfl rfl fun a m' o' hi' ha => ?_
        refine hrest a m' o' ((h.wait rfl rfl).2 hi') fun hyes hnot hroom => ?_
        exact h.written hi' ha rfl rfl
          (by simp only [hyes, hnot, hroom, not_false_eq_true, and_self, if_true]) nofun rfl
      · exact hrest {} m o hi fun _ _ _ => h.update hi hsession rfl

theorem keeps_handleGroupMemberJoined (signal : GroupCallMemberJoinedSignal) :
    Keeps D R (handleGroupMemberJoined D signal) := by
  intro Q m o hi hQ
  refine Program.holds_get_bind ?_
  split
  · exact hQ _ _ _ hi
  · rename_i session hsession
    split
    · exact hQ _ _ _ hi
    · split
      · exact hQ _ _ _ hi
      · refine h.update_if_holds hQ hi hsession rfl (Program.preserves_get.bind fun m => ?_)
        split
        · exact Program.preserves_pure _
        · refine (h.keeps_modify fun _ => by rfl).bind fun _ => Program.Preserves.whenever ?_
          split
          · exact (h.keeps_modify fun _ => by rfl).bind fun _ => h.keeps_acceptGroupPeerOffer _ _
          · exact (h.keeps_offerToGroupPeer _).whenever

theorem keeps_refuseGroupInvite (signal : GroupCallInviteSignal) (localGroupId : Text) :
    Keeps D R (refuseGroupInvite signal localGroupId) := by
  have hbusy : Keeps D R (sayBusy signal) :=
    (h.keeps_control _ _ _ _).bind fun _ => (h.keeps_control _ _ _ _).bind fun _ => Program.preserves_pure _
  have hrecord : Keeps D R (recordBusyGroupCall signal localGroupId) :=
    (h.keeps_on _ rfl).bind fun _ => (h.keeps_on _ rfl).bind fun _ => Program.preserves_pure _
  exact (hbusy.catching (Program.preserves_pure _)).bind fun _ => hrecord.catching (Program.preserves_pure _)

theorem keeps_takeStagedKey (signal : GroupCallInviteSignal) : Keeps D R (takeStagedKey D signal) := by
  refine Program.preserves_get.bind fun m => (h.keeps_modify fun _ => by rfl).bind fun _ => ?_
  split
  · exact (h.keeps_modify fun _ => by rfl).whenever.bind fun _ => Program.preserves_pure _
  · split
    · exact (h.keeps_awaited (h.keeps_applyIncomingMediaKeyNow _ _)).bind fun _ => Program.preserves_pure _
    · exact (h.keeps_modify fun _ => by rfl).bind fun _ => Program.preserves_pure _

theorem keeps_reportIncoming (callId : Text) : Keeps D R (do
    let _ ← on (.reportIncoming callId)
    startRingTimeout) :=
  (h.keeps_on _ rfl).bind fun _ => h.keeps_startRingTimeout

theorem beginInvite_holds {Q : Except Unit Unit → Manager → List Wait → Prop} {m : Manager} {o : List Wait}
    (hi : R.Inv m o) (hlive : m.hasLiveCall = false) (hQ : ∀ r m o, R.Inv m o → Q r m o)
    (signal : GroupCallInviteSignal) (localGroupId : Text) :
    (beginInvite D signal localGroupId).HoldsBeside (tasks D) R Q m o := by
  refine Program.holds_modify_bind (h.await_holds hQ (h.setUp signal hi hlive) rfl rfl fun a m' o' hi' ha => ?_)
  refine Program.holds_get_bind (Program.holds_modify_bind ?_)
  have hrest : Keeps D R (do
      whenever m'.lateJoining (modify fun m => m.dropPendingMediaKeysForCall signal.callId)
      let applied ← takeStagedKey D signal
      let m ← get
      whenever (¬ (applied ∧ m.current.any (·.isTerminal))) do
        let _ ← on (.reportIncoming signal.callId)
        startRingTimeout) :=
    (h.keeps_modify fun _ => by rfl).whenever.bind fun _ => (h.keeps_takeStagedKey signal).bind fun _ =>
      Program.preserves_get.bind fun _ => (h.keeps_reportIncoming _).whenever
  exact hrest Q _ _ (h.invited hi' ha rfl rfl rfl rfl rfl) hQ

theorem keeps_validateInviter (localGroupId senderId : Text) : Keeps D R (validateInviter D localGroupId senderId) := by
  unfold validateInviter
  split
  · exact h.keeps_on _ rfl
  · exact Program.preserves_pure _

theorem keeps_handleGroupInvite (signal : GroupCallInviteSignal) : Keeps D R (handleGroupInvite D signal) := by
  refine Program.preserves_get.bind fun m => ?_
  split
  · exact Program.preserves_pure _
  · split
    · exact (h.keeps_on _ rfl).catching (Program.preserves_pure _)
    · refine (h.keeps_on _ rfl).bind fun localGroup => (h.keeps_validateInviter _ _).bind fun valid => ?_
      split
      · exact (h.keeps_control _ _ _ _).bind fun _ => Program.preserves_pure _
      · intro Q m o hi hQ
        refine Program.holds_get_bind ?_
        split
        · exact h.keeps_refuseGroupInvite _ _ Q m o hi hQ
        · rename_i hlive
          exact h.beginInvite_holds hi (by simpa using hlive) hQ signal localGroup.text

theorem keeps_sendInvites (mediaE2ee : Bool) : ∀ peers, Keeps D R (sendInvites mediaE2ee peers)
  | [] => Program.preserves_pure _
  | _ :: rest =>
    (h.keeps_on _ rfl).bind fun _ => (keeps_sendInvites mediaE2ee rest).bind fun _ => Program.preserves_pure _

theorem keeps_ringGroup (callId : Text) : Keeps D R (do
    let m ← get
    match m.current with
    | none => pure ()
    | some session =>
      whenever (m.isCurrentGroupCall callId ∧ session.state = .initiating) do
        setSession session (.state .ringing)
        startRingTimeout) := by
  intro Q m o hi hQ
  refine Program.holds_get_bind ?_
  split
  · exact hQ _ _ _ hi
  · rename_i session hsession
    refine HoldsBeside.whenever (fun hc => ?_) fun _ => hQ _ _ _ hi
    refine h.update_holds hQ hi hsession ?_ h.keeps_startRingTimeout
    show false = session.isTerminal
    rw [CallSession.isTerminal, hc.2]
    rfl

theorem keeps_inviteGroup (callId : Text) (recipients : List Text) : Keeps D R (inviteGroup D callId recipients) := by
  refine (h.keeps_awaited (h.keeps_prepareMediaEncryption _ _)).bind fun mediaKey =>
    (h.keeps_modify fun _ => by rfl).bind fun _ => Program.preserves_get.bind fun m => Program.Preserves.whenever ?_
  refine (h.keeps_modify fun _ => by rfl).bind fun _ => (h.keeps_sendInvites _ _).bind fun allSent => ?_
  split
  · exact Program.preserves_throw _
  · exact h.keeps_ringGroup callId

theorem keeps_setUpGroupCall (callId groupId : Text) (recipients : List Text) :
    Keeps D R (setUpGroupCall D callId groupId recipients) := by
  refine (h.keeps_on _ rfl).bind fun _ => keeps_require (h.keeps_on _ rfl) ?_
  refine (h.keeps_on _ rfl).bind fun token => Program.preserves_get.bind fun m => Program.Preserves.whenever ?_
  refine (h.keeps_modify fun _ => by rfl).bind fun _ => keeps_require (h.keeps_on _ rfl) ?_
  refine (h.keeps_on _ rfl).bind fun _ => (h.keeps_on _ rfl).bind fun _ => Program.preserves_get.bind fun m => ?_
  split
  · exact h.keeps_inviteGroup callId recipients
  · exact (keeps_unit (h.keeps_on _ rfl)).whenever

theorem initiateGroupCall_holds {Q : Except Unit Unit → Manager → List Wait → Prop} {m : Manager} {o : List Wait}
    {groupId groupName : Text} {peerIds : List Text} {callType : CallType} (hi : R.Inv m o)
    (hs : R.Starts (.initiateGroupCall groupId groupName peerIds callType) m o) (hQ : ∀ r m o, R.Inv m o → Q r m o) :
    (initiateGroupCall D groupId groupName peerIds callType).HoldsBeside (tasks D) R Q m o := by
  have hsecondary := h.secondary hi
  refine Program.holds_get_bind ?_
  dsimp only
  split
  · exact hQ _ _ _ hi
  · rename_i hguard
    have hlive : m.hasLiveCall = false := by
      by_contra hne
      exact hguard (.inl (by simpa using hne))
    refine Program.holds_modify_bind (holds_draw_bind (Program.holds_modify_bind ?_))
    refine (h.keeps_setUpGroupCall _ groupId _).catching (h.finish (by rfl) _ _) Q _ _ ?_ hQ
    exact h.begun hi hlive (h.groupInitiated hs) rfl rfl hsecondary rfl rfl rfl

theorem keeps_acceptPendingOffers : ∀ offers, Keeps D R (acceptPendingOffers D offers)
  | [] => Program.preserves_pure _
  | entry :: rest => by
    refine Program.Preserves.bind ?_ fun _ => keeps_acceptPendingOffers rest
    refine Program.preserves_get.bind fun m => ?_
    split
    · exact Program.preserves_throw _
    · split
      · exact h.keeps_awaited (h.keeps_acceptGroupPeerOffer _ _)
      · exact h.keeps_modify fun _ => by rfl

theorem keeps_offerToPeers : ∀ peers, Keeps D R (offerToPeers D peers)
  | [] => Program.preserves_pure _
  | peerId :: rest =>
    (h.keeps_awaited (h.keeps_offerToGroupPeer peerId)).whenever.bind fun _ => keeps_offerToPeers rest

theorem keeps_connectJoinedPeers : Keeps D R (connectJoinedPeers D) :=
  Program.preserves_get.bind fun _ => (h.keeps_modify fun _ => by rfl).bind fun _ =>
    (h.keeps_acceptPendingOffers _).bind fun _ => Program.preserves_get.bind fun _ => h.keeps_offerToPeers _

theorem keeps_requestLateJoin (session : CallSession) : Keeps D R (requestLateJoin D session) := by
  refine Program.preserves_get.bind fun m => Program.Preserves.bind (Program.Preserves.whenever ?_) fun _ => ?_
  · exact (h.keeps_generate _ _).bind fun _ => keeps_unit (h.keeps_on _ rfl)
  · exact Program.preserves_get.bind fun m => keeps_require (h.keeps_on _ rfl) (Program.preserves_pure _)

theorem keeps_enableRequiredKey : Keeps D R enableRequiredKey := by
  refine Program.preserves_get.bind fun m => Program.Preserves.whenever ?_
  split
  · exact Program.preserves_throw _
  · exact keeps_unit (h.keeps_on _ rfl)

theorem keeps_completeGroupAccept (session : CallSession) : Keeps D R (completeGroupAccept D session) := by
  have hsend : Keeps D R (sendCapability session) := by
    refine Program.preserves_get.bind fun m => ?_
    split
    · exact Program.preserves_pure _
    · exact h.keeps_on _ rfl
  exact h.keeps_enableRequiredKey.bind fun _ => (h.keeps_modify fun _ => by rfl).bind fun _ =>
    keeps_require hsend (Program.preserves_get.bind fun _ => (h.keeps_control _ _ _ _).bind fun _ =>
      h.keeps_queue h.keeps_connectJoinedPeers)

theorem keeps_setUpGroupAccept (session : CallSession) : Keeps D R (setUpGroupAccept D session) := by
  refine keeps_require (h.keeps_on _ rfl) ((h.keeps_on _ rfl).bind fun _ => (h.keeps_on _ rfl).bind fun _ =>
    Program.preserves_get.bind fun m => ?_)
  split
  · exact (keeps_unit (h.keeps_on _ rfl)).whenever
  · exact (h.keeps_requestLateJoin session).whenever.bind fun _ => Program.preserves_get.bind fun m =>
      (keeps_unit (h.keeps_on _ rfl)).whenever.bind fun _ => Program.preserves_get.bind fun _ =>
        (h.keeps_completeGroupAccept session).whenever

/-! ## Direct calls -/

theorem keeps_addIceCandidate (signal : IceCandidateSignal) (rest : List IceCandidateSignal) :
    Keeps D R (addIceCandidate signal rest) :=
  Program.Preserves.bind (Program.preserves_wait fun _ _ => h.wait rfl rfl) fun _ => h.keeps_modify fun _ => by rfl

theorem keeps_replayCandidates : ∀ signals, Keeps D R (replayCandidates signals)
  | [] => Program.preserves_pure _
  | signal :: rest => by
    refine (h.keeps_addIceCandidate signal rest).attempt.bind fun result => ?_
    cases result with
    | ok a => exact keeps_replayCandidates rest
    | error e => exact (h.keeps_modify fun _ => by rfl).bind fun _ => keeps_replayCandidates rest

theorem keeps_replayPendingIce : Keeps D R replayPendingIce :=
  Program.preserves_get.bind fun _ => (h.keeps_modify fun _ => by rfl).bind fun _ => h.keeps_replayCandidates _

theorem keeps_offerCall (session : CallSession) : Keeps D R (offerCall session) := by
  refine (h.keeps_on _ rfl).bind fun _ => keeps_require (h.keeps_on _ rfl) ((h.keeps_on _ rfl).bind fun _ =>
    (h.keeps_on _ rfl).bind fun offer => ?_)
  intro Q m o hi hQ
  refine h.await_holds hQ hi rfl rfl fun a m' o' hi' ha => ?_
  split
  · exact hQ _ _ _ ((h.wait rfl rfl).2 hi')
  · rename_i hyes
    have hyes : a.yes = true := by simpa using hyes
    refine Program.holds_modify_bind (h.keeps_startRingTimeout Q _ _ ?_ hQ)
    exact h.written hi' ha rfl rfl (by simp only [hyes, if_true]) nofun rfl

theorem initiateCall_holds {Q : Except Unit Unit → Manager → List Wait → Prop} {m : Manager} {o : List Wait}
    {peerId peerName : Text} {callType : CallType} (hi : R.Inv m o)
    (hs : R.Starts (.initiateCall peerId peerName callType) m o) (hQ : ∀ r m o, R.Inv m o → Q r m o) :
    (initiateCall D peerId peerName callType).HoldsBeside (tasks D) R Q m o := by
  have hsecondary := h.secondary hi
  refine Program.holds_get_bind ?_
  split
  · exact hQ _ _ _ hi
  · rename_i hlive
    refine Program.holds_modify_bind (holds_draw_bind (Program.holds_modify_bind ?_))
    refine (h.keeps_offerCall _).catching (h.finish (by rfl) _ _) Q _ _ ?_ hQ
    exact h.begun hi (by simpa using hlive) (h.initiated hs) rfl rfl hsecondary rfl rfl rfl

theorem keeps_answerCall (session : CallSession) (offer : Text) : Keeps D R (answerCall session offer) :=
  (h.keeps_control _ _ _ _).bind fun _ => (h.keeps_on _ rfl).bind fun _ =>
    (h.keeps_modify fun _ => by rfl).bind fun _ =>
    (h.keeps_on _ rfl).bind fun _ => keeps_require (h.keeps_on _ rfl) ((h.keeps_modify fun _ => by rfl).bind fun _ =>
      h.keeps_replayPendingIce)

theorem answerNative_holds {Q : Except Unit Unit → Manager → List Wait → Prop} {m : Manager} {o : List Wait}
    {session : CallSession} (hi : R.Inv m o) (hfail : ∀ m o, R.Inv m o → Q (.error ()) m o)
    (hanswer : ∀ w a m o, R.Inv m (w :: o) → R.Admitted w (some a) m o → w.ending = none → w.op.isTurn = false →
      w.writes a = some (session, .state .connecting) → Q (.ok ()) m o) (fromNative : Bool) :
    (answerNative session fromNative).HoldsBeside (tasks D) R Q m o := by
  cases fromNative with
  | true =>
    refine Program.holds_wait_bind ((h.wait rfl rfl).1 hi) (fun m' o' hi' _ _ => hfail m' o' ((h.wait rfl rfl).2 hi'))
      fun a m' o' hi' _ ha => ?_
    exact hanswer _ a m' o' hi' ha rfl rfl rfl
  | false =>
    refine Program.holds_wait_bind ((h.wait rfl rfl).1 hi) (fun m' o' hi' _ _ => hfail m' o' ((h.wait rfl rfl).2 hi'))
      fun a m' o' hi' _ _ => ?_
    have hi' := (h.wait rfl rfl).2 hi'
    refine Program.holds_wait_bind ((h.wait rfl rfl).1 hi') (fun m o hi _ _ => hfail m o ((h.wait rfl rfl).2 hi))
      fun a m o hi _ ha => ?_
    exact hanswer _ a m o hi ha rfl rfl rfl

theorem keeps_acceptCallNow (fromNative : Bool) : Keeps D R (acceptCallNow D fromNative) := by
  intro Q m o hi hQ
  refine Program.holds_get_bind ?_
  split
  · exact hQ _ _ _ hi
  · rename_i session _
    split
    · exact hQ _ _ _ hi
    · refine HoldsBeside.bind (HoldsBeside.attempt ?_)
      refine h.answerNative_holds hi (fun m o hi => ?_) (fun w a m' o' hi' ha he ht hw => ?_) fromNative
      · exact hQ _ _ _ hi
      refine Program.holds_get_bind ?_
      split
      · exact hQ _ _ _ ((h.wait he ht).2 hi')
      · rename_i hguard
        rw [not_or] at hguard
        have hlive : m'.current.any (fun x => x.callId = session.callId && !x.isTerminal) = true := by
          obtain ⟨x, hx, hid⟩ := Option.map_eq_some_iff.1 (not_not.1 hguard.1)
          have hx' := hguard.2
          rw [hx] at hx' ⊢
          simpa [hid] using hx'
        have hwritten : ∀ m'' : Manager, m''.core = m'.core →
            R.Inv (m''.setSession ((Change.state .connecting).apply session) (some [.state .connecting])) o' :=
          fun _ hm'' => h.written hi' ha he ht hw (fun _ => hlive) hm''
        split
        · unfold acceptGroupCall
          split
          · exact hQ _ _ _ ((h.wait he ht).2 hi')
          · refine Program.holds_modify_bind (Program.holds_modify_bind ?_)
            have hrest : Keeps D R (do
                startRingTimeout
                Program.catching (setUpGroupAccept D session) (Calls.finish .failed .hangup true)) :=
              h.keeps_startRingTimeout.bind fun _ => (h.keeps_setUpGroupAccept session).catching (h.finish (by rfl) _ _)
            exact hrest Q _ _ (hwritten _ rfl) hQ
        · refine Program.holds_get_bind ?_
          split
          · exact hQ _ _ _ ((h.wait he ht).2 hi')
          · refine Program.holds_modify_bind (Program.holds_modify_bind ?_)
            exact (h.keeps_answerCall session _).catching (h.finish (by rfl) _ _) Q _ _ (hwritten _ rfl) hQ

theorem keeps_acceptCallOnce (fromNative : Bool) : Keeps D R (acceptCallOnce D fromNative) := by
  refine Program.preserves_get.bind fun m => ?_
  split
  · exact (h.keeps_on _ rfl).bind fun _ => Program.preserves_pure _
  · refine (h.keeps_modify fun _ => by rfl).bind fun _ => (h.keeps_acceptCallNow fromNative).attempt.bind fun result =>
      (h.keeps_on _ rfl).bind fun _ => (h.keeps_modify fun _ => by rfl).bind fun _ => ?_
    cases result with
    | ok a => exact Program.preserves_pure _
    | error e => exact Program.preserves_throw _

theorem keeps_acceptCall : Keeps D R (acceptCall D) := h.keeps_acceptCallOnce false

theorem keeps_acceptSecondaryCall : Keeps D R (acceptSecondaryCall D) := by
  intro Q m o hi hQ
  refine Program.holds_get_bind ?_
  rw [h.secondary hi]
  exact hQ _ _ _ hi

theorem keeps_rejectSecondaryCall : Keeps D R rejectSecondaryCall := by
  intro Q m o hi hQ
  refine Program.holds_get_bind ?_
  rw [h.secondary hi]
  exact hQ _ _ _ hi

theorem keeps_joinLate (active : ActiveGroupCall) : Keeps D R (joinLate D active) := by
  have hjoin : Keeps D R (inviteAndAccept D active) :=
    (h.keeps_awaited (h.keeps_handleGroupInvite _)).bind fun _ => h.keeps_awaited h.keeps_acceptCall
  refine (h.keeps_modify fun _ => by rfl).bind fun _ => hjoin.attempt.bind fun result =>
    (h.keeps_modify fun _ => by rfl).bind fun _ => ?_
  cases result with
  | ok a => exact Program.preserves_pure _
  | error e => exact Program.preserves_throw _

theorem keeps_joinActiveGroupCall (expected : ActiveGroupCall) : Keeps D R (joinActiveGroupCall D expected) := by
  refine Program.preserves_get.bind fun m => ?_
  split
  · exact h.keeps_acceptCall.whenever
  · refine (h.keeps_on _ rfl).bind fun answer => Program.preserves_get.bind fun m => ?_
    split
    · exact Program.preserves_pure _
    · exact (h.keeps_joinLate _).whenever

/-! ## Signals -/

theorem keeps_handleGroupOffer (session : CallSession) (signal : SdpOfferSignal) :
    Keeps D R (handleGroupOffer D session signal) := by
  refine Program.preserves_get.bind fun m => Program.Preserves.whenever ?_
  split
  · exact (h.keeps_modify fun _ => by rfl).whenever
  · exact h.keeps_acceptGroupPeerOffer _ _

theorem keeps_refuseOffer (incoming : CallSession) : Keeps D R (refuseOffer incoming) :=
  ((h.keeps_control _ _ _ _).catching (Program.preserves_pure _)).bind fun _ =>
    (h.keeps_on _ rfl).catching (Program.preserves_pure _)

theorem keeps_ringDirectCall (current : Option Text) (signal : SdpOfferSignal) :
    Keeps D R (ringDirectCall D current signal) := by
  have hid : Keeps D R (incomingCallId D current signal) := by
    refine Program.preserves_get.bind fun m => ?_
    split
    · exact Program.preserves_pure _
    · exact h.keeps_draw.bind fun _ => Program.preserves_pure _
  refine hid.bind fun callId => ?_
  intro Q m o hi hQ
  refine h.await_holds hQ hi rfl rfl fun a m' o' hi' ha => Program.holds_get_bind ?_
  have hi'' := (h.wait rfl rfl).2 hi'
  dsimp only
  split
  · exact h.keeps_refuseOffer _ Q m' o' hi'' hQ
  · rename_i hlive
    have hlive : m'.hasLiveCall = false := by simpa using hlive
    refine Program.holds_modify_bind (Program.holds_modify_bind ?_)
    have hrest : Keeps D R (do
        let _ ← on (.reportIncoming callId)
        let _ ← sendControl plain signal.senderId .ringing false none
        startRingTimeout) :=
      (h.keeps_on _ rfl).bind fun _ => (h.keeps_control _ _ _ _).bind fun _ => h.keeps_startRingTimeout
    have hsecondary := h.secondary hi''
    refine hrest Q _ _ ?_ hQ
    exact h.begun hi'' hlive (h.beginning ha rfl hlive) rfl rfl hsecondary rfl rfl rfl

theorem keeps_isGroupPeer (current : Option CallSession) (senderId : Text) :
    Keeps D R (isGroupPeer D current senderId) := by
  unfold isGroupPeer
  split
  · exact Program.preserves_pure _
  · split
    · exact Program.preserves_pure _
    · split
      · exact Program.preserves_pure _
      · split
        · exact (h.keeps_on _ rfl).bind fun _ => Program.preserves_pure _
        · exact Program.preserves_pure _

theorem keeps_handleOffer (signal : SdpOfferSignal) : Keeps D R (handleOffer D signal) := by
  refine Program.preserves_get.bind fun m => ?_
  split
  · exact Program.preserves_pure _
  · refine (h.keeps_isGroupPeer _ _).bind fun groupPeer => ?_
    split
    · exact h.keeps_handleGroupOffer _ _
    · split
      · exact (h.keeps_on _ rfl).catching (Program.preserves_pure _)
      · exact h.keeps_ringDirectCall _ _

theorem keeps_handleGroupAnswer (session : CallSession) (signal : SdpAnswerSignal) :
    Keeps D R (handleGroupAnswer session signal) :=
  Program.preserves_get.bind fun _ => (((h.keeps_on _ rfl).bind fun _ =>
    h.keeps_replayGroupIce _).catching (h.finish (by rfl) _ _)).whenever

theorem handleAnswer_holds {Q : Except Unit Unit → Manager → List Wait → Prop} {m : Manager} {o : List Wait}
    {signal : SdpAnswerSignal} (hi : R.Inv m o) (hQ : ∀ r m o, R.Inv m o → Q r m o)
    (hset : ∀ (s : CallSession) (m' : Manager), m.current = some s → s.isGroupCall = false → s.peerId =
      signal.senderId → s.direction = .outgoing →
      m'.core = m.core → R.Inv (m'.setSession ((Change.state .connecting).apply s) (some [.state .connecting])) o) :
    (handleAnswer signal).HoldsBeside (tasks D) R Q m o := by
  refine Program.holds_get_bind ?_
  split
  · exact hQ _ _ _ hi
  · rename_i session hsession
    split
    · exact h.keeps_handleGroupAnswer session signal Q m o hi hQ
    · rename_i hgroup
      refine HoldsBeside.whenever (fun hc => ?_) fun _ => hQ _ _ _ hi
      have happly : Keeps D R (Program.catching (applyDirectAnswer signal) (Calls.finish .failed .hangup true)) :=
        ((h.keeps_modify fun _ => by rfl).bind fun _ => (h.keeps_on _ rfl).bind fun _ =>
          h.keeps_replayPendingIce).catching (h.finish (by rfl) _ _)
      refine Program.holds_modify_bind (Program.holds_modify_bind (happly Q _ _ ?_ hQ))
      exact hset session _ hsession (by simpa using hgroup) hc.1 hc.2 rfl

theorem keeps_handleIce (signal : IceCandidateSignal) : Keeps D R (handleIce signal) := by
  refine Program.preserves_get.bind fun m => ?_
  split
  · exact Program.preserves_pure _
  · split
    · refine Program.preserves_get.bind fun m => Program.Preserves.whenever ?_
      refine (h.keeps_on _ rfl).catching (h.keeps_modify fun m => ?_)
      unfold Manager.bufferGroupIce
      dsimp only
      split <;> rfl
    · unfold handleDirectIce
      split
      · exact Program.preserves_pure _
      · split
        · exact h.keeps_modify fun _ => by rfl
        · exact (h.keeps_addIceCandidate signal []).catching (h.keeps_modify fun _ => by rfl)

theorem keeps_handleGroupControl (session : CallSession) (signal : CallControlSignal) :
    Keeps D R (handleGroupControl D session signal) := by
  refine Program.preserves_get.bind fun m => ?_
  split
  · exact Program.preserves_pure _
  · split
    · exact (h.keeps_connectNewGroupMember _).whenever
    · exact h.keeps_removeGroupPeer _
    · exact h.keeps_removeGroupPeer _
    · split
      · exact h.finish (by rfl) _ _
      · exact h.keeps_removeGroupPeer _
    · exact Program.preserves_pure _

theorem keeps_handleControl (signal : CallControlSignal) : Keeps D R (handleControl D signal) := by
  intro Q m o hi hQ
  refine Program.holds_get_bind ?_
  split
  · exact hQ _ _ _ hi
  · rename_i session hsession
    split
    · exact h.keeps_handleGroupControl session signal Q m o hi hQ
    · unfold handleDirectControl
      split
      · exact hQ _ _ _ hi
      · split
        · refine Program.holds_modify_bind (HoldsBeside.whenever (fun hring => ?_) fun _ =>
            hQ _ _ _ (h.core (by rfl) hi))
          refine hQ _ _ _ (h.update (h.core (by rfl) hi) hsession ?_)
          show false = session.isTerminal
          rw [CallSession.isTerminal, hring]
          rfl
        · exact h.finish (by rfl) _ _ Q m o hi hQ
        · exact h.finish (by rfl) _ _ Q m o hi hQ
        · exact h.finish (by rfl) _ _ Q m o hi hQ
        · exact hQ _ _ _ (h.update hi hsession rfl)
        · exact hQ _ _ _ (h.update hi hsession rfl)
        · exact hQ _ _ _ hi

theorem keeps_dispatch (queued : Bool) {operation : Call Unit} (hop : Keeps D R operation) :
    Keeps D R (dispatch queued operation) := by
  unfold dispatch
  split
  · exact h.keeps_queue hop
  · exact hop

theorem keeps_rememberRoute (callId : Text) (type : NativeCallActionType) : Keeps D R (rememberRoute callId type) :=
  (h.keeps_modify fun _ => by rfl).whenever

theorem keeps_handleNativeAction (callId : Text) (type : NativeCallActionType) :
    Keeps D R (handleNativeAction D callId type) := by
  intro Q m o hi hQ
  refine Program.holds_get_bind ?_
  split
  · exact h.keeps_rememberRoute callId type Q m o hi hQ
  · rename_i session hsession
    have hsession : m.current = some session := (Option.filter_eq_some_iff.1 hsession).1
    cases type with
    | answer => exact h.keeps_acceptCallOnce true Q m o hi hQ
    | stop =>
      dsimp only
      split
      · exact h.finish (by rfl) _ _ Q m o hi hQ
      · exact h.finish (by rfl) _ _ Q m o hi hQ
    | mute => exact h.keeps_toggleMute.whenever Q m o hi hQ
    | unmute => exact h.keeps_toggleMute.whenever Q m o hi hQ
    | speakerOn => exact HoldsBeside.whenever (fun _ => hQ _ _ _ (h.update hi hsession rfl)) fun _ => hQ _ _ _ hi
    | speakerOff => exact HoldsBeside.whenever (fun _ => hQ _ _ _ (h.update hi hsession rfl)) fun _ => hQ _ _ _ hi
    | openCall => exact hQ _ _ _ hi

theorem handleSignal_holds {Q : Except Unit Unit → Manager → List Wait → Prop} {m : Manager} {o : List Wait}
    {signal : Signal} (hi : R.Inv m o) (hs : R.Starts (.signal signal) m o) (hQ : ∀ r m o, R.Inv m o → Q r m o) :
    (handleSignal D signal).HoldsBeside (tasks D) R Q m o := by
  refine Program.holds_get_bind ?_
  cases signal with
  | answer signal =>
    dsimp only [dispatch]
    split
    · rename_i hgroup
      refine h.queue_holds hi hQ fun Q' m' o' hi' hkind hQ' => h.handleAnswer_holds hi' hQ' fun s _ hs hdirect => ?_
      obtain ⟨x, hx, hxgroup⟩ := Option.any_eq_true _ _ |>.1 hgroup
      obtain ⟨y, hy, hygroup⟩ := hkind x hx
      rw [hs] at hy
      cases hy
      rw [hygroup, hxgroup] at hdirect
      cases hdirect
    · exact h.handleAnswer_holds hi hQ fun s _ hcurrent => h.answered hi hs hcurrent
  | offer signal => exact h.keeps_dispatch _ (h.keeps_handleOffer signal) Q m o hi hQ
  | ice signal => exact h.keeps_dispatch _ (h.keeps_handleIce signal) Q m o hi hQ
  | control signal => exact h.keeps_dispatch _ (h.keeps_handleControl signal) Q m o hi hQ
  | invite signal => exact h.keeps_queue (h.keeps_handleGroupInvite signal) Q m o hi hQ
  | joinRequest signal => exact h.keeps_queue (h.keeps_handleGroupJoinRequest signal) Q m o hi hQ
  | error signal => exact h.keeps_queue (h.keeps_handleGroupError signal) Q m o hi hQ
  | memberJoined signal => exact h.keeps_queue (h.keeps_handleGroupMemberJoined signal) Q m o hi hQ
  | memberLeft signal => exact h.keeps_queue (h.keeps_handleGroupMemberLeft signal) Q m o hi hQ
  | coordinatorChanged signal => exact h.keeps_queue (h.keeps_handleCoordinatorChanged signal) Q m o hi hQ
  | status signal => exact h.keeps_queue (h.keeps_handleGroupStatus signal) Q m o hi hQ

theorem keeps_onRingTimeout : Keeps D R onRingTimeout := by
  refine Program.preserves_get.bind fun m =>
    Program.Preserves.whenever ((h.keeps_modify fun _ => by rfl).bind fun _ => ?_)
  split
  · exact Program.preserves_pure _
  · split
    · exact Program.preserves_pure _
    · split
      · exact h.finish (by rfl) _ _
      · exact h.finish (by rfl) _ _

theorem keeps_onReconnectTimeout : Keeps D R onReconnectTimeout :=
  Program.preserves_get.bind fun _ => ((h.keeps_modify fun _ => by rfl).bind fun _ => h.finish (by rfl) _ _).whenever

theorem onTerminalTimer_holds {Q : Except Unit Unit → Manager → List Wait → Prop} {m : Manager} {o : List Wait}
    (hi : R.Inv m o) (hs : R.Starts .terminalTimeout m o) (hQ : ∀ r m o, R.Inv m o → Q r m o) :
    onTerminalTimer.HoldsBeside (tasks D) R Q m o := by
  refine Program.holds_get_bind (HoldsBeside.whenever (fun ht => ?_) fun _ => hQ _ _ _ hi)
  exact hQ _ _ _ (h.timer hs hi ht)

theorem program_holds (x : Event) (m : Manager) (o : List Wait) (hi : R.Inv m o) (hs : R.Starts x m o) :
    (program D x).HoldsBeside (tasks D) R (fun _ => R.Inv) m o := by
  have hQ : ∀ (r : Except Unit Unit) m o, R.Inv m o → R.Inv m o := fun _ _ _ hi => hi
  cases x with
  | initiateCall peerId peerName callType => exact h.initiateCall_holds hi hs hQ
  | initiateGroupCall groupId groupName peerIds callType => exact h.initiateGroupCall_holds hi hs hQ
  | joinActiveGroupCall expected => exact h.keeps_joinActiveGroupCall expected _ m o hi hQ
  | acceptCall => exact h.keeps_acceptCall _ m o hi hQ
  | rejectCall => exact h.finish (by rfl) _ _ _ m o hi hQ
  | endCall => exact h.finish (by rfl) _ _ _ m o hi hQ
  | acceptSecondaryCall => exact h.keeps_acceptSecondaryCall _ m o hi hQ
  | rejectSecondaryCall => exact h.keeps_rejectSecondaryCall _ m o hi hQ
  | toggleMute => exact h.keeps_toggleMute _ m o hi hQ
  | toggleSpeaker => exact h.keeps_toggleSpeaker _ m o hi hQ
  | toggleCamera => exact h.keeps_toggleCamera _ m o hi hQ
  | switchCamera => exact h.keeps_switchCamera _ m o hi hQ
  | signal signal => exact h.handleSignal_holds hi hs hQ
  | mediaKey senderId payload => exact h.keeps_applyIncomingMediaKey senderId payload _ m o hi hQ
  | mediaState state => exact h.keeps_handleMediaState state _ m o hi hQ
  | peerState peerId state => exact h.keeps_handleGroupPeerState peerId state _ m o hi hQ
  | nativeAction callId type => exact h.keeps_handleNativeAction callId type _ m o hi hQ
  | ringTimeout => exact h.keeps_onRingTimeout _ m o hi hQ
  | reconnectTimeout => exact h.keeps_onReconnectTimeout _ m o hi hQ
  | terminalTimeout => exact h.onTerminalTimer_holds hi hs hQ
  | clock now => exact h.core (by rfl) hi

end Laws

end Calls
end SecureChat
