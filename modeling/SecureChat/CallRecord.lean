import SecureChat.CallManager
/-!
# CallRecord — what the session stream says of the manager

The manager publishes every session it makes the current one, so the newest publication is the current session
(`Recorded`).  `Installs` is what `_setSession` does: a native route that came too early may be applied to the session,
which changes neither its id nor its kind nor whether it is over.
-/
namespace SecureChat
namespace Calls

open GroupControl (Text)

namespace Change

@[simp] theorem apply_callId (s : CallSession) (c : Change) : (c.apply s).callId = s.callId := by
  cases c <;> rfl

@[simp] theorem apply_isGroupCall (s : CallSession) (c : Change) : (c.apply s).isGroupCall = s.isGroupCall := by
  cases c <;> rfl

end Change

/-- `m'` is `m` with `session` made the current one, as `shown`, the changes of `route` applied. -/
structure Installs (m m' : Manager) (session : CallSession) (changes : Option (List Change)) (shown : CallSession)
    (route : List Change) : Prop where
  routed : shown = route.foldl Change.apply session
  callId : shown.callId = session.callId
  isGroupCall : shown.isGroupCall = session.isGroupCall
  isTerminal : shown.isTerminal = session.isTerminal
  current : m'.current = some shown
  sessions : m'.sessions = ⟨some shown, changes.map (· ++ route)⟩ :: m.sessions
  secondary : m'.secondary = m.secondary
  terminating : m'.terminating = m.terminating
  terminalTimer : m'.terminalTimer = m.terminalTimer
  asked : m'.asked = m.asked

theorem setSession_installs (m : Manager) (session : CallSession) (changes : Option (List Change)) :
    ∃ shown route, Installs m (m.setSession session changes) session changes shown route := by
  have hplain : Installs m { m with current := some session, sessions := ⟨some session, changes⟩ :: m.sessions } session
      changes session [] :=
    ⟨rfl, rfl, rfl, rfl, rfl, by cases changes <;> simp, rfl, rfl, rfl, rfl⟩
  unfold Manager.setSession
  split
  · split
    · cases hterminal : session.isTerminal with
      | true => exact ⟨session, [], rfl, rfl, rfl, rfl, rfl, rfl, rfl, rfl, rfl, rfl⟩
      | false => exact ⟨_, [_], rfl, rfl, rfl, rfl, rfl, rfl, rfl, rfl, rfl, rfl⟩
    · exact ⟨session, [], hplain⟩
  · exact ⟨session, [], hplain⟩

def Manager.published (m : Manager) : List CallSession := m.sessions.filterMap Publication.session

theorem Installs.published {m m' : Manager} {session shown : CallSession} {changes : Option (List Change)}
    {route : List Change} (h : Installs m m' session changes shown route) : m'.published = shown :: m.published := by
  unfold Manager.published
  rw [h.sessions]
  rfl

def shownLast (l : List Publication) : Option CallSession := l.head?.bind Publication.session

/-- The newest publication is the current session, a call is a group call or not in all its sessions, and a queued
operation is one for a session that has been shown. -/
structure Recorded (m : Manager) (o : List Wait) : Prop where
  current : m.current = shownLast m.sessions
  secondary : m.secondary = none
  kinds : ∀ s ∈ m.published, ∀ t ∈ m.published, s.callId = t.callId → s.isGroupCall = t.isGroupCall
  queued : ∀ w ∈ o, ∀ n x, w.op = .turn n (some x) → x ∈ m.published

theorem published_eq_cons {m : Manager} (h : m.current = shownLast m.sessions) {s : CallSession}
    (hs : m.current = some s) : ∃ earlier, m.published = s :: earlier := by
  unfold Manager.published
  rw [h, shownLast] at hs
  cases hl : m.sessions with
  | nil => simp [hl] at hs
  | cons p earlier =>
    rw [hl] at hs
    exact ⟨_, List.filterMap_cons_some hs⟩

theorem mem_published {m : Manager} (h : m.current = shownLast m.sessions) {s : CallSession} (hs : m.current = some s) :
    s ∈ m.published := by
  obtain ⟨earlier, he⟩ := published_eq_cons h hs
  rw [he]
  exact List.mem_cons_self

theorem shownLast_cons (p : Publication) (l : List Publication) : shownLast (p :: l) = p.session := rfl

namespace Recorded

variable {m m' : Manager} {o o' : List Wait}

theorem initial : Recorded {} [] where
  current := rfl
  secondary := rfl
  kinds _ hs := absurd hs List.not_mem_nil
  queued _ hw := absurd hw List.not_mem_nil

theorem congr (h : Recorded m o) (hcurrent : m'.current = m.current) (hsecondary : m'.secondary = m.secondary)
    (hsessions : m'.sessions = m.sessions) : Recorded m' o := by
  have hpublished : m'.published = m.published := by rw [Manager.published, hsessions, Manager.published]
  exact ⟨by rw [hcurrent, hsessions, h.current], by rw [hsecondary, h.secondary], by rw [hpublished]; exact h.kinds,
    by rw [hpublished]; exact h.queued⟩

theorem perm (h : Recorded m o) (hp : o.Perm o') : Recorded m o' :=
  ⟨h.current, h.secondary, h.kinds, fun w hw => h.queued w (hp.mem_iff.2 hw)⟩

theorem cons {w : Wait} (hw : w.op.isTurn = false) : Recorded m o ↔ Recorded m (w :: o) := by
  constructor
  · intro h
    refine ⟨h.current, h.secondary, h.kinds, fun v hv n x hx => ?_⟩
    rcases List.mem_cons.1 hv with rfl | hv
    · rw [hx] at hw
      cases hw
    · exact h.queued v hv n x hx
  · exact fun h => ⟨h.current, h.secondary, h.kinds, fun v hv => h.queued v (List.mem_cons_of_mem _ hv)⟩

theorem turn (h : Recorded m o) (n : ℕ) : Recorded m ({ op := .turn n m.current } :: o) := by
  refine ⟨h.current, h.secondary, h.kinds, fun v hv k x hx => ?_⟩
  rcases List.mem_cons.1 hv with rfl | hv
  · injection hx with _ hx
    exact mem_published h.current hx
  · exact h.queued v hv k x hx

theorem tail {w : Wait} (h : Recorded m (w :: o)) : Recorded m o :=
  ⟨h.current, h.secondary, h.kinds, fun v hv => h.queued v (List.mem_cons_of_mem _ hv)⟩

theorem sameKind {n : ℕ} {q : Option CallSession} (h : Recorded m ({ op := .turn n q } :: o)) :
    ∀ x ∈ q, ∀ y ∈ m.current, y.callId = x.callId → y.isGroupCall = x.isGroupCall := by
  intro x hx y hy hid
  rw [Option.mem_def] at hx hy
  subst hx
  exact h.kinds y (mem_published h.current hy) x (h.queued _ List.mem_cons_self n x rfl) hid

theorem install {session shown : CallSession} {changes : Option (List Change)} {route : List Change} (h : Recorded m o)
    (hi : Installs m m' session changes shown route)
    (hkind : ∀ t ∈ m.published, t.callId = session.callId → t.isGroupCall = session.isGroupCall) : Recorded m' o := by
  have hshown : ∀ t ∈ m.published, shown.callId = t.callId → shown.isGroupCall = t.isGroupCall := by
    intro t ht hid
    rw [hi.callId] at hid
    rw [hi.isGroupCall, hkind t ht hid.symm]
  refine ⟨?_, ?_, ?_, fun w hw n x hx => ?_⟩
  · rw [hi.current, hi.sessions, shownLast_cons]
  · rw [hi.secondary, h.secondary]
  · rw [hi.published]
    intro s hs t ht hid
    rcases List.mem_cons.1 hs with hs | hs <;> rcases List.mem_cons.1 ht with ht | ht
    · rw [hs, ht]
    · rw [hs] at hid ⊢
      exact hshown t ht hid
    · rw [ht] at hid ⊢
      exact (hshown s hs hid.symm).symm
    · exact h.kinds s hs t ht hid
  · rw [hi.published]
    exact List.mem_cons_of_mem _ (h.queued w hw n x hx)

theorem installLater {session shown t : CallSession} {changes : Option (List Change)} {route : List Change}
    (h : Recorded m o) (hi : Installs m m' session changes shown route) (ht : t ∈ m.published)
    (hid : t.callId = session.callId) (hkind : t.isGroupCall = session.isGroupCall) : Recorded m' o := by
  refine h.install hi fun u hu huid => ?_
  rw [← hkind]
  exact h.kinds u hu t ht (huid.trans hid.symm)

theorem clear (h : Recorded m o) (hcurrent : m'.current = none) (hsecondary : m'.secondary = m.secondary)
    (hsessions : m'.sessions = ⟨none, none⟩ :: m.sessions) : Recorded m' o := by
  have hpublished : m'.published = m.published := by rw [Manager.published, hsessions, Manager.published]; rfl
  exact ⟨by rw [hcurrent, hsessions]; rfl, by rw [hsecondary, h.secondary], by rw [hpublished]; exact h.kinds,
    by rw [hpublished]; exact h.queued⟩

end Recorded

end Calls
end SecureChat
