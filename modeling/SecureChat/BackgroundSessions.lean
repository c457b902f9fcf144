import Mathlib.Data.Finset.Card
import SecureChat.OfflineDelivery
/-!
# BackgroundSessions — message-only sessions beside full ones, over all users

`ConnectionManager` holds the sessions of all users in one map, and every user has queues of its own: the manager is one
`State` a user, with the users that have a connection.  The session of a user changes in three places: the locked part
of `addConnection`, `removeConnection` with the session that has closed, and `closeUserSocket`.

The reliable path sends envelopes to any session, and other code sends frames of its own straight to one; of those only
the type is kept.  A frame's type is the one that `MessageTypes.extract` reads.  `closeAllConnections` is left out,
which runs once, before the process ends.
-/
namespace SecureChat
namespace Offline

open Redis Runs

variable {U π μ : Type}

def directTypes : List MessageType :=
  [.presenceUpdate, .other "server_shutdown", .other "call_control_ack", .other "admin_encrypted_log",
    .other "group_call_status_response", .other "group_call_member_left", .other "group_call_coordinator_changed"]

structure ConnectionManager (U π μ : Type) where
  users : U → State π μ
  registered : Finset U
  reliable : U → List μ
  sentDirectly : U → ℕ → List MessageType

namespace ConnectionManager

/-- The steps of `State` that leave the user's session alone, and those of the manager. -/
inductive Event (U μ : Type) where
  | addConnection (userId : U) (session : ℕ) (callCapable shuttingDown : Bool)
  | removeConnection (userId : U) (session : ℕ)
  | closeUserSocket (userId : U)
  | user (userId : U) (e : Offline.Event μ)
  | queueReliable (userId : U) (m : μ)
  | sendReliable (userId : U) (session : ℕ) (m : μ)
  | sendDirectly (userId : U) (session : ℕ) (type : MessageType)

def init : ConnectionManager U π μ where
  users _ := .init
  registered := ∅
  reliable _ := []
  sentDirectly _ _ := []

def connects : Offline.Event μ → Bool
  | .connect .. | .disconnect _ => true
  | _ => false

variable [DecidableEq U]

/-- A user's new state, with its place in `connections`. -/
def setUser (u : U) (x : State π μ) (s : ConnectionManager U π μ) : ConnectionManager U π μ :=
  { s with
    users := Function.update s.users u x
    registered := if x.connections.current.isSome then insert u s.registered else s.registered.erase u }

def record (u : U) (n : ℕ) (types : List MessageType) (s : ConnectionManager U π μ) : ConnectionManager U π μ :=
  { s with
    sentDirectly := Function.update s.sentDirectly u
      (Function.update (s.sentDirectly u) n (types ++ s.sentDirectly u n)) }

variable [LinearOrder π] [DecidableEq μ]

def step (P : ServerPrivacy π μ) (s : ConnectionManager U π μ) : Event U μ → Option (ConnectionManager U π μ)
  | .addConnection u n callCapable shuttingDown =>
    ((s.users u).step P (.connect n callCapable (s.registered.erase u).card shuttingDown)).map fun x => s.setUser u x
  | .removeConnection u n => ((s.users u).step P (.disconnect (some n))).map fun x => s.setUser u x
  | .closeUserSocket u => ((s.users u).step P (.disconnect none)).map fun x => s.setUser u x
  | .user u e => if connects e then none else ((s.users u).step P e).map fun x => s.setUser u x
  | .queueReliable u m =>
    if P.extract m = some .encryptedMessage then
      some { s with reliable := Function.update s.reliable u (s.reliable u ++ [m]) }
    else none
  | .sendReliable u n m => if m ∈ s.reliable u then some (s.record u n (P.extract m).toList) else none
  | .sendDirectly u n type => if type ∈ directTypes then some (s.record u n [type]) else none

end ConnectionManager

def Drain.clock : Drain π → Option ℤ
  | .listing now _ | .sending now _ _ | .removing now _ _ _ => some now
  | _ => none

/-! ## One user -/

theorem messageOnly_admitSession {c c' : Connections} {others n : ℕ} {callCapable : Bool} {previous : Option ℕ}
    (honly : ∀ j, c.messageOnly j = true → c.current = some j) (hnew : c.current ≠ some n)
    (h : c.admitSession others n callCapable = some (previous, c')) (j : ℕ) :
    c'.messageOnly j = true ↔ j = n ∧ callCapable = false := by
  have hn : c.messageOnly n = false := by
    cases hm : c.messageOnly n with
    | false => rfl
    | true => exact absurd (honly n hm) hnew
  unfold Connections.admitSession at h
  split at h
  · cases h
  split at h
  · cases h
  cases hcur : c.current with
  | none =>
    rw [hcur] at h honly
    have hall : ∀ j, c.messageOnly j = false := fun j => Bool.eq_false_iff.2 fun hj => by cases honly j hj
    cases h
    cases callCapable with
    | true => simp [hall j]
    | false =>
      by_cases hj : j = n
      · simp [hj]
      · simp [hj, hall j]
  | some k =>
    rw [hcur] at h honly hnew
    have hkn : k ≠ n := fun he => hnew (congrArg some he)
    have hall : ∀ j, j ≠ k → c.messageOnly j = false := fun j hjk =>
      Bool.eq_false_iff.2 fun hj => hjk (Option.some.inj (honly j hj)).symm
    simp only [if_neg hkn] at h
    cases h
    by_cases hjk : j = k
    · simp [hjk, hkn]
    · cases callCapable with
      | true => simp [hjk, hall j hjk]
      | false =>
        by_cases hj : j = n
        · simp [hj, Ne.symm hkn]
        · simp [hj, hjk, hall j hjk]

namespace State

variable {P : ServerPrivacy π μ} {s s' : State π μ}

/-- What a message-only session may be sent. -/
def Plain (P : ServerPrivacy π μ) (p : π) : Prop := ∀ m, P.openQueue p = some m → P.requiresCallHandler m = false

/-- **A user's message-only sessions are told apart**: the registered session is in `messageOnlySessions` exactly if it
is one, no other session is, and what goes to one requires no call handler. -/
structure Kinds (P : ServerPrivacy π μ) (s : State π μ) : Prop where
  only : ∀ n, s.connections.messageOnly n = true → s.connections.current = some n ∧ s.callCapable n = false
  known : ∀ n, s.connections.current = some n → s.drains n ≠ .idle ∧
    (s.callCapable n = false → s.connections.messageOnly n = true)
  sending : ∀ i m n, s.routes i = .sending m n → s.drains n ≠ .idle ∧
    (s.callCapable n = false → P.requiresCallHandler m = false)
  sent : ∀ n p, p ∈ s.sent n → s.drains n ≠ .idle ∧ (s.callCapable n = false → Plain P p)
  removing : ∀ n now b p rest, s.drains n = .removing now b p rest → s.callCapable n = false → Plain P p

theorem kinds_init : Kinds P (init : State π μ) where
  only _ h := by cases h
  known _ h := by cases h
  sending _ _ _ h := by cases h
  sent _ _ h := by cases h
  removing _ _ _ _ _ h := by cases h

namespace Kinds

theorem setRoute {i : ℕ} {r : Route μ} (h : Kinds P s)
    (hr : ∀ m n, r = .sending m n → s.drains n ≠ .idle ∧ (s.callCapable n = false → P.requiresCallHandler m = false)) :
    Kinds P (s.setRoute i r) where
  only := h.only
  known := h.known
  sending j m n hj := by
    have hj : Function.update s.routes i r j = .sending m n := hj
    by_cases hji : j = i
    · subst hji
      rw [Function.update_self] at hj
      exact hr m n hj
    · rw [Function.update_of_ne hji] at hj
      exact h.sending j m n hj
  sent := h.sent
  removing := h.removing

theorem setQueue {b : Bucket} {c : Coll π ℤ} (h : Kinds P s) : Kinds P (s.setQueue b c) :=
  ⟨h.only, h.known, h.sending, h.sent, h.removing⟩

theorem setDrain {n : ℕ} {d : Drain π} (hd : d ≠ .idle)
    (hr : ∀ now b p rest, d = .removing now b p rest → s.callCapable n = false → Plain P p) (h : Kinds P s) :
    Kinds P (s.setDrain n d) := by
  have hne : ∀ j, s.drains j ≠ .idle → (s.setDrain n d).drains j ≠ .idle := by
    intro j hj
    show Function.update s.drains n d j ≠ .idle
    by_cases hjn : j = n
    · rw [hjn, Function.update_self]
      exact hd
    · rwa [Function.update_of_ne hjn]
  exact ⟨h.only, fun j hj => ⟨hne j (h.known j hj).1, (h.known j hj).2⟩,
    fun i m j hj => ⟨hne j (h.sending i m j hj).1, (h.sending i m j hj).2⟩,
    fun j p hp => ⟨hne j (h.sent j p hp).1, (h.sent j p hp).2⟩, fun j now b p rest hj hcap => by
      have hj : Function.update s.drains n d j = .removing now b p rest := hj
      by_cases hjn : j = n
      · subst hjn
        rw [Function.update_self] at hj
        exact hr now b p rest hj hcap
      · rw [Function.update_of_ne hjn] at hj
        exact h.removing j now b p rest hj hcap⟩

theorem deliver {n : ℕ} {p : π} (h : Kinds P s) (hn : s.drains n ≠ .idle)
    (hp : s.callCapable n = false → Plain P p) : Kinds P (s.deliver n p) where
  only := h.only
  known := h.known
  sending := h.sending
  sent j q hq := by
    have hq : q ∈ Function.update s.sent n (p :: s.sent n) j := hq
    by_cases hj : j = n
    · subst hj
      rw [Function.update_self] at hq
      rcases List.mem_cons.1 hq with rfl | hq
      · exact ⟨hn, hp⟩
      · exact h.sent j q hq
    · rw [Function.update_of_ne hj] at hq
      exact h.sent j q hq
  removing := h.removing

/-- The locked part of `removeConnection`. -/
theorem remove (session : Option ℕ) (h : Kinds P s) :
    Kinds P { s with connections := (s.connections.remove session).2 } := by
  have hcurrent : ∀ n, (s.connections.remove session).2.current = some n →
      (s.connections.remove session).2 = s.connections := by
    intro n hn
    unfold Connections.remove at hn ⊢
    cases hc : s.connections.current with
    | none => rfl
    | some k =>
      rw [hc] at hn
      by_cases hk : session = none ∨ session = some k
      · simp only [if_pos hk] at hn
        cases hn
      · exact congrArg Prod.snd (if_neg hk)
  refine ⟨fun n hn => ?_, fun n hn => ?_, h.sending, h.sent, h.removing⟩
  · have hn : (s.connections.remove session).2.messageOnly n = true := hn
    have hold : s.connections.messageOnly n = true ∧ (s.connections.remove session).2 = s.connections := by
      unfold Connections.remove at hn ⊢
      cases hc : s.connections.current with
      | none =>
        rw [hc] at hn
        exact ⟨hn, rfl⟩
      | some k =>
        rw [hc] at hn
        by_cases hk : session = none ∨ session = some k
        · simp only [if_pos hk] at hn
          by_cases hnk : n = k
          · rw [hnk, Function.update_self] at hn
            cases hn
          · rw [Function.update_of_ne hnk] at hn
            -- another session is not in the set
            exact absurd ((h.only n hn).1.symm.trans hc) fun he => hnk (Option.some.inj he)
        · simp only [if_neg hk] at hn ⊢
          exact ⟨hn, trivial⟩
    have honly := h.only n hold.1
    rw [hold.2]
    exact honly
  · have hsame := hcurrent n hn
    have hn : (s.connections.remove session).2.current = some n := hn
    rw [hsame] at hn
    show s.drains n ≠ .idle ∧ (s.callCapable n = false → (s.connections.remove session).2.messageOnly n = true)
    rw [hsame]
    exact h.known n hn

/-- The locked part of `addConnection`, for a session that has not connected before. -/
theorem connect {n others : ℕ} {callCapable : Bool} {previous : Option ℕ} {c : Connections} (h : Kinds P s)
    (hidle : s.drains n = .idle) (hc : s.connections.admitSession others n callCapable = some (previous, c)) :
    Kinds P { s.setDrain n .starting with
      connections := c, callCapable := Function.update s.callCapable n callCapable } := by
  have hstarted := h.setDrain (n := n) (d := .starting) (fun he => by cases he)
    (fun _ _ _ _ he => by cases he)
  have hother : ∀ {j}, s.drains j ≠ .idle → Function.update s.callCapable n callCapable j = s.callCapable j := by
    intro j hj
    exact Function.update_of_ne (fun (he : j = n) => hj (he ▸ hidle)) _ _
  have hnew : s.connections.current ≠ some n := fun he => (h.known n he).1 hidle
  have hspec : c.current = some n ∧ ∀ j, c.messageOnly j = true ↔ j = n ∧ callCapable = false :=
    ⟨Connections.current_admitSession hc, messageOnly_admitSession (fun j hj => (h.only j hj).1) hnew hc⟩
  refine ⟨fun j hj => ?_, fun j hj => ?_, fun i m j hj => ?_, fun j p hp => ?_, fun j now b p rest hj hcap => ?_⟩
  · obtain ⟨rfl, hfalse⟩ := (hspec.2 j).1 hj
    refine ⟨hspec.1, ?_⟩
    show Function.update s.callCapable j callCapable j = false
    rw [Function.update_self]
    exact hfalse
  · obtain rfl : n = j := Option.some.inj (hspec.1.symm.trans hj)
    refine ⟨?_, fun hcap => (hspec.2 n).2 ⟨rfl, ?_⟩⟩
    · show Function.update s.drains n .starting n ≠ .idle
      rw [Function.update_self]
      exact fun he => by cases he
    · have hcap : Function.update s.callCapable n callCapable n = false := hcap
      rwa [Function.update_self] at hcap
  · exact ⟨(hstarted.sending i m j hj).1,
      fun hcap => (h.sending i m j hj).2 ((hother (h.sending i m j hj).1).symm.trans hcap)⟩
  · exact ⟨(hstarted.sent j p hp).1, fun hcap => (h.sent j p hp).2 ((hother (h.sent j p hp).1).symm.trans hcap)⟩
  · have hjn : s.drains j ≠ .idle := by
      intro he
      have hj : Function.update s.drains n .starting j = .removing now b p rest := hj
      by_cases hjn : j = n
      · rw [hjn, Function.update_self] at hj
        cases hj
      · rw [Function.update_of_ne hjn, he] at hj
        cases hj
    exact hstarted.removing j now b p rest hj ((hother hjn).symm.trans hcap)

variable [LinearOrder π]

omit [LinearOrder π] in
theorem plain_of_verdict {capable : Bool} {now : ℤ} {p : π} {m : μ} (h : verdict P capable now p = .deliver m)
    (hcap : capable = false) : Plain P p := by
  intro m' hm'
  unfold verdict at h
  rw [hm', hcap] at h
  simp only at h
  split at h
  · cases h
  · split at h
    · cases h
    · next hplain =>
      cases h
      exact Bool.eq_false_iff.2 hplain

theorem drainStep {n : ℕ} {now : ℤ} {sendOk : Bool} (h : Kinds P s) (hs : s.drainStep P n now sendOk = some s') :
    Kinds P s' := by
  unfold State.drainStep at hs
  split at hs
  · cases hs
  · cases hs
  · cases hs
    exact h.setDrain (fun he => by cases he) fun _ _ _ _ he => by cases he
  · cases hs
    exact h.setDrain (fun he => by cases he) fun _ _ _ _ he => by cases he
  · cases hs
    exact h.setDrain (fun he => by cases he) fun _ _ _ _ he => by cases he
  · cases hs
    exact h.setDrain (fun he => by cases he) fun _ _ _ _ he => by cases he
  · next t b p rest hd =>
    have hn : s.drains n ≠ .idle := by
      rw [hd]
      exact fun he => by cases he
    split at hs
    · cases hs
      have h' := h.setQueue (b := b) (c := (s.queue b).del p)
      have h' := h'.setDrain (n := n) (d := .sending t b rest) (fun he => by cases he)
        fun _ _ _ _ he => by cases he
      exact ⟨h'.only, h'.known, h'.sending, h'.sent, h'.removing⟩
    · cases hs
      exact h.setDrain (fun he => by cases he) fun _ _ _ _ he => by cases he
    · next m hv =>
      split at hs
      · cases hs
        have hp : s.callCapable n = false → Plain P p := plain_of_verdict hv
        exact (h.deliver hn hp).setDrain (fun he => by cases he) fun _ _ _ _ he hcap => by
          cases he
          exact hp hcap
      · cases hs
        exact h.setDrain (fun he => by cases he) fun _ _ _ _ he => by cases he
  · cases hs
    exact h.setQueue.setDrain (fun he => by cases he) fun _ _ _ _ he => by cases he

/-- A drain of a message-only session takes a frame for a call handler out of a queue only if it is a stale offer. -/
theorem taken {n : ℕ} {now : ℤ} {sendOk : Bool} (h : Kinds P s) (hcap : s.callCapable n = false)
    (hs : s.drainStep P n now sendOk = some s') {b : Bucket} {p : π} {m : μ} (hp : p ∈ (s.queue b).keys)
    (hp' : p ∉ (s'.queue b).keys) (hm : P.openQueue p = some m) (hcall : P.requiresCallHandler m = true) :
    P.extract m = some .sdpOffer ∧ ∃ t, (s.drains n).clock = some t ∧ P.stale t m = true := by
  -- what a deletion of one envelope leaves out
  have hdel : ∀ (b' : Bucket) (p' : π) (d : Drain π),
      p ∉ ((((s.setQueue b' ((s.queue b').del p')).setDrain n d)).queue b).keys → p' = p := by
    intro b' p' d hnot
    have hnot : p ∉ (Function.update s.queue b' ((s.queue b').del p') b).keys := hnot
    by_cases hb : b = b'
    · subst hb
      rw [Function.update_self, Coll.mem_keys_del] at hnot
      by_contra hne
      exact hnot ⟨Ne.symm hne, hp⟩
    · rw [Function.update_of_ne hb] at hnot
      exact absurd hp hnot
  unfold State.drainStep at hs
  split at hs
  · cases hs
  · cases hs
  · cases hs
    exact absurd hp hp'
  · cases hs
    exact absurd hp hp'
  · cases hs
    exact absurd hp hp'
  · cases hs
    exact absurd hp hp'
  · next t b' p' rest hd =>
    split at hs
    · next hv =>
      cases hs
      obtain rfl := hdel b' p' (.sending t b' rest) hp'
      have hstale : P.stale t m = true := by
        unfold verdict at hv
        rw [hm] at hv
        simp only at hv
        split at hv
        · assumption
        · split at hv
          · cases hv
          · cases hv
      refine ⟨?_, t, by rw [hd]; rfl, hstale⟩
      unfold ServerPrivacy.stale at hstale
      exact of_decide_eq_true (Bool.and_eq_true_iff.1 hstale).1
    · cases hs
      exact absurd hp hp'
    · split at hs
      · cases hs
        exact absurd hp hp'
      · cases hs
        exact absurd hp hp'
  · next t b' p' rest hd =>
    cases hs
    obtain rfl := hdel b' p' (.sending t b' rest) hp'
    have hplain := h.removing n t b' p' rest hd hcap m hm
    rw [hcall] at hplain
    cases hplain

end Kinds

theorem kinds_step [LinearOrder π] {e : Offline.Event μ} (h : Kinds P s) (hs : step P s e = some s') : Kinds P s' := by
  cases e with
  | route i m =>
    simp only [step] at hs
    split at hs
    · split at hs
      · cases hs
      · cases hs
        exact h.setRoute fun _ _ he => by cases he
    · cases hs
  | lookup i =>
    simp only [step] at hs
    split at hs
    · next m hi =>
      split at hs
      · cases hs
        exact h.setRoute fun _ _ he => by cases he
      · next n hn =>
        have hknown := h.known n hn
        split at hs
        · cases hs
          exact h.setRoute fun _ _ he => by cases he
        · next hplain =>
          cases hs
          refine h.setRoute ?_
          rintro m' n' ⟨⟩
          refine ⟨hknown.1, fun hcap => ?_⟩
          rw [hknown.2 hcap, Bool.true_and] at hplain
          exact Bool.eq_false_iff.2 hplain
    · cases hs
  | send i sendOk =>
    simp only [step] at hs
    split at hs
    · next m n hi =>
      have hsend := h.sending i m n hi
      split at hs
      · cases hs
        refine (h.deliver hsend.1 fun hcap m' hm' => ?_).setRoute fun _ _ he => by cases he
        rw [P.open_seal] at hm'
        cases hm'
        exact hsend.2 hcap
      · cases hs
        exact h.setRoute fun _ _ he => by cases he
    · cases hs
  | queue i now =>
    simp only [step] at hs
    split at hs
    · split at hs
      · cases hs
        exact h.setRoute fun _ _ he => by cases he
      · cases hs
        exact h.setQueue.setRoute fun _ _ he => by cases he
    · cases hs
  | trim i =>
    simp only [step] at hs
    split at hs
    · cases hs
      exact h.setQueue.setRoute fun _ _ he => by cases he
    · cases hs
  | expire i =>
    simp only [step] at hs
    split at hs
    · cases hs
      exact h.setQueue.setRoute fun _ _ he => by cases he
    · cases hs
  | connect n callCapable others shuttingDown =>
    simp only [step] at hs
    split at hs
    · next hidle =>
      split at hs
      · cases hs
        exact h
      · split at hs
        · cases hs
          exact h
        · next hc =>
          cases hs
          exact h.connect hidle hc
    · cases hs
  | drain n now sendOk => exact h.drainStep hs
  | abandon n =>
    simp only [step] at hs
    split at hs
    · cases hs
    · cases hs
      exact h.setDrain (fun he => by cases he) fun _ _ _ _ he => by cases he
  | disconnect session =>
    simp only [step] at hs
    cases hs
    exact h.remove session
  | elapse d =>
    simp only [step] at hs
    cases hs
    exact ⟨h.only, h.known, h.sending, h.sent, h.removing⟩


theorem connections_step [LinearOrder π] {e : Offline.Event μ} (he : ConnectionManager.connects e = false)
    (hs : step P s e = some s') : s'.connections = s.connections := by
  cases e with
  | connect n callCapable others shuttingDown => cases he
  | disconnect session => cases he
  | drain n now sendOk =>
    simp only [step, drainStep] at hs
    split at hs
    · cases hs
    · cases hs
    · cases hs; rfl
    · cases hs; rfl
    · cases hs; rfl
    · cases hs; rfl
    · split at hs
      · cases hs; rfl
      · cases hs; rfl
      · split at hs
        · cases hs; rfl
        · cases hs; rfl
    · cases hs; rfl
  | elapse d =>
    simp only [step] at hs
    cases hs; rfl
  | abandon n =>
    simp only [step] at hs
    split at hs
    · cases hs
    · cases hs; rfl
  | route i m =>
    simp only [step] at hs
    split at hs
    · split at hs
      · cases hs
      · cases hs; rfl
    · cases hs
  | lookup i =>
    simp only [step] at hs
    split at hs
    · split at hs
      · cases hs; rfl
      · split at hs
        · cases hs; rfl
        · cases hs; rfl
    · cases hs
  | send i sendOk =>
    simp only [step] at hs
    split at hs
    · split at hs
      · cases hs; rfl
      · cases hs; rfl
    · cases hs
  | queue i now =>
    simp only [step] at hs
    split at hs
    · split at hs
      · cases hs; rfl
      · cases hs; rfl
    · cases hs
  | trim i =>
    simp only [step] at hs
    split at hs
    · cases hs; rfl
    · cases hs
  | expire i =>
    simp only [step] at hs
    split at hs
    · cases hs; rfl
    · cases hs

/-- `addConnection` leaves the state alone, or admits its session: there is room, and it replaces no full session unless
it is one. -/
theorem connect_cases [LinearOrder π] {n others : ℕ} {callCapable shuttingDown : Bool}
    (hs : step P s (.connect n callCapable others shuttingDown) = some s') :
    s' = s ∨ s'.connections.current = some n ∧ (s.connections.current = none → others < maxConnections) ∧
      (callCapable = false → ∀ k, s.connections.current = some k → s.connections.messageOnly k = true) := by
  simp only [step] at hs
  split at hs
  · split at hs
    · cases hs
      exact .inl rfl
    · split at hs
      · cases hs
        exact .inl rfl
      · next previous c hc =>
        cases hs
        refine .inr ⟨Connections.current_admitSession hc, ?_⟩
        unfold Connections.admitSession at hc
        split at hc
        · cases hc
        · next hroom =>
          split at hc
          · cases hc
          · next hreplace =>
            refine ⟨fun hnone => Nat.lt_of_not_le fun hle => hroom ⟨hnone, hle⟩, fun hcap k hk => ?_⟩
            by_contra hfull
            refine hreplace ⟨hcap, ?_⟩
            rw [hk]
            simpa using hfull
  · cases hs

end State

/-! ## All users -/

namespace ConnectionManager

open State

variable [DecidableEq U] {P : ServerPrivacy π μ} {s s' : ConnectionManager U π μ}

structure Apart (P : ServerPrivacy π μ) (s : ConnectionManager U π μ) : Prop where
  kinds : ∀ u, (s.users u).Kinds P
  registered : ∀ u, u ∈ s.registered ↔ (s.users u).connections.current.isSome = true
  limit : s.registered.card ≤ maxConnections
  reliable : ∀ u, ∀ m ∈ s.reliable u, P.extract m = some .encryptedMessage
  direct : ∀ u n, ∀ t ∈ s.sentDirectly u n, t ∉ MessageType.requiresCallHandler

omit [DecidableEq U] in
theorem apart_init : Apart P (init : ConnectionManager U π μ) where
  kinds _ := kinds_init
  registered u := by simp [init, State.init, Connections.init]
  limit := Nat.zero_le _
  reliable _ _ h := by cases h
  direct _ _ _ h := by cases h

theorem setUser_users {u v : U} {x : State π μ} : (s.setUser u x).users v = if v = u then x else s.users v := by
  show Function.update s.users u x v = _
  by_cases h : v = u
  · rw [if_pos h, h, Function.update_self]
  · rw [if_neg h, Function.update_of_ne h]

namespace Apart

theorem setUser {u : U} {x : State π μ} (h : Apart P s) (hx : x.Kinds P)
    (hroom : x.connections.current.isSome = true → u ∈ s.registered ∨ s.registered.card < maxConnections) :
    Apart P (s.setUser u x) where
  kinds v := by
    rw [setUser_users]
    by_cases hv : v = u
    · rw [if_pos hv]
      exact hx
    · rw [if_neg hv]
      exact h.kinds v
  registered v := by
    rw [setUser_users]
    have hold := h.registered v
    show v ∈ (if x.connections.current.isSome = true then insert u s.registered else s.registered.erase u) ↔ _
    by_cases hsome : x.connections.current.isSome = true
    · rw [if_pos hsome, Finset.mem_insert]
      by_cases hv : v = u
      · simp [hv, hsome]
      · simp [hv, hold]
    · rw [if_neg hsome, Finset.mem_erase]
      by_cases hv : v = u
      · simpa [hv] using hsome
      · simp [hv, hold]
  limit := by
    show (if x.connections.current.isSome = true then insert u s.registered else s.registered.erase u).card ≤ _
    by_cases hsome : x.connections.current.isSome = true
    · rw [if_pos hsome]
      rcases hroom hsome with hmem | hlt
      · rw [Finset.insert_eq_of_mem hmem]
        exact h.limit
      · exact (Finset.card_insert_le u s.registered).trans hlt
    · rw [if_neg hsome]
      exact (Finset.card_le_card (Finset.erase_subset u s.registered)).trans h.limit
  reliable := h.reliable
  direct := h.direct

/-- The locked part of `removeConnection`. -/
theorem disconnect (u : U) (session : Option ℕ) (h : Apart P s) :
    Apart P (s.setUser u { s.users u with connections := ((s.users u).connections.remove session).2 }) := by
  refine h.setUser ((h.kinds u).remove session) fun hsome => .inl ((h.registered u).2 ?_)
  obtain ⟨k, hk⟩ := Option.isSome_iff_exists.1 hsome
  exact Option.isSome_iff_exists.2 ⟨k, Connections.current_of_remove hk⟩

theorem record {u : U} {n : ℕ} {types : List MessageType} (h : Apart P s)
    (ht : ∀ t ∈ types, t ∉ MessageType.requiresCallHandler) : Apart P (s.record u n types) where
  kinds := h.kinds
  registered := h.registered
  limit := h.limit
  reliable := h.reliable
  direct v k t hmem := by
    have hmem : t ∈ Function.update s.sentDirectly u
        (Function.update (s.sentDirectly u) n (types ++ s.sentDirectly u n)) v k := hmem
    by_cases hv : v = u
    · subst hv
      rw [Function.update_self] at hmem
      by_cases hk : k = n
      · rw [hk, Function.update_self] at hmem
        rcases List.mem_append.1 hmem with hmem | hmem
        · exact ht t hmem
        · exact h.direct v n t hmem
      · rw [Function.update_of_ne hk] at hmem
        exact h.direct v k t hmem
    · rw [Function.update_of_ne hv] at hmem
      exact h.direct v k t hmem

end Apart

theorem not_mem_requiresCallHandler {t : MessageType} (h : t ∈ directTypes) : t ∉ MessageType.requiresCallHandler := by
  revert t
  decide

variable [LinearOrder π] [DecidableEq μ]

theorem apart_step (s : ConnectionManager U π μ) (e : Event U μ) (s' : ConnectionManager U π μ) (h : Apart P s)
    (hs : s.step P e = some s') : Apart P s' := by
  cases e with
  | addConnection u n callCapable shuttingDown =>
    obtain ⟨x, hx, rfl⟩ := Option.map_eq_some_iff.1 hs
    refine h.setUser (kinds_step (h.kinds u) hx) fun hsome => ?_
    by_cases hmem : u ∈ s.registered
    · exact .inl hmem
    · right
      have hnone : (s.users u).connections.current = none := by
        simpa using fun he => hmem ((h.registered u).2 he)
      rcases connect_cases hx with rfl | ⟨-, hroom, -⟩
      · rw [hnone] at hsome
        cases hsome
      · have hlt := hroom hnone
        rwa [Finset.erase_eq_of_notMem hmem] at hlt
  | removeConnection u n =>
    cases hs
    exact h.disconnect u (some n)
  | closeUserSocket u =>
    cases hs
    exact h.disconnect u none
  | user u e =>
    simp only [step] at hs
    split at hs
    · cases hs
    · next he =>
      obtain ⟨x, hx, rfl⟩ := Option.map_eq_some_iff.1 hs
      have hsame := connections_step (Bool.eq_false_iff.2 he) hx
      refine h.setUser (kinds_step (h.kinds u) hx) fun hsome => .inl ((h.registered u).2 ?_)
      rwa [hsame] at hsome
  | queueReliable u m =>
    simp only [step] at hs
    split at hs
    · next hm =>
      cases hs
      refine ⟨h.kinds, h.registered, h.limit, fun v m' hm' => ?_, h.direct⟩
      have hm' : m' ∈ Function.update s.reliable u (s.reliable u ++ [m]) v := hm'
      by_cases hv : v = u
      · subst hv
        rw [Function.update_self] at hm'
        rcases List.mem_append.1 hm' with hm' | hm'
        · exact h.reliable v m' hm'
        · rwa [List.mem_singleton.1 hm']
      · rw [Function.update_of_ne hv] at hm'
        exact h.reliable v m' hm'
    · cases hs
  | sendReliable u n m =>
    simp only [step] at hs
    split at hs
    · next hm =>
      cases hs
      refine h.record fun t ht => ?_
      rw [h.reliable u m hm] at ht
      rw [List.mem_singleton.1 ht]
      decide
    · cases hs
  | sendDirectly u n type =>
    simp only [step] at hs
    split at hs
    · next ht =>
      cases hs
      refine h.record fun t hmem => ?_
      rw [List.mem_singleton.1 hmem]
      exact not_mem_requiresCallHandler ht
    · cases hs

theorem apart_run {ls : List (Event U μ)} (hr : run (step P) init ls = some s) : Apart P s :=
  run_invariant (Apart P) apart_step apart_init hr

/-- **What background sessions may do.**  In every state of every run no more users are registered than the limit, and
no frame that requires a call handler has been sent to a message-only session; a message-only session that connects
leaves a registered full session in place, `removeConnection` unregisters no session but its own, and the drain of a
message-only session takes no such frame out of a queue but a stale offer. -/
theorem messageOnly_run {ls : List (Event U μ)} (hr : run (step P) init ls = some s) :
    s.registered.card ≤ maxConnections ∧
    (∀ u, u ∈ s.registered ↔ (s.users u).connections.current.isSome = true) ∧
    (∀ u n, (s.users u).callCapable n = false → (∀ p ∈ (s.users u).sent n, Plain P p) ∧
      ∀ t ∈ s.sentDirectly u n, t ∉ MessageType.requiresCallHandler) ∧
    (∀ u n k shuttingDown s', s.step P (.addConnection u n false shuttingDown) = some s' →
      (s.users u).connections.current = some k → (s.users u).callCapable k = true →
      (s'.users u).connections.current = some k) ∧
    (∀ u v n k s', s.step P (.removeConnection u n) = some s' → (s.users v).connections.current = some k →
      ¬ (v = u ∧ k = n) → (s'.users v).connections.current = some k) ∧
    ∀ u n now sendOk s', s.step P (.user u (.drain n now sendOk)) = some s' → (s.users u).callCapable n = false →
      ∀ b p m, p ∈ ((s.users u).queue b).keys → p ∉ ((s'.users u).queue b).keys → P.openQueue p = some m →
        P.requiresCallHandler m = true →
        P.extract m = some .sdpOffer ∧ ∃ t, ((s.users u).drains n).clock = some t ∧ P.stale t m = true := by
  have h := apart_run hr
  refine ⟨h.limit, h.registered, fun u n hcap => ⟨fun p hp => ((h.kinds u).sent n p hp).2 hcap, h.direct u n⟩,
    fun u n k shuttingDown s' hs hk hcap => ?_, fun u v n k s' hs hk hne => ?_,
    fun u n now sendOk s' hs hcap b p m hp hp' hm hcall => ?_⟩
  · obtain ⟨x, hx, rfl⟩ := Option.map_eq_some_iff.1 hs
    rw [setUser_users, if_pos rfl]
    rcases connect_cases hx with rfl | ⟨-, -, hfull⟩
    · exact hk
    · have hmark := ((h.kinds u).only k (hfull rfl k hk)).2
      rw [hcap] at hmark
      cases hmark
  · cases hs
    rw [setUser_users]
    by_cases hv : v = u
    · subst hv
      have hkn : k ≠ n := fun he => hne ⟨rfl, he⟩
      rw [if_pos rfl]
      show ((s.users v).connections.remove (some n)).2.current = some k
      unfold Connections.remove
      rw [hk]
      have hnot : ¬ (some n = none ∨ some n = some k) := by
        rintro (he | he)
        · cases he
        · exact hkn (Option.some.inj he).symm
      simp only [if_neg hnot]
      exact hk
    · rw [if_neg hv]
      exact hk
  · obtain ⟨x, hx, rfl⟩ := Option.map_eq_some_iff.1 hs
    rw [setUser_users, if_pos rfl] at hp'
    exact (h.kinds u).taken hcap hx hp hp' hm hcall

/-- A call control waits for user 0, whose session 0 is full and session 1, refused, is not; user 1 has the message-only
session 0, and it is sent nothing. -/
def beside : List (Event ℕ Bool) :=
  [.user 0 (.route 0 false), .user 0 (.lookup 0), .user 0 (.queue 0 5), .addConnection 1 0 false false,
    .addConnection 0 0 true false, .addConnection 0 1 false false, .user 1 (.route 0 false), .user 1 (.lookup 0),
    .user 1 (.queue 0 6)]

theorem messageOnly_beside : ∃ s : ConnectionManager ℕ ℕ Bool,
    run (step plainPrivacy) init beside = some s ∧ s.registered.card = 2 ∧
    (s.users 0).connections.current = some 0 ∧ (s.users 1).connections.current = some 0 ∧
    s.registered.card ≤ maxConnections ∧ ∀ p ∈ (s.users 1).sent 0, Plain plainPrivacy p := by
  obtain ⟨s, hs, hcard, h0, h1, hcap⟩ : ∃ s : ConnectionManager ℕ ℕ Bool,
      run (step plainPrivacy) init beside = some s ∧ s.registered.card = 2 ∧
      (s.users 0).connections.current = some 0 ∧ (s.users 1).connections.current = some 0 ∧
      (s.users 1).callCapable 0 = false := exists_run _ _ _ (by decide +kernel)
  have h := messageOnly_run hs
  exact ⟨s, hs, hcard, h0, h1, h.1, (h.2.2.1 1 0 hcap).1⟩

/-- An offer made at time 0 is queued, and forty seconds later a message-only session connects. -/
def lateOffer : List (Event ℕ Bool) :=
  [.user 0 (.route 1 true), .user 0 (.lookup 1), .user 0 (.queue 1 0), .addConnection 0 0 false false,
    .user 0 (.drain 0 40000 true), .user 0 (.drain 0 40000 true)]

/-- **The drain of a message-only session takes an offer out of the queue**, once it is stale. -/
theorem messageOnly_lateOffer : ∃ s s' : ConnectionManager ℕ ℕ Bool,
    run (step plainPrivacy) init lateOffer = some s ∧ (s.users 0).callCapable 0 = false ∧
    s.step plainPrivacy (.user 0 (.drain 0 40000 true)) = some s' ∧
    plainPrivacy.sealQueue 1 true ∈ ((s.users 0).queue .message).keys ∧
    plainPrivacy.sealQueue 1 true ∉ ((s'.users 0).queue .message).keys ∧
    plainPrivacy.requiresCallHandler true = true :=
  ⟨_, _, rfl, by decide +kernel, rfl, by decide +kernel, by decide +kernel, by decide⟩

end ConnectionManager

end Offline
end SecureChat
