import SecureChat.PeerSessionRules
/-!
# PeerSessionCalls — the operations keep what they are to keep

Every operation that holds its lock ends holding it, with what it has returned or written (`Does`); so every call, which
takes the lock and releases it, keeps the invariant (`program_holds`).
-/
namespace SecureChat
namespace PeerSessions

open Async
open Program (get modify HoldsBeside Contract)
open GroupControl (Text)

variable {A S G α : Type} {V : Ratchets A S G} {strict : Prop} {d : Device A S G} {o : List (Wait S G)} {t : Turn}
  {p : Point S G} {peerId groupId : Text}

abbrev At (V : Ratchets A S G) (strict : Prop) (t : Turn) (p : Point S G) (d : Device A S G)
    (o : List (Wait S G)) : Prop := Holding V strict d t p o

/-- From `P` the operation ends with `Q`, or throws and holds its lock. -/
abbrev Does (V : Ratchets A S G) (strict : Prop) (t : Turn) (P : Device A S G → List (Wait S G) → Prop)
    (x : Call A S G α) (Q : α → Device A S G → List (Wait S G) → Prop) : Prop :=
  x.Contract (tasks V) (rules V strict) (At V strict t .step) P Q

/-! ## Steps -/

theorem current_of_ready {w : Wait S G} {answer : Option Answer} (h : ready w answer d = true) :
    w.turn.runtime = d.runtime := by
  unfold ready at h
  rw [Bool.and_eq_true, decide_eq_true_eq] at h
  exact h.1

theorem Holding.resumed (answer : Option Answer) (hi : Kept V strict d (.held t p :: o))
    (hr : ready (.held t p) answer d = true) : Holding V strict d t p o := ⟨current_of_ready hr, hi⟩

theorem Holding.failed (hi : Kept V strict d (.held t p :: o)) (hr : ready (.held t p) none d = true)
    (hadm : strict → cleared (.held t p) none d = true) : Holding V strict d t .step o := by
  have h : Holding V strict d t p o := Holding.resumed none hi hr
  refine h.go (.refl d) h.kept.good (fun hs _ peerId hl => ?_) trivial
  by_cases hp : p = .clearing
  · subst hp
    refine Device.boundTo_of_hasSession (Bool.eq_false_iff.2 fun hsession => ?_)
    have hclears : (.held t .clearing : Wait S G).clears d = some peerId :=
      Wait.clears_eq_some.2 ⟨t, rfl, h.current, hl, hsession⟩
    have hnot := hadm hs
    rw [cleared, hclears] at hnot
    cases hnot
  · exact h.bound hs hp hl

theorem does_read {P : Device A S G → List (Wait S G) → Prop} (f : Answer → Device A S G → α)
    {Q : α → Device A S G → List (Wait S G) → Prop} (hp : ∀ d o, P d o → At V strict t p d o)
    (hq : ∀ a d o, At V strict t p d o → Q (f a d) d o) : Does V strict t P (read t p f) Q :=
  Program.contract_await (fun d o h => (hp d o h).kept) (fun _ _ hi hr hadm => Holding.failed hi hr hadm)
    fun a d o hi hr _ => hq a d o (Holding.resumed (some a) hi hr)

theorem does_write {P : Device A S G → List (Wait S G) → Prop} (f : Device A S G → Device A S G)
    {Q : Unit → Device A S G → List (Wait S G) → Prop} (hp : ∀ d o, P d o → At V strict t p d o)
    (hq : ∀ d o, At V strict t p d o → Q () (f d) o) : Does V strict t P (write t p f) Q :=
  Program.contract_await (fun d o h => (hp d o h).kept) (fun _ _ hi hr hadm => Holding.failed hi hr hadm)
    fun a d o hi hr _ => hq d o (Holding.resumed (some a) hi hr)

theorem does_on (p : Point S G) : Does V strict t (At V strict t p) (on t p) fun _ => At V strict t p :=
  Program.contract_await (fun _ _ h => h.kept) (fun _ _ hi hr hadm => Holding.failed hi hr hadm)
    fun a _ _ hi hr _ => Holding.resumed (some a) hi hr

def Point.Plain : Point S G → Prop
  | .step | .knowing _ => True
  | _ => False

theorem plain_step : (.step : Point S G).Plain := trivial

theorem plain_knowing (pin : Option Identity) : (.knowing pin : Point S G).Plain := trivial

theorem Point.Plain.fits {l : Lock} {d' : Device A S G} (hp : p.Plain) (h : p.Fits V strict d l)
    (hi : d'.identities = d.identities) : p.Fits V strict d' l := by
  cases p with
  | step => trivial
  | knowing pin =>
    intro peerId hl
    rw [hi]
    exact h peerId hl
  | clearing => cases hp
  | storing => cases hp
  | storingGroup => cases hp
  | returning => cases hp

theorem Point.Plain.ne (hp : p.Plain) : p ≠ .clearing := by
  rintro rfl
  cases hp

theorem does_random (hp : p.Plain) : Does V strict t (At V strict t p) (random t) fun r d o =>
    d.Unused V t.lock r ∧ At V strict t p d o :=
  Program.contract_sync fun _ _ h => (h.draw fun _ hi => hp.fits h.fits hi).symm

theorem does_throw (hp : p.Plain) {Q : α → Device A S G → List (Wait S G) → Prop} (e : Fault) :
    Does V strict t (At V strict t p) (.throw e) Q :=
  Program.contract_throw fun _ _ h => h.forget fun _ => hp.ne

theorem does_withAccount (hp : p.Plain) {action : A → Call A S G (A × α)}
    (ha : ∀ account, Does V strict t (At V strict t p) (action account) fun _ => At V strict t p) :
    Does V strict t (At V strict t p) (withAccount V t p action) fun _ => At V strict t p := by
  refine Contract.bind (does_read _ (fun _ _ h => h) (Q := fun _ => At V strict t p) fun _ _ _ h => h) fun pickle => ?_
  have haccount : ∀ account, Does V strict t (At V strict t p) (action account >>= fun result => do
      write t p (Device.setAccount result.1)
      pure result.2) fun _ => At V strict t p := by
    intro account
    refine (ha account).bind fun result => ?_
    refine Contract.bind (does_write _ (fun _ _ h => h) (Q := fun _ => At V strict t p) fun _ _ h => h.setAccount _)
      fun _ => ?_
    exact Program.contract_pure fun _ _ h => h
  cases pickle with
  | some account => exact haccount account
  | none =>
    exact Contract.bind (does_random hp) fun draw d o h => haccount (V.createAccount draw) d o h.2

theorem does_localIdentityBytes (hp : p.Plain) :
    Does V strict t (At V strict t p) (localIdentityBytes V t p) fun _ => At V strict t p :=
  does_withAccount hp fun _ => Program.contract_pure fun _ _ h => h

theorem does_requireBundle (hp : p.Plain) :
    Does V strict t (At V strict t p) (requireBundle t p) fun _ => At V strict t p := by
  refine Contract.bind (does_read _ (fun _ _ h => h) (Q := fun _ => At V strict t p) fun _ _ _ h => h) fun bundle => ?_
  cases bundle with
  | some bundle => exact Program.contract_pure fun _ _ h => h
  | none => exact does_throw hp _

theorem does_getIdentity (hl : t.lock = .direct peerId) :
    Does V strict t (At V strict t .step) (getIdentity t .step peerId) fun pin => At V strict t (.knowing pin) := by
  refine does_read _ (fun _ _ h => h) fun a d o h => h.relabel (fun _ => by simp) fun peer hpeer => ?_
  rw [hl] at hpeer
  cases hpeer
  rfl

theorem forget_plain (hp : p.Plain) (d : Device A S G) (o : List (Wait S G)) (h : At V strict t p d o) :
    At V strict t .step d o := h.forget fun _ => hp.ne

theorem does_insertIdentity (hl : t.lock = .direct peerId) (identity : Identity) :
    Does V strict t (At V strict t (.knowing none)) (insertIdentity t none peerId identity none) fun _ =>
      At V strict t (.knowing (some identity)) :=
  does_write _ (fun _ _ h => h) fun _ _ h => h.insertIdentity hl rfl (.inr ⟨.inl rfl, rfl⟩)

theorem does_deleteSessionsForPeer (hl : t.lock = .direct peerId) (p : Point S G) :
    Does V strict t (At V strict t p) (deleteSessionsForPeer t p peerId) fun _ => At V strict t .step :=
  does_write _ (fun _ _ h => h) fun _ _ h => h.deleteSessionsForPeer hl

theorem does_sessionIdsForPeer (peerId : Text) :
    Does V strict t (At V strict t .step) (sessionIdsForPeer t peerId) fun _ => At V strict t .step :=
  does_read _ (fun _ _ h => h) fun _ _ _ h => h

/-! ## Sessions -/

theorem does_upsert (row : SessionRow S) (base : Option (SessionRow S)) (release : Option (Release S G)) :
    Does V strict t (At V strict t (.storing row base release)) (upsert t row base release) fun _ d o =>
      At V strict t .step d o ∧ (∀ e, release = some e → e ∈ d.stored) ∧
        (strict → d.identities row.peerId = some row.establishedWith) ∧
          (base = none → d.identities row.peerId = some row.establishedWith) := by
  refine Contract.bind (does_read _ (fun _ _ h => h) (Q := fun _ => At V strict t (.storing row base release))
    fun _ _ _ h => h) fun stamp => does_write _ (fun _ _ h => h) fun d o h => ?_
  obtain ⟨hstep, hstored, hpin⟩ := h.upsertSession stamp
  exact ⟨hstep, hstored, hpin, fun hb => h.fits.2.pinned hb⟩

theorem does_persistNewSession (hl : t.lock = .direct peerId) (session : S) (identity : Identity) :
    Does V strict t (fun d o => Position.Move (d.Unused V t.lock) none (V.position session) none ∧
      At V strict t (.knowing (some identity)) d o) (persistNewSession V t peerId session identity) fun _ =>
        At V strict t (.knowing (some identity)) := by
  refine Contract.mono (does_upsert _ none none) (fun d o h => ?_) fun _ d o h => ?_
  · refine h.2.relabel (fun _ => by simp) ⟨hl, fun _ hb => (by cases hb), fun _ => h.2.fits peerId hl, hl ▸ h.1,
      fun _ he => (by cases he)⟩
  · refine h.1.relabel (fun _ => by simp) fun peer hpeer => ?_
    rw [hl] at hpeer
    cases hpeer
    exact h.2.2.2 rfl

theorem does_createOutbound (hV : V.Lawful) (hl : t.lock = .direct peerId) (bundle : OlmPreKeyBundle) :
    Does V strict t (At V strict t (.knowing (some bundle.identity))) (createOutbound V t peerId bundle) fun _ =>
      At V strict t .step := by
  refine Contract.bind (does_withAccount (plain_knowing _) fun account => ?_) fun _ =>
    Program.contract_pure (forget_plain (plain_knowing _))
  refine Contract.bind (does_random (plain_knowing _)) fun draw => ?_
  cases hs : V.createOutboundSession account bundle.identity.identityKey bundle.oneTimeKey draw with
  | error kind => exact Program.contract_throw fun d o h => forget_plain (plain_knowing _) d o h.2
  | ok session =>
    refine Contract.bind ((does_persistNewSession hl session bundle.identity).mono (fun d o h => ⟨?_, h.2⟩)
      fun _ _ _ h => h) fun _ => Program.contract_pure fun _ _ h => h
    rw [hV.outbound hs]
    exact .begin draw h.1

theorem does_createOutboundSession (hV : V.Lawful) (hl : t.lock = .direct peerId) :
    Does V strict t (At V strict t .step) (createOutboundSession V t peerId) fun _ => At V strict t .step := by
  refine Contract.bind (does_read _ (fun _ _ h => h) (Q := fun _ => At V strict t .step) fun _ _ _ h => h)
    fun fetched => ?_
  cases fetched with
  | none => exact Program.contract_pure fun _ _ h => h
  | some bundle =>
    refine Contract.bind (does_getIdentity hl) fun pinned => ?_
    cases pinned with
    | some pin =>
      show Does V strict t _ (if _ then _ else _) _
      split
      · refine Contract.mono (Contract.bind (does_on .step) fun _ => does_throw plain_step _)
          (forget_plain (plain_knowing _)) fun _ _ _ h => h
      · rename_i hsame
        rw [Decidable.not_not] at hsame
        rw [hsame]
        exact does_createOutbound hV hl bundle
    | none => exact Contract.bind (does_insertIdentity hl _) fun _ => does_createOutbound hV hl bundle

theorem does_ensureSessionUnlocked (hV : V.Lawful) (hl : t.lock = .direct peerId) (force : Bool) :
    Does V strict t (At V strict t .step) (ensureSessionUnlocked V t peerId force) fun _ => At V strict t .step := by
  unfold ensureSessionUnlocked
  split
  · exact Contract.bind (does_deleteSessionsForPeer hl _) fun _ => does_createOutboundSession hV hl
  · refine Contract.bind (does_sessionIdsForPeer peerId) fun ids => ?_
    show Does V strict t _ (if _ then _ else _) _
    split
    · exact does_createOutboundSession hV hl
    · exact Program.contract_pure fun _ _ h => h

/-- **`withSession`**: the row is written as its action has advanced it; `F` is what the action says of its result. -/
theorem does_withSession {sessionId : Text} {action : SessionRow S → Call A S G (Advance S (Release S G) α)}
    {F : SessionRow S → Option (Release S G) → α → Prop}
    (ha : ∀ row, Does V strict t (fun d o => At V strict t .step d o ∧
      d.sessions.get (peerId, sessionId) = some row) (action row) fun out d o =>
        At V strict t (.storing { row with session := out.session } (some row) out.release) d o ∧
          F row out.release out.result) :
    Does V strict t (At V strict t .step) (withSession t peerId sessionId action) fun x d o =>
      At V strict t .step d o ∧ ∃ row release, F row release x ∧ (∀ e, release = some e → e ∈ d.stored) ∧
        (strict → d.identities peerId = some row.establishedWith) := by
  refine Contract.bind (does_read _ (fun _ _ h => h) (Q := fun stored d o => At V strict t .step d o ∧
    d.sessions.get (peerId, sessionId) = stored) fun _ _ _ h => ⟨h, rfl⟩) fun stored => ?_
  cases stored with
  | none => exact Program.contract_throw fun _ _ h => h.1
  | some row =>
    intro d o h
    have hpeer : row.peerId = peerId := congrArg Prod.fst (Keyed.key_of_get h.2)
    refine Contract.bind (ha row) (fun out => ?_) d o h
    intro d o h
    refine Contract.bind (does_upsert _ _ _) (fun _ => Program.contract_pure fun d o hu => ?_) d o h.1
    exact ⟨hu.1, row, out.release, h.2, hu.2.1, fun hs => hpeer ▸ hu.2.2.1 hs⟩

theorem Ratchets.Lawful.move_encrypt (hV : V.Lawful) {fresh : ℕ → Prop} {draw : ℕ} (hr : fresh draw) (plaintext : Text)
    (s : S) : Position.Move fresh (some (V.position s)) (V.position (V.encrypt draw plaintext s).1)
      (some (V.nextKey draw s)) := by
  rw [hV.encrypt]
  unfold Ratchets.nextKey
  cases hc : (V.position s).chain with
  | none => exact .first draw hr
  | some c =>
    have hp : V.position s = ⟨some c, (V.position s).index⟩ := by rw [← hc]
    conv => arg 2; rw [hp]
    exact .next c _

theorem does_encryptWith (hV : V.Lawful) (hl : t.lock = .direct peerId) {sessionId : Text} (plaintext : Text)
    (row : SessionRow S) :
    Does V strict t (fun d o => At V strict t .step d o ∧ d.sessions.get (peerId, sessionId) = some row)
      (encryptWith V t plaintext row) fun out d o =>
        At V strict t (.storing { row with session := out.session } (some row) out.release) d o ∧
          (out.release = some out.result.2.1 ∧ out.result.2.2 = row.establishedWith) := by
  intro d o h
  obtain ⟨hdraw, hfresh⟩ := h.1.draw fun _ _ => trivial
  have hkey : row.key = (peerId, sessionId) := Keyed.key_of_get h.2
  have hpeer : row.peerId = peerId := congrArg Prod.fst hkey
  refine ⟨(hdraw.encrypt _).relabel (fun _ => by simp) ⟨hl.trans (congrArg Lock.direct hpeer.symm), fun b hb => ?_,
    fun hb => (by cases hb), ?_, fun e he => ?_⟩, rfl, rfl⟩
  · cases hb
    refine ⟨?_, rfl⟩
    show d.sessions.get row.key = some row
    rw [hkey]
    exact h.2
  · have hfresh' : (d.draw t.lock).Unused V (.direct row.peerId) d.drawn.length := by
      rw [hpeer, ← hl]
      exact hfresh
    exact hV.move_encrypt hfresh' plaintext row.session
  · cases he
    exact ⟨_, _, _, rfl, rfl⟩

theorem does_openWith (hV : V.Lawful) (hl : t.lock = .direct peerId) {sessionId : Text} (message : OlmEnvelope)
    (row : SessionRow S) :
    Does V strict t (fun d o => At V strict t .step d o ∧ d.sessions.get (peerId, sessionId) = some row)
      (openWith V message row) fun out d o =>
        At V strict t (.storing { row with session := out.session } (some row) out.release) d o ∧
          out.result.2 = row.establishedWith := by
  unfold openWith
  cases hd : V.decrypt message row.session with
  | error kind => exact Program.contract_throw fun _ _ h => h.1
  | ok opened =>
    refine Program.contract_pure fun d o h => ⟨?_, rfl⟩
    have hkey : row.key = (peerId, sessionId) := Keyed.key_of_get h.2
    have hpeer : row.peerId = peerId := congrArg Prod.fst hkey
    refine h.1.relabel (fun _ => by simp) ⟨hl.trans (congrArg Lock.direct hpeer.symm), fun b hb => ?_,
      fun hb => (by cases hb), ?_, fun e he => (by cases he)⟩
    · cases hb
      refine ⟨?_, rfl⟩
      show d.sessions.get row.key = some row
      rw [hkey]
      exact h.2
    · rcases hV.decrypt hd with hsame | hnone
      · rw [hsame]
        exact .keep _
      · exact .rest _ hnone

/-! ## Messages -/

theorem does_accept (hl : t.lock = .direct peerId) (identity : Identity) (plaintext : Text) :
    Does V strict t (fun d o => At V strict t .step d o ∧ (strict → d.identities peerId = some identity))
      (accept t peerId identity plaintext) fun _ => At V strict t .step := by
  refine Contract.bind (Contract.mono (does_on (.returning none (some identity))) (fun d o h => ?_) fun _ _ _ h => h)
    fun _ => Contract.bind (Program.contract_modify (Q := fun _ => At V strict t .step) fun d o h => ?_)
      fun _ => Program.contract_pure fun _ _ h => h
  · refine h.1.relabel (fun _ => by simp) ⟨fun _ he => (by cases he), fun hs i peer hi hpeer => ?_⟩
    rw [hl] at hpeer
    cases hi
    cases hpeer
    exact h.2 hs
  · have hpin : strict → d.identities peerId = some identity := fun hs => h.fits.2 hs identity peerId rfl hl
    exact (h.exchange hpin).forget fun _ => by simp

theorem does_tryAll (hV : V.Lawful) (hl : t.lock = .direct peerId) (message : OlmEnvelope) :
    ∀ ids lastError duplicate, Does V strict t (At V strict t .step) (tryAll V t peerId message ids lastError duplicate)
      fun _ => At V strict t .step
  | [], _, _ => Program.contract_pure fun _ _ h => h
  | id :: ids, _, duplicate => by
    refine Contract.bind (Contract.attempt (does_withSession
      (F := fun row _ x => x.2 = row.establishedWith) fun row => does_openWith hV hl message row)) fun result => ?_
    cases result with
    | ok opened =>
      refine Contract.bind (Contract.mono (does_accept hl opened.2 opened.1) (fun d o h => ?_) fun _ _ _ h => h)
        fun _ => Program.contract_pure fun _ _ h => h
      obtain ⟨hstep, row, release, hrow, -, hpin⟩ := h
      exact ⟨hstep, fun hs => hrow ▸ hpin hs⟩
    | error e =>
      cases e with
      | crypto kind => exact does_tryAll hV hl message ids _ _
      | _ => exact Program.contract_throw fun _ _ h => h

theorem does_acceptInboundSession (hV : V.Lawful) (hl : t.lock = .direct peerId) (preKeyBody : Text) :
    Does V strict t (At V strict t .step) (acceptInboundSession V t peerId preKeyBody) fun _ =>
      At V strict t .step := by
  refine Contract.bind (does_getIdentity hl) fun pinned => ?_
  rcases pinned with _ | pin
  on_goal 1 =>
    refine Contract.bind (does_requireBundle (plain_knowing _)) fun bundle => ?_
    refine Contract.bind (does_insertIdentity hl bundle.identity) fun _ => ?_
    refine Contract.mono ?_ (forget_plain (plain_knowing (some bundle.identity))) fun _ _ _ h => h
  on_goal 2 => refine Contract.mono ?_ (forget_plain (plain_knowing (some pin))) fun _ _ _ h => h
  -- with a pin, the one that was there or the new one
  all_goals
    refine Contract.bind (does_getIdentity hl) fun identity => ?_
    cases identity with
    | none => exact does_throw (plain_knowing _) _
    | some identity =>
      refine Contract.bind (does_withAccount (plain_knowing _) fun account => ?_) fun plaintext =>
        Contract.mono (does_accept hl identity plaintext) (fun d o h => ⟨?_, fun _ => h.fits peerId hl⟩)
          fun _ _ _ h => h
      · cases hs : V.createInboundSession account identity.identityKey preKeyBody with
        | error kind => exact does_throw (plain_knowing _) _
        | ok result =>
          obtain ⟨opened, session, text⟩ := result
          refine Contract.bind (Contract.mono (does_persistNewSession hl session identity)
            (fun d o h => ⟨.rest _ ?_, h⟩) fun _ _ _ h => h) fun _ => Program.contract_pure fun _ _ h => h
          exact hV.inbound hs
      · exact forget_plain (plain_knowing _) d o h

theorem does_conclude (hl : t.lock = .direct peerId) (lastError : Option CryptoErrorKind) (duplicate : Bool) :
    Does V strict t (At V strict t .step) (conclude t peerId lastError duplicate) fun _ => At V strict t .step := by
  unfold conclude
  split
  · exact does_throw plain_step _
  split
  · exact Contract.bind (does_deleteSessionsForPeer hl _) fun _ => does_throw plain_step _
  · exact does_throw plain_step _

/-! ## Groups -/

structure Opened (V : Ratchets A S G) (strict : Prop) (t : Turn) (groupId : Text) (stored : Option (GroupRow G))
    (session : G) (d : Device A S G) (o : List (Wait S G)) : Prop where
  holding : At V strict t .step d o
  found : d.groups groupId = stored
  move : Position.Move (d.Unused V (.group groupId)) (stored.map fun row => V.groupPosition row.session)
    (V.groupPosition session) none

/-- **`withGroupSession`**: the row is written as its action has advanced the session. -/
theorem does_withGroupSession (hV : V.Lawful) (hl : t.lock = .group groupId)
    {action : G → Call A S G (Advance G (Release S G) α)} {F : Option (Release S G) → α → Prop}
    (ha : ∀ stored session, Does V strict t (Opened V strict t groupId stored session) (action session) fun out d o =>
      At V strict t (.storingGroup ⟨groupId, V.groupSessionId out.session, out.session⟩ stored out.release) d o ∧
        F out.release out.result) :
    Does V strict t (At V strict t .step) (withGroupSession V t groupId action) fun x d o =>
      At V strict t .step d o ∧ ∃ release, F release x ∧ ∀ e, release = some e → e ∈ d.stored := by
  refine Contract.bind (does_read _ (fun _ _ h => h) (Q := fun stored d o => At V strict t .step d o ∧
    d.groups groupId = stored) fun _ _ _ h => ⟨h, rfl⟩) fun stored => ?_
  have hrest : ∀ session, Does V strict t (Opened V strict t groupId stored session) (action session >>= fun out => do
      let row : GroupRow G := ⟨groupId, V.groupSessionId out.session, out.session⟩
      write t (.storingGroup row stored out.release) (Device.upsertGroup row out.release)
      pure out.result) fun x d o =>
        At V strict t .step d o ∧ ∃ release, F release x ∧ ∀ e, release = some e → e ∈ d.stored := by
    intro session
    refine (ha stored session).bind fun out d o h => ?_
    refine Contract.bind (does_write _ (fun _ _ h => h) (Q := fun _ d o => At V strict t .step d o ∧
      ∀ e, out.release = some e → e ∈ d.stored) fun _ _ h => h.upsertGroup) (fun _ => ?_) d o h.1
    exact Program.contract_pure fun d o hw => ⟨hw.1, out.release, h.2, hw.2⟩
  cases stored with
  | some row =>
    intro d o h
    exact hrest row.session d o ⟨h.1, h.2, .keep _⟩
  | none =>
    intro d o h
    obtain ⟨hdraw, hfresh⟩ := h.1.draw fun _ _ => trivial
    refine hrest (V.createGroupSession d.drawn.length) _ o ⟨hdraw, h.2, ?_⟩
    rw [hV.group]
    exact .begin _ (hl ▸ hfresh)

theorem Opened.storing {stored : Option (GroupRow G)} {session : G} (h : Opened V strict t groupId stored session d o)
    (hl : t.lock = .group groupId) {session' : G} {release : Option (Release S G)}
    (hm : Position.Move (d.Unused V (.group groupId)) (stored.map fun row => V.groupPosition row.session)
      (V.groupPosition session') (release.map (Release.key V)))
    (he : ∀ e, release = some e → ∃ before plaintext, e = .group groupId before plaintext ∧
      session' = (V.encryptGroup plaintext before).1) :
    At V strict t (.storingGroup ⟨groupId, V.groupSessionId session', session'⟩ stored release) d o :=
  h.holding.relabel (fun _ => by simp) ⟨hl, h.found, hm, he⟩

theorem Ratchets.Lawful.move_encryptGroup (hV : V.Lawful) {fresh : ℕ → Prop} {before : Option Position} {session : G}
    (hm : Position.Move fresh before (V.groupPosition session) none) (plaintext : Text) :
    Position.Move fresh before (V.groupPosition (V.encryptGroup plaintext session).1)
      (some (V.groupChain session, V.groupIndex session)) := by
  rw [hV.encryptGroup]
  generalize hp : V.groupPosition session = p at hm
  cases hm with
  | keep =>
    rw [← hp]
    exact .next _ _
  | rest _ hc =>
    rw [← hp] at hc
    cases hc
  | begin r hr =>
    obtain ⟨hc, hi⟩ := Position.mk.inj hp
    rw [Option.some_inj.1 hc, hi]
    exact .first r hr

/-! ## The calls -/

/-- **`protect`**: an operation that keeps its lock keeps the invariant, also where it waits for the lock. -/
theorem protect_holds {lock : Lock} {operation : Turn → Call A S G α}
    (h : ∀ t, t.lock = lock → Does V strict t (At V strict t .step) (operation t) fun _ => At V strict t .step) :
    (protect lock operation).Contract (tasks V) (rules V strict) (Kept V strict) (Kept V strict) fun _ =>
      Kept V strict := by
  refine Contract.bind (Program.contract_sync (Q := fun t d o => t.lock = lock ∧ Kept V strict d (.queued t :: o))
    fun d o hk => ⟨rfl, hk.chain lock⟩) fun t => Program.contract_of fun hl => ?_
  refine Contract.bind (Program.contract_await (Q := fun _ => At V strict t .step) (fun _ _ hk => hk)
    (fun d o _ hr _ => ?_) fun a d o hi hr _ => ?_) fun _ => ?_
  · have hno : ready (.queued t) none d = true := hr
    simp [ready] at hno
  · have hturn : ready (.queued t) (some a) d = true := hr
    simp only [ready, Wait.turn, Option.isSome_some, Bool.true_and, Bool.and_eq_true, decide_eq_true_eq] at hturn
    exact hi.acquire (of_decide_eq_true hturn.1) hturn.2
  · refine Contract.bind (Contract.attempt (h t hl)) fun result => ?_
    refine Contract.bind (Program.contract_modify (Q := fun _ => Kept V strict) fun d o hr => ?_) fun _ => ?_
    · rw [← hl]
      cases result with
      | ok a => exact Holding.release hr
      | error e => exact Holding.release hr
    · cases result with
      | ok a => exact Program.contract_pure fun _ _ hk => hk
      | error e => exact Program.contract_throw fun _ _ hk => hk

abbrev Keeps (V : Ratchets A S G) (strict : Prop) (x : Call A S G α) : Prop :=
  x.Contract (tasks V) (rules V strict) (Kept V strict) (Kept V strict) fun _ => Kept V strict

theorem reviewPeerIdentity_keeps (peerId : Text) : Keeps V strict (reviewPeerIdentity V peerId) := by
  refine protect_holds fun t hl => ?_
  refine Contract.bind (does_requireBundle plain_step) fun bundle => ?_
  refine Contract.bind (does_getIdentity hl) fun previous => ?_
  refine Contract.bind (Contract.mono (does_localIdentityBytes plain_step) (forget_plain (plain_knowing previous))
    fun _ _ _ h => h) fun localIdentity => ?_
  exact Program.contract_modify fun _ _ h => h.setReviews _ _

theorem approvePeerIdentity_keeps (review : Review) : Keeps V strict (approvePeerIdentity V review) := by
  refine protect_holds fun t hl => ?_
  refine Contract.bind Program.contract_get fun d => Contract.mono ?_ (fun _ _ h => h.2) fun _ _ _ h => h
  show Does V strict t _ (if _ then _ else _) _
  split
  · exact does_throw plain_step _
  refine Contract.bind (Program.contract_modify (Q := fun _ => At V strict t .step) fun _ _ h => h.setReviews _ _)
    fun _ => ?_
  refine Contract.bind (does_requireBundle plain_step) fun bundle => ?_
  refine Contract.bind (does_getIdentity hl) fun previous => ?_
  refine Contract.bind (does_localIdentityBytes (plain_knowing previous)) fun localIdentity => ?_
  show Does V strict t _ (if _ then _ else _) _
  split
  · exact does_throw (plain_knowing previous) _
  rename_i hfresh
  rw [not_or, not_or, Decidable.not_not, Decidable.not_not] at hfresh
  obtain ⟨hpresented, hprevious, -⟩ := hfresh
  have hlawful : PinChange.Lawful ⟨review.peerId, previous, review.currentIdentity, some (review, bundle.identity)⟩ :=
    ⟨rfl, hprevious, rfl, hpresented⟩
  by_cases hchanged : review.identityChanged = true
  · refine Contract.bind (does_write _ (fun _ _ h => h) (Q := fun _ => At V strict t .clearing) fun _ _ h =>
      h.insertIdentity hl hlawful (.inl ⟨rfl, ?_⟩)) fun _ => ?_
    · rw [hprevious]
      simpa [Review.identityChanged] using hchanged
    rw [if_pos hchanged]
    exact does_deleteSessionsForPeer hl .clearing
  · have hsame : previous = some review.currentIdentity := by
      rw [hprevious]
      simpa [Review.identityChanged] using hchanged
    refine Contract.bind (does_write _ (fun _ _ h => h) (Q := fun _ =>
      At V strict t (.knowing (some review.currentIdentity))) fun _ _ h =>
        h.insertIdentity hl hlawful (.inr ⟨.inr hsame, rfl⟩)) fun _ => ?_
    rw [if_neg hchanged]
    exact Program.contract_pure (forget_plain (plain_knowing _))

theorem ensureSession_keeps (hV : V.Lawful) (recipientId : Text) (force : Bool) :
    Keeps V strict (ensureSession V recipientId force) :=
  protect_holds fun _ hl => does_ensureSessionUnlocked hV hl force

theorem resetPeerSession_keeps (peerId : Text) : Keeps V strict (resetPeerSession (A := A) (S := S) (G := G) peerId) :=
  protect_holds fun _ hl => does_deleteSessionsForPeer hl .step

theorem openFreshSession_keeps (hV : V.Lawful) (peerId : Text) : Keeps V strict (openFreshSession V peerId) :=
  protect_holds fun _ hl => does_createOutboundSession hV hl

theorem rebuildPeerSession_keeps (hV : V.Lawful) (peerId : Text) : Keeps V strict (rebuildPeerSession V peerId) :=
  protect_holds fun _ hl => Contract.bind (does_deleteSessionsForPeer hl .step) fun _ =>
    does_ensureSessionUnlocked hV hl true

theorem encryptDirect_keeps (hV : V.Lawful) (recipientId plaintext : Text) :
    Keeps V strict (encryptDirect V recipientId plaintext) := by
  refine protect_holds fun t hl => ?_
  refine Contract.bind (does_ensureSessionUnlocked hV hl false) fun established => ?_
  show Does V strict t _ (if _ then _ else _) _
  split
  · exact does_throw plain_step _
  refine Contract.bind (does_sessionIdsForPeer recipientId) fun ids => ?_
  cases ids with
  | nil => exact does_throw plain_step _
  | cons sessionId ids =>
    refine Contract.bind (does_withSession (F := fun row release (x : OlmEnvelope × Release S G × Identity) =>
      release = some x.2.1 ∧ x.2.2 = row.establishedWith) fun row => does_encryptWith hV hl plaintext row)
        fun sent => ?_
    refine Contract.bind (Contract.mono (does_on (.returning (some sent.2.1) (some sent.2.2))) (fun d o h => ?_)
      fun _ _ _ h => h) fun _ => ?_
    · obtain ⟨hstep, row, release, ⟨hrelease, hidentity⟩, hstored, hpin⟩ := h
      refine hstep.relabel (fun _ => by simp) ⟨fun e he => ?_, fun hs i peer hi hpeer => ?_⟩
      · cases he
        exact hstored _ hrelease
      · rw [hl] at hpeer
        cases hpeer
        cases hi
        rw [hidentity]
        exact hpin hs
    · refine Contract.bind (Program.contract_modify (Q := fun _ => At V strict t .step) fun d o h => ?_) fun _ =>
        Program.contract_pure fun _ _ h => h
      have hpin : strict → d.identities recipientId = some sent.2.2 := fun hs => h.fits.2 hs _ recipientId rfl hl
      exact ((h.giveBack (h.fits.1 _ rfl)).exchange hpin).forget fun _ => by simp

theorem decryptDirect_keeps (hV : V.Lawful) (senderId envelope : Text) :
    Keeps V strict (decryptDirect V senderId envelope) := by
  refine protect_holds fun t hl => ?_
  cases parseDirect envelope with
  | none => exact does_throw plain_step _
  | some message =>
    refine Contract.bind (does_sessionIdsForPeer senderId) fun ids => ?_
    refine Contract.bind (does_tryAll hV hl message ids none false) fun tried => ?_
    cases tried with
    | ok plaintext => exact Program.contract_pure fun _ _ h => h
    | error last =>
      show Does V strict t _ (if _ then _ else _) _
      split
      · refine Contract.bind (Contract.attempt (does_acceptInboundSession hV hl message.body)) fun result => ?_
        cases result with
        | ok plaintext => exact Program.contract_pure fun _ _ h => h
        | error e =>
          cases e with
          | crypto kind =>
            cases kind with
            | identityMismatch => exact Contract.bind (does_on .step) fun _ => does_throw plain_step _
            | _ => exact does_conclude hl _ _
          | _ => exact does_throw plain_step _
      · exact does_conclude hl _ _

theorem createSenderKeyDistribution_keeps (hV : V.Lawful) (groupId : Text) :
    Keeps V strict (createSenderKeyDistribution V groupId) := by
  refine protect_holds fun t hl => ?_
  refine Contract.bind (does_withGroupSession hV hl (F := fun _ _ => True) fun stored session =>
    Program.contract_pure fun d o h => ⟨h.storing hl h.move fun _ he => (by cases he), trivial⟩) fun _ =>
      Program.contract_pure fun _ _ h => h.1

theorem encryptGroup_keeps (hV : V.Lawful) (groupId plaintext : Text) :
    Keeps V strict (encryptGroup V groupId plaintext) := by
  refine protect_holds fun t hl => ?_
  refine Contract.bind (does_withGroupSession hV hl (F := fun release (x : Release S G × Text × Text) =>
    release = some x.1) fun stored session => ?_) fun result => ?_
  · intro d o h
    refine ⟨?_, rfl⟩
    have hopened : Opened V strict t groupId stored session (d.encrypt (.group groupId session plaintext)) o :=
      ⟨h.holding.encrypt _, h.found, h.move⟩
    refine hopened.storing hl (hV.move_encryptGroup h.move plaintext) fun e he => ?_
    cases he
    exact ⟨_, _, rfl, rfl⟩
  · refine Contract.bind (Contract.mono (does_on (.returning (some result.1) none)) (fun d o h => ?_)
      fun _ _ _ h => h) fun _ => ?_
    · obtain ⟨hstep, release, hrelease, hstored⟩ := h
      refine hstep.relabel (fun _ => by simp) ⟨fun e he => ?_, fun _ _ _ hi => (by cases hi)⟩
      cases he
      exact hstored _ hrelease
    · refine Contract.bind (Program.contract_modify (Q := fun _ => At V strict t .step) fun d o h => ?_) fun _ =>
        Program.contract_pure fun _ _ h => h
      exact (h.giveBack (h.fits.1 _ rfl)).forget fun _ => by simp

theorem receiveGroup_keeps (groupId : Text) : Keeps V strict (receiveGroup (A := A) (S := S) (G := G) groupId) := by
  refine protect_holds fun t _ => ?_
  refine Contract.bind (does_on .step) fun _ => Contract.bind (does_on .step) fun _ => ?_
  exact Contract.bind (does_on .step) fun _ => Program.contract_pure fun _ _ h => h

theorem resetLocalSenderKey_keeps (groupId : Text) :
    Keeps V strict (resetLocalSenderKey (A := A) (S := S) (G := G) groupId) :=
  protect_holds fun _ hl => does_write _ (fun _ _ h => h) fun _ _ h => h.deleteGroup hl

theorem ignore_keeps {x : Call A S G α} (h : Keeps V strict x) : Keeps V strict (ignore x) :=
  Contract.bind h fun _ => Program.contract_pure fun _ _ h => h

theorem program_holds (hV : V.Lawful) (e : Event) (hk : Kept V strict d o) (hu : strict → uncut e d o = true) :
    (program V e).HoldsBeside (tasks V) (rules V strict) (fun _ => Kept V strict) d o := by
  have hcall : Keeps V strict (program V e) ∨ e = .stop := by
    cases e with
    | reviewPeerIdentity peerId => exact .inl (reviewPeerIdentity_keeps peerId)
    | approvePeerIdentity review => exact .inl (approvePeerIdentity_keeps review)
    | ensureSession recipientId force => exact .inl (ignore_keeps (ensureSession_keeps hV recipientId force))
    | resetPeerSession peerId => exact .inl (resetPeerSession_keeps peerId)
    | openFreshSession peerId => exact .inl (ignore_keeps (openFreshSession_keeps hV peerId))
    | rebuildPeerSession peerId => exact .inl (ignore_keeps (rebuildPeerSession_keeps hV peerId))
    | encryptDirect recipientId plaintext => exact .inl (ignore_keeps (encryptDirect_keeps hV recipientId plaintext))
    | decryptDirect senderId envelope => exact .inl (ignore_keeps (decryptDirect_keeps hV senderId envelope))
    | createSenderKeyDistribution groupId => exact .inl (ignore_keeps (createSenderKeyDistribution_keeps hV groupId))
    | encryptGroup groupId plaintext => exact .inl (ignore_keeps (encryptGroup_keeps hV groupId plaintext))
    | receiveGroup groupId => exact .inl (receiveGroup_keeps groupId)
    | resetLocalSenderKey groupId => exact .inl (resetLocalSenderKey_keeps groupId)
    | stop => exact .inr rfl
  rcases hcall with hcall | rfl
  · refine (hcall d o hk).imp fun r _ _ h => ?_
    cases r with
    | ok _ => exact h
    | error _ => exact h
  · exact hk.stop hu

theorem position_start : Device.position V {} = fun _ => none := by
  funext k
  cases k with
  | direct peerId sessionId => rfl
  | group groupId => rfl

theorem kept_start : Kept V strict {} [] where
  good := ⟨position_start (V := V) ▸ Position.sound_empty _, fun e he => absurd he List.not_mem_nil, fun e he =>
    absurd he List.not_mem_nil,
    fun c hc => absurd hc List.not_mem_nil, fun _ m hm => absurd hm List.not_mem_nil⟩
  bound _ peerId := .inl fun sessionId row hrow => by cases hrow
  queues _ := Nat.le_refl 0
  runtimes w hw := absurd hw List.not_mem_nil
  turns := List.nodup_nil
  fits w hw := absurd hw List.not_mem_nil

theorem kept_run (hV : V.Lawful) {q : State A S G} {ls : List (Pool.Label Event (Option Answer))}
    (hm : Runs.Meets (tasks V).step (Pool.Moves (Tasks.Orderly (rules V strict))) ⟨{}, []⟩ ls)
    (hr : Runs.run (tasks V).step ⟨{}, []⟩ ls = some q) : Kept V strict q.shared (Task.labels q.threads) :=
  Tasks.holds_run (R := rules V strict) (fun _ _ _ hp h => h.perm hp) (fun e _ _ h hu => program_holds hV e h hu)
    kept_start hm hr

end PeerSessions
end SecureChat
