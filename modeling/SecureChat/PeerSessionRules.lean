import SecureChat.AsyncContracts
import SecureChat.VodozemacCryptoService
/-!
# PeerSessionRules — what the operations on sessions and pins keep

`Kept` is what holds whenever operations wait: the sessions that are stored send with message keys that were not used,
every ciphertext that was returned belongs to a session that was written after it, and the pins were written as they may
be.  An operation that holds its lock relies on rows that no other operation writes (`Frame`).

That every session with a peer is one with the pinned identity (`BoundTo`) holds only `strict`ly, where no approval is
cut short between its two writes.
-/
namespace SecureChat
namespace PeerSessions

open Async
open Program (get modify HoldsBeside Contract)

variable {A S G : Type}

/-! ## The statements -/

def Device.position (V : Ratchets A S G) (d : Device A S G) : Key → Option Position
  | .direct peerId sessionId => (d.sessions.get (peerId, sessionId)).map fun row => V.position row.session
  | .group groupId => (d.groups groupId).map fun row => V.groupPosition row.session

def Release.Persisted (V : Ratchets A S G) (d : Device A S G) : Release S G → Prop
  | .direct peerId sessionId before draw plaintext => ∃ row ∈ d.writtenSessions,
    row.key = (peerId, sessionId) ∧ row.session = (V.encrypt draw plaintext before).1
  | .group groupId before plaintext => ∃ row ∈ d.writtenGroups,
    row.groupId = groupId ∧ row.session = (V.encryptGroup plaintext before).1

/-- A first contact, or an approval whose snapshot matches what was pinned and what was presented. -/
def PinChange.Lawful (c : PinChange) : Prop :=
  match c.approval with
  | none => c.previous = none
  | some (review, presented) => review.peerId = c.peerId ∧ c.previous = review.previousIdentity ∧
    c.identity = review.currentIdentity ∧ presented = review.currentIdentity

/-- Every session with the peer was established with the identity that is pinned. -/
def Device.BoundTo (d : Device A S G) (peerId : GroupControl.Text) : Prop :=
  ∀ sessionId row, d.sessions.get (peerId, sessionId) = some row → d.identities peerId = some row.establishedWith

def Device.StaleFor (d : Device A S G) (peerId : GroupControl.Text) : Prop :=
  ∀ sessionId row, d.sessions.get (peerId, sessionId) = some row → d.identities peerId ≠ some row.establishedWith

def Device.hasSession (peerId : GroupControl.Text) (d : Device A S G) : Bool :=
  d.sessions.values.any fun row => decide (row.peerId = peerId)

/-- The peer of an approval between its two writes whose sessions are still to be deleted. -/
def Wait.clears (d : Device A S G) : Wait S G → Option GroupControl.Text
  | .held t .clearing =>
    match t.lock with
    | .direct peerId => if t.runtime = d.runtime ∧ d.hasSession peerId = true then some peerId else none
    | .group _ => none
  | _ => none

/-- The condition on a call: the process does not stop between the two writes of an approval. -/
def uncut (e : Event) (d : Device A S G) (o : List (Wait S G)) : Bool :=
  match e with
  | .stop => o.all fun w => (w.clears d).isNone
  | _ => true

/-- The condition on the end of a step: the second write of an approval does not fail. -/
def cleared (w : Wait S G) (answer : Option Answer) (d : Device A S G) : Bool := answer.isSome || (w.clears d).isNone

/-! ## The invariant -/

section Statements

variable (V : Ratchets A S G) (strict : Prop) (d : Device A S G)

abbrev Device.Unused (l : Lock) (r : ℕ) : Prop :=
  Position.Fresh (d.position V) d.drawn (d.stored.map (Release.key V)) l r

/-- A session that is to be written is the next one of the row it replaces, or a new one with the pinned identity. -/
structure Device.Storing (row : SessionRow S) (base : Option (SessionRow S)) (release : Option (Release S G)) :
    Prop where
  replaces : ∀ b, base = some b → d.sessions.get row.key = some b ∧ b.establishedWith = row.establishedWith
  pinned : base = none → d.identities row.peerId = some row.establishedWith
  move : Position.Move (d.Unused V (.direct row.peerId)) (base.map fun b => V.position b.session)
    (V.position row.session) (release.map (Release.key V))
  made : ∀ e, release = some e → ∃ before draw plaintext,
    e = .direct row.peerId row.sessionId before draw plaintext ∧ row.session = (V.encrypt draw plaintext before).1

structure Device.StoringGroup (row : GroupRow G) (base : Option (GroupRow G)) (release : Option (Release S G)) :
    Prop where
  replaces : d.groups row.groupId = base
  move : Position.Move (d.Unused V (.group row.groupId)) (base.map fun b => V.groupPosition b.session)
    (V.groupPosition row.session) (release.map (Release.key V))
  made : ∀ e, release = some e → ∃ before plaintext,
    e = .group row.groupId before plaintext ∧ row.session = (V.encryptGroup plaintext before).1

def Point.Fits (l : Lock) : Point S G → Prop
  | .step => True
  | .knowing pin => ∀ peerId, l = .direct peerId → d.identities peerId = pin
  | .clearing => strict → ∀ peerId, l = .direct peerId → d.StaleFor peerId
  | .storing row base release => l = .direct row.peerId ∧ d.Storing V row base release
  | .storingGroup row base release => l = .group row.groupId ∧ d.StoringGroup V row base release
  | .returning release establishedWith => (∀ e, release = some e → e ∈ d.stored) ∧
    (strict → ∀ i peerId, establishedWith = some i → l = .direct peerId → d.identities peerId = some i)

def Wait.Fits : Wait S G → Prop
  | .queued t => t.ticket < d.chained t.lock ∧ d.done t.lock ≤ t.ticket
  | .held t p => t.ticket < d.chained t.lock ∧ d.done t.lock = t.ticket ∧ p.Fits V strict d t.lock

structure Device.Good : Prop where
  sound : Position.Sound Key.lock (d.position V) d.drawn (d.stored.map (Release.key V))
  persisted : ∀ e ∈ d.stored, e.Persisted V d
  returned : ∀ e ∈ d.returned, e ∈ d.stored
  pins : ∀ c ∈ d.pins, c.Lawful
  messages : strict → ∀ m ∈ d.messages, m.pinned = some m.establishedWith

structure Kept (o : List (Wait S G)) : Prop where
  good : d.Good V strict
  bound : strict → ∀ peerId, d.BoundTo peerId ∨
    ∃ t, .held t .clearing ∈ o ∧ t.runtime = d.runtime ∧ t.lock = .direct peerId
  queues : ∀ l, d.done l ≤ d.chained l
  runtimes : ∀ w ∈ o, w.turn.runtime ≤ d.runtime
  turns : (o.map Wait.turn).Nodup
  fits : ∀ w ∈ o, w.turn.runtime = d.runtime → w.Fits V strict d

structure Holding (t : Turn) (p : Point S G) (o : List (Wait S G)) : Prop where
  current : t.runtime = d.runtime
  kept : Kept V strict d (.held t p :: o)

end Statements

abbrev rules (V : Ratchets A S G) (strict : Prop) : Tasks.Rules Answer (Wait S G) (Device A S G) Event :=
  ⟨Kept V strict, fun e d o => strict → uncut e d o = true, fun w answer d _ => strict → cleared w answer d = true⟩

/-! ## The frame of a lock -/

structure Device.Frame (V : Ratchets A S G) (l : Lock) (d d' : Device A S G) : Prop where
  runtime : d'.runtime = d.runtime
  chained : d'.chained = d.chained
  done : d'.done = d.done
  identities : ∀ peerId, l ≠ .direct peerId → d'.identities peerId = d.identities peerId
  sessions : ∀ peerId sessionId, l ≠ .direct peerId →
    d'.sessions.get (peerId, sessionId) = d.sessions.get (peerId, sessionId)
  groups : ∀ groupId, l ≠ .group groupId → d'.groups groupId = d.groups groupId
  stored : ∀ e ∈ d.stored, e ∈ d'.stored
  unused : ∀ l' r, l' ≠ l → d.Unused V l' r → d'.Unused V l' r

section Frame

variable {V : Ratchets A S G} {strict : Prop} {d d' : Device A S G} {l l' : Lock} {p p' : Point S G} {t : Turn}
  {o o' : List (Wait S G)} {peerId : GroupControl.Text}

theorem Device.Frame.refl (d : Device A S G) : d.Frame V l d :=
  ⟨rfl, rfl, rfl, fun _ _ => rfl, fun _ _ _ => rfl, fun _ _ => rfl, fun _ h => h, fun _ _ _ h => h⟩

theorem Point.Fits.frame (h : p.Fits V strict d l') (hf : d.Frame V l d') (hl : l' ≠ l) : p.Fits V strict d' l' := by
  cases p with
  | step => trivial
  | clearing =>
    intro hs peerId hpeer sessionId row hrow
    have hne : l ≠ .direct peerId := fun he => hl (hpeer.trans he.symm)
    rw [hf.sessions _ _ hne] at hrow
    rw [hf.identities _ hne]
    exact h hs peerId hpeer sessionId row hrow
  | knowing pin =>
    intro peerId hpeer
    rw [hf.identities peerId fun he => hl (hpeer.trans he.symm)]
    exact h peerId hpeer
  | storing row base release =>
    obtain ⟨hlock, hs⟩ := h
    have hne : l ≠ .direct row.peerId := fun he => hl (hlock.trans he.symm)
    refine ⟨hlock, fun b hb => ?_, fun hb => ?_, hs.move.imp fun r hr => ?_, hs.made⟩
    · rw [hf.sessions _ _ hne]
      exact hs.replaces b hb
    · rw [hf.identities _ hne]
      exact hs.pinned hb
    · exact hf.unused _ r hne.symm hr
  | storingGroup row base release =>
    obtain ⟨hlock, hs⟩ := h
    have hne : l ≠ .group row.groupId := fun he => hl (hlock.trans he.symm)
    refine ⟨hlock, ?_, hs.move.imp fun r hr => hf.unused _ r hne.symm hr, hs.made⟩
    rw [hf.groups _ hne]
    exact hs.replaces
  | returning release establishedWith =>
    refine ⟨fun e he => hf.stored e (h.1 e he), fun hs i peerId hi hpeer => ?_⟩
    rw [hf.identities peerId fun he => hl (hpeer.trans he.symm)]
    exact h.2 hs i peerId hi hpeer

theorem Holding.alone (h : Holding V strict d t p o) {t' : Turn} {p' : Point S G} (hw : .held t' p' ∈ o)
    (hr : t'.runtime = d.runtime) : t'.lock ≠ t.lock := by
  intro hlock
  have hours := (h.kept.fits _ List.mem_cons_self h.current).2.1
  have htheirs := (h.kept.fits _ (List.mem_cons_of_mem _ hw) hr).2.1
  rw [hlock] at htheirs
  have hturn : t' = t := Turn.ext (hr.trans h.current.symm) hlock (htheirs.symm.trans hours)
  exact (List.nodup_cons.1 h.kept.turns).1 (List.mem_map.2 ⟨_, hw, hturn⟩)

theorem Device.boundTo_of_hasSession (h : d.hasSession peerId = false) : d.BoundTo peerId := by
  intro sessionId row hrow
  have hkey : row.key = (peerId, sessionId) := Keyed.key_of_get hrow
  have hne := List.any_eq_false.1 h row (Table.mem_values.2 ⟨_, hrow⟩)
  exact absurd (decide_eq_true (congrArg Prod.fst hkey)) hne

theorem Wait.clears_eq_some {w : Wait S G} : w.clears d = some peerId ↔ ∃ t, w = .held t .clearing ∧
    t.runtime = d.runtime ∧ t.lock = .direct peerId ∧ d.hasSession peerId = true := by
  constructor
  · intro h
    unfold Wait.clears at h
    split at h
    · rename_i t
      split at h
      · rename_i peer hl
        split at h
        · rename_i hc
          cases h
          exact ⟨t, rfl, hc.1, hl, hc.2⟩
        · cases h
      · cases h
    · cases h
  · rintro ⟨t, rfl, hr, hl, hsession⟩
    simp only [Wait.clears, hl]
    exact if_pos ⟨hr, hsession⟩

theorem Holding.bound (h : Holding V strict d t p o) (hs : strict) (hp : p ≠ .clearing)
    (hl : t.lock = .direct peerId) : d.BoundTo peerId := by
  rcases h.kept.bound hs peerId with hb | ⟨t', hmem, hr, hl'⟩
  · exact hb
  · rcases List.mem_cons.1 hmem with he | hmem
    · cases he
      exact absurd rfl hp
    · exact absurd (hl'.trans hl.symm) (h.alone hmem hr)

theorem Holding.go (h : Holding V strict d t p o) (hf : d.Frame V t.lock d') (hgood : d'.Good V strict)
    (hbound : strict → p' ≠ .clearing → ∀ peerId, t.lock = .direct peerId → d'.BoundTo peerId)
    (hfit : p'.Fits V strict d' t.lock) : Holding V strict d' t p' o where
  current := h.current.trans hf.runtime.symm
  kept := by
    have hold := h.kept.fits _ List.mem_cons_self h.current
    refine ⟨hgood, fun hs peerId => ?_, fun l => ?_, fun w hw => ?_, h.kept.turns, fun w hw hr => ?_⟩
    · by_cases hpeer : t.lock = .direct peerId
      · by_cases hp : p' = .clearing
        · subst hp
          exact .inr ⟨t, List.mem_cons_self, h.current.trans hf.runtime.symm, hpeer⟩
        · exact .inl (hbound hs hp peerId hpeer)
      · rcases h.kept.bound hs peerId with hb | ⟨t', hmem, hr, hl'⟩
        · left
          intro sessionId row hrow
          rw [hf.sessions _ _ hpeer] at hrow
          rw [hf.identities _ hpeer]
          exact hb sessionId row hrow
        · rcases List.mem_cons.1 hmem with he | hmem
          · cases he
            exact absurd hl' hpeer
          · exact .inr ⟨t', List.mem_cons_of_mem _ hmem, hr.trans hf.runtime.symm, hl'⟩
    · rw [hf.chained, hf.done]
      exact h.kept.queues l
    · rw [hf.runtime]
      rcases List.mem_cons.1 hw with rfl | hw
      · exact h.current.le
      · exact h.kept.runtimes w (List.mem_cons_of_mem _ hw)
    · rcases List.mem_cons.1 hw with rfl | hw
      · refine ⟨?_, ?_, hfit⟩
        · rw [hf.chained]
          exact hold.1
        · rw [hf.done]
          exact hold.2.1
      · rw [hf.runtime] at hr
        have hw' := h.kept.fits w (List.mem_cons_of_mem _ hw) hr
        cases w with
        | queued t' =>
          show _ < d'.chained t'.lock ∧ d'.done t'.lock ≤ _
          rw [hf.chained, hf.done]
          exact hw'
        | held t' p'' =>
          refine ⟨?_, ?_, hw'.2.2.frame hf (h.alone hw hr)⟩
          · rw [hf.chained]
            exact hw'.1
          · rw [hf.done]
            exact hw'.2.1

theorem Holding.relabel (h : Holding V strict d t p o) (hp : strict → p ≠ .clearing)
    (hfit : p'.Fits V strict d t.lock) : Holding V strict d t p' o :=
  h.go (.refl d) h.kept.good (fun hs _ _ hl => h.bound hs (hp hs) hl) hfit

theorem Holding.forget (h : Holding V strict d t p o) (hp : strict → p ≠ .clearing) : Holding V strict d t .step o :=
  h.relabel hp trivial

theorem Holding.fits (h : Holding V strict d t p o) : p.Fits V strict d t.lock :=
  (h.kept.fits _ List.mem_cons_self h.current).2.2

end Frame

/-! ## The changes of the device -/

section Changes

variable {V : Ratchets A S G} {strict : Prop} {d d' : Device A S G} {l : Lock} {p : Point S G} {t : Turn}
  {o o' : List (Wait S G)} {peerId : GroupControl.Text}

theorem Kept.perm (hp : o.Perm o') (h : Kept V strict d o) : Kept V strict d o' where
  good := h.good
  bound hs peerId := by
    rcases h.bound hs peerId with hb | ⟨t, hmem, ht⟩
    · exact .inl hb
    · exact .inr ⟨t, hp.mem_iff.1 hmem, ht⟩
  queues := h.queues
  runtimes w hw := h.runtimes w (hp.mem_iff.2 hw)
  turns := (hp.map Wait.turn).nodup_iff.1 h.turns
  fits w hw := h.fits w (hp.mem_iff.2 hw)

structure Device.Same (d d' : Device A S G) : Prop where
  identities : d'.identities = d.identities
  sessions : d'.sessions = d.sessions
  groups : d'.groups = d.groups
  drawn : d'.drawn = d.drawn
  stored : d'.stored = d.stored

theorem Device.Same.position (h : d.Same d') : d'.position V = d.position V := by
  funext k
  cases k with
  | direct peerId sessionId => rw [Device.position, Device.position, h.sessions]
  | group groupId => rw [Device.position, Device.position, h.groups]

theorem Device.Same.unused (h : d.Same d') {l' : Lock} {r : ℕ} (hr : d.Unused V l' r) : d'.Unused V l' r := by
  unfold Device.Unused
  rw [h.position, h.drawn, h.stored]
  exact hr

theorem Device.Same.boundTo (h : d.Same d') (hb : d.BoundTo peerId) : d'.BoundTo peerId := by
  intro sessionId row hrow
  rw [h.sessions] at hrow
  rw [h.identities]
  exact hb sessionId row hrow

theorem Device.Same.fits (h : d.Same d') (hp : p.Fits V strict d l) : p.Fits V strict d' l := by
  cases p with
  | step => trivial
  | clearing =>
    intro hs peerId hl sessionId row hrow
    rw [h.sessions] at hrow
    rw [h.identities]
    exact hp hs peerId hl sessionId row hrow
  | knowing pin =>
    intro peerId hl
    rw [h.identities]
    exact hp peerId hl
  | storing row base release =>
    obtain ⟨hl, hs⟩ := hp
    refine ⟨hl, ?_, ?_, hs.move.imp fun _ => h.unused, hs.made⟩
    · rw [h.sessions]
      exact hs.replaces
    · rw [h.identities]
      exact hs.pinned
  | storingGroup row base release =>
    obtain ⟨hl, hs⟩ := hp
    refine ⟨hl, ?_, hs.move.imp fun _ => h.unused, hs.made⟩
    rw [h.groups]
    exact hs.replaces
  | returning release establishedWith =>
    refine ⟨?_, ?_⟩
    · rw [h.stored]
      exact hp.1
    · rw [h.identities]
      exact hp.2

theorem Release.Persisted.mono {e : Release S G} (h : e.Persisted V d)
    (hs : ∀ row ∈ d.writtenSessions, row ∈ d'.writtenSessions) (hg : ∀ row ∈ d.writtenGroups, row ∈ d'.writtenGroups) :
    e.Persisted V d' := by
  cases e with
  | direct peerId sessionId before draw plaintext =>
    obtain ⟨row, hrow, he⟩ := h
    exact ⟨row, hs row hrow, he⟩
  | group groupId before plaintext =>
    obtain ⟨row, hrow, he⟩ := h
    exact ⟨row, hg row hrow, he⟩

structure Device.Adds (strict : Prop) (d d' : Device A S G) : Prop where
  returned : ∀ e ∈ d'.returned, e ∈ d.stored
  sessions : d'.writtenSessions = d.writtenSessions
  groups : d'.writtenGroups = d.writtenGroups
  pins : d'.pins = d.pins
  messages : strict → ∀ m ∈ d'.messages, m.pinned = some m.establishedWith

theorem Device.Good.same (h : d.Good V strict) (hs : d.Same d') (ha : d.Adds strict d') : d'.Good V strict where
  sound := by
    rw [hs.position, hs.drawn, hs.stored]
    exact h.sound
  persisted e he := by
    rw [hs.stored] at he
    exact (h.persisted e he).mono (fun row hrow => ha.sessions ▸ hrow) fun row hrow => ha.groups ▸ hrow
  returned e he := by
    rw [hs.stored]
    exact ha.returned e he
  pins := ha.pins ▸ h.pins
  messages := ha.messages

theorem Holding.same (h : Holding V strict d t p o) (hs : d.Same d')
    (hl : d'.runtime = d.runtime ∧ d'.chained = d.chained ∧ d'.done = d.done) (ha : d.Adds strict d') :
    Holding V strict d' t p o := by
  refine h.go ⟨hl.1, hl.2.1, hl.2.2, fun _ _ => congrFun hs.identities _, fun _ _ _ => ?_,
    fun _ _ => congrFun hs.groups _, fun e he => hs.stored ▸ he, fun _ _ _ => hs.unused⟩ (h.kept.good.same hs ha)
    (fun hst hp peerId hpeer => hs.boundTo (h.bound hst hp hpeer)) (hs.fits h.fits)
  rw [hs.sessions]

theorem Holding.setAccount (h : Holding V strict d t p o) (account : A) :
    Holding V strict (d.setAccount account) t p o :=
  h.same ⟨rfl, rfl, rfl, rfl, rfl⟩ ⟨rfl, rfl, rfl⟩ ⟨h.kept.good.returned, rfl, rfl, rfl, h.kept.good.messages⟩

theorem Holding.setReviews (h : Holding V strict d t p o) (reviews : ℕ) (issued : List Review) :
    Holding V strict (d.setReviews reviews issued) t p o :=
  h.same ⟨rfl, rfl, rfl, rfl, rfl⟩ ⟨rfl, rfl, rfl⟩ ⟨h.kept.good.returned, rfl, rfl, rfl, h.kept.good.messages⟩

theorem Holding.encrypt (h : Holding V strict d t p o) (release : Release S G) :
    Holding V strict (d.encrypt release) t p o :=
  h.same ⟨rfl, rfl, rfl, rfl, rfl⟩ ⟨rfl, rfl, rfl⟩ ⟨h.kept.good.returned, rfl, rfl, rfl, h.kept.good.messages⟩

theorem Holding.giveBack (h : Holding V strict d t p o) {release : Release S G} (hr : release ∈ d.stored) :
    Holding V strict (d.giveBack release) t p o := by
  refine h.same ⟨rfl, rfl, rfl, rfl, rfl⟩ ⟨rfl, rfl, rfl⟩ ⟨fun e he => ?_, rfl, rfl, rfl, h.kept.good.messages⟩
  rcases List.mem_cons.1 he with rfl | hold
  · exact hr
  · exact h.kept.good.returned e hold

theorem Holding.exchange (h : Holding V strict d t p o) {identity : Identity}
    (hi : strict → d.identities peerId = some identity) : Holding V strict (d.exchange peerId identity) t p o := by
  refine h.same ⟨rfl, rfl, rfl, rfl, rfl⟩ ⟨rfl, rfl, rfl⟩ ⟨h.kept.good.returned, rfl, rfl, rfl, fun hs m hm => ?_⟩
  rcases List.mem_cons.1 hm with rfl | hold
  · exact hi hs
  · exact h.kept.good.messages hs m hold

theorem Holding.draw (h : Holding V strict d t p o) (hp : ∀ d' : Device A S G, d'.identities = d.identities →
    p.Fits V strict d' t.lock) :
    Holding V strict (d.draw t.lock) t p o ∧ (d.draw t.lock).Unused V t.lock d.drawn.length := by
  have hgood := h.kept.good
  refine ⟨h.go ?_ ⟨hgood.sound.draw t.lock, hgood.persisted, hgood.returned, hgood.pins, hgood.messages⟩
    (fun hs hp peerId hl => h.bound hs hp hl) (hp _ rfl), hgood.sound.fresh_draw t.lock⟩
  exact ⟨rfl, rfl, rfl, fun _ _ => rfl, fun _ _ _ => rfl, fun _ _ => rfl, fun _ he => he, fun _ _ _ hr => hr.draw⟩

theorem Device.position_upsertSession (d : Device A S G) (row : SessionRow S) (release : Option (Release S G)) :
    (d.upsertSession row release).position V =
      Function.update (d.position V) (.direct row.peerId row.sessionId) (some (V.position row.session)) := by
  funext k
  by_cases hk : k = .direct row.peerId row.sessionId
  · subst hk
    rw [Function.update_self]
    show ((d.sessions.insert row).get row.key).map _ = _
    rw [Keyed.get_insert, if_pos rfl]
    rfl
  · rw [Function.update_of_ne hk]
    cases k with
    | direct peerId sessionId =>
      show ((d.sessions.insert row).get (peerId, sessionId)).map _ = _
      rw [Keyed.get_insert_of_ne]
      · rfl
      · rintro he
        cases he
        exact hk rfl
    | group groupId => rfl

theorem Device.position_upsertGroup (d : Device A S G) (row : GroupRow G) (release : Option (Release S G)) :
    (d.upsertGroup row release).position V =
      Function.update (d.position V) (.group row.groupId) (some (V.groupPosition row.session)) := by
  funext k
  by_cases hk : k = .group row.groupId
  · subst hk
    rw [Function.update_self]
    show (Function.update d.groups row.groupId (some row) row.groupId).map _ = _
    rw [Function.update_self]
    rfl
  · rw [Function.update_of_ne hk]
    cases k with
    | direct peerId sessionId => rfl
    | group groupId =>
      show (Function.update d.groups row.groupId (some row) groupId).map _ = _
      rw [Function.update_of_ne]
      · rfl
      · rintro rfl
        exact hk rfl

theorem map_append_toList (l : List (Release S G)) (release : Option (Release S G)) :
    (l ++ release.toList).map (Release.key V) = l.map (Release.key V) ++ (release.map (Release.key V)).toList := by
  cases release with
  | none => simp
  | some e => simp

theorem Holding.upsertSession {row : SessionRow S} {base : Option (SessionRow S)} {release : Option (Release S G)}
    (h : Holding V strict d t (.storing row base release) o) (stamp : ℤ) :
    Holding V strict (d.upsertSession { row with lastUsedAt := stamp } release) t .step o ∧
      (∀ e, release = some e → e ∈ (d.upsertSession { row with lastUsedAt := stamp } release).stored) ∧
      (strict → d.identities row.peerId = some row.establishedWith) := by
  obtain ⟨hlock, hs⟩ := h.fits
  have hgood := h.kept.good
  have hbefore : ∀ b, (base.map fun b => V.position b.session) = some b →
      d.position V (.direct row.peerId row.sessionId) = some b := by
    intro b hb
    obtain ⟨r, hr, rfl⟩ := Option.map_eq_some_iff.1 hb
    rw [Device.position, (hs.replaces r hr).1]
    rfl
  have hpos := Device.position_upsertSession (V := V) d { row with lastUsedAt := stamp } release
  have hpin : strict → d.identities row.peerId = some row.establishedWith := by
    intro hst
    cases hb : base with
    | none => exact hs.pinned hb
    | some b =>
      obtain ⟨hget, hsame⟩ := hs.replaces b hb
      rw [← hsame]
      exact h.bound hst (by simp) hlock row.sessionId b hget
  refine ⟨h.go ⟨rfl, rfl, rfl, fun _ _ => rfl, fun peerId sessionId hne => ?_, fun _ _ => rfl,
    fun e he => List.mem_append_left _ he, fun l' r hl hr => ?_⟩ ⟨?_, fun e he => ?_, fun e he => ?_, hgood.pins,
      hgood.messages⟩ (fun hst _ peerId hl sessionId r hr => ?_) trivial, fun e he => ?_, hpin⟩
  · refine Keyed.get_insert_of_ne fun he => hne ?_
    cases he
    exact hlock
  · unfold Device.Unused
    rw [hpos, show (d.upsertSession { row with lastUsedAt := stamp } release).stored = d.stored ++ release.toList from
      rfl, map_append_toList]
    exact hr.move (k := Key.direct row.peerId row.sessionId)
      (fun he => hl (he.trans hlock.symm)) hgood.sound hbefore hs.move
  · rw [hpos, show (d.upsertSession { row with lastUsedAt := stamp } release).stored = d.stored ++ release.toList from
      rfl, map_append_toList]
    exact hgood.sound.move hbefore hs.move
  · rcases List.mem_append.1 he with hold | hnew
    · exact (hgood.persisted e hold).mono (fun r hr => List.mem_cons_of_mem _ hr) fun r hr => hr
    · obtain ⟨before, draw, plaintext, rfl, hsession⟩ := hs.made e (Option.mem_toList.1 hnew)
      exact ⟨_, List.mem_cons_self, rfl, hsession⟩
  · exact List.mem_append_left _ (hgood.returned e he)
  · have hpeer : row.peerId = peerId := by
      rw [hlock] at hl
      cases hl
      rfl
    subst hpeer
    have hr' : (d.sessions.insert { row with lastUsedAt := stamp }).get (row.peerId, sessionId) = some r := hr
    rw [Keyed.get_insert] at hr'
    split at hr'
    · cases hr'
      exact hpin hst
    · exact h.bound hst (by simp) hlock sessionId r hr'
  · subst he
    exact List.mem_append_right _ List.mem_cons_self

theorem Holding.upsertGroup {row : GroupRow G} {base : Option (GroupRow G)} {release : Option (Release S G)}
    (h : Holding V strict d t (.storingGroup row base release) o) :
    Holding V strict (d.upsertGroup row release) t .step o ∧
      ∀ e, release = some e → e ∈ (d.upsertGroup row release).stored := by
  obtain ⟨hlock, hs⟩ := h.fits
  have hgood := h.kept.good
  have hbefore : ∀ b, (base.map fun b => V.groupPosition b.session) = some b →
      d.position V (.group row.groupId) = some b := by
    intro b hb
    rw [Device.position, hs.replaces, hb]
  have hpos := Device.position_upsertGroup (V := V) d row release
  refine ⟨h.go ⟨rfl, rfl, rfl, fun _ _ => rfl, fun _ _ _ => rfl, fun groupId hne => ?_,
    fun e he => List.mem_append_left _ he, fun l' r hl hr => ?_⟩ ⟨?_, fun e he => ?_, fun e he => ?_, hgood.pins,
      hgood.messages⟩ (fun hst hp peerId hl => ?_) trivial, fun e he => ?_⟩
  · exact Function.update_of_ne (fun he => hne (hlock.trans (congrArg Lock.group he.symm))) _ _
  · unfold Device.Unused
    rw [hpos, show (d.upsertGroup row release).stored = d.stored ++ release.toList from rfl, map_append_toList]
    exact hr.move (k := Key.group row.groupId) (fun he => hl (he.trans hlock.symm)) hgood.sound
      hbefore hs.move
  · rw [hpos, show (d.upsertGroup row release).stored = d.stored ++ release.toList from rfl, map_append_toList]
    exact hgood.sound.move hbefore hs.move
  · rcases List.mem_append.1 he with hold | hnew
    · exact (hgood.persisted e hold).mono (fun r hr => hr) fun r hr => List.mem_cons_of_mem _ hr
    · obtain ⟨before, plaintext, rfl, hsession⟩ := hs.made e (Option.mem_toList.1 hnew)
      exact ⟨_, List.mem_cons_self, rfl, hsession⟩
  · exact List.mem_append_left _ (hgood.returned e he)
  · rw [hlock] at hl
    cases hl
  · subst he
    exact List.mem_append_right _ List.mem_cons_self

theorem Holding.remove {p' : Point S G} (h : Holding V strict d t p o)
    (hd : d'.identities = d.identities ∧ d'.runtime = d.runtime ∧ d'.chained = d.chained ∧ d'.done = d.done ∧
      d'.drawn = d.drawn ∧ d'.stored = d.stored ∧ d'.returned = d.returned ∧ d'.pins = d.pins ∧
      d'.messages = d.messages ∧ d'.writtenSessions = d.writtenSessions ∧ d'.writtenGroups = d.writtenGroups)
    (hs : ∀ k row, d'.sessions.get k = some row → d.sessions.get k = some row)
    (hs' : ∀ peerId sessionId, t.lock ≠ .direct peerId →
      d'.sessions.get (peerId, sessionId) = d.sessions.get (peerId, sessionId))
    (hg : ∀ id row, d'.groups id = some row → d.groups id = some row)
    (hg' : ∀ id, t.lock ≠ .group id → d'.groups id = d.groups id)
    (hb : strict → ∀ peerId, t.lock = .direct peerId → d'.BoundTo peerId) (hfit : p'.Fits V strict d' t.lock) :
    Holding V strict d' t p' o := by
  obtain ⟨hi, hr, hc, hdone, hdrawn, hst, hret, hpins, hmsg, hws, hwg⟩ := hd
  have hgood := h.kept.good
  have hsub : ∀ k q, d'.position V k = some q → d.position V k = some q := by
    intro k q hq
    cases k with
    | direct peerId sessionId =>
      obtain ⟨row, hrow, rfl⟩ := Option.map_eq_some_iff.1 hq
      exact Option.map_eq_some_iff.2 ⟨row, hs _ row hrow, rfl⟩
    | group groupId =>
      obtain ⟨row, hrow, rfl⟩ := Option.map_eq_some_iff.1 hq
      exact Option.map_eq_some_iff.2 ⟨row, hg _ row hrow, rfl⟩
  refine h.go ⟨hr, hc, hdone, fun _ _ => congrFun hi _, hs', hg', fun e he => hst ▸ he, fun l' r _ hu => ?_⟩
    ⟨?_, fun e he => ?_, fun e he => ?_, hpins ▸ hgood.pins, hmsg ▸ hgood.messages⟩ (fun hst _ => hb hst) hfit
  · unfold Device.Unused
    rw [hdrawn, hst]
    exact hu.mono hsub
  · rw [hdrawn, hst]
    exact hgood.sound.mono hsub
  · rw [hst] at he
    exact (hgood.persisted e he).mono (fun row hrow => hws ▸ hrow) fun row hrow => hwg ▸ hrow
  · rw [hst]
    rw [hret] at he
    exact hgood.returned e he

theorem Holding.deleteSessionsForPeer (h : Holding V strict d t p o) (hl : t.lock = .direct peerId) :
    Holding V strict (d.deleteSessionsForPeer peerId) t .step o := by
  have hget : ∀ k row, (d.deleteSessionsForPeer peerId).sessions.get k = some row ↔
      d.sessions.get k = some row ∧ row.peerId ≠ peerId := by
    intro k row
    show (d.sessions.filter _).get k = some row ↔ _
    rw [Keyed.get_filter_eq_some, decide_eq_true_eq]
  refine h.remove ⟨rfl, rfl, rfl, rfl, rfl, rfl, rfl, rfl, rfl, rfl, rfl⟩ (fun k row hrow => ((hget k row).1 hrow).1)
    (fun peer sessionId hne => ?_) (fun _ _ hrow => hrow) (fun _ _ => rfl) (fun _ peer hpeer sessionId row hrow => ?_)
    trivial
  · ext row
    rw [hget]
    refine ⟨fun hrow => hrow.1, fun hrow => ⟨hrow, ?_⟩⟩
    have hkey : row.key = (peer, sessionId) := Keyed.key_of_get hrow
    have hpeer : row.peerId = peer := congrArg Prod.fst hkey
    rw [hpeer]
    rintro rfl
    exact hne hl
  · obtain ⟨hold, hne⟩ := (hget _ row).1 hrow
    have hkey : row.key = (peer, sessionId) := Keyed.key_of_get hold
    have hrp : row.peerId = peer := congrArg Prod.fst hkey
    rw [hl] at hpeer
    cases hpeer
    exact absurd hrp hne

theorem Holding.deleteGroup (h : Holding V strict d t .step o) {groupId : GroupControl.Text}
    (hl : t.lock = .group groupId) : Holding V strict (d.deleteGroup groupId) t .step o := by
  have hget : ∀ id, (d.deleteGroup groupId).groups id = if id = groupId then none else d.groups id :=
    fun id => Function.update_apply ..
  refine h.remove ⟨rfl, rfl, rfl, rfl, rfl, rfl, rfl, rfl, rfl, rfl, rfl⟩ (fun _ _ hrow => hrow) (fun _ _ _ => rfl)
    (fun id row hrow => ?_) (fun id hne => ?_) (fun hs peer hpeer => h.bound hs (by simp) hpeer) trivial
  · rw [hget] at hrow
    split at hrow
    · cases hrow
    · exact hrow
  · rw [hget, if_neg]
    rintro rfl
    exact hne hl

theorem Holding.insertIdentity {pin : Option Identity} {identity : Identity} {approval : Option (Review × Identity)}
    {p' : Point S G} (h : Holding V strict d t (.knowing pin) o) (hl : t.lock = .direct peerId)
    (hc : PinChange.Lawful ⟨peerId, pin, identity, approval⟩)
    (hp : p' = .clearing ∧ pin ≠ some identity ∨ (pin = none ∨ pin = some identity) ∧ p' = .knowing (some identity)) :
    Holding V strict (d.insertIdentity peerId identity approval) t p' o := by
  have hgood := h.kept.good
  have hpin : d.identities peerId = pin := h.fits peerId hl
  have hself : (d.insertIdentity peerId identity approval).identities peerId = some identity :=
    Function.update_self ..
  refine h.go ⟨rfl, rfl, rfl, fun peer hne => ?_, fun _ _ _ => rfl, fun _ _ => rfl, fun _ he => he,
    fun _ _ _ hr => hr⟩ ⟨hgood.sound, hgood.persisted, hgood.returned, fun c hcmem => ?_, hgood.messages⟩
    (fun hs hp' peer hpeer sessionId row hrow => ?_) ?_
  · refine Function.update_of_ne (fun he => hne ?_) _ _
    rw [he]
    exact hl
  · rcases List.mem_cons.1 hcmem with rfl | hold
    · rw [hpin]
      exact hc
    · exact hgood.pins c hold
  · obtain ⟨hsame, -⟩ := hp.resolve_left fun hclear => hp' hclear.1
    rw [hl] at hpeer
    cases hpeer
    have hbound := h.bound hs (by simp) hl sessionId row hrow
    rw [hself]
    rcases hsame with hnone | hsome
    · rw [hpin, hnone] at hbound
      cases hbound
    · rw [hpin, hsome] at hbound
      exact hbound
  · rcases hp with ⟨rfl, hchanged⟩ | ⟨-, rfl⟩
    · intro hs peer hpeer sessionId row hrow
      rw [hl] at hpeer
      cases hpeer
      have hbound := h.bound hs (by simp) hl sessionId row hrow
      rw [hself]
      intro he
      rw [hpin, ← he] at hbound
      exact hchanged hbound
    · intro peer hpeer
      rw [hl] at hpeer
      cases hpeer
      exact hself

/-! ## The locks -/

theorem Kept.chain (h : Kept V strict d o) (lock : Lock) :
    Kept V strict (d.chain lock) (.queued ⟨d.runtime, lock, d.chained lock⟩ :: o) := by
  have hs : d.Same (d.chain lock) := ⟨rfl, rfl, rfl, rfl, rfl⟩
  have hle : ∀ l, d.chained l ≤ (d.chain lock).chained l := by
    intro l
    show _ ≤ Function.update d.chained lock (d.chained lock + 1) l
    by_cases hl : l = lock
    · rw [hl, Function.update_self]
      exact Nat.le_succ _
    · rw [Function.update_of_ne hl]
  refine ⟨h.good.same hs ⟨h.good.returned, rfl, rfl, rfl, h.good.messages⟩, fun hst peerId => ?_,
    fun l => (h.queues l).trans (hle l), fun w hw => ?_, List.nodup_cons.2 ⟨fun hmem => ?_, h.turns⟩,
    fun w hw hr => ?_⟩
  · rcases h.bound hst peerId with hb | ⟨t, hmem, ht⟩
    · exact .inl (hs.boundTo hb)
    · exact .inr ⟨t, List.mem_cons_of_mem _ hmem, ht⟩
  · rcases List.mem_cons.1 hw with rfl | hw
    · exact Nat.le_refl _
    · exact h.runtimes w hw
  · obtain ⟨w, hw, ht⟩ := List.mem_map.1 hmem
    have hlt : w.turn.ticket < d.chained w.turn.lock := by
      have hfit := h.fits w hw (by rw [ht]; rfl)
      cases w with
      | queued t' => exact hfit.1
      | held t' p' => exact hfit.1
    rw [ht] at hlt
    exact Nat.lt_irrefl _ hlt
  · rcases List.mem_cons.1 hw with rfl | hw
    · refine ⟨?_, h.queues lock⟩
      show d.chained lock < Function.update d.chained lock (d.chained lock + 1) lock
      rw [Function.update_self]
      exact Nat.lt_succ_self _
    · have hfit := h.fits w hw hr
      cases w with
      | queued t' => exact ⟨hfit.1.trans_le (hle _), hfit.2⟩
      | held t' p' => exact ⟨hfit.1.trans_le (hle _), hfit.2.1, hs.fits hfit.2.2⟩

theorem Kept.acquire (h : Kept V strict d (.queued t :: o)) (hr : t.runtime = d.runtime)
    (ht : d.done t.lock = t.ticket) : Holding V strict d t .step o where
  current := hr
  kept := by
    refine ⟨h.good, fun hs peerId => ?_, h.queues, fun w hw => ?_, h.turns, fun w hw hwr => ?_⟩
    · rcases h.bound hs peerId with hb | ⟨t', hmem, ht'⟩
      · exact .inl hb
      · rcases List.mem_cons.1 hmem with he | hmem
        · cases he
        · exact .inr ⟨t', List.mem_cons_of_mem _ hmem, ht'⟩
    · rcases List.mem_cons.1 hw with rfl | hw
      · exact hr.le
      · exact h.runtimes w (List.mem_cons_of_mem _ hw)
    · rcases List.mem_cons.1 hw with rfl | hw
      · exact ⟨(h.fits _ List.mem_cons_self hr).1, ht, trivial⟩
      · exact h.fits w (List.mem_cons_of_mem _ hw) hwr

theorem Holding.release (h : Holding V strict d t .step o) : Kept V strict (d.release t.lock) o := by
  have hs : d.Same (d.release t.lock) := ⟨rfl, rfl, rfl, rfl, rfl⟩
  have hgood := h.kept.good
  obtain ⟨hlt, hdone, -⟩ := h.kept.fits _ List.mem_cons_self h.current
  have hof : ∀ l, l ≠ t.lock → (d.release t.lock).done l = d.done l := fun l hl => Function.update_of_ne hl _ _
  have hself : (d.release t.lock).done t.lock = t.ticket + 1 := by
    rw [← hdone]
    exact Function.update_self ..
  refine ⟨hgood.same hs ⟨hgood.returned, rfl, rfl, rfl, hgood.messages⟩, fun hst peerId => ?_, fun l => ?_,
    fun w hw => h.kept.runtimes w (List.mem_cons_of_mem _ hw), (List.nodup_cons.1 h.kept.turns).2, fun w hw hr => ?_⟩
  · rcases h.kept.bound hst peerId with hb | ⟨t', hmem, ht'⟩
    · exact .inl (hs.boundTo hb)
    · rcases List.mem_cons.1 hmem with he | hmem
      · cases he
      · exact .inr ⟨t', hmem, ht'⟩
  · by_cases hl : l = t.lock
    · rw [hl, hself]
      exact hlt
    · rw [hof l hl]
      exact h.kept.queues l
  · have hfit := h.kept.fits w (List.mem_cons_of_mem _ hw) hr
    cases w with
    | queued t' =>
      refine ⟨hfit.1, ?_⟩
      by_cases hl : t'.lock = t.lock
      · have hne : t'.ticket ≠ t.ticket := by
          intro he
          have hturn : t' = t := Turn.ext (hr.trans h.current.symm) hl he
          exact (List.nodup_cons.1 h.kept.turns).1 (List.mem_map.2 ⟨_, hw, hturn⟩)
        have hle := hfit.2
        rw [hl, hdone] at hle
        rw [hl, hself]
        exact Nat.lt_of_le_of_ne hle hne.symm
      · rw [hof _ hl]
        exact hfit.2
    | held t' p' =>
      refine ⟨hfit.1, ?_, hs.fits hfit.2.2⟩
      rw [hof _ (h.alone hw hr)]
      exact hfit.2.1

theorem Kept.boundTo_iff (h : Kept V strict d o) (hs : strict) :
    d.BoundTo peerId ↔ ∀ w ∈ o, w.clears d ≠ some peerId := by
  constructor
  · intro hb w hw hc
    obtain ⟨t, rfl, hr, hl, hsession⟩ := Wait.clears_eq_some.1 hc
    obtain ⟨row, hmem, hpeer⟩ := List.any_eq_true.1 hsession
    rw [decide_eq_true_eq] at hpeer
    have hrow : d.sessions.get (peerId, row.sessionId) = some row := hpeer ▸ Keyed.mem_values hmem
    exact (h.fits _ hw hr).2.2 hs peerId hl _ row hrow (hb _ row hrow)
  · intro hno
    rcases h.bound hs peerId with hb | ⟨t, hmem, hr, hl⟩
    · exact hb
    · refine Device.boundTo_of_hasSession (Bool.eq_false_iff.2 fun hsession => ?_)
      exact hno _ hmem (Wait.clears_eq_some.2 ⟨t, rfl, hr, hl, hsession⟩)

theorem Kept.stop (h : Kept V strict d o) (hu : strict → uncut .stop d o = true) : Kept V strict d.stop o := by
  have hs : d.Same d.stop := ⟨rfl, rfl, rfl, rfl, rfl⟩
  refine ⟨h.good.same hs ⟨h.good.returned, rfl, rfl, rfl, h.good.messages⟩, fun hst peerId => ?_,
    fun l => Nat.le_refl 0, fun w hw => (h.runtimes w hw).trans (Nat.le_succ _), h.turns, fun w hw hr => ?_⟩
  · refine .inl (hs.boundTo ((h.boundTo_iff hst).2 fun w hw hc => ?_))
    have hnot := List.all_eq_true.1 (hu hst) w hw
    rw [hc] at hnot
    cases hnot
  · have hle := h.runtimes w hw
    rw [hr] at hle
    exact absurd hle (Nat.not_succ_le_self _)

end Changes

end PeerSessions
end SecureChat
