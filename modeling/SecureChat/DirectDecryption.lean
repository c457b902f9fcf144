import SecureChat.AsyncExecutions
import SecureChat.VodozemacCryptoService
/-!
# DirectDecryption — a direct message that cannot be read leaves the sessions and the account alone

`_decryptDirect` down to the pickles and the bytes of the plaintext, on its own: it holds the lock of the sender, and
only it writes the sender's rows.  The rows are those of a device whose accounts and sessions are pickles `Q` and `P`.
Each step of the database, and the fetch of a bundle, is awaited and may fail.

Nothing is written before something has opened the message, but for the pin of a sender that has none: it is taken from
the bundle before a session is created (`decryptDirect_failed`).
-/
namespace SecureChat
namespace DirectDecryption

open Async
open GroupControl (Text)
open PeerSessions (Answer CryptoErrorKind Device Fault Identity OlmEnvelope OlmPreKeyBundle SessionRow)
open scoped GroupControl

/-- The native library: an account `A`, a session `S`, and their pickles. -/
structure Olm (A S Q P : Type) where
  createAccount : ℕ → A
  accountFromPickle : Q → Except CryptoErrorKind A
  accountPickle : A → Q
  createInboundSession : Text → Text → A → Except CryptoErrorKind (A × S × List UInt8)
  sessionFromPickle : P → Except CryptoErrorKind S
  sessionPickle : S → P
  sessionId : S → Text
  decrypt : OlmEnvelope → S → Except CryptoErrorKind (S × List UInt8)

/-- `utf8.decode`, which drops a byte order mark. -/
def utf8Decode (bytes : List UInt8) : Option Text :=
  (String.fromUTF8? ⟨bytes.toArray⟩).map fun text =>
    match text.toList with
    | '\ufeff' :: rest => rest
    | chars => chars

inductive Step where
  | readSessionIds
  | readSession
  | readStamps
  | writeSession
  | deleteSessions
  | readPin
  | fetchBundle
  | writePin
  | readAccount
  | writeAccount
  | identityRotated
deriving DecidableEq

section Model

variable {A S Q P α : Type}

abbrev Rows (Q P : Type) := Device Q P Unit

abbrev Call (Q P α : Type) := Program Answer Step (Rows Q P) Fault α

def read (l : Step) (f : Answer → Rows Q P → α) : Call Q P α :=
  .await l (fun _ d => d) (fun a d => .pure (f a d)) (.throw .other)

def write (l : Step) (f : Rows Q P → Rows Q P) : Call Q P Unit :=
  .await l (fun _ d => f d) (fun _ _ => .pure ()) (.throw .other)

def library (result : Except CryptoErrorKind α) : Call Q P α :=
  match result with
  | .ok a => pure a
  | .error kind => .throw (.crypto kind)

def decodeText (bytes : List UInt8) : Call Q P Text :=
  match utf8Decode bytes with
  | some text => pure text
  | none => .throw .format

variable (O : Olm A S Q P)

def upsert (row : SessionRow P) : Call Q P Unit := do
  let stamp ← read .readStamps fun a d => PeerSessions.nextUseStamp a.now (d.forPeer row.peerId)
  write .writeSession (Device.upsertSession { row with lastUsedAt := stamp } none)

def withSession (peerId sessionId : Text) (action : S → Except CryptoErrorKind (S × α)) : Call Q P α := do
  let stored ← read .readSession fun _ d => d.sessions.get (peerId, sessionId)
  match stored with
  | none => .throw .stateError
  | some row => do
    let out ← library ((O.sessionFromPickle row.session).bind action)
    upsert { row with session := O.sessionPickle out.1 }
    pure out.2

def openAccount (peerId : Text) (pickle : Option Q) : Call Q P A :=
  match pickle with
  | some pickle => library (O.accountFromPickle pickle)
  | none => .sync (Device.draw (.direct peerId)) fun d => .pure (O.createAccount d.drawn.length)

def withAccount (peerId : Text) (action : A → Call Q P (A × α)) : Call Q P α := do
  let pickle ← read .readAccount fun _ d => d.account
  let account ← openAccount O peerId pickle
  let result ← action account
  write .writeAccount (Device.setAccount (O.accountPickle result.1))
  pure result.2

/-- The known sessions in order; where none opens the message, the last error and whether the key of the message was
used already. -/
def tryAll (senderId : Text) (message : OlmEnvelope) :
    List Text → Option CryptoErrorKind → Bool → Call Q P (Except (Option CryptoErrorKind × Bool) Text)
  | [], lastError, duplicate => pure (.error (lastError, duplicate))
  | id :: ids, _, duplicate => do
    let result ← (withSession O senderId id (O.decrypt message)).attempt
    match result with
    | .ok plaintext => do
      let text ← decodeText plaintext
      pure (.ok text)
    | .error (.crypto kind) => tryAll senderId message ids (some kind) (duplicate || kind = .missingMessageKey)
    | .error e => .throw e

def learnIdentity (senderId : Text) : Call Q P Unit := do
  let pinned ← read .readPin fun _ d => d.identities senderId
  match pinned with
  | some _ => pure ()
  | none => do
    let fetched ← read .fetchBundle fun a _ => a.bundle
    match fetched with
    | none => .throw .stateError
    | some bundle => write .writePin (Device.insertIdentity senderId bundle.identity none)

def createInbound (senderId preKeyBody : Text) (identity : Identity) (account : A) : Call Q P (A × Text) := do
  let result ← library (O.createInboundSession identity.identityKey preKeyBody account)
  upsert ⟨senderId, O.sessionId result.2.1, O.sessionPickle result.2.1, 0, identity⟩
  let text ← decodeText result.2.2
  pure (result.1, text)

def acceptInboundSession (senderId preKeyBody : Text) : Call Q P Text := do
  learnIdentity senderId
  let pinned ← read .readPin fun _ d => d.identities senderId
  match pinned with
  | none => .throw .other
  | some identity => withAccount O senderId (createInbound O senderId preKeyBody identity)

/-- The end of `_decryptDirect`, where nothing has opened the message. -/
def conclude (senderId : Text) (lastError : Option CryptoErrorKind) (duplicate : Bool) : Call Q P Text :=
  if duplicate then .throw (.crypto .missingMessageKey)
  else
    match lastError with
    | none => do
      write .deleteSessions (Device.deleteSessionsForPeer senderId)
      .throw (.sessionUnusable senderId)
    | some kind => .throw (if kind.indicatesUnusableSession then .sessionUnusable senderId else .crypto kind)

def acceptPreKey (senderId body : Text) : Call Q P Text := do
  let result ← (acceptInboundSession O senderId body).attempt
  match result with
  | .ok plaintext => pure plaintext
  | .error (.crypto .identityMismatch) => do
    let _ ← read .identityRotated fun _ _ => ()
    .throw (.peerIdentityChanged senderId)
  | .error (.crypto kind) => conclude senderId (some kind) false
  | .error e => .throw e

/-- `_decryptDirect`, while it holds the lock of the sender. -/
def decryptDirect (senderId envelope : Text) : Call Q P Text :=
  match PeerSessions.parseDirect envelope with
  | none => .throw .format
  | some message => do
    let ids ← read .readSessionIds fun _ d => (d.forPeer senderId).map SessionRow.sessionId
    let tried ← tryAll O senderId message ids none false
    match tried with
    | .ok plaintext => pure plaintext
    | .error (lastError, duplicate) =>
      if message.type = .preKey ∧ ¬ duplicate then acceptPreKey O senderId message.body
      else conclude senderId lastError duplicate

end Model

/-! ## What the parts do -/

section Parts

open Program (Executes)

variable {A S Q P α : Type} {O : Olm A S Q P} {An : Step → Answer → Prop} {F : Step → Prop} {d d' : Rows Q P}

theorem of_read {l : Step} {f : Answer → Rows Q P → α} {r : Except Fault α} (h : Executes An F (read l f) d r d') :
    d' = d ∧ ((∃ a, An l a ∧ r = .ok (f a d)) ∨ r = .error .other) := by
  cases h with
  | answered a ha h =>
    obtain ⟨hr, hd⟩ := Executes.of_pure h
    exact ⟨hd, .inl ⟨a, ha, hr⟩⟩
  | failed hf h =>
    obtain ⟨hr, hd⟩ := Executes.of_throw h
    exact ⟨hd, .inr hr⟩

theorem of_write {l : Step} {f : Rows Q P → Rows Q P} {r : Except Fault Unit}
    (h : Executes An F (write l f) d r d') : r = .ok () ∧ d' = f d ∨ r = .error .other ∧ d' = d ∧ F l := by
  cases h with
  | answered a ha h =>
    obtain ⟨hr, hd⟩ := Executes.of_pure h
    exact .inl ⟨hr, hd⟩
  | failed hf h =>
    obtain ⟨hr, hd⟩ := Executes.of_throw h
    exact .inr ⟨hr, hd, hf⟩

theorem of_library {result : Except CryptoErrorKind α} {r : Except Fault α}
    (h : Executes An F (library result) d r d') :
    d' = d ∧ ((∃ a, result = .ok a ∧ r = .ok a) ∨ ∃ kind, result = .error kind ∧ r = .error (.crypto kind)) := by
  cases result with
  | ok a =>
    obtain ⟨hr, hd⟩ := Executes.of_pure h
    exact ⟨hd, .inl ⟨a, rfl, hr⟩⟩
  | error kind =>
    obtain ⟨hr, hd⟩ := Executes.of_throw h
    exact ⟨hd, .inr ⟨kind, rfl, hr⟩⟩

theorem of_decodeText {bytes : List UInt8} {r : Except Fault Text} (h : Executes An F (decodeText bytes) d r d') :
    d' = d ∧ ((∃ text, r = .ok text) ∨ utf8Decode bytes = none) := by
  unfold decodeText at h
  split at h
  · obtain ⟨hr, hd⟩ := Executes.of_pure h
    exact ⟨hd, .inl ⟨_, hr⟩⟩
  · rename_i hnone
    exact ⟨(Executes.of_throw h).2, .inr hnone⟩

theorem of_upsert {row : SessionRow P} {r : Except Fault Unit} (h : Executes An F (upsert row) d r d') :
    r = .ok () ∨ r = .error .other ∧ d' = d := by
  rcases Executes.of_bind h with ⟨stamp, d₁, hread, hwrite⟩ | ⟨e, hread, rfl⟩
  · obtain ⟨rfl, -⟩ := of_read hread
    rcases of_write hwrite with ⟨hr, -⟩ | ⟨hr, hd, -⟩
    · exact .inl hr
    · exact .inr ⟨hr, hd⟩
  · obtain ⟨hd, ⟨a, -, ha⟩ | he⟩ := of_read hread
    · cases ha
    · cases he
      exact .inr ⟨rfl, hd⟩

def openStored (O : Olm A S Q P) (message : OlmEnvelope) (row : SessionRow P) :
    Except CryptoErrorKind (S × List UInt8) :=
  (O.sessionFromPickle row.session).bind (O.decrypt message)

theorem of_withSession {peerId sessionId : Text} {message : OlmEnvelope} {r : Except Fault (List UInt8)}
    (h : Executes An F (withSession O peerId sessionId (O.decrypt message)) d r d') :
    (∃ row out, d.sessions.get (peerId, sessionId) = some row ∧ openStored O message row = .ok out ∧ r = .ok out.2) ∨
    (d' = d ∧ ∃ e, r = .error e ∧ ∀ row kind, d.sessions.get (peerId, sessionId) = some row →
      openStored O message row = .error kind → e = .crypto kind ∨ e = .other) := by
  rcases Executes.of_bind h with ⟨stored, d₁, hread, hrest⟩ | ⟨e, hread, rfl⟩
  · obtain ⟨rfl, ⟨a, -, ha⟩ | he⟩ := of_read hread
    · cases hrow : d₁.sessions.get (peerId, sessionId) with
      | none =>
        rw [hrow] at ha
        cases ha
        obtain ⟨hr, hd⟩ := Executes.of_throw hrest
        exact .inr ⟨hd, _, hr, fun row kind hget => by cases hget⟩
      | some row =>
        rw [hrow] at ha
        cases ha
        rcases Executes.of_bind hrest with ⟨out, d₂, hopen, hstore⟩ | ⟨e, hopen, rfl⟩
        · obtain ⟨rfl, ⟨out', hout, ho⟩ | ⟨kind, -, he⟩⟩ := of_library hopen
          · cases ho
            rcases Executes.of_bind hstore with ⟨u, d₃, hupsert, hpure⟩ | ⟨e, hupsert, rfl⟩
            · obtain ⟨hr, -⟩ := Executes.of_pure hpure
              exact .inl ⟨row, out, rfl, hout, hr⟩
            · rcases of_upsert hupsert with hu | ⟨he, hd⟩
              · cases hu
              · cases he
                exact .inr ⟨hd, _, rfl, fun _ _ _ _ => .inr rfl⟩
          · cases he
        · obtain ⟨rfl, ⟨out, -, ho⟩ | ⟨kind, hkind, he⟩⟩ := of_library hopen
          · cases ho
          · cases he
            refine .inr ⟨rfl, _, rfl, fun row' kind' hget hkind' => .inl ?_⟩
            cases hget
            have hsame : (.error kind : Except CryptoErrorKind (S × List UInt8)) = .error kind' :=
              hkind.symm.trans hkind'
            cases hsame
            rfl
    · cases he
  · obtain ⟨rfl, ⟨a, -, ha⟩ | he⟩ := of_read hread
    · cases ha
    · cases he
      exact .inr ⟨rfl, _, rfl, fun _ _ _ _ => .inr rfl⟩

def Opens (O : Olm A S Q P) (senderId : Text) (message : OlmEnvelope) (d : Rows Q P) (plaintext : List UInt8) : Prop :=
  ∃ id row session, d.sessions.get (senderId, id) = some row ∧ openStored O message row = .ok (session, plaintext)

/-- A stored session of the sender knows that the key of the message was used already. -/
def Replayed (O : Olm A S Q P) (senderId : Text) (message : OlmEnvelope) (d : Rows Q P) : Prop :=
  ∃ id row, d.sessions.get (senderId, id) = some row ∧ openStored O message row = .error .missingMessageKey

/-- The account that `withAccount` opens: the stored one, or a new one. -/
def opened (O : Olm A S Q P) (d : Rows Q P) : Except CryptoErrorKind A :=
  match d.account with
  | some pickle => O.accountFromPickle pickle
  | none => .ok (O.createAccount d.drawn.length)

/-- The identity that a session is created with: the pinned one, or that of the bundle. -/
def known (bundle : Option OlmPreKeyBundle) (senderId : Text) (d : Rows Q P) : Option Identity :=
  (d.identities senderId).or (bundle.map OlmPreKeyBundle.identity)

def Creates (O : Olm A S Q P) (bundle : Option OlmPreKeyBundle) (senderId : Text) (message : OlmEnvelope)
    (d : Rows Q P) (plaintext : List UInt8) : Prop :=
  ∃ identity account account' session, known bundle senderId d = some identity ∧ opened O d = .ok account ∧
    O.createInboundSession identity.identityKey message.body account = .ok (account', session, plaintext)

theorem of_tryAll {senderId : Text} {message : OlmEnvelope} {ids : List Text} :
    ∀ {lastError : Option CryptoErrorKind} {duplicate : Bool}
      {r : Except Fault (Except (Option CryptoErrorKind × Bool) Text)},
      Executes An F (tryAll O senderId message ids lastError duplicate) d r d' →
      (∃ plaintext, Opens O senderId message d plaintext ∧
        ((∃ text, r = .ok (.ok text)) ∨ utf8Decode plaintext = none)) ∨
      (d' = d ∧ ((∃ e, r = .error e) ∨ ∃ lastError' duplicate', r = .ok (.error (lastError', duplicate')) ∧
        (lastError' = none → lastError = none ∧ ids = []) ∧
        (duplicate' = false → duplicate = false ∧ ∀ id ∈ ids, ∀ row, d.sessions.get (senderId, id) = some row →
          openStored O message row ≠ .error .missingMessageKey))) := by
  induction ids with
  | nil =>
    intro lastError duplicate r h
    obtain ⟨rfl, rfl⟩ := Executes.of_pure h
    exact .inr ⟨rfl, .inr ⟨lastError, duplicate, rfl, fun hl => ⟨hl, rfl⟩, fun hd => ⟨hd, nofun⟩⟩⟩
  | cons first ids ih =>
    intro lastError duplicate r h
    rcases Executes.of_bind h with ⟨result, d₁, htry, hrest⟩ | ⟨e, htry, -⟩
    · obtain ⟨result', hresult, hsession⟩ := Executes.of_attempt htry
      cases hresult
      rcases of_withSession hsession with ⟨row, out, hget, hopen, rfl⟩ | ⟨rfl, e, rfl, hkind⟩
      · refine .inl ⟨out.2, ⟨first, row, out.1, hget, hopen⟩, ?_⟩
        rcases Executes.of_bind hrest with ⟨text, d₂, hdecode, hpure⟩ | ⟨e, hdecode, rfl⟩
        · exact .inl ⟨text, (Executes.of_pure hpure).1⟩
        · obtain ⟨-, ⟨text, htext⟩ | hnone⟩ := of_decodeText hdecode
          · cases htext
          · exact .inr hnone
      · cases e with
        | crypto kind =>
          refine (ih hrest).imp id fun hkept => ⟨hkept.1, hkept.2.imp id ?_⟩
          rintro ⟨last, dup, hr, hlast, hdup⟩
          refine ⟨last, dup, hr, fun hl => absurd (hlast hl).1 (Option.some_ne_none kind), fun hd => ?_⟩
          obtain ⟨hor, hids⟩ := hdup hd
          rw [Bool.or_eq_false_iff, decide_eq_false_iff_not] at hor
          refine ⟨hor.1, fun id' hid' row hget hmissing => ?_⟩
          rcases List.mem_cons.1 hid' with rfl | hid'
          · rcases hkind row _ hget hmissing with he | he
            · cases he
              exact hor.2 rfl
            · cases he
          · exact hids id' hid' row hget hmissing
        | _ => exact .inr ⟨(Executes.of_throw hrest).2, .inl ⟨_, (Executes.of_throw hrest).1⟩⟩
    · obtain ⟨result', hresult, -⟩ := Executes.of_attempt htry
      cases hresult

/-- The sessions, the account and the pins are as before. -/
structure Unchanged (d d' : Rows Q P) : Prop where
  sessions : d'.sessions = d.sessions
  account : d'.account = d.account
  identities : d'.identities = d.identities

/-- The pins are as before, but for one that is taken from the bundle. -/
def Learned (bundle : Option OlmPreKeyBundle) (senderId : Text) (d d' : Rows Q P) : Prop :=
  d.identities senderId = none ∧ ∃ b, bundle = some b ∧
    d'.identities = Function.update d.identities senderId (some b.identity)

def Fetches (bundle : Option OlmPreKeyBundle) (l : Step) (a : Answer) : Prop := l = .fetchBundle → a.bundle = bundle

variable {bundle : Option OlmPreKeyBundle}

theorem of_learnIdentity {senderId : Text} {r : Except Fault Unit}
    (h : Executes (Fetches bundle) F (learnIdentity senderId) d r d') :
    d' = d ∨ d'.sessions = d.sessions ∧ d'.drawn = d.drawn ∧ d'.account = d.account ∧
      Learned bundle senderId d d' := by
  rcases Executes.of_bind h with ⟨pinned, d₁, hread, hrest⟩ | ⟨e, hread, -⟩
  · obtain ⟨rfl, ⟨a, -, ha⟩ | he⟩ := of_read hread
    · cases hpin : d₁.identities senderId with
      | some pin =>
        rw [hpin] at ha
        cases ha
        exact .inl (Executes.of_pure hrest).2
      | none =>
        rw [hpin] at ha
        cases ha
        rcases Executes.of_bind hrest with ⟨fetched, d₂, hfetch, hwrite⟩ | ⟨e, hfetch, -⟩
        · obtain ⟨rfl, ⟨b, hb, hbundle⟩ | he⟩ := of_read hfetch
          · cases hfetched : b.bundle with
            | none =>
              rw [hfetched] at hbundle
              cases hbundle
              exact .inl (Executes.of_throw hwrite).2
            | some fetched =>
              rw [hfetched] at hbundle
              cases hbundle
              rcases of_write hwrite with ⟨-, rfl⟩ | ⟨-, rfl, -⟩
              · exact .inr ⟨rfl, rfl, rfl, hpin, fetched, (hb rfl).symm.trans hfetched, rfl⟩
              · exact .inl rfl
          · cases he
        · exact .inl (of_read hfetch).1
    · cases he
  · exact .inl (of_read hread).1

theorem of_createInbound {senderId body : Text} {identity : Identity} {account : A} {r : Except Fault (A × Text)}
    (h : Executes An F (createInbound O senderId body identity account) d r d') :
    (∃ account' session plaintext,
      O.createInboundSession identity.identityKey body account = .ok (account', session, plaintext) ∧
      ((∃ x, r = .ok x) ∨ utf8Decode plaintext = none)) ∨
    d' = d ∧ ∃ e, r = .error e := by
  rcases Executes.of_bind h with ⟨out, d₁, hcreate, hrest⟩ | ⟨e, hcreate, rfl⟩
  · obtain ⟨rfl, ⟨out', hout, ho⟩ | ⟨kind, -, he⟩⟩ := of_library hcreate
    · cases ho
      rcases Executes.of_bind hrest with ⟨u, d₂, hupsert, hdecode⟩ | ⟨e, hupsert, rfl⟩
      · refine .inl ⟨out.1, out.2.1, out.2.2, hout, ?_⟩
        rcases Executes.of_bind hdecode with ⟨text, d₃, -, hpure⟩ | ⟨e, htext, rfl⟩
        · exact .inl ⟨_, (Executes.of_pure hpure).1⟩
        · obtain ⟨-, ⟨text, he⟩ | hnone⟩ := of_decodeText htext
          · cases he
          · exact .inr hnone
      · rcases of_upsert hupsert with hu | ⟨-, hd⟩
        · cases hu
        · exact .inr ⟨hd, e, rfl⟩
    · cases he
  · exact .inr ⟨(of_library hcreate).1, e, rfl⟩

theorem of_openAccount {peerId : Text} {r : Except Fault A}
    (h : Executes An F (openAccount O peerId d.account) d r d') :
    Unchanged d d' ∧ ∀ account, r = .ok account → opened O d = .ok account := by
  unfold opened
  cases hstored : d.account with
  | some pickle =>
    rw [hstored] at h
    obtain ⟨rfl, ⟨account, hopen, rfl⟩ | ⟨kind, -, rfl⟩⟩ := of_library h
    · exact ⟨⟨rfl, rfl, rfl⟩, fun _ hr => by rw [← Except.ok.inj hr]; exact hopen⟩
    · exact ⟨⟨rfl, rfl, rfl⟩, nofun⟩
  | none =>
    rw [hstored] at h
    cases h with
    | sync h =>
      obtain ⟨rfl, rfl⟩ := Executes.of_pure h
      exact ⟨⟨rfl, rfl, rfl⟩, fun _ hr => congrArg Except.ok (Except.ok.inj hr)⟩

theorem of_withAccount {senderId body : Text} {identity : Identity} {r : Except Fault Text}
    (h : Executes An F (withAccount O senderId (createInbound O senderId body identity)) d r d') :
    (∃ account account' session plaintext, opened O d = .ok account ∧
      O.createInboundSession identity.identityKey body account = .ok (account', session, plaintext) ∧
      ((∃ text, r = .ok text) ∨ utf8Decode plaintext = none ∨ F .writeAccount)) ∨
    Unchanged d d' ∧ ∃ e, r = .error e := by
  rcases Executes.of_bind h with ⟨pickle, d₁, hread, hrest⟩ | ⟨e, hread, rfl⟩
  · obtain ⟨rfl, ⟨a, -, ha⟩ | he⟩ := of_read hread
    swap
    · cases he
    cases ha
    rcases Executes.of_bind hrest with ⟨account, d₂, hopen, haction⟩ | ⟨e, hopen, rfl⟩
    · obtain ⟨hsame, haccount⟩ := of_openAccount hopen
      have haccount := haccount account rfl
      rcases Executes.of_bind haction with ⟨result, d₃, hcreate, hwrite⟩ | ⟨e, hcreate, rfl⟩
      · rcases of_createInbound hcreate with ⟨account', session, plaintext, hout, -⟩ | ⟨-, e, he⟩
        · refine .inl ⟨account, account', session, plaintext, haccount, hout, ?_⟩
          rcases Executes.of_bind hwrite with ⟨u, d₄, -, hpure⟩ | ⟨e, hw, rfl⟩
          · exact .inl ⟨_, (Executes.of_pure hpure).1⟩
          · rcases of_write hw with ⟨hu, -⟩ | ⟨-, -, hf⟩
            · cases hu
            · exact .inr (.inr hf)
        · cases he
      · rcases of_createInbound hcreate with ⟨account', session, plaintext, hout, ⟨x, hx⟩ | hnone⟩ | ⟨rfl, -⟩
        · cases hx
        · exact .inl ⟨account, account', session, plaintext, haccount, hout, .inr (.inl hnone)⟩
        · exact .inr ⟨hsame, e, rfl⟩
    · exact .inr ⟨(of_openAccount hopen).1, e, rfl⟩
  · obtain ⟨rfl, -⟩ := of_read hread
    exact .inr ⟨⟨rfl, rfl, rfl⟩, e, rfl⟩

structure Spared (bundle : Option OlmPreKeyBundle) (senderId : Text) (d d' : Rows Q P) : Prop where
  sessions : d'.sessions = d.sessions
  account : d'.account = d.account
  pin : d'.identities = d.identities ∨ Learned bundle senderId d d'

theorem Unchanged.spared {senderId : Text} (h : Unchanged d d') : Spared bundle senderId d d' :=
  ⟨h.sessions, h.account, .inl h.identities⟩

/-- **`_acceptInboundSession`** creates a session with the pinned identity, or writes at most the pin. -/
theorem of_acceptInboundSession {senderId : Text} {message : OlmEnvelope} {r : Except Fault Text}
    (h : Executes (Fetches bundle) F (acceptInboundSession O senderId message.body) d r d') :
    (∃ plaintext, Creates O bundle senderId message d plaintext ∧
      ((∃ text, r = .ok text) ∨ utf8Decode plaintext = none ∨ F .writeAccount)) ∨
    Spared bundle senderId d d' ∧ ∃ e, r = .error e := by
  rcases Executes.of_bind h with ⟨u, d₁, hlearn, hrest⟩ | ⟨e, hlearn, rfl⟩
  · have hlearned := of_learnIdentity hlearn
    rcases Executes.of_bind hrest with ⟨pinned, d₂, hread, haccept⟩ | ⟨e, hread, rfl⟩
    · obtain ⟨rfl, ⟨a, -, ha⟩ | he⟩ := of_read hread
      · cases hpin : d₂.identities senderId with
        | none =>
          rw [hpin] at ha
          cases ha
          obtain ⟨rfl, rfl⟩ := Executes.of_throw haccept
          rcases hlearned with rfl | ⟨hs, -, hacc, hl⟩
          · exact .inr ⟨⟨rfl, rfl, .inl rfl⟩, _, rfl⟩
          · exact .inr ⟨⟨hs, hacc, .inr hl⟩, _, rfl⟩
        | some identity =>
          rw [hpin] at ha
          cases ha
          rcases of_withAccount haccept with ⟨account, account', session, plaintext, hopen, hout, hr⟩ | ⟨hsame, e, rfl⟩
          · refine .inl ⟨plaintext, ⟨identity, account, account', session, ?_, ?_, hout⟩, hr⟩
            · rcases hlearned with rfl | ⟨-, -, -, hnone, b, rfl, hpinned⟩
              · rw [known, hpin]
                rfl
              · rw [hpinned, Function.update_self] at hpin
                rw [known, hnone]
                exact hpin
            · rcases hlearned with rfl | ⟨-, hdrawn, hacc, -⟩
              · exact hopen
              · rwa [opened, hacc, hdrawn] at hopen
          · refine .inr ⟨?_, e, rfl⟩
            rcases hlearned with rfl | ⟨hs, -, hacc, hl⟩
            · exact hsame.spared
            · refine ⟨hsame.sessions.trans hs, hsame.account.trans hacc, .inr ⟨hl.1, ?_⟩⟩
              rw [hsame.identities]
              exact hl.2
      · cases he
    · obtain ⟨rfl, -⟩ := of_read hread
      rcases hlearned with rfl | ⟨hs, -, hacc, hl⟩
      · exact .inr ⟨⟨rfl, rfl, .inl rfl⟩, e, rfl⟩
      · exact .inr ⟨⟨hs, hacc, .inr hl⟩, e, rfl⟩
  · rcases of_learnIdentity hlearn with rfl | ⟨hs, -, hacc, hl⟩
    · exact .inr ⟨⟨rfl, rfl, .inl rfl⟩, e, rfl⟩
    · exact .inr ⟨⟨hs, hacc, .inr hl⟩, e, rfl⟩

/-- Where a session has been tried, the end of `_decryptDirect` writes nothing. -/
theorem of_conclude_some {senderId : Text} {kind : CryptoErrorKind} {duplicate : Bool} {r : Except Fault Text}
    (h : Executes An F (conclude senderId (some kind) duplicate) d r d') : d' = d ∧ ∃ e, r = .error e := by
  unfold conclude at h
  split at h
  · exact ⟨(Executes.of_throw h).2, _, (Executes.of_throw h).1⟩
  · exact ⟨(Executes.of_throw h).2, _, (Executes.of_throw h).1⟩

theorem of_conclude_none {senderId : Text} {duplicate : Bool} {r : Except Fault Text}
    (hnone : ∀ row ∈ d.sessions.values, row.peerId ≠ senderId)
    (h : Executes An F (conclude senderId none duplicate) d r d') : Unchanged d d' ∧ ∃ e, r = .error e := by
  have hfilter : d.sessions.filter (fun row => decide (row.peerId ≠ senderId)) = d.sessions :=
    Keyed.filter_eq_self fun row hrow => decide_eq_true (hnone row hrow)
  unfold conclude at h
  split at h
  · obtain ⟨rfl, rfl⟩ := Executes.of_throw h
    exact ⟨⟨rfl, rfl, rfl⟩, _, rfl⟩
  · rcases Executes.of_bind h with ⟨u, d₁, hdelete, hthrow⟩ | ⟨e, hdelete, rfl⟩
    · obtain ⟨rfl, rfl⟩ := Executes.of_throw hthrow
      rcases of_write hdelete with ⟨-, rfl⟩ | ⟨hu, -⟩
      · exact ⟨⟨hfilter, rfl, rfl⟩, _, rfl⟩
      · cases hu
    · rcases of_write hdelete with ⟨hu, -⟩ | ⟨-, rfl, -⟩
      · cases hu
      · exact ⟨⟨rfl, rfl, rfl⟩, e, rfl⟩

theorem of_acceptPreKey {senderId : Text} {message : OlmEnvelope} {r : Except Fault Text}
    (h : Executes (Fetches bundle) F (acceptPreKey O senderId message.body) d r d') :
    (∃ plaintext, Creates O bundle senderId message d plaintext ∧
      ((∃ text, r = .ok text) ∨ utf8Decode plaintext = none ∨ F .writeAccount)) ∨
    Spared bundle senderId d d' ∧ ∃ e, r = .error e := by
  rcases Executes.of_bind h with ⟨result, d₁, htry, hrest⟩ | ⟨e, htry, -⟩
  · obtain ⟨result', hresult, haccept⟩ := Executes.of_attempt htry
    cases hresult
    have hresult := of_acceptInboundSession haccept
    cases result with
    | ok text =>
      rcases hresult with ⟨plaintext, hcreates, -⟩ | ⟨-, e, he⟩
      · exact .inl ⟨plaintext, hcreates, .inl ⟨text, (Executes.of_pure hrest).1⟩⟩
      · cases he
    | error e =>
      -- after an error nothing more is written
      have hend : (d' = d₁) ∧ ∃ e', r = .error e' := by
        cases e with
        | crypto kind =>
          cases kind with
          | identityMismatch =>
            rcases Executes.of_bind hrest with ⟨u, d₂, hnotify, hthrow⟩ | ⟨e', hnotify, rfl⟩
            · obtain ⟨rfl, rfl⟩ := Executes.of_throw hthrow
              exact ⟨(of_read hnotify).1, _, rfl⟩
            · exact ⟨(of_read hnotify).1, e', rfl⟩
          | _ => exact of_conclude_some hrest
        | _ => exact ⟨(Executes.of_throw hrest).2, _, (Executes.of_throw hrest).1⟩
      obtain ⟨rfl, e', rfl⟩ := hend
      rcases hresult with ⟨plaintext, hcreates, ⟨text, ht⟩ | hr⟩ | ⟨hspared, -⟩
      · cases ht
      · exact .inl ⟨plaintext, hcreates, .inr hr⟩
      · exact .inr ⟨hspared, e', rfl⟩
  · obtain ⟨result', hresult, -⟩ := Executes.of_attempt htry
    cases hresult

theorem mem_forPeer {senderId : Text} {row : SessionRow P} :
    row ∈ d.forPeer senderId ↔ row ∈ d.sessions.values ∧ row.peerId = senderId := by
  unfold Device.forPeer
  rw [List.mem_insertionSort, List.mem_filter, decide_eq_true_eq]

theorem mem_sessionIds {senderId id : Text} {row : SessionRow P} (h : d.sessions.get (senderId, id) = some row) :
    id ∈ (d.forPeer senderId).map SessionRow.sessionId := by
  have hkey : row.key = (senderId, id) := Keyed.key_of_get h
  have hvalues : row ∈ d.sessions.values := Table.mem_values.2 ⟨_, h⟩
  exact List.mem_map.2 ⟨row, mem_forPeer.2 ⟨hvalues, congrArg Prod.fst hkey⟩, congrArg Prod.snd hkey⟩

/-- **`_decryptDirect`**: a stored session opens the message, or a session is created from a pre-key message that no
stored session knows, or the sessions and the account are as before. -/
theorem of_decryptDirect {senderId envelope : Text} {r : Except Fault Text}
    (h : Executes (Fetches bundle) F (decryptDirect O senderId envelope) d r d') :
    (∃ message plaintext, PeerSessions.parseDirect envelope = some message ∧
      (Opens O senderId message d plaintext ∨ message.type = .preKey ∧ ¬ Replayed O senderId message d ∧
        Creates O bundle senderId message d plaintext) ∧
      ((∃ text, r = .ok text) ∨ utf8Decode plaintext = none ∨ F .writeAccount)) ∨
    (∃ e, r = .error e) ∧ (Unchanged d d' ∨ ∃ message, PeerSessions.parseDirect envelope = some message ∧
      message.type = .preKey ∧ ¬ Replayed O senderId message d ∧ Spared bundle senderId d d') := by
  unfold decryptDirect at h
  cases hparse : PeerSessions.parseDirect envelope with
  | none =>
    simp only [hparse] at h
    obtain ⟨rfl, rfl⟩ := Executes.of_throw h
    exact .inr ⟨⟨_, rfl⟩, .inl ⟨rfl, rfl, rfl⟩⟩
  | some message =>
    simp only [hparse] at h
    rcases Executes.of_bind h with ⟨ids, d₁, hread, hrest⟩ | ⟨e, hread, rfl⟩
    · obtain ⟨rfl, ⟨a, -, ha⟩ | he⟩ := of_read hread
      · cases ha
        rcases Executes.of_bind hrest with ⟨tried, d₂, htry, hend⟩ | ⟨e, htry, rfl⟩
        · rcases of_tryAll htry with ⟨plaintext, hopens, ⟨text, ht⟩ | hnone⟩ |
            ⟨rfl, ⟨e, he⟩ | ⟨last, dup, hr, hlast, hdup⟩⟩
          · cases ht
            exact .inl ⟨message, plaintext, rfl, .inl hopens, .inl ⟨text, (Executes.of_pure hend).1⟩⟩
          · exact .inl ⟨message, plaintext, rfl, .inl hopens, .inr (.inl hnone)⟩
          · cases he
          · cases hr
            by_cases hpre : message.type = .preKey ∧ ¬ dup = true
            · simp only [if_pos hpre] at hend
              have hfresh : ¬ Replayed O senderId message d₂ := by
                rintro ⟨id, row, hget, hmissing⟩
                obtain ⟨-, hids⟩ := hdup (Bool.eq_false_iff.2 hpre.2)
                exact hids id (mem_sessionIds hget) row hget hmissing
              rcases of_acceptPreKey hend with ⟨plaintext, hcreates, hr⟩ | ⟨hspared, he⟩
              · exact .inl ⟨message, plaintext, rfl, .inr ⟨hpre.1, hfresh, hcreates⟩, hr⟩
              · exact .inr ⟨he, .inr ⟨message, rfl, hpre.1, hfresh, hspared⟩⟩
            · simp only [if_neg hpre] at hend
              cases last with
              | some kind =>
                obtain ⟨rfl, he⟩ := of_conclude_some hend
                exact .inr ⟨he, .inl ⟨rfl, rfl, rfl⟩⟩
              | none =>
                have hids := (hlast rfl).2
                have hnone : ∀ row ∈ d₂.sessions.values, row.peerId ≠ senderId := by
                  intro row hrow hpeer
                  have hmem := mem_forPeer.2 ⟨hrow, hpeer⟩
                  rw [List.map_eq_nil_iff.1 hids] at hmem
                  cases hmem
                obtain ⟨hsame, he⟩ := of_conclude_none hnone hend
                exact .inr ⟨he, .inl hsame⟩
        · rcases of_tryAll htry with ⟨plaintext, hopens, ⟨text, ht⟩ | hnone⟩ | ⟨rfl, -⟩
          · cases ht
          · exact .inl ⟨message, plaintext, rfl, .inl hopens, .inr (.inl hnone)⟩
          · exact .inr ⟨⟨e, rfl⟩, .inl ⟨rfl, rfl, rfl⟩⟩
      · cases he
    · obtain ⟨rfl, -⟩ := of_read hread
      exact .inr ⟨⟨e, rfl⟩, .inl ⟨rfl, rfl, rfl⟩⟩

end Parts

/-! ## The result -/

section Result

open Program (Executes execute)

variable {A S Q P : Type}

/-- **Direct decryption fails without side effects, but for a first pin.**  Where no plaintext is returned, and unless
what was opened is no text or the account could not be written, sessions, account and pins are as before, but for the
first pin of the sender.  A message that no session opens changes no session and no account if its key was used or no
session can be created from it, and nothing where its identity is not the pinned one. -/
theorem decryptDirect_failed {O : Olm A S Q P} {F : Step → Prop} {bundle : Option OlmPreKeyBundle}
    {senderId envelope : Text} {d d' : Rows Q P} {r : Except Fault Text}
    (h : Executes (Fetches bundle) F (decryptDirect O senderId envelope) d r d') :
    (¬ F .writeAccount → (∀ message plaintext, PeerSessions.parseDirect envelope = some message →
        Opens O senderId message d plaintext ∨ message.type = .preKey ∧ Creates O bundle senderId message d plaintext →
        utf8Decode plaintext ≠ none) →
      (∀ text, r ≠ .ok text) →
      d'.sessions = d.sessions ∧ d'.account = d.account ∧ (d'.identities = d.identities ∨
        d.identities senderId = none ∧ (∃ body, PeerSessions.parseDirect envelope = some ⟨.preKey, body⟩) ∧
          ∃ b, bundle = some b ∧ d'.identities = Function.update d.identities senderId (some b.identity))) ∧
    (∀ message, PeerSessions.parseDirect envelope = some message →
      (∀ plaintext, ¬ Opens O senderId message d plaintext) →
      (Replayed O senderId message d → Unchanged d d') ∧
      ((∀ plaintext, ¬ Creates O bundle senderId message d plaintext) →
        d'.sessions = d.sessions ∧ d'.account = d.account) ∧
      (∀ pin, d.identities senderId = some pin →
        (∀ account, opened O d = .ok account →
          O.createInboundSession pin.identityKey message.body account = .error .identityMismatch) →
        Unchanged d d')) := by
  rcases of_decryptDirect h with ⟨message, plaintext, hparse, hopened, hr⟩ | ⟨-, hkept⟩
  · refine ⟨fun hwrite htext hfail => ?_, fun message' hparse' hclosed => ?_⟩
    · exfalso
      rcases hr with ⟨text, ht⟩ | hnone | hf
      · exact hfail text ht
      · exact htext message plaintext hparse (hopened.imp id fun hc => ⟨hc.1, hc.2.2⟩) hnone
      · exact hwrite hf
    · cases hparse.symm.trans hparse'
      obtain ⟨-, hfresh, hcreates⟩ := hopened.resolve_left (hclosed plaintext)
      refine ⟨fun hreplay => absurd hreplay hfresh, fun hnone => absurd hcreates (hnone plaintext),
        fun pin hpin hmismatch => ?_⟩
      obtain ⟨identity, account, account', session, hknown, hopen, hcreate⟩ := hcreates
      rw [known, hpin, Option.some_or] at hknown
      rw [← Option.some.inj hknown, hmismatch account hopen] at hcreate
      cases hcreate
  · rcases hkept with hsame | ⟨message, hparse, htype, hfresh, hspared⟩
    · exact ⟨fun _ _ _ => ⟨hsame.sessions, hsame.account, .inl hsame.identities⟩,
        fun _ _ _ => ⟨fun _ => hsame, fun _ => ⟨hsame.sessions, hsame.account⟩, fun _ _ _ => hsame⟩⟩
    · refine ⟨fun _ _ _ => ⟨hspared.sessions, hspared.account, ?_⟩, fun message' hparse' _ => ?_⟩
      · rcases hspared.pin with hpin | ⟨hnone, hlearned⟩
        · exact .inl hpin
        · refine .inr ⟨hnone, ⟨message.body, ?_⟩, hlearned⟩
          rw [hparse, ← htype]
      · cases hparse.symm.trans hparse'
        refine ⟨fun hreplay => absurd hreplay hfresh, fun _ => ⟨hspared.sessions, hspared.account⟩,
          fun pin hpin _ => ⟨hspared.sessions, hspared.account, hspared.pin.resolve_right ?_⟩⟩
        rintro ⟨hnone, -⟩
        rw [hnone] at hpin
        cases hpin

/-- A library whose sessions are texts; it opens the messages with the body `bytes`, to a byte that is no text. -/
def plainOlm : Olm Unit Text Unit Text where
  createAccount _ := ()
  accountFromPickle := .ok
  accountPickle := id
  createInboundSession _ body account :=
    if body = "text".toList then .ok (account, "session".toList, [0x68, 0x69]) else .error .invalidMessage
  sessionFromPickle := .ok
  sessionPickle := id
  sessionId := id
  decrypt message session :=
    if message.body = "bytes".toList then .ok (session, [0xff]) else .error .invalidMessage

def sender : Text := "peer".toList

def senderIdentity : Identity := ⟨"signing".toList, "curve".toList⟩

def knownSender : Rows Unit Text :=
  Device.insertIdentity sender senderIdentity none
    (Device.upsertSession ⟨sender, "session".toList, "session".toList, 0, senderIdentity⟩ none {})

def answer (l : Step) (fails : List Step) : Option Answer :=
  if l ∈ fails then none else some ⟨some ⟨senderIdentity, "otk".toList⟩, 5⟩

def preKeyFrame (body : String) : Text := PeerSessions.encodeDirect ⟨.preKey, body.toList⟩

def messageFrame (body : String) : Text := PeerSessions.encodeDirect ⟨.message, body.toList⟩

/-- The executions of `answer` are executions. -/
theorem executes_answer (fails : List Step) (envelope : Text) (d : Rows Unit Text) :
    Executes (Fetches (some ⟨senderIdentity, "otk".toList⟩)) (· ∈ fails) (decryptDirect plainOlm sender envelope) d
      (execute (answer · fails) (decryptDirect plainOlm sender envelope) d).1
      (execute (answer · fails) (decryptDirect plainOlm sender envelope) d).2 := by
  refine Executes.of_execute (fun l a ha _ => ?_) (fun l hl => ?_) _ _
  · unfold answer at ha
    split at ha
    · cases ha
    · cases ha
      rfl
  · unfold answer at hl
    split at hl
    · assumption
    · cases hl

/-- A corrupted frame of a sender that has a session. -/
theorem decryptDirect_corrupted :
    (execute (answer · []) (decryptDirect plainOlm sender (preKeyFrame "bad")) knownSender).2.sessions =
      knownSender.sessions ∧
    (execute (answer · []) (decryptDirect plainOlm sender (preKeyFrame "bad")) knownSender).2.account = none := by
  have hparse : PeerSessions.parseDirect (preKeyFrame "bad") = some ⟨.preKey, "bad".toList⟩ := by decide +kernel
  have hkept := (decryptDirect_failed (executes_answer [] (preKeyFrame "bad") knownSender)).1 nofun
    (fun message plaintext hm hopened _ => by
      cases hparse.symm.trans hm
      rcases hopened with ⟨_, row, session, -, hopen⟩ | ⟨-, identity, account, account', session, -, -, hcreate⟩
      · cases hopen
      · cases hcreate)
    (fun text ht => by
      have hfailed : (execute (answer · []) (decryptDirect plainOlm sender (preKeyFrame "bad"))
        knownSender).1.toOption =
          none := by decide +kernel
      rw [ht] at hfailed
      cases hfailed)
  exact ⟨hkept.1, hkept.2.1⟩

/-- **A failed decryption that has written**: a first frame that creates no session pins its sender; a frame that a
session opens to bytes that are no text advances the session; and a session stays whose account could not be written. -/
theorem decryptDirect_writes :
    (∃ r d', Executes (Fetches (some ⟨senderIdentity, "otk".toList⟩)) (· ∈ ([] : List Step))
        (decryptDirect plainOlm sender (preKeyFrame "bad")) {} r d' ∧
      r.toOption = none ∧ d'.identities sender = some senderIdentity) ∧
    (∃ r d', Executes (Fetches (some ⟨senderIdentity, "otk".toList⟩)) (· ∈ ([] : List Step))
        (decryptDirect plainOlm sender (messageFrame "bytes")) knownSender r d' ∧
      r.toOption = none ∧ (knownSender.forPeer sender).map SessionRow.lastUsedAt = [0] ∧
        (d'.forPeer sender).map SessionRow.lastUsedAt = [5]) ∧
    ∃ r d', Executes (Fetches (some ⟨senderIdentity, "otk".toList⟩)) (· ∈ [Step.writeAccount])
        (decryptDirect plainOlm sender (preKeyFrame "text")) {} r d' ∧
      r.toOption = none ∧ (d'.forPeer sender).map SessionRow.sessionId = ["session".toList] ∧ d'.account = none :=
  ⟨⟨_, _, executes_answer [] (preKeyFrame "bad") {}, by decide +kernel, by decide +kernel⟩,
    ⟨_, _, executes_answer [] (messageFrame "bytes") knownSender, by decide +kernel, by decide +kernel,
      by decide +kernel⟩,
    ⟨_, _, executes_answer [.writeAccount] (preKeyFrame "text") {}, by decide +kernel, by decide +kernel,
      by decide +kernel⟩⟩

end Result

end DirectDecryption
end SecureChat
