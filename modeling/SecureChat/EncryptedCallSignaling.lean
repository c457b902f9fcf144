import SecureChat.AsyncTasks
import SecureChat.Json
/-!
# EncryptedCallSignaling — call signals in encrypted envelopes

`PeerCapabilities`, and `EncryptedCallSignaling` around the signaling service: which signals it sends sealed, how it
opens the ones that come in, and the chain of futures that opens them one after the other.  What the encryption and the
capability store do is in the answers to the awaited steps; a step without an answer has thrown.
-/
namespace SecureChat
namespace CallSignaling

open Async
open GroupControl (Text)

structure SdpOfferSignal where
  senderId : Text
  recipientId : Text
  timestamp : ℤ
  sdp : Text
  callType : Text
  e2ee : Option Text := none
deriving DecidableEq

structure SdpAnswerSignal where
  senderId : Text
  recipientId : Text
  timestamp : ℤ
  sdp : Text
  e2ee : Option Text := none
deriving DecidableEq

structure IceCandidateSignal where
  senderId : Text
  recipientId : Text
  timestamp : ℤ
  candidate : Text
  sdpMid : Option Text := none
  sdpMLineIndex : ℤ
  e2ee : Option Text := none
deriving DecidableEq

inductive SignalMessage where
  | offer (signal : SdpOfferSignal)
  | answer (signal : SdpAnswerSignal)
  | ice (signal : IceCandidateSignal)
  | other (type senderId recipientId content : Text)
deriving DecidableEq

namespace SignalMessage

def type : SignalMessage → Text
  | .offer _ => "sdp_offer".toList
  | .answer _ => "sdp_answer".toList
  | .ice _ => "ice_candidate".toList
  | .other type _ _ _ => type

def senderId : SignalMessage → Text
  | .offer s => s.senderId
  | .answer s => s.senderId
  | .ice s => s.senderId
  | .other _ senderId _ _ => senderId

def recipientId : SignalMessage → Text
  | .offer s => s.recipientId
  | .answer s => s.recipientId
  | .ice s => s.recipientId
  | .other _ _ recipientId _ => recipientId

def isCallSignal : SignalMessage → Bool
  | .other _ _ _ _ => false
  | _ => true

def envelopeOf : SignalMessage → Option Text
  | .offer s => s.e2ee
  | .answer s => s.e2ee
  | .ice s => s.e2ee
  | .other _ _ _ _ => none

/-- A call signal that comes without an envelope. -/
def isPlain (signal : SignalMessage) : Bool := signal.isCallSignal && (signal.envelopeOf.getD []).isEmpty

end SignalMessage

def callSignalEncryptionCapability : Text := "call-e2ee-v1".toList

/-- `CALLSIG:v1:`. -/
def callSignalPrefix : Text := "CALLSIG:v1:".toList

inductive Op where
  | get (capability userId : Text)
  | put (capability userId : Text)
  | encryptDirect (recipientId plaintext : Text)
  | decryptDirect (senderId envelope : Text)
  | send (signal : SignalMessage)
  | report (operation : Text)
deriving DecidableEq

/-- Whether a record is there, or a signal was sent; and the text that was encrypted or decrypted. -/
structure Answer where
  yes : Bool := true
  text : Text := []

abbrev Call (α : Type) := Program Answer Op Unit Unit α

def on (op : Op) : Call Answer := Program.wait () op

def fail {α : Type} : Call α := .throw ()

def orFail {α : Type} : Option α → Call α
  | none => fail
  | some a => pure a

/-- `PeerCapabilities.recordOne`. -/
def recordOne (userId capability : Text) : Call Unit := do
  if userId = [] then pure ()
  else do
    let known ← on (.get capability userId)
    Program.whenever (¬ known.yes) do
      let _ ← on (.put capability userId)
      pure ()

/-- `PeerCapabilities.allSupport` of one user. -/
def allSupport (userId capability : Text) : Call Bool := do
  if userId = [] then pure false
  else do
    let known ← on (.get capability userId)
    pure known.yes

def report (operation : String) : Call Unit := do
  let _ ← (on (.report operation.toList)).attempt
  pure ()

def directDecryptionPeer (envelope authenticatedSenderId localRecipientId : Text) : Text :=
  if "E2EE:v1:LOCAL_AES_GCM:".toList <+: envelope then localRecipientId else authenticatedSenderId

section Codec

-- the functions of Dart's library
variable (jsonEncode : Json.Fields → Text) (jsonDecode : Text → Option Json)

def payload : SignalMessage → Json.Fields
  | .offer s => [("type", .str (SignalMessage.offer s).type), ("to", .str s.recipientId), ("sdp", .str s.sdp)]
  | .answer s => [("type", .str (SignalMessage.answer s).type), ("to", .str s.recipientId), ("sdp", .str s.sdp)]
  | .ice s => [
      ("type", .str (SignalMessage.ice s).type), ("to", .str s.recipientId), ("candidate", .str s.candidate),
      ("sdpMid", Json.orNull .str s.sdpMid), ("sdpMLineIndex", .int s.sdpMLineIndex)]
  | .other _ _ _ _ => []

/-- The signal that carries an envelope instead of its content. -/
def sealed (envelope : Text) : SignalMessage → SignalMessage
  | .offer s => .offer { s with sdp := [], e2ee := some envelope }
  | .answer s => .answer { s with sdp := [], e2ee := some envelope }
  | .ice s => .ice { s with candidate := [], sdpMid := none, sdpMLineIndex := 0, e2ee := some envelope }
  | signal => signal

def seals (message : SignalMessage) : Call Bool :=
  if message.isCallSignal then allSupport message.recipientId callSignalEncryptionCapability else pure false

def send (message : SignalMessage) : Call Bool := do
  let sealing ← seals message
  if ¬ sealing then do
    let sent ← on (.send message)
    pure sent.yes
  else do
    let envelope ← (on (.encryptDirect message.recipientId (callSignalPrefix ++ jsonEncode (payload message)))).attempt
    match envelope with
    | .error _ => do
      report "call-signal.encrypt"
      pure false
    | .ok envelope => do
      let sent ← on (.send (sealed envelope.text message))
      pure sent.yes

def boundFields (signal : SignalMessage) (plaintext : Text) : Option Json.Fields :=
  if callSignalPrefix <+: plaintext then
    ((jsonDecode (plaintext.drop callSignalPrefix.length)).bind Json.asMap).filter fun json =>
      decide ((Json.get json "type").asString = some signal.type ∧
        (Json.get json "to").asString = some signal.recipientId)
  else none

def opened (json : Json.Fields) : SignalMessage → Option SignalMessage
  | .offer s => (Json.get json "sdp").asString.map fun sdp => .offer { s with sdp := sdp, e2ee := none }
  | .answer s => (Json.get json "sdp").asString.map fun sdp => .answer { s with sdp := sdp, e2ee := none }
  | .ice s =>
    (Json.get json "candidate").asString.bind fun candidate =>
      (Json.get json "sdpMid").asString?.bind fun sdpMid =>
        (Json.get json "sdpMLineIndex").toInt.map fun index =>
          .ice { s with candidate := candidate, sdpMid := sdpMid, sdpMLineIndex := index, e2ee := none }
  | .other _ _ _ _ => none

/-- The body of the `try` of `_open`. -/
def openEnvelope (signal : SignalMessage) (envelope : Text) : Call (Option SignalMessage) := do
  let plaintext ← on (.decryptDirect (directDecryptionPeer envelope signal.senderId signal.recipientId) envelope)
  let json ← orFail (boundFields jsonDecode signal plaintext.text)
  recordOne signal.senderId callSignalEncryptionCapability
  let signal ← orFail (opened json signal)
  pure (some signal)

def _open (signal : SignalMessage) : Call (Option SignalMessage) := do
  if ¬ signal.isCallSignal then pure (some signal)
  else if signal.isPlain then do
    let encrypts ← allSupport signal.senderId callSignalEncryptionCapability
    if encrypts then do
      report "call-signal.plaintext-rejected"
      pure none
    else pure (some signal)
  else do
    let result ← (openEnvelope jsonDecode signal (signal.envelopeOf.getD [])).attempt
    match result with
    | .ok signal => pure signal
    | .error _ => do
      report "call-signal.decrypt"
      pure none

end Codec

/-! ## The chain of futures -/

/-- A signal that comes in, and what the steps of its opening will find. -/
structure Arrival where
  signal : SignalMessage
  answers : Op → Option Answer

/-- What has been chained to `_tail` and has not run, whether `_tail` has an error, and what has been delivered. -/
structure Incoming where
  pending : List Arrival := []
  failed : Bool := false
  delivered : List SignalMessage := []

inductive Event where
  | arrive (arrival : Arrival)
  | turn

section Chain

variable (jsonDecode : Text → Option Json)

def Arrival.outcome (x : Arrival) : Except Unit (Option SignalMessage) :=
  (_open jsonDecode x.signal).outcome x.answers ()

/-- A callback that is chained to a future runs when the future has completed; after an error it is passed over. -/
def Incoming.step (q : Incoming) : Event → Option Incoming
  | .arrive x => some { q with pending := q.pending ++ [x] }
  | .turn =>
    match q.pending with
    | [] => none
    | x :: rest =>
      if q.failed then some { q with pending := rest }
      else
        match x.outcome jsonDecode with
        | .ok signal => some { q with pending := rest, delivered := q.delivered ++ signal.toList }
        | .error _ => some { q with pending := rest, failed := true }

end Chain

/-! ## The openings -/

section Outcome

variable {answers : Op → Option Answer} {α β : Type}

theorem outcome_bind (p : Call α) (g : α → Call β) : (p >>= g).outcome answers () =
    match p.outcome answers () with
    | .ok a => (g a).outcome answers ()
    | .error e => .error e := by
  induction p with
  | pure a => rfl
  | throw e => rfl
  | sync f k ih => exact ih ()
  | await l f k h ihk ihh =>
    cases hl : answers l with
    | none =>
      have hp : (Program.await l f k h).outcome answers () = h.outcome answers () := by rw [Program.outcome, hl]
      have hb : (Program.await l f k h >>= g).outcome answers () = (h >>= g).outcome answers () := by
        change (Program.await l f (fun i s => (k i s).bind g) (h.bind g)).outcome answers () = _
        rw [Program.outcome, hl]
        rfl
      rw [hb, hp, ihh]
    | some i =>
      have hp : (Program.await l f k h).outcome answers () = (k i ()).outcome answers () := by rw [Program.outcome, hl]
      have hb : (Program.await l f k h >>= g).outcome answers () = (k i () >>= g).outcome answers () := by
        change (Program.await l f (fun i s => (k i s).bind g) (h.bind g)).outcome answers () = _
        rw [Program.outcome, hl]
        rfl
      rw [hb, hp, ihk]

/-- `try` leaves nothing to throw. -/
theorem outcome_attempt (p : Call α) : p.attempt.outcome answers () = .ok (p.outcome answers ()) := by
  induction p with
  | pure a => rfl
  | throw e => rfl
  | sync f k ih => exact ih ()
  | await l f k h ihk ihh =>
    rw [Program.attempt, Program.outcome, Program.outcome]
    cases answers l with
    | none => exact ihh
    | some i => exact ihk i ()

theorem outcome_report (operation : String) : (report operation).outcome answers () = .ok () := by
  rw [report, outcome_bind, outcome_attempt]
  rfl

end Outcome

section Chain

variable {jsonDecode : Text → Option Json}

/-- The opening of the signal throws: it is a call signal without an envelope, and the lookup of its sender's
capability throws. -/
def Arrival.Escapes (x : Arrival) : Prop :=
  x.signal.isPlain = true ∧ x.signal.senderId ≠ [] ∧
    (x.answers (.get callSignalEncryptionCapability x.signal.senderId)).isNone = true

instance (x : Arrival) : Decidable x.Escapes := inferInstanceAs (Decidable (_ ∧ _))

/-- The signal that is delivered if nothing before it stands in the way. -/
def Arrival.opens (jsonDecode : Text → Option Json) (x : Arrival) : Option SignalMessage :=
  match x.outcome jsonDecode with
  | .ok signal => signal
  | .error _ => none

theorem outcome_allSupport {answers : Op → Option Answer} {userId capability : Text} :
    (∃ e, (allSupport userId capability).outcome answers () = .error e) ↔
      userId ≠ [] ∧ (answers (.get capability userId)).isNone = true := by
  unfold allSupport
  split
  · rename_i hempty
    simp [hempty, pure, Program.outcome]
  · rename_i hne
    rw [outcome_bind]
    cases hget : answers (.get capability userId) with
    | none => simp [hne, hget, on, Program.wait, Program.outcome]
    | some i => simp [hget, on, Program.wait, pure, Program.outcome]

/-- **What escapes**: nothing that is thrown in the `try`, and nothing of a signal that is no call signal. -/
theorem outcome_error_iff (x : Arrival) : (∃ e, x.outcome jsonDecode = .error e) ↔ x.Escapes := by
  unfold Arrival.outcome _open Arrival.Escapes
  by_cases hcall : x.signal.isCallSignal = true
  · rw [if_neg (by simp [hcall])]
    by_cases hplain : x.signal.isPlain = true
    · rw [if_pos hplain, outcome_bind]
      simp only [hplain, true_and]
      rw [← outcome_allSupport]
      cases hlook : (allSupport x.signal.senderId callSignalEncryptionCapability).outcome x.answers () with
      | error e => simp
      | ok encrypts =>
        dsimp only
        cases encrypts with
        | true =>
          rw [if_pos rfl, outcome_bind, outcome_report]
          simp [pure, Program.outcome]
        | false => simp [pure, Program.outcome]
    · rw [if_neg hplain, outcome_bind, outcome_attempt]
      constructor
      · rintro ⟨e, he⟩
        dsimp only at he
        split at he
        · cases he
        · rw [outcome_bind, outcome_report] at he
          cases he
      · exact fun h => absurd h.1 hplain
  · have hplain : x.signal.isPlain = false := by simp [SignalMessage.isPlain, hcall]
    rw [if_pos (by simp [hcall])]
    simp [hplain, pure, Program.outcome]

/-! ## The deliveries -/

/-- What is delivered of signals that come in: those that open, up to the first whose opening throws. -/
def deliveries (jsonDecode : Text → Option Json) : List Arrival → List SignalMessage
  | [] => []
  | x :: xs =>
    match x.outcome jsonDecode with
    | .ok signal => signal.toList ++ deliveries jsonDecode xs
    | .error _ => []

def arrivals (es : List Event) : List Arrival := es.filterMap fun e =>
  match e with
  | .arrive x => some x
  | .turn => none

/-- No signal that opens comes after one whose opening throws. -/
def Unpoisoned (jsonDecode : Text → Option Json) (xs : List Arrival) : Prop :=
  xs.Pairwise fun x y => x.Escapes → y.opens jsonDecode = none

theorem deliveries_eq_iff (xs : List Arrival) :
    deliveries jsonDecode xs = xs.filterMap (Arrival.opens jsonDecode) ↔ Unpoisoned jsonDecode xs := by
  induction xs with
  | nil => exact ⟨fun _ => List.Pairwise.nil, fun _ => rfl⟩
  | cons x xs ih =>
    rw [Unpoisoned, List.pairwise_cons, deliveries]
    cases hx : x.outcome jsonDecode with
    | ok signal =>
      have hopens : x.opens jsonDecode = signal := by rw [Arrival.opens, hx]
      have hnot : ¬ x.Escapes := fun hesc => by
        obtain ⟨e, he⟩ := (outcome_error_iff x).2 hesc
        cases hx.symm.trans he
      have hfilter : (x :: xs).filterMap (Arrival.opens jsonDecode) =
          signal.toList ++ xs.filterMap (Arrival.opens jsonDecode) := by
        cases signal with
        | none => exact List.filterMap_cons_none hopens
        | some s => exact List.filterMap_cons_some hopens
      dsimp only
      rw [hfilter, List.append_cancel_left_eq, ih]
      exact ⟨fun h => ⟨fun y _ hesc => absurd hesc hnot, h⟩, fun h => h.2⟩
    | error e =>
      have hesc : x.Escapes := (outcome_error_iff x).1 ⟨e, hx⟩
      have hopens : x.opens jsonDecode = none := by rw [Arrival.opens, hx]
      dsimp only
      rw [List.filterMap_cons_none hopens, eq_comm, List.filterMap_eq_nil_iff]
      constructor
      · intro h
        refine ⟨fun y hy _ => h y hy, ?_⟩
        exact List.pairwise_of_forall_mem_list fun a _ b hb _ => h b hb
      · intro h y hy
        exact h.1 y hy hesc

theorem step_deliveries {q q' : Incoming} {e : Event} (h : q.step jsonDecode e = some q') (later : List Arrival) :
    q'.delivered ++ (if q'.failed then [] else deliveries jsonDecode (q'.pending ++ later)) =
      q.delivered ++ (if q.failed then [] else deliveries jsonDecode (q.pending ++ (arrivals [e] ++ later))) := by
  cases e with
  | arrive x =>
    cases h
    simp [arrivals]
  | turn =>
    simp only [Incoming.step] at h
    split at h
    · cases h
    · rename_i x rest hpending
      split at h
      · rename_i hfailed
        cases h
        simp [hfailed]
      · rename_i hfailed
        split at h
        · rename_i signal hx
          cases h
          simp [hpending, hfailed, arrivals, deliveries, hx]
        · rename_i e hx
          cases h
          simp [hpending, hfailed, arrivals, deliveries, hx]

theorem run_deliveries {q q' : Incoming} {es : List Event} (h : Runs.run (Incoming.step jsonDecode) q es = some q')
    (later : List Arrival) :
    q'.delivered ++ (if q'.failed then [] else deliveries jsonDecode (q'.pending ++ later)) =
      q.delivered ++ (if q.failed then [] else deliveries jsonDecode (q.pending ++ (arrivals es ++ later))) := by
  induction es generalizing q with
  | nil =>
    cases h
    rfl
  | cons e es ih =>
    obtain ⟨q₁, hs, hr⟩ := Runs.run_cons.1 h
    have hsplit : arrivals (e :: es) = arrivals [e] ++ arrivals es := by
      rw [arrivals, arrivals, arrivals, ← List.filterMap_append]
      rfl
    rw [ih hr, step_deliveries hs, hsplit, List.append_assoc]

/-- **Call signals are delivered in order**: when every callback of the chain has run, exactly the signals that open
have been delivered, in the order in which they came in, if and only if no signal that opens comes after a call signal
without an envelope whose capability lookup throws. -/
theorem signals_run {es : List Event} {q : Incoming} (hr : Runs.run (Incoming.step jsonDecode) {} es = some q)
    (hq : q.pending = []) :
    q.delivered = (arrivals es).filterMap (Arrival.opens jsonDecode) ↔ Unpoisoned jsonDecode (arrivals es) := by
  have hrun := run_deliveries hr []
  have hdelivered : q.delivered = deliveries jsonDecode (arrivals es) := by
    simpa [hq, deliveries] using hrun
  rw [hdelivered]
  exact deliveries_eq_iff (arrivals es)

end Chain

/-- A caller of an older version sends an offer and a candidate; both come in before the first is looked at. -/
def offerAndCandidate (lookup : Option Answer) : List Event :=
  [.arrive ⟨.offer ⟨"veli".toList, "ali".toList, 0, "v=0".toList, "VOICE".toList, none⟩, fun _ => lookup⟩,
    .arrive ⟨.ice ⟨"veli".toList, "ali".toList, 0, "candidate:1".toList, none, 0, none⟩, fun _ => some ⟨false, []⟩⟩,
    .turn, .turn]

theorem incoming_offerAndCandidate : ∃ q,
    Runs.run (Incoming.step fun _ => none) {} (offerAndCandidate (some ⟨false, []⟩)) = some q ∧
      q.delivered =
        (arrivals (offerAndCandidate (some ⟨false, []⟩))).filterMap (Arrival.opens fun _ => none) := by
  refine ⟨_, rfl, (signals_run rfl rfl).2 ?_⟩
  simp [Unpoisoned, arrivals, offerAndCandidate, Arrival.Escapes]

/-- **A lookup that throws ends the chain**: the candidate that would open is not delivered. -/
theorem lookup_poisons : ∃ q, Runs.run (Incoming.step fun _ => none) {} (offerAndCandidate none) = some q ∧
    q.pending = [] ∧ q.delivered = [] ∧
    (arrivals (offerAndCandidate none)).filterMap (Arrival.opens fun _ => none) =
      [.ice ⟨"veli".toList, "ali".toList, 0, "candidate:1".toList, none, 0, none⟩] := by
  refine ⟨_, rfl, rfl, rfl, ?_⟩
  decide

end CallSignaling
end SecureChat
