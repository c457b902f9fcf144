import SecureChat.IncomingDelivery
/-!
# IncomingRuns — every run of the handler, and the redelivery of what it has recorded

`incoming_run` is the claim of the handler for runs whose steps are orderly; `lostRun` is a run with one failure between
the ratchet and the record, after which the envelope is never acknowledged and a copy of its message is acknowledged
without being stored.
-/
namespace SecureChat
namespace Incoming

open Async Runs

variable {ν S A G δ : Type} [DecidableEq ν] (P : Config ν S A G δ)

theorem ends_idle {x : EncryptedSignal ν} {r : Except Error End} {s : State ν S A G δ} (h : Inv s) (hs : Safe s) :
    (handler P).Ends (rules P) x r s := by
  have hrefused : ∀ r : Except Error End, ((handler P).finish x r s).refused = s.refused := by
    intro r
    simp only [handler, hs.1, Option.toList_none, List.nil_append]
    split <;> rfl
  refine ⟨⟨?_, ?_, h.records, h.acks, ?_, h.inserts, h.nodup⟩, rfl, rfl⟩
  · intro t ht
    rw [hrefused]
    refine (h.consumed t ht).imp (fun h => h) (Or.imp (fun h => h) fun hc => ?_)
    rw [hs.1] at hc
    cases hc
  · intro t v hv
    refine (h.settled t v hv).mono (fun _ h => h) (fun _ h => h) (fun h => h) ?_
    rw [hrefused]
    exact fun _ h => h
  · intro i hi
    refine (h.seen i hi).imp (fun h => h) fun hu => ?_
    rw [hs.2] at hu
    cases hu

theorem ends_refused {x : EncryptedSignal ν} {c token : Option ν} {s : State ν S A G δ} (h : At c none token s) :
    (handler P).Ends (rules P) x (.ok .refused) s := by
  refine ⟨⟨?_, ?_, h.inv.records, h.inv.acks, ?_, h.inv.inserts, h.inv.nodup⟩, rfl, rfl⟩
  · intro t ht
    rcases h.inv.consumed t ht with ht | ht | ht
    · exact .inl (List.mem_append_right _ ht)
    · exact .inr (.inl ht)
    · exact .inl (List.mem_append_left _ (Option.mem_toList.2 ht))
  · intro t v hv
    exact (h.inv.settled t v hv).mono (fun _ h => h) (fun _ h => h) (fun h => h) fun _ h => List.mem_append_right _ h
  · intro i hi
    refine (h.inv.seen i hi).imp (fun h => h) fun hu => ?_
    rw [h.unsaved] at hu
    cases hu

section Program

variable {P} {token : ν} {v : Verdict ν} {x : EncryptedSignal ν}

theorem ready_assertion : Assertion (S := S) (A := A) (G := G) (δ := δ) ((handler P).Ends (rules P) x)
    (Ready token v) where
  stable _ _ hs h := h.frame hs
  inv _ h := h.inv
  fails _ h hs := ends_idle P h.inv hs

omit [DecidableEq ν] in
theorem Ready.ends [DecidableEq ν] {r : Except Error End} {s : State ν S A G δ} (h : Ready token v s) :
    (handler P).Ends (rules P) x r s := ends_idle P h.inv h.safe

theorem sendTransportAck_holds {s : State ν S A G δ} (h : Ready token v s) :
    (sendTransportAck P token v).Holds (rules P) ((handler P).Ends (rules P) x) s := by
  rw [sendTransportAck]
  split
  · exact h.ends
  · refine ready_assertion.await h fun i s hs _ => ?_
    cases hok : i.ok with
    | false => exact hs.ends
    | true => exact hs.ack.ends

theorem acknowledge_holds (receipt : Bool) {s : State ν S A G δ} (h : Ready token v s) :
    (acknowledge P token receipt v).Holds (rules P) ((handler P).Ends (rules P) x) s := by
  rw [acknowledge]
  split
  · rw [sendDeliveredReceipt]
    split
    · exact h.ends
    · refine ready_assertion.ask h fun i s hs => ?_
      change Program.Holds _ _ (ite _ _ _) _
      split
      · exact sendTransportAck_holds hs
      · exact hs.ends
  · exact sendTransportAck_holds h

theorem rememberProcessedDelivery_holds (senderId : ν) (messageId : Option ν) {c : Option ν} {s : State ν S A G δ}
    (hc : c = none ∨ c = some token) (h : At c none (some token) s) (hv : Settled token v s) :
    (rememberProcessedDelivery token senderId messageId v).Holds (rules P)
      (fun r s => match r with
        | .ok _ => Ready token v s
        | .error _ => Inv s ∧ Safe s) s := by
  have hA : Assertion (fun (r : Except Error Unit) s => match r with
      | .ok _ => Ready token v s
      | .error _ => Inv s ∧ Safe s) fun s : State ν S A G δ => At c none (some token) s ∧ Settled token v s :=
    (at_assertion fun s hs => ⟨hs.inv, hs.critical, hs.unsaved⟩).and fun _ _ hs hv => hs.settled hv
  have hready : Assertion (fun (r : Except Error Unit) s => match r with
      | .ok _ => Ready token v s
      | .error _ => Inv s ∧ Safe s) (Ready (S := S) (A := A) (G := G) (δ := δ) token v) :=
    ⟨fun _ _ hs h => h.frame hs, fun _ h => h.inv, fun _ h hs => ⟨h.inv, hs⟩⟩
  refine hA.await ⟨h, hv⟩ fun i s hs _ => ?_
  have hrecorded := hs.1.remember (r := ⟨senderId, messageId, i.now + processedDeliveryRetention, v⟩) hc hs.2
  have hcount : ∀ {s : State ν S A G δ} (n : ℕ), Ready token v s →
      Ready token v { s with processedDeliveriesSincePrune := n } := fun n hs =>
    hs.frame ⟨fun _ h => h, fun _ h => h, fun _ h => h, rfl, rfl, rfl, rfl, rfl, rfl, rfl, rfl⟩
  dsimp only [Program.Holds]
  split
  · exact hcount _ hrecorded
  · exact hready.await (hcount _ (hcount _ hrecorded)) fun i s hs _ => hs.frame (frame_prune ..)

theorem unrecorded_holds (signal : EncryptedSignal ν) (htoken : signal.deliveryToken = some token)
    {s : State ν S A G δ} (h : At none none (some token) s) :
    (encrypted P signal >>= fun result => match result with
      | .rejected failed => (pure (if failed then .failed else .refused) : Handler ν S A G δ End)
      | .processed messageId required verdict => do
        rememberProcessedDelivery token signal.senderId messageId verdict
        acknowledge P token (required && messageId.isSome) verdict).Holds (rules P)
      ((handler P).Ends (rules P) signal) s := by
  refine ((encrypted_holds P signal (htoken ▸ h)).imp fun r s hs => ?_).bind
  rw [htoken] at hs
  match r with
  | .error e => exact ends_idle P hs.inv ⟨hs.critical, hs.unsaved⟩
  | .ok (.rejected true) =>
    obtain ⟨c, rfl | ⟨-, hc⟩, hs⟩ := hs
    · exact ends_idle P hs.inv ⟨hs.critical, hs.unsaved⟩
    · cases hc
  | .ok (.rejected false) =>
    obtain ⟨c, -, hs⟩ := hs
    exact ends_refused P hs
  | .ok (.processed messageId required verdict) =>
    obtain ⟨c, hc, hs, hv⟩ := hs
    refine ((rememberProcessedDelivery_holds signal.senderId messageId hc hs (hv token rfl)).imp fun r s hs => ?_).bind
    cases r with
    | error e => exact ends_idle P hs.1 hs.2
    | ok _ => exact acknowledge_holds _ hs

theorem Inv.record {s : State ν S A G δ} (h : Inv s) {r : ProcessedDelivery ν} (hr : s.record token = some r) :
    s.remembered token = some r := by
  obtain ⟨x, hx, rfl⟩ := Option.map_eq_some_iff.1 hr
  have hkey : x.1 = token := by simpa using List.find?_some hx
  exact hkey ▸ h.records x (List.mem_of_find?_eq_some hx)

theorem processedDelivery_holds {s : State ν S A G δ} (h : Inv s) (hs : Safe s) :
    (processedDelivery token).Holds (rules P)
      (fun r s => match r with
        | .ok none => At none none (some token) s
        | .ok (some r) => Ready token r.verdict s
        | .error _ => Inv s ∧ Safe s) s := by
  have hA : Assertion (fun (r : Except Error (Option (ProcessedDelivery ν))) s => match r with
      | .ok none => At none none (some token) s
      | .ok (some r) => Ready token r.verdict s
      | .error _ => Inv s ∧ Safe s) fun s : State ν S A G δ => Inv s ∧ Safe s :=
    ⟨fun _ _ hs h => ⟨h.1.frame hs, h.2.frame hs⟩, fun _ h => h.1, fun _ h _ => h⟩
  refine hA.await ⟨h, hs⟩ fun i s hs hi => ?_
  change (s.remembered token).all _ = true at hi
  cases hr : s.record token with
  | none =>
    refine ⟨hs.1, fun t ht => ?_, hs.2.1, hs.2.2⟩
    cases ht
    cases hm : s.remembered token with
    | none => rfl
    | some r => simp [hm, hr] at hi
  | some r =>
    have hm := hs.1.record hr
    have hnow : i.now < r.expiresAt := by
      rw [hm] at hi
      simpa [hr] using hi
    dsimp only
    rw [if_neg (Nat.not_le_of_lt hnow)]
    exact ⟨hs.1, hs.2, r, hm, rfl⟩

theorem untracked_holds (signal : EncryptedSignal ν) (htoken : signal.deliveryToken = none) {s : State ν S A G δ}
    (h : At none none none s) :
    (encrypted P signal >>= fun result => match result with
      | .rejected failed => (pure (if failed then .failed else .refused) : Handler ν S A G δ End)
      | .processed messageId required _ => do
        let _ ← if required && messageId.isSome then sendDeliveredReceipt P else pure true
        pure .unacknowledged).Holds (rules P) ((handler P).Ends (rules P) signal) s := by
  refine ((encrypted_holds P signal (htoken ▸ h)).imp fun r s hs => ?_).bind
  rw [htoken] at hs
  match r with
  | .error e => exact ends_idle P hs.inv ⟨hs.critical, hs.unsaved⟩
  | .ok (.rejected true) =>
    obtain ⟨c, rfl | ⟨-, hc⟩, hs⟩ := hs
    · exact ends_idle P hs.inv ⟨hs.critical, hs.unsaved⟩
    · cases hc
  | .ok (.rejected false) =>
    obtain ⟨c, -, hs⟩ := hs
    exact ends_refused P hs
  | .ok (.processed messageId required verdict) =>
    obtain ⟨c, hc, hs, -⟩ := hs
    have hcrit : c = none := hc.elim (fun h => h) fun h => h
    subst hcrit
    have hA : Assertion ((handler P).Ends (rules P) signal) (At (S := S) (A := A) (G := G) (δ := δ) none none none) :=
      at_assertion fun s hs => ends_idle P hs.inv ⟨hs.critical, hs.unsaved⟩
    dsimp only
    split
    · rw [sendDeliveredReceipt]
      split
      · exact ends_idle P hs.inv ⟨hs.critical, hs.unsaved⟩
      · exact hA.ask hs fun i s hs => ends_idle P hs.inv ⟨hs.critical, hs.unsaved⟩
    · exact ends_idle P hs.inv ⟨hs.critical, hs.unsaved⟩

/-- **Every call keeps the invariant and ends with nothing held**, if its failures are at safe states and its answers
admitted. -/
theorem encryptedWithTransportAck_holds (signal : EncryptedSignal ν) {s : State ν S A G δ} (h : Inv s) (hs : Safe s) :
    (encryptedWithTransportAck P signal).Holds (rules P) ((handler P).Ends (rules P) signal) s := by
  rw [encryptedWithTransportAck]
  split
  · rename_i htoken
    exact untracked_holds signal htoken ⟨h, by simp, hs.1, hs.2⟩
  · rename_i token htoken
    split
    · exact ends_idle P h hs
    · refine ((processedDelivery_holds h hs).imp fun r s hs => ?_).bind
      cases r with
      | error e => exact ends_idle P hs.1 hs.2
      | ok found =>
        cases found with
        | none => exact unrecorded_holds signal htoken hs
        | some previous =>
          dsimp only
          split
          · exact hs.ends
          · exact acknowledge_holds _ hs

end Program

instance decidableAdmitted : ∀ (l : Point ν) (i : Answer ν) (s : State ν S A G δ), Decidable ((rules P).Admitted l i s)
  | .step, _, _ => isTrue trivial
  | .lookup _, _, _ => inferInstanceAs (Decidable (_ = true))
  | .inner _ _ _ _, _, _ | .blobPointer _, _, _ => inferInstanceAs (Decidable (_ ∨ _))

instance decidableSafe : DecidablePred (rules P).Safe := fun s =>
    inferInstanceAs (Decidable (s.critical = none ∧ s.unsaved = none))

/-- Nothing is in memory, and no envelope has been delivered yet; the rows of the application are any. -/
structure Initial (s : State ν S A G δ) : Prop where
  processed : s.processed = []
  seenMessageIds : s.seenMessageIds = []
  critical : s.critical = none
  unsaved : s.unsaved = none
  consumed : s.consumed = []
  remembered : ∀ t, s.remembered t = none
  inserts : s.inserts = []
  acks : s.acks = []

omit [DecidableEq ν] in
theorem Initial.inv {s : State ν S A G δ} (h : Initial s) : Inv s := by
  refine ⟨?_, ?_, ?_, ?_, ?_, ?_, ?_⟩
  · simp [h.consumed]
  · simp [h.remembered]
  · simp [h.processed]
  · simp [h.acks]
  · simp [h.seenMessageIds]
  · simp [h.inserts]
  · simp [h.inserts]

def redelivery (signal : EncryptedSignal ν) (now : ℕ) (r : ProcessedDelivery ν) :
    List (Event (Answer ν) (EncryptedSignal ν) (Outside ν S A G δ)) :=
  let sent := Event.answer ⟨now, none, true⟩
  .start signal :: sent :: if r.messageId.isSome then [sent, sent] else [sent]

theorem redelivery_acked {s : State ν S A G δ} {signal : EncryptedSignal ν} {token : ν} {r : ProcessedDelivery ν}
    {now : ℕ} (hr : s.record token = some r) (hnow : now < r.expiresAt) (htoken : signal.deliveryToken = some token)
    (hsender : signal.senderId = r.senderId) (hvalid : P.validToken token = true) (huser : P.userId.isSome = true) :
    ∃ S, run (handler P).step ⟨s, none⟩ (redelivery signal now r) = some S ∧ (token, r.verdict) ∈ S.state.acks := by
  have hlookup : ¬ r.expiresAt ≤ now := Nat.not_le_of_lt hnow
  have hne : P.userId.isNone = false := by
    rw [← Option.not_isSome, huser]
    rfl
  have hcall : (handler P).step ⟨s, none⟩ (.start signal) =
      some ⟨s, some (signal, encryptedWithTransportAck P signal)⟩ := by
    simp only [Process.step, handler, encryptedWithTransportAck, htoken, hvalid, Bool.not_true, Bool.false_eq_true,
      if_false]
    rfl
  have hfound : (handler P).step ⟨s, some (signal, encryptedWithTransportAck P signal)⟩ (.answer ⟨now, none, true⟩) =
      some ((handler P).settle signal (acknowledge P token r.messageId.isSome r.verdict) s) := by
    simp only [encryptedWithTransportAck, htoken, hvalid, Bool.not_true, Bool.false_eq_true, if_false,
      processedDelivery, Process.step, Bind.bind, Program.bind, hr, hlookup]
    change some ((handler P).settle signal (if r.senderId ≠ signal.senderId then _ else _) s) = _
    rw [if_neg (not_not.2 hsender.symm)]
  have hack : (handler P).settle signal (sendTransportAck P token r.verdict) s =
      ⟨s, some (signal, sendTransportAck P token r.verdict)⟩ := by
    simp only [sendTransportAck, hne, Bool.false_eq_true, if_false, Process.settle]
  have hacked : ∃ S, (handler P).step ⟨s, some (signal, sendTransportAck P token r.verdict)⟩
    (.answer ⟨now, none, true⟩) =
      some S ∧ (token, r.verdict) ∈ S.state.acks := by
    simp only [sendTransportAck, hne, Bool.false_eq_true, if_false, Process.step]
    exact ⟨_, rfl, List.mem_cons_self⟩
  obtain ⟨S, hS, hmem⟩ := hacked
  refine ⟨S, ?_, hmem⟩
  refine run_cons.2 ⟨_, hcall, run_cons.2 ⟨_, hfound, ?_⟩⟩
  cases hm : r.messageId.isSome with
  | false =>
    have hsettle : (handler P).settle signal (acknowledge P token false r.verdict) s =
        ⟨s, some (signal, sendTransportAck P token r.verdict)⟩ := by
      rw [acknowledge, if_neg Bool.false_ne_true, ← hack]
      rfl
    rw [hsettle]
    exact run_cons.2 ⟨S, hS, rfl⟩
  | true =>
    have hreceipt : (handler P).step ((handler P).settle signal (acknowledge P token true r.verdict) s)
        (.answer ⟨now, none, true⟩) = some ⟨s, some (signal, sendTransportAck P token r.verdict)⟩ := by
      rw [acknowledge, if_pos rfl, sendDeliveredReceipt, hne, if_neg Bool.false_ne_true, ← hack]
      rfl
    exact run_cons.2 ⟨_, hreceipt, run_cons.2 ⟨S, hS, rfl⟩⟩

/-- **The handler's law**: in every run of deliveries whose failing steps and stops are at safe states and whose answers
are admitted, what is acknowledged is settled, a message is inserted once, and whenever the handler is idle a decrypted
envelope has been refused or has a record, with which its next delivery is acknowledged. -/
theorem incoming_run {s₀ : State ν S A G δ} (h₀ : Initial s₀)
    {Sys : System (Answer ν) (Point ν) (State ν S A G δ) Error End (EncryptedSignal ν)}
    {es : List (Event (Answer ν) (EncryptedSignal ν) (Outside ν S A G δ))}
    (hm : Meets (handler P).step (Process.Orderly (rules P)) ⟨s₀, none⟩ es)
    (hr : run (handler P).step ⟨s₀, none⟩ es = some Sys) :
    (∀ x ∈ Sys.state.acks, Settled x.1 x.2 Sys.state) ∧ Sys.state.inserts.Nodup ∧
    (Sys.running = none → ∀ token ∈ Sys.state.consumed, token ∈ Sys.state.refused ∨
      ∃ r, Sys.state.remembered token = some r ∧ Settled token r.verdict Sys.state ∧
        ∀ now (signal : EncryptedSignal ν), Sys.state.record token = some r → now < r.expiresAt →
          signal.deliveryToken = some token → signal.senderId = r.senderId → P.validToken token = true →
          P.userId.isSome = true →
          ∃ Sys', run (handler P).step Sys (redelivery signal now r) = some Sys' ∧
            (token, r.verdict) ∈ Sys'.state.acks) := by
  have hkept : (handler P).Kept (rules P) Sys := by
    refine Process.kept_run (R := rules P) Frame.refl (fun _ _ _ => Frame.trans) (fun j s => ?_)
      (fun _ _ hs h => h.frame hs)
      (fun _ _ hs h => h.frame hs) (fun s h hs => ?_) (fun x s h hs => encryptedWithTransportAck_holds x h hs)
      h₀.inv ⟨h₀.critical, h₀.unsaved⟩ hm hr
    · cases j with
      | write w => exact frame_write s w
      | prune now => exact frame_prune s now
    · refine ⟨⟨fun t ht => ?_, h.settled, h.records, h.acks, nofun, h.inserts, h.nodup⟩, rfl, rfl⟩
      refine (h.consumed t ht).imp (fun h => h) (Or.imp (fun h => h) fun hc => ?_)
      rw [hs.1] at hc
      cases hc
  obtain ⟨hinv, hrun⟩ := hkept
  refine ⟨fun x hx => ?_, hinv.nodup, fun hidle token htoken => ?_⟩
  · obtain ⟨r, hr, hv⟩ := hinv.acks x hx
    exact hv ▸ hinv.settled x.1 r hr
  · obtain ⟨s, running⟩ := Sys
    cases hidle
    rcases hinv.consumed token htoken with hrefused | hrec | hcrit
    · exact .inl hrefused
    · obtain ⟨r, hr⟩ := Option.ne_none_iff_exists'.1 hrec
      exact .inr ⟨r, hr, hinv.settled token r hr, fun now signal h₁ h₂ h₃ h₄ h₅ h₆ =>
        redelivery_acked P h₁ h₂ h₃ h₄ h₅ h₆⟩
    · have hnone : s.critical = none := hrun.1
      rw [show State.critical s = some token from hcrit] at hnone
      cases hnone

/-- A configuration to run: a session is the list of the keys it has used, the envelopes `10 * m + k` carry the
message `m`. -/
def sampleConfig : Config ℕ (List ℕ) Unit Unit Unit where
  userId := some 0
  validToken _ := true
  isGroupEnvelope _ := false
  localGroupId _ _ := none
  directDecryptionPeer signal := signal.senderId
  parseEnvelope envelope := some (false, envelope)
  decrypt used message := if message.2 ∈ used then .error .missingMessageKey else .ok
    (message.2 :: used, message.2 / 10)
  createAccount := ()
  createInboundSession _ _ _ := .error .generic
  decryptGroup _ _ _ _ := none
  acceptSenderKey _ _ _ := none
  direct _ := .plain
  validGroupText _ := true
  content plaintext := .visible (.message (some plaintext) plaintext false)
  groupControl _ _ := none
  chatControl _ _ := none
  applyCallMediaKey := none
  acceptBlobPointer := none
  pointerMessageId _ := none
  toggleVote _ _ _ := none
  fallbackId signal := signal.timestamp

def sampleState : State ℕ (List ℕ) Unit Unit Unit where
  app := ⟨fun _ => [(1, [])], none, fun _ => none, (), fun _ => none, fun _ => false, ()⟩
  messages _ := none
  processed := []
  seenMessageIds := []
  processedDeliveriesSincePrune := 0
  sessionResetSentAt _ := none
  critical := none
  unsaved := none
  consumed := []
  refused := []
  remembered _ := none
  applied := []
  inserts := []
  acks := []

abbrev SampleEvent := Event (Answer ℕ) (EncryptedSignal ℕ) (Outside ℕ (List ℕ) Unit Unit Unit)

def sent (n : ℕ) : List SampleEvent := List.replicate n (.answer ⟨0, none, true⟩)

def sampleSignal (token envelope : ℕ) : EncryptedSignal ℕ := ⟨7, 0, 0, envelope, some token⟩

/-- The insert fails once: the envelope is found used, and a copy of the message under another token is acknowledged. -/
def lostRun : List SampleEvent :=
  .start (sampleSignal 1 51) :: sent 9 ++ [.fail] ++ .start (sampleSignal 1 51) :: sent 4 ++
    .start (sampleSignal 2 52) :: sent 8

/-- The message is stored and recorded, the frame of the acknowledgement is lost and the process stops; the envelope is
delivered again. -/
def repeatedRun : List SampleEvent :=
  .start (sampleSignal 1 51) :: sent 14 ++ [.fail, .stop] ++ .start (sampleSignal 1 51) :: sent 3

/-- The first envelope is never acknowledged, the message of the second is acknowledged and not stored. -/
theorem incoming_lost :
    ∃ Sys, run (handler sampleConfig).step ⟨sampleState, none⟩ lostRun = some Sys ∧
      (Sys.running.isNone = true ∧ 1 ∈ Sys.state.consumed ∧ 1 ∉ Sys.state.refused ∧ Sys.state.remembered 1 = none ∧
        1 ∉ Sys.state.acks.map Prod.fst ∧ (2, Verdict.stored 5) ∈ Sys.state.acks ∧
        (Sys.state.messages 5).isNone = true) :=
  Runs.exists_run _ _ _ (by decide +kernel)

theorem incoming_repeated :
    ∃ Sys, run (handler sampleConfig).step ⟨sampleState, none⟩ repeatedRun = some Sys ∧
      Sys.state.acks = [(1, .stored 5)] ∧ (Sys.state.messages 5).isSome = true ∧ Sys.state.inserts.Nodup := by
  have hex : ∃ Sys, run (handler sampleConfig).step ⟨sampleState, none⟩ repeatedRun = some Sys ∧
      Sys.state.acks = [(1, .stored 5)] := Runs.exists_run _ _ _ (by decide +kernel)
  obtain ⟨Sys, hr, hacks⟩ := hex
  have hrun := incoming_run sampleConfig ⟨rfl, rfl, rfl, rfl, rfl, fun _ => rfl, rfl, rfl⟩ (by decide +kernel) hr
  exact ⟨Sys, hr, hacks, hrun.1 (1, .stored 5) (by rw [hacks]; exact List.mem_cons_self), hrun.2.1⟩

end Incoming
end SecureChat
