import SecureChat.IncomingMessageHandler
/-!
# IncomingDelivery — a delivered envelope is settled once, and then acknowledged

Any deliveries and redeliveries, with failing steps and stops of the process.  The handler keeps its word as long as an
attempt that has decrypted an envelope gets to its record: until then nothing but memory says that the ratchet has moved
on, and a redelivery finds a used key.  From the record on everything may fail.
-/
namespace SecureChat
namespace Incoming

open Async Runs

variable {ν S A G δ α β : Type}

def Settled (token : ν) (v : Verdict ν) (s : State ν S A G δ) : Prop :=
  match v with
  | .stored messageId => (s.messages messageId).isSome
  | .applied writes => ∀ i < writes, (token, i) ∈ s.applied
  | .discarded => True
  | .undecryptable => token ∈ s.consumed → token ∈ s.refused

structure Inv (s : State ν S A G δ) : Prop where
  consumed : ∀ t ∈ s.consumed, t ∈ s.refused ∨ s.remembered t ≠ none ∨ s.critical = some t
  settled : ∀ t r, s.remembered t = some r → Settled t r.verdict s
  records : ∀ x ∈ s.processed, s.remembered x.1 = some x.2
  acks : ∀ x ∈ s.acks, ∃ r, s.remembered x.1 = some r ∧ r.verdict = x.2
  seen : ∀ id ∈ s.seenMessageIds, (s.messages id).isSome ∨ s.unsaved = some id
  inserts : ∀ id ∈ s.inserts, (s.messages id).isSome
  nodup : s.inserts.Nodup

/-- No decrypted envelope is held without a record, and no message is marked as seen that is not stored. -/
def Safe (s : State ν S A G δ) : Prop := s.critical = none ∧ s.unsaved = none

/-- What moves no envelope and no message forward: rows may change, records may only go. -/
structure Frame (s s' : State ν S A G δ) : Prop where
  messages : ∀ id, (s.messages id).isSome → (s'.messages id).isSome
  applied : ∀ x ∈ s.applied, x ∈ s'.applied
  processed : ∀ x ∈ s'.processed, x ∈ s.processed
  seen : s'.seenMessageIds = s.seenMessageIds
  critical : s'.critical = s.critical
  unsaved : s'.unsaved = s.unsaved
  consumed : s'.consumed = s.consumed
  refused : s'.refused = s.refused
  remembered : s'.remembered = s.remembered
  inserts : s'.inserts = s.inserts
  acks : s'.acks = s.acks

theorem Frame.refl (s : State ν S A G δ) : Frame s s :=
  ⟨fun _ h => h, fun _ h => h, fun _ h => h, rfl, rfl, rfl, rfl, rfl, rfl, rfl, rfl⟩

theorem Frame.trans {a b c : State ν S A G δ} (h : Frame a b) (h' : Frame b c) : Frame a c where
  messages id hid := h'.messages id (h.messages id hid)
  applied x hx := h'.applied x (h.applied x hx)
  processed x hx := h.processed x (h'.processed x hx)
  seen := h'.seen.trans h.seen
  critical := h'.critical.trans h.critical
  unsaved := h'.unsaved.trans h.unsaved
  consumed := h'.consumed.trans h.consumed
  refused := h'.refused.trans h.refused
  remembered := h'.remembered.trans h.remembered
  inserts := h'.inserts.trans h.inserts
  acks := h'.acks.trans h.acks

theorem Settled.mono {s s' : State ν S A G δ} {token : ν} {v : Verdict ν} (h : Settled token v s)
    (hm : ∀ id, (s.messages id).isSome → (s'.messages id).isSome) (ha : ∀ x ∈ s.applied, x ∈ s'.applied)
    (hc : token ∈ s'.consumed → token ∈ s.consumed) (hr : ∀ t ∈ s.refused, t ∈ s'.refused) : Settled token v s' := by
  cases v with
  | stored messageId => exact hm messageId h
  | applied writes => exact fun i hi => ha _ (h i hi)
  | discarded => trivial
  | undecryptable => exact fun ht => hr token (h (hc ht))

theorem Frame.settled {s s' : State ν S A G δ} (hs : Frame s s') {token : ν} {v : Verdict ν} (h : Settled token v s) :
    Settled token v s' :=
  h.mono hs.messages hs.applied (by rw [hs.consumed]; exact id) (by rw [hs.refused]; exact fun _ h => h)

theorem Inv.frame {s s' : State ν S A G δ} (h : Inv s) (hs : Frame s s') : Inv s' where
  consumed := by
    rw [hs.consumed, hs.refused, hs.remembered, hs.critical]
    exact h.consumed
  settled t r hr := hs.settled (h.settled t r (hs.remembered ▸ hr))
  records x hx := by
    rw [hs.remembered]
    exact h.records x (hs.processed x hx)
  acks := by
    rw [hs.acks, hs.remembered]
    exact h.acks
  seen := by
    rw [hs.seen, hs.unsaved]
    exact fun i hi => (h.seen i hi).imp (hs.messages i) (fun h => h)
  inserts := by
    rw [hs.inserts]
    exact fun id hid => hs.messages id (h.inserts id hid)
  nodup := by
    rw [hs.inserts]
    exact h.nodup

theorem Safe.frame {s s' : State ν S A G δ} (h : Safe s) (hs : Frame s s') : Safe s' :=
  ⟨hs.critical.trans h.1, hs.unsaved.trans h.2⟩

section Frames

variable (s : State ν S A G δ)

theorem frame_write (w : Write ν S A G δ) : Frame s (s.write w) :=
  ⟨fun id h => w.keeps _ id h, fun _ h => h, fun _ h => h, rfl, rfl, rfl, rfl, rfl, rfl, rfl, rfl⟩

theorem frame_apply (token : Option ν) (i : ℕ) (w : Write ν S A G δ) : Frame s (s.apply token i w) :=
  ⟨fun id h => w.keeps _ id h, fun _ h => List.mem_append_right _ h, fun _ h => h, rfl, rfl, rfl, rfl, rfl,
    rfl, rfl, rfl⟩

theorem frame_prune (now : ℕ) : Frame s (s.prune now) where
  messages _ h := h
  applied _ h := h
  processed x hx := by
    simp only [State.prune] at hx
    split at hx
    · exact List.mem_of_mem_filter hx
    · exact List.mem_of_mem_filter (List.mem_mergeSort.1 (List.mem_of_mem_drop hx))
  seen := rfl
  critical := rfl
  unsaved := rfl
  consumed := rfl
  refused := rfl
  remembered := rfl
  inserts := rfl
  acks := rfl

end Frames

/-- The attempt for `token`, which has no record: what it holds, and the message id it has marked. -/
structure At (critical unsaved token : Option ν) (s : State ν S A G δ) : Prop where
  inv : Inv s
  fresh : ∀ t, token = some t → s.remembered t = none
  critical : s.critical = critical
  unsaved : s.unsaved = unsaved

section At

variable {c u token : Option ν} {s s' : State ν S A G δ}

theorem At.frame (h : At c u token s) (hs : Frame s s') : At c u token s' :=
  ⟨h.inv.frame hs, fun t ht => hs.remembered ▸ h.fresh t ht, hs.critical.trans h.critical, hs.unsaved.trans h.unsaved⟩

theorem At.safe (h : At c u token s) (hs : Safe s) : At none none token s := ⟨h.inv, h.fresh, hs.1, hs.2⟩

theorem At.consume (h : At c none token s) (hc : c = none ∨ c = token) : At token none token (s.consume token) where
  inv := by
    refine ⟨fun t ht => ?_, fun t r hr => ?_, h.inv.records, h.inv.acks, h.inv.seen, h.inv.inserts, h.inv.nodup⟩
    · rcases List.mem_append.1 ht with ht | ht
      · exact .inr (.inr (Option.mem_toList.1 ht))
      · refine (h.inv.consumed t ht).imp id (Or.imp id fun hcrit => ?_)
        rcases hc with rfl | rfl
        · rw [h.critical] at hcrit
          cases hcrit
        · exact h.critical.symm.trans hcrit
    · refine (h.inv.settled t r hr).mono (fun _ h => h) (fun _ h => h) (fun ht => ?_) (fun _ h => h)
      rcases List.mem_append.1 ht with ht | ht
      · have hf := h.fresh t (Option.mem_toList.1 ht)
        rw [show (s.consume token).remembered = s.remembered from rfl, hf] at hr
        cases hr
      · exact ht
  fresh := h.fresh
  critical := rfl
  unsaved := h.unsaved

theorem At.mark (h : At c none token s) (id : ν) :
    At c (some id) token { s with seenMessageIds := id :: s.seenMessageIds, unsaved := some id } where
  inv := by
    refine ⟨h.inv.consumed, h.inv.settled, h.inv.records, h.inv.acks, fun i hi => ?_, h.inv.inserts, h.inv.nodup⟩
    rcases List.mem_cons.1 hi with rfl | hi
    · exact .inr rfl
    · rcases h.inv.seen i hi with hm | hu
      · exact .inl hm
      · rw [h.unsaved] at hu
        cases hu
  fresh := h.fresh
  critical := h.critical
  unsaved := rfl

theorem At.unmark {id : ν} (h : At c (some id) token s) (hm : (s.messages id).isSome) :
    At c none token { s with unsaved := none } where
  inv := by
    refine ⟨h.inv.consumed, h.inv.settled, h.inv.records, h.inv.acks, fun i hi => .inl ?_, h.inv.inserts, h.inv.nodup⟩
    rcases h.inv.seen i hi with hi | hi
    · exact hi
    · rw [h.unsaved] at hi
      cases hi
      exact hm
  fresh := h.fresh
  critical := h.critical
  unsaved := rfl

theorem At.insert [DecidableEq ν] {id : ν} (h : At c (some id) token s) (hid : id ∉ s.inserts) (m : Message ν) :
    At c none token (s.insertMessage id m) ∧ ((s.insertMessage id m).messages id).isSome := by
  have hnew : ((s.insertMessage id m).messages id).isSome := by simp [State.insertMessage]
  have hold : ∀ i, (s.messages i).isSome → ((s.insertMessage id m).messages i).isSome := by
    intro i hi
    by_cases hid : i = id
    · exact hid ▸ hnew
    · simpa only [State.insertMessage, Function.update_of_ne hid] using hi
  refine ⟨⟨⟨h.inv.consumed, fun t r hr => ?_, h.inv.records, h.inv.acks, fun i hi => .inl ?_, fun i hi => ?_, ?_⟩,
    h.fresh, h.critical, rfl⟩, hnew⟩
  · exact (h.inv.settled t r hr).mono hold (fun _ h => h) (fun h => h) (fun _ h => h)
  · rcases h.inv.seen i hi with hi | hi
    · exact hold i hi
    · rw [h.unsaved] at hi
      cases hi
      exact hnew
  · rcases List.mem_cons.1 hi with rfl | hi
    · exact hnew
    · exact hold i (h.inv.inserts i hi)
  · exact List.nodup_cons.2 ⟨hid, h.inv.nodup⟩

end At

/-- The delivery of `token` has a record with the verdict `v`, and nothing is held. -/
structure Ready (token : ν) (v : Verdict ν) (s : State ν S A G δ) : Prop where
  inv : Inv s
  safe : Safe s
  remembered : ∃ r, s.remembered token = some r ∧ r.verdict = v

section Ready

variable {token : ν} {v : Verdict ν} {s s' : State ν S A G δ}

theorem Ready.frame (h : Ready token v s) (hs : Frame s s') : Ready token v s' :=
  ⟨h.inv.frame hs, h.safe.frame hs, hs.remembered ▸ h.remembered⟩

theorem At.remember [DecidableEq ν] {c : Option ν} (h : At c none (some token) s) (hc : c = none ∨ c = some token)
    {r : ProcessedDelivery ν} (hr : Settled token r.verdict s) : Ready token r.verdict (s.remember token r) where
  inv := by
    have hself : (s.remember token r).remembered token = some r := Function.update_self ..
    have hother : ∀ t, t ≠ token → (s.remember token r).remembered t = s.remembered t :=
      fun t ht => Function.update_of_ne ht ..
    refine ⟨fun t ht => ?_, fun t r' hr' => ?_, fun x hx => ?_, fun x hx => ?_, h.inv.seen, h.inv.inserts, h.inv.nodup⟩
    · by_cases htoken : t = token
      · exact .inr (.inl (by rw [htoken, hself]; exact Option.some_ne_none r))
      · rw [hother t htoken]
        rcases h.inv.consumed t ht with ht | ht | ht
        · exact .inl ht
        · exact .inr (.inl ht)
        · rw [h.critical] at ht
          rcases hc with rfl | rfl
          · cases ht
          · exact absurd (Option.some.inj ht).symm htoken
    · by_cases htoken : t = token
      · subst htoken
        rw [hself] at hr'
        cases hr'
        exact hr
      · exact h.inv.settled t r' (hother t htoken ▸ hr')
    · rcases List.mem_cons.1 hx with rfl | hx
      · exact hself
      · rw [List.mem_filter, decide_eq_true_eq] at hx
        rw [hother x.1 hx.2]
        exact h.inv.records x hx.1
    · obtain ⟨r', hr', hv⟩ := h.inv.acks x hx
      refine ⟨r', ?_, hv⟩
      rw [hother x.1 (fun htoken => ?_)]
      · exact hr'
      · rw [htoken, h.fresh token rfl] at hr'
        cases hr'
  safe := ⟨rfl, h.unsaved⟩
  remembered := ⟨r, Function.update_self .., rfl⟩

theorem Ready.ack (h : Ready token v s) : Ready token v { s with acks := (token, v) :: s.acks } where
  inv := by
    refine ⟨h.inv.consumed, h.inv.settled, h.inv.records, fun x hx => ?_, h.inv.seen, h.inv.inserts, h.inv.nodup⟩
    rcases List.mem_cons.1 hx with rfl | hx
    · exact h.remembered
    · exact h.inv.acks x hx
  safe := h.safe
  remembered := h.remembered

end Ready

section Rules

variable [DecidableEq ν] (P : Config ν S A G δ)

/-- The answers that do not lose a decrypted envelope: a record is still found, the group message of a decrypted
envelope can be decrypted, its attachment is accepted. -/
def Admitted : Point ν → Answer ν → State ν S A G δ → Prop
  | .step, _, _ => True
  | .lookup token, i, s =>
    (s.remembered token).all (fun r => decide (s.record token = some r) && decide (i.now < r.expiresAt)) = true
  | .inner token groupId senderId envelope, _, s =>
    token = none ∨ (P.decryptGroup s.app.groups groupId senderId envelope).isSome = true
  | .blobPointer token, i, _ => token = none ∨ i.ok = true

def rules : Program.Rules (Answer ν) (Point ν) (State ν S A G δ) := ⟨Inv, Safe, Admitted P, Frame⟩

structure Assertion (Q : Except Error β → State ν S A G δ → Prop) (Pre : State ν S A G δ → Prop) : Prop where
  stable : ∀ s s', Frame s s' → Pre s → Pre s'
  inv : ∀ s, Pre s → Inv s
  fails : ∀ s, Pre s → Safe s → Q (.error .failure) s

variable {P} {Q : Except Error β → State ν S A G δ → Prop} {Pre : State ν S A G δ → Prop} {s : State ν S A G δ}

omit [DecidableEq ν] in
/-- `At`, if a failure at a safe state is as the postcondition wants it. -/
theorem at_assertion {c u token : Option ν} (hQ : ∀ s, At none none token s → Q (.error .failure) s) :
    Assertion Q (At c u token) where
  stable _ _ hs h := h.frame hs
  inv _ h := h.inv
  fails s h hs := hQ s (h.safe hs)

omit [DecidableEq ν] in
theorem Assertion.and {E : State ν S A G δ → Prop} (h : Assertion Q Pre) (hE : ∀ s s', Frame s s' → E s → E s') :
    Assertion Q fun s => Pre s ∧ E s :=
  ⟨fun s s' hs hp => ⟨h.stable s s' hs hp.1, hE s s' hs hp.2⟩, fun s hp => h.inv s hp.1,
    fun s hp hs => h.fails s hp.1 hs⟩

theorem Assertion.await (hA : Assertion Q Pre) (h : Pre s) {l : Point ν}
    {f : Answer ν → State ν S A G δ → State ν S A G δ} {k : Answer ν → State ν S A G δ → Handler ν S A G δ β}
    (hk : ∀ i s', Pre s' → Admitted P l i s' → (k i s').Holds (rules P) Q (f i s')) :
    (Program.await l f k (.throw .failure)).Holds (rules P) Q s :=
  ⟨hA.inv s h, fun s' hs => ⟨hA.fails s' (hA.stable s s' hs h), fun i hi => hk i s' (hA.stable s s' hs h) hi⟩⟩

theorem Assertion.query (hA : Assertion Q Pre) (h : Pre s) {g : State ν S A G δ → α} {k : α → Handler ν S A G δ β}
    (hk : ∀ s', Pre s' → (k (g s')).Holds (rules P) Q s') : (query g >>= k).Holds (rules P) Q s :=
  hA.await h fun _ s' hs' _ => hk s' hs'

theorem Assertion.ask (hA : Assertion Q Pre) (h : Pre s) {k : Answer ν → Handler ν S A G δ β}
    (hk : ∀ i s', Pre s' → (k i).Holds (rules P) Q s') : (ask >>= k).Holds (rules P) Q s :=
  hA.await h fun i s' hs' _ => hk i s' hs'

theorem Assertion.writeAt (hA : Assertion Q Pre) (h : Pre s) {f : ℕ → State ν S A G δ → State ν S A G δ}
    {k : Unit → Handler ν S A G δ β} (hk : ∀ now s', Pre s' → (k ()).Holds (rules P) Q (f now s')) :
    (writeAt f >>= k).Holds (rules P) Q s :=
  hA.await h fun i s' hs' _ => hk i.now s' hs'

theorem Assertion.write (hA : Assertion Q Pre) (h : Pre s) {f : State ν S A G δ → State ν S A G δ}
    {k : Unit → Handler ν S A G δ β} (hk : ∀ s', Pre s' → (k ()).Holds (rules P) Q (f s')) :
    (write f >>= k).Holds (rules P) Q s :=
  hA.await h fun _ s' hs' _ => hk s' hs'

end Rules

section Open

variable [DecidableEq ν] (P : Config ν S A G δ) {token : Option ν}

omit [DecidableEq ν] in
theorem frame_app (s : State ν S A G δ) (app : App ν S A G δ) : Frame s { s with app := app } :=
  ⟨fun _ h => h, fun _ h => h, fun _ h => h, rfl, rfl, rfl, rfl, rfl, rfl, rfl, rfl⟩

theorem frame_upsertSession (peerId sessionId : ν) (session : S) (s : State ν S A G δ) :
    Frame s (s.upsertSession peerId sessionId session) :=
  frame_app s _

theorem frame_pinIdentity (peerId identity : ν) (s : State ν S A G δ) : Frame s (s.pinIdentity peerId identity) :=
  frame_app s _

theorem frame_setSessions (peerId : ν) (l : List (ν × S)) (s : State ν S A G δ) : Frame s (s.setSessions peerId l) :=
  frame_app s _

/-- A try to decrypt: `held` says for which results the envelope is decrypted.  After that only a format error comes. -/
def Tries (token : Option ν) (held : α → Bool) : Except Error α → State ν S A G δ → Prop
  | .ok a, s => At (if held a then token else none) none token s
  | .error e, s => At none none token s ∨ e = .format ∧ At token none token s

omit [DecidableEq ν] in
theorem tries_assertion (held : α → Bool) {c : Option ν} :
    Assertion (S := S) (A := A) (G := G) (δ := δ) (Tries token held) (At c none token) :=
  at_assertion fun _ h => .inl h

def Tried.isOpened : Tried ν → Bool
  | .opened _ => true
  | .failed _ _ => false

theorem trySessions_holds (senderId : ν) (message : Bool × ν) :
    ∀ (sessionIds : List ν) (lastError : Option CryptoErrorKind) (duplicate : Bool) {s : State ν S A G δ},
      At none none token s → (trySessions P token senderId message sessionIds lastError duplicate).Holds (rules P)
        (Tries token Tried.isOpened) s
  | [], _, _, _, h => h
  | sessionId :: rest, lastError, duplicate, s, h => by
    rw [trySessions]
    refine (tries_assertion _).query h fun s hs => ?_
    split
    · exact .inl hs
    · split
      · exact (tries_assertion _).write hs fun s hs => (hs.frame (frame_upsertSession ..)).consume (.inl rfl)
      · exact trySessions_holds senderId message rest _ _ hs

theorem ensurePinned_holds (senderId : ν) {s : State ν S A G δ} (h : At none none token s) :
    (ensurePinned senderId).Holds (rules P) (Tries token fun _ => false) s := by
  rw [ensurePinned]
  refine (tries_assertion _).query h fun s hs => ?_
  split
  · exact hs
  · refine (tries_assertion _).ask hs fun i s hs => ?_
    split
    · exact .inl hs
    · exact (tries_assertion _).write hs fun s hs => hs.frame (frame_pinIdentity ..)

theorem acceptInboundSession_holds (senderId body : ν) {s : State ν S A G δ} (h : At none none token s) :
    (acceptInboundSession P token senderId body).Holds (rules P) (Tries token Except.isOk) s := by
  refine ((ensurePinned_holds P senderId h).imp fun r s hs => ?_).bind
  cases r with
  | error e => exact hs
  | ok _ =>
    refine (tries_assertion _).query hs fun s hs => ?_
    split
    · exact .inl hs
    · refine (tries_assertion _).query hs fun s hs => ?_
      split
      · exact hs
      · refine (tries_assertion _).write hs fun s hs => ?_
        refine (tries_assertion _).write ((hs.frame (frame_upsertSession ..)).consume (.inl rfl)) fun s hs => ?_
        exact hs.frame (frame_app ..)

theorem unopened_holds (senderId : ν) (lastError : Option CryptoErrorKind) (duplicate : Bool) {s : State ν S A G δ}
    (h : At none none token s) : (unopened senderId lastError duplicate).Holds (rules P)
      (Tries token fun _ => true) s := by
  unfold unopened
  split
  · exact .inl h
  · split
    · exact (tries_assertion _).write h fun s hs => .inl (hs.frame (frame_setSessions ..))
    · split
      · exact .inl h
      · exact .inl h

theorem decryptDirect_holds (senderId envelope : ν) {s : State ν S A G δ} (h : At none none token s) :
    (decryptDirect P token senderId envelope).Holds (rules P) (Tries token fun _ => true) s := by
  rw [decryptDirect]
  split
  · exact .inl h
  · refine (tries_assertion _).query h fun s hs => ?_
    refine ((trySessions_holds P senderId _ _ none false hs).imp fun r s hs => ?_).bind
    match r with
    | .error e => exact hs
    | .ok (.opened plaintext) => exact hs
    | .ok (.failed lastError duplicate) =>
      change Program.Holds _ _ (ite _ _ _) _
      split
      · refine ((acceptInboundSession_holds P senderId _ hs).imp fun r s hs => ?_).bind
        match r with
        | .error e => exact hs
        | .ok (.ok plaintext) => exact hs
        | .ok (.error kind) =>
          dsimp only
          split
          · rename_i heq
            cases heq
          · exact (tries_assertion _).ask hs fun _ s hs => .inl hs
          · rename_i heq
            cases heq
            exact unopened_holds P senderId (some kind) false hs
      · exact unopened_holds P senderId lastError duplicate hs

theorem decryptGroup_holds (senderId groupId envelope : ν) {s : State ν S A G δ} (h : At none none token s) :
    (decryptGroup P .step token senderId groupId envelope).Holds (rules P) (Tries token fun _ => true) s := by
  refine (tries_assertion _).await h fun i s hs _ => ?_
  cases hd : P.decryptGroup s.app.groups groupId senderId envelope with
  | none => exact .inl hs
  | some gp =>
    have hheld := (hs.frame (frame_app s { s.app with groups := gp.1 })).consume (.inl rfl)
    dsimp only
    split
    · exact hheld
    · exact .inr ⟨rfl, hheld⟩

theorem decryptGroup_inner_holds (senderId groupId envelope : ν) {s : State ν S A G δ} (h : At token none token s) :
    (decryptGroup P (.inner token groupId senderId envelope) token senderId groupId envelope).Holds (rules P)
      (Tries token fun _ => true) s := by
  refine (tries_assertion _).await h fun i s hs hi => ?_
  cases hd : P.decryptGroup s.app.groups groupId senderId envelope with
  | none =>
    rcases hi with rfl | hi
    · exact .inl hs
    · rw [hd] at hi
      cases hi
  | some gp =>
    have hheld := (hs.frame (frame_app s { s.app with groups := gp.1 })).consume (.inr rfl)
    dsimp only
    split
    · exact hheld
    · exact .inr ⟨rfl, hheld⟩

/-- How the `try` of `_encrypted` ends. -/
def Opens (token : Option ν) : Except Error (Option (Opened ν)) → State ν S A G δ → Prop
  | .ok none, s => ∃ c, (c = none ∨ c = token) ∧ At c none token s
  | .ok (some _), s => At token none token s
  | .error e, s => At none none token s ∨ e = .format ∧ At token none token s

omit [DecidableEq ν] in
theorem opens_assertion {c : Option ν} :
    Assertion (S := S) (A := A) (G := G) (δ := δ) (Opens token) (At c none token) :=
  at_assertion fun _ h => .inl h

theorem openEnvelope_holds (signal : EncryptedSignal ν) {s : State ν S A G δ}
    (h : At none none signal.deliveryToken s) :
    (openEnvelope P signal).Holds (rules P) (Opens signal.deliveryToken) s := by
  rw [openEnvelope]
  split
  · refine opens_assertion.query h fun s hs => ?_
    split
    · exact ⟨none, .inl rfl, hs⟩
    · refine ((decryptGroup_holds P _ _ _ hs).imp fun r s hs => ?_).bind
      cases r with
      | error e => exact hs
      | ok plaintext => exact hs
  · refine ((decryptDirect_holds P _ _ h).imp fun r s hs => ?_).bind
    cases r with
    | error e => exact hs
    | ok plaintext =>
      dsimp only
      split
      · exact .inr ⟨rfl, hs⟩
      · exact hs
      · refine opens_assertion.query hs fun s hs => ?_
        split
        · exact ⟨_, .inr rfl, hs⟩
        · refine ((decryptGroup_inner_holds P _ _ _ hs).imp fun r s hs => ?_).bind
          cases r with
          | error e => exact hs
          | ok plaintext => exact hs

end Open

section Dispatch

variable [DecidableEq ν] (P : Config ν S A G δ) {token : Option ν}

/-- How `_encrypted` ends: a processed envelope is settled, a rejected one that is still held has been refused. -/
def Encrypted (token : Option ν) : Except Error (Result ν) → State ν S A G δ → Prop
  | .ok (.rejected failed), s => ∃ c, (c = none ∨ c = token ∧ failed = false) ∧ At c none token s
  | .ok (.processed _ _ v), s =>
    ∃ c, (c = none ∨ c = token) ∧ At c none token s ∧ ∀ t, token = some t → Settled t v s
  | .error _, s => At none none token s

omit [DecidableEq ν] in
theorem encrypted_assertion {c u : Option ν} :
    Assertion (S := S) (A := A) (G := G) (δ := δ) (Encrypted token) (At c u token) :=
  at_assertion fun _ h => h

def Written (token : Option ν) (n : ℕ) (s : State ν S A G δ) : Prop :=
  ∀ t, token = some t → ∀ i < n, (t, i) ∈ s.applied

omit [DecidableEq ν] in
theorem Written.frame {n : ℕ} {s s' : State ν S A G δ} (h : Written token n s) (hs : Frame s s') :
    Written token n s' :=
  fun t ht i hi => hs.applied _ (h t ht i hi)

omit [DecidableEq ν] in
theorem Written.apply {n : ℕ} {s : State ν S A G δ} (h : Written token n s) (w : Write ν S A G δ) :
    Written token (n + 1) (s.apply token n w) := by
  intro t ht i hi
  subst ht
  rcases Nat.lt_succ_iff_lt_or_eq.1 hi with hi | rfl
  · exact List.mem_append_right _ (h t rfl i hi)
  · exact List.mem_append_left _ (List.mem_singleton.2 rfl)

omit [DecidableEq ν] in
theorem written_zero (s : State ν S A G δ) : Written token 0 s := fun _ _ _ hi => absurd hi (Nat.not_lt_zero _)

def Writes (token : Option ν) (n : ℕ) : Except Error Unit → State ν S A G δ → Prop
  | .ok _, s => At token none token s ∧ Written token n s
  | .error e, s => e = .failure ∧ At none none token s

theorem applyWrites_holds :
    ∀ (ws : List (Write ν S A G δ)) (i : ℕ) {s : State ν S A G δ}, At token none token s → Written token i s →
      (applyWrites token i ws).Holds (rules P) (Writes token (i + ws.length)) s
  | [], _, _, h, hw => ⟨h, hw⟩
  | w :: ws, i, s, h, hw => by
    have hA : Assertion (Writes token (i + (w :: ws).length))
        fun s : State ν S A G δ => At token none token s ∧ Written token i s :=
      (at_assertion fun _ h => ⟨rfl, h⟩).and fun _ _ hs h => h.frame hs
    refine hA.write ⟨h, hw⟩ fun s hs => ?_
    rw [List.length_cons, ← Nat.add_assoc, Nat.add_right_comm]
    exact applyWrites_holds ws (i + 1) (hs.1.frame (frame_apply ..)) (hs.2.apply w)

theorem applyControl_holds (control : Option (List (Write ν S A G δ))) {s : State ν S A G δ}
    (h : At token none token s) : (applyControl token control).Holds (rules P) (Encrypted token) s := by
  cases control with
  | none => exact ⟨token, .inr ⟨rfl, rfl⟩, h⟩
  | some ws =>
    refine Program.Holds.bind (Program.Holds.attempt ?_)
    refine (applyWrites_holds P ws 0 h (written_zero s)).imp fun r s hs => ?_
    cases r with
    | error e =>
      obtain ⟨rfl, hs⟩ := hs
      exact ⟨none, .inl rfl, hs⟩
    | ok _ =>
      refine ⟨token, .inr rfl, hs.1, fun t ht i hi => hs.2 t ht i ?_⟩
      rw [Nat.zero_add]
      exact hi

def Verdicts (token : Option ν) : Except Error (Verdict ν) → State ν S A G δ → Prop
  | .ok v, s => At token none token s ∧ ∀ t, token = some t → Settled t v s
  | .error _, s => At none none token s

omit [DecidableEq ν] in
theorem verdicts_assertion {c u : Option ν} :
    Assertion (S := S) (A := A) (G := G) (δ := δ) (Verdicts token) (At c u token) :=
  at_assertion fun _ h => h

omit [DecidableEq ν] in
theorem At.swallow {s : State ν S A G δ} (h : At token none token s) (hs : Safe s) (v : Verdict ν) :
    At token none token s ∧ ∀ t, token = some t → Settled t v s := by
  refine ⟨h, fun t ht => ?_⟩
  have := h.critical
  rw [hs.1, ht] at this
  cases this

omit [DecidableEq ν] in
theorem At.applyOne {s : State ν S A G δ} (h : At token none token s) (w : Write ν S A G δ) :
    At token none token (s.apply token 0 w) ∧ ∀ t, token = some t → Settled t (.applied 1) (s.apply token 0 w) :=
  ⟨h.frame (frame_apply ..), (written_zero s).apply w⟩

theorem processSenderKey_holds (senderId plaintext : ν) {s : State ν S A G δ} (h : At token none token s) :
    (processSenderKey P token senderId plaintext).Holds (rules P) (Verdicts token) s := by
  refine ⟨h.inv, fun s' hs => ⟨fun hsafe => (h.frame hs).swallow hsafe _, fun i _ => ?_⟩⟩
  dsimp only
  cases P.acceptSenderKey s'.app.groups senderId plaintext with
  | none => exact ⟨h.frame hs, fun _ _ => trivial⟩
  | some g => exact (h.frame hs).applyOne _

theorem acceptSenderKey_holds (senderId groupId plaintext : ν) {s : State ν S A G δ} (h : At token none token s) :
    (acceptSenderKey P token senderId groupId plaintext).Holds (rules P) (Verdicts token) s := by
  refine verdicts_assertion.query h fun s hs => ?_
  split
  · exact processSenderKey_holds P senderId plaintext hs
  · exact ⟨hs, fun _ _ => trivial⟩

theorem countVote_holds (senderId pollMessageId vote : ν) (message : Message ν) {s : State ν S A G δ}
    (h : At token none token s) :
    (countVote P token senderId pollMessageId vote message).Holds (rules P) (Verdicts token) s := by
  rw [countVote]
  split
  · exact ⟨h, fun _ _ => trivial⟩
  · exact ⟨h.inv, fun s' hs => ⟨fun hsafe => (h.frame hs).swallow hsafe _, fun i _ => (h.frame hs).applyOne _⟩⟩

theorem applyPollVote_holds (senderId conversationId pollMessageId vote : ν) {s : State ν S A G δ}
    (h : At token none token s) :
    (applyPollVote P token senderId conversationId pollMessageId vote).Holds (rules P) (Verdicts token) s := by
  refine verdicts_assertion.query h fun s hs => ?_
  split
  · exact ⟨hs, fun _ _ => trivial⟩
  · refine verdicts_assertion.query hs fun s hs => ?_
    split
    · exact countVote_holds P senderId pollMessageId vote _ hs
    · exact ⟨hs, fun _ _ => trivial⟩

theorem blobPointer_holds (signal : EncryptedSignal ν) (groupId : Option ν) (payload : ν) {s : State ν S A G δ}
    (h : At signal.deliveryToken none signal.deliveryToken s) :
    (blobPointer P signal groupId payload).Holds (rules P) (Encrypted signal.deliveryToken) s := by
  rw [blobPointer]
  split
  · exact ⟨_, .inr ⟨rfl, rfl⟩, h⟩
  · refine encrypted_assertion.await h fun i s hs hi => ?_
    change Program.Holds _ _ (ite _ _ _) _
    split
    · rename_i hok
      rcases hi with htoken | hi
      · exact ⟨none, .inl rfl, htoken ▸ hs⟩
      · rw [hi] at hok
        cases hok
    · split
      · exact ⟨_, .inr rfl, hs, fun _ _ => trivial⟩
      · refine encrypted_assertion.write hs fun s hs => ?_
        exact ⟨_, .inr rfl, hs.applyOne _⟩

def Leads (token : Option ν) (Post : α → State ν S A G δ → Prop) : Except Error α → State ν S A G δ → Prop
  | .ok a, s => Post a s
  | .error _, s => At none none token s

theorem frame_insertConversation (id : ν) (c : Conversation ν) (s : State ν S A G δ) :
    Frame s (s.insertConversation id c) :=
  frame_app s _

theorem frame_updateConversation (id : ν) (f : Conversation ν → Conversation ν) (s : State ν S A G δ) :
    Frame s (s.updateConversation id f) :=
  frame_app s _

section Message

variable {c : Option ν} {id : ν}

/-- The attempt has marked `id`, which it has not stored before. -/
def Marked (c : Option ν) (id : ν) (token : Option ν) (s : State ν S A G δ) : Prop :=
  At c (some id) token s ∧ id ∉ s.inserts

omit [DecidableEq ν] in
theorem marked_assertion {Post : α → State ν S A G δ → Prop} : Assertion (Leads token Post) (Marked c id token) :=
  (at_assertion fun _ h => h).and fun _ _ hs h => hs.inserts ▸ h

/-- The attempt has stored the message `id`. -/
def Stored (c : Option ν) (id : ν) (token : Option ν) (s : State ν S A G δ) : Prop :=
  At c none token s ∧ (s.messages id).isSome

omit [DecidableEq ν] in
theorem Stored.frame {s s' : State ν S A G δ} (h : Stored c id token s) (hs : Frame s s') : Stored c id token s' :=
  ⟨h.1.frame hs, hs.messages id h.2⟩

omit [DecidableEq ν] in
theorem stored_assertion {Post : α → State ν S A G δ → Prop} : Assertion (Leads token Post) (Stored c id token) :=
  (at_assertion fun _ h => h).and fun _ _ hs h => hs.messages id h

theorem ensureConversation_holds (senderId : ν) (o : Opened ν) {s : State ν S A G δ} (h : Marked c id token s) :
    (ensureConversation senderId o).Holds (rules P) (Leads token fun _ => Marked c id token) s := by
  have hresolve : (resolveIdentity o).Holds (rules P) (Leads token fun _ => Marked c id token) s := by
    rw [resolveIdentity]
    split
    · exact h
    · exact marked_assertion.ask h fun _ _ hs => hs
  refine (hresolve.imp fun r s hs => ?_).bind
  cases r with
  | error e => exact hs
  | ok identity =>
    refine marked_assertion.query hs fun s hs => ?_
    split
    · exact hs
    · refine marked_assertion.write hs fun s hs => ?_
      exact ⟨hs.1.frame (frame_insertConversation ..), hs.2⟩

theorem storeMessage_holds (signal : EncryptedSignal ν) (o : Opened ν) (content : ν) (isPoll : Bool)
    {s : State ν S A G δ} (h : Marked c id token s) :
    (storeMessage signal o id content isPoll).Holds (rules P) (Leads token fun _ => Stored c id token) s := by
  refine ((ensureConversation_holds P signal.senderId o h).imp fun r s hs => ?_).bind
  cases r with
  | error e => exact hs
  | ok _ =>
    refine marked_assertion.writeAt hs fun now s hs => ?_
    refine stored_assertion.writeAt (hs.1.insert hs.2 _) fun now s hs => ?_
    refine stored_assertion.write (hs.frame (frame_updateConversation ..)) fun s hs => ?_
    exact stored_assertion.ask (hs.frame (frame_updateConversation ..)) fun _ s hs => hs

theorem acceptMessage_holds (signal : EncryptedSignal ν) (o : Opened ν) (parsedId : Option ν) (content : ν)
    (isPoll : Bool) {s : State ν S A G δ} (h : At signal.deliveryToken none signal.deliveryToken s) :
    (acceptMessage P signal o parsedId content isPoll).Holds (rules P) (Encrypted signal.deliveryToken) s := by
  have hstored : ∀ (required : Bool) {s : State ν S A G δ},
      Stored signal.deliveryToken (parsedId.getD (P.fallbackId signal)) signal.deliveryToken s →
      Encrypted signal.deliveryToken
        (.ok (.processed parsedId required (.stored (parsedId.getD (P.fallbackId signal))))) s :=
    fun _ _ hs => ⟨_, .inr rfl, hs.1, fun _ _ => hs.2⟩
  rw [acceptMessage]
  dsimp only [Program.Holds]
  split
  · rename_i hseen
    refine hstored _ ⟨h, ?_⟩
    rcases h.inv.seen _ hseen with hm | hu
    · exact hm
    · rw [h.unsaved] at hu
      cases hu
  · refine encrypted_assertion.query (h.mark _) fun s hs => ?_
    split
    · rename_i hexisting
      exact hstored (parsedId.isSome && signal.deliveryToken.isSome) ⟨hs.unmark hexisting, hexisting⟩
    · rename_i hexisting
      have hmarked : Marked signal.deliveryToken (parsedId.getD (P.fallbackId signal)) signal.deliveryToken s :=
        ⟨hs, fun hi => hexisting (hs.inv.inserts _ hi)⟩
      refine ((storeMessage_holds P signal o content isPoll hmarked).imp fun r s hs => ?_).bind
      cases r with
      | error e => exact hs
      | ok _ => exact hstored _ hs

end Message

theorem dispatch_holds (signal : EncryptedSignal ν) (o : Opened ν) {s : State ν S A G δ}
    (h : At signal.deliveryToken none signal.deliveryToken s) :
    (dispatch P signal o).Holds (rules P) (Encrypted signal.deliveryToken) s := by
  have hverdict : ∀ {p : Handler ν S A G δ (Verdict ν)} {s : State ν S A G δ},
      p.Holds (rules P) (Verdicts signal.deliveryToken) s →
      (p >>= fun verdict => pure (Result.processed none false verdict)).Holds (rules P)
        (Encrypted signal.deliveryToken) s := by
    intro p s hp
    refine (hp.imp fun r s hs => ?_).bind
    cases r with
    | error e => exact hs
    | ok v => exact ⟨_, .inr rfl, hs⟩
  rw [dispatch]
  split
  · split
    · exact ⟨_, .inr ⟨rfl, rfl⟩, h⟩
    · split
      · exact ⟨_, .inr ⟨rfl, rfl⟩, h⟩
      · refine ((applyWrites_holds P _ 0 h (written_zero s)).imp fun r s hs => ?_).bind
        cases r with
        | error e => exact hs.2
        | ok _ => exact ⟨_, .inr rfl, hs⟩
  · split
    · exact ⟨_, .inr ⟨rfl, rfl⟩, h⟩
    · exact applyControl_holds P _ h
  · refine encrypted_assertion.query h fun s hs => ?_
    split
    · exact ⟨_, .inr rfl, hs, fun _ _ => trivial⟩
    · split
      · split
        · exact ⟨_, .inr ⟨rfl, rfl⟩, hs⟩
        · exact applyControl_holds P _ hs
      · exact hverdict (acceptSenderKey_holds P _ _ _ hs)
      · exact blobPointer_holds P signal _ _ hs
      · exact hverdict (applyPollVote_holds P _ _ _ _ hs)
      · exact acceptMessage_holds P signal o _ _ _ hs

theorem recoverFromDecryptFailure_holds (signal : EncryptedSignal ν) (error : Error) {c : Option ν}
    {s : State ν S A G δ} (h : At c none token s) :
    (recoverFromDecryptFailure P signal error).Holds (rules P) (Leads token fun _ => At c none token) s := by
  have hA {α : Type} : Assertion (Leads (α := α) token fun _ => At (S := S) (A := A) (G := G) (δ := δ) c none token)
      (At c none token) := at_assertion fun _ h => h
  refine hA.ask h fun i s hs => ?_
  dsimp only [Program.Holds]
  split
  · have hreset : At c none token { s with
        sessionResetSentAt := Function.update s.sessionResetSentAt (P.directDecryptionPeer signal) (some i.now) } :=
      hs.frame ⟨fun _ h => h, fun _ h => h, fun _ h => h, rfl, rfl, rfl, rfl, rfl, rfl, rfl, rfl⟩
    refine hA.ask hreset fun i s hs => ?_
    split
    · exact hA.ask hs fun _ s hs => hs
    · exact hs
  · exact hs

omit [DecidableEq ν] in
theorem At.undecrypted {s : State ν S A G δ} (h : At none none token s) :
    ∀ t, token = some t → Settled t .undecryptable s := by
  intro t ht hconsumed
  rcases h.inv.consumed t hconsumed with hr | hr | hr
  · exact hr
  · exact absurd (h.fresh t ht) hr
  · rw [h.critical] at hr
    cases hr

theorem encrypted_holds (signal : EncryptedSignal ν) {s : State ν S A G δ} (h : At none none signal.deliveryToken s) :
    (encrypted P signal).Holds (rules P) (Encrypted signal.deliveryToken) s := by
  refine Program.Holds.bind (Program.Holds.attempt ((openEnvelope_holds P signal h).imp fun r s hs => ?_))
  match r with
  | .ok none =>
    obtain ⟨c, hc, hs⟩ := hs
    exact ⟨c, hc.imp id fun hc => ⟨hc, rfl⟩, hs⟩
  | .ok (some o) => exact dispatch_holds P signal o hs
  | .error e =>
    have hrecover : ∀ {c : Option ν}, At c none signal.deliveryToken s →
        (c = none ∨ c = signal.deliveryToken ∧ e = .format) → (do
          recoverFromDecryptFailure P signal e
          if e = .unusable then pure (Result.processed none false Verdict.undecryptable)
          else pure (Result.rejected (decide (e ≠ .format))) : Handler ν S A G δ (Result ν)).Holds (rules P)
            (Encrypted signal.deliveryToken) s := by
      intro c hs hc
      refine ((recoverFromDecryptFailure_holds P signal e hs).imp fun r s hs => ?_).bind
      cases r with
      | error e => exact hs
      | ok _ =>
        dsimp only
        split
        · rename_i he
          rcases hc with rfl | ⟨-, hc⟩
          · exact ⟨none, .inl rfl, hs, hs.undecrypted⟩
          · rw [he] at hc
            cases hc
        · refine ⟨c, hc.imp id fun hc => ⟨hc.1, ?_⟩, hs⟩
          simp [hc.2]
    rcases hs with hs | ⟨he, hs⟩
    · exact hrecover hs (.inl rfl)
    · exact hrecover hs (.inr ⟨rfl, he⟩)

end Dispatch

end Incoming
end SecureChat
