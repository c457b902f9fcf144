import SecureChat.SignalMessages
/-!
# SignalReading — messages that are written are read back

A time is written in whole milliseconds and read as a local one.  Of a presence the time before the epoch is unknown,
and of a receipt no more than eight short capabilities are read.  Nothing else is lost (`signal_roundTrip`).
-/
namespace SecureChat
namespace Signals

open PlaintextPadding (Units)
open JsonText (Value Entries)

/-! ## What a reader gives -/

section
variable (u : Units) (d : String)

@[simp] theorem text_text : text (Content.text u).value d = .ok u := rfl

@[simp] theorem asString?_text : asString? (Content.text u).value = .ok (some u) := rfl

@[simp] theorem integer_number (n m : Int64) : integer (Content.number n).value m = .ok n := rfl

@[simp] theorem flag_flag (b : Bool) : flag (Content.flag b).value = .ok b := rfl

@[simp] theorem asString?_orNull (o : Option Units) : asString? (Content.orNull o).value = .ok o := by
  cases o <;> rfl

@[simp] theorem dt_date (t : DateTime) : dt (Content.date t).value = .ok t.coarse := by
  show DateTime.ofMillis (Int64.ofInt t.millis).toInt = _
  rw [DateTime.toInt_millis, DateTime.ofMillis_millis]

@[simp] theorem asString?_elim (o : Option Units) :
    asString? (o.elim .null fun u => (Content.text u).value) = .ok o := by
  cases o <;> rfl

@[simp] theorem dtUnlessNull_elim (o : Option DateTime) :
    dtUnlessNull (o.elim .null fun t => (Content.date t).value) = .ok (o.map DateTime.coarse) := by
  cases o with
  | none => rfl
  | some t =>
    show (dt (Content.date t).value).map some = _
    rw [dt_date]
    rfl

def afterEpoch (t : DateTime) : Option DateTime := if t.millis ≤ 0 then none else some t.coarse

@[simp] theorem dtOrNull_dateOrZero (o : Option DateTime) :
    dtOrNull (Content.dateOrZero o).value = .ok (o.bind afterEpoch) := by
  cases o with
  | none => rfl
  | some t =>
    show (if (Int64.ofInt t.millis).toInt ≤ 0 then (.ok none : Except Failure (Option DateTime))
      else (DateTime.ofMillis (Int64.ofInt t.millis).toInt).map some) = .ok (afterEpoch t)
    rw [DateTime.toInt_millis, DateTime.ofMillis_millis, afterEpoch]
    split <;> rfl

theorem textsOf_map : ∀ l : List Units, textsOf (l.map .str) = l
  | [] => rfl
  | u :: l => congrArg (u :: ·) (textsOf_map l)

@[simp] theorem stringList_texts (l : List Units) : stringList (Content.texts l).value = l := textsOf_map l

@[simp] theorem stringMap_table (t : Table Units Units) : stringMap (Content.table t).value = t := by
  show Table.ofList ((t.entries.map fun e => (e.1, Value.str e.2)).map fun e => (e.1, displayOrEmpty e.2)) = t
  rw [List.map_map]
  exact (congrArg Table.ofList (List.map_id _)).trans (ofList_entries t)

def isCapability (u : Units) : Bool := decide (u ≠ [] ∧ u.length ≤ 32)

@[simp] theorem capabilitiesOf_ifTrue (l : List Units) :
    capabilitiesOf (if l = [] then .null else (Content.texts l).value) = (l.filter isCapability).take 8 := by
  cases l with
  | nil => rfl
  | cons u l =>
    rw [if_neg (List.cons_ne_nil u l)]
    show ((textsOf ((u :: l).map .str)).filter isCapability).take 8 = _
    rw [textsOf_map]

end

@[simp] theorem map_ok {α β : Type} (f : α → β) (a : α) : f <$> (.ok a : Except Failure α) = .ok (f a) := rfl

@[simp] theorem seq_ok {α β : Type} (f : α → β) (a : α) :
    (.ok f : Except Failure (α → β)) <*> .ok a = .ok (f a) := rfl

/-! ## The messages -/

def Holds (json : Entries) (fields : Fields) : Prop := ∀ name, get json name = found fields.reverse name

def SignalBase.coarse (m : SignalBase) : SignalBase := { m with timestamp := m.timestamp.coarse }

attribute [simp] SignalBase.fromJson SignalBase.fields SignalBase.coarse

section
variable {json : Entries}

def SharedPhoneSignal.coarse (m : SharedPhoneSignal) : SharedPhoneSignal :=
  { m with toSignalBase := m.toSignalBase.coarse }

theorem SharedPhoneSignal.fromJson_of_holds {m : SharedPhoneSignal} (h : Holds json m.fields) :
    fromJson json = .ok m.coarse := by
  simp [fromJson, h _, fields, coarse]

def SharedProfileNameSignal.coarse (m : SharedProfileNameSignal) : SharedProfileNameSignal :=
  { m with toSignalBase := m.toSignalBase.coarse }

theorem SharedProfileNameSignal.fromJson_of_holds {m : SharedProfileNameSignal} (h : Holds json m.fields) :
    fromJson json = .ok m.coarse := by
  simp [fromJson, h _, fields, coarse]

def ViewOnceOpenedSignal.coarse (m : ViewOnceOpenedSignal) : ViewOnceOpenedSignal :=
  { m with toSignalBase := m.toSignalBase.coarse }

theorem ViewOnceOpenedSignal.fromJson_of_holds {m : ViewOnceOpenedSignal} (h : Holds json m.fields) :
    fromJson json = .ok m.coarse := by
  simp [fromJson, h _, fields, coarse]

def SdpOfferSignal.coarse (m : SdpOfferSignal) : SdpOfferSignal :=
  { m with toSignalBase := m.toSignalBase.coarse }

theorem SdpOfferSignal.fromJson_of_holds {m : SdpOfferSignal} (h : Holds json m.fields) :
    fromJson json = .ok m.coarse := by
  simp [fromJson, h _, fields, coarse]

def SdpAnswerSignal.coarse (m : SdpAnswerSignal) : SdpAnswerSignal :=
  { m with toSignalBase := m.toSignalBase.coarse }

theorem SdpAnswerSignal.fromJson_of_holds {m : SdpAnswerSignal} (h : Holds json m.fields) :
    fromJson json = .ok m.coarse := by
  simp [fromJson, h _, fields, coarse]

def IceCandidateSignal.coarse (m : IceCandidateSignal) : IceCandidateSignal :=
  { m with toSignalBase := m.toSignalBase.coarse }

theorem IceCandidateSignal.fromJson_of_holds {m : IceCandidateSignal} (h : Holds json m.fields) :
    fromJson json = .ok m.coarse := by
  simp [fromJson, h _, fields, coarse]

def EncryptedSignalMessage.coarse (m : EncryptedSignalMessage) : EncryptedSignalMessage :=
  { m with toSignalBase := m.toSignalBase.coarse }

theorem EncryptedSignalMessage.fromJson_of_holds {m : EncryptedSignalMessage} (h : Holds json m.fields) :
    fromJson json = .ok m.coarse := by
  simp [fromJson, h _, fields, coarse]

def DeliveryTransportAckSignal.coarse (m : DeliveryTransportAckSignal) : DeliveryTransportAckSignal :=
  { m with toSignalBase := m.toSignalBase.coarse }

theorem DeliveryTransportAckSignal.fromJson_of_holds {m : DeliveryTransportAckSignal} (h : Holds json m.fields) :
    fromJson json = .ok m.coarse := by
  simp [fromJson, h _, fields, coarse]

def GroupMessageFanoutSignal.coarse (m : GroupMessageFanoutSignal) : GroupMessageFanoutSignal :=
  { m with timestamp := m.timestamp.coarse }

theorem GroupMessageFanoutSignal.fromJson_of_holds {m : GroupMessageFanoutSignal} (h : Holds json m.fields) :
    fromJson json = .ok m.coarse := by
  simp [fromJson, GroupMessageFanoutSignal.toSignalBase, h _, fields, SignalBase.fields, coarse]

def FileTransferSignal.coarse (m : FileTransferSignal) : FileTransferSignal :=
  { m with toSignalBase := m.toSignalBase.coarse, absoluteExpiresAt := m.absoluteExpiresAt.map DateTime.coarse }

theorem FileTransferSignal.fromJson_of_holds {m : FileTransferSignal} (h : Holds json m.fields) :
    fromJson json = .ok m.coarse := by
  simp [fromJson, h _, fields, coarse]

def GroupNotificationSignal.coarse (m : GroupNotificationSignal) : GroupNotificationSignal :=
  { m with toSignalBase := m.toSignalBase.coarse }

theorem GroupNotificationSignal.fromJson_of_holds {m : GroupNotificationSignal} (h : Holds json m.fields) :
    fromJson json = .ok m.coarse := by
  simp [fromJson, h _, fields, coarse]

def AdminEncryptedLogSignal.coarse (m : AdminEncryptedLogSignal) : AdminEncryptedLogSignal :=
  { m with toSignalBase := m.toSignalBase.coarse }

theorem AdminEncryptedLogSignal.fromJson_of_holds {m : AdminEncryptedLogSignal} (h : Holds json m.fields) :
    fromJson json = .ok m.coarse := by
  simp [fromJson, h _, fields, coarse]

def DeliveryReceiptSignal.coarse (m : DeliveryReceiptSignal) : DeliveryReceiptSignal :=
  { m with toSignalBase := m.toSignalBase.coarse, capabilities := (m.capabilities.filter isCapability).take 8 }

theorem DeliveryReceiptSignal.fromJson_of_holds {m : DeliveryReceiptSignal} (h : Holds json m.fields) :
    fromJson json = .ok m.coarse := by
  simp [fromJson, h _, fields, coarse]

def MessageDeleteSignal.coarse (m : MessageDeleteSignal) : MessageDeleteSignal :=
  { m with toSignalBase := m.toSignalBase.coarse }

theorem MessageDeleteSignal.fromJson_of_holds {m : MessageDeleteSignal} (h : Holds json m.fields) :
    fromJson json = .ok m.coarse := by
  simp [fromJson, h _, fields, coarse]

def MessageEditSignal.coarse (m : MessageEditSignal) : MessageEditSignal :=
  { m with toSignalBase := m.toSignalBase.coarse }

theorem MessageEditSignal.fromJson_of_holds {m : MessageEditSignal} (h : Holds json m.fields) :
    fromJson json = .ok m.coarse := by
  simp [fromJson, h _, fields, coarse]

def MessageReactionSignal.coarse (m : MessageReactionSignal) : MessageReactionSignal :=
  { m with toSignalBase := m.toSignalBase.coarse }

theorem MessageReactionSignal.fromJson_of_holds {m : MessageReactionSignal} (h : Holds json m.fields) :
    fromJson json = .ok m.coarse := by
  simp [fromJson, h _, fields, coarse]

def MessagePinSignal.coarse (m : MessagePinSignal) : MessagePinSignal :=
  { m with toSignalBase := m.toSignalBase.coarse, pinnedAt := m.pinnedAt.map DateTime.coarse }

theorem MessagePinSignal.fromJson_of_holds {m : MessagePinSignal} (h : Holds json m.fields) :
    fromJson json = .ok m.coarse := by
  simp [fromJson, h _, fields, coarse]

def TypingIndicatorSignal.coarse (m : TypingIndicatorSignal) : TypingIndicatorSignal :=
  { m with toSignalBase := m.toSignalBase.coarse }

theorem TypingIndicatorSignal.fromJson_of_holds {m : TypingIndicatorSignal} (h : Holds json m.fields) :
    fromJson json = .ok m.coarse := by
  simp [fromJson, h _, fields, coarse]

def PresenceUpdateSignal.coarse (m : PresenceUpdateSignal) : PresenceUpdateSignal :=
  { m with toSignalBase := m.toSignalBase.coarse, lastSeen := m.lastSeen.bind afterEpoch }

theorem PresenceUpdateSignal.fromJson_of_holds {m : PresenceUpdateSignal} (h : Holds json m.fields) :
    fromJson json = .ok m.coarse := by
  simp [fromJson, h _, fields, coarse]

def PresenceSubscribeSignal.coarse (m : PresenceSubscribeSignal) : PresenceSubscribeSignal :=
  { m with toSignalBase := m.toSignalBase.coarse }

theorem PresenceSubscribeSignal.fromJson_of_holds {m : PresenceSubscribeSignal} (h : Holds json m.fields) :
    fromJson json = .ok m.coarse := by
  simp [fromJson, h _, fields, coarse]

def PresenceUnsubscribeSignal.coarse (m : PresenceUnsubscribeSignal) : PresenceUnsubscribeSignal :=
  { m with toSignalBase := m.toSignalBase.coarse }

theorem PresenceUnsubscribeSignal.fromJson_of_holds {m : PresenceUnsubscribeSignal} (h : Holds json m.fields) :
    fromJson json = .ok m.coarse := by
  simp [fromJson, h _, fields, coarse]

def DisappearingTimerSignal.coarse (m : DisappearingTimerSignal) : DisappearingTimerSignal :=
  { m with toSignalBase := m.toSignalBase.coarse }

theorem DisappearingTimerSignal.fromJson_of_holds {m : DisappearingTimerSignal} (h : Holds json m.fields) :
    fromJson json = .ok m.coarse := by
  simp [fromJson, h _, fields, coarse]

def CallControlSignal.coarse (m : CallControlSignal) : CallControlSignal :=
  { m with toSignalBase := m.toSignalBase.coarse }

theorem CallControlSignal.fromJson_of_holds {m : CallControlSignal} (h : Holds json m.fields) :
    fromJson json = .ok m.coarse := by
  simp [fromJson, h _, fields, coarse]

def CallControlAckSignal.coarse (m : CallControlAckSignal) : CallControlAckSignal :=
  { m with toSignalBase := m.toSignalBase.coarse }

theorem CallControlAckSignal.fromJson_of_holds {m : CallControlAckSignal} (h : Holds json m.fields) :
    fromJson json = .ok m.coarse := by
  simp [fromJson, h _, fields, coarse]

def SessionResetRequestSignal.coarse (m : SessionResetRequestSignal) : SessionResetRequestSignal :=
  { m with toSignalBase := m.toSignalBase.coarse }

theorem SessionResetRequestSignal.fromJson_of_holds {m : SessionResetRequestSignal} (h : Holds json m.fields) :
    fromJson json = .ok m.coarse := by
  simp [fromJson, h _, fields, coarse]

def ServerShutdownSignal.coarse (m : ServerShutdownSignal) : ServerShutdownSignal :=
  { m with toSignalBase := m.toSignalBase.coarse }

theorem ServerShutdownSignal.fromJson_of_holds {m : ServerShutdownSignal} (h : Holds json m.fields) :
    fromJson json = .ok m.coarse := by
  simp [fromJson, h _, fields, coarse]

def GroupCallInviteSignal.coarse (m : GroupCallInviteSignal) : GroupCallInviteSignal :=
  { m with toSignalBase := m.toSignalBase.coarse }

theorem GroupCallInviteSignal.fromJson_of_holds {m : GroupCallInviteSignal} (h : Holds json m.fields) :
    fromJson json = .ok m.coarse := by
  simp [fromJson, h _, fields, coarse]

def GroupCallMemberJoinedSignal.coarse (m : GroupCallMemberJoinedSignal) : GroupCallMemberJoinedSignal :=
  { m with toSignalBase := m.toSignalBase.coarse }

theorem GroupCallMemberJoinedSignal.fromJson_of_holds {m : GroupCallMemberJoinedSignal} (h : Holds json m.fields) :
    fromJson json = .ok m.coarse := by
  simp [fromJson, h _, fields, coarse]

def GroupCallMemberLeftSignal.coarse (m : GroupCallMemberLeftSignal) : GroupCallMemberLeftSignal :=
  { m with toSignalBase := m.toSignalBase.coarse }

theorem GroupCallMemberLeftSignal.fromJson_of_holds {m : GroupCallMemberLeftSignal} (h : Holds json m.fields) :
    fromJson json = .ok m.coarse := by
  simp [fromJson, h _, fields, coarse]

def GroupCallCoordinatorChangedSignal.coarse (m : GroupCallCoordinatorChangedSignal) :
    GroupCallCoordinatorChangedSignal :=
  { m with toSignalBase := m.toSignalBase.coarse }

theorem GroupCallCoordinatorChangedSignal.fromJson_of_holds {m : GroupCallCoordinatorChangedSignal}
    (h : Holds json m.fields) : fromJson json = .ok m.coarse := by
  simp [fromJson, h _, fields, coarse]

def GroupCallJoinRequestSignal.coarse (m : GroupCallJoinRequestSignal) : GroupCallJoinRequestSignal :=
  { m with toSignalBase := m.toSignalBase.coarse }

theorem GroupCallJoinRequestSignal.fromJson_of_holds {m : GroupCallJoinRequestSignal} (h : Holds json m.fields) :
    fromJson json = .ok m.coarse := by
  simp [fromJson, h _, fields, coarse]

def GroupCallErrorSignal.coarse (m : GroupCallErrorSignal) : GroupCallErrorSignal :=
  { m with toSignalBase := m.toSignalBase.coarse }

theorem GroupCallErrorSignal.fromJson_of_holds {m : GroupCallErrorSignal} (h : Holds json m.fields) :
    fromJson json = .ok m.coarse := by
  simp [fromJson, h _, fields, coarse]

def GroupCallStatusQuerySignal.coarse (m : GroupCallStatusQuerySignal) : GroupCallStatusQuerySignal :=
  { m with toSignalBase := m.toSignalBase.coarse }

theorem GroupCallStatusQuerySignal.fromJson_of_holds {m : GroupCallStatusQuerySignal} (h : Holds json m.fields) :
    fromJson json = .ok m.coarse := by
  simp [fromJson, h _, fields, coarse]

def GroupCallStatusResponseSignal.coarse (m : GroupCallStatusResponseSignal) : GroupCallStatusResponseSignal :=
  { m with toSignalBase := m.toSignalBase.coarse }

theorem GroupCallStatusResponseSignal.fromJson_of_holds {m : GroupCallStatusResponseSignal} (h : Holds json m.fields) :
    fromJson json = .ok m.coarse := by
  simp [fromJson, h _, fields, coarse]

end

namespace SignalMessage

/-- A message as it is read after it was written. -/
def coarse : SignalMessage → SignalMessage
  | .sharedPhone m => .sharedPhone m.coarse
  | .sharedProfileName m => .sharedProfileName m.coarse
  | .viewOnceOpened m => .viewOnceOpened m.coarse
  | .sdpOffer m => .sdpOffer m.coarse
  | .sdpAnswer m => .sdpAnswer m.coarse
  | .iceCandidate m => .iceCandidate m.coarse
  | .encryptedMessage m => .encryptedMessage m.coarse
  | .deliveryTransportAck m => .deliveryTransportAck m.coarse
  | .groupMessageFanout m => .groupMessageFanout m.coarse
  | .fileTransfer m => .fileTransfer m.coarse
  | .groupNotification m => .groupNotification m.coarse
  | .adminEncryptedLog m => .adminEncryptedLog m.coarse
  | .deliveryReceipt m => .deliveryReceipt m.coarse
  | .messageDelete m => .messageDelete m.coarse
  | .messageEdit m => .messageEdit m.coarse
  | .messageReaction m => .messageReaction m.coarse
  | .messagePin m => .messagePin m.coarse
  | .typingIndicator m => .typingIndicator m.coarse
  | .presenceUpdate m => .presenceUpdate m.coarse
  | .presenceSubscribe m => .presenceSubscribe m.coarse
  | .presenceUnsubscribe m => .presenceUnsubscribe m.coarse
  | .disappearingTimer m => .disappearingTimer m.coarse
  | .callControl m => .callControl m.coarse
  | .callControlAck m => .callControlAck m.coarse
  | .sessionResetRequest m => .sessionResetRequest m.coarse
  | .serverShutdown m => .serverShutdown m.coarse
  | .groupCallInvite m => .groupCallInvite m.coarse
  | .groupCallMemberJoined m => .groupCallMemberJoined m.coarse
  | .groupCallMemberLeft m => .groupCallMemberLeft m.coarse
  | .groupCallCoordinatorChanged m => .groupCallCoordinatorChanged m.coarse
  | .groupCallJoinRequest m => .groupCallJoinRequest m.coarse
  | .groupCallError m => .groupCallError m.coarse
  | .groupCallStatusQuery m => .groupCallStatusQuery m.coarse
  | .groupCallStatusResponse m => .groupCallStatusResponse m.coarse
  | .unknown m => .unknown m

def isKnown : SignalMessage → Bool
  | .unknown _ => false
  | _ => true

variable {m : SignalMessage} {json : Entries}

theorem found_base (hknown : m.isKnown = true) : found m.fields.reverse "type" = .str m.type ∧
    found m.fields.reverse "senderId" = .str m.base.senderId ∧
      found m.fields.reverse "recipientId" = .str m.base.recipientId := by
  cases m with
  | unknown m => cases hknown
  | _ =>
    simp [fields, type, base, SignalBase.fields, SharedPhoneSignal.fields, SharedProfileNameSignal.fields,
      ViewOnceOpenedSignal.fields, SdpOfferSignal.fields, SdpAnswerSignal.fields, IceCandidateSignal.fields,
      EncryptedSignalMessage.fields, DeliveryTransportAckSignal.fields, GroupMessageFanoutSignal.fields,
      FileTransferSignal.fields, GroupNotificationSignal.fields, AdminEncryptedLogSignal.fields,
      DeliveryReceiptSignal.fields, MessageDeleteSignal.fields, MessageEditSignal.fields,
      MessageReactionSignal.fields, MessagePinSignal.fields, TypingIndicatorSignal.fields,
      PresenceUpdateSignal.fields, PresenceSubscribeSignal.fields, PresenceUnsubscribeSignal.fields,
      DisappearingTimerSignal.fields, CallControlSignal.fields, CallControlAckSignal.fields,
      SessionResetRequestSignal.fields, ServerShutdownSignal.fields, GroupCallInviteSignal.fields,
      GroupCallMemberJoinedSignal.fields, GroupCallMemberLeftSignal.fields, GroupCallCoordinatorChangedSignal.fields,
      GroupCallJoinRequestSignal.fields, GroupCallErrorSignal.fields, GroupCallStatusQuerySignal.fields,
      GroupCallStatusResponseSignal.fields, Content.value]

theorem found_type (hknown : m.isKnown = true) : found m.fields.reverse "type" = .str m.type := (found_base hknown).1

theorem nodup_readers : (readers.map Prod.fst).Nodup := by decide +kernel

theorem find?_of_mem {α : Type} {type : String} {a : α} : ∀ {l : List (String × α)}, (l.map Prod.fst).Nodup →
    (type, a) ∈ l → l.find? (fun r => decide (some (key type) = some (key r.1))) = some (type, a)
  | r :: l, hn, h => by
    obtain ⟨hr, hn⟩ := List.nodup_cons.1 hn
    rcases List.mem_cons.1 h with rfl | h
    · rw [List.find?_cons_of_pos]
      exact decide_eq_true rfl
    · have hne : r.1 ≠ type := fun heq => hr (heq ▸ List.mem_map_of_mem h)
      rw [List.find?_cons_of_neg, find?_of_mem hn h]
      rw [decide_eq_true_eq, Option.some.injEq, key_inj]
      exact fun heq => hne heq.symm

theorem fromJson_of_reader {α : Type} (make : α → SignalMessage) {read : Entries → Except Failure α} {type : String}
    {a : α} (hmem : (type, fun json => make <$> read json) ∈ readers) (htype : get json "type" = .str (key type))
    (hread : read json = .ok a) : fromJson json = .ok (make a) := by
  have hfind := find?_of_mem nodup_readers hmem
  have hasked : asString? (.str (key type)) = .ok (some (key type)) := rfl
  rw [fromJson, htype, hasked, Except.bind, hfind]
  show make <$> read json = _
  rw [hread, map_ok]

theorem fromJson_of_holds (hknown : m.isKnown = true) (h : Holds json m.fields) : fromJson json = .ok m.coarse := by
  have htype := (h "type").trans (found_type hknown)
  cases m with
  | unknown m => cases hknown
  | sharedPhone m =>
    exact fromJson_of_reader .sharedPhone (List.mem_of_getElem? (i := 19) rfl) htype
      (SharedPhoneSignal.fromJson_of_holds h)
  | sharedProfileName m =>
    exact fromJson_of_reader .sharedProfileName (List.mem_of_getElem? (i := 20) rfl) htype
      (SharedProfileNameSignal.fromJson_of_holds h)
  | viewOnceOpened m =>
    exact fromJson_of_reader .viewOnceOpened (List.mem_of_getElem? (i := 21) rfl) htype
      (ViewOnceOpenedSignal.fromJson_of_holds h)
  | sdpOffer m =>
    exact fromJson_of_reader .sdpOffer (List.mem_of_getElem? (i := 0) rfl) htype
      (SdpOfferSignal.fromJson_of_holds h)
  | sdpAnswer m =>
    exact fromJson_of_reader .sdpAnswer (List.mem_of_getElem? (i := 1) rfl) htype
      (SdpAnswerSignal.fromJson_of_holds h)
  | iceCandidate m =>
    exact fromJson_of_reader .iceCandidate (List.mem_of_getElem? (i := 2) rfl) htype
      (IceCandidateSignal.fromJson_of_holds h)
  | encryptedMessage m =>
    exact fromJson_of_reader .encryptedMessage (List.mem_of_getElem? (i := 3) rfl) htype
      (EncryptedSignalMessage.fromJson_of_holds h)
  | deliveryTransportAck m =>
    exact fromJson_of_reader .deliveryTransportAck (List.mem_of_getElem? (i := 4) rfl) htype
      (DeliveryTransportAckSignal.fromJson_of_holds h)
  | groupMessageFanout m =>
    exact fromJson_of_reader .groupMessageFanout (List.mem_of_getElem? (i := 5) rfl) htype
      (GroupMessageFanoutSignal.fromJson_of_holds h)
  | fileTransfer m =>
    exact fromJson_of_reader .fileTransfer (List.mem_of_getElem? (i := 6) rfl) htype
      (FileTransferSignal.fromJson_of_holds h)
  | groupNotification m =>
    exact fromJson_of_reader .groupNotification (List.mem_of_getElem? (i := 7) rfl) htype
      (GroupNotificationSignal.fromJson_of_holds h)
  | adminEncryptedLog m =>
    exact fromJson_of_reader .adminEncryptedLog (List.mem_of_getElem? (i := 8) rfl) htype
      (AdminEncryptedLogSignal.fromJson_of_holds h)
  | deliveryReceipt m =>
    exact fromJson_of_reader .deliveryReceipt (List.mem_of_getElem? (i := 9) rfl) htype
      (DeliveryReceiptSignal.fromJson_of_holds h)
  | messageDelete m =>
    exact fromJson_of_reader .messageDelete (List.mem_of_getElem? (i := 10) rfl) htype
      (MessageDeleteSignal.fromJson_of_holds h)
  | messageEdit m =>
    exact fromJson_of_reader .messageEdit (List.mem_of_getElem? (i := 11) rfl) htype
      (MessageEditSignal.fromJson_of_holds h)
  | messageReaction m =>
    exact fromJson_of_reader .messageReaction (List.mem_of_getElem? (i := 12) rfl) htype
      (MessageReactionSignal.fromJson_of_holds h)
  | messagePin m =>
    exact fromJson_of_reader .messagePin (List.mem_of_getElem? (i := 13) rfl) htype
      (MessagePinSignal.fromJson_of_holds h)
  | typingIndicator m =>
    exact fromJson_of_reader .typingIndicator (List.mem_of_getElem? (i := 14) rfl) htype
      (TypingIndicatorSignal.fromJson_of_holds h)
  | presenceUpdate m =>
    exact fromJson_of_reader .presenceUpdate (List.mem_of_getElem? (i := 15) rfl) htype
      (PresenceUpdateSignal.fromJson_of_holds h)
  | presenceSubscribe m =>
    exact fromJson_of_reader .presenceSubscribe (List.mem_of_getElem? (i := 16) rfl) htype
      (PresenceSubscribeSignal.fromJson_of_holds h)
  | presenceUnsubscribe m =>
    exact fromJson_of_reader .presenceUnsubscribe (List.mem_of_getElem? (i := 17) rfl) htype
      (PresenceUnsubscribeSignal.fromJson_of_holds h)
  | disappearingTimer m =>
    exact fromJson_of_reader .disappearingTimer (List.mem_of_getElem? (i := 18) rfl) htype
      (DisappearingTimerSignal.fromJson_of_holds h)
  | callControl m =>
    exact fromJson_of_reader .callControl (List.mem_of_getElem? (i := 22) rfl) htype
      (CallControlSignal.fromJson_of_holds h)
  | callControlAck m =>
    exact fromJson_of_reader .callControlAck (List.mem_of_getElem? (i := 23) rfl) htype
      (CallControlAckSignal.fromJson_of_holds h)
  | sessionResetRequest m =>
    exact fromJson_of_reader .sessionResetRequest (List.mem_of_getElem? (i := 24) rfl) htype
      (SessionResetRequestSignal.fromJson_of_holds h)
  | serverShutdown m =>
    exact fromJson_of_reader .serverShutdown (List.mem_of_getElem? (i := 25) rfl) htype
      (ServerShutdownSignal.fromJson_of_holds h)
  | groupCallInvite m =>
    exact fromJson_of_reader .groupCallInvite (List.mem_of_getElem? (i := 26) rfl) htype
      (GroupCallInviteSignal.fromJson_of_holds h)
  | groupCallMemberJoined m =>
    exact fromJson_of_reader .groupCallMemberJoined (List.mem_of_getElem? (i := 27) rfl) htype
      (GroupCallMemberJoinedSignal.fromJson_of_holds h)
  | groupCallMemberLeft m =>
    exact fromJson_of_reader .groupCallMemberLeft (List.mem_of_getElem? (i := 28) rfl) htype
      (GroupCallMemberLeftSignal.fromJson_of_holds h)
  | groupCallCoordinatorChanged m =>
    exact fromJson_of_reader .groupCallCoordinatorChanged (List.mem_of_getElem? (i := 29) rfl) htype
      (GroupCallCoordinatorChangedSignal.fromJson_of_holds h)
  | groupCallJoinRequest m =>
    exact fromJson_of_reader .groupCallJoinRequest (List.mem_of_getElem? (i := 30) rfl) htype
      (GroupCallJoinRequestSignal.fromJson_of_holds h)
  | groupCallError m =>
    exact fromJson_of_reader .groupCallError (List.mem_of_getElem? (i := 31) rfl) htype
      (GroupCallErrorSignal.fromJson_of_holds h)
  | groupCallStatusQuery m =>
    exact fromJson_of_reader .groupCallStatusQuery (List.mem_of_getElem? (i := 32) rfl) htype
      (GroupCallStatusQuerySignal.fromJson_of_holds h)
  | groupCallStatusResponse m =>
    exact fromJson_of_reader .groupCallStatusResponse (List.mem_of_getElem? (i := 33) rfl) htype
      (GroupCallStatusResponseSignal.fromJson_of_holds h)

theorem toJson_of_known (hknown : m.isKnown = true) : m.toJson = mapLiteral m.fields := by
  cases m with
  | unknown m => cases hknown
  | _ => rfl

theorem printable_toJson (hknown : m.isKnown = true) : Printable m.toJson :=
  toJson_of_known hknown ▸ printable_mapLiteral m.fields

/-- **A message that is written is read back**, if its text fits into a frame. -/
theorem signal_roundTrip (hknown : m.isKnown = true) : ∃ raw, m.encode = .ok raw ∧
    decode raw = if maxEncodedBytes < (Utf16.utf8Encode raw).length then
      .error (.format "Signal frame exceeds the 256 KiB limit") else .ok m.coarse := by
  have hread : fromJson m.toJson = .ok m.coarse :=
    fromJson_of_holds hknown fun name => by rw [toJson_of_known hknown, get_mapLiteral]
  refine ⟨JsonText.print (.obj m.toJson), by rw [encode, (printable_toJson hknown).encode], ?_⟩
  rw [decode, decodeMap, (printable_toJson hknown).decode]
  split
  · rfl
  · exact hread

def sharedName : SignalMessage := .sharedProfileName ⟨⟨key "ada", key "veli", ⟨1500, true, by decide⟩⟩, key "Ada"⟩

theorem signal_roundTrip_name : ∃ raw, sharedName.encode = .ok raw ∧
    decode raw = if maxEncodedBytes < (Utf16.utf8Encode raw).length then
      .error (.format "Signal frame exceeds the 256 KiB limit") else .ok sharedName.coarse :=
  signal_roundTrip rfl

end SignalMessage
end Signals
end SecureChat
