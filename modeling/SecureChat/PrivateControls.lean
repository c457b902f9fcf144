import SecureChat.ControlPackets
import SecureChat.SignalReading
/-!
# PrivateControls — every control comes back, and from whom it came

A control of any of the types is encoded to a packet of the one size, and decoded for the two it is between it is the
control that was sent (`decode_control`).  Whatever is decoded, of any packet, is of one of the types, and it is from
and for the two who are authenticated (`control_authenticated`).
-/
namespace SecureChat
namespace Signals

open PlaintextPadding (Units utf8Length)
open JsonText (Value Entries put isFinite finiteEntries WellFormed nodup_put wellFormed_put print)
open SignalMessage (maxEncodedBytes toJson_of_known printable_toJson)

variable {random : ℕ → UInt8} {control : SignalMessage} {plaintext senderId recipientId : Units}

/-! ## A control that was encoded -/

/-- The ids that were taken out are put in again. -/
theorem holds_control (hknown : control.isKnown = true) :
    Holds (authenticated control.base.senderId control.base.recipientId (protectedJson control)) control.fields := by
  intro name
  obtain ⟨-, hsender, hrecipient⟩ := SignalMessage.found_base hknown
  rw [get_authenticated, get_protectedJson, toJson_of_known hknown, get_mapLiteral]
  split
  · rename_i he
    rw [← he, hrecipient]
  · split
    · rename_i he
      rw [← he, hsender]
    · rfl

theorem isControlPayload_coarse (hknown : control.isKnown = true) (htype : isPrivateControlType control.type = true) :
    isControlPayload control.coarse = true := by
  cases control with
  | unknown m => cases hknown
  | encryptedMessage m => exact absurd (show false = true from htype) Bool.false_ne_true
  | _ => rfl

/-- What is read of a control that was sent: with its ids it has to fit into a message. -/
def received (control : SignalMessage) : Except Failure SignalMessage :=
  if maxEncodedBytes < utf8Length (print (.obj (authenticated control.base.senderId control.base.recipientId
      (protectedJson control)))) then .error (.format "Signal frame exceeds the 256 KiB limit")
  else .ok control.coarse

theorem decode_encoded (hknown : control.isKnown = true)
    (hok : encodePrivateChatControl random control = .ok plaintext) :
    decodePrivateChatControl plaintext control.base.senderId control.base.recipientId = received control := by
  have htype := ((encodePrivateChatControl_eq_ok (printable_toJson hknown)).1 hok).1
  have hget : get control.toJson "type" = .str control.type := by
    rw [toJson_of_known hknown, get_mapLiteral, SignalMessage.found_type hknown]
  rw [decode_encodePrivateChatControl (printable_toJson hknown) hget hok,
    reread_eq ((printable_toJson hknown).protectedJson.authenticated _ _),
    SignalMessage.fromJson_of_holds hknown (holds_control hknown), received]
  split
  · rfl
  · exact if_pos (isControlPayload_coarse hknown htype)

/-- **A control comes back as it was sent**, if it fits with its ids into a message, and every packet has one length. -/
theorem decode_control (hknown : control.isKnown = true)
    (hok : encodePrivateChatControl random control = .ok plaintext) :
    plaintext.length = privateChatControlPrefix.length + encodedUnits ∧
    decodePrivateChatControl plaintext control.base.senderId control.base.recipientId = received control :=
  ⟨length_encodePrivateChatControl (printable_toJson hknown) hok, decode_encoded hknown hok⟩

def openedControl : SignalMessage :=
  .viewOnceOpened ⟨⟨key "veli", key "ada", ⟨2500, true, by decide⟩⟩, key "m"⟩

theorem encode_opened : ∃ plaintext, encodePrivateChatControl (fun _ => 0) openedControl = .ok plaintext :=
  ⟨_, (encodePrivateChatControl_eq_ok (printable_toJson rfl)).2
    ⟨by decide +kernel, ⟨by decide, by decide, by decide⟩, by decide +kernel, rfl⟩⟩

theorem received_opened : received openedControl = .ok openedControl.coarse := if_neg (by decide +kernel)

theorem decode_control_opened : ∃ plaintext, encodePrivateChatControl (fun _ => 0) openedControl = .ok plaintext ∧
    plaintext.length = privateChatControlPrefix.length + encodedUnits ∧
    decodePrivateChatControl plaintext (key "veli") (key "ada") = .ok openedControl.coarse := by
  obtain ⟨plaintext, hok⟩ := encode_opened
  obtain ⟨hlength, hread⟩ := decode_control rfl hok
  rw [received_opened] at hread
  exact ⟨plaintext, hok, hlength, hread⟩

/-! ## Whatever is decoded -/

/-- What is read, if anything, is as `P` says. -/
def Reads {α : Type} (P : α → Prop) (x : Except Failure α) : Prop := ∀ a, x = .ok a → P a

theorem Reads.map {α β : Type} {P : β → Prop} {f : α → β} {x : Except Failure α} (h : Reads (fun a => P (f a)) x) :
    Reads P (f <$> x) := by
  intro b hb
  cases x with
  | error e => cases hb
  | ok a =>
    cases hb
    exact h a rfl

theorem Reads.seq {α β : Type} {P : β → Prop} {f : Except Failure (α → β)} {x : Except Failure α}
    (h : Reads (fun g => ∀ a, P (g a)) f) : Reads P (f <*> x) := by
  intro b hb
  cases f with
  | error e => cases hb
  | ok g =>
    cases x with
    | error e => cases hb
    | ok a =>
      cases hb
      exact h g rfl a

theorem bind_ok {α β : Type} {x : Except Failure α} {f : α → Except Failure β} {b : β} (h : x.bind f = .ok b) :
    ∃ a, x = .ok a ∧ f a = .ok b := by
  cases x with
  | error e => cases h
  | ok a => exact ⟨a, rfl, h⟩

variable {json : Entries}

theorem reads_base (hs : get json "senderId" = .str senderId) (hr : get json "recipientId" = .str recipientId)
    (sender recipient : String) :
    Reads (fun b : SignalBase => b.senderId = senderId ∧ b.recipientId = recipientId)
      (SignalBase.fromJson sender recipient json) := by
  intro b hb
  unfold SignalBase.fromJson at hb
  rw [hs, hr] at hb
  cases ht : dt (get json "timestamp") with
  | error e =>
    rw [ht] at hb
    cases hb
  | ok t =>
    rw [ht] at hb
    cases hb
    exact ⟨rfl, rfl⟩

/-- A reader of a type of controls takes the ids as they are.  The fan-out, which does not, is none. -/
theorem reads_of_readers (hs : get json "senderId" = .str senderId) (hr : get json "recipientId" = .str recipientId) :
    ∀ r ∈ SignalMessage.readers, Reads (fun m => m.type = key r.1 ∧ (isPrivateControlType (key r.1) = true →
      m.base.senderId = senderId ∧ m.base.recipientId = recipientId)) (r.2 json) := by
  unfold SignalMessage.readers
  repeat' refine List.forall_mem_cons.2 ⟨Reads.map ?_, ?_⟩
  rotate_right
  · exact fun _ h => absurd h List.not_mem_nil
  all_goals
    repeat' refine Reads.seq ?_
    refine Reads.map fun b hb => ?_
    dsimp only
    intros
    refine ⟨rfl, fun hcontrol => ?_⟩
    first
    | exact reads_base hs hr _ _ b hb
    | exact absurd (show false = true from hcontrol) Bool.false_ne_true

theorem controlJson_ok {bytes : List UInt8} (h : controlJson bytes = .ok json) :
    WellFormed (.obj json) ∧ ∃ type, get json "type" = .str type ∧ isPrivateControlType type = true := by
  unfold controlJson at h
  split at h
  · cases h
  · obtain ⟨json', hmap, h⟩ := bind_ok h
    split at h
    · split at h
      · cases h
        unfold SignalMessage.decodeMap at hmap
        split at hmap
        · cases hmap
          exact ⟨JsonText.wellFormed_decode ‹_›, _, ‹_›, ‹_›⟩
        · cases hmap
        · cases hmap
      · cases h
    · cases h

theorem fromJson_of_reread {m : SignalMessage} (hjson : WellFormed (.obj json)) (h : reread json = .ok m) :
    SignalMessage.fromJson json = .ok m := by
  by_cases hfinite : finiteEntries json = true
  · rw [reread_eq ⟨hjson.1, hjson.2, hfinite⟩] at h
    split at h
    · cases h
    · exact h
  · unfold reread at h
    rw [JsonText.encode, if_neg (show ¬ isFinite (.obj json) = true from hfinite)] at h
    cases h

theorem wellFormed_authenticated (h : WellFormed (.obj json)) :
    WellFormed (.obj (authenticated senderId recipientId json)) :=
  ⟨nodup_put (nodup_put h.1 _ _) _ _, wellFormed_put _ (wellFormed_put _ h.2 trivial) trivial⟩

/-- **Who a control is from and for does not stand in the packet**, and it is of one of the types of controls. -/
theorem control_authenticated {signal : SignalMessage}
    (h : decodePrivateChatControl plaintext senderId recipientId = .ok signal) :
    isPrivateControlType signal.type = true ∧ signal.base.senderId = senderId ∧
      signal.base.recipientId = recipientId := by
  unfold decodePrivateChatControl at h
  obtain ⟨bytes, -, h⟩ := bind_ok h
  obtain ⟨json, hjson, h⟩ := bind_ok h
  obtain ⟨m, hm, h⟩ := bind_ok h
  obtain ⟨hwf, type, htype, hcontrol⟩ := controlJson_ok hjson
  split at h
  · cases h
    rename_i hpayload
    have hread := fromJson_of_reread (wellFormed_authenticated hwf) hm
    unfold SignalMessage.fromJson at hread
    rw [get_authenticated, if_neg (by decide), if_neg (by decide), htype] at hread
    obtain ⟨t, ht, hfrom⟩ := bind_ok hread
    cases ht
    split at hfrom
    · rename_i r hr
      have hfound := List.find?_some hr
      obtain rfl : type = key r.1 := Option.some.inj (of_decide_eq_true hfound)
      have hs : get (authenticated senderId recipientId json) "senderId" = .str senderId := by
        rw [get_authenticated, if_neg (by decide), if_pos rfl]
      have hr' : get (authenticated senderId recipientId json) "recipientId" = .str recipientId := by
        rw [get_authenticated, if_pos rfl]
      obtain ⟨hsame, hids⟩ := reads_of_readers hs hr' r (List.mem_of_find?_eq_some hr) signal hfrom
      exact ⟨hsame ▸ hcontrol, hids hcontrol⟩
    · have hunknown : Reads (fun m => isControlPayload m = false)
          (SignalMessage.unknown <$> UnknownSignalMessage.fromJson (authenticated senderId recipientId json)) :=
        Reads.map fun _ _ => rfl
      rw [hunknown signal hfrom] at hpayload
      cases hpayload
  · cases h

theorem control_authenticated_opened : isPrivateControlType openedControl.coarse.type = true ∧
    openedControl.coarse.base.senderId = key "veli" ∧ openedControl.coarse.base.recipientId = key "ada" := by
  obtain ⟨plaintext, hok⟩ := encode_opened
  exact control_authenticated ((decode_encoded rfl hok).trans received_opened)

end Signals
end SecureChat
