import SecureChat.ControlPackets
import SecureChat.SignalReading
import SecureChat.ChatControls
/-!
# EditControls — which edits can be sent

An edit of at most 10000 units is taken by its author's device and sent as a control, and by the recipient's device if
the text that arrives has at most 10000 units.  Between them stands the packet: the bytes of the text, with what JSON
escapes, have to fit into it.  `edit_carried` says exactly which edits arrive as they were taken.
-/
namespace SecureChat
namespace Signals

open PlaintextPadding (Units utf8Length)
open JsonText (Value Entries jsonBytes print entriesSize_cons entriesSize_nil size_str size_int)
open Envelope (StorageMessageContentType)

/-! ## The two devices -/

/-- The whitespace that `trim` takes off; each of it is one unit. -/
def isWhitespace (u : UInt16) : Bool := GroupControl.isWhitespace (Char.ofNat u.toNat)

def trim (t : Units) : Units := Csv.strip isWhitespace t

structure MessageRow where
  senderId : Units
  content : Units
  contentType : StorageMessageContentType
  isOutgoing : Bool
  isViewOnce : Bool
  timestamp : ℤ
  editedAt : Option ℤ
  editHistory : Option Units

def updateContentEdited (content : Units) (editedAt : ℤ) (editHistory : Units) (row : MessageRow) : MessageRow :=
  { row with
      content := content
      editedAt := some editedAt
      editHistory := some editHistory }

/-- `jsonEncode([content])` -/
def historyOf (row : MessageRow) : Units := print (.arr [.str row.content])

def maxContentUnits : ℕ := 10000

def editWindow : ℤ := 15 * 60 * 1000

def acceptedEdit (now : ℤ) (row : Option MessageRow) (newContent : Units) : Option Units :=
  match row with
  | none => none
  | some row =>
    if trim newContent = [] ∨ maxContentUnits < (trim newContent).length ∨ row.isOutgoing = false ∨
        row.contentType ≠ .text ∨ row.isViewOnce = true ∨ editWindow < now - row.timestamp then none
    else some (trim newContent)

/-- The message as the recipient's device leaves it; `allowed` is what it says of the sender. -/
def _edit (now : ℤ) (allowed : Bool) (signal : MessageEditSignal) (row : MessageRow) : MessageRow :=
  if row.senderId ≠ signal.senderId ∨ row.contentType ≠ .text ∨ trim signal.newContent = [] ∨
      maxContentUnits < (trim signal.newContent).length ∨ allowed = false then row
  else
    updateContentEdited (trim signal.newContent) (ChatControl._boundedTimestamp now signal.timestamp.millis)
      (historyOf row) row

/-- An edit arrives: it is encoded, decoded for the two it is between, and taken with its text. -/
def Carried (random : ℕ → UInt8) (signal : MessageEditSignal) : Prop :=
  ∃ plaintext received, encodePrivateChatControl random (.messageEdit signal) = .ok plaintext ∧
    decodePrivateChatControl plaintext signal.senderId signal.recipientId = .ok (.messageEdit received) ∧
    received.messageId = signal.messageId ∧
    ∀ (now : ℤ) (row : MessageRow), row.senderId = signal.senderId → row.contentType = .text →
      _edit now true received row = updateContentEdited signal.newContent
        (ChatControl._boundedTimestamp now signal.timestamp.millis) (historyOf row) row

theorem trim_trim (t : Units) : trim (trim t) = trim t := Csv.strip_strip isWhitespace t

/-! ## The bytes of an edit -/

def timeBytes (t : DateTime) : ℕ := (DartInt.print (Int64.ofInt t.millis)).length

def packetSize (m : MessageEditSignal) : ℕ :=
  67 + timeBytes m.timestamp + jsonBytes m.messageId + jsonBytes m.newContent

def frameSize (m : MessageEditSignal) : ℕ :=
  packetSize m + 31 + jsonBytes m.senderId + jsonBytes m.recipientId

theorem protectedJson_messageEdit (m : MessageEditSignal) :
    protectedJson (.messageEdit m) = [(key "type", .str (key "message_edit")),
      (key "timestamp", .int (Int64.ofInt m.timestamp.millis)), (key "messageId", .str m.messageId),
      (key "newContent", .str m.newContent)] := by
  simp [protectedJson, removeKey, SignalMessage.toJson, SignalMessage.fields, MessageEditSignal.fields,
    SignalBase.fields, mapLiteral, JsonText.put, key_inj, Content.value, Content.date]

/-- The bytes of a map are two for its braces and, for each entry, four and those of its key and its value. -/
theorem utf8Length_protected (m : MessageEditSignal) :
    utf8Length (print (.obj (protectedJson (.messageEdit m)))) = packetSize m := by
  have htype : jsonBytes (key "type") = 4 := by decide
  have hedit : jsonBytes (key "message_edit") = 12 := by decide
  have htime : jsonBytes (key "timestamp") = 9 := by decide
  have hid : jsonBytes (key "messageId") = 9 := by decide
  have hcontent : jsonBytes (key "newContent") = 10 := by decide
  rw [protectedJson_messageEdit, JsonText.utf8Length_print_cons rfl]
  simp only [entriesSize_cons, entriesSize_nil, size_str, size_int, htype, hedit, htime, hid, hcontent, packetSize,
    timeBytes]
  ring

theorem utf8Length_authenticated (m : MessageEditSignal) :
    utf8Length (print (.obj (authenticated m.senderId m.recipientId (protectedJson (.messageEdit m))))) =
      frameSize m := by
  have htype : jsonBytes (key "type") = 4 := by decide
  have hedit : jsonBytes (key "message_edit") = 12 := by decide
  have htime : jsonBytes (key "timestamp") = 9 := by decide
  have hid : jsonBytes (key "messageId") = 9 := by decide
  have hcontent : jsonBytes (key "newContent") = 10 := by decide
  have hsender : jsonBytes (key "senderId") = 8 := by decide
  have hrecipient : jsonBytes (key "recipientId") = 11 := by decide
  have hjson : authenticated m.senderId m.recipientId (protectedJson (.messageEdit m)) =
      protectedJson (.messageEdit m) ++
        [(key "senderId", .str m.senderId), (key "recipientId", .str m.recipientId)] := by
    rw [protectedJson_messageEdit]
    simp [authenticated, JsonText.put, key_inj]
  rw [hjson, protectedJson_messageEdit, List.cons_append, JsonText.utf8Length_print_cons rfl]
  simp only [List.cons_append, List.nil_append, entriesSize_cons, entriesSize_nil, size_str, size_int, htype, hedit,
    htime, hid, hcontent, hsender, hrecipient, frameSize, packetSize, timeBytes]
  ring

/-! ## The edit on its way -/

theorem printable_messageEdit (m : MessageEditSignal) : Printable (SignalMessage.messageEdit m).toJson :=
  printable_mapLiteral m.fields

theorem holds_authenticated (m : MessageEditSignal) :
    Holds (authenticated m.senderId m.recipientId (protectedJson (.messageEdit m))) m.fields := by
  intro name
  rw [get_authenticated, get_protectedJson]
  show _ = found m.fields.reverse name
  by_cases hrecipient : "recipientId" = name
  · subst hrecipient
    simp [MessageEditSignal.fields, SignalBase.fields, Content.value]
  · by_cases hsender : "senderId" = name
    · subst hsender
      simp [MessageEditSignal.fields, SignalBase.fields, Content.value]
    · rw [if_neg hrecipient, if_neg hsender, if_neg hrecipient, if_neg hsender]
      exact get_mapLiteral m.fields name

theorem reread_messageEdit (m : MessageEditSignal) :
    reread (authenticated m.senderId m.recipientId (protectedJson (.messageEdit m))) =
      if SignalMessage.maxEncodedBytes < frameSize m then .error (.format "Signal frame exceeds the 256 KiB limit")
      else .ok (.messageEdit m.coarse) := by
  rw [reread_eq ((printable_messageEdit m).protectedJson.authenticated _ _), utf8Length_authenticated,
    SignalMessage.fromJson_of_holds (m := .messageEdit m) rfl (holds_authenticated m)]
  rfl

theorem millis_coarse (t : DateTime) : t.coarse.millis = t.millis := Int.mul_tdiv_cancel _ (by decide)

theorem edit_coarse {m : MessageEditSignal} (htrim : trim m.newContent = m.newContent) (hne : m.newContent ≠ [])
    (hle : m.newContent.length ≤ maxContentUnits) (now : ℤ) {row : MessageRow} (hrow : row.senderId = m.senderId)
    (htext : row.contentType = .text) :
    _edit now true m.coarse row = updateContentEdited m.newContent
      (ChatControl._boundedTimestamp now m.timestamp.millis) (historyOf row) row := by
  have hcontent : trim m.coarse.newContent = m.newContent := htrim
  have htime : m.coarse.timestamp.millis = m.timestamp.millis := millis_coarse m.timestamp
  unfold _edit
  rw [hcontent, htime, if_neg]
  rintro (h | h | h | h | h)
  · exact h hrow
  · exact h htext
  · exact hne h
  · exact absurd h (Nat.not_lt.2 hle)
  · cases h

def Fits (m : MessageEditSignal) : Prop :=
  packetSize m ≤ privateControlPacketBytes - privateControlLengthBytes ∧
    frameSize m ≤ SignalMessage.maxEncodedBytes

theorem carried_iff {random : ℕ → UInt8} {m : MessageEditSignal} (htrim : trim m.newContent = m.newContent)
    (hne : m.newContent ≠ []) (hle : m.newContent.length ≤ maxContentUnits) :
    Carried random m ↔ DistinctIdentities m.toSignalBase ∧ Fits m := by
  have hprint := printable_messageEdit m
  have htype : get (SignalMessage.messageEdit m).toJson "type" = .str (SignalMessage.messageEdit m).type :=
    (get_mapLiteral m.fields "type").trans (SignalMessage.found_type (m := .messageEdit m) rfl)
  constructor
  · rintro ⟨plaintext, received, hencode, hdecode, -, -⟩
    obtain ⟨-, hids, hsize, -⟩ := (encodePrivateChatControl_eq_ok hprint).1 hencode
    rw [decode_encodePrivateChatControl hprint htype hencode, reread_messageEdit] at hdecode
    rw [utf8Length_protected] at hsize
    by_cases hframe : SignalMessage.maxEncodedBytes < frameSize m
    · rw [if_pos hframe] at hdecode
      cases hdecode
    · exact ⟨hids, hsize, Nat.le_of_not_lt hframe⟩
  · rintro ⟨hids, hsize, hframe⟩
    rw [← utf8Length_protected] at hsize
    have hcontrol : isPrivateControlType (SignalMessage.messageEdit m).type = true := by
      show isPrivateControlType (key "message_edit") = true
      decide
    obtain ⟨plaintext, hencode⟩ : ∃ p, encodePrivateChatControl random (.messageEdit m) = .ok p :=
      ⟨_, (encodePrivateChatControl_eq_ok hprint).2 ⟨hcontrol, hids, hsize, rfl⟩⟩
    refine ⟨plaintext, m.coarse, hencode, ?_, rfl, fun now row => edit_coarse htrim hne hle now⟩
    rw [decode_encodePrivateChatControl hprint htype hencode, reread_messageEdit, if_neg (Nat.not_lt.2 hframe)]
    rfl

/-! ## Accepted edits -/

theorem of_acceptedEdit {now : ℤ} {row : Option MessageRow} {newContent clean : Units}
    (h : acceptedEdit now row newContent = some clean) :
    trim clean = clean ∧ clean ≠ [] ∧ clean.length ≤ maxContentUnits := by
  unfold acceptedEdit at h
  cases row with
  | none => cases h
  | some row =>
    dsimp only at h
    split at h
    · cases h
    · rename_i hguard
      cases h
      obtain ⟨hne, hguard⟩ := not_or.1 hguard
      exact ⟨trim_trim newContent, hne, Nat.le_of_not_lt (not_or.1 hguard).1⟩

/-- **Which edits arrive**: an edit that the author's device accepts arrives with the same text exactly if its sender
and recipient are two, its bytes fit into the packet, and with the ids into a frame. -/
theorem edit_carried {now : ℤ} {row : Option MessageRow} {newContent clean : Units}
    (h : acceptedEdit now row newContent = some clean) (random : ℕ → UInt8) (senderId recipientId messageId : Units)
    (editedAt : DateTime) :
    Carried random ⟨⟨senderId, recipientId, editedAt⟩, messageId, clean⟩ ↔
      (senderId ≠ [] ∧ recipientId ≠ [] ∧ senderId ≠ recipientId) ∧
      67 + timeBytes editedAt + jsonBytes messageId + jsonBytes clean ≤ 16380 ∧
      67 + timeBytes editedAt + jsonBytes messageId + jsonBytes clean + 31 + jsonBytes senderId +
        jsonBytes recipientId ≤ 262144 := by
  obtain ⟨htrim, hne, hle⟩ := of_acceptedEdit h
  exact carried_iff (m := ⟨⟨senderId, recipientId, editedAt⟩, messageId, clean⟩) htrim hne hle

def sentRow (content : Units) : MessageRow := ⟨key "a", content, .text, true, false, 0, none, none⟩

def epoch : DateTime := ⟨0, false, Nat.zero_le _⟩

theorem edit_carried_short : Carried (fun _ => 0) ⟨⟨key "a", key "b", epoch⟩, key "m", key "hello"⟩ := by
  have haccepted : acceptedEdit 0 (some (sentRow (key "hi"))) (key " hello") = some (key "hello") := rfl
  refine (edit_carried haccepted (fun _ => 0) (key "a") (key "b") (key "m") epoch).2 ⟨?_, ?_, ?_⟩
  · decide
  · decide
  · decide

def euroSign : UInt16 := 0x20AC

/-- Ten thousand units that take three bytes each are accepted and cannot be encoded. -/
theorem edit_euroSigns :
    acceptedEdit 0 (some (sentRow (key "hi"))) (List.replicate 10000 euroSign) = some (List.replicate 10000 euroSign) ∧
      ∀ (random : ℕ → UInt8) (plaintext : Units), encodePrivateChatControl random
        (.messageEdit ⟨⟨key "a", key "b", epoch⟩, key "m", List.replicate 10000 euroSign⟩) ≠ .ok plaintext := by
  have hplain : isWhitespace euroSign = false := rfl
  have htrim : trim (List.replicate 10000 euroSign) = List.replicate 10000 euroSign :=
    Csv.strip_replicate isWhitespace hplain 10000
  constructor
  · unfold acceptedEdit
    dsimp only
    rw [htrim, if_neg]
    rintro (h | h | h | h | h | h)
    · exact absurd ((List.replicate_eq_nil_iff _).1 h) (by decide)
    · rw [List.length_replicate] at h
      exact absurd h (by decide)
    · cases h
    · exact h rfl
    · cases h
    · exact absurd h (by decide)
  · intro random plaintext h
    obtain ⟨-, -, hsize, -⟩ := (encodePrivateChatControl_eq_ok (printable_messageEdit _)).1 h
    have hthree : JsonText.escapedBytes euroSign = 3 := rfl
    have hbytes : jsonBytes (List.replicate 10000 euroSign) = 10000 * 3 := by
      rw [JsonText.jsonBytes_replicate rfl, hthree]
    rw [utf8Length_protected, packetSize] at hsize
    dsimp only at hsize
    rw [hbytes] at hsize
    exact absurd (Nat.le_trans (Nat.le_add_left _ _) hsize) (by decide)

end Signals
end SecureChat
