import SecureChat.ConversationPreview
/-!
# ViewOnce — messages that are shown once

A message that may be viewed once is claimed with one write of its row, kept while its viewer is open and then lost: its
file is deleted first, and then the row, which stays against a replay, loses its content and its caption.  The calls
that do this take turns with each other, with what writes the same row and with the message arriving again.

A claimed row can still be written by two steps that do not ask whether it was viewed: an edit by its sender
(`erased_edited`), and a text and a file that arrive under one id at once.  `viewed_once` says that nothing else makes a
message be viewed again.  Left out: the notifications, the receipts, and what is shown of a conversation in the list.
-/
namespace SecureChat
namespace ViewOnce

open ChatControl
open Envelope (StorageMessageContentType parseMessageEnvelope)
open GroupControl (Text trim)
open MessageReactions (parseReactions)
open Runs (Meets run)
open Storage (ConversationEntity)
open scoped GroupControl

/-! ## The rows -/

def isFileType : StorageMessageContentType → Bool
  | .image | .file | .voiceNote => true
  | _ => false

def isFileMessage (m : Message) : Bool := isFileType m.contentType

def filePath (m : Message) : Option Text := if isFileMessage m then (m.content.splitOn '|')[3]? else none

/-- An incoming message that has been claimed. -/
def viewed (m : Message) : Bool := m.isViewOnce && m.isViewed && !m.isOutgoing

def viewable (m : Message) : Bool := m.isViewOnce && !m.isOutgoing && !m.isViewed

def viewedMessage (m : Message) : Message := if viewable m then { m with isViewed := true } else m

/-- `eraseViewedOnceContent`; the empty text that it leaves of the edits decodes to no list. -/
def erasedMessage (m : Message) : Message :=
  if viewed m then { m with content := [], caption := none, editHistory := none, isStarred := false } else m

def activatable (now : ℤ) (conversationId : Text) (m : Message) : Bool :=
  decide (m.conversationId = conversationId) && isFileMessage m && (m.expiresAt.all fun at' => decide (now < at')) &&
    !(m.isViewOnce && (m.isOutgoing || m.isViewed))

def activatedMessage (now : ℤ) (conversationId : Text) (m : Message) : Message :=
  if activatable now conversationId m then { m with isMediaPreviewDeferred := false } else m

/-- What `activateMediaPreview` hands out. -/
def activateMediaPreview (now : ℤ) (id conversationId : Text) (d : Device) : Option Message :=
  ((d.messages.get id).filter (activatable now conversationId)).map (activatedMessage now conversationId)

/-! ## The calls -/

/-- A text that was decrypted, and the id that it gets if it brings none. -/
structure Delivery where
  conversationId : Text
  senderId : Text
  plaintext : Text
  timestamp : ℤ
  fallbackId : Text

def Delivery.arrival (x : Delivery) : Arrival :=
  let parsed := parseMessageEnvelope x.plaintext
  { messageId := parsed.messageId.getD x.fallbackId
    conversationId := x.conversationId
    senderId := x.senderId
    content := parsed.content
    contentType := parsed.contentType
    timestamp := x.timestamp
    replyToId := parsed.replyToId
    expiresAt := parsed.absoluteExpiresAt.map Int64.toInt
    isViewOnce := parsed.isViewOnce }

/-- What `_purgeViewedOnce` awaits. -/
inductive Purge
  | resolve
  | delete
  | discardOpened
  | eraseViewedOnceContent

/-- What a call awaits.  A purge is followed by the rest of the messages that a cleanup goes through. -/
inductive Call
  | idle
  | markViewOnceAsViewed (id : Text)
  | cleanup (left : List Message)
  | purge (at' : Purge) (id : Text) (left : List Message)
  | editSignal (id content before : Text) (timestamp : ℤ)
  | edit (id content before : Text) (editedAt : ℤ)
  | applyReaction (id userId emoji : Text) (remove : Bool)
  | insert (x : Delivery)
  | insertFile (x : Media)

def Call.ofRest : List Message → Call
  | [] => .idle
  | left => .cleanup left

inductive Answer
  | failed
  | absent
  | done
deriving DecidableEq

inductive Op
  | markViewOnceViewed (message : Message)
  | finishViewOnce (id : Text)
  | cleanupViewedOnceMedia
  | activateMediaPreview (id conversationId : Text)
  | editSignal (senderId messageId newContent : Text) (timestamp : ℤ)
  | edit (messageId newContent : Text)
  | reactionSignal (senderId messageId emoji : Text) (remove : Bool)
  | toggleReaction (messageId emoji : Text)
  | encrypted (x : Delivery)
  | persistIncoming (x : Media)
  | proceed (answer : Answer)
  | storeConversation (c : ConversationEntity)
  | close
  | restart

structure Event where
  call : ℕ := 0
  now : ℤ := 0
  op : Op

structure State where
  device : Device := {}
  activeViewOnce : LinkedSet Text := .empty
  purgingViewOnce : LinkedSet Text := .empty
  seenMessageIds : LinkedSet Text := .empty
  /-- The call that holds the tail of the incoming files. -/
  incomingTail : Option ℕ := none
  closed : Bool := false
  calls : ℕ → Call := fun _ => .idle
  /-- The ids whose claim was granted, the last one first. -/
  claims : List Text := []
  /-- The ids whose cleanup has been completed. -/
  cleaned : List Text := []

namespace State

variable (s : State)

def row (id : Text) : Option Message := s.device.messages.get id

def setCall (n : ℕ) (c : Call) : State := { s with calls := Function.update s.calls n c }

def patch (id : Text) (f : Message → Message) : State := { s with device := s.device.patchMessage id f }

def store (m : Message) : State := { s with device := s.device.setMessages (s.device.messages.insert m) }

variable (n : ℕ)

def markViewOnceViewed (message : Message) : State :=
  if ¬ viewable message ∨ message.id ∈ s.activeViewOnce then s
  else
    { s with activeViewOnce := s.activeViewOnce.insert message.id }.setCall n (.markViewOnceAsViewed message.id)

def markViewOnceAsViewed (id : Text) (answer : Answer) : State :=
  if answer = .done ∧ (s.row id).any viewable then
    ({ s with claims := id :: s.claims }.patch id viewedMessage).setCall n .idle
  else { s with activeViewOnce := s.activeViewOnce.erase id }.setCall n .idle

def _purgeViewedOnce (id : Text) (left : List Message) : State :=
  if id ∈ s.purgingViewOnce then s.setCall n (.ofRest left)
  else
    match s.row id with
    | none => s.setCall n (.ofRest left)
    | some m =>
      if ¬ viewed m then s.setCall n (.ofRest left)
      else
        { s with purgingViewOnce := s.purgingViewOnce.insert id }.setCall n
          (.purge (if (filePath m).any fun path => decide (path ≠ []) then .resolve else .eraseViewedOnceContent)
            id left)

/-- The `finally` of a purge. -/
def purged (id : Text) (left : List Message) : State :=
  { s with purgingViewOnce := s.purgingViewOnce.erase id }.setCall n (.ofRest left)

def purge (at' : Purge) (id : Text) (left : List Message) (answer : Answer) : State :=
  match answer, at' with
  | .failed, _ => s.purged n id left
  | .absent, .resolve => s.setCall n (.purge .eraseViewedOnceContent id left)
  | _, .resolve => s.setCall n (.purge .delete id left)
  | _, .delete => s.setCall n (.purge .discardOpened id left)
  | _, .discardOpened => s.setCall n (.purge .eraseViewedOnceContent id left)
  | _, .eraseViewedOnceContent => ({ s with cleaned := id :: s.cleaned }.patch id erasedMessage).purged n id left

def cleanup (m : Message) (left : List Message) : State :=
  if viewed m ∧ m.id ∉ s.activeViewOnce ∧ (m.content ≠ [] ∨ m.caption.isSome) then s._purgeViewedOnce n m.id left
  else s.setCall n (.ofRest left)

def cleanupViewedOnceMedia : State := s.setCall n (.ofRest s.device.messages.values)

def finishViewOnce (id : Text) : State :=
  let s' := { s with activeViewOnce := s.activeViewOnce.erase id }
  if s.closed then s' else s'._purgeViewedOnce n id []

def close : State := { s with closed := true, activeViewOnce := .empty }.cleanupViewedOnceMedia n

/-- A new process finds the rows as they are. -/
def restart : State where
  device := s.device
  claims := s.claims
  cleaned := s.cleaned

section Handlers

variable (S : Service) (session : Session)

def editSignal (senderId messageId newContent : Text) (timestamp : ℤ) : State :=
  let content := trim newContent
  match named messageId s.device with
  | none => s
  | some (m, conversation) =>
    if m.senderId ≠ senderId ∨ m.contentType ≠ .text ∨ content = [] ∨ maxEditLength < GroupControl.length content ∨
        ¬ _senderAllowed session conversation senderId then s
    else s.setCall n (.editSignal messageId content m.content timestamp)

def edit (messageId newContent : Text) : State :=
  let clean := trim newContent
  match _context session messageId s.device with
  | none => s
  | some (m, _) =>
    if clean = [] ∨ maxEditLength < GroupControl.length clean ∨ ¬ m.isOutgoing ∨ m.contentType ≠ .text ∨ m.isViewOnce ∨
        editWindow < S.now - m.timestamp then s
    else s.setCall n (.edit messageId clean m.content S.now)

def reactionSignal (senderId messageId emoji : Text) (remove : Bool) : State :=
  match named messageId s.device with
  | none => s
  | some (_, conversation) =>
    if ¬ S.isValidMessageReaction emoji ∨ ¬ _senderAllowed session conversation senderId then s
    else s.setCall n (.applyReaction messageId senderId emoji remove)

def toggleReaction (messageId emoji : Text) : State :=
  match session.userId, _context session messageId s.device with
  | some userId, some (m, _) =>
    if ¬ S.isValidMessageReaction emoji ∨ m.contentType = .deleted then s
    else
      s.setCall n (.applyReaction messageId userId emoji
        (((parseReactions S.isValidMessageReaction m.reactions).get emoji).any fun voters => decide (userId ∈ voters)))
  | _, _ => s

/-- What `_encrypted` does with a message that is no vote. -/
def encrypted (x : Delivery) : State :=
  if (parseMessageEnvelope x.plaintext).pollVote.isSome ∨ x.arrival.messageId ∈ s.seenMessageIds then s
  else
    let s' := { s with seenMessageIds := s.seenMessageIds.insert x.arrival.messageId }
    if (s.row x.arrival.messageId).isSome then s' else s'.setCall n (.insert x)

def persistIncoming (x : Media) : State :=
  if (s.row x.messageId).isSome then s else { s with incomingTail := some n }.setCall n (.insertFile x)

/-- A write that fails leaves the row as it was. -/
def written (answer : Answer) (s' : State) : State := if answer = .done then s'.setCall n .idle else s.setCall n .idle

def proceed (answer : Answer) : Call → Option State
  | .idle | .cleanup [] => none
  | .markViewOnceAsViewed id => some (s.markViewOnceAsViewed n id answer)
  | .cleanup (m :: left) => some (s.cleanup n m left)
  | .purge at' id left => some (s.purge n at' id left answer)
  | .editSignal id content before timestamp =>
    some (s.written n answer (s.patch id (editedMessage content (_boundedTimestamp S.now timestamp) before)))
  | .edit id content before editedAt => some (s.written n answer (s.patch id (editedMessage content editedAt before)))
  | .applyReaction id userId emoji remove =>
    some (s.written n answer (s.patch id (reactedMessage S userId emoji remove)))
  | .insert x => some (s.written n answer (s.store (x.arrival.message (_boundedTimestamp S.now x.timestamp))))
  | .insertFile x =>
    let s' := { s with incomingTail := none }
    some (s'.written n answer (s'.store (x.message S.now .delivered false)))

/-- An operation that begins in a call that is not in use. -/
def start : Op → Option State
  | .markViewOnceViewed message => some (s.markViewOnceViewed n message)
  | .finishViewOnce id => some (s.finishViewOnce n id)
  | .cleanupViewedOnceMedia => some (s.cleanupViewedOnceMedia n)
  | .activateMediaPreview id conversationId =>
    some (if s.closed then s else s.patch id (activatedMessage S.now conversationId))
  | .editSignal senderId messageId newContent timestamp =>
    some (s.editSignal n session senderId messageId newContent timestamp)
  | .edit messageId newContent => some (s.edit n S session messageId newContent)
  | .reactionSignal senderId messageId emoji remove =>
    some (s.reactionSignal n S session senderId messageId emoji remove)
  | .toggleReaction messageId emoji => some (s.toggleReaction n S session messageId emoji)
  | .encrypted x => some (s.encrypted n x)
  | .persistIncoming x => if s.incomingTail = none then some (s.persistIncoming n x) else none
  | .storeConversation c => some { s with device := s.device.setConversations (s.device.conversations.insert c) }
  | .close => some (s.close n)
  | .restart => some s.restart
  | .proceed _ => none

def step (e : Event) : Option State :=
  match e.op, s.calls e.call with
  | .proceed answer, c => s.proceed e.call { S with now := e.now } answer c
  | op, .idle => s.start e.call { S with now := e.now } session op
  | _, _ => none

end Handlers

/-- The steps that do not show a message again: an edit is not written to a message that was cleaned up, and of a text
and a file under one id the second does not replace the first once that was claimed. -/
def keeps (e : Event) : Bool :=
  match e.op, s.calls e.call with
  | .proceed .done, .editSignal id _ _ _ => s.cleaned.all fun id' => decide (id' ≠ id)
  | .proceed .done, .insert x => (s.row x.arrival.messageId).all fun m => !(viewed m && isFileMessage m)
  | .proceed .done, .insertFile x => (s.row x.messageId).all fun m => !(viewed m && !isFileMessage m)
  | _, _ => true

end State

/-! ## What a write leaves of a row -/

/-- A later version of a row: what it is stays, and what was viewed stays viewed. -/
structure Later (m m' : Message) : Prop where
  sameId : m'.id = m.id
  once : m'.isViewOnce = m.isViewOnce
  outgoing : m'.isOutgoing = m.isOutgoing
  file : isFileMessage m' = isFileMessage m
  seen : m.isViewed = true → m'.isViewed = true

theorem viewed_iff {m : Message} :
    viewed m = true ↔ m.isViewOnce = true ∧ m.isViewed = true ∧ m.isOutgoing = false := by
  unfold viewed
  rw [Bool.and_eq_true, Bool.and_eq_true, Bool.not_eq_true', and_assoc]

theorem Later.refl (m : Message) : Later m m := ⟨rfl, rfl, rfl, rfl, id⟩

theorem Later.viewed {m m' : Message} (h : Later m m') (hm : viewed m = true) : viewed m' = true := by
  obtain ⟨hmo, hms, hmi⟩ := viewed_iff.1 hm
  exact viewed_iff.2 ⟨h.once.trans hmo, h.seen hms, h.outgoing.trans hmi⟩

theorem later_viewedMessage (m : Message) : Later m (viewedMessage m) := by
  unfold viewedMessage
  split
  · exact ⟨rfl, rfl, rfl, rfl, fun _ => rfl⟩
  · exact .refl m

theorem later_erasedMessage (m : Message) : Later m (erasedMessage m) := by
  unfold erasedMessage
  split
  · exact ⟨rfl, rfl, rfl, rfl, id⟩
  · exact .refl m

theorem later_activatedMessage (now : ℤ) (conversationId : Text) (m : Message) :
    Later m (activatedMessage now conversationId m) := by
  unfold activatedMessage
  split
  · exact ⟨rfl, rfl, rfl, rfl, id⟩
  · exact .refl m

theorem later_editedMessage (content before : Text) (editedAt : ℤ) (m : Message) :
    Later m (editedMessage content editedAt before m) := ⟨rfl, rfl, rfl, rfl, id⟩

theorem later_reactedMessage (S : Service) (userId emoji : Text) (remove : Bool) (m : Message) :
    Later m (reactedMessage S userId emoji remove m) := by
  unfold reactedMessage
  split
  · exact .refl m
  · exact ⟨rfl, rfl, rfl, rfl, id⟩

/-- Nothing of the message is left in its row. -/
def Blank (m : Message) : Prop := m.content = [] ∧ m.caption = none

theorem viewed_viewedMessage {m : Message} (h : viewable m = true) : viewed (viewedMessage m) = true := by
  unfold viewable at h
  rw [Bool.and_eq_true, Bool.and_eq_true, Bool.not_eq_true'] at h
  rw [viewedMessage, if_pos (by unfold viewable; simp [h])]
  exact viewed_iff.2 ⟨h.1.1, rfl, h.1.2⟩

theorem not_viewed_of_viewable {m : Message} (h : viewable m = true) : ¬ viewed m = true := by
  intro hv
  unfold viewable at h
  rw [(viewed_iff.1 hv).2.1, Bool.not_true, Bool.and_false] at h
  cases h

theorem blank_erasedMessage {m : Message} (h : viewed m = true) : Blank (erasedMessage m) := by
  rw [erasedMessage, if_pos h]
  exact ⟨rfl, rfl⟩

theorem blank_viewedMessage {m : Message} (h : Blank m) : Blank (viewedMessage m) := by
  unfold viewedMessage
  split
  · exact h
  · exact h

theorem blank_activatedMessage {now : ℤ} {conversationId : Text} {m : Message} (h : Blank m) :
    Blank (activatedMessage now conversationId m) := by
  unfold activatedMessage
  split
  · exact h
  · exact h

theorem blank_reactedMessage {S : Service} {userId emoji : Text} {remove : Bool} {m : Message} (h : Blank m) :
    Blank (reactedMessage S userId emoji remove m) := by
  unfold reactedMessage
  split
  · exact h
  · exact h

/-- A text that arrives is no file. -/
theorem isFileMessage_arrival (x : Delivery) (timestamp : ℤ) : isFileMessage (x.arrival.message timestamp) = false := by
  have hpoll : ∀ isPoll : Bool, isFileType (if isPoll then .poll else .text) = false := by decide
  rw [isFileMessage, Arrival.message, Delivery.arrival, parseMessageEnvelope]
  dsimp only
  generalize Envelope.pollVote _ = vote
  cases vote with
  | some vote => rfl
  | none => exact hpoll _

theorem isFileMessage_media (x : Media) (now : ℤ) : isFileMessage (x.message now .delivered false) = true := by
  show isFileType x._contentType = true
  unfold Media._contentType
  split
  · rfl
  · split <;> rfl

/-! ## The invariant -/

def Call.ofOthers : Call → Bool
  | .purge _ _ _ | .edit _ _ _ _ | .insert _ | .insertFile _ => false
  | _ => true

namespace State

variable {s : State} {n : ℕ} {id : Text} {f : Message → Message}

theorem row_patch (hf : ∀ m, Later m (f m)) {id' : Text} {m' : Message} :
    (s.patch id f).row id' = some m' ↔ ∃ m, s.row id' = some m ∧ m' = if id' = id then f m else m := by
  have hget : (s.patch id f).row id' = if id' = id then (s.row id).map f else s.row id' :=
    Keyed.get_patch fun m => (hf m).sameId
  rw [hget]
  by_cases hid : id' = id
  · rw [if_pos hid, Option.map_eq_some_iff, hid]
    simp only [if_true, eq_comm]
  · simp only [if_neg hid]
    exact ⟨fun h => ⟨m', h, rfl⟩, fun ⟨m, h, he⟩ => he ▸ h⟩

theorem row_store (m : Message) (id' : Text) : (s.store m).row id' = if id' = m.id then some m else s.row id' :=
  Keyed.get_insert

/-- What a call relies on while it waits: the message that it purges was viewed, the one that it edits is one of the
user's own, and where it is about to store a message there is none, or one that came on the other way. -/
def Fits (s : State) : Call → Prop
  | .purge _ id _ => ∃ m, s.row id = some m ∧ viewed m = true
  | .edit id _ _ _ => ∃ m, s.row id = some m ∧ m.isOutgoing = true
  | .insert x => x.arrival.messageId ∈ s.seenMessageIds ∧
    ∀ m, s.row x.arrival.messageId = some m → isFileMessage m = true ∧ m.isOutgoing = false
  | .insertFile x => ∀ m, s.row x.messageId = some m → isFileMessage m = false ∧ m.isOutgoing = false
  | _ => True

structure Once (s : State) : Prop where
  nodup : s.claims.Nodup
  claimed : ∀ id ∈ s.claims, ∃ m, s.row id = some m ∧ viewed m = true
  blank : ∀ id ∈ s.cleaned, ∃ m, s.row id = some m ∧ viewed m = true ∧ Blank m
  fits : ∀ n, s.Fits (s.calls n)
  /-- Two calls do not store a text under one id. -/
  single : ∀ n n' x x', s.calls n = .insert x → s.calls n' = .insert x' →
    x.arrival.messageId = x'.arrival.messageId → n = n'
  tail : ∀ n x, s.calls n = .insertFile x → s.incomingTail = some n

theorem fits_of_ofOthers {c : Call} (h : c.ofOthers = true) : s.Fits c := by
  cases c with
  | purge at' id left => cases h
  | edit id content before editedAt => cases h
  | insert x => cases h
  | insertFile x => cases h
  | _ => trivial

theorem ofOthers_ofRest (left : List Message) : (Call.ofRest left).ofOthers = true := by
  cases left <;> rfl

theorem Fits.patch (hf : ∀ m, Later m (f m)) {c : Call} (h : s.Fits c) : (s.patch id f).Fits c := by
  have hlater : ∀ {id' m}, Later m (if id' = id then f m else m) := by
    intro id' m
    split
    · exact hf m
    · exact .refl m
  cases c with
  | purge at' id' left =>
    obtain ⟨m, hm, hv⟩ := h
    exact ⟨_, (row_patch hf).2 ⟨m, hm, rfl⟩, hlater.viewed hv⟩
  | edit id' content before editedAt =>
    obtain ⟨m, hm, hout⟩ := h
    exact ⟨_, (row_patch hf).2 ⟨m, hm, rfl⟩, hlater.outgoing.trans hout⟩
  | insert x =>
    refine ⟨h.1, fun m' hm' => ?_⟩
    obtain ⟨m, hm, rfl⟩ := (row_patch hf).1 hm'
    obtain ⟨hfile, hout⟩ := h.2 m hm
    exact ⟨hlater.file.trans hfile, hlater.outgoing.trans hout⟩
  | insertFile x =>
    intro m' hm'
    obtain ⟨m, hm, rfl⟩ := (row_patch hf).1 hm'
    obtain ⟨hfile, hout⟩ := h m hm
    exact ⟨hlater.file.trans hfile, hlater.outgoing.trans hout⟩
  | _ => trivial

/-- **A row is patched**: nobody relies on more than what it is, and a message that was cleaned up stays blank if the
patch brings nothing back. -/
theorem Once.patch (h : s.Once) (hf : ∀ m, Later m (f m))
    (hblank : id ∈ s.cleaned → ∀ m, s.row id = some m → viewed m = true → Blank m → Blank (f m)) :
    (s.patch id f).Once := by
  have hviewed : ∀ {id' m}, viewed m = true → viewed (if id' = id then f m else m) = true := by
    intro id' m hm
    split
    · exact (hf m).viewed hm
    · exact hm
  refine ⟨h.nodup, fun id' hid' => ?_, fun id' hid' => ?_, fun n => (h.fits n).patch hf, h.single, h.tail⟩
  · obtain ⟨m, hm, hv⟩ := h.claimed id' hid'
    exact ⟨_, (row_patch hf).2 ⟨m, hm, rfl⟩, hviewed hv⟩
  · obtain ⟨m, hm, hv, hb⟩ := h.blank id' hid'
    refine ⟨_, (row_patch hf).2 ⟨m, hm, rfl⟩, hviewed hv, ?_⟩
    split
    · rename_i he
      subst he
      exact hblank hid' m hm hv hb
    · exact hb

theorem Once.setCall (h : s.Once) {c : Call} (hfits : s.Fits c)
    (hsingle : ∀ x, c = .insert x → ∀ n' x', s.calls n' = .insert x' →
      x'.arrival.messageId ≠ x.arrival.messageId)
    (htail : ∀ x, c = .insertFile x → s.incomingTail = some n) : (s.setCall n c).Once := by
  have hcall : ∀ n', (s.setCall n c).calls n' = if n' = n then c else s.calls n' := fun n' =>
    Function.update_apply s.calls n c n'
  refine ⟨h.nodup, h.claimed, h.blank, fun n' => ?_, fun n₁ n₂ x x' h₁ h₂ he => ?_, fun n' x hx => ?_⟩
  · rw [hcall]
    split
    · exact hfits
    · exact h.fits n'
  · rw [hcall] at h₁ h₂
    split at h₁
    · split at h₂
      · simp_all
      · exact absurd he.symm (hsingle x h₁ n₂ x' h₂)
    · split at h₂
      · exact absurd he (hsingle x' h₂ n₁ x h₁)
      · exact h.single n₁ n₂ x x' h₁ h₂ he
  · rw [hcall] at hx
    split at hx
    · rename_i he
      rw [he]
      exact htail x hx
    · exact h.tail n' x hx

/-- A call goes on to what relies on nothing. -/
theorem Once.goes (h : s.Once) {c : Call} (hc : c.ofOthers = true) : (s.setCall n c).Once :=
  h.setCall (fits_of_ofOthers hc) (fun x he => by subst he; cases hc) fun x he => by subst he; cases hc

/-- **A message is stored**, in the place of none or of one that came on the other way and was not claimed. -/
theorem Once.store (h : s.Once) {m : Message} (hin : m.isOutgoing = false)
    (hfree : ∀ m₀, s.row m.id = some m₀ → viewed m₀ = false ∧ m₀.isOutgoing = false)
    (htext : ∀ n x, s.calls n = .insert x → x.arrival.messageId = m.id → isFileMessage m = true)
    (hfile : ∀ n x, s.calls n = .insertFile x → x.messageId = m.id → isFileMessage m = false) : (s.store m).Once := by
  have hkept : ∀ {id' m₀}, s.row id' = some m₀ → viewed m₀ = true ∨ m₀.isOutgoing = true →
      (s.store m).row id' = some m₀ := by
    intro id' m₀ hm₀ hor
    rw [row_store]
    split
    · rename_i he
      subst he
      obtain ⟨hv, ho⟩ := hfree m₀ hm₀
      rw [hv, ho] at hor
      simp at hor
    · exact hm₀
  refine ⟨h.nodup, fun id hid => ?_, fun id hid => ?_, fun n => ?_, h.single, h.tail⟩
  · obtain ⟨m₀, hm₀, hv⟩ := h.claimed id hid
    exact ⟨m₀, hkept hm₀ (.inl hv), hv⟩
  · obtain ⟨m₀, hm₀, hv, hb⟩ := h.blank id hid
    exact ⟨m₀, hkept hm₀ (.inl hv), hv, hb⟩
  · show (s.store m).Fits (s.calls n)
    have hfits := h.fits n
    cases hc : s.calls n with
    | purge at' id left =>
      rw [hc] at hfits
      obtain ⟨m₀, hm₀, hv⟩ := hfits
      exact ⟨m₀, hkept hm₀ (.inl hv), hv⟩
    | edit id content before editedAt =>
      rw [hc] at hfits
      obtain ⟨m₀, hm₀, ho⟩ := hfits
      exact ⟨m₀, hkept hm₀ (.inr ho), ho⟩
    | insert x =>
      rw [hc] at hfits
      refine ⟨hfits.1, fun m₀ hm₀ => ?_⟩
      rw [row_store] at hm₀
      split at hm₀
      · cases hm₀
        exact ⟨htext n x hc ‹_›, hin⟩
      · exact hfits.2 m₀ hm₀
    | insertFile x =>
      rw [hc] at hfits
      intro m₀ hm₀
      rw [row_store] at hm₀
      split at hm₀
      · cases hm₀
        exact ⟨hfile n x hc ‹_›, hin⟩
      · exact hfits m₀ hm₀
    | _ => trivial

/-- What a state holds besides who views and who purges decides. -/
theorem Once.active (h : s.Once) (a p : LinkedSet Text) (b : Bool) :
    Once { s with activeViewOnce := a, purgingViewOnce := p, closed := b } :=
  ⟨h.nodup, h.claimed, h.blank, h.fits, h.single, h.tail⟩

/-! ## The steps -/

theorem Once.markViewOnceViewed (h : s.Once) (message : Message) : (s.markViewOnceViewed n message).Once := by
  unfold State.markViewOnceViewed
  split
  · exact h
  · exact (h.active _ _ _).goes rfl

theorem Once.markViewOnceAsViewed (h : s.Once) (id : Text) (answer : Answer) :
    (s.markViewOnceAsViewed n id answer).Once := by
  unfold State.markViewOnceAsViewed
  split
  · rename_i hc
    obtain ⟨m, hm, hv⟩ := (Option.any_eq_true _ _).1 hc.2
    refine Once.goes ?_ rfl
    have hp : (s.patch id viewedMessage).Once :=
      h.patch later_viewedMessage fun _ m _ _ => blank_viewedMessage
    refine ⟨List.nodup_cons.2 ⟨fun hid => ?_, h.nodup⟩, fun id' hid' => ?_, hp.blank, hp.fits, hp.single, hp.tail⟩
    · obtain ⟨m', hm', hv'⟩ := h.claimed id hid
      rw [hm] at hm'
      cases hm'
      exact not_viewed_of_viewable hv hv'
    · rcases List.mem_cons.1 hid' with rfl | hid'
      · exact ⟨viewedMessage m, (row_patch later_viewedMessage).2 ⟨m, hm, (if_pos rfl).symm⟩, viewed_viewedMessage hv⟩
      · exact hp.claimed id' hid'
  · exact (h.active _ _ _).goes rfl

/-- A purge goes on, while its message stays viewed. -/
theorem Once.purging (h : s.Once) {at' : Purge} {id : Text} {left : List Message}
    (hid : ∃ m, s.row id = some m ∧ viewed m = true) : (s.setCall n (.purge at' id left)).Once :=
  h.setCall hid (fun _ he => by cases he) fun _ he => by cases he

theorem Once.purgeViewedOnce (h : s.Once) (id : Text) (left : List Message) : (s._purgeViewedOnce n id left).Once := by
  have hrest : (s.setCall n (.ofRest left)).Once := h.goes (ofOthers_ofRest left)
  unfold State._purgeViewedOnce
  split
  · exact hrest
  · split
    · exact hrest
    · rename_i m hm
      split
      · exact hrest
      · rename_i hv
        exact (h.active _ _ _).purging ⟨m, hm, not_not.1 hv⟩

theorem Once.purged (h : s.Once) (id : Text) (left : List Message) : (s.purged n id left).Once :=
  (h.active _ _ _).goes (ofOthers_ofRest left)

/-- A purge whose message is erased has made it blank. -/
theorem Once.purge (h : s.Once) (at' : Purge) (id : Text) (left : List Message) (answer : Answer)
    (hid : ∃ m, s.row id = some m ∧ viewed m = true) : (s.purge n at' id left answer).Once := by
  have herase : ({ s with cleaned := id :: s.cleaned }.patch id erasedMessage).Once := by
    have hp : (s.patch id erasedMessage).Once :=
      h.patch later_erasedMessage fun _ m _ hv _ => blank_erasedMessage hv
    refine ⟨hp.nodup, hp.claimed, fun id' hid' => ?_, hp.fits, hp.single, hp.tail⟩
    rcases List.mem_cons.1 hid' with rfl | hid'
    · obtain ⟨m, hm, hv⟩ := hid
      exact ⟨_, (row_patch later_erasedMessage).2 ⟨m, hm, (if_pos rfl).symm⟩, (later_erasedMessage m).viewed hv,
        blank_erasedMessage hv⟩
    · exact hp.blank id' hid'
  unfold State.purge
  split
  · exact h.purged id left
  · exact h.purging hid
  · exact h.purging hid
  · exact h.purging hid
  · exact h.purging hid
  · exact herase.purged id left

theorem Once.cleanup (h : s.Once) (m : Message) (left : List Message) : (s.cleanup n m left).Once := by
  unfold State.cleanup
  split
  · exact h.purgeViewedOnce m.id left
  · exact h.goes (ofOthers_ofRest left)

theorem Once.finishViewOnce (h : s.Once) (id : Text) : (s.finishViewOnce n id).Once := by
  unfold State.finishViewOnce
  split
  · exact h.active _ _ _
  · exact (h.active _ _ _).purgeViewedOnce id []

theorem Once.restart (h : s.Once) : s.restart.Once :=
  ⟨h.nodup, h.claimed, h.blank, fun _ => trivial, fun _ _ _ _ hcall => (by cases hcall),
    fun _ _ hcall => (by cases hcall)⟩

section Handlers

variable {S : Service} {session : Session}

theorem row_of_context {messageId : Text} {d : Device} {m : Message} {c : ConversationEntity}
    (h : _context session messageId d = some (m, c)) : d.messages.get messageId = some m := by
  unfold _context at h
  split at h
  · cases h
  · split at h
    · cases h
    · obtain ⟨m', hm', h⟩ := Option.bind_eq_some_iff.1 h
      obtain ⟨c', hc', he⟩ := Option.map_eq_some_iff.1 h
      cases he
      exact hm'

theorem Once.editSignal (h : s.Once) (senderId messageId newContent : Text) (timestamp : ℤ) :
    (s.editSignal n session senderId messageId newContent timestamp).Once := by
  unfold State.editSignal
  dsimp only
  split
  · exact h
  · split
    · exact h
    · exact h.goes rfl

theorem Once.edit (h : s.Once) (messageId newContent : Text) : (s.edit n S session messageId newContent).Once := by
  unfold State.edit
  dsimp only
  split
  · exact h
  · rename_i m c hm
    split
    · exact h
    · rename_i hc
      have hout : m.isOutgoing = true := by
        by_contra hout
        exact hc (.inr (.inr (.inl hout)))
      exact h.setCall ⟨m, row_of_context hm, hout⟩ (fun _ he => by cases he) fun _ he => by cases he

theorem Once.reactionSignal (h : s.Once) (senderId messageId emoji : Text) (remove : Bool) :
    (s.reactionSignal n S session senderId messageId emoji remove).Once := by
  unfold State.reactionSignal
  split
  · exact h
  · split
    · exact h
    · exact h.goes rfl

theorem Once.toggleReaction (h : s.Once) (messageId emoji : Text) :
    (s.toggleReaction n S session messageId emoji).Once := by
  unfold State.toggleReaction
  split
  · split
    · exact h
    · exact h.goes rfl
  · exact h

/-- The ids that were seen keep a second text from being stored. -/
theorem Once.encrypted (h : s.Once) (x : Delivery) : (s.encrypted n x).Once := by
  have hseen : Once { s with seenMessageIds := s.seenMessageIds.insert x.arrival.messageId } := by
    refine ⟨h.nodup, h.claimed, h.blank, fun n' => ?_, h.single, h.tail⟩
    have hfits := h.fits n'
    show State.Fits _ (s.calls n')
    cases hc : s.calls n' with
    | insert x' =>
      rw [hc] at hfits
      exact ⟨LinkedSet.mem_insert.2 (.inl hfits.1), hfits.2⟩
    | _ =>
      rw [hc] at hfits
      exact hfits
  unfold State.encrypted
  dsimp only
  split
  · exact h
  · rename_i hnew
    split
    · exact hseen
    · rename_i hnone
      refine hseen.setCall ⟨LinkedSet.mem_insert.2 (.inr rfl), fun m hm => ?_⟩ (fun x' he n' x'' hcall hid => ?_)
        fun _ he => by cases he
      · exact absurd (Option.isSome_iff_exists.2 ⟨m, hm⟩) hnone
      · cases he
        have hfits := h.fits n'
        rw [show s.calls n' = .insert x'' from hcall] at hfits
        exact hnew (.inr (hid ▸ hfits.1))

theorem Once.persistIncoming (h : s.Once) (x : Media) (htail : s.incomingTail = none) :
    (s.persistIncoming n x).Once := by
  unfold State.persistIncoming
  split
  · exact h
  · rename_i hnone
    have hheld : Once { s with incomingTail := some n } := by
      refine ⟨h.nodup, h.claimed, h.blank, h.fits, h.single, fun n' x' hx' => ?_⟩
      rw [h.tail n' x' hx'] at htail
      cases htail
    exact hheld.setCall (fun m hm => absurd (Option.isSome_iff_exists.2 ⟨m, hm⟩) hnone) (fun _ he => by cases he)
      fun _ _ => rfl

theorem Once.start (h : s.Once) {op : Op} {s' : State} (hs : s.start n S session op = some s') : s'.Once := by
  cases op with
  | markViewOnceViewed message =>
    cases hs
    exact h.markViewOnceViewed message
  | finishViewOnce id =>
    cases hs
    exact h.finishViewOnce id
  | cleanupViewedOnceMedia =>
    cases hs
    exact h.goes (ofOthers_ofRest _)
  | activateMediaPreview id conversationId =>
    cases hs
    split
    · exact h
    · exact h.patch (later_activatedMessage S.now conversationId) fun _ _ _ _ => blank_activatedMessage
  | editSignal senderId messageId newContent timestamp =>
    cases hs
    exact h.editSignal senderId messageId newContent timestamp
  | edit messageId newContent =>
    cases hs
    exact h.edit messageId newContent
  | reactionSignal senderId messageId emoji remove =>
    cases hs
    exact h.reactionSignal senderId messageId emoji remove
  | toggleReaction messageId emoji =>
    cases hs
    exact h.toggleReaction messageId emoji
  | encrypted x =>
    cases hs
    exact h.encrypted x
  | persistIncoming x =>
    simp only [State.start] at hs
    split at hs
    · rename_i htail
      cases hs
      exact h.persistIncoming x htail
    · cases hs
  | proceed answer => cases hs
  | storeConversation c =>
    cases hs
    exact ⟨h.nodup, h.claimed, h.blank, h.fits, h.single, h.tail⟩
  | close =>
    cases hs
    exact (h.active _ _ _).goes (ofOthers_ofRest _)
  | restart =>
    cases hs
    exact h.restart

theorem Once.written (h : s.Once) {answer : Answer} {s' : State}
    (hs' : answer = .done → (s'.setCall n .idle).Once) : (s.written n answer s').Once := by
  unfold State.written
  split
  · exact hs' ‹_›
  · exact h.goes rfl

theorem calls_setCall_ne {c : Call} (hc : c ≠ .idle) {n' : ℕ} (h : (s.setCall n .idle).calls n' = c) :
    n' ≠ n ∧ s.calls n' = c := by
  have hcall : (if n' = n then Call.idle else s.calls n') = c := (Function.update_apply s.calls n .idle n').symm.trans h
  split at hcall
  · exact absurd hcall.symm hc
  · exact ⟨‹_›, hcall⟩

/-- A text is stored: no other call holds a text of its id. -/
theorem Once.insert (h : s.Once) {x : Delivery} (hc : s.calls n = .insert x) (timestamp : ℤ)
    (hfree : (s.row x.arrival.messageId).all (fun m => !(viewed m && isFileMessage m)) = true) :
    ((s.store (x.arrival.message timestamp)).setCall n .idle).Once := by
  have hfits := h.fits n
  rw [hc] at hfits
  have hidle : (s.setCall n .idle).Once := h.goes rfl
  have hid : ∀ a : Arrival, (a.message timestamp).id = a.messageId := fun _ => rfl
  refine hidle.store rfl (fun m hm => ?_) (fun n' x' hx' he => ?_) fun _ _ _ _ => isFileMessage_arrival x timestamp
  · rw [hid] at hm
    have hm : s.row x.arrival.messageId = some m := hm
    obtain ⟨hfile, hout⟩ := hfits.2 m hm
    rw [hm, Option.all_some, hfile, Bool.and_true, Bool.not_eq_true'] at hfree
    exact ⟨hfree, hout⟩
  · obtain ⟨hne, hcall⟩ := calls_setCall_ne (fun he => by cases he) hx'
    exact absurd (h.single n' n x' x hcall hc (he.trans (hid _))) hne

/-- The tail of the incoming files is given back. -/
theorem Once.endFile (h : s.Once) {x : Media} (hc : s.calls n = .insertFile x) :
    (State.setCall { s with incomingTail := none } n .idle).Once := by
  have hidle : (s.setCall n .idle).Once := h.goes rfl
  refine ⟨hidle.nodup, hidle.claimed, hidle.blank, hidle.fits, hidle.single, fun n' x' hx' => ?_⟩
  obtain ⟨hne, hcall⟩ := calls_setCall_ne (fun he => by cases he) hx'
  have htail : some n' = some n := (h.tail n' x' hcall).symm.trans (h.tail n x hc)
  exact absurd (Option.some.inj htail) hne

theorem Once.insertFile (h : s.Once) {x : Media} (hc : s.calls n = .insertFile x) (now : ℤ)
    (hfree : (s.row x.messageId).all (fun m => !(viewed m && !isFileMessage m)) = true) :
    ((State.store { s with incomingTail := none } (x.message now .delivered false)).setCall n .idle).Once := by
  have hfits := h.fits n
  rw [hc] at hfits
  refine (h.endFile hc).store rfl (fun m hm => ?_) (fun _ _ _ _ => isFileMessage_media x now) fun n' x' hx' _ => ?_
  · have hm : s.row x.messageId = some m := hm
    obtain ⟨hfile, hout⟩ := hfits m hm
    rw [hm, Option.all_some, hfile, Bool.not_false, Bool.and_true, Bool.not_eq_true'] at hfree
    exact ⟨hfree, hout⟩
  · obtain ⟨hne, hcall⟩ := calls_setCall_ne (fun he => by cases he) hx'
    have htail : some n' = some n := (h.tail n' x' hcall).symm.trans (h.tail n x hc)
    exact absurd (Option.some.inj htail) hne

theorem Once.proceed (h : s.Once) {answer : Answer} {s' : State} {now : ℤ}
    (hk : s.keeps ⟨n, now, .proceed answer⟩ = true) (hs : s.proceed n S answer (s.calls n) = some s') : s'.Once := by
  have hfits := h.fits n
  unfold State.keeps at hk
  dsimp only at hk
  cases hc : s.calls n with
  | idle =>
    rw [hc] at hs
    cases hs
  | markViewOnceAsViewed id =>
    rw [hc] at hs
    cases hs
    exact h.markViewOnceAsViewed id answer
  | cleanup left =>
    rw [hc] at hs
    cases left with
    | nil => cases hs
    | cons m left =>
      cases hs
      exact h.cleanup m left
  | purge at' id left =>
    rw [hc] at hs hfits
    cases hs
    exact h.purge at' id left answer hfits
  | editSignal id content before timestamp =>
    rw [hc] at hs hk
    cases hs
    refine h.written fun hdone => (h.patch (later_editedMessage content before _) fun hid => ?_).goes rfl
    subst hdone
    have hne := List.all_eq_true.1 hk id hid
    simp at hne
  | edit id content before editedAt =>
    rw [hc] at hs hfits
    cases hs
    obtain ⟨m, hm, hout⟩ := hfits
    refine h.written fun _ => (h.patch (later_editedMessage content before editedAt) fun _ m' hm' hv => ?_).goes rfl
    rw [hm] at hm'
    cases hm'
    rw [(viewed_iff.1 hv).2.2] at hout
    cases hout
  | applyReaction id userId emoji remove =>
    rw [hc] at hs
    cases hs
    exact h.written fun _ => (h.patch (later_reactedMessage S userId emoji remove) fun _ _ _ _ =>
      blank_reactedMessage).goes rfl
  | insert x =>
    rw [hc] at hs hk
    cases hs
    refine h.written fun hdone => h.insert hc _ ?_
    subst hdone
    exact hk
  | insertFile x =>
    rw [hc] at hs hk
    cases hs
    unfold State.written
    split
    · rename_i hdone
      subst hdone
      exact h.insertFile hc S.now hk
    · exact h.endFile hc

theorem Once.step (h : s.Once) {e : Event} {s' : State} (hk : s.keeps e = true) (hs : s.step S session e = some s') :
    s'.Once := by
  obtain ⟨n, now, op⟩ := e
  unfold State.step at hs
  dsimp only at hs
  split at hs
  · exact h.proceed hk hs
  · exact h.start hs
  · cases hs

end Handlers

theorem once_init (d : Device) : Once { device := d } :=
  ⟨List.nodup_nil, fun _ hid => absurd hid List.not_mem_nil, fun _ hid => absurd hid List.not_mem_nil, fun _ => trivial,
    fun _ _ _ _ hcall => (by cases hcall), fun _ _ hcall => (by cases hcall)⟩

theorem activateMediaPreview_of_viewed {m : Message} (hm : s.row id = some m) (hv : viewed m = true) (now : ℤ)
    (conversationId : Text) : activateMediaPreview now id conversationId s.device = none := by
  obtain ⟨honce, hviewed, -⟩ := viewed_iff.1 hv
  have hnot : activatable now conversationId m = false := by
    unfold activatable
    rw [honce, hviewed, Bool.or_true, Bool.and_true, Bool.not_true, Bool.and_false]
  unfold activateMediaPreview
  rw [show s.device.messages.get id = some m from hm, Option.filter_some, hnot]
  rfl

end State

/-! ## Runs -/

/-- **In every run whose steps keep it hidden, a message is claimed at most once**; what is claimed is an incoming
message that may be viewed once, no preview of it is handed out any more, and when its cleanup was completed its content
and its caption are empty. -/
theorem viewed_once {S : Service} {session : Session} {d : Device} {s : State} {es : List Event}
    (hm : Meets (fun s => State.step s S session) (fun s e => s.keeps e = true) { device := d } es)
    (hr : run (fun s => State.step s S session) { device := d } es = some s) :
    s.claims.Nodup ∧
      (∀ id ∈ s.claims, (∃ m, s.row id = some m ∧ m.isViewOnce = true ∧ m.isViewed = true ∧ m.isOutgoing = false) ∧
        ∀ now conversationId, activateMediaPreview now id conversationId s.device = none) ∧
      ∀ id ∈ s.cleaned, ∃ m, s.row id = some m ∧ m.content = [] ∧ m.caption = none := by
  have h : s.Once := Meets.invariant State.Once (fun _ _ _ hi hk hs => hi.step hk hs) (State.once_init d) hm hr
  refine ⟨h.nodup, fun id hid => ?_, fun id hid => ?_⟩
  · obtain ⟨m, hrow, hv⟩ := h.claimed id hid
    exact ⟨⟨m, hrow, viewed_iff.1 hv⟩, State.activateMediaPreview_of_viewed hrow hv⟩
  · obtain ⟨m, hrow, -, hblank⟩ := h.blank id hid
    exact ⟨m, hrow, hblank⟩

def onceService : Service where
  now := 0
  isValidMessageReaction _ := true
  verifies _ _ := false
  timerNotice _ _ _ _ := []
  timerNoticeId _ _ _ _ := []

def onceDevice : Device where
  conversations := Keyed.empty.insert { id := ['p'], peerId := ['p'], peerName := ['p'], peerPhone := [] }

def onceSession : Session := { userId := some ['u'] }

def onceText : Delivery := ⟨['p'], ['p'], "MSGID:m:VIEWONCE:hi".toList, 0, ['x']⟩

def onceMessage : Message where
  id := ['m']
  conversationId := ['p']
  senderId := ['p']
  content := "hi".toList
  contentType := .text
  timestamp := 0
  status := .delivered
  isOutgoing := false
  isViewOnce := true

/-- A text comes in and is viewed; its row is erased when the viewer is closed. -/
def viewing : List Event :=
  [⟨0, 0, .encrypted onceText⟩, ⟨0, 0, .proceed .done⟩, ⟨0, 0, .markViewOnceViewed onceMessage⟩,
   ⟨0, 0, .proceed .done⟩, ⟨0, 0, .finishViewOnce ['m']⟩, ⟨0, 0, .proceed .done⟩]

/-- The text comes in again, is opened again and gets a reaction, in a process of its own. -/
def replay : List Event :=
  [⟨0, 0, .restart⟩, ⟨0, 0, .encrypted onceText⟩, ⟨0, 0, .markViewOnceViewed onceMessage⟩, ⟨0, 0, .proceed .done⟩,
   ⟨0, 0, .reactionSignal ['p'] ['m'] ['!'] false⟩, ⟨0, 0, .proceed .done⟩, ⟨0, 0, .cleanupViewedOnceMedia⟩]

theorem viewed_once_replayed : ∃ s, run (fun s => State.step s onceService onceSession) { device := onceDevice }
    (viewing ++ replay) = some s ∧ s.claims = [['m']] ∧ s.cleaned = [['m']] ∧
      ∃ m, s.row ['m'] = some m ∧ m.content = [] ∧ m.caption = none := by
  obtain ⟨s, hs, hclaims, hcleaned⟩ : ∃ s, run (fun s => State.step s onceService onceSession)
      { device := onceDevice } (viewing ++ replay) = some s ∧ s.claims = [['m']] ∧ s.cleaned = [['m']] :=
    Runs.exists_run _ _ _ (by decide +kernel)
  refine ⟨s, hs, hclaims, hcleaned, ?_⟩
  exact (viewed_once (by decide +kernel) hs).2.2 ['m'] (hcleaned ▸ List.mem_cons_self)

/-- **An edit by its sender brings a message back that was viewed and erased.** -/
theorem erased_edited : ∃ s, run (fun s => State.step s onceService onceSession) { device := onceDevice }
    (viewing ++ [⟨0, 0, .editSignal ['p'] ['m'] "again".toList 0⟩, ⟨0, 0, .proceed .done⟩]) = some s ∧
      ['m'] ∈ s.claims ∧ ['m'] ∈ s.cleaned ∧ (s.row ['m']).map Message.content = some "again".toList := by
  obtain ⟨s, hs, hclaims, hcleaned, hrow⟩ : ∃ s, run (fun s => State.step s onceService onceSession)
      { device := onceDevice } (viewing ++ [⟨0, 0, .editSignal ['p'] ['m'] "again".toList 0⟩,
        ⟨0, 0, .proceed .done⟩]) = some s ∧ s.claims = [['m']] ∧ s.cleaned = [['m']] ∧
          (s.row ['m']).map Message.content = some "again".toList :=
    Runs.exists_run _ _ _ (by decide +kernel)
  exact ⟨s, hs, hclaims ▸ List.mem_cons_self, hcleaned ▸ List.mem_cons_self, hrow⟩

end ViewOnce
end SecureChat
