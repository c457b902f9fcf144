import SecureChat.ChatControls
/-!
# ControlFrames — what a private chat control may change

`Permitted` says for each kind of control what its sender may touch and that everything else
stays.  `controls_permitted` shows it of every control and every state: the ids that a control names only choose among
rows that the checks of its handler let its sender write.
-/
namespace SecureChat
namespace ChatControl

open Envelope (StorageMessageContentType)
open GroupControl (Text trim)
open MessageReactions (Reacted parseReactions reacted_applyMessageReaction)
open Storage (ConversationEntity PendingSignalEntity StorageMessageStatus)
open scoped GroupControl

/-! ## Roles -/

def Direct (user : Text) (c : ConversationEntity) : Prop := c.isGroup = false ∧ c.peerId = user

def Member (user : Text) (c : ConversationEntity) : Prop := c.isGroup = true ∧ user ∈ csv c.groupMembers

def Admin (user : Text) (c : ConversationEntity) : Prop := Member user c ∧ user ∈ csv c.groupAdmins

/-- The message was sent by the local user and to this one: to those it lists or, where it lists none, to the peer or
the members of its conversation. -/
structure Recipient (session : Session) (user : Text) (m : Message) (c : ConversationEntity) : Prop where
  outgoing : m.isOutgoing = true
  own : session.userId = some m.senderId
  other : session.userId ≠ some user
  direct : c.isGroup = false → c.peerId = user
  listed (ids : List Text) : m.receiptRecipients = some ids → user ∈ trimmed ids
  unlisted : m.receiptRecipients = none → c.isGroup = true → user ∈ trimmed ((c.groupMembers.getD []).splitOn ',')

/-! ## Frames -/

/-- Nothing but a message is different, and that as `P` says. -/
structure OnlyMessage (d d' : Device) (id : Text) (P : Message → Message → Prop) : Prop where
  conversations : d'.conversations = d.conversations
  contacts : d'.contacts = d.contacts
  pendingSignals : d'.pendingSignals = d.pendingSignals
  cryptoState : d'.cryptoState = d.cryptoState
  typing : d'.typing = d.typing
  others (k : Text) : k ≠ id → d'.messages.get k = d.messages.get k
  this : d'.messages.get id = d.messages.get id ∨
    ∃ m m', d.messages.get id = some m ∧ d'.messages.get id = some m' ∧ P m m'

/-- Nothing but a conversation, its messages and a notice in it is different. -/
structure OnlyConversation (d d' : Device) (id : Text) : Prop where
  contacts : d'.contacts = d.contacts
  pendingSignals : d'.pendingSignals = d.pendingSignals
  cryptoState : d'.cryptoState = d.cryptoState
  typing : d'.typing = d.typing
  others (k : Text) : k ≠ id → d'.conversations.get k = d.conversations.get k
  messages (k : Text) (m : Message) : d.messages.get k = some m →
    ∃ m', d'.messages.get k = some m' ∧ m'.conversationId = m.conversationId ∧ (m.conversationId ≠ id → m' = m)
  added (k : Text) : d.messages.get k = none →
    d'.messages.get k = none ∨ ∃ m', d'.messages.get k = some m' ∧ m'.conversationId = id

/-- Nothing but a row of the conversations is different. -/
structure OnlyRow (d d' : Device) (id : Text) : Prop where
  messages : d'.messages = d.messages
  contacts : d'.contacts = d.contacts
  pendingSignals : d'.pendingSignals = d.pendingSignals
  cryptoState : d'.cryptoState = d.cryptoState
  typing : d'.typing = d.typing
  others (k : Text) : k ≠ id → d'.conversations.get k = d.conversations.get k

/-- A message with other receipts of one user; whom it had been read by, it had reached. -/
structure OwnReceipt (user : Text) (m m' : Message) : Prop where
  fields : m' = { m with status := m'.status, deliveredTo := m'.deliveredTo, readBy := m'.readBy }
  read (other : Text) : other ≠ user → (other ∈ m'.readBy ↔ other ∈ m.readBy)
  delivered (other : Text) : other ≠ user → (other ∈ m'.deliveredTo ↔ other ∈ m.deliveredTo ∨ other ∈ m.readBy)

/-- A receipt changes what its sender announces and, of a message that the sender was a recipient of, the sender's
receipts, the status that sums them up, also in the preview of the conversation, and the copies kept for the sender. -/
structure ReceiptFrame (session : Session) (user : Text) (d d' : Device) (id : Text) : Prop where
  contacts : d'.contacts = d.contacts
  typing : d'.typing = d.typing
  cryptoState (k : Text) : (∀ c ∈ localPeerCapabilities, k ≠ capabilityKey c user) →
    d'.cryptoState.get k = d.cryptoState.get k
  message : (d'.messages = d.messages ∧ d'.conversations = d.conversations ∧ d'.pendingSignals = d.pendingSignals) ∨
    ∃ m m' c, d.messages.get id = some m ∧ d.conversations.get m.conversationId = some c ∧ Recipient session user m c ∧
      d'.messages.get id = some m' ∧ OwnReceipt user m m' ∧
      (∀ k, k ≠ id → d'.messages.get k = d.messages.get k) ∧
      (∀ k, k ≠ c.id → d'.conversations.get k = d.conversations.get k) ∧
      (∃ c', d'.conversations.get c.id = some c' ∧ c' = { c with lastMessageStatus := c'.lastMessageStatus }) ∧
      ∀ k, d'.pendingSignals.get k = (d.pendingSignals.get k).filter fun s => !keptFor id user s

def Permitted (S : Service) (session : Session) (user : Text) (d d' : Device) : Body → Prop
  | .delivery_receipt id _ _ => ReceiptFrame session user d d' id
  | .message_delete id | .message_edit id _ => OnlyMessage d d' id fun m _ => m.senderId = user
  | .message_reaction id _ _ => OnlyMessage d d' id fun m m' =>
    (∃ c, d.conversations.get m.conversationId = some c ∧ (Direct user c ∨ Member user c)) ∧
      m' = { m with reactions := m'.reactions } ∧
      ∀ other emoji, other ≠ user → (Reacted (parseReactions S.isValidMessageReaction m'.reactions) other emoji ↔
        Reacted (parseReactions S.isValidMessageReaction m.reactions) other emoji)
  | .message_pin id _ _ _ => OnlyMessage d d' id fun m m' =>
    (∃ c, d.conversations.get m.conversationId = some c ∧ (Direct user c ∨ Admin user c)) ∧
      m' = { m with isPinned := m'.isPinned, pinnedAt := m'.pinnedAt }
  | .view_once_opened id => OnlyMessage d d' id fun m m' =>
    (∃ c, d.conversations.get m.conversationId = some c ∧
      (Direct user c ∨ c.isGroup = true ∧ user ∈ (c.groupMembers.getD []).splitOn ',')) ∧
      m.isViewOnce = true ∧ m.isOutgoing = true ∧ m' = { m with isViewed := true }
  | .typing_indicator _ => ∃ isTyping, d' = d.setTyping user isTyping
  | .disappearing_timer _ _ => d' = d ∨
    ∃ c, d.conversations.get c.id = some c ∧ (Direct user c ∨ Member user c) ∧ OnlyConversation d d' c.id
  | .shared_phone _ => d' = d ∨
    (d.getByPeerId user = none ∧ OnlyRow d d' user) ∨
    ∃ c c', d.conversations.get c.id = some c ∧ Direct user c ∧ OnlyRow d d' c.id ∧
      d'.conversations.get c.id = some c' ∧ c' = { c with peerName := c'.peerName, peerPhone := c'.peerPhone }
  | .shared_profile_name _ => ∃ state,
    (∀ k, k ≠ receivedNameKey user → state.get k = d.cryptoState.get k) ∧ (d' = d.setCryptoState state ∨
      ∃ c c', d.conversations.get c.id = some c ∧ Direct user c ∧ OnlyRow (d.setCryptoState state) d' c.id ∧
        d'.conversations.get c.id = some c' ∧ c' = { c with peerName := c'.peerName })
  | .session_reset_request _ => ∃ state,
    (∀ k, k ≠ sentNameKey user → state.get k = d.cryptoState.get k) ∧ d' = d.setCryptoState state

section Frames

variable {S : Service} {session : Session} {user id : Text} {d : Device} {m : Message} {c : ConversationEntity}

theorem OnlyMessage.refl (P : Message → Message → Prop) : OnlyMessage d d id P :=
  ⟨rfl, rfl, rfl, rfl, rfl, fun _ _ => rfl, .inl rfl⟩

theorem OnlyMessage.patch {P : Message → Message → Prop} {f : Message → Message} (hf : ∀ m, (f m).id = m.id)
    (hm : d.messages.get id = some m) (hP : P m (f m)) : OnlyMessage d (d.patchMessage id f) id P := by
  refine ⟨rfl, rfl, rfl, rfl, rfl, fun k hk => Keyed.get_patch_of_ne hf hk, .inr ⟨m, f m, hm, ?_, hP⟩⟩
  show (d.messages.patch id f).get id = _
  rw [Keyed.get_patch hf, if_pos rfl, hm]
  rfl

theorem OnlyRow.patch {f : ConversationEntity → ConversationEntity} (hf : ∀ c, (f c).id = c.id) :
    OnlyRow d (d.patchConversation id f) id :=
  ⟨rfl, rfl, rfl, rfl, rfl, fun _ hk => Keyed.get_patch_of_ne hf hk⟩

theorem get_patchConversation {f : ConversationEntity → ConversationEntity} (hf : ∀ c, (f c).id = c.id)
    (hc : d.conversations.get id = some c) : (d.patchConversation id f).conversations.get id = some (f c) := by
  show (d.conversations.patch id f).get id = _
  rw [Keyed.get_patch hf, if_pos rfl, hc]
  rfl

theorem of_senderAllowed (h : _senderAllowed session (some c) user = true) : Direct user c ∨ Member user c := by
  unfold _senderAllowed at h
  split at h
  · rename_i c' localUserId hc _
    cases hc
    split at h
    · cases h
    split at h
    · rename_i hgroup
      exact .inl ⟨by simpa using hgroup, of_decide_eq_true h⟩
    · rename_i hgroup
      exact .inr ⟨by simpa using hgroup, of_decide_eq_true (Bool.and_eq_true_iff.1 h).2⟩
  · cases h

theorem exists_conversation {conversation : Option ConversationEntity}
    (h : _senderAllowed session conversation user = true) :
    ∃ c, conversation = some c ∧ (Direct user c ∨ Member user c) := by
  cases conversation with
  | none => cases h
  | some c => exact ⟨c, rfl, of_senderAllowed h⟩

theorem named_eq_some {x : Message × Option ConversationEntity} (h : named id d = some x) :
    d.messages.get id = some x.1 ∧ d.conversations.get x.1.conversationId = x.2 := by
  obtain ⟨m, hm, rfl⟩ := Option.map_eq_some_iff.1 h
  exact ⟨hm, rfl⟩

theorem getByPeerId_eq_some (h : d.getByPeerId user = some c) : c.peerId = user ∧
    d.conversations.get c.id = some c := by
  have hpeer : decide (c.peerId = user) = true :=
    List.find?_some (p := fun c : ConversationEntity => decide (c.peerId = user)) h
  exact ⟨of_decide_eq_true hpeer, Keyed.mem_values (List.mem_of_find?_eq_some h)⟩

end Frames

section Handlers

variable {S : Service} {session : Session} {user id : Text} {d : Device}

theorem delete_permitted : OnlyMessage d (_delete session user id d) id fun m _ => m.senderId = user := by
  unfold _delete
  split
  · exact .refl _
  rename_i m conversation hnamed
  split
  · exact .refl _
  · rename_i hok
    exact .patch (fun _ => rfl) (named_eq_some hnamed).1 (not_not.1 (not_or.1 hok).1)

theorem edit_permitted {newContent : Text} {timestamp : ℤ} :
    OnlyMessage d (_edit S session user id newContent timestamp d) id fun m _ => m.senderId = user := by
  unfold _edit
  split
  · exact .refl _
  rename_i m conversation hnamed
  dsimp only
  split
  · exact .refl _
  · rename_i hok
    exact .patch (fun _ => rfl) (named_eq_some hnamed).1 (not_not.1 (not_or.1 hok).1)

theorem id_reactedMessage {emoji : Text} {remove : Bool} (m : Message) :
    (reactedMessage S user emoji remove m).id = m.id := by
  unfold reactedMessage
  split <;> rfl

theorem reacted_reactedMessage {emoji : Text} {remove : Bool} (m : Message) :
    reactedMessage S user emoji remove m = { m with reactions := (reactedMessage S user emoji remove m).reactions } ∧
      ∀ other e, other ≠ user →
        (Reacted (parseReactions S.isValidMessageReaction (reactedMessage S user emoji remove m).reactions) other e ↔
          Reacted (parseReactions S.isValidMessageReaction m.reactions) other e) := by
  unfold reactedMessage
  split
  · exact ⟨rfl, fun _ _ _ => Iff.rfl⟩
  · rename_i hok
    obtain ⟨huser, hrest⟩ := not_or.1 hok
    refine ⟨rfl, fun other e hother => ?_⟩
    rw [reacted_applyMessageReaction huser (not_not.1 (not_or.1 hrest).1), if_neg hother]

theorem reaction_permitted {emoji : Text} {remove : Bool} :
    Permitted S session user d (_reaction S session user id emoji remove d) (.message_reaction id emoji remove) := by
  unfold _reaction
  split
  · exact .refl _
  rename_i m conversation hnamed
  obtain ⟨hm, hc⟩ := named_eq_some hnamed
  split
  · exact .refl _
  · rename_i hok
    obtain ⟨c, rfl, hrole⟩ := exists_conversation (not_not.1 (not_or.1 hok).2)
    exact .patch id_reactedMessage hm ⟨⟨c, hc, hrole⟩, reacted_reactedMessage m⟩

theorem pin_permitted {isPinned : Bool} {pinnedAt : Option ℤ} {groupId : Option Text} :
    Permitted S session user d (_pin S session user id isPinned pinnedAt groupId d)
      (.message_pin id isPinned pinnedAt groupId) := by
  unfold _pin
  split
  · rename_i m c hnamed
    obtain ⟨hm, hc⟩ := named_eq_some hnamed
    split
    · exact .refl _
    rename_i hallowed
    split
    · exact .refl _
    rename_i hadmin
    have hrole : Direct user c ∨ Admin user c := by
      rcases of_senderAllowed (not_not.1 hallowed) with hdirect | hmember
      · exact .inl hdirect
      · refine .inr ⟨hmember, not_not.1 fun hnot => hadmin ⟨hmember.1, .inl hnot⟩⟩
    unfold updatePinned
    split
    · exact .refl _
    split
    · exact .refl _
    · exact .patch (fun _ => rfl) hm ⟨⟨c, hc, hrole⟩, rfl⟩
  · exact .refl _

theorem viewOnce_permitted : Permitted S session user d (markOutgoingViewOnceOpened id user d)
    (.view_once_opened id) := by
  unfold markOutgoingViewOnceOpened
  split
  · rename_i m c hnamed
    obtain ⟨hm, hc⟩ := named_eq_some hnamed
    split
    · exact .refl _
    rename_i hok
    obtain ⟨honce, hrest⟩ := not_or.1 hok
    obtain ⟨hout, -⟩ := not_or.1 hrest
    have hmark : ∀ hrole : Direct user c ∨ c.isGroup = true ∧ user ∈ (c.groupMembers.getD []).splitOn ',',
        Permitted S session user d (d.patchMessage id fun m => { m with isViewed := true }) (.view_once_opened id) :=
      fun hrole => OnlyMessage.patch (fun _ => rfl) hm ⟨⟨c, hc, hrole⟩, not_not.1 honce, not_not.1 hout, rfl⟩
    by_cases hgroup : c.isGroup = true
    · rw [if_pos hgroup]
      split
      · exact hmark (.inr ⟨hgroup, of_decide_eq_true ‹_›⟩)
      · exact .refl _
    · rw [if_neg hgroup]
      split
      · exact hmark (.inl ⟨by simpa using hgroup, of_decide_eq_true ‹_›⟩)
      · exact .refl _
  · exact .refl _

theorem Device.setTyping_self (d : Device) (user : Text) : d = d.setTyping user (d.typing user) := by
  cases d
  simp [Device.setTyping]

theorem typing_permitted {isTyping : Bool} :
    Permitted S session user d (_typingIfAllowed session user isTyping d) (.typing_indicator isTyping) := by
  unfold _typingIfAllowed
  split
  · exact ⟨_, d.setTyping_self user⟩
  split
  · exact ⟨_, d.setTyping_self user⟩
  · exact ⟨isTyping, rfl⟩

end Handlers

section Timer

variable {S : Service} {session : Session} {user id : Text} {d d' d'' : Device}

theorem OnlyConversation.refl : OnlyConversation d d id :=
  ⟨rfl, rfl, rfl, rfl, fun _ _ => rfl, fun _ m hm => ⟨m, hm, rfl, fun _ => rfl⟩, fun _ hk => .inl hk⟩

theorem OnlyConversation.trans (h : OnlyConversation d d' id) (h' : OnlyConversation d' d'' id) :
    OnlyConversation d d'' id := by
  refine ⟨h'.contacts.trans h.contacts, h'.pendingSignals.trans h.pendingSignals, h'.cryptoState.trans h.cryptoState,
    h'.typing.trans h.typing, fun k hk => (h'.others k hk).trans (h.others k hk), fun k m hm => ?_, fun k hk => ?_⟩
  · obtain ⟨m', hm', hid, hsame⟩ := h.messages k m hm
    obtain ⟨m'', hm'', hid', hsame'⟩ := h'.messages k m' hm'
    refine ⟨m'', hm'', hid'.trans hid, fun hne => ?_⟩
    rw [hsame' (hid.symm ▸ hne), hsame hne]
  · rcases h.added k hk with hnone | ⟨m', hm', hid⟩
    · exact h'.added k hnone
    · obtain ⟨m'', hm'', hid', -⟩ := h'.messages k m' hm'
      exact .inr ⟨m'', hm'', hid'.trans hid⟩

theorem OnlyConversation.patchConversation {f : ConversationEntity → ConversationEntity} (hf : ∀ c, (f c).id = c.id) :
    OnlyConversation d (d.patchConversation id f) id :=
  ⟨rfl, rfl, rfl, rfl, fun _ hk => Keyed.get_patch_of_ne hf hk, fun _ m hm => ⟨m, hm, rfl, fun _ => rfl⟩,
    fun _ hk => .inl hk⟩

theorem OnlyConversation.insertMessage {m : Message} (hnew : d.messages.get m.id = none) :
    OnlyConversation d (d.setMessages (d.messages.insert m)) m.conversationId := by
  refine ⟨rfl, rfl, rfl, rfl, fun _ _ => rfl, fun k m' hm' => ⟨m', ?_, rfl, fun _ => rfl⟩, fun k hk => ?_⟩
  · have hne : k ≠ m.id := by
      rintro rfl
      rw [hnew] at hm'
      cases hm'
    exact (Keyed.get_insert_of_ne hne).trans hm'
  · have hget : (d.messages.insert m).get k = if k = m.id then some m else d.messages.get k := Keyed.get_insert
    by_cases hid : k = m.id
    · exact .inr ⟨m, hget.trans (if_pos hid), rfl⟩
    · exact .inl (hget.trans ((if_neg hid).trans hk))

theorem OnlyConversation.applyRetroactiveExpiry (duration windowStart now : ℤ) :
    OnlyConversation d (applyRetroactiveExpiry id duration windowStart now d) id := by
  have hget : ∀ k, (SecureChat.ChatControl.applyRetroactiveExpiry id duration windowStart now d).messages.get k =
      (d.messages.get k).map (expiring id duration windowStart now) := fun _ =>
    Keyed.get_map _ (id_expiring id duration windowStart now)
  refine ⟨rfl, rfl, rfl, rfl, fun _ _ => rfl, fun k m hm => ⟨_, (hget k).trans (congrArg _ hm), ?_, fun hne => ?_⟩,
    fun k hk => .inl ((hget k).trans (congrArg _ hk))⟩
  · unfold expiring
    split <;> rfl
  · unfold expiring
    rw [if_neg fun h => hne h.1]

theorem get_timerConversation {conversationId : Text} {c : ConversationEntity}
    (h : timerConversation user conversationId d = some c) : d.conversations.get c.id = some c := by
  unfold timerConversation at h
  split at h
  · rename_i group hgroup
    cases h
    obtain ⟨hget, -⟩ := Option.filter_eq_some_iff.1 hgroup
    split at hget
    · cases hget
    · rw [Keyed.key_of_get hget]
      exact hget
  · exact (getByPeerId_eq_some h).2

theorem timer_permitted {durationMs timestamp : ℤ} {conversationId : Text} :
    Permitted S session user d (_timer S session user durationMs conversationId timestamp d)
      (.disappearing_timer durationMs conversationId) := by
  unfold _timer
  split
  · exact .inl rfl
  rename_i c hc
  split
  · exact .inl rfl
  rename_i hok
  refine .inr ⟨c, get_timerConversation hc, of_senderAllowed (not_not.1 (not_or.1 hok).2), ?_⟩
  dsimp only
  generalize hd₁ : (d.patchConversation c.id fun c => { c with disappearingDuration := durationMs }) = d₁
  have h₁ : OnlyConversation d d₁ c.id := hd₁ ▸ .patchConversation fun _ => rfl
  have hnotice : ∀ (messageId content : Text) (at' : ℤ), OnlyConversation d₁
      (if (d₁.messages.get messageId).isSome then d₁
      else (d₁.setMessages (d₁.messages.insert (timerMessage messageId c.id content at'))).patchConversation c.id
        (previewed content at')) c.id := by
    intro messageId content at'
    split
    · exact .refl
    · rename_i hnone
      have hnew : d₁.messages.get messageId = none := Option.not_isSome_iff_eq_none.1 hnone
      exact (OnlyConversation.insertMessage (m := timerMessage messageId c.id content at') hnew).trans
        (.patchConversation fun _ => rfl)
  split
  · exact (h₁.trans (hnotice _ _ _)).trans (.applyRetroactiveExpiry _ _ _)
  · exact h₁.trans (hnotice _ _ _)

end Timer

section Names

variable {S : Service} {session : Session} {user : Text} {d : Device}

theorem phone_permitted {recipientId phone : Text} :
    Permitted S session user d (acceptPhone S session user recipientId phone d) (.shared_phone phone) := by
  unfold acceptPhone
  split
  · exact .inl rfl
  dsimp only
  split
  · exact .inl rfl
  rename_i hgroup
  split
  · exact .inl rfl
  split
  · rename_i hnone
    refine .inr (.inl ⟨hnone, rfl, rfl, rfl, rfl, rfl, fun k hk => ?_⟩)
    exact Keyed.get_insert_of_ne hk
  · rename_i c hc
    obtain ⟨hpeer, hget⟩ := getByPeerId_eq_some hc
    have hdirect : Direct user c := by
      rw [hc] at hgroup
      exact ⟨by simpa using hgroup, hpeer⟩
    split
    · exact .inr (.inr ⟨c, _, hget, hdirect, .patch fun _ => rfl, get_patchConversation (fun _ => rfl) hget, rfl⟩)
    · exact .inl rfl

theorem profileName_permitted {recipientId displayName : Text} :
    Permitted S session user d (acceptProfileName session user recipientId displayName d)
      (.shared_profile_name displayName) := by
  have hrefl : ∃ state : Table Text Text, (∀ k, k ≠ receivedNameKey user → state.get k = d.cryptoState.get k) ∧
      (d = d.setCryptoState state ∨ ∃ c c', d.conversations.get c.id = some c ∧ Direct user c ∧
        OnlyRow (d.setCryptoState state) d c.id ∧ d.conversations.get c.id = some c' ∧
          c' = { c with peerName := c'.peerName }) := ⟨d.cryptoState, fun _ _ => rfl, .inl rfl⟩
  unfold acceptProfileName
  split
  · exact hrefl
  rename_i name hname
  split
  · exact hrefl
  refine ⟨d.cryptoState.assign (receivedNameKey user) name, fun k hk => Table.get_assign_of_ne hk, ?_⟩
  dsimp only
  split
  · exact .inl rfl
  rename_i c hc
  obtain ⟨hpeer, hget⟩ := getByPeerId_eq_some hc
  split
  · exact .inl rfl
  rename_i hgroup
  split
  · have hdirect : Direct user c := ⟨by simpa using (not_or.1 hgroup).1, hpeer⟩
    exact .inr ⟨c, _, hget, hdirect, .patch fun _ => rfl, get_patchConversation (fun _ => rfl) hget, rfl⟩
  · exact .inl rfl

theorem sessionReset_permitted {recipientId reason : Text} :
    Permitted S session user d (_sessionResetRequest session user recipientId d) (.session_reset_request reason) := by
  unfold _sessionResetRequest
  split
  · exact ⟨d.cryptoState, fun _ _ => rfl, rfl⟩
  · exact ⟨_, fun k hk => Table.get_remove_of_ne hk, rfl⟩

end Names

section Receipts

variable {session : Session} {user id : Text} {d : Device} {m : Message} {c : ConversationEntity}

theorem get_record {capabilities : List Text} {state : Table Text Text} {k : Text}
    (hk : ∀ c ∈ localPeerCapabilities, k ≠ capabilityKey c user) :
    (record user capabilities state).get k = state.get k := by
  have hfold : ∀ (l : List Text), (∀ c ∈ l, k ≠ capabilityKey c user) → ∀ state : Table Text Text,
      (l.foldl (fun state capability =>
        let key := capabilityKey capability user
        let known := (state.get key).isSome
        if capability ∈ capabilities ∧ ¬ known then state.assign key "1".toList
        else if capability ∉ capabilities ∧ known then state.remove key
        else state) state).get k = state.get k := by
    intro l
    induction l with
    | nil => exact fun _ _ => rfl
    | cons c l ih =>
      intro hl state
      obtain ⟨hc, hl⟩ := List.forall_mem_cons.1 hl
      rw [List.foldl_cons, ih hl]
      dsimp only
      split
      · exact Table.get_assign_of_ne hc
      split
      · exact Table.get_remove_of_ne hc
      · rfl
  unfold record
  split
  · rfl
  · exact hfold _ hk state

theorem mem_sorted {ids : LinkedSet Text} {x : Text} : x ∈ sorted ids ↔ x ∈ ids :=
  (List.perm_insertionSort _ _).mem_iff

theorem mem_foldl_insert {x : Text} : ∀ {l : List Text} {s : LinkedSet Text},
    x ∈ l.foldl (fun s id => s.insert id) s ↔ x ∈ s ∨ x ∈ l
  | [], s => by simp
  | a :: l, s => by rw [List.foldl_cons, mem_foldl_insert, LinkedSet.mem_insert, List.mem_cons, or_assoc]

theorem mem_receipts {isRead : Bool} {other : Text} (h : other ≠ user) :
    (other ∈ (receipts m c user isRead).1 ↔ other ∈ m.readBy) ∧
      (other ∈ (receipts m c user isRead).2 ↔ other ∈ m.deliveredTo ∨ other ∈ m.readBy) := by
  have hinsert : ∀ (p : Prop) [Decidable p] (s : LinkedSet Text),
      other ∈ (if p then s.insert user else s) ↔ other ∈ s := by
    intro p _ s
    split
    · simp [LinkedSet.mem_insert, h]
    · exact Iff.rfl
  have hread : other ∈ (receipts m c user isRead).1 ↔ other ∈ m.readBy := by
    unfold receipts
    dsimp only
    rw [hinsert, hinsert, LinkedSet.mem_ofList]
  refine ⟨hread, ?_⟩
  have hdelivered : other ∈ (receipts m c user isRead).2 ↔
      other ∈ m.deliveredTo ∨ other ∈ (receipts m c user isRead).1 := by
    unfold receipts
    dsimp only
    rw [mem_foldl_insert, LinkedSet.mem_insert, hinsert, LinkedSet.mem_ofList]
    simp only [h, or_false]
    exact Iff.rfl
  rw [hdelivered, hread]

theorem ownReceipt_received (isRead : Bool) (expected : Option (List Text)) :
    OwnReceipt user m (received m c user isRead expected) :=
  ⟨rfl, fun _ h => mem_sorted.trans (mem_receipts h).1, fun _ h => mem_sorted.trans (mem_receipts h).2⟩

theorem of_expectedRecipients {localUserId : Text} {expected : Option (List Text)}
    (h : expectedRecipients m c user localUserId = some expected) :
    (∀ ids, m.receiptRecipients = some ids → user ∈ trimmed ids) ∧ (m.receiptRecipients = none → c.isGroup = true →
      user ∈ trimmed ((c.groupMembers.getD []).splitOn ',')) := by
  unfold expectedRecipients at h
  split at h
  · rename_i ids hids
    refine ⟨fun ids' hids' => ?_, fun hnone => ?_⟩
    · cases hids.symm.trans hids'
      dsimp only at h
      split at h
      · exact (List.mem_filter.1 ‹_›).1
      · cases h
    · rw [hids] at hnone
      cases hnone
  · rename_i hnone
    refine ⟨fun ids' hids' => ?_, fun _ hgroup => ?_⟩
    · rw [hnone] at hids'
      cases hids'
    · rw [if_pos hgroup] at h
      dsimp only at h
      split at h
      · exact (‹_ ∧ _› : _ ∧ _).2
      · cases h

theorem recordDeliveryReceipt_some {isRead : Bool} {localUserId : Text} {d' : Device}
    (hself : session.userId = some localUserId) (h : recordDeliveryReceipt id user isRead localUserId d = some d') :
    ∃ m c expected, d.messages.get id = some m ∧ d.conversations.get m.conversationId = some c ∧
      Recipient session user m c ∧ d' = if c.lastMessageTimestamp = some m.timestamp then
          (d.setMessages (d.messages.insert (received m c user isRead expected))).setConversations
            (d.conversations.insert
              { c with lastMessageStatus := some (received m c user isRead expected).status.name })
        else d.setMessages (d.messages.insert (received m c user isRead expected)) := by
  unfold recordDeliveryReceipt at h
  split at h
  · cases h
  rename_i hargs
  split at h
  · cases h
  rename_i m hm
  split at h
  · cases h
  rename_i hown
  split at h
  · cases h
  rename_i c hc
  split at h
  · cases h
  rename_i hdirect
  split at h
  · cases h
  rename_i expected hexpected
  obtain ⟨hout, hsender⟩ := not_or.1 hown
  obtain ⟨hlisted, hunlisted⟩ := of_expectedRecipients hexpected
  refine ⟨m, c, expected, hm, hc, ⟨not_not.1 hout, ?_, ?_, fun hgroup => ?_, hlisted, hunlisted⟩, ?_⟩
  · rw [hself, not_not.1 hsender]
  · rw [hself]
    intro he
    exact (not_or.1 (not_or.1 hargs).2).2 (Option.some.inj he).symm
  · by_contra hne
    exact hdirect ⟨by simp [hgroup], fun he => hne he.symm⟩
  · exact (Option.some.inj h).symm

theorem get_deleteDelivered (k : Text) : (deleteDelivered id user d).pendingSignals.get k =
    (d.pendingSignals.get k).filter fun s => !keptFor id user s := by
  ext s
  rw [Option.filter_eq_some_iff]
  exact Table.get_filter_eq_some

theorem receipt_permitted {status : Text} {capabilities : List Text} :
    ReceiptFrame session user d (_receipt session user id status capabilities d) id := by
  unfold _receipt
  split
  · exact ⟨rfl, rfl, fun _ _ => rfl, .inl ⟨rfl, rfl, rfl⟩⟩
  rename_i localUserId hself
  dsimp only
  split
  · exact ⟨rfl, rfl, fun k hk => get_record hk, .inl ⟨rfl, rfl, rfl⟩⟩
  rename_i d'' hd''
  obtain ⟨isRead, -, hrecord⟩ := Option.bind_eq_some_iff.1 hd''
  obtain ⟨m, c, expected, hm, hc, hrecipient, rfl⟩ := recordDeliveryReceipt_some hself hrecord
  have hid : m.id = id := Keyed.key_of_get (t := d.messages) hm
  have hcid : c.id = m.conversationId := Keyed.key_of_get (t := d.conversations) hc
  have hc' : d.conversations.get c.id = some c := hcid ▸ hc
  have hmessages : ∀ k, (d.messages.insert (received m c user isRead expected)).get k =
      if k = id then some (received m c user isRead expected) else d.messages.get k := fun k =>
    Keyed.get_insert.trans (by rw [show (received m c user isRead expected).id = id from hid])
  split
  · refine ⟨rfl, rfl, fun k hk => get_record hk, .inr ⟨m, _, c, hm, hc, hrecipient, (hmessages id).trans (if_pos rfl),
      ownReceipt_received isRead expected, fun k hk => (hmessages k).trans (if_neg hk),
      fun k hk => Keyed.get_insert_of_ne hk, ⟨_, Keyed.get_insert.trans (if_pos rfl), rfl⟩, get_deleteDelivered⟩⟩
  · refine ⟨rfl, rfl, fun k hk => get_record hk, .inr ⟨m, _, c, hm, hc, hrecipient, (hmessages id).trans (if_pos rfl),
      ownReceipt_received isRead expected, fun k hk => (hmessages k).trans (if_neg hk), fun k hk => rfl,
      ⟨c, hc', rfl⟩, get_deleteDelivered⟩⟩

end Receipts

/-! ## The controls -/

section Controls

variable (S : Service) (session : Session)

theorem Permitted.refl (user : Text) (d : Device) (body : Body) : Permitted S session user d d body := by
  cases body with
  | delivery_receipt id status capabilities => exact ⟨rfl, rfl, fun _ _ => rfl, .inl ⟨rfl, rfl, rfl⟩⟩
  | message_delete id => exact OnlyMessage.refl _
  | message_edit id newContent => exact OnlyMessage.refl _
  | message_reaction id emoji remove => exact OnlyMessage.refl _
  | message_pin id isPinned pinnedAt groupId => exact OnlyMessage.refl _
  | typing_indicator isTyping => exact ⟨d.typing user, d.setTyping_self user⟩
  | disappearing_timer durationMs conversationId => exact .inl rfl
  | shared_phone phone => exact .inl rfl
  | shared_profile_name displayName => exact ⟨d.cryptoState, fun _ _ => rfl, .inl rfl⟩
  | view_once_opened id => exact OnlyMessage.refl _
  | session_reset_request reason => exact ⟨d.cryptoState, fun _ _ => rfl, rfl⟩

theorem handle_permitted (signal : Control) (d : Device) :
    Permitted S session signal.senderId d (_handle S session signal d) signal.body := by
  obtain ⟨user, recipientId, timestamp, body⟩ := signal
  cases body with
  | delivery_receipt id status capabilities => exact receipt_permitted
  | message_delete id => exact delete_permitted
  | message_edit id newContent => exact edit_permitted
  | message_reaction id emoji remove => exact reaction_permitted
  | message_pin id isPinned pinnedAt groupId => exact pin_permitted
  | typing_indicator isTyping => exact typing_permitted
  | disappearing_timer durationMs conversationId => exact timer_permitted
  | shared_phone phone => exact phone_permitted
  | shared_profile_name displayName =>
    show Permitted S session user d (acceptProfileName session user recipientId displayName d) _
    exact profileName_permitted
  | view_once_opened id => exact viewOnce_permitted
  | session_reset_request reason => exact sessionReset_permitted

/-- **A control touches only what its sender may touch**: of every kind, with whatever ids, in every state. -/
theorem controls_permitted (isGroup : Bool) (senderId recipientId : Text) (timestamp : ℤ) (body : Body) (d : Device) :
    Permitted S session senderId d
      (privateChatControl S session isGroup senderId recipientId (some (timestamp, body)) d) body := by
  unfold privateChatControl
  split
  · rename_i localUserId _ _ _ hdecoded
    cases hdecoded
    split
    · exact Permitted.refl S session senderId d body
    · exact handle_permitted S session ⟨senderId, localUserId, timestamp, body⟩ d
  · exact Permitted.refl S session senderId d body

end Controls

section Sample

def sampleService : Service where
  now := 1700000000000
  isValidMessageReaction := fun emoji => decide (emoji = ['👍'])
  verifies := fun _ _ => false
  timerNotice := fun _ _ sender _ => sender
  timerNoticeId := fun id _ _ _ => id

/-- A message to Veli, which is the last of the conversation and of which a copy is kept for Veli. -/
def sampleDevice : Device where
  conversations := Keyed.empty.insert
    { id := "veli".toList, peerId := "veli".toList, peerName := [], peerPhone := [], lastMessageTimestamp := some 5 }
  messages := Keyed.empty.insert
    { id := "m".toList, conversationId := "veli".toList, senderId := "ali".toList, content := [], contentType := .text
      timestamp := 5, status := .sent, isOutgoing := true, readBy := ["can".toList] }
  pendingSignals := Table.empty.assign "p".toList
    { id := "p".toList, encodedSignal := [], createdAt := 0, messageId := some "m".toList
      recipientId := some "veli".toList, retainUntilReceipt := true }

def sampleReceipt (d : Device) : Device :=
  privateChatControl sampleService { userId := some "ali".toList } false "veli".toList "ali".toList
    (some (0, .delivery_receipt "m".toList "DELIVERED".toList ["blob-v2".toList])) d

/-- It changes more than Veli's own receipts: what Veli's app can do, the kept copy, the preview of the conversation and
the status of the message; and who has read the message counts as reached. -/
theorem receipt_touches_more :
    (sampleReceipt sampleDevice).cryptoState.get (capabilityKey "blob-v2".toList "veli".toList) ≠
        sampleDevice.cryptoState.get (capabilityKey "blob-v2".toList "veli".toList) ∧
      (sampleReceipt sampleDevice).pendingSignals.get "p".toList ≠ sampleDevice.pendingSignals.get "p".toList ∧
      ((sampleReceipt sampleDevice).conversations.get "veli".toList).map (·.lastMessageStatus) ≠
        (sampleDevice.conversations.get "veli".toList).map (·.lastMessageStatus) ∧
      ((sampleReceipt sampleDevice).messages.get "m".toList).map (·.status) ≠
        (sampleDevice.messages.get "m".toList).map (·.status) ∧
      ((sampleReceipt sampleDevice).messages.get "m".toList).map (fun m => decide ("can".toList ∈ m.deliveredTo)) ≠
        (sampleDevice.messages.get "m".toList).map fun m => decide ("can".toList ∈ m.deliveredTo) := by
  decide

end Sample

end ChatControl
end SecureChat
