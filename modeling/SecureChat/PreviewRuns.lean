import SecureChat.PreviewCurrency
/-!
# PreviewRuns — what is shown while messages arrive, are sent, edited, deleted and expire

Each step keeps that its conversation shows the newest message if it is `Orderly`, and so does a run of such steps
(`preview_current`).  An older message that arrives late is enough to break it (`preview_lateArrival`).
-/
namespace SecureChat
namespace ChatControl

open Envelope (StorageMessageContentType)
open GroupControl (Text trim)
open Runs (Meets run)
open Storage (ConversationEntity StorageMessageStatus contentTypeName)

inductive Op where
  | receive (x : Arrival)
  | receiveMedia (x : Media)
  | send (request : SendMessageRequest)
  | sendMedia (x : Media) (status : StorageMessageStatus)
  | edit (messageId newContent : Text) (sent : Bool)
  | deleteForEveryone (messageId : Text) (sent : Bool)
  | deleteLocally (messageId : Text)
  | peerEdits (senderId messageId newContent : Text) (timestamp : ℤ)
  | peerDeletes (senderId messageId : Text)
  | peerSetsTimer (senderId : Text) (durationMs : ℤ) (conversationId : Text) (timestamp : ℤ)
  | groupNotice (id groupId content : Text) (timestamp : ℤ)
  | expire

structure Event where
  now : ℤ
  op : Op

def Op.newId : Op → Option Text
  | .send request => some request.messageId
  | .sendMedia x _ => some x.messageId
  | _ => none

section Steps

variable (S : Service) (session : Session)

def perform (d : Device) : Op → Device
  | .receive x => _encrypted S x d
  | .receiveMedia x => _persistIncoming S x d
  | .send request => send S session request d
  | .sendMedia x status => _persistOutgoing S x status d
  | .edit messageId newContent sent => edit S session messageId newContent sent d
  | .deleteForEveryone messageId sent => deleteForEveryone session messageId sent d
  | .deleteLocally messageId => deleteLocally messageId d
  | .peerEdits senderId messageId newContent timestamp =>
    _edit S session senderId messageId newContent timestamp d
  | .peerDeletes senderId messageId => _delete session senderId messageId d
  | .peerSetsTimer senderId durationMs conversationId timestamp =>
    _timer S session senderId durationMs conversationId timestamp d
  | .groupNotice id groupId content timestamp => _systemMessage S id groupId content timestamp d
  | .expire => deleteExpiredMessages S.now d

def step (d : Device) (e : Event) : Option Device :=
  if e.op.newId.all fun id => (d.messages.get id).isNone then some (perform { S with now := e.now } session d e.op)
  else none

def Keeps (cid : Text) (d : Device) : Op → Prop
  | .receive x => d.messages.get x.messageId = none → x.conversationId = cid →
    NoneAfter d cid (_boundedTimestamp S.now x.timestamp)
  | .receiveMedia x => d.messages.get x.messageId = none → x.conversationId = cid →
    NoneAfter d cid S.now ∧ x._preview = (x.message S.now .delivered false).preview
  | .send request => request.conversationId = cid → NoneAfter d cid S.now ∧ d.conversations.get cid ≠ none
  | .sendMedia x status => x.conversationId = cid →
    NoneAfter d cid S.now ∧ x._preview = (x.message S.now status true).preview
  | .edit messageId newContent _ => ∀ m, d.messages.get messageId = some m → m.conversationId = cid →
    Legible cid (d.patchMessage messageId (editedMessage (trim newContent) S.now m.content))
  | .deleteForEveryone messageId _ => ∀ m, d.messages.get messageId = some m → m.conversationId = cid →
    Legible cid (d.patchMessage messageId deletedMessage)
  | .deleteLocally messageId => ∀ m, d.messages.get messageId = some m → m.conversationId = cid →
    Legible cid (removeMessage messageId d)
  | .peerEdits senderId messageId newContent timestamp => ∀ m, d.messages.get messageId = some m →
    m.conversationId = cid → m.senderId = senderId → m.contentType = .text →
    Unseen d cid messageId (editedMessage (trim newContent) (_boundedTimestamp S.now timestamp) m.content)
  | .peerDeletes senderId messageId => ∀ m, d.messages.get messageId = some m → m.conversationId = cid →
    m.senderId = senderId → Unseen d cid messageId deletedMessage
  | .peerSetsTimer senderId durationMs conversationId timestamp => ∀ c,
    timerConversation senderId conversationId d = some c → c.id = cid →
    d.messages.get (S.timerNoticeId c.id senderId durationMs timestamp) = none →
    NoneAfter d cid (_boundedTimestamp S.now timestamp)
  | .groupNotice id groupId _ timestamp => d.messages.get id = none → groupId = cid →
    NoneAfter d cid (_boundedTimestamp S.now timestamp) ∧
      ∀ c, d.conversations.get cid = some c → c.lastMessageType = some (contentTypeName .system)
  | .expire => True

def Orderly (cid : Text) (d : Device) (e : Event) : Prop := Keeps { S with now := e.now } cid d e.op

end Steps

variable {S : Service} {session : Session} {d d' : Device} {cid : Text}

theorem noneAfter_openConversation {c : ConversationEntity} {t : ℤ} (h : NoneAfter d cid t) :
    NoneAfter (openConversation c d) cid t := fun m hm => h m (stored_openConversation.1 hm)

theorem current_encrypted {x : Arrival} (h : Current d cid) (hk : Keeps S cid d (.receive x)) :
    Current (_encrypted S x d) cid := by
  unfold _encrypted
  split
  · exact h
  · rename_i hnew
    rw [Bool.not_eq_true, Option.isSome_eq_false_iff, Option.isNone_iff_eq_none] at hnew
    refine current_incrementUnreadCount (current_store ?_ (fun hc => ?_) fun hc => ?_)
    · rw [messages_openConversation]
      exact hnew
    · exact current_openConversation h hc
    · exact ⟨noneAfter_openConversation (hk hnew hc), rfl⟩

theorem current_persistIncoming {x : Media} (h : Current d cid) (hk : Keeps S cid d (.receiveMedia x)) :
    Current (_persistIncoming S x d) cid := by
  unfold _persistIncoming
  split
  · exact h
  · rename_i hnew
    rw [Bool.not_eq_true, Option.isSome_eq_false_iff, Option.isNone_iff_eq_none] at hnew
    refine current_incrementUnreadCount (current_store ?_ (fun hc => ?_) fun hc => ?_)
    · rw [messages_openConversation]
      exact hnew
    · exact current_openConversation h hc
    · obtain ⟨hafter, htext⟩ := hk hnew hc
      exact ⟨noneAfter_openConversation hafter, htext⟩

theorem current_send {request : SendMessageRequest} (hnew : d.messages.get request.messageId = none) (h : Current d cid)
    (hk : Keeps S cid d (.send request)) : Current (send S session request d) cid := by
  unfold send
  split
  · exact h
  · split
    · exact h
    · split
      · rename_i hnone
        refine current_insert (by exact hnew) rfl (fun hc => ?_) fun hc => ⟨h, fun c' hc' => ⟨c', ?_, rfl⟩⟩
        · obtain ⟨-, hsome⟩ := hk hc
          have hcid : request.conversationId = cid := hc
          rw [hcid] at hnone
          exact absurd hnone hsome
        · have hne : cid ≠ request.conversationId := fun he => hc he.symm
          have hget : (if cid = request.conversationId then _ else d.conversations.get cid) = some c' :=
            Keyed.get_insert.symm.trans hc'
          rwa [if_neg hne] at hget
      · split
        · exact h
        · exact current_store (by exact hnew) (fun _ => h) fun hc => ⟨(hk hc).1, rfl⟩

theorem current_persistOutgoing {x : Media} {status : StorageMessageStatus} (hnew : d.messages.get x.messageId = none)
    (h : Current d cid) (hk : Keeps S cid d (.sendMedia x status)) : Current (_persistOutgoing S x status d) cid :=
  current_store (by exact hnew) (fun _ => h) fun hc => hk hc

theorem get_of_context {messageId : Text} {m : Message} {c : ConversationEntity}
    (h : _context session messageId d = some (m, c)) : d.messages.get messageId = some m := by
  unfold _context at h
  split at h
  · cases h
  · split at h
    · cases h
    · obtain ⟨m', hm', hc⟩ := Option.bind_eq_some_iff.1 h
      obtain ⟨c', -, heq⟩ := Option.map_eq_some_iff.1 hc
      cases heq
      exact hm'

theorem current_changed {id : Text} {f : Message → Message} {m : Message} (hf : InPlace f) (h : Current d cid)
    (hm : d.messages.get id = some m) (hlegible : m.conversationId = cid → Legible cid (d.patchMessage id f)) :
    Current (_refreshLastMessage m.conversationId (d.patchMessage id f)) cid := by
  refine current_refreshLastMessage (fun hne => ?_) hlegible
  refine current_patchMessage hf h fun m' hm' hc => ?_
  rw [hm] at hm'
  cases hm'
  exact absurd hc hne

theorem current_edit {messageId newContent : Text} {sent : Bool} (h : Current d cid)
    (hk : Keeps S cid d (.edit messageId newContent sent)) :
    Current (edit S session messageId newContent sent d) cid := by
  unfold edit
  dsimp only
  split
  · exact h
  · rename_i m c hcontext
    have hm := get_of_context hcontext
    split
    · exact h
    · exact current_changed inPlace_editedMessage h hm (hk m hm)

theorem current_deleteForEveryone {messageId : Text} {sent : Bool} (h : Current d cid)
    (hk : Keeps S cid d (.deleteForEveryone messageId sent)) :
    Current (deleteForEveryone session messageId sent d) cid := by
  unfold deleteForEveryone
  split
  · exact h
  · rename_i m c hcontext
    have hm := get_of_context hcontext
    split
    · exact h
    · exact current_changed inPlace_deletedMessage h hm (hk m hm)

theorem current_deleteLocally {messageId : Text} (h : Current d cid) (hk : Keeps S cid d (.deleteLocally messageId)) :
    Current (deleteLocally messageId d) cid := by
  unfold deleteLocally
  split
  · exact h
  · rename_i m hm
    refine current_refreshLastMessage (fun hne => ?_) (hk m hm)
    refine h.congr (fun n => ?_) fun c hc => ⟨c, hc, rfl⟩
    rw [stored_removeMessage, and_iff_left_iff_imp]
    rintro ⟨hn, hc⟩ rfl
    rw [hm] at hn
    cases hn
    exact hne hc

theorem get_of_named {messageId : Text} {m : Message} {c : Option ConversationEntity}
    (h : named messageId d = some (m, c)) : d.messages.get messageId = some m := by
  obtain ⟨m', hm', heq⟩ := Option.map_eq_some_iff.1 h
  cases heq
  exact hm'

theorem current_peerEdits {senderId messageId newContent : Text} {timestamp : ℤ} (h : Current d cid)
    (hk : Keeps S cid d (.peerEdits senderId messageId newContent timestamp)) :
    Current (_edit S session senderId messageId newContent timestamp d) cid := by
  unfold _edit
  dsimp only
  split
  · exact h
  · rename_i m c hnamed
    have hm := get_of_named hnamed
    split
    · exact h
    · rename_i haccepted
      push Not at haccepted
      refine current_patchMessage inPlace_editedMessage h fun m' hm' hc => ?_
      rw [hm] at hm'
      cases hm'
      exact hk m hm hc haccepted.1 haccepted.2.1

theorem current_peerDeletes {senderId messageId : Text} (h : Current d cid)
    (hk : Keeps S cid d (.peerDeletes senderId messageId)) : Current (_delete session senderId messageId d) cid := by
  unfold _delete
  split
  · exact h
  · rename_i m c hnamed
    have hm := get_of_named hnamed
    split
    · exact h
    · rename_i haccepted
      push Not at haccepted
      refine current_patchMessage inPlace_deletedMessage h fun m' hm' hc => ?_
      rw [hm] at hm'
      cases hm'
      exact hk m hm hc haccepted.1

theorem inPlace_expiring {conversationId : Text} {duration windowStart now : ℤ} :
    InPlace (expiring conversationId duration windowStart now) := by
  refine ⟨id_expiring _ _ _ _, fun m => ?_, fun m => ?_⟩ <;> · unfold expiring; split <;> rfl

theorem shown_expiring {conversationId : Text} {duration windowStart now : ℤ} (m : Message) :
    (expiring conversationId duration windowStart now m).shown = m.shown := by
  unfold expiring
  split <;> rfl

theorem current_peerSetsTimer {senderId conversationId : Text} {durationMs timestamp : ℤ} (h : Current d cid)
    (hk : Keeps S cid d (.peerSetsTimer senderId durationMs conversationId timestamp)) :
    Current (_timer S session senderId durationMs conversationId timestamp d) cid := by
  unfold _timer
  dsimp only
  split
  · exact h
  · rename_i c htimer
    split
    · exact h
    · generalize hd₁ : d.patchConversation c.id (fun c => { c with disappearingDuration := durationMs }) = d₁
      have hget : ∀ {k : Text} {c' : ConversationEntity}, d₁.conversations.get k = some c' →
          ∃ c, d.conversations.get k = some c ∧ lastOf c' = lastOf c := by
        intro k c' hc'
        rw [← hd₁,
          conversations_patchConversation (f := fun c => { c with disappearingDuration := durationMs }) fun _ => rfl] at hc'
        split at hc'
        · rename_i hk
          obtain ⟨c₀, hc₀, rfl⟩ := Option.map_eq_some_iff.1 hc'
          exact ⟨c₀, hk ▸ hc₀, rfl⟩
        · exact ⟨c', hc', rfl⟩
      have hmessages : d₁.messages = d.messages := by
        rw [← hd₁]
        rfl
      have hstored : ∀ m, Stored d₁ cid m ↔ Stored d cid m := fun m => by
        unfold Stored
        rw [hmessages]
      have h₁ : Current d₁ cid := h.congr hstored fun c' hc' => hget hc'
      generalize hd₂ : (if (d₁.messages.get (S.timerNoticeId c.id senderId durationMs timestamp)).isSome then d₁ else _)
        = d₂
      have h₂ : Current d₂ cid := by
        rw [← hd₂]
        split
        · exact h₁
        · rename_i hnew
          rw [Bool.not_eq_true, Option.isSome_eq_false_iff, Option.isNone_iff_eq_none] at hnew
          generalize hat : _boundedTimestamp S.now timestamp = at'
          have hlast : ∀ {c' : ConversationEntity} {content : Text} {d₃ : Device},
              (d₃.patchConversation c.id (previewed content at')).conversations.get cid = some c' → if cid = c.id then lastOf c' = (some content, some at',
                  some (contentTypeName .system)) else d₃.conversations.get cid = some c' := by
            intro c' content d₃ hc'
            rw [conversations_patchConversation (f := previewed content at') fun _ => rfl] at hc'
            split
            · rename_i hk
              rw [if_pos hk] at hc'
              obtain ⟨c₀, -, rfl⟩ := Option.map_eq_some_iff.1 hc'
              rfl
            · rename_i hk
              rwa [if_neg hk] at hc'
          refine current_insert (by exact hnew) rfl (fun hc => ?_) fun hc => ⟨h₁, fun c' hc' => ?_⟩
          · rw [hmessages] at hnew
            have hafter : NoneAfter d cid at' := hat ▸ hk c htimer hc hnew
            refine ⟨fun m hm => hafter m ((hstored m).1 hm), fun c' hc' => ?_⟩
            have hl := hlast hc'
            rw [if_pos (show cid = c.id from hc.symm)] at hl
            exact hl
          · have hl := hlast hc'
            rw [if_neg (show cid ≠ c.id from fun he => hc he.symm)] at hl
            exact ⟨c', hl, rfl⟩
      split
      · exact current_map inPlace_expiring shown_expiring rfl rfl h₂
      · exact h₂

theorem current_groupNotice {id groupId content : Text} {timestamp : ℤ} (h : Current d cid)
    (hk : Keeps S cid d (.groupNotice id groupId content timestamp)) :
    Current (_systemMessage S id groupId content timestamp d) cid := by
  unfold _systemMessage
  split
  · exact h
  · rename_i hnew
    rw [Bool.not_eq_true, Option.isSome_eq_false_iff, Option.isNone_iff_eq_none] at hnew
    refine current_insert (by exact hnew) rfl (fun hc => ?_) fun hc => ⟨h, fun c' hc' => ?_⟩
    · have hgroup : groupId = cid := hc
      obtain ⟨hafter, htype⟩ := hk hnew hgroup
      refine ⟨hafter, fun c' hc' => ?_⟩
      have hlast := get_updateLastMessageById hc'
      rw [if_pos hgroup.symm] at hlast
      obtain ⟨c, hc₀, hlast⟩ := hlast
      rw [hlast, show c.lastMessageType = _ from htype c hc₀]
      rfl
    · have hlast := get_updateLastMessageById hc'
      rw [if_neg (show cid ≠ groupId from fun he => hc he.symm)] at hlast
      exact ⟨c', hlast, rfl⟩

theorem current_step {e : Event} (h : Current d cid) (ho : Orderly S cid d e) (hs : step S session d e = some d') :
    Current d' cid := by
  obtain ⟨now, op⟩ := e
  unfold step at hs
  split at hs
  · rename_i hnew
    cases hs
    unfold Orderly at ho
    dsimp only at ho ⊢
    cases op with
    | receive x => exact current_encrypted h ho
    | receiveMedia x => exact current_persistIncoming h ho
    | send request => exact current_send (by simpa [Op.newId] using hnew) h ho
    | sendMedia x status => exact current_persistOutgoing (by simpa [Op.newId] using hnew) h ho
    | edit => exact current_edit h ho
    | deleteForEveryone => exact current_deleteForEveryone h ho
    | deleteLocally => exact current_deleteLocally h ho
    | peerEdits => exact current_peerEdits h ho
    | peerDeletes => exact current_peerDeletes h ho
    | peerSetsTimer => exact current_peerSetsTimer h ho
    | groupNotice => exact current_groupNotice h ho
    | expire => exact current_deleteExpiredMessages h
  · cases hs

/-- **A run of orderly steps leaves each conversation showing its newest message.** -/
theorem preview_current {es : List Event} (h : Current d cid) (hm : Meets (step S session) (Orderly S cid) d es)
    (hr : run (step S session) d es = some d') : Current d' cid :=
  Meets.invariant (fun d => Current d cid) (fun _ _ _ h ho hs => current_step h ho hs) h hm hr

section Sample

theorem noneAfter_of_values {t : ℤ} (h : ∀ m ∈ d.messages.values, m.timestamp ≤ t) : NoneAfter d cid t :=
  fun m hm => h m (Table.mem_values.2 ⟨_, hm.1⟩)

theorem not_current_of_values {c : ConversationEntity} (hc : d.conversations.get cid = some c)
    (hnothing : lastOf c ≠ nothing) (h : ∀ m ∈ d.messages.values, lastOf c = m.shown →
      ∃ m' ∈ d.messages.values, m'.conversationId = cid ∧ m.timestamp < m'.timestamp) : ¬ Current d cid := by
  intro hcurrent
  rcases hcurrent c hc with ⟨m, hm, hshown⟩ | ⟨-, hshown⟩
  · obtain ⟨m', hm', hcid, hlt⟩ := h m (Table.mem_values.2 ⟨_, hm.stored.1⟩) hshown
    exact absurd (hm.le m' ⟨Keyed.mem_values hm', hcid⟩) (not_le.2 hlt)
  · exact hnothing hshown

def listService : Service where
  now := 0
  isValidMessageReaction := fun _ => true
  verifies _ _ := false
  timerNotice _ _ _ _ := []
  timerNoticeId _ _ _ _ := []

def listSession : Session := { userId := some "ali".toList }

def arrival (messageId content : Text) (timestamp : ℤ) : Event :=
  ⟨100, .receive
    { messageId := messageId
      conversationId := "veli".toList
      senderId := "veli".toList
      content := content
      timestamp := timestamp }⟩

/-- Two messages in the order of their times. -/
theorem preview_current_inOrder : ∃ d, run (step listService listSession) {}
    [arrival "m".toList "bir".toList 10, arrival "n".toList "iki".toList 20] = some d ∧ Current d "veli".toList := by
  have hempty : Current {} "veli".toList := fun c hc => by cases hc
  have horderly : Meets (step listService listSession) (Orderly listService "veli".toList) {}
      [arrival "m".toList "bir".toList 10, arrival "n".toList "iki".toList 20] := by
    refine ⟨fun _ _ => noneAfter_of_values (by decide), ?_, trivial⟩
    exact fun _ _ => noneAfter_of_values (by decide +kernel)
  exact ⟨_, rfl, preview_current hempty horderly rfl⟩

/-- **A message that arrives late is shown although it is not the newest**, and a message that a peer has edited is
shown as it was. -/
theorem preview_lateArrival :
    (∃ d, run (step listService listSession) {}
      [arrival "m".toList "iki".toList 20, arrival "n".toList "bir".toList 10] = some d ∧ ¬ Current d "veli".toList) ∧
    ∃ d, run (step listService listSession) {} [arrival "m".toList "iki".toList 20,
      ⟨100, .peerEdits "veli".toList "m".toList "üç".toList 30⟩] = some d ∧ ¬ Current d "veli".toList := by
  refine ⟨⟨_, rfl, not_current_of_values (c := _) rfl ?_ ?_⟩, _, rfl, not_current_of_values (c := _) rfl ?_ ?_⟩
  all_goals decide +kernel

end Sample

end ChatControl
end SecureChat
