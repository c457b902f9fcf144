import SecureChat.ConversationPreview
/-!
# PreviewCurrency — when the message that is shown is the newest

`Current` says that a conversation shows its newest message, or nothing if it has none.  A step keeps that if it meets
`Orderly`: what is written is no older than what is stored, what a peer changes is not what is shown, and the text that
a writer makes is the one that is made when the message is read again.
-/
namespace SecureChat
namespace ChatControl

open Envelope (StorageMessageContentType)
open GroupControl (Text trim)
open Runs (Meets run)
open Storage (ConversationEntity StorageMessageStatus contentTypeName)

/-! ## What is shown -/

abbrev Last := Option Text × Option ℤ × Option Text

def lastOf (c : ConversationEntity) : Last := (c.lastMessage, c.lastMessageTimestamp, c.lastMessageType)

def Message.shown (m : Message) : Last := (some m.preview, some m.timestamp, some (contentTypeName m.contentType))

def nothing : Last := (none, none, none)

def Stored (d : Device) (conversationId : Text) (m : Message) : Prop :=
  d.messages.get m.id = some m ∧ m.conversationId = conversationId

structure Newest (d : Device) (conversationId : Text) (m : Message) : Prop where
  stored : Stored d conversationId m
  le : ∀ m', Stored d conversationId m' → m'.timestamp ≤ m.timestamp

/-- **The conversation shows its newest message**, or nothing. -/
def Current (d : Device) (conversationId : Text) : Prop :=
  ∀ c, d.conversations.get conversationId = some c →
    (∃ m, Newest d conversationId m ∧ lastOf c = m.shown) ∨ (∀ m, ¬ Stored d conversationId m) ∧ lastOf c = nothing

def NoneAfter (d : Device) (conversationId : Text) (timestamp : ℤ) : Prop :=
  ∀ m, Stored d conversationId m → m.timestamp ≤ timestamp

variable {S : Service} {session : Session} {d d' : Device} {cid : Text} {m : Message}

theorem stored_insert {n : Message} (hnew : d.messages.get m.id = none) :
    Stored (d.setMessages (d.messages.insert m)) cid n ↔ (n = m ∧ m.conversationId = cid) ∨ Stored d cid n := by
  show (d.messages.insert m).get n.id = some n ∧ n.conversationId = cid ↔ _
  rw [Keyed.get_insert]
  by_cases hid : n.id = m.id
  · rw [if_pos hid]
    constructor
    · rintro ⟨he, hc⟩
      cases he
      exact .inl ⟨rfl, hc⟩
    · rintro (⟨rfl, hc⟩ | ⟨hs, -⟩)
      · exact ⟨rfl, hc⟩
      · rw [hid, hnew] at hs
        cases hs
  · rw [if_neg hid]
    constructor
    · exact .inr
    · rintro (⟨rfl, -⟩ | hs)
      · exact absurd rfl hid
      · exact hs

theorem Current.congr (h : Current d cid) (hrows : ∀ m, Stored d' cid m ↔ Stored d cid m)
    (hlast : ∀ c', d'.conversations.get cid = some c' → ∃ c, d.conversations.get cid = some c ∧ lastOf c' = lastOf c) :
    Current d' cid := by
  intro c' hc'
  obtain ⟨c, hc, heq⟩ := hlast c' hc'
  rw [heq]
  refine (h c hc).imp (fun hshows => ?_) fun hnone => ?_
  · obtain ⟨m, hm, hshown⟩ := hshows
    exact ⟨m, ⟨(hrows m).2 hm.stored, fun m' hm' => hm.le m' ((hrows m').1 hm')⟩, hshown⟩
  · exact ⟨fun m hm => hnone.1 m ((hrows m).1 hm), hnone.2⟩

theorem conversations_patchConversation {f : ConversationEntity → ConversationEntity} (hf : ∀ c, (f c).id = c.id)
    (k : Text) (d : Device) : (d.patchConversation k f).conversations.get cid =
      if cid = k then (d.conversations.get k).map f else d.conversations.get cid := Keyed.get_patch hf

theorem get_updateLastMessageById {k text : Text} {timestamp : ℤ} {type : Option StorageMessageContentType}
    {outgoing : Option Bool} {status : Option StorageMessageStatus} {c' : ConversationEntity}
    (h : (updateLastMessageById k text timestamp type outgoing status d).conversations.get cid = some c') :
    if cid = k then ∃ c, d.conversations.get cid = some c ∧
      lastOf c' = (some text, some timestamp, (type.map contentTypeName).or c.lastMessageType)
    else d.conversations.get cid = some c' := by
  unfold updateLastMessageById at h
  rw [conversations_patchConversation (f := withLastMessage text timestamp type outgoing status) fun _ => rfl] at h
  split
  · rename_i hk
    subst hk
    rw [if_pos rfl] at h
    obtain ⟨c, hc, rfl⟩ := Option.map_eq_some_iff.1 h
    exact ⟨c, hc, rfl⟩
  · rename_i hk
    rwa [if_neg hk] at h

theorem current_insert (hnew : d.messages.get m.id = none) (hrows : d'.messages = d.messages.insert m)
    (hself : m.conversationId = cid →
      NoneAfter d cid m.timestamp ∧ ∀ c', d'.conversations.get cid = some c' → lastOf c' = m.shown)
    (hother : m.conversationId ≠ cid → Current d cid ∧ ∀ c', d'.conversations.get cid = some c' →
      ∃ c, d.conversations.get cid = some c ∧ lastOf c' = lastOf c) : Current d' cid := by
  have hstored : ∀ n, Stored d' cid n ↔ (n = m ∧ m.conversationId = cid) ∨ Stored d cid n := by
    intro n
    rw [← stored_insert hnew]
    show d'.messages.get n.id = some n ∧ n.conversationId = cid ↔ _
    rw [hrows]
    rfl
  by_cases hc : m.conversationId = cid
  · obtain ⟨hafter, hshown⟩ := hself hc
    intro c' hc'
    refine .inl ⟨m, ⟨(hstored m).2 (.inl ⟨rfl, hc⟩), fun m' hm' => ?_⟩, hshown c' hc'⟩
    rcases (hstored m').1 hm' with ⟨rfl, -⟩ | hm'
    · exact le_refl _
    · exact hafter m' hm'
  · obtain ⟨h, hlast⟩ := hother hc
    refine h.congr (fun n => ⟨fun hn => ?_, fun hn => (hstored n).2 (.inr hn)⟩) hlast
    exact ((hstored n).1 hn).resolve_left fun hm => hc hm.2

theorem current_store {text : Text} {status : Option StorageMessageStatus} (hnew : d.messages.get m.id = none)
    (hother : m.conversationId ≠ cid → Current d cid)
    (hshown : m.conversationId = cid → NoneAfter d cid m.timestamp ∧ text = m.preview) :
    Current (store m text status d) cid := by
  refine current_insert hnew rfl (fun hc => ?_) fun hc => ?_
  · obtain ⟨hafter, rfl⟩ := hshown hc
    refine ⟨hafter, fun c' hc' => ?_⟩
    have hlast := get_updateLastMessageById hc'
    rw [if_pos hc.symm] at hlast
    obtain ⟨c, -, hlast⟩ := hlast
    exact hlast
  · refine ⟨hother hc, fun c' hc' => ?_⟩
    have hlast := get_updateLastMessageById hc'
    rw [if_neg fun h => hc h.symm] at hlast
    exact ⟨c', hlast, rfl⟩

theorem current_incrementUnreadCount {peerId : Text} (h : Current d cid) :
    Current (incrementUnreadCount peerId d) cid := by
  refine h.congr (fun m => Iff.rfl) fun c' hc' => ?_
  have hget : (d.conversations.map (unread peerId) (id_unread peerId)).get cid = some c' := hc'
  rw [Keyed.get_map] at hget
  obtain ⟨c, hc, rfl⟩ := Option.map_eq_some_iff.1 hget
  refine ⟨c, hc, ?_⟩
  unfold unread
  split <;> rfl

theorem messages_openConversation {c : ConversationEntity} : (openConversation c d).messages = d.messages := by
  unfold openConversation
  split <;> rfl

theorem stored_openConversation {c : ConversationEntity} : Stored (openConversation c d) cid m ↔ Stored d cid m := by
  unfold Stored
  rw [messages_openConversation]

theorem current_openConversation {c : ConversationEntity} (h : Current d cid) (hc : c.id ≠ cid) :
    Current (openConversation c d) cid := by
  refine h.congr (fun m => stored_openConversation) fun c' hc' => ⟨c', ?_, rfl⟩
  unfold openConversation at hc'
  split at hc'
  · exact hc'
  · have hget : (d.conversations.insert c).get cid = some c' := hc'
    rwa [Keyed.get_insert_of_ne fun he => hc he.symm] at hget

/-! ## Reading the newest message again -/

theorem mem_insertionSort_latest {k : Text} : m ∈ (d.messages.values.filter fun m =>
    decide (m.conversationId = k)).insertionSort (fun a b => b.timestamp ≤ a.timestamp) ↔ Stored d k m := by
  rw [List.mem_insertionSort, List.mem_filter, decide_eq_true_eq]
  refine and_congr_left fun _ => ⟨fun h => Keyed.mem_values h, fun h => ?_⟩
  exact Table.mem_values.2 ⟨_, h⟩

theorem newest_of_latest {k : Text} (h : latest k d = some m) : Newest d k m := by
  have hmem := List.mem_of_head? h
  refine ⟨mem_insertionSort_latest.1 hmem, fun m' hm' => ?_⟩
  have : Std.Total fun a b : Message => b.timestamp ≤ a.timestamp := ⟨fun a b => le_total _ _⟩
  have : IsTrans Message fun a b => b.timestamp ≤ a.timestamp := ⟨fun a b c hab hbc => le_trans hbc hab⟩
  have hsorted := List.pairwise_insertionSort (fun a b : Message => b.timestamp ≤ a.timestamp)
    (d.messages.values.filter fun m => decide (m.conversationId = k))
  have hin := mem_insertionSort_latest.2 hm'
  unfold latest at h
  generalize (d.messages.values.filter fun m => decide (m.conversationId = k)).insertionSort
    (fun a b => b.timestamp ≤ a.timestamp) = l at h hsorted hin
  cases l with
  | nil => cases h
  | cons x l =>
    cases h
    rcases List.mem_cons.1 hin with rfl | hin
    · exact le_refl _
    · exact (List.pairwise_cons.1 hsorted).1 m' hin

theorem not_stored_of_latest {k : Text} (h : latest k d = none) : ¬ Stored d k m := by
  intro hm
  have hmem := mem_insertionSort_latest.2 hm
  unfold latest at h
  rw [List.head?_eq_none_iff] at h
  rw [h] at hmem
  cases hmem

theorem current_clearLastMessage {k : Text} (h : k ≠ cid → Current d cid) (hnone : k = cid → ∀ m, ¬ Stored d cid m) :
    Current (clearLastMessage k d) cid := by
  have hget : (clearLastMessage k d).conversations.get cid =
      if cid = k then (d.conversations.get k).map _withoutLastMessage else d.conversations.get cid :=
    conversations_patchConversation (f := _withoutLastMessage) (fun _ => rfl) k d
  by_cases hk : k = cid
  · intro c' hc'
    rw [hget, if_pos hk.symm] at hc'
    obtain ⟨c, -, rfl⟩ := Option.map_eq_some_iff.1 hc'
    exact .inr ⟨hnone hk, rfl⟩
  · refine (h hk).congr (fun m => Iff.rfl) fun c' hc' => ⟨c', ?_, rfl⟩
    rwa [hget, if_neg fun he => hk he.symm] at hc'

/-- The text with which a conversation is shown again is that of its newest message. -/
def Legible (k : Text) (d : Device) : Prop := ∀ m, latest k d = some m → m.refreshed = m.preview

theorem current_refreshLastMessage {k : Text} (h : k ≠ cid → Current d cid) (hlegible : k = cid → Legible cid d) :
    Current (_refreshLastMessage k d) cid := by
  unfold _refreshLastMessage
  cases hm : latest k d with
  | none =>
    refine current_clearLastMessage h fun hk m hs => ?_
    subst hk
    exact not_stored_of_latest hm hs
  | some m =>
    dsimp only
    by_cases hk : k = cid
    · subst hk
      intro c' hc'
      have hlast := get_updateLastMessageById hc'
      rw [if_pos rfl, hlegible rfl m hm] at hlast
      obtain ⟨c, -, hlast⟩ := hlast
      exact .inl ⟨m, newest_of_latest hm, hlast⟩
    · refine (h hk).congr (fun m => Iff.rfl) fun c' hc' => ?_
      have hlast := get_updateLastMessageById hc'
      rw [if_neg fun he => hk he.symm] at hlast
      exact ⟨c', hlast, rfl⟩

/-! ## Changes of a row -/

theorem messages_patchMessage {id k : Text} {f : Message → Message} (hf : ∀ m, (f m).id = m.id) :
    (d.patchMessage id f).messages.get k = if k = id then (d.messages.get id).map f else d.messages.get k :=
  Keyed.get_patch hf

structure InPlace (f : Message → Message) : Prop where
  id : ∀ m, (f m).id = m.id
  conversationId : ∀ m, (f m).conversationId = m.conversationId
  timestamp : ∀ m, (f m).timestamp = m.timestamp

variable {f : Message → Message} {id : Text}

def changed (id : Text) (f : Message → Message) (m : Message) : Message := if m.id = id then f m else m

theorem id_changed (hf : InPlace f) (m : Message) : (changed id f m).id = m.id := by
  unfold changed
  split
  · exact hf.id m
  · rfl

theorem conversationId_changed (hf : InPlace f) (m : Message) : (changed id f m).conversationId = m.conversationId := by
  unfold changed
  split
  · exact hf.conversationId m
  · rfl

theorem timestamp_changed (hf : InPlace f) (m : Message) : (changed id f m).timestamp = m.timestamp := by
  unfold changed
  split
  · exact hf.timestamp m
  · rfl

theorem stored_changed (hf : InPlace f) (h : Stored d cid m) : Stored (d.patchMessage id f) cid (changed id f m) := by
  refine ⟨?_, (conversationId_changed hf m).trans h.2⟩
  rw [id_changed hf, messages_patchMessage hf.id]
  unfold changed
  split
  · rename_i hid
    rw [← hid, h.1]
    rfl
  · exact h.1

theorem stored_patchMessage (hf : InPlace f) (h : Stored (d.patchMessage id f) cid m) :
    ∃ m', Stored d cid m' ∧ m = changed id f m' := by
  obtain ⟨hget, hc⟩ := h
  rw [messages_patchMessage hf.id] at hget
  split at hget
  · rename_i hid
    obtain ⟨m', hm', rfl⟩ := Option.map_eq_some_iff.1 hget
    have hid' : m'.id = id := (hf.id m').symm.trans hid
    refine ⟨m', ⟨?_, (hf.conversationId m').symm.trans hc⟩, ?_⟩
    · rw [hid']
      exact hm'
    · exact (if_pos hid').symm
  · rename_i hid
    exact ⟨m, ⟨hget, hc⟩, (if_neg hid).symm⟩

/-- The message that is shown is not the one that is changed, or shows the same afterwards. -/
def Unseen (d : Device) (cid id : Text) (f : Message → Message) : Prop :=
  ∀ c, d.conversations.get cid = some c →
    ∃ m, Newest d cid m ∧ lastOf c = m.shown ∧ (m.id = id → (f m).shown = m.shown)

theorem current_patchMessage (hf : InPlace f)
    (h : Current d cid) (hunseen : ∀ m, d.messages.get id = some m → m.conversationId = cid → Unseen d cid id f) :
    Current (d.patchMessage id f) cid := by
  intro c hc
  have hc' : d.conversations.get cid = some c := hc
  have hnewest : ∀ m, Newest d cid m → Newest (d.patchMessage id f) cid (changed id f m) := by
    intro m hm
    refine ⟨stored_changed hf hm.stored, fun n hn => ?_⟩
    obtain ⟨m', hm', rfl⟩ := stored_patchMessage hf hn
    rw [timestamp_changed hf, timestamp_changed hf]
    exact hm.le m' hm'
  rcases h c hc' with ⟨m, hm, hshown⟩ | ⟨hnone, hshown⟩
  · by_cases hid : m.id = id
    · obtain ⟨n, hn, hn', hsame⟩ := hunseen m (hid ▸ hm.stored.1) hm.stored.2 c hc'
      refine .inl ⟨changed id f n, hnewest n hn, hn'.trans ?_⟩
      unfold changed
      split
      · rename_i hnid
        exact (hsame hnid).symm
      · rfl
    · refine .inl ⟨changed id f m, hnewest m hm, hshown.trans ?_⟩
      rw [changed, if_neg hid]
  · refine .inr ⟨fun m hm => ?_, hshown⟩
    obtain ⟨m', hm', -⟩ := stored_patchMessage hf hm
    exact hnone m' hm'

theorem inPlace_deletedMessage : InPlace deletedMessage := ⟨fun _ => rfl, fun _ => rfl, fun _ => rfl⟩

theorem inPlace_editedMessage {content before : Text} {editedAt : ℤ} :
    InPlace (editedMessage content editedAt before) :=
  ⟨fun _ => rfl, fun _ => rfl, fun _ => rfl⟩

theorem current_map (hf : InPlace f) (hsame : ∀ m, (f m).shown = m.shown) (hrows : d'.messages = d.messages.map f hf.id)
    (hconversations : d'.conversations = d.conversations) (h : Current d cid) : Current d' cid := by
  have hget : ∀ k, d'.messages.get k = (d.messages.get k).map f := by
    intro k
    rw [hrows]
    exact Keyed.get_map f hf.id
  have hto : ∀ m, Stored d cid m → Stored d' cid (f m) := by
    rintro m ⟨hm, hc⟩
    refine ⟨?_, (hf.conversationId m).trans hc⟩
    rw [hf.id, hget, hm]
    rfl
  have hfrom : ∀ m', Stored d' cid m' → ∃ m, Stored d cid m ∧ m' = f m := by
    rintro m' ⟨hm', hc⟩
    rw [hget] at hm'
    obtain ⟨m, hm, rfl⟩ := Option.map_eq_some_iff.1 hm'
    rw [hf.id] at hm
    exact ⟨m, ⟨hm, (hf.conversationId m).symm.trans hc⟩, rfl⟩
  intro c hc
  rw [hconversations] at hc
  rcases h c hc with ⟨m, hm, hshown⟩ | ⟨hnone, hshown⟩
  · refine .inl ⟨f m, ⟨hto m hm.stored, fun n hn => ?_⟩, hshown.trans (hsame m).symm⟩
    obtain ⟨n', hn', rfl⟩ := hfrom n hn
    rw [hf.timestamp, hf.timestamp]
    exact hm.le n' hn'
  · refine .inr ⟨fun m hm => ?_, hshown⟩
    obtain ⟨m', hm', -⟩ := hfrom m hm
    exact hnone m' hm'

theorem stored_removeMessage : Stored (removeMessage id d) cid m ↔ Stored d cid m ∧ m.id ≠ id := by
  unfold Stored removeMessage
  show ((d.messages.filter _).get m.id = some m ∧ _) ↔ _
  rw [Keyed.get_filter_eq_some, decide_eq_true_eq]
  tauto

/-! ## What expires -/

theorem stored_filter {now : ℤ} : Stored (d.setMessages (d.messages.filter fun m => !expired now m)) cid m ↔
    Stored d cid m ∧ expired now m = false := by
  unfold Stored
  show ((d.messages.filter _).get m.id = some m ∧ _) ↔ _
  rw [Keyed.get_filter_eq_some, Bool.not_eq_true']
  tauto

theorem current_deleteExpiredMessages {now : ℤ} (h : Current d cid) : Current (deleteExpiredMessages now d) cid := by
  intro c' hc'
  unfold deleteExpiredMessages at hc'
  generalize hd : d.setMessages (d.messages.filter fun m => !expired now m) = d₁ at hc'
  have hget : (d₁.conversations.map (recomputedIfAffected (d.messages.values.filter (expired now)) d₁)
      (id_recomputedIfAffected _ d₁)).get cid = some c' := hc'
  rw [Keyed.get_map] at hget
  obtain ⟨c, hc, rfl⟩ := Option.map_eq_some_iff.1 hget
  have hid : c.id = cid := Keyed.key_of_get hc
  have hstored : ∀ m, Stored (deleteExpiredMessages now d) cid m ↔ Stored d₁ cid m := fun m => by
    rw [← hd]
    rfl
  unfold recomputedIfAffected
  by_cases haffected : ((d.messages.values.filter (expired now)).any fun m => decide (m.conversationId = c.id)) = true
  · rw [if_pos haffected]
    unfold recomputed
    rw [hid]
    cases hm : latest cid d₁ with
    | none => exact .inr ⟨fun m hs => not_stored_of_latest hm ((hstored m).1 hs), rfl⟩
    | some m =>
      have hnewest := newest_of_latest hm
      exact .inl ⟨m, ⟨(hstored m).2 hnewest.stored, fun n hn => hnewest.le n ((hstored n).1 hn)⟩, rfl⟩
  · rw [if_neg haffected]
    have hsame : ∀ m, Stored (deleteExpiredMessages now d) cid m ↔ Stored d cid m := by
      intro m
      rw [hstored, ← hd, stored_filter, and_iff_left_iff_imp]
      intro hm
      by_contra hexpired
      rw [Bool.not_eq_false] at hexpired
      refine haffected (List.any_eq_true.2 ⟨m, List.mem_filter.2 ⟨Table.mem_values.2 ⟨_, hm.1⟩, hexpired⟩, ?_⟩)
      exact decide_eq_true (hm.2.trans hid.symm)
    have hc₀ : d.conversations.get cid = some c := by
      rw [← hd] at hc
      exact hc
    rcases h c hc₀ with ⟨m, hm, hshown⟩ | ⟨hnone, hshown⟩
    · exact .inl ⟨m, ⟨(hsame m).2 hm.stored, fun n hn => hm.le n ((hsame n).1 hn)⟩, hshown⟩
    · exact .inr ⟨fun m hm => hnone m ((hsame m).1 hm), hshown⟩

end ChatControl
end SecureChat
