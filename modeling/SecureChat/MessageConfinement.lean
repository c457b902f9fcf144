import SecureChat.MessageRoutes
/-!
# MessageConfinement — whose conversation an incoming message ends up in

The handler takes a message's conversation from the id alone: what a peer sends directly goes to the conversation under
its id, and what it sends to a group to the one under the group's.  As long as no group has the id of a user the two
never meet, and `confined_run` says that then nothing sent directly is seen or answered by anyone else.  Only routed text
is checked against the roster: `posted_run` says what the other routes need.
-/
namespace SecureChat
namespace Routes

open GroupControl Runs
open Incoming (EncryptedSignal)

variable {K : Type} {f : Formats K} {isUser : Text → Prop} {s s' : Phone K}

/-- What was sent directly stands in the conversation with its sender, where an answer goes to the sender alone; what was
sent to a group stands in that group. -/
def Confined (s : Phone K) : Prop :=
  ∀ id m, s.messages.get id = some m → m.isOutgoing = false →
    match m.sentTo with
    | none => m.conversationId = m.senderId ∧ s.recipients m.conversationId = [m.senderId] ∧
      ∃ c, s.device.conversations.get m.conversationId = some c ∧ c.isGroup = false
    | some groupId => m.conversationId = groupId ∧
      ∃ c, s.device.conversations.get m.conversationId = some c ∧ c.isGroup = true

/-- What stands in a group came from someone who was, like the local user, on its roster when it was handled. -/
def Posted (s : Phone K) : Prop :=
  ∀ id m, s.messages.get id = some m → m.isOutgoing = false →
    ∀ c, s.device.conversations.get m.conversationId = some c → c.isGroup = true → m.rostered = true

def Event.users (s : Phone K) : Event → List Text
  | .encrypted e => [e.senderId]
  | .file x _ _ => [x.senderId]
  | .sendMessage _ conversationId => if (s.device.conversations.get conversationId).isNone then [conversationId] else []
  | .ensureConversation contactId _ => [contactId]
  | _ => []

def Event.group (f : Formats K) (s : Phone K) : Event → Option Text
  | .encrypted e => (s.opened f e).2.bind fun o =>
    if isPrivateGroupControl o.plaintext then
      ((f.decodePrivateGroupControl o.plaintext e.senderId).filter fun signal =>
        decide (signal.action = .CREATE ∨ signal.action = .PREPARE_CALL)).map GroupNotificationSignal.groupId
    else if o.isGroup then some o.conversationId
    else none
  | .notification signal => if signal.action = .CREATE then some signal.groupId else none
  | .file x callRoute _ => (s.openedFile f x callRoute).2.bind Prod.fst
  | .createGroup groupId _ _ => some groupId
  | _ => none

/-- The condition on an event: users' ids are brought in as users, and no group has the id of a user. -/
def Event.Separates (isUser : Text → Prop) (f : Formats K) (s : Phone K) (x : Event) : Prop :=
  (∀ id ∈ x.users s, isUser id) ∧ ∀ groupId ∈ x.group f s, ¬ isUser groupId

/-- The group and the sender of an event that is not checked against the roster: an envelope of the old kind, and every
file for a group. -/
def Event.unchecked (f : Formats K) (s : Phone K) : Event → Option (Text × Text)
  | .encrypted e =>
    if isGroupEnvelope e.envelope then (s.opened f e).2.map fun o => (o.conversationId, e.senderId) else none
  | .file x callRoute _ => (s.openedFile f x callRoute).2.bind fun o => o.1.map fun groupId => (groupId, x.senderId)
  | _ => none

def Event.Admissible (isUser : Text → Prop) (f : Formats K) (s : Phone K) (x : Event) : Prop :=
  x.Separates isUser f s ∧ ∀ r ∈ x.unchecked f s, rostered s.device r.1 r.2 = true

/-- What may be stored: a sender, the group it was sent to, and whether both were on its roster. -/
abbrev Rule := Text → Option Text → Bool → Prop

def Separated (isUser : Text → Prop) : Rule := fun senderId sentTo _ =>
  isUser senderId ∧ ∀ groupId ∈ sentTo, ¬ isUser groupId

/-- And to a group only by someone on its roster. -/
def Checked (isUser : Text → Prop) : Rule := fun senderId sentTo onRoster =>
  Separated isUser senderId sentTo onRoster ∧ (sentTo.isSome = true → onRoster = true)

/-- Users' conversations stand under users' ids and groups under others, and what is stored or kept meets the rule. -/
structure Sound (isUser : Text → Prop) (rule : Rule) (s : Phone K) : Prop where
  rows : ∀ id c, s.device.conversations.get id = some c → (c.isGroup = true ↔ ¬ isUser id)
  messages : ∀ id m, s.messages.get id = some m → m.isOutgoing = false → rule m.senderId m.sentTo m.rostered ∧
    m.conversationId = m.sentTo.getD m.senderId ∧ (s.device.conversations.get m.conversationId).isSome
  blobs : ∀ id r, s.incomingBlobs.get id = some r → rule r.senderId r.groupId r.rostered

variable {rule : Rule}

theorem Sound.confined (hs : Sound isUser (Separated isUser) s) : Confined s := by
  intro id m hm hin
  obtain ⟨⟨huser, hgroup⟩, hconversation, hrow⟩ := hs.messages id m hm hin
  obtain ⟨c, hc⟩ := Option.isSome_iff_exists.1 hrow
  split
  · rename_i hsent
    rw [hsent, Option.getD_none] at hconversation
    have hdirect : c.isGroup = false := by
      rw [← Bool.not_eq_true, hs.rows _ c hc, hconversation]
      exact not_not.2 huser
    refine ⟨hconversation, ?_, c, hc, hdirect⟩
    rw [Phone.recipients, hc]
    cases s.device.userId with
    | none => rw [hconversation]
    | some _ => simp only [hdirect, Bool.false_eq_true, if_false, hconversation]
  · rename_i groupId hsent
    rw [hsent, Option.getD_some] at hconversation
    exact ⟨hconversation, c, hc, (hs.rows _ c hc).2 (hconversation ▸ hgroup groupId hsent)⟩

theorem Sound.posted (hs : Sound isUser (Checked isUser) s) : Posted s := by
  intro id m hm hin c hc hkind
  obtain ⟨⟨⟨huser, -⟩, hroster⟩, hconversation, -⟩ := hs.messages id m hm hin
  cases hsent : m.sentTo with
  | none =>
    rw [hsent, Option.getD_none] at hconversation
    exact absurd huser (hconversation ▸ (hs.rows _ c hc).1 hkind)
  | some groupId => exact hroster (by rw [hsent]; rfl)

section Rows

variable {d d' : Device} {id g : Text}

/-- No conversation is lost or turns from a group into a direct one, and a new one is of the kind its id says. -/
structure Grows (isUser : Text → Prop) (d d' : Device) : Prop where
  kept : ∀ id c, d.conversations.get id = some c → (d'.conversations.get id).isSome
  rows : ∀ id c', d'.conversations.get id = some c' →
    (∃ c, d.conversations.get id = some c ∧ c'.isGroup = c.isGroup) ∨ (c'.isGroup = true ↔ ¬ isUser id)

theorem Grows.refl : Grows isUser d d :=
  ⟨fun _ _ h => Option.isSome_iff_exists.2 ⟨_, h⟩, fun _ c' h => .inl ⟨c', h, rfl⟩⟩

theorem Grows.trans {d'' : Device} (h : Grows isUser d d') (h' : Grows isUser d' d'') : Grows isUser d d'' := by
  refine ⟨fun id c hc => ?_, fun id c'' hc'' => ?_⟩
  · obtain ⟨c', hc'⟩ := Option.isSome_iff_exists.1 (h.kept id c hc)
    exact h'.kept id c' hc'
  · rcases h'.rows id c'' hc'' with ⟨c', hc', hsame⟩ | hnew
    · rcases h.rows id c' hc' with ⟨c, hc, hsame'⟩ | hnew
      · exact .inl ⟨c, hc, hsame.trans hsame'⟩
      · exact .inr (hsame ▸ hnew)
    · exact .inr hnew

theorem Grows.of_kinds (h : ∀ id, (d'.conversations.get id).map ConversationEntity.isGroup =
    (d.conversations.get id).map ConversationEntity.isGroup) : Grows isUser d d' := by
  refine ⟨fun id c hc => ?_, fun id c' hc' => ?_⟩
  · have hid := h id
    rw [hc] at hid
    obtain ⟨c', hc', -⟩ := Option.map_eq_some_iff.1 hid
    exact Option.isSome_iff_exists.2 ⟨c', hc'⟩
  · have hid := h id
    rw [hc'] at hid
    obtain ⟨c, hc, hsame⟩ := Option.map_eq_some_iff.1 hid.symm
    exact .inl ⟨c, hc, hsame.symm⟩

theorem Grows.addConversation {c : ConversationEntity} (hnone : d.conversations.get id = none)
    (hkind : c.isGroup = true ↔ ¬ isUser id) : Grows isUser d (addConversation d id c) := by
  refine ⟨fun k c' hc' => ?_, fun k c' hc' => ?_⟩
  · have hk : k ≠ id := by
      rintro rfl
      cases hnone.symm.trans hc'
    have hget : (Routes.addConversation d id c).conversations.get k = some c' := (Table.get_put_of_ne hk).trans hc'
    rw [hget]
    rfl
  · by_cases hk : k = id
    · subst hk
      cases Table.get_put_self.symm.trans hc'
      exact .inr hkind
    · exact .inl ⟨c', (Table.get_put_of_ne hk).symm.trans hc', rfl⟩

theorem notify_grows {photoAccepted : Text → Bool} {signal : GroupNotificationSignal}
    (hcreate : signal.action = .CREATE → ¬ isUser signal.groupId) :
    Grows isUser d (d._groupNotification photoAccepted signal) := by
  cases hget : d.conversations.get signal.groupId with
  | none =>
    cases haction : signal.action with
    | CREATE =>
      have he : d._groupNotification photoAccepted signal = d.insertGroup photoAccepted signal := notify_create haction hget
      rw [he, Device.insertGroup]
      split
      · exact .refl
      · split
        · exact .refl
        · exact .addConversation hget ⟨fun _ => hcreate haction, fun _ => rfl⟩
    | _ =>
      have he : d._groupNotification photoAccepted signal = d := by rw [Device._groupNotification, haction, hget]
      rw [he]
      exact .refl
  | some c =>
    obtain ⟨c', hget', hstep⟩ := Device.row_step photoAccepted hget
    refine .of_kinds fun id => ?_
    by_cases hid : id = signal.groupId
    · rw [hid, hget, hget', Option.map_some, Option.map_some]
      cases hstep with
      | merge _ _ hgroup _ _ => rw [hgroup]
      | remove _ _ _ hgroup _ hgroup' _ _ => rw [hgroup, hgroup']
      | profile hgroup _ hgroup' _ _ => rw [hgroup, hgroup']
      | _ => rfl
    · exact congrArg _ (Device.row_of_ne photoAccepted hid)

theorem prepare_grows {photoAccepted : Text → Bool} {control : GroupNotificationSignal}
    (hgroup : ¬ isUser control.groupId) : Grows isUser d (_preparePrivateGroupCall photoAccepted d control) := by
  unfold _preparePrivateGroupCall
  split
  · split
    · exact notify_grows fun _ => hgroup
    · exact .refl
  · exact .refl

theorem patch_grows {f : ConversationEntity → ConversationEntity} (hf : ∀ c, (f c).isGroup = c.isGroup) :
    Grows isUser d (d.patch g f) := by
  refine .of_kinds fun id => ?_
  by_cases hid : id = g
  · rw [hid, Device.patch_get_self, Option.map_map]
    exact congrArg (fun k => (d.conversations.get g).map k) (funext hf)
  · rw [Device.patch_get_of_ne f hid]

theorem updateGroupMembers_grows (ids : List Text) : Grows isUser d (d.updateGroupMembers g ids) := patch_grows fun _ => rfl

theorem updateGroupAdmins_grows (ids : List Text) : Grows isUser d (d.updateGroupAdmins g ids) := patch_grows fun _ => rfl

theorem Grows.of_eq (h : d'.conversations = d.conversations) : Grows isUser d d' := .of_kinds fun id => by rw [h]

theorem perform_grows {act : Act} {own : Device} {dispatches : List Dispatch}
    (h : d.perform g act = some (own, dispatches)) : Grows isUser d own := by
  cases act with
  | change change =>
    obtain ⟨state, hstate, he⟩ := Option.map_eq_some_iff.1 h
    cases he
    cases change with
    | addMembers ids =>
      rw [operate_addMembers hstate]
      have hclear := (foldl_clear (g := g) (fun id => id ∈ state.additions ids) ids
        (d.updateGroupMembers g (state.updated (.addMembers ids)))).1
      exact (updateGroupMembers_grows _).trans (.of_eq hclear)
    | removeMember target =>
      have hlists : Grows isUser d (if target ∈ state.admins then
          (d.updateGroupMembers g (state.updated (.removeMember target))).updateGroupAdmins g
            (state.admins.filter fun id => decide (id ≠ target))
          else d.updateGroupMembers g (state.updated (.removeMember target))) := by
        split
        · exact (updateGroupMembers_grows _).trans (updateGroupAdmins_grows _)
        · exact updateGroupMembers_grows _
      rw [operate_removeMember hstate]
      exact hlists.trans (.of_eq rfl)
  | promote memberId =>
    rw [Device.perform, Device.promoteToAdmin] at h
    split at h
    · cases h
    · split at h
      · cases h
      · cases h
        exact patch_grows fun _ => rfl
  | leave =>
    rw [Device.perform, Device._leaveGroup] at h
    split at h
    · split at h
      · cases h
      · cases h
        refine patch_grows fun c => ?_
        split <;> rfl
    · cases h

end Rows

section Steps

theorem Sound.grow (hs : Sound isUser rule s) (hdevice : Grows isUser s.device s'.device)
    (hmessages : s'.messages = s.messages) (hblobs : s'.incomingBlobs = s.incomingBlobs) : Sound isUser rule s' := by
  refine ⟨fun id c' hc' => ?_, fun id m hm hin => ?_, fun id r hr => hs.blobs id r (hblobs ▸ hr)⟩
  · rcases hdevice.rows id c' hc' with ⟨c, hc, hsame⟩ | hnew
    · rw [hsame]
      exact hs.rows id c hc
    · exact hnew
  · obtain ⟨hrule, hconversation, hrow⟩ := hs.messages id m (hmessages ▸ hm) hin
    obtain ⟨c, hc⟩ := Option.isSome_iff_exists.1 hrow
    exact ⟨hrule, hconversation, hdevice.kept _ c hc⟩

theorem Sound.keys (hs : Sound isUser rule s) (keys : K) : Sound isUser rule { s with keys } := hs.grow .refl rfl rfl

theorem insert_grows (messageId peerName : Text) {m : Message}
    (hrow : s.device.conversations.get m.conversationId = none → (m.sentTo.isSome = true ↔ ¬ isUser m.conversationId)) :
    Grows isUser s.device (s.insert messageId m peerName).device ∧
      ((s.insert messageId m peerName).device.conversations.get m.conversationId).isSome := by
  rw [Phone.insert]
  dsimp only
  split
  · rename_i c hc
    exact ⟨.refl, Option.isSome_iff_exists.2 ⟨c, hc⟩⟩
  · rename_i hnone
    refine ⟨.addConversation hnone (hrow hnone), ?_⟩
    have hget : (addConversation s.device m.conversationId (newConversation peerName m.sentTo.isSome
        (if m.sentTo.isSome then some m.senderId else none) none)).conversations.get m.conversationId = some _ :=
      Table.get_put_self
    rw [hget]
    rfl

theorem Sound.insert (hs : Sound isUser rule s) (messageId peerName : Text) {m : Message}
    (hrow : s.device.conversations.get m.conversationId = none → (m.sentTo.isSome = true ↔ ¬ isUser m.conversationId))
    (hin : m.isOutgoing = false → rule m.senderId m.sentTo m.rostered ∧ m.conversationId = m.sentTo.getD m.senderId) :
    Sound isUser rule (s.insert messageId m peerName) := by
  obtain ⟨hgrows, hthere⟩ := insert_grows messageId peerName hrow
  have hrows : Sound isUser rule { s with device := (s.insert messageId m peerName).device } := hs.grow hgrows rfl rfl
  refine ⟨hrows.rows, fun id m' hm' hin' => ?_, hs.blobs⟩
  by_cases hid : id = messageId
  · subst hid
    cases Table.get_put_self.symm.trans hm'
    obtain ⟨hrule, hconversation⟩ := hin hin'
    exact ⟨hrule, hconversation, hthere⟩
  · exact hrows.messages id m' ((Table.get_put_of_ne hid).symm.trans hm') hin'

variable (hrule : ∀ {senderId sentTo onRoster}, rule senderId sentTo onRoster → Separated isUser senderId sentTo onRoster)

include hrule

theorem Sound.incoming (hs : Sound isUser rule s) (messageId peerName : Text) {senderId : Text}
    {sentTo : Option Text} {onRoster : Bool} (h : rule senderId sentTo onRoster) :
    Sound isUser rule (s.insert messageId ⟨sentTo.getD senderId, senderId, false, sentTo, onRoster⟩ peerName) := by
  refine hs.insert _ _ (fun _ => ?_) fun _ => ⟨h, rfl⟩
  cases sentTo with
  | none => exact ⟨nofun, fun hno => absurd (hrule h).1 hno⟩
  | some groupId => exact ⟨fun _ => (hrule h).2 groupId rfl, fun _ => rfl⟩

omit hrule in
theorem Sound.blob (hs : Sound isUser rule s) {transferId : Text} {r : ReceivedFile}
    (hr : rule r.senderId r.groupId r.rostered) :
    Sound isUser rule { s with incomingBlobs := s.incomingBlobs.put transferId r } := by
  refine ⟨hs.rows, hs.messages, fun id r' hr' => ?_⟩
  by_cases hid : id = transferId
  · subst hid
    cases Table.get_put_self.symm.trans hr'
    exact hr
  · exact hs.blobs id r' ((Table.get_put_of_ne hid).symm.trans hr')

theorem Sound.persist (hs : Sound isUser rule s) {r : ReceivedFile} (hr : rule r.senderId r.groupId r.rostered) :
    Sound isUser rule (s._persistIncoming f r) := by
  rw [Phone._persistIncoming]
  dsimp only
  split
  · exact hs
  · split <;> split
    · exact hs
    · exact hs.incoming hrule _ _ hr
    · exact hs
    · exact hs.incoming hrule _ _ hr

theorem Sound.fetchBlob (hs : Sound isUser rule s) (transferId : Text) : Sound isUser rule (s.fetchBlob f transferId) := by
  rw [Phone.fetchBlob]
  split
  · exact hs
  · rename_i r hr
    have hremoved : Sound isUser rule { s with incomingBlobs := s.incomingBlobs.remove transferId } := by
      refine ⟨hs.rows, hs.messages, fun id r' hr' => ?_⟩
      by_cases hid : id = transferId
      · subst hid
        cases Table.get_remove_self.symm.trans hr'
      · exact hs.blobs id r' ((Table.get_remove_of_ne hid).symm.trans hr')
    exact hremoved.persist hrule (hs.blobs _ r hr)

theorem Sound.receiveFile (hs : Sound isUser rule s) {x : FileTransferSignal} {callRoute : Option Text}
    {completed : Option (Option Text)} (hx : ∀ o ∈ (s.openedFile f x callRoute).2,
      rule x.senderId o.1 (rostered s.device (o.1.getD x.senderId) x.senderId)) :
    Sound isUser rule (s.receiveFile f x callRoute completed) := by
  rw [Phone.receiveFile]
  split
  · exact hs.keys _
  · rename_i keys groupId plaintext hopened
    have hgood := hx (groupId, plaintext) (by rw [hopened]; rfl)
    dsimp only
    split
    · split
      · exact hs.keys _
      · exact (hs.keys keys).blob hgood
    · split
      · exact hs.keys _
      · exact (hs.keys keys).persist hrule hgood

theorem Sound.storeText (hs : Sound isUser rule s) {e : EncryptedSignal Text} {o : Opened} (messageId : Text)
    (ho : o.conversationId = (if o.isGroup then some o.conversationId else none).getD e.senderId)
    (hgood : rule e.senderId (if o.isGroup then some o.conversationId else none)
      (rostered s.device o.conversationId e.senderId)) : Sound isUser rule (s.storeText f e o messageId) := by
  rw [Phone.storeText]
  split
  · exact hs
  · have hseen : Sound isUser rule { s with seenMessageIds := messageId :: s.seenMessageIds } := hs.grow .refl rfl rfl
    dsimp only
    split
    · exact hseen
    · have hrow := hseen.incoming hrule messageId (Phone.incomingName f ⟨o.conversationId, e.senderId, false,
        if o.isGroup then some o.conversationId else none, rostered s.device o.conversationId e.senderId⟩) hgood
      rw [← ho] at hrow
      exact hrow

omit hrule in
theorem Sound.acceptBlobPointer (hs : Sound isUser rule s) {senderId payload : Text} {groupId : Option Text}
    (hgood : rule senderId groupId (rostered s.device (groupId.getD senderId) senderId)) :
    Sound isUser rule (s.acceptBlobPointer f senderId groupId payload) := by
  rw [Phone.acceptBlobPointer]
  split
  · exact hs
  · dsimp only
    split
    · exact hs
    · exact hs.blob hgood

/-- An opened text, if what it is stored as meets the rule and a CREATE in it makes no group under a user's id. -/
theorem Sound.dispatch (hs : Sound isUser rule s) {e : EncryptedSignal Text} {o : Opened}
    (ho : o.conversationId = (if o.isGroup then some o.conversationId else none).getD e.senderId)
    (hcreate : isPrivateGroupControl o.plaintext = true → ∀ signal ∈ f.decodePrivateGroupControl o.plaintext e.senderId,
      signal.action = .CREATE ∨ signal.action = .PREPARE_CALL → ¬ isUser signal.groupId)
    (hgood : isPrivateGroupControl o.plaintext = false → rule e.senderId
      (if o.isGroup then some o.conversationId else none) (rostered s.device o.conversationId e.senderId)) :
    Sound isUser rule (s.dispatch f e o) := by
  rw [Phone.dispatch]
  split
  · exact hs
  · split
    · rename_i hcontrol
      split
      · exact hs
      · split
        · exact hs
        · rename_i signal hsignal
          have hcreate := hcreate hcontrol signal hsignal
          split
          · rename_i hprepare
            exact hs.grow (prepare_grows (hcreate (.inr hprepare))) rfl rfl
          · exact hs.grow (notify_grows fun haction => hcreate (.inl haction)) rfl rfl
    · rename_i hcontrol
      have hgood := hgood (Bool.not_eq_true _ ▸ hcontrol)
      split
      · exact hs
      · split
        · exact hs
        · split
          · split
            · exact hs.keys _
            · exact hs
          · split
            · refine hs.acceptBlobPointer ?_
              rw [← ho]
              exact hgood
            · dsimp only
              split
              · exact hs
              · exact hs.storeText hrule _ ho hgood

omit hrule in
/-- Where an opened text is for: a group by the old kind of envelope, a group whose roster was asked, or its sender. -/
theorem opened_spec {e : EncryptedSignal Text} {keys : K} {o : Opened} (h : s.opened f e = (keys, some o)) :
    (o.isGroup = true ∧ (isGroupEnvelope e.envelope = false → rostered s.device o.conversationId e.senderId = true)) ∨
      (o.isGroup = false ∧ o.conversationId = e.senderId) := by
  rw [Phone.opened] at h
  split at h
  · rename_i hold
    split at h
    · cases h
    · split at h
      · cases h
      · cases h
        exact .inl ⟨rfl, fun hnew => absurd hold (hnew ▸ Bool.false_ne_true)⟩
  · split at h
    · cases h
    · split at h
      · split at h
        · cases h
        · split at h
          · cases h
          · rename_i hroster
            split at h
            · cases h
            · cases h
              exact .inl ⟨rfl, fun _ => Bool.not_eq_false _ ▸ hroster⟩
      · cases h
        exact .inr ⟨rfl, rfl⟩

/-- **The step lemma**: an event that keeps the ids apart and brings what meets the rule keeps the invariant. -/
theorem Sound.step (hs : Sound isUser rule s) {x : Event} (hx : x.Separates isUser f s)
    (hencrypted : ∀ e, x = .encrypted e → ∀ o ∈ (s.opened f e).2, isPrivateGroupControl o.plaintext = false →
      rule e.senderId (if o.isGroup then some o.conversationId else none)
        (rostered s.device o.conversationId e.senderId))
    (hfile : ∀ y callRoute completed, x = .file y callRoute completed → ∀ o ∈ (s.openedFile f y callRoute).2,
      rule y.senderId o.1 (rostered s.device (o.1.getD y.senderId) y.senderId))
    (h : s.step f x = some s') : Sound isUser rule s' := by
  cases x with
  | encrypted e =>
    cases h
    rw [Phone._encrypted]
    split
    · exact hs.keys _
    · rename_i keys o hopened
      have ho : o ∈ (s.opened f e).2 := by rw [hopened]; rfl
      have hconversation : o.conversationId = (if o.isGroup then some o.conversationId else none).getD e.senderId := by
        rcases opened_spec hopened with ⟨hgroup, -⟩ | ⟨hdirect, hsender⟩
        · rw [hgroup]
          rfl
        · rw [hdirect, hsender]
          rfl
      refine (hs.keys keys).dispatch hrule hconversation (fun hcontrol signal hsignal haction => ?_)
        (hencrypted e rfl o ho)
      refine hx.2 signal.groupId ?_
      rw [Event.group, hopened]
      have hcreate : (f.decodePrivateGroupControl o.plaintext e.senderId).filter
          (fun signal => decide (signal.action = .CREATE ∨ signal.action = .PREPARE_CALL)) = some signal :=
        Option.filter_eq_some_iff.2 ⟨hsignal, decide_eq_true haction⟩
      simp only [Option.bind_some, hcontrol, if_true, hcreate, Option.map_some]
      rfl
  | notification signal =>
    cases h
    refine hs.grow (notify_grows fun haction => ?_) rfl rfl
    exact hx.2 _ (if_pos haction)
  | file y callRoute completed =>
    cases h
    exact hs.receiveFile hrule (hfile y callRoute completed rfl)
  | fetchBlob transferId =>
    cases h
    exact hs.fetchBlob hrule transferId
  | sendMessage messageId conversationId =>
    cases h
    rw [Phone.sendMessage]
    split
    · exact hs
    · split
      · rename_i hnone
        have huser : isUser conversationId := hx.1 _ (by rw [Event.users, hnone]; exact List.mem_singleton_self _)
        exact hs.insert _ _ (fun _ => ⟨nofun, fun hno => absurd huser hno⟩) nofun
      · rename_i hget
        split
        · exact hs
        · exact hs.insert _ _ (fun hnone => nomatch hget.symm.trans hnone) nofun
  | ensureConversation contactId name =>
    cases h
    have huser : isUser contactId := hx.1 _ (List.mem_singleton_self _)
    rw [Phone.ensureConversation]
    split
    · split
      · exact hs
      · exact hs.grow (patch_grows fun _ => rfl) rfl rfl
    · rename_i hnone
      exact hs.grow (.addConversation hnone ⟨nofun, fun hno => absurd huser hno⟩) rfl rfl
  | createGroup groupId name ids =>
    cases h
    have hgroup : ¬ isUser groupId := hx.2 _ rfl
    rw [Phone.createGroup]
    split
    · rename_i hnone _
      exact hs.grow (.addConversation hnone ⟨fun _ => hgroup, fun _ => rfl⟩) rfl rfl
    · exact hs
  | act groupId act =>
    rw [Phone.step] at h
    split at h
    · cases h
      exact hs
    · rename_i hperform
      cases h
      exact hs.grow (perform_grows hperform) rfl rfl

end Steps

section Runs

variable {x : Event}

theorem Event.Separates.encrypted {e : EncryptedSignal Text} (hx : (Event.encrypted e).Separates isUser f s) {o : Opened}
    (ho : o ∈ (s.opened f e).2) (hcontrol : isPrivateGroupControl o.plaintext = false) (onRoster : Bool) :
    Separated isUser e.senderId (if o.isGroup then some o.conversationId else none) onRoster := by
  refine ⟨hx.1 _ (List.mem_singleton_self _), fun groupId hgroupId => hx.2 groupId ?_⟩
  have hopened : (s.opened f e).2 = some o := ho
  rw [Event.group, hopened, Option.bind_some]
  simpa only [hcontrol, Bool.false_eq_true, if_false] using hgroupId

theorem Event.Separates.file {y : FileTransferSignal} {callRoute : Option Text} {completed : Option (Option Text)}
    (hx : (Event.file y callRoute completed).Separates isUser f s) {o : Option Text × Text}
    (ho : o ∈ (s.openedFile f y callRoute).2) (onRoster : Bool) : Separated isUser y.senderId o.1 onRoster := by
  refine ⟨hx.1 _ (List.mem_singleton_self _), fun groupId hgroupId => hx.2 groupId ?_⟩
  have hopened : (s.openedFile f y callRoute).2 = some o := ho
  rw [Event.group, hopened]
  exact hgroupId

theorem Sound.step_separated (hs : Sound isUser (Separated isUser) s) (hx : x.Separates isUser f s)
    (h : s.step f x = some s') : Sound isUser (Separated isUser) s' := by
  refine hs.step id hx ?_ ?_ h
  · rintro e rfl o ho hcontrol
    exact hx.encrypted ho hcontrol _
  · rintro y callRoute completed rfl o ho
    exact hx.file ho _

theorem Sound.step_checked (hs : Sound isUser (Checked isUser) s) (hx : x.Admissible isUser f s)
    (h : s.step f x = some s') : Sound isUser (Checked isUser) s' := by
  refine hs.step And.left hx.1 ?_ ?_ h
  · rintro e rfl o ho hcontrol
    refine ⟨hx.1.encrypted ho hcontrol _, fun hgroup => ?_⟩
    have hopened : s.opened f e = ((s.opened f e).1, some o) := Prod.ext rfl ho
    by_cases hold : isGroupEnvelope e.envelope = true
    · refine hx.2 (o.conversationId, e.senderId) ?_
      rw [Event.unchecked, if_pos hold, hopened]
      rfl
    · rcases opened_spec hopened with ⟨-, hroster⟩ | ⟨hdirect, -⟩
      · exact hroster (Bool.not_eq_true _ ▸ hold)
      · rw [hdirect] at hgroup
        cases hgroup
  · rintro y callRoute completed rfl o ho
    refine ⟨hx.1.file ho _, fun hgroup => ?_⟩
    obtain ⟨groupId, hgroupId⟩ := Option.isSome_iff_exists.1 hgroup
    have hopened : (s.openedFile f y callRoute).2 = some o := ho
    rw [hgroupId]
    refine hx.2 (groupId, y.senderId) ?_
    rw [Event.unchecked, hopened, Option.bind_some, hgroupId]
    rfl

/-- **Direct messages stay with their sender, and group messages in groups**, in every run in which no group has the id
of a user. -/
theorem confined_run (isUser : Text → Prop) {s t : Phone K} {events : List Event} (hs : Sound isUser (Separated isUser) s)
    (hm : Meets (Phone.step f) (fun s x => x.Separates isUser f s) s events) (hr : run (Phone.step f) s events = some t) :
    Confined t :=
  (hm.invariant (Sound isUser (Separated isUser)) (fun _ _ _ h hx hstep => h.step_separated hx hstep) hs hr).confined

/-- **Only who is on the roster posts to a group**, over every such run in which what is not checked against the roster
comes from someone on it. -/
theorem posted_run (isUser : Text → Prop) {s t : Phone K} {events : List Event} (hs : Sound isUser (Checked isUser) s)
    (hm : Meets (Phone.step f) (fun s x => x.Admissible isUser f s) s events) (hr : run (Phone.step f) s events = some t) :
    Posted t :=
  (hm.invariant (Sound isUser (Checked isUser)) (fun _ _ _ h hx hstep => h.step_checked hx hstep) hs hr).posted

end Runs

instance [DecidablePred isUser] (x : Event) : Decidable (x.Separates isUser f s) := by
  unfold Event.Separates
  infer_instance

instance [DecidablePred isUser] (x : Event) : Decidable (x.Admissible isUser f s) := by
  unfold Event.Admissible
  infer_instance

section Sample

/-- Ciphers that hide nothing: a group text is read with the key of its group and sender.  The routes, the controls and
the pointers are those of the runs below. -/
def sampleFormats : Formats (List (Text × Text)) where
  decryptDirect keys _ envelope :=
    if startsWith "OLM:v1:1:" envelope then some (keys, envelope.drop 9) else none
  decryptGroup keys senderId groupId envelope :=
    if (groupId, senderId) ∈ keys ∧ groupRoutingTokenFromEnvelope envelope = some groupId then
      some (keys, (envelope.splitOn ':').getLastD [])
    else none
  processSenderKeyDistribution keys senderId plaintext := ((plaintext.drop 8).takeWhile (· ≠ ':'), senderId) :: keys
  groupRoutingToken groupId := groupId
  routeJson plaintext :=
    if plaintext = "GROUPROUTE:v3:hello".toList then some ("group".toList, "MEGOLM:v1:group:7:hello".toList) else none
  controlJson plaintext :=
    if plaintext = "GROUPCTRL:v2:removal".toList then
      some (control "ann" .REMOVE_MEMBER "carl" ["ann", "bob", "dave", "eve"], "group".toList)
    else if plaintext = "GROUPCTRL:v2:trap".toList then
      some ({ control "eve" .CREATE "" ["eve", "dave"] with groupId := "carl".toList }, "carl".toList)
    else none
  pointerJson _ := none
  photoAccepted _ := true
  storedLabel _ := []
  fallbackId e := e.senderId
  blobTransferId senderId messageId := senderId ++ messageId

def davesPhone : Phone (List (Text × Text)) where
  device := sampleDevice
  keys := [("group".toList, "bob".toList), ("group".toList, "carl".toList)]
  blocked _ := false
  seenMessageIds := []
  messages := .empty
  incomingBlobs := .empty

def IsMember (id : Text) : Prop :=
  id ∈ ["ann".toList, "bob".toList, "carl".toList, "dave".toList, "eve".toList]

instance : DecidablePred IsMember := fun _ => inferInstanceAs (Decidable (_ ∈ _))

theorem davesPhone_sound (rule : Rule) : Sound IsMember rule davesPhone := by
  refine ⟨fun id c hc => ?_, nofun, nofun⟩
  have hc : (Table.empty.put "group".toList sampleGroup).get id = some c := hc
  rw [Table.get_put] at hc
  split at hc
  · rename_i hid
    cases hc
    rw [hid]
    exact ⟨fun _ => by decide, fun _ => rfl⟩
  · rw [Table.get_empty] at hc
    cases hc

def directly (senderId plaintext : String) : Event :=
  .encrypted ⟨senderId.toList, "dave".toList, 0, "OLM:v1:1:".toList ++ plaintext.toList, none⟩

def groupFile (senderId : String) : Event :=
  .file ⟨senderId.toList, "dave".toList, none, "t1".toList, some "flutter-file-v5-group".toList,
    "OLM:v1:1:GROUPROUTE:v3:hello".toList⟩ none (some (some "photo".toList))

/-- Carl writes to Dave, Bob to the group; Bob sends it a file, and Dave answers Carl. -/
def orderlyEvents : List Event :=
  [directly "carl" "MSGID:m1:hello", directly "bob" "GROUPROUTE:v3:hello", groupFile "bob",
    .sendMessage "m2".toList "carl".toList]

theorem meets_orderlyEvents :
    (∃ t, run (Phone.step sampleFormats) davesPhone orderlyEvents = some t ∧ t.messages.card = 4) ∧
    Meets (Phone.step sampleFormats) (fun s x => x.Separates IsMember sampleFormats s) davesPhone orderlyEvents ∧
    Meets (Phone.step sampleFormats) (fun s x => x.Admissible IsMember sampleFormats s) davesPhone orderlyEvents :=
  ⟨exists_run _ _ _ (by decide +kernel), by decide +kernel, by decide +kernel⟩

theorem confined_orderlyEvents :
    ∃ t, run (Phone.step sampleFormats) davesPhone orderlyEvents = some t ∧ t.messages.card = 4 ∧ Confined t := by
  obtain ⟨⟨t, ht, hcard⟩, hseparates, -⟩ := meets_orderlyEvents
  exact ⟨t, ht, hcard, confined_run IsMember (davesPhone_sound _) hseparates ht⟩

theorem posted_orderlyEvents :
    ∃ t, run (Phone.step sampleFormats) davesPhone orderlyEvents = some t ∧ t.messages.card = 4 ∧ Posted t := by
  obtain ⟨⟨t, ht, hcard⟩, -, hadmissible⟩ := meets_orderlyEvents
  exact ⟨t, ht, hcard, posted_run IsMember (davesPhone_sound _) hadmissible ht⟩

/-- **A direct message is caught** by a group that Eve creates with Carl's id. -/
theorem carl_trapped : ∃ t, run (Phone.step sampleFormats) davesPhone
      [directly "eve" "GROUPCTRL:v2:trap", directly "carl" "MSGID:m1:hello"] = some t ∧
    t.messages.get "m1".toList = some ⟨"carl".toList, "carl".toList, false, none, false⟩ ∧
    t.recipients "carl".toList = ["eve".toList] ∧ ¬ Confined t := by
  have hrun : ∃ t, run (Phone.step sampleFormats) davesPhone
      [directly "eve" "GROUPCTRL:v2:trap", directly "carl" "MSGID:m1:hello"] = some t ∧
      t.messages.get "m1".toList = some ⟨"carl".toList, "carl".toList, false, none, false⟩ ∧
      t.recipients "carl".toList = ["eve".toList] := exists_run _ _ _ (by decide +kernel)
  obtain ⟨t, ht, hmessage, hrecipients⟩ := hrun
  refine ⟨t, ht, hmessage, hrecipients, fun hconfined => ?_⟩
  have hanswer := (hconfined _ _ hmessage rfl).2.1
  exact absurd (hrecipients.symm.trans hanswer) (by decide)

/-- **A removed member posts**: Ann removes Carl, whose file for the group is stored in it all the same. -/
theorem carl_posts : ∃ t, run (Phone.step sampleFormats) davesPhone
      [directly "ann" "GROUPCTRL:v2:removal", groupFile "carl"] = some t ∧
    t.messages.get "photo".toList = some ⟨"group".toList, "carl".toList, false, some "group".toList, false⟩ ∧
    ¬ Posted t := by
  have hrun : ∃ t, run (Phone.step sampleFormats) davesPhone
      [directly "ann" "GROUPCTRL:v2:removal", groupFile "carl"] = some t ∧
      t.messages.get "photo".toList = some ⟨"group".toList, "carl".toList, false, some "group".toList, false⟩ ∧
      (t.device.conversations.get "group".toList).any ConversationEntity.isGroup = true :=
    exists_run _ _ _ (by decide +kernel)
  obtain ⟨t, ht, hmessage, hgroup⟩ := hrun
  refine ⟨t, ht, hmessage, fun hposted => ?_⟩
  obtain ⟨c, hc, hkind⟩ := Option.any_eq_true _ _ |>.1 hgroup
  cases hposted _ _ hmessage rfl c hc hkind

end Sample

end Routes
end SecureChat
