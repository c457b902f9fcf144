import SecureChat.MessageEnvelope
/-!
# EnvelopeRoundTrip — when a message comes back as it was sent

A field that is there is taken off exactly (`consumeValue_field`), one that is absent is taken off nothing unless the
text behind it starts like one (`Mimics`).  Only the content can do that, since the leads differ.
-/
namespace SecureChat
namespace Envelope

open GroupControl (Text trim)

def Mimics (lead text : Text) : Prop := lead <+: text ∧ ':' ∈ text.drop lead.length

instance (lead text : Text) : Decidable (Mimics lead text) := inferInstanceAs (Decidable (_ ∧ _))

theorem not_prefix_append {l m : Text} (hlm : ¬ l <+: m) (hml : ¬ m <+: l) (t : Text) : ¬ l <+: m ++ t := fun h =>
  (List.prefix_or_prefix_of_prefix h (List.prefix_append m t)).elim hlm hml

section Consume

variable {lead t v : Text}

theorem drop_lead (lead t : Text) : (lead ++ t).drop lead.length = t := by simp

theorem takeWhile_colon (h : ¬ ':' ∈ v) (t : Text) :
    (v ++ ':' :: t).takeWhile (· ≠ ':') = v ∧ (v ++ ':' :: t).dropWhile (· ≠ ':') = ':' :: t := by
  have hall : ∀ c ∈ v, decide (c ≠ ':') = true := by
    intro c hc
    simp only [decide_eq_true_eq]
    rintro rfl
    exact h hc
  constructor
  · rw [List.takeWhile_append_of_pos hall]
    simp
  · rw [List.dropWhile_append_of_pos hall]
    simp

theorem consumeValue_field (h : ¬ ':' ∈ v) (t : Text) : consumeValue (lead ++ v ++ [':'] ++ t) lead = (some v, t) := by
  have hshape : lead ++ v ++ [':'] ++ t = lead ++ (v ++ ':' :: t) := by simp
  obtain ⟨htake, hdrop⟩ := takeWhile_colon h t
  rw [hshape, consumeValue, if_pos (List.prefix_append _ _)]
  simp only [drop_lead, List.mem_append, List.mem_cons, true_or, or_true, if_true, htake, hdrop, List.tail_cons]

theorem consumeValue_colon (h : ':' ∈ v) (lead t : Text) :
    ∃ w, w ≠ v ∧ (consumeValue (lead ++ v ++ [':'] ++ t) lead).1 = some w := by
  have hshape : lead ++ v ++ [':'] ++ t = lead ++ (v ++ ':' :: t) := by simp
  refine ⟨(v ++ ':' :: t).takeWhile (· ≠ ':'), ?_, ?_⟩
  · intro he
    have hmem : ':' ∈ (v ++ ':' :: t).takeWhile (· ≠ ':') := by rwa [he]
    have := List.mem_takeWhile_imp hmem
    simp at this
  · rw [hshape, consumeValue, if_pos (List.prefix_append _ _)]
    simp

theorem consumeValue_absent (h : ¬ Mimics lead t) : consumeValue t lead = (none, t) := by
  unfold consumeValue
  by_cases hlead : lead <+: t
  · have hcolon : ¬ ':' ∈ t.drop lead.length := fun hc => h ⟨hlead, hc⟩
    simp [hlead, hcolon]
  · simp [hlead]

theorem consumeValue_mimics (h : Mimics lead t) : (consumeValue t lead).2.length < t.length := by
  obtain ⟨hlead, hcolon⟩ := h
  have hpos : 0 < (t.drop lead.length).length := List.length_pos_of_mem hcolon
  have hdrop : ((t.drop lead.length).dropWhile (· ≠ ':')).length ≤ (t.drop lead.length).length :=
    (List.dropWhile_sublist _).length_le
  have hlength : (t.drop lead.length).length ≤ t.length := by simp
  simp only [consumeValue, hlead, hcolon, if_true, List.length_tail]
  omega

theorem consumeValue_length (t lead : Text) : (consumeValue t lead).2.length ≤ t.length := by
  by_cases h : Mimics lead t
  · exact (consumeValue_mimics h).le
  · rw [consumeValue_absent h]

end Consume

section Mentions

theorem trim_trim (t : Text) : trim (trim t) = trim t := Csv.strip_strip GroupControl.isWhitespace t

theorem mem_of_mem_trim {c : Char} {t : Text} (h : c ∈ trim t) : c ∈ t := by
  have hdrop := (List.rdropWhile_prefix GroupControl.isWhitespace (t.dropWhile GroupControl.isWhitespace)).subset h
  exact (List.dropWhile_sublist _).subset hdrop

variable {isGroup : Bool} {ids : List Text} {id : Text}

theorem mem_mentionedIds (h : id ∈ mentionedIds isGroup ids) :
    id ≠ [] ∧ ¬ ',' ∈ id ∧ ¬ ':' ∈ id ∧ trim id = id := by
  unfold mentionedIds at h
  split at h
  · obtain ⟨hmem, hne⟩ := List.mem_filter.1 (LinkedSet.mem_ofList.1 h)
    obtain ⟨raw, -, rfl⟩ := List.mem_map.1 hmem
    have hclean : ∀ c ∈ trim (raw.filter fun c => !(c == ',') && !(c == ':')), c ≠ ',' ∧ c ≠ ':' := by
      intro c hc
      have hkept := (List.mem_filter.1 (mem_of_mem_trim hc)).2
      simpa using hkept
    exact ⟨of_decide_eq_true hne, fun hc => (hclean _ hc).1 rfl, fun hc => (hclean _ hc).2 rfl, trim_trim _⟩
  · exact absurd h List.not_mem_nil

theorem mem_join {sep c : Char} {l : List Text} (h : c ∈ Csv.join sep l) : c = sep ∨ ∃ t ∈ l, c ∈ t := by
  induction l with
  | nil => exact absurd h List.not_mem_nil
  | cons t l ih =>
    cases l with
    | nil =>
      rw [Csv.join, List.intercalate_singleton] at h
      exact .inr ⟨t, List.mem_cons_self, h⟩
    | cons t' l =>
      rw [Csv.join, List.intercalate_cons_cons, List.mem_append, List.mem_append] at h
      rcases h with (ht | hsep) | hrest
      · exact .inr ⟨t, List.mem_cons_self, ht⟩
      · exact .inl (List.mem_singleton.1 hsep)
      · rcases ih hrest with he | ⟨u, hu, hc⟩
        · exact .inl he
        · exact .inr ⟨u, List.mem_cons_of_mem t hu, hc⟩

theorem parseMentions_join (h : mentionedIds isGroup ids ≠ []) :
    parseMentions (Csv.join ',' (mentionedIds isGroup ids)) = mentionedIds isGroup ids := by
  have hsplit : (Csv.join ',' (mentionedIds isGroup ids)).splitOn ',' = mentionedIds isGroup ids :=
    List.splitOn_intercalate ',' (fun id hid => (mem_mentionedIds hid).2.1) h
  have htrim : (mentionedIds isGroup ids).map trim = mentionedIds isGroup ids :=
    (List.map_congr_left fun id hid => (mem_mentionedIds hid).2.2.2).trans (List.map_id _)
  have hkeep : ∀ id ∈ mentionedIds isGroup ids, decide (id ≠ []) = true := fun id hid =>
    decide_eq_true (mem_mentionedIds hid).1
  rw [parseMentions, hsplit, htrim, List.filter_eq_self.2 hkeep]

theorem join_mentionedIds (h : mentionedIds isGroup ids ≠ []) :
    Csv.join ',' (mentionedIds isGroup ids) ≠ [] ∧ ¬ ':' ∈ Csv.join ',' (mentionedIds isGroup ids) := by
  constructor
  · intro he
    have hparse := parseMentions_join h
    rw [he] at hparse
    exact h hparse.symm
  · intro hc
    rcases mem_join hc with hsep | ⟨id, hid, hmem⟩
    · exact absurd hsep (by decide)
    · exact (mem_mentionedIds hid).2.2.1 hmem

end Mentions

section Stages

variable (request : SendMessageRequest) (isGroup : Bool) (expiresAt : Option Int64)

def fieldText (lead : Text) (field : Option Text) : Text := (field.map fun v => lead ++ v ++ [':']).getD []

def mentionField : Option Text :=
  if mentionedIds isGroup request.mentionedUserIds = [] then none
  else some (Csv.join ',' (mentionedIds isGroup request.mentionedUserIds))

def bodyText : Text := (if request.contentType = .poll then pollLead else []) ++ request.content

def mentionText : Text := fieldText mentionLead (mentionField request isGroup) ++ bodyText request

def viewOnceText : Text := (if request.isViewOnce then viewOnceLead else []) ++ mentionText request isGroup

def expiryText : Text := fieldText expiryLead (expiresAt.map DartInt.print) ++ viewOnceText request isGroup

def replyText : Text := fieldText replyLead request.replyToId ++ expiryText request isGroup expiresAt

theorem buildEnvelopeContent_eq (messageId : Text) : buildEnvelopeContent messageId request isGroup expiresAt =
    msgIdLead ++ messageId ++ [':'] ++ replyText request isGroup expiresAt := by
  have hjoin : (if Csv.join ',' (mentionedIds isGroup request.mentionedUserIds) = [] then []
      else mentionLead ++ Csv.join ',' (mentionedIds isGroup request.mentionedUserIds) ++ [':']) =
      fieldText mentionLead (mentionField request isGroup) := by
    by_cases hnil : mentionedIds isGroup request.mentionedUserIds = []
    · simp [mentionField, fieldText, hnil, Csv.join]
    · simp [mentionField, fieldText, hnil, (join_mentionedIds hnil).1]
  simp only [buildEnvelopeContent, hjoin, replyText, expiryText, viewOnceText, mentionText, bodyText]
  obtain ⟨content, replyToId, contentType, isViewOnce, ids⟩ := request
  cases replyToId <;> cases expiresAt <;> simp [fieldText]

variable {lead t : Text} {field : Option Text}

theorem consume_fieldText (hcolon : ∀ v ∈ field, ¬ ':' ∈ v) (hnone : field = none → ¬ Mimics lead t) :
    consumeValue (fieldText lead field ++ t) lead = (field, t) := by
  cases field with
  | none => exact consumeValue_absent (hnone rfl)
  | some v => exact consumeValue_field (hcolon v rfl) t

variable {P : Text → Prop} {request isGroup expiresAt}

theorem fieldText_iff {other : Text} (hP : ∀ t, P t → lead <+: t) (hlo : ¬ lead <+: other) (hol : ¬ other <+: lead) :
    P (fieldText other field ++ t) ↔ field = none ∧ P t := by
  cases field with
  | none => simp [fieldText]
  | some v =>
    have hnot : ¬ P (fieldText other (some v) ++ t) := by
      intro h
      have hprefix := hP _ h
      rw [show fieldText other (some v) ++ t = other ++ (v ++ [':'] ++ t) by simp [fieldText]] at hprefix
      exact not_prefix_append hlo hol _ hprefix
    simp [hnot]

theorem bodyText_iff (hP : ∀ t, P t → lead <+: t) (hlo : ¬ lead <+: pollLead) (hol : ¬ pollLead <+: lead) :
    P (bodyText request) ↔ request.contentType ≠ .poll ∧ P request.content := by
  unfold bodyText
  split
  · rename_i hpoll
    have hnot : ¬ P (pollLead ++ request.content) := fun h => not_prefix_append hlo hol _ (hP _ h)
    simp [hnot, hpoll]
  · rename_i hpoll
    simp [hpoll]

theorem viewOnceText_iff (hP : ∀ t, P t → lead <+: t) (hlo : ¬ lead <+: viewOnceLead) (hol : ¬ viewOnceLead <+: lead) :
    P (viewOnceText request isGroup) ↔ request.isViewOnce = false ∧ P (mentionText request isGroup) := by
  unfold viewOnceText
  cases request.isViewOnce with
  | false => simp
  | true =>
    have hnot : ¬ P (viewOnceLead ++ mentionText request isGroup) := fun h => not_prefix_append hlo hol _ (hP _ h)
    simpa using hnot

end Stages

section Parse

/-- What is left of a text when its fields are taken off, and what the fields were. -/
structure Stages (text : Text) where
  reply : Option Text × Text
  expiry : Option Text × Text
  flag : Bool × Text
  mention : Option Text × Text

def stages (text : Text) : Stages text :=
  let reply := consumeValue text replyLead
  let expiry := consumeValue reply.2 expiryLead
  let flag := if viewOnceLead <+: expiry.2 then (true, expiry.2.drop viewOnceLead.length) else (false, expiry.2)
  ⟨reply, expiry, flag, consumeValue flag.2 mentionLead⟩

variable {messageId : Text}

theorem parse_eq (h : ¬ ':' ∈ messageId) (text : Text) :
    let p := parseMessageEnvelope (msgIdLead ++ messageId ++ [':'] ++ text)
    let s := stages text
    p.absoluteExpiresAt = DartInt.tryParse (s.expiry.1.getD []) ∧ p.isViewOnce = s.flag.1 ∧
      p.mentionedUserIds = (s.mention.1.map parseMentions).getD [] ∧
      ((∃ vote, pollVote s.mention.2 = some vote ∧ p.replyToId = none ∧ p.content = []) ∨
        pollVote s.mention.2 = none ∧ p.replyToId = s.reply.1 ∧
          p.content = if pollLead <+: s.mention.2 then s.mention.2.drop pollLead.length else s.mention.2) := by
  have hflag : ∀ t : Text, (if viewOnceLead <+: t then (true, t.drop viewOnceLead.length) else (false, t)) =
      (decide (viewOnceLead <+: t), if viewOnceLead <+: t then t.drop viewOnceLead.length else t) := by
    intro t
    split <;> simp [*]
  simp only [parseMessageEnvelope, consumeValue_field h, stages, hflag]
  split
  · rename_i vote hvote
    exact ⟨rfl, rfl, rfl, .inl ⟨vote, hvote, rfl, rfl⟩⟩
  · rename_i hvote
    exact ⟨rfl, rfl, rfl, .inr ⟨hvote, rfl, by simp⟩⟩

theorem flag_length (text : Text) : (stages text).flag.2.length ≤ (stages text).expiry.2.length := by
  simp only [stages]
  split <;> simp

theorem content_length (h : ¬ ':' ∈ messageId) (text : Text) :
    (parseMessageEnvelope (msgIdLead ++ messageId ++ [':'] ++ text)).content.length ≤
      (stages text).mention.2.length := by
  obtain ⟨-, -, -, ⟨_, -, -, hcontent⟩ | ⟨-, -, hcontent⟩⟩ := parse_eq h text
  · rw [hcontent]
    exact Nat.zero_le _
  · rw [hcontent]
    split <;> simp

end Parse

/-- **The messages that come back as they were sent**: the reply has no colon, and content that is not a poll's does not
start like a field that is absent together with all fields behind it, a vote or a poll. -/
structure Legible (request : SendMessageRequest) (isGroup : Bool) (expiresAt : Option Int64) : Prop where
  reply : ∀ replyToId ∈ request.replyToId, ¬ ':' ∈ replyToId
  noReply : request.contentType ≠ .poll → request.replyToId = none → expiresAt = none → request.isViewOnce = false →
    mentionedIds isGroup request.mentionedUserIds = [] → ¬ Mimics replyLead request.content
  noExpiry : request.contentType ≠ .poll → expiresAt = none → request.isViewOnce = false →
    mentionedIds isGroup request.mentionedUserIds = [] → ¬ Mimics expiryLead request.content
  noViewOnce : request.contentType ≠ .poll → request.isViewOnce = false →
    mentionedIds isGroup request.mentionedUserIds = [] → ¬ viewOnceLead <+: request.content
  noMention : request.contentType ≠ .poll → mentionedIds isGroup request.mentionedUserIds = [] →
    ¬ Mimics mentionLead request.content
  noVote : request.contentType ≠ .poll → pollVote request.content = none
  noPoll : request.contentType ≠ .poll → ¬ pollLead <+: request.content

def RoundTrips (messageId : Text) (request : SendMessageRequest) (isGroup : Bool) (expiresAt : Option Int64) : Prop :=
  let p := parseMessageEnvelope (buildEnvelopeContent messageId request isGroup expiresAt)
  p.content = request.content ∧ p.replyToId = request.replyToId ∧ p.absoluteExpiresAt = expiresAt ∧
    p.isViewOnce = request.isViewOnce ∧ p.mentionedUserIds = mentionedIds isGroup request.mentionedUserIds

section RoundTrip

variable {messageId : Text} {request : SendMessageRequest} {isGroup : Bool} {expiresAt : Option Int64}

theorem mentionField_eq_none :
    mentionField request isGroup = none ↔ mentionedIds isGroup request.mentionedUserIds = [] := by
  simp [mentionField]

theorem mimics_mention : Mimics mentionLead (bodyText request) ↔
    request.contentType ≠ .poll ∧ Mimics mentionLead request.content :=
  bodyText_iff (fun _ h => h.1) (by decide) (by decide)

theorem starts_viewOnce : viewOnceLead <+: mentionText request isGroup ↔
    mentionedIds isGroup request.mentionedUserIds = [] ∧ request.contentType ≠ .poll ∧
      viewOnceLead <+: request.content := by
  rw [mentionText, fieldText_iff (P := (viewOnceLead <+: ·)) (fun _ h => h) (by decide) (by decide),
    bodyText_iff (P := (viewOnceLead <+: ·)) (fun _ h => h) (by decide) (by decide), mentionField_eq_none]

theorem mimics_expiry : Mimics expiryLead (viewOnceText request isGroup) ↔ request.isViewOnce = false ∧
    mentionedIds isGroup request.mentionedUserIds = [] ∧ request.contentType ≠ .poll ∧
      Mimics expiryLead request.content := by
  rw [viewOnceText_iff (P := Mimics expiryLead) (fun _ h => h.1) (by decide) (by decide), mentionText,
    fieldText_iff (P := Mimics expiryLead) (fun _ h => h.1) (by decide) (by decide),
      bodyText_iff (P := Mimics expiryLead) (fun _ h => h.1) (by decide) (by decide),
    mentionField_eq_none]

theorem mimics_reply : Mimics replyLead (expiryText request isGroup expiresAt) ↔ expiresAt = none ∧
    request.isViewOnce = false ∧ mentionedIds isGroup request.mentionedUserIds = [] ∧ request.contentType ≠ .poll ∧
      Mimics replyLead request.content := by
  rw [expiryText, fieldText_iff (P := Mimics replyLead) (fun _ h => h.1) (by decide) (by decide),
    viewOnceText_iff (P := Mimics replyLead) (fun _ h => h.1) (by decide) (by decide), mentionText,
    fieldText_iff (P := Mimics replyLead) (fun _ h => h.1) (by decide) (by decide),
      bodyText_iff (P := Mimics replyLead) (fun _ h => h.1) (by decide) (by decide),
    mentionField_eq_none, Option.map_eq_none_iff]

theorem pollVote_body : pollVote (bodyText request) =
    if request.contentType = .poll then none else pollVote request.content := by
  unfold bodyText
  split
  · have hnot : ¬ pollVoteLead <+: pollLead ++ request.content := not_prefix_append (by decide) (by decide) _
    rw [pollVote, if_neg hnot]
  · rfl

theorem not_colon_print : ∀ v ∈ expiresAt.map DartInt.print, ¬ ':' ∈ v := by
  intro v hv hcolon
  obtain ⟨n, -, rfl⟩ := Option.map_eq_some_iff.1 hv
  rcases DartInt.mem_print hcolon with hminus | hdigit
  · exact absurd hminus (by decide)
  · exact absurd hdigit (by decide)

theorem not_colon_mentionField : ∀ v ∈ mentionField request isGroup, ¬ ':' ∈ v := by
  intro v hv
  unfold mentionField at hv
  split at hv
  · nomatch hv
  · rename_i hne
    cases hv
    exact (join_mentionedIds hne).2

theorem consume_expiry (h : expiresAt = none → ¬ Mimics expiryLead (viewOnceText request isGroup)) :
    consumeValue (expiryText request isGroup expiresAt) expiryLead =
      (expiresAt.map DartInt.print, viewOnceText request isGroup) :=
  consume_fieldText not_colon_print fun hn => h (Option.map_eq_none_iff.1 hn)

theorem consume_mention
    (h : mentionedIds isGroup request.mentionedUserIds = [] → ¬ Mimics mentionLead (bodyText request)) :
    consumeValue (mentionText request isGroup) mentionLead = (mentionField request isGroup, bodyText request) :=
  consume_fieldText not_colon_mentionField fun hn => h (mentionField_eq_none.1 hn)

theorem take_viewOnce (h : request.isViewOnce = false → ¬ viewOnceLead <+: mentionText request isGroup) :
    (if viewOnceLead <+: viewOnceText request isGroup then
        (true, (viewOnceText request isGroup).drop viewOnceLead.length)
      else (false, viewOnceText request isGroup)) = (request.isViewOnce, mentionText request isGroup) := by
  unfold viewOnceText
  cases hflag : request.isViewOnce with
  | false => simp [h hflag]
  | true => simp

theorem stages_eq (h : Legible request isGroup expiresAt) : stages (replyText request isGroup expiresAt) =
    ⟨(request.replyToId, expiryText request isGroup expiresAt),
      (expiresAt.map DartInt.print, viewOnceText request isGroup),
      (request.isViewOnce, mentionText request isGroup), (mentionField request isGroup, bodyText request)⟩ := by
  have hreply : consumeValue (replyText request isGroup expiresAt) replyLead =
      (request.replyToId, expiryText request isGroup expiresAt) := by
    refine consume_fieldText h.reply fun hn hm => ?_
    obtain ⟨he, hv, hids, htype, hcontent⟩ := mimics_reply.1 hm
    exact h.noReply htype hn he hv hids hcontent
  have hexpiry := @consume_expiry request isGroup expiresAt fun hn hm => by
    obtain ⟨hv, hids, htype, hcontent⟩ := mimics_expiry.1 hm
    exact h.noExpiry htype hn hv hids hcontent
  have hflag := @take_viewOnce request isGroup fun hv hm => by
    obtain ⟨hids, htype, hcontent⟩ := starts_viewOnce.1 hm
    exact h.noViewOnce htype hv hids hcontent
  have hmention := @consume_mention request isGroup fun hids hm => by
    obtain ⟨htype, hcontent⟩ := mimics_mention.1 hm
    exact h.noMention htype hids hcontent
  simp only [stages, hreply, hexpiry, hflag, hmention]

theorem roundTrips_of_legible (hid : ¬ ':' ∈ messageId) (h : Legible request isGroup expiresAt) :
    RoundTrips messageId request isGroup expiresAt := by
  obtain ⟨hexpiry, hflag, hmention, hbody⟩ := parse_eq hid (replyText request isGroup expiresAt)
  rw [stages_eq h] at hexpiry hflag hmention hbody
  have hvote : pollVote (bodyText request) = none := by
    rw [pollVote_body]
    split
    · rfl
    · rename_i htype
      exact h.noVote htype
  have hcontent : (if pollLead <+: bodyText request then (bodyText request).drop pollLead.length
      else bodyText request) = request.content := by
    unfold bodyText
    by_cases htype : request.contentType = .poll
    · simp [htype]
    · simp [htype, h.noPoll htype]
  have hread : ((expiresAt.map DartInt.print).getD [] |> DartInt.tryParse) = expiresAt := by
    cases expiresAt with
    | none => rfl
    | some n => exact DartInt.tryParse_print n
  have hids : ((mentionField request isGroup).map parseMentions).getD [] =
      mentionedIds isGroup request.mentionedUserIds := by
    by_cases hnil : mentionedIds isGroup request.mentionedUserIds = []
    · simp [mentionField, hnil]
    · simp [mentionField, hnil, parseMentions_join hnil]
  rw [RoundTrips, buildEnvelopeContent_eq]
  rcases hbody with ⟨vote, hsome, -⟩ | ⟨-, hreply, hrest⟩
  · rw [hvote] at hsome
    nomatch hsome
  · exact ⟨hrest.trans hcontent, hreply, hexpiry.trans hread, hflag, hmention.trans hids⟩

theorem stages_mention (text : Text) : (stages text).mention = consumeValue (stages text).flag.2 mentionLead := rfl

theorem flag_eq (text : Text) : (stages text).flag =
    if viewOnceLead <+: (stages text).expiry.2 then (true, (stages text).expiry.2.drop viewOnceLead.length)
    else (false, (stages text).expiry.2) := rfl

theorem mention_length (text : Text) :
    (stages text).mention.2.length ≤ (stages text).flag.2.length ∧
      (stages text).flag.2.length ≤ (stages text).expiry.2.length ∧
      (stages text).expiry.2.length ≤ (stages text).reply.2.length :=
  ⟨consumeValue_length _ _, flag_length text, consumeValue_length _ _⟩

theorem bodyText_eq (htype : request.contentType ≠ .poll) : bodyText request = request.content := by
  simp [bodyText, htype]

theorem mentionText_eq (hids : mentionedIds isGroup request.mentionedUserIds = [])
    (htype : request.contentType ≠ .poll) : mentionText request isGroup = request.content := by
  simp [mentionText, mentionField_eq_none.2 hids, fieldText, bodyText_eq htype]

theorem viewOnceText_eq (hv : request.isViewOnce = false) (hids : mentionedIds isGroup request.mentionedUserIds = [])
    (htype : request.contentType ≠ .poll) : viewOnceText request isGroup = request.content := by
  simp [viewOnceText, hv, mentionText_eq hids htype]

theorem expiryText_eq (he : expiresAt = none) (hv : request.isViewOnce = false)
    (hids : mentionedIds isGroup request.mentionedUserIds = []) (htype : request.contentType ≠ .poll) :
    expiryText request isGroup expiresAt = request.content := by
  simp [expiryText, he, fieldText, viewOnceText_eq hv hids htype]

theorem legible_of_roundTrips (hid : ¬ ':' ∈ messageId) (h : RoundTrips messageId request isGroup expiresAt) :
    Legible request isGroup expiresAt := by
  rw [RoundTrips, buildEnvelopeContent_eq] at h
  obtain ⟨hcontent, hreplyTo, -, -, -⟩ := h
  have hkept := content_length hid (replyText request isGroup expiresAt)
  obtain ⟨hm, hf, he⟩ := mention_length (replyText request isGroup expiresAt)
  obtain ⟨-, -, -, hbody⟩ := parse_eq hid (replyText request isGroup expiresAt)
  rw [hcontent] at hkept
  -- the reply
  have hcolon : ∀ replyToId ∈ request.replyToId, ¬ ':' ∈ replyToId := by
    intro v hv hmem
    obtain ⟨w, hne, hread⟩ := consumeValue_colon hmem replyLead (expiryText request isGroup expiresAt)
    have htext : replyText request isGroup expiresAt =
        replyLead ++ v ++ [':'] ++ expiryText request isGroup expiresAt := by
      simp [replyText, fieldText, Option.mem_def.1 hv]
    have hw : (stages (replyText request isGroup expiresAt)).reply.1 = some w := by
      rw [htext]
      exact hread
    rw [Option.mem_def.1 hv] at hreplyTo
    rcases hbody with ⟨_, -, hnone, -⟩ | ⟨-, hsame, -⟩
    · rw [hnone] at hreplyTo
      nomatch hreplyTo
    · rw [hsame, hw] at hreplyTo
      exact hne (Option.some.inj hreplyTo)
  have hnoReply : request.replyToId = none → ¬ Mimics replyLead (expiryText request isGroup expiresAt) := by
    intro hn hmimics
    obtain ⟨he', hv, hids, htype, -⟩ := mimics_reply.1 hmimics
    have hshort := consumeValue_mimics hmimics
    have htext : replyText request isGroup expiresAt = expiryText request isGroup expiresAt := by
      simp [replyText, fieldText, hn]
    have hstage : (stages (replyText request isGroup expiresAt)).reply =
        consumeValue (expiryText request isGroup expiresAt) replyLead := by
      rw [htext]
      rfl
    rw [← hstage, expiryText_eq he' hv hids htype] at hshort
    omega
  have hreply : (stages (replyText request isGroup expiresAt)).reply =
      (request.replyToId, expiryText request isGroup expiresAt) := consume_fieldText hcolon hnoReply
  -- the expiry
  have hexpiryStage : (stages (replyText request isGroup expiresAt)).expiry =
      consumeValue (expiryText request isGroup expiresAt) expiryLead :=
    congrArg (fun r : Option Text × Text => consumeValue r.2 expiryLead) hreply
  have hnoExpiry : expiresAt = none → ¬ Mimics expiryLead (viewOnceText request isGroup) := by
    intro hn hmimics
    obtain ⟨hv, hids, htype, -⟩ := mimics_expiry.1 hmimics
    have hshort := consumeValue_mimics hmimics
    have htext : expiryText request isGroup expiresAt = viewOnceText request isGroup := by
      simp [expiryText, fieldText, hn]
    rw [← htext, ← hexpiryStage, expiryText_eq hn hv hids htype] at hshort
    omega
  have hexpiry := hexpiryStage.trans (consume_expiry hnoExpiry)
  -- the flag
  have hflagStage := flag_eq (replyText request isGroup expiresAt)
  rw [hexpiry] at hflagStage
  have hnoFlag : request.isViewOnce = false → ¬ viewOnceLead <+: mentionText request isGroup := by
    intro hv hstarts
    obtain ⟨hids, htype, -⟩ := starts_viewOnce.1 hstarts
    have htext : viewOnceText request isGroup = mentionText request isGroup := by simp [viewOnceText, hv]
    have hlong := hstarts.length_le
    simp only [htext, if_pos hstarts] at hflagStage
    rw [hflagStage, mentionText_eq hids htype] at hm
    rw [mentionText_eq hids htype] at hlong
    simp only [List.length_drop] at hm
    have hpos : 0 < viewOnceLead.length := by decide
    omega
  have hflag := hflagStage.trans (take_viewOnce hnoFlag)
  -- the mentions
  have hmentionStage := stages_mention (replyText request isGroup expiresAt)
  rw [hflag] at hmentionStage
  have hnoMention : mentionedIds isGroup request.mentionedUserIds = [] → ¬ Mimics mentionLead (bodyText request) := by
    intro hids hmimics
    obtain ⟨htype, -⟩ := mimics_mention.1 hmimics
    have hshort := consumeValue_mimics hmimics
    have htext : mentionText request isGroup = bodyText request := by
      simp [mentionText, fieldText, mentionField_eq_none.2 hids]
    rw [← htext, ← hmentionStage, mentionText_eq hids htype] at hshort
    omega
  have hmention := hmentionStage.trans (consume_mention hnoMention)
  rw [hmention, hcontent] at hbody
  -- what is left is the content
  have hvote : request.contentType ≠ .poll → pollVote request.content = none := by
    intro htype
    rw [bodyText_eq htype] at hbody
    rcases hbody with ⟨vote, hsome, -, hnil⟩ | ⟨hnone, -⟩
    · have hempty : pollVote ([] : Text) = none := by decide
      rw [hnil] at hsome
      nomatch hempty.symm.trans hsome
    · exact hnone
  have hpoll : request.contentType ≠ .poll → ¬ pollLead <+: request.content := by
    intro htype hstarts
    have hnone := hvote htype
    rw [bodyText_eq htype] at hbody
    rcases hbody with ⟨vote, hsome, -⟩ | ⟨-, -, hrest⟩
    · rw [hnone] at hsome
      nomatch hsome
    · rw [if_pos hstarts] at hrest
      have hlong := hstarts.length_le
      have hlength := congrArg List.length hrest
      simp only [List.length_drop] at hlength
      have hpos : 0 < pollLead.length := by decide
      omega
  exact
    { reply := hcolon
      noReply := fun htype hn he' hv hids hc => hnoReply hn (mimics_reply.2 ⟨he', hv, hids, htype, hc⟩)
      noExpiry := fun htype hn hv hids hc => hnoExpiry hn (mimics_expiry.2 ⟨hv, hids, htype, hc⟩)
      noViewOnce := fun htype hv hids hc => hnoFlag hv (starts_viewOnce.2 ⟨hids, htype, hc⟩)
      noMention := fun htype hids hc => hnoMention hids (mimics_mention.2 ⟨htype, hc⟩)
      noVote := hvote
      noPoll := hpoll }

end RoundTrip

theorem not_colon_newMessageId (micros : Int64) (random : List (Fin 16)) : ¬ ':' ∈ newMessageId micros random := by
  intro h
  rcases List.mem_append.1 h with hprint | hrest
  · rcases DartInt.mem_print hprint with hminus | hdigit
    · exact absurd hminus (by decide)
    · exact absurd hdigit (by decide)
  · rcases List.mem_cons.1 hrest with hminus | hhex
    · exact absurd hminus (by decide)
    · obtain ⟨d, -, hd⟩ := List.mem_map.1 hhex
      exact absurd hd (by revert d; decide)

theorem mentionedIds_eq_self {ids : List Text} (hnodup : ids.Nodup)
    (hclean : ∀ id ∈ ids, id ≠ [] ∧ ¬ ',' ∈ id ∧ ¬ ':' ∈ id ∧ trim id = id) : mentionedIds true ids = ids := by
  have hmap : (ids.map fun id => trim (id.filter fun c => !(c == ',') && !(c == ':'))) = ids := by
    refine (List.map_congr_left fun id hid => ?_).trans (List.map_id ids)
    obtain ⟨-, hcomma, hcolon, htrim⟩ := hclean id hid
    have hall : ∀ c ∈ id, (!(c == ',') && !(c == ':')) = true := by
      intro c hc
      have hne : c ≠ ',' := fun he => hcomma (he ▸ hc)
      have hne' : c ≠ ':' := fun he => hcolon (he ▸ hc)
      simp [hne, hne']
    rw [List.filter_eq_self.2 hall]
    exact htrim
  have hkeep : ids.filter (fun id => decide (id ≠ [])) = ids :=
    List.filter_eq_self.2 fun id hid => decide_eq_true (hclean id hid).1
  rw [mentionedIds, if_pos rfl, hmap, hkeep, LinkedSet.elems_ofList hnodup]

/-- **Messages come back exactly if they are legible**, and of clean mentions of a group none is left out. -/
theorem roundTrips_iff (micros : Int64) (random : List (Fin 16)) (request : SendMessageRequest) (isGroup : Bool)
    (expiresAt : Option Int64) :
    (RoundTrips (newMessageId micros random) request isGroup expiresAt ↔ Legible request isGroup expiresAt) ∧
      ((∀ id ∈ request.mentionedUserIds, id ≠ [] ∧ ¬ ',' ∈ id ∧ ¬ ':' ∈ id ∧ trim id = id) →
        request.mentionedUserIds.Nodup → mentionedIds true request.mentionedUserIds = request.mentionedUserIds) :=
  ⟨⟨legible_of_roundTrips (not_colon_newMessageId micros random),
    roundTrips_of_legible (not_colon_newMessageId micros random)⟩, fun hclean hnodup =>
      mentionedIds_eq_self hnodup hclean⟩

/-- A text that starts like an expiry loses its start and sets one. -/
theorem expiry_in_content :
    ¬ RoundTrips (newMessageId 0 []) ⟨"EXP:5:hi".toList, none, .text, false, []⟩ false none := by
  unfold RoundTrips
  decide +kernel

end Envelope
end SecureChat
