import SecureChat.ChatControls
/-!
# EditConvergence — what becomes of a message whose edits and deletions come in any order

The edits and the deletion of a message may be processed in any order and more than once.  Each edit that is accepted
replaces the content, so the one that is processed last wins and not the latest; only a deletion wins in every order.
`edits_converge` says in which orders the message shows what its author last wrote, and for which sets of controls the
whole row is the same in every order.
-/
namespace SecureChat
namespace ChatControl

open Envelope (StorageMessageContentType)
open GroupControl (Text trim)
open Storage (ConversationEntity)

inductive Revision where
  | edit (newContent : Text) (timestamp : ℤ)
  | delete (timestamp : ℤ)
deriving DecidableEq

namespace Revision

def timestamp : Revision → ℤ
  | .edit _ timestamp | .delete timestamp => timestamp

def content : Revision → Text
  | .edit newContent _ => trim newContent
  | .delete _ => deletedContent

def deletes : Revision → Bool
  | .edit _ _ => false
  | .delete _ => true

def accepted : Revision → Bool
  | .edit newContent _ =>
    decide (trim newContent ≠ []) && decide (GroupControl.length (trim newContent) ≤ maxEditLength)
  | .delete _ => false

def body (messageId : Text) : Revision → Body
  | .edit newContent _ => .message_edit messageId newContent
  | .delete _ => .message_delete messageId

end Revision

structure Delivery where
  now : ℤ
  revision : Revision
deriving DecidableEq

def Delivery.timely (x : Delivery) : Prop := x.revision.timestamp ≤ x.now + peerClockTolerance

instance decidableTimely (x : Delivery) : Decidable x.timely := inferInstanceAs (Decidable (_ ≤ _))

section Devices

variable (S : Service) (session : Session) (senderId recipientId messageId : Text)

def process (d : Device) (x : Delivery) : Device :=
  _handle { S with now := x.now } session
    ⟨senderId, recipientId, x.revision.timestamp, x.revision.body messageId⟩ d

end Devices

def revise (m : Message) : Revision → Message
  | .delete _ => { m with content := deletedContent, contentType := .deleted }
  | .edit newContent timestamp =>
    if m.contentType = .text ∧ (Revision.edit newContent timestamp).accepted = true then
      { m with content := trim newContent, editedAt := some timestamp, editHistory := some [m.content] }
    else m

def Latest (rs : List Revision) (r : Revision) : Prop :=
  r ∈ rs ∧ r.accepted = true ∧ ∀ r' ∈ rs, r'.accepted = true → r'.timestamp ≤ r.timestamp

/-- The row is deleted if the message was, and has otherwise the content of the latest edit, if there is one. -/
structure Shows (m : Message) (rs : List Revision) (row : Message) : Prop where
  deleted : (∃ r ∈ rs, r.deletes = true) → row.contentType = .deleted ∧ row.content = deletedContent
  undeleted : (∀ r ∈ rs, r.deletes = false) → row.contentType = .text
  edited : (∀ r ∈ rs, r.deletes = false) → ∀ r, Latest rs r → row.content = r.content
  unedited : (∀ r ∈ rs, r.deletes = false) → (∀ r ∈ rs, r.accepted = false) → row.content = m.content

section Rows

variable {m : Message} {rs rs' : List Revision} {r : Revision}

theorem revise_delete (h : r.deletes = true) :
    revise m r = { m with content := deletedContent, contentType := .deleted } := by
  cases r with
  | edit newContent timestamp => cases h
  | delete timestamp => rfl

theorem revise_accepted (ht : m.contentType = .text) (h : r.accepted = true) :
    revise m r = { m with content := r.content, editedAt := some r.timestamp, editHistory := some [m.content] } := by
  cases r with
  | edit newContent timestamp => exact if_pos ⟨ht, h⟩
  | delete timestamp => cases h

theorem revise_other (hd : r.deletes = false) (h : m.contentType ≠ .text ∨ r.accepted = false) : revise m r = m := by
  cases r with
  | delete timestamp => cases hd
  | edit newContent timestamp =>
    refine if_neg fun hboth => ?_
    rcases h with h | h
    · exact h hboth.1
    · rw [hboth.2] at h
      cases h

theorem foldl_snoc : (rs ++ [r]).foldl revise m = revise (rs.foldl revise m) r := List.foldl_concat ..

theorem foldl_deleted (ht : m.contentType = .deleted) (hc : m.content = deletedContent) : rs.foldl revise m = m := by
  induction rs with
  | nil => rfl
  | cons r rs ih =>
    have hr : revise m r = m := by
      cases hd : r.deletes with
      | false => exact revise_other hd (.inl (by rw [ht]; decide))
      | true =>
        rw [revise_delete hd, ← hc, ← ht]
    rw [List.foldl_cons, hr, ih]

theorem foldl_of_not_accepted (h : ∀ r ∈ rs, r.deletes = false ∧ r.accepted = false) : rs.foldl revise m = m := by
  induction rs with
  | nil => rfl
  | cons r rs ih =>
    have hr := h r List.mem_cons_self
    rw [List.foldl_cons, revise_other hr.1 (.inr hr.2), ih fun r hr => h r (List.mem_cons_of_mem _ hr)]

theorem foldl_shows (ht : m.contentType = .text) :
    ((∃ r ∈ rs, r.deletes = true) → (rs.foldl revise m).contentType = .deleted ∧
      (rs.foldl revise m).content = deletedContent) ∧
    ((∀ r ∈ rs, r.deletes = false) → (rs.foldl revise m).contentType = .text ∧
      (rs.foldl revise m).content = ((rs.filter Revision.accepted).getLast?.map Revision.content).getD m.content) := by
  induction rs using List.reverseRecOn with
  | nil => exact ⟨fun ⟨r, hr, _⟩ => (by cases hr), fun _ => ⟨ht, rfl⟩⟩
  | append_singleton rs r ih =>
    obtain ⟨ihd, ihe⟩ := ih
    rw [foldl_snoc]
    by_cases hsome : ∃ r ∈ rs, r.deletes = true
    · obtain ⟨htype, hcontent⟩ := ihd hsome
      have hstays : revise (rs.foldl revise m) r = rs.foldl revise m :=
        show [r].foldl revise (rs.foldl revise m) = rs.foldl revise m from foldl_deleted htype hcontent
      rw [hstays]
      refine ⟨fun _ => ⟨htype, hcontent⟩, fun hnone => ?_⟩
      obtain ⟨r', hr', hd⟩ := hsome
      rw [hnone r' (List.mem_append_left _ hr')] at hd
      cases hd
    · have hnone : ∀ r ∈ rs, r.deletes = false := fun r' hr' => by
        cases hd : r'.deletes with
        | false => rfl
        | true => exact absurd ⟨r', hr', hd⟩ hsome
      obtain ⟨htype, hcontent⟩ := ihe hnone
      cases hd : r.deletes with
      | true =>
        rw [revise_delete hd]
        refine ⟨fun _ => ⟨rfl, rfl⟩, fun hall => ?_⟩
        rw [hall r (List.mem_append_right _ List.mem_cons_self)] at hd
        cases hd
      | false =>
        refine ⟨fun ⟨r', hr', hd'⟩ => ?_, fun _ => ?_⟩
        · rcases List.mem_append.1 hr' with hr' | hr'
          · exact absurd ⟨r', hr', hd'⟩ hsome
          · rw [List.mem_singleton.1 hr', hd] at hd'
            cases hd'
        · rw [List.filter_append]
          cases ha : r.accepted with
          | true =>
            rw [revise_accepted htype ha, List.filter_cons_of_pos ha, List.filter_nil, List.getLast?_concat]
            exact ⟨htype, rfl⟩
          | false =>
            rw [revise_other hd (.inr ha), List.filter_cons_of_neg (by simp [ha]), List.filter_nil, List.append_nil]
            exact ⟨htype, hcontent⟩

/-- **When a row shows what it should**: there was a deletion, or the accepted edit processed last has the content of
the latest one. -/
theorem shows_iff (ht : m.contentType = .text) : Shows m rs (rs.foldl revise m) ↔
    (∃ r ∈ rs, r.deletes = true) ∨ ∀ last, (rs.filter Revision.accepted).getLast? = some last →
      ∀ r, Latest rs r → last.content = r.content := by
  obtain ⟨hdeleted, hundeleted⟩ := @foldl_shows m rs ht
  by_cases hsome : ∃ r ∈ rs, r.deletes = true
  · refine iff_of_true ⟨hdeleted, ?_, ?_, ?_⟩ (.inl hsome)
    all_goals
      intro hnone
      obtain ⟨r, hr, hd⟩ := hsome
      rw [hnone r hr] at hd
      cases hd
  · have hnone : ∀ r ∈ rs, r.deletes = false := fun r' hr' => by
      cases hd : r'.deletes with
      | false => rfl
      | true => exact absurd ⟨r', hr', hd⟩ hsome
    obtain ⟨htype, hcontent⟩ := hundeleted hnone
    constructor
    · intro hshows
      refine .inr fun last hlast r hr => ?_
      rw [← hshows.edited hnone r hr, hcontent, hlast]
      rfl
    · rintro (h | hlast)
      · exact absurd h hsome
      · refine ⟨fun h => absurd h hsome, fun _ => htype, fun _ r hr => ?_, fun _ hrefused => ?_⟩
        · obtain ⟨last, hl⟩ : ∃ last, (rs.filter Revision.accepted).getLast? = some last := by
            refine Option.isSome_iff_exists.1 (List.getLast?_isSome.2 ?_)
            exact List.ne_nil_of_mem (List.mem_filter.2 ⟨hr.1, hr.2.1⟩)
          rw [hcontent, hl]
          exact hlast last hl r hr
        · have hnil : rs.filter Revision.accepted = [] :=
            List.filter_eq_nil_iff.2 fun r hr => by simp [hrefused r hr]
          rw [hcontent, hnil]
          rfl

end Rows

/-! ## Whole rows -/

/-- In every order and however often the controls of the set come, the row is the same and shows what it should. -/
def Converges (m : Message) (S : List Revision) : Prop :=
  ∃ row, Shows m S row ∧ ∀ rs : List Revision, (∀ r, r ∈ rs ↔ r ∈ S) → rs.foldl revise m = row

section Sets

variable {m : Message} {rs S : List Revision} {r e : Revision}

theorem foldl_fixed (h : ∀ r ∈ rs, r.deletes = false → revise m r = m) :
    rs.foldl revise m = if rs.any Revision.deletes then revise m (.delete 0) else m := by
  induction rs with
  | nil => rfl
  | cons r rs ih =>
    rw [List.foldl_cons, List.any_cons]
    cases hd : r.deletes with
    | true =>
      rw [revise_delete hd, foldl_deleted rfl rfl, Bool.true_or, if_pos rfl]
      rfl
    | false =>
      rw [h r List.mem_cons_self hd, ih fun r hr => h r (List.mem_cons_of_mem _ hr), Bool.false_or]

theorem foldl_fixed_accepted (h : ∀ r ∈ rs, r.accepted = true → revise m r = m) :
    rs.foldl revise m = if rs.any Revision.deletes then revise m (.delete 0) else m := by
  refine foldl_fixed fun r hr hd => ?_
  cases ha : r.accepted with
  | true => exact h r hr ha
  | false => exact revise_other hd (.inr ha)

theorem revise_twice (ht : m.contentType = .text) (he : e.accepted = true) : revise (revise m e) e =
    { m with content := e.content, editedAt := some e.timestamp, editHistory := some [e.content] } := by
  have ht' : (revise m e).contentType = .text := by
    rw [revise_accepted ht he]
    exact ht
  rw [revise_accepted ht' he, revise_accepted ht he]

theorem foldl_single (ht : m.contentType = .text) (he : e.accepted = true) (hc : e.content = m.content)
    (hnone : ∀ r ∈ rs, r.deletes = false) (hall : ∀ r ∈ rs, r.accepted = true → r = e) (hmem : e ∈ rs) :
    rs.foldl revise m = revise m e := by
  have hagain : revise (revise m e) e = revise m e := by
    rw [revise_twice ht he, revise_accepted ht he, hc]
  have hfixed : ∀ l : List Revision, (∀ r ∈ l, r ∈ rs) → l.foldl revise (revise m e) = revise m e := by
    intro l hl
    rw [foldl_fixed fun r hr hd => ?_]
    · have hany : l.any Revision.deletes = false :=
        List.any_eq_false.2 fun r hr => by simp [hnone r (hl r hr)]
      rw [hany]
      exact if_neg (by simp)
    · cases ha : r.accepted with
      | true => rw [hall r (hl r hr) ha, hagain]
      | false => exact revise_other hd (.inr ha)
  induction rs with
  | nil => cases hmem
  | cons r rs ih =>
    rw [List.foldl_cons]
    by_cases hr : r = e
    · rw [hr]
      exact hfixed rs fun r' hr' => List.mem_cons_of_mem r hr'
    · have ha : r.accepted = false := by
        cases ha : r.accepted with
        | true => exact absurd (hall r List.mem_cons_self ha) hr
        | false => rfl
      rw [revise_other (hnone r List.mem_cons_self) (.inr ha)]
      refine ih (fun r' hr' => hnone r' (List.mem_cons_of_mem r hr'))
        (fun r' hr' => hall r' (List.mem_cons_of_mem r hr')) ?_ fun l hl => hfixed l fun r' hr' =>
          List.mem_cons_of_mem r (hl r' hr')
      rcases List.mem_cons.1 hmem with h | h
      · exact absurd h.symm hr
      · exact h

/-- **Sets of controls whose order never shows in the row**: those whose accepted edits change nothing, and a single
edit that keeps the content. -/
theorem converges_iff (ht : m.contentType = .text)
    (hdistinct : ∀ r ∈ S, ∀ r' ∈ S, r.accepted = true → r'.accepted = true → r.timestamp = r'.timestamp → r = r') :
    Converges m S ↔ (∀ r ∈ S, r.accepted = true → revise m r = m) ∨
      ((∀ r ∈ S, r.deletes = false) ∧ ∃ e ∈ S, e.accepted = true ∧ e.content = m.content ∧
        ∀ r ∈ S, r.accepted = true → r = e) := by
  constructor
  · rintro ⟨row, -, hsame⟩
    by_cases hfixed : ∀ r ∈ S, r.accepted = true → revise m r = m
    · exact .inl hfixed
    · refine .inr ?_
      obtain ⟨e, he⟩ := not_forall.1 hfixed
      obtain ⟨heS, he⟩ := Classical.not_imp.1 he
      obtain ⟨hacc, hchanges⟩ := Classical.not_imp.1 he
      by_cases hsome : ∃ d ∈ S, d.deletes = true
      · -- the deletions first, or the edit once or twice before them
        obtain ⟨d, hdS, hd⟩ := hsome
        have hfirst : ∀ m' : Message, (d :: S).foldl revise m' = revise m' (.delete 0) := by
          intro m'
          rw [List.foldl_cons, revise_delete hd, foldl_deleted rfl rfl]
          rfl
        have hnever := hsame (d :: S) fun r => ⟨fun hr => (List.mem_cons.1 hr).elim (· ▸ hdS) id,
          List.mem_cons_of_mem d⟩
        have honce := hsame (e :: d :: S) fun r => ⟨fun hr => (List.mem_cons.1 hr).elim (· ▸ heS) fun hr =>
          (List.mem_cons.1 hr).elim (· ▸ hdS) id, fun hr => List.mem_cons_of_mem e (List.mem_cons_of_mem d hr)⟩
        have htwice := hsame (e :: e :: d :: S) fun r => ⟨fun hr => (List.mem_cons.1 hr).elim (· ▸ heS) fun hr =>
          (List.mem_cons.1 hr).elim (· ▸ heS) fun hr => (List.mem_cons.1 hr).elim (· ▸ hdS) id,
          fun hr => List.mem_cons_of_mem e (List.mem_cons_of_mem e (List.mem_cons_of_mem d hr))⟩
        rw [hfirst] at hnever
        rw [List.foldl_cons, hfirst, ← hnever, revise_accepted ht hacc] at honce
        rw [List.foldl_cons, List.foldl_cons, hfirst, ← hnever, revise_twice ht hacc] at htwice
        have hedited : some e.timestamp = m.editedAt := congrArg Message.editedAt honce
        have hbefore : some [m.content] = m.editHistory := congrArg Message.editHistory honce
        have hafter : some [e.content] = m.editHistory := congrArg Message.editHistory htwice
        have hcontent : e.content = m.content := by
          rw [← hbefore] at hafter
          exact (List.cons.inj (Option.some.inj hafter)).1
        refine absurd ?_ hchanges
        rw [revise_accepted ht hacc, hcontent, hedited, hbefore]
      · have hnone : ∀ r ∈ S, r.deletes = false := fun r hr => by
          cases hd : r.deletes with
          | false => rfl
          | true => exact absurd ⟨r, hr, hd⟩ hsome
        -- any accepted edit may come last, twice
        have hlast : ∀ r ∈ S, r.accepted = true → row.editedAt = some r.timestamp ∧
            row.editHistory = some [r.content] := by
          intro r hr ha
          have hrow := hsame (S ++ [r, r]) fun r' => ⟨fun hr' => (List.mem_append.1 hr').elim id fun hr' => by
            simp only [List.mem_cons, List.not_mem_nil, or_false, or_self] at hr'
            exact hr' ▸ hr, List.mem_append_left _⟩
          have htype : (S.foldl revise m).contentType = .text := ((foldl_shows ht).2 hnone).1
          rw [List.foldl_append, List.foldl_cons, List.foldl_cons, List.foldl_nil, revise_twice htype ha] at hrow
          rw [← hrow]
          exact ⟨rfl, rfl⟩
        have hone : ∀ r ∈ S, r.accepted = true → r = e := by
          intro r hr ha
          refine hdistinct r hr e heS ha hacc (Option.some.inj ?_)
          rw [← (hlast r hr ha).1, ← (hlast e heS hacc).1]
        refine ⟨hnone, e, heS, hacc, ?_, hone⟩
        -- the edit is processed once
        have hrow := hsame (e :: S.filter fun r => !r.accepted) fun r => by
          rw [List.mem_cons, List.mem_filter]
          constructor
          · rintro (rfl | hr)
            · exact heS
            · exact hr.1
          · intro hr
            cases ha : r.accepted with
            | true => exact .inl (hone r hr ha)
            | false => exact .inr ⟨hr, by simp⟩
        rw [List.foldl_cons, foldl_of_not_accepted fun r hr => ?_, revise_accepted ht hacc] at hrow
        · have hhistory := (hlast e heS hacc).2
          rw [← hrow] at hhistory
          exact ((List.cons.inj (Option.some.inj hhistory)).1).symm
        · obtain ⟨hr, ha⟩ := List.mem_filter.1 hr
          exact ⟨hnone r hr, by simpa using ha⟩
  · intro hcond
    have hshows : Shows m S (S.foldl revise m) := by
      refine (shows_iff ht).2 ?_
      rcases hcond with hfixed | ⟨hnone, e, -, -, -, hone⟩
      · refine .inr fun last hlast r hr => ?_
        have hmem := List.mem_filter.1 (List.mem_of_getLast? hlast)
        have hkept : ∀ r ∈ S, r.accepted = true → r.content = m.content := by
          intro r hr ha
          have hcontent := congrArg Message.content (hfixed r hr ha)
          rwa [revise_accepted ht ha] at hcontent
        rw [hkept last hmem.1 hmem.2, hkept r hr.1 hr.2.1]
      · refine .inr fun last hlast r hr => ?_
        have hmem := List.mem_filter.1 (List.mem_of_getLast? hlast)
        rw [hone last hmem.1 hmem.2, hone r hr.1 hr.2.1]
    refine ⟨_, hshows, fun rs hrs => ?_⟩
    rcases hcond with hfixed | ⟨hnone, e, heS, hacc, hcontent, hone⟩
    · have hany : rs.any Revision.deletes = S.any Revision.deletes := by
        rw [Bool.eq_iff_iff, List.any_eq_true, List.any_eq_true]
        simp only [hrs]
      rw [foldl_fixed_accepted fun r hr => hfixed r ((hrs r).1 hr), foldl_fixed_accepted hfixed, hany]
    · rw [foldl_single ht hacc hcontent hnone hone heS, foldl_single ht hacc hcontent
        (fun r hr => hnone r ((hrs r).1 hr)) (fun r hr => hone r ((hrs r).1 hr)) ((hrs e).2 heS)]

end Sets

/-! ## The device -/

section Devices

variable {S : Service} {session : Session} {senderId recipientId messageId : Text} {d : Device} {m : Message}

theorem patchMessage_self {f : Message → Message} (hf : ∀ m, (f m).id = m.id) (hm : d.messages.get messageId = some m) :
    (d.patchMessage messageId f).messages.get messageId = some (f m) := by
  show (d.messages.patch messageId f).get messageId = _
  rw [Keyed.get_patch hf, if_pos rfl, hm]
  rfl

/-- **A control of the author that is processed in time** revises the row, and leaves the conversations. -/
theorem process_row {x : Delivery} (hm : d.messages.get messageId = some m) (hs : m.senderId = senderId)
    (ha : _senderAllowed session (d.conversations.get m.conversationId) senderId = true) (hx : x.timely) :
    (process S session senderId recipientId messageId d x).messages.get messageId = some (revise m x.revision) ∧
      (process S session senderId recipientId messageId d x).conversations = d.conversations := by
  have hnamed : named messageId d = some (m, d.conversations.get m.conversationId) := by
    unfold named
    rw [hm]
    rfl
  obtain ⟨now, revision⟩ := x
  cases revision with
  | delete timestamp =>
    have hprocess : process S session senderId recipientId messageId d ⟨now, .delete timestamp⟩ =
        d.patchMessage messageId fun m => { m with content := deletedContent, contentType := .deleted } := by
      show _delete session senderId messageId d = _
      unfold _delete
      rw [hnamed]
      exact if_neg (by simp [hs, ha])
    rw [hprocess]
    exact ⟨patchMessage_self (fun _ => rfl) hm, rfl⟩
  | edit newContent timestamp =>
    have hbounded : _boundedTimestamp now timestamp = timestamp := if_neg (not_lt.2 hx)
    by_cases htakes : m.contentType = .text ∧ (Revision.edit newContent timestamp).accepted = true
    · have hprocess : process S session senderId recipientId messageId d ⟨now, .edit newContent timestamp⟩ =
          d.patchMessage messageId fun current => { current with
            content := trim newContent
            editedAt := some timestamp
            editHistory := some [m.content] } := by
        show _edit { S with now := now } session senderId messageId newContent timestamp d = _
        unfold _edit
        rw [hnamed]
        have haccepted : trim newContent ≠ [] ∧ GroupControl.length (trim newContent) ≤ maxEditLength := by
          simpa [Revision.accepted] using htakes.2
        have hpasses : ¬ (m.senderId ≠ senderId ∨ m.contentType ≠ .text ∨ trim newContent = [] ∨
            maxEditLength < GroupControl.length (trim newContent) ∨
            ¬ _senderAllowed session (d.conversations.get m.conversationId) senderId = true) := by
          simp only [not_or, not_not]
          exact ⟨hs, htakes.1, haccepted.1, by omega, ha⟩
        dsimp only
        rw [if_neg hpasses, hbounded]
      rw [hprocess, revise, if_pos htakes]
      exact ⟨patchMessage_self (fun _ => rfl) hm, rfl⟩
    · have hprocess : process S session senderId recipientId messageId d ⟨now, .edit newContent timestamp⟩ = d := by
        show _edit { S with now := now } session senderId messageId newContent timestamp d = _
        unfold _edit
        rw [hnamed]
        refine if_pos ?_
        by_contra hpasses
        simp only [not_or, not_not] at hpasses
        obtain ⟨-, htype, hne, hlength, -⟩ := hpasses
        exact htakes ⟨htype, by simp [Revision.accepted, hne]; omega⟩
      rw [hprocess, revise, if_neg htakes]
      exact ⟨hm, rfl⟩

theorem revise_keeps (r : Revision) :
    (revise m r).senderId = m.senderId ∧ (revise m r).conversationId = m.conversationId := by
  cases r with
  | delete timestamp => exact ⟨rfl, rfl⟩
  | edit newContent timestamp =>
    rw [revise]
    by_cases htakes : m.contentType = .text ∧ (Revision.edit newContent timestamp).accepted = true
    · rw [if_pos htakes]
      exact ⟨rfl, rfl⟩
    · rw [if_neg htakes]
      exact ⟨rfl, rfl⟩

theorem process_run {xs : List Delivery} (hm : d.messages.get messageId = some m) (hs : m.senderId = senderId)
    (ha : _senderAllowed session (d.conversations.get m.conversationId) senderId = true) (hx : ∀ x ∈ xs, x.timely) :
    (xs.foldl (process S session senderId recipientId messageId) d).messages.get messageId =
      some ((xs.map Delivery.revision).foldl revise m) := by
  induction xs generalizing d m with
  | nil => exact hm
  | cons x xs ih =>
    obtain ⟨hrow, hconversations⟩ :
        (process S session senderId recipientId messageId d x).messages.get messageId = some (revise m x.revision) ∧
          (process S session senderId recipientId messageId d x).conversations = d.conversations :=
      process_row hm hs ha (hx x List.mem_cons_self)
    obtain ⟨hsender, hconversation⟩ := revise_keeps (m := m) x.revision
    rw [List.foldl_cons, List.map_cons, List.foldl_cons]
    refine ih hrow (hsender.trans hs) ?_ fun y hy => hx y (List.mem_cons_of_mem x hy)
    rw [hconversation, hconversations]
    exact ha

/-- **What order does to a message.**  In an order it shows its deletion or its latest edit if it is deleted, or the
accepted edit that comes last has the content of the latest.  The row is the same in every order for the sets whose
accepted edits change nothing, and for a single edit that keeps the content. -/
theorem edits_converge (hm : d.messages.get messageId = some m) (ht : m.contentType = .text)
    (hs : m.senderId = senderId)
    (ha : _senderAllowed session (d.conversations.get m.conversationId) senderId = true) :
    (∀ xs : List Delivery, (∀ x ∈ xs, x.timely) →
      ((∃ row, (xs.foldl (process S session senderId recipientId messageId) d).messages.get messageId = some row ∧
        Shows m (xs.map Delivery.revision) row) ↔
      (∃ r ∈ xs.map Delivery.revision, r.deletes = true) ∨
        ∀ last, ((xs.map Delivery.revision).filter Revision.accepted).getLast? = some last →
          ∀ r, Latest (xs.map Delivery.revision) r → last.content = r.content)) ∧
    ∀ controls : List Revision, (∀ r ∈ controls, ∀ r' ∈ controls, r.accepted = true → r'.accepted = true →
        r.timestamp = r'.timestamp → r = r') →
      ((∃ row, Shows m controls row ∧ ∀ xs : List Delivery, (∀ x ∈ xs, x.timely) →
        (∀ r, r ∈ xs.map Delivery.revision ↔ r ∈ controls) →
          (xs.foldl (process S session senderId recipientId messageId) d).messages.get messageId = some row) ↔
      (∀ r ∈ controls, r.accepted = true → revise m r = m) ∨
        ((∀ r ∈ controls, r.deletes = false) ∧ ∃ e ∈ controls, e.accepted = true ∧ e.content = m.content ∧
          ∀ r ∈ controls, r.accepted = true → r = e)) := by
  constructor
  · intro xs hx
    rw [process_run hm hs ha hx, ← shows_iff ht]
    constructor
    · rintro ⟨row, hrow, hshows⟩
      cases hrow
      exact hshows
    · intro hshows
      exact ⟨_, rfl, hshows⟩
  · intro controls hdistinct
    rw [← converges_iff ht hdistinct]
    constructor
    · rintro ⟨row, hshows, hsame⟩
      refine ⟨row, hshows, fun rs hrs => ?_⟩
      -- the controls are processed at their own times
      let xs : List Delivery := rs.map fun r => ⟨r.timestamp, r⟩
      have hback : xs.map Delivery.revision = rs := (List.map_map).trans (List.map_id rs)
      have htimely : ∀ x ∈ xs, x.timely := by
        intro x hx
        obtain ⟨r, -, rfl⟩ := List.mem_map.1 hx
        show r.timestamp ≤ r.timestamp + peerClockTolerance
        unfold peerClockTolerance
        omega
      have hrow := hsame xs htimely (by rwa [hback])
      rw [process_run hm hs ha htimely, hback] at hrow
      exact Option.some.inj hrow
    · rintro ⟨row, hshows, hsame⟩
      refine ⟨row, hshows, fun xs hx hrs => ?_⟩
      rw [process_run hm hs ha hx, hsame _ hrs]

end Devices

section Sample

def quietService : Service where
  now := 0
  isValidMessageReaction := fun _ => true
  verifies _ _ := false
  timerNotice _ _ _ _ := []
  timerNoticeId _ _ _ _ := []

def veliMessage : Message where
  id := "m".toList
  conversationId := "veli".toList
  senderId := "veli".toList
  content := "bir".toList
  contentType := .text
  timestamp := 5
  status := .delivered
  isOutgoing := false

def veliDevice : Device where
  conversations := Keyed.empty.insert { id := "veli".toList, peerId := "veli".toList, peerName := [], peerPhone := [] }
  messages := Keyed.empty.insert veliMessage

def veliRow (xs : List Delivery) : Option Message :=
  (xs.foldl (process quietService { userId := some "ali".toList } "veli".toList "ali".toList "m".toList)
    veliDevice).messages.get "m".toList

def firstEdit : Revision := .edit "iki".toList 10

def secondEdit : Revision := .edit "üç".toList 20

theorem latest_secondEdit {r : Revision} (h : Latest [firstEdit, secondEdit] r) : r = secondEdit := by
  obtain ⟨hmem, -, hlatest⟩ := h
  have hle := hlatest secondEdit (by simp) (by decide)
  rcases List.mem_cons.1 hmem with rfl | hr
  · exact absurd hle (by decide)
  · exact List.mem_singleton.1 hr

/-- Two edits in the order in which they were made. -/
theorem edits_converge_inOrder :
    ∃ row, veliRow [⟨10, firstEdit⟩, ⟨20, secondEdit⟩] = some row ∧ Shows veliMessage [firstEdit, secondEdit] row := by
  refine ((edits_converge (m := veliMessage) rfl rfl rfl (by decide +kernel)).1 [⟨10, firstEdit⟩, ⟨20, secondEdit⟩]
    (by decide)).2 ?_
  refine .inr fun last hlast r hr => ?_
  have hsecond : last = secondEdit := (Option.some.inj hlast).symm
  rw [hsecond, latest_secondEdit hr]

/-- **The edit that is processed last wins**, and not the latest one; and an edit that comes twice, or one around a
deletion, leaves other rows. -/
theorem edits_outOfOrder :
    (∃ row, veliRow [⟨20, secondEdit⟩, ⟨20, firstEdit⟩] = some row ∧ row.content = "iki".toList ∧
      ¬ Shows veliMessage [secondEdit, firstEdit] row) ∧
    (veliRow [⟨10, firstEdit⟩]).map Message.editHistory ≠
      (veliRow [⟨10, firstEdit⟩, ⟨10, firstEdit⟩]).map Message.editHistory ∧
    (veliRow [⟨10, firstEdit⟩, ⟨20, .delete 20⟩]).map Message.editedAt ≠
      (veliRow [⟨20, .delete 20⟩, ⟨20, firstEdit⟩]).map Message.editedAt := by
  refine ⟨?_, by decide +kernel, by decide +kernel⟩
  obtain ⟨row, hrow, hcontent⟩ : ∃ row, veliRow [⟨20, secondEdit⟩, ⟨20, firstEdit⟩] = some row ∧
      row.content = "iki".toList := ⟨_, rfl, by decide +kernel⟩
  refine ⟨row, hrow, hcontent, fun hshows => ?_⟩
  have hlatest : Latest [secondEdit, firstEdit] secondEdit := by
    refine ⟨by simp, by decide, fun r hr _ => ?_⟩
    rcases List.mem_cons.1 hr with rfl | hr
    · exact Int.le_refl _
    · rw [List.mem_singleton.1 hr]
      decide
  have hedited := hshows.edited (by decide) secondEdit hlatest
  rw [hcontent] at hedited
  exact absurd hedited (by decide)

end Sample

end ChatControl
end SecureChat
