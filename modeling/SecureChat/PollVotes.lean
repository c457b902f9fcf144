import SecureChat.EnvelopeRoundTrip
import SecureChat.PollService
/-!
# PollVotes — which votes of a poll are counted

A vote writes back the whole document that it has read before it was sent, and again if it could not be sent.  So it
takes away the votes of the others that were written meanwhile.  `votes_run` says that nothing else is lost.
-/
namespace SecureChat
namespace Polls

open Async
open Envelope (StorageMessageContentType trim_trim)
open GroupControl (Text trim)
open Program (get modify HoldsBeside)
open scoped GroupControl

/-! ## Selections -/

def choose (singleChoice : Bool) (selected : ℤ → Bool) (i : ℤ) : ℤ → Bool :=
  if singleChoice then fun j => !selected i && decide (j = i) else fun j => selected j || decide (j = i)

/-- The selections of a user after the user's votes of a list, in order. -/
def tally (singleChoice : Bool) (votes : List Vote) (user : Text) (selected : ℤ → Bool) : ℤ → Bool :=
  (votes.filter (·.user = user)).foldl (fun s v => choose singleChoice s v.optionIndex) selected

def AtMostOne (selected : ℤ → Bool) : Prop := ∀ i j, selected i = true → selected j = true → i = j

def Device.log (d : Device) (id : Text) : List Vote := d.cast.filter (·.message = id)

/-- The selections in `q` are those in `p` with these votes. -/
structure Shows (p q : PollData) (votes : List Vote) : Prop where
  singleChoice : q.singleChoice = p.singleChoice
  voted (user : Text) : q.voted user = tally p.singleChoice votes user (p.voted user)

/-- Every poll of the messages at the start has the selections that its users' votes have made, and with single choice
nobody has two who had not two at the start. -/
def Device.Counted (messages : Text → Option Message) (d : Device) : Prop :=
  ∀ id m p, messages id = some m → m.contentType = .poll → PollData.parse m.content = some p →
    ∃ m' q, d.messages id = some m' ∧ PollData.parse m'.content = some q ∧ Shows p q (d.log id) ∧
      ∀ user, q.singleChoice = true → AtMostOne (p.voted user) → AtMostOne (q.voted user)

def ended : Task Answer Wait Device Unit Event → Bool
  | .running (.pure _) | .running (.throw _) => true
  | _ => false

/-- The condition on the end of a step.  A poll is written only if it has not been written since the operation read it
or, where a vote is taken back, since the operation wrote it; and once a vote is written no step of it fails. -/
def unwritten (w : Wait) (answer : Option Answer) (d : Device) : Bool :=
  match w, answer with
  | .updateContent reading _ _, some _ => d.writes reading.message == reading.version
  | .restore reading vote, some _ => d.writes reading.message == vote.version + 1
  | .restore _ _, none => false
  | .send _ _, none => false
  | _, _ => true

section Selections

variable {singleChoice : Bool} {votes : List Vote} {user : Text} {s : ℤ → Bool}

@[simp] theorem tally_nil : tally singleChoice [] user s = s := rfl

theorem tally_append_singleton (v : Vote) : tally singleChoice (votes ++ [v]) user s =
    if v.user = user then choose singleChoice (tally singleChoice votes user s) v.optionIndex
    else tally singleChoice votes user s := by
  by_cases h : v.user = user
  · simp [tally, List.filter_append, h]
  · simp [tally, List.filter_append, h]

theorem atMostOne_choose (s : ℤ → Bool) (i : ℤ) : AtMostOne (choose true s i) := by
  intro j k hj hk
  simp only [choose, if_true, Bool.and_eq_true, decide_eq_true_eq] at hj hk
  exact hj.2.trans hk.2.symm

theorem AtMostOne.tally (h : AtMostOne s) : AtMostOne (tally true votes user s) := by
  induction votes using List.reverseRecOn with
  | nil => exact h
  | append_singleton votes v ih =>
    rw [tally_append_singleton]
    split
    · exact atMostOne_choose _ _
    · exact ih

end Selections

/-! ## A poll -/

namespace PollData

variable {p q : PollData} {u v : Text} {i : ℤ} {raw : Json}

theorem mem_bind_someVoters {o : Option (LinkedSet Text)} :
    v ∈ (o.bind someVoters).getD .empty ↔ v ∈ o.getD .empty := by
  cases o with
  | none => exact Iff.rfl
  | some voters =>
    show v ∈ (someVoters voters).getD .empty ↔ v ∈ voters
    unfold someVoters
    split
    · rename_i hempty
      have hnil : voters.elems = [] := List.isEmpty_iff.1 hempty
      have hnot : ¬ v ∈ voters := fun hv => by
        have hmem : v ∈ voters.elems := hv
        rw [hnil] at hmem
        cases hmem
      simp [hnot]
    · exact Iff.rfl

theorem mem_map_erase {o : Option (LinkedSet Text)} :
    v ∈ (o.bind fun voters => some (voters.erase u)).getD .empty ↔ v ∈ o.getD .empty ∧ v ≠ u := by
  cases o with
  | none => simp
  | some voters => exact LinkedSet.mem_erase

theorem voted_toggleVote (h : p.toggleVote u i = some q) :
    q.voted v = if v = u then choose p.singleChoice (p.voted u) i else p.voted v := by
  unfold toggleVote at h
  split at h
  · cases h
  cases h
  funext j
  simp only [voted, toggled, Table.get_filterMapValues, mem_bind_someVoters, Table.get_assign]
  cases hs : p.singleChoice with
  | true =>
    by_cases hj : j = i
    · subst hj
      by_cases hv : v = u
      · subst hv
        by_cases hsel : v ∈ (p.votes.get j).getD .empty
        · simp [hsel, choose, mem_map_erase, Table.get_filterMapValues, voted]
        · simp [hsel, choose, voted]
      · by_cases hsel : u ∈ (p.votes.get j).getD .empty
        · simp [hsel, hv, mem_map_erase, Table.get_filterMapValues, voted]
        · simp [hsel, hv, mem_map_erase, Table.get_filterMapValues, voted]
    · by_cases hv : v = u
      · subst hv
        simp [hj, choose, mem_map_erase, Table.get_filterMapValues]
      · simp [hj, hv, mem_map_erase, Table.get_filterMapValues, voted]
  | false =>
    by_cases hj : j = i
    · subst hj
      by_cases hv : v = u
      · subst hv
        by_cases hsel : v ∈ (p.votes.get j).getD .empty
        · simp [hsel, choose, voted]
        · simp [hsel, choose, voted]
      · by_cases hsel : u ∈ (p.votes.get j).getD .empty
        · simp [hsel, hv, voted]
        · simp [hsel, hv, voted]
    · by_cases hv : v = u
      · subst hv
        simp [hj, choose, voted]
      · simp [hj, hv, voted]

@[simp] theorem singleChoice_toggleVote (h : p.toggleVote u i = some q) : q.singleChoice = p.singleChoice := by
  unfold toggleVote at h
  split at h <;> cases h
  rfl

structure Normal (p : PollData) : Prop where
  options : ∀ option ∈ p.options, trim option = option
  indices (k : ℤ) (voters : LinkedSet Text) : p.votes.get k = some voters → 0 ≤ k ∧ k < p.options.length
  voters (user : Text) (k : ℤ) : p.voted user k = true → user ≠ []

theorem voted_iff : p.voted u i = true ↔ ∃ voters, p.votes.get i = some voters ∧ u ∈ voters := by
  unfold voted
  rw [decide_eq_true_eq]
  cases p.votes.get i with
  | none => simp
  | some voters => simp

theorem mem_entries_ofList {l : List (ℤ × LinkedSet Text)} {x : ℤ × LinkedSet Text}
    (hx : x ∈ (Table.ofList l).entries) : x ∈ l := by
  have hfold : ∀ (l : List (ℤ × LinkedSet Text)) (t : Table ℤ (LinkedSet Text)),
      x ∈ (l.foldl (fun t y => t.assign y.1 y.2) t).entries → x ∈ l ∨ x ∈ t.entries := by
    intro l
    induction l with
    | nil => exact fun t ht => .inr ht
    | cons y l ih =>
      intro t ht
      rcases ih _ ht with hl | hassign
      · exact .inl (List.mem_cons_of_mem y hl)
      · rcases Table.mem_assign.1 hassign with rfl | ⟨-, hold⟩
        · exact .inl List.mem_cons_self
        · exact .inr hold
  rcases hfold l .empty hx with hl | hempty
  · exact hl
  · cases hempty

theorem readVoters_some {count : ℕ} {entry : String × Json} {x : ℤ × LinkedSet Text}
    (h : readVoters count entry = some x) : (0 ≤ x.1 ∧ x.1 < count) ∧ ∀ u ∈ x.2, u ≠ [] := by
  unfold readVoters at h
  split at h
  · split at h
    · rename_i hrange
      cases h
      refine ⟨hrange, fun u hu => ?_⟩
      exact of_decide_eq_true (List.mem_filter.1 (LinkedSet.mem_ofList.1 hu)).2
    · cases h
  · cases h

theorem get_votesOf {count : ℕ} {voters : LinkedSet Text} (h : (votesOf count raw).get i = some voters) :
    (0 ≤ i ∧ i < count) ∧ ∀ u ∈ voters, u ≠ [] := by
  cases raw with
  | obj fields =>
    obtain ⟨entry, -, hread⟩ := List.mem_filterMap.1 (mem_entries_ofList (Table.get_eq_some.1 h))
    exact readVoters_some hread
  | _ => cases h

theorem trim_of_mem_optionsOf {options : List Text} (h : optionsOf raw = some options) :
    ∀ option ∈ options, trim option = option := by
  intro option hmem
  cases raw with
  | null =>
    cases h
    cases hmem
  | arr items =>
    cases h
    obtain ⟨t, -, rfl⟩ := List.mem_map.1 hmem
    exact trim_trim t
  | _ => cases h

theorem make_some {question : Text} {options : List Text} {singleChoice : Bool} {votes : Table ℤ (LinkedSet Text)}
    (h : make question options singleChoice votes = some p) : p.options = options ∧ p.votes = votes := by
  unfold make at h
  split at h
  · cases h
    exact ⟨rfl, rfl⟩
  · cases h

theorem normal_parse (h : parse raw = some p) : p.Normal := by
  simp only [parse, Option.bind_eq_bind, Option.bind_eq_some_iff] at h
  obtain ⟨json, -, options, hoptions, question, -, singleChoice, -, hmake⟩ := h
  obtain ⟨ho, hv⟩ := make_some hmake
  refine ⟨?_, fun k voters hk => ?_, fun user k hk => ?_⟩
  · rw [ho]
    exact trim_of_mem_optionsOf hoptions
  · rw [hv] at hk
    rw [ho]
    exact (get_votesOf hk).1
  · obtain ⟨voters, hget, hmem⟩ := voted_iff.1 hk
    rw [hv] at hget
    exact (get_votesOf hget).2 user hmem

theorem get_toggled {k : ℤ} {voters : LinkedSet Text} (h : (p.toggled u i).get k = some voters) :
    k = i ∨ ∃ before, p.votes.get k = some before := by
  by_cases hk : k = i
  · exact .inl hk
  right
  simp only [toggled, Table.get_filterMapValues, Table.get_assign, if_neg hk] at h
  obtain ⟨w, hw, -⟩ := Option.bind_eq_some_iff.1 h
  split at hw
  · rw [Table.get_filterMapValues] at hw
    obtain ⟨before, hbefore, -⟩ := Option.bind_eq_some_iff.1 hw
    exact ⟨before, hbefore⟩
  · exact ⟨w, hw⟩

theorem Normal.toggleVote (hp : p.Normal) (h : p.toggleVote u i = some q) : q.Normal := by
  have hvoted := fun user => voted_toggleVote (v := user) h
  unfold PollData.toggleVote at h
  split at h
  · cases h
  rename_i hok
  cases h
  obtain ⟨huser, hrest⟩ := not_or.1 hok
  obtain ⟨hneg, hle⟩ := not_or.1 hrest
  refine ⟨hp.options, fun k voters hk => ?_, fun user k hk => ?_⟩
  · rcases get_toggled hk with rfl | ⟨before, hbefore⟩
    · exact ⟨Int.not_lt.1 hneg, Int.not_le.1 hle⟩
    · exact hp.indices k before hbefore
  · by_cases hu : user = u
    · exact hu ▸ huser
    · rw [hvoted, if_neg hu] at hk
      exact hp.voters user k hk

theorem length_options (p : PollData) : p.options.length ≤ 4 := by
  have hvalid := p.valid
  simp only [validPoll, Bool.and_eq_true, decide_eq_true_eq] at hvalid
  exact hvalid.1.2.2

theorem readVoters_writeVoters {count : ℕ} {x : ℤ × LinkedSet Text} (hcount : count ≤ 4) (hx : 0 ≤ x.1 ∧ x.1 < count)
    (hv : ∀ u ∈ x.2, u ≠ []) : readVoters count (writeVoters x) = some x := by
  have hindex : (Int64.ofInt x.1).toInt = x.1 := by
    apply Int64.toInt_ofInt_of_le
    · omega
    · omega
  have hparse : (DartInt.tryParse (String.ofList (DartInt.print (Int64.ofInt x.1))).toList).map Int64.toInt =
      some x.1 := by
    rw [String.toList_ofList, DartInt.tryParse_print, Option.map_some, hindex]
  have hstrings : (x.2.elems.map Json.str).filterMap Json.asString = x.2.elems := by
    rw [List.filterMap_map]
    exact List.filterMap_some
  have hfilter : x.2.elems.filter (fun id => decide (id ≠ [])) = x.2.elems :=
    List.filter_eq_self.2 fun u hu => decide_eq_true (hv u hu)
  have hset : LinkedSet.ofList x.2.elems = x.2 := by
    have helems := LinkedSet.elems_ofList x.2.nodup
    cases hl : LinkedSet.ofList x.2.elems with
    | mk elems nodup =>
      rw [hl] at helems
      cases helems
      rfl
  simp only [readVoters, writeVoters, Json.strings, hparse, if_pos hx, hstrings, hfilter, hset]

/-- **A poll is read back** as it was written: the question without the spaces around it, and all the votes. -/
theorem parse_encode (hp : p.Normal) :
    ∃ q, parse p.encode = some q ∧ q.singleChoice = p.singleChoice ∧ q.options = p.options ∧
      ∀ user, q.voted user = p.voted user := by
  have hoptions : optionsOf (Json.strings (p.options.map trim)) = some p.options := by
    have htrim : p.options.map trim = p.options := by
      conv_rhs => rw [← List.map_id p.options]
      exact List.map_congr_left fun option ho => hp.options option ho
    have hstrings : (p.options.map Json.str).filterMap Json.asString = p.options := by
      rw [List.filterMap_map]
      exact List.filterMap_some
    rw [htrim, Json.strings, optionsOf, hstrings, htrim]
  have hvotes : votesOf p.options.length (.obj (p.votes.entries.map writeVoters)) = Table.ofList p.votes.entries := by
    rw [votesOf, List.filterMap_map]
    congr 1
    have hall : ∀ x ∈ p.votes.entries, (readVoters p.options.length ∘ writeVoters) x = some x := by
      intro x hx
      have hget : p.votes.get x.1 = some x.2 := Table.get_eq_some.2 hx
      rw [Function.comp_apply]
      refine readVoters_writeVoters p.length_options (hp.indices x.1 x.2 hget) fun u hu => ?_
      exact hp.voters u x.1 (voted_iff.2 ⟨x.2, hget, hu⟩)
    rw [List.filterMap_congr hall]
    exact List.filterMap_some
  have hvalid : validPoll (trim p.question) p.options = true := by
    have hvalid := p.valid
    unfold validPoll at hvalid ⊢
    rwa [trim_trim]
  refine ⟨⟨trim p.question, p.options, p.singleChoice, Table.ofList p.votes.entries, hvalid⟩, ?_, rfl, rfl,
    fun user => ?_⟩
  · simp [parse, encode, hoptions, hvotes, make, hvalid]
  · funext k
    have hget : (Table.ofList p.votes.entries).get k = p.votes.get k := by
      ext voters
      rw [Table.get_ofList p.votes.nodup, Table.get_eq_some]
    simp only [voted, hget]

end PollData

/-! ## The invariant -/

/-- The poll has been written since it was read, or is as it was then. -/
structure Device.Since (d : Device) (reading : Reading) : Prop where
  le : reading.version ≤ d.writes reading.message
  same : d.writes reading.message = reading.version → d.messages reading.message = reading.found

/-- The poll has been written since the vote was, or the vote is the last one, and what was read shows the others. -/
structure Device.Undoable (messages : Text → Option Message) (d : Device) (reading : Reading) (vote : Vote) : Prop where
  message : vote.message = reading.message
  lt : vote.version < d.writes reading.message
  last : d.writes reading.message = vote.version + 1 → ∃ votes, d.log reading.message = votes ++ [vote] ∧
    (∀ v ∈ votes, v ≠ vote) ∧ ∀ m p, messages reading.message = some m → m.contentType = .poll →
      PollData.parse m.content = some p → ∀ m' q, reading.found = some m' → PollData.parse m'.content = some q →
        Shows p q votes

/-- What holds while a step is awaited. -/
def Wait.Fits (messages : Text → Option Message) (d : Device) : Wait → Prop
  | .preparing reading _ | .updateContent reading _ _ => d.Since reading
  | .send reading vote | .restore reading vote => d.Undoable messages reading vote

structure Kept (messages : Text → Option Message) (d : Device) (o : List Wait) : Prop where
  shown (id : Text) (m : Message) (p : PollData) : messages id = some m → m.contentType = .poll →
    PollData.parse m.content = some p → ∃ m' q, d.messages id = some m' ∧ PollData.parse m'.content = some q ∧
      Shows p q (d.log id)
  past : ∀ v ∈ d.cast, v.version < d.writes v.message
  fits : ∀ w ∈ o, w.Fits messages d

abbrev pollRules (messages : Text → Option Message) : Tasks.Rules Answer Wait Device Event :=
  ⟨Kept messages, fun _ _ _ => True, fun w a d _ => unwritten w a d = true⟩

section Kept

variable {messages : Text → Option Message} {d d' : Device} {o : List Wait} {w : Wait} {reading : Reading} {vote : Vote}

theorem Kept.counted (h : Kept messages d o) : d.Counted messages := by
  intro id m p hm hpoll hparse
  obtain ⟨m', q, hm', hq, hshows⟩ := h.shown id m p hm hpoll hparse
  refine ⟨m', q, hm', hq, hshows, fun user hsingle hone => ?_⟩
  rw [hshows.voted user]
  rw [hshows.singleChoice] at hsingle
  rw [hsingle]
  exact hone.tally

theorem Kept.perm {o' : List Wait} (hp : o.Perm o') (h : Kept messages d o) : Kept messages d o' :=
  ⟨h.shown, h.past, fun w hw => h.fits w (hp.mem_iff.2 hw)⟩

theorem Kept.cons (h : Kept messages d o) (hw : w.Fits messages d) : Kept messages d (w :: o) :=
  ⟨h.shown, h.past, List.forall_mem_cons.2 ⟨hw, h.fits⟩⟩

theorem Kept.tail (h : Kept messages d (w :: o)) : Kept messages d o :=
  ⟨h.shown, h.past, (List.forall_mem_cons.1 h.fits).2⟩

theorem Kept.head (h : Kept messages d (w :: o)) : w.Fits messages d := (List.forall_mem_cons.1 h.fits).1

theorem Wait.Fits.mono (h : w.Fits messages d) (hle : ∀ id, d.writes id ≤ d'.writes id)
    (hsame : ∀ id, d'.writes id = d.writes id → d'.messages id = d.messages id ∧ d'.log id = d.log id) :
    w.Fits messages d' := by
  have hsince : ∀ r : Reading, d.Since r → d'.Since r := by
    intro r hr
    refine ⟨hr.le.trans (hle _), fun heq => ?_⟩
    have hold : d.writes r.message = r.version := Nat.le_antisymm (heq ▸ hle _) hr.le
    rw [(hsame _ (heq.trans hold.symm)).1]
    exact hr.same hold
  have hundo : ∀ (r : Reading) (v : Vote), d.Undoable messages r v → d'.Undoable messages r v := by
    intro r v hr
    refine ⟨hr.message, Nat.lt_of_lt_of_le hr.lt (hle _), fun heq => ?_⟩
    have hold : d.writes r.message = v.version + 1 := Nat.le_antisymm (heq ▸ hle _) hr.lt
    rw [(hsame _ (heq.trans hold.symm)).2]
    exact hr.last hold
  cases w with
  | preparing r step => exact hsince r h
  | updateContent r user i => exact hsince r h
  | send r v => exact hundo r v h
  | restore r v => exact hundo r v h

theorem Device.log_setCast_append (d : Device) (id : Text) :
    (d.setCast (d.cast ++ [vote])).log id = if vote.message = id then d.log id ++ [vote] else d.log id := by
  by_cases h : vote.message = id
  · simp [Device.log, Device.setCast, List.filter_append, h]
  · simp [Device.log, Device.setCast, List.filter_append, h]

theorem Device.log_withdraw (d : Device) (id : Text) : (d.withdraw vote).log id = (d.log id).filter (· ≠ vote) := by
  simp only [Device.log, Device.withdraw, Device.setCast, List.filter_filter]
  congr 1
  funext v
  exact Bool.and_comm _ _

theorem Device.writes_updateContent (d : Device) (id i : Text) (content : Json) :
    (d.updateContent id content).writes i = if i = id then d.writes id + 1 else d.writes i := by
  by_cases h : i = id
  · subst h
    simp [Device.updateContent]
  · simp [Device.updateContent, h]

theorem Device.messages_updateContent_of_ne {id i : Text} (h : i ≠ id) (content : Json) :
    (d.updateContent id content).messages i = d.messages i := Function.update_of_ne h _ _

theorem Device.messages_updateContent_self {id : Text} {m : Message} (h : d.messages id = some m) (content : Json) :
    ∃ m', (d.updateContent id content).messages id = some m' ∧ m'.content = content := by
  refine ⟨{ m with content := content, contentType := .poll }, ?_, rfl⟩
  simp [Device.updateContent, h]

theorem Device.writes_le_updateContent (d : Device) (id i : Text) (content : Json) :
    d.writes i ≤ (d.updateContent id content).writes i := by
  rw [Device.writes_updateContent]
  split
  · rename_i h
    exact h ▸ Nat.le_succ _
  · exact Nat.le_refl _

theorem Device.ne_of_writes_updateContent (d : Device) {id : Text} (i : Text) (content : Json)
    (h : (d.updateContent id content).writes i = d.writes i) : i ≠ id := by
  rintro rfl
  rw [Device.writes_updateContent, if_pos rfl] at h
  exact absurd h (Nat.succ_ne_self _)

theorem Shows.append {p q r r' : PollData} {votes : List Vote} (h : Shows p q votes)
    (ht : q.toggleVote vote.user vote.optionIndex = some r) (hs : r'.singleChoice = r.singleChoice)
    (hv : ∀ user, r'.voted user = r.voted user) : Shows p r' (votes ++ [vote]) := by
  refine ⟨hs.trans ((PollData.singleChoice_toggleVote ht).trans h.singleChoice), fun user => ?_⟩
  rw [hv, PollData.voted_toggleVote ht, tally_append_singleton, h.singleChoice]
  by_cases hu : user = vote.user
  · subst hu
    rw [if_pos rfl, if_pos rfl, h.voted]
  · rw [if_neg hu, if_neg (Ne.symm hu), h.voted]

theorem Shows.same {p q q' : PollData} {votes : List Vote} (h : Shows p q votes)
    (hs : q'.singleChoice = q.singleChoice) (hv : ∀ user, q'.voted user = q.voted user) : Shows p q' votes :=
  ⟨hs.trans h.singleChoice, fun user => (hv user).trans (h.voted user)⟩

theorem Kept.castVote {m : Message} {p q : PollData} (h : Kept messages d o) (hr : d.Since reading)
    (hu : d.writes reading.message = reading.version) (hfound : reading.found = some m)
    (hp : PollData.parse m.content = some p) {user : Text} {i : ℤ} (hq : p.toggleVote user i = some q) :
    Kept messages (d.castVote ⟨reading.message, user, i, d.writes reading.message⟩ q.encode) o ∧
      (d.castVote ⟨reading.message, user, i, d.writes reading.message⟩ q.encode).Undoable messages reading
        ⟨reading.message, user, i, d.writes reading.message⟩ := by
  have hmessage : d.messages reading.message = some m := (hr.same hu).trans hfound
  have hfresh : ∀ v ∈ d.log reading.message, v ≠ ⟨reading.message, user, i, d.writes reading.message⟩ := by
    rintro v hv rfl
    have hlt := h.past _ (List.mem_filter.1 hv).1
    exact Nat.lt_irrefl _ hlt
  generalize hvote : (⟨reading.message, user, i, d.writes reading.message⟩ : Vote) = vote at hfresh ⊢
  have hon : vote.message = reading.message := by rw [← hvote]
  have hversion : vote.version = d.writes reading.message := by rw [← hvote]
  have htoggle : p.toggleVote vote.user vote.optionIndex = some q := by rw [← hvote]; exact hq
  have hlog : ∀ id, (d.castVote vote q.encode).log id =
      if vote.message = id then d.log id ++ [vote] else d.log id := fun id => d.log_setCast_append id
  have hwrites : ∀ id, d.writes id ≤ (d.castVote vote q.encode).writes id := fun id =>
    d.writes_le_updateContent vote.message id q.encode
  have hself : (d.castVote vote q.encode).writes vote.message = d.writes vote.message + 1 :=
    (d.writes_updateContent _ _ q.encode).trans (if_pos rfl)
  have hread : ∀ m₀ p₀, messages reading.message = some m₀ → m₀.contentType = .poll →
      PollData.parse m₀.content = some p₀ → Shows p₀ p (d.log reading.message) := by
    intro m₀ p₀ hm₀ hpoll hp₀
    obtain ⟨m', p', hm', hp', hshows⟩ := h.shown _ m₀ p₀ hm₀ hpoll hp₀
    cases hmessage.symm.trans hm'
    cases hp.symm.trans hp'
    exact hshows
  refine ⟨⟨fun id m₀ p₀ hm₀ hpoll hp₀ => ?_, fun v hv => ?_, fun w hw => (h.fits w hw).mono hwrites fun id hid => ?_⟩,
    ⟨hon, ?_, fun _ => ⟨d.log reading.message, ?_, hfresh, fun m₀ p₀ hm₀ hpoll hp₀ m' p' hm' hp' => ?_⟩⟩⟩
  · by_cases hid : id = vote.message
    · have hid' : id = reading.message := hid.trans hon
      subst hid'
      obtain ⟨m', hm', hcontent⟩ := Device.messages_updateContent_self hmessage q.encode
      obtain ⟨q', hq', hs, -, hv⟩ := PollData.parse_encode ((PollData.normal_parse hp).toggleVote htoggle)
      have hvotes : Shows p₀ q' (d.log reading.message ++ [vote]) := (hread m₀ p₀ hm₀ hpoll hp₀).append htoggle hs hv
      refine ⟨m', q', ?_, hcontent ▸ hq', ?_⟩
      · rw [Device.castVote, hon]
        exact hm'
      · rw [hlog, if_pos hon]
        exact hvotes
    · obtain ⟨m', p', hm', hp', hshows⟩ := h.shown id m₀ p₀ hm₀ hpoll hp₀
      refine ⟨m', p', (Device.messages_updateContent_of_ne hid _).trans hm', hp', ?_⟩
      rw [hlog, if_neg (Ne.symm hid)]
      exact hshows
  · rcases List.mem_append.1 (show v ∈ d.cast ++ [vote] from hv) with hold | hnew
    · exact Nat.lt_of_lt_of_le (h.past v hold) (hwrites _)
    · rw [List.mem_singleton] at hnew
      subst hnew
      rw [hself, hversion, hon]
      exact Nat.lt_succ_self _
  · have hne : id ≠ vote.message := d.ne_of_writes_updateContent id q.encode hid
    refine ⟨Device.messages_updateContent_of_ne hne _, ?_⟩
    rw [hlog, if_neg (Ne.symm hne)]
  · rw [← hon, hself, hversion, hon]
    exact Nat.lt_succ_self _
  · rw [hlog, if_pos hon]
  · cases hfound.symm.trans hm'
    cases hp.symm.trans hp'
    exact hread m₀ p₀ hm₀ hpoll hp₀

theorem Kept.restore {m : Message} {p : PollData} (h : Kept messages d o) (hv : d.Undoable messages reading vote)
    (hu : d.writes reading.message = vote.version + 1) (hfound : reading.found = some m)
    (hp : PollData.parse m.content = some p) :
    Kept messages ((d.updateContent reading.message p.encode).withdraw vote) o := by
  obtain ⟨votes, hlog, hfresh, hread⟩ := hv.last hu
  have hlogs : ∀ id, ((d.updateContent reading.message p.encode).withdraw vote).log id =
      if id = reading.message then votes else d.log id := by
    intro id
    rw [Device.log_withdraw]
    show (d.log id).filter (· ≠ vote) = _
    by_cases hid : id = reading.message
    · rw [if_pos hid, hid, hlog, List.filter_append, List.filter_eq_self.2 fun v hv => decide_eq_true (hfresh v hv)]
      simp
    · rw [if_neg hid]
      refine List.filter_eq_self.2 fun v hmem => decide_eq_true ?_
      rintro rfl
      exact hid ((of_decide_eq_true (List.mem_filter.1 hmem).2).symm.trans hv.message)
  refine ⟨fun id m₀ p₀ hm₀ hpoll hp₀ => ?_, fun v hmem => ?_, fun w hw => (h.fits w hw).mono
    (fun id => d.writes_le_updateContent reading.message id p.encode) fun id hid => ?_⟩
  · by_cases hid : id = reading.message
    · subst hid
      obtain ⟨m₁, -, hm₁, -, -⟩ := h.shown _ m₀ p₀ hm₀ hpoll hp₀
      obtain ⟨m', hm', hcontent⟩ := Device.messages_updateContent_self hm₁ p.encode
      obtain ⟨q, hq, hs, -, hvoted⟩ := PollData.parse_encode (PollData.normal_parse hp)
      refine ⟨m', q, hm', hcontent ▸ hq, ?_⟩
      rw [hlogs, if_pos rfl]
      exact (hread m₀ p₀ hm₀ hpoll hp₀ m p hfound hp).same hs hvoted
    · obtain ⟨m', q, hm', hq, hshows⟩ := h.shown id m₀ p₀ hm₀ hpoll hp₀
      refine ⟨m', q, (Device.messages_updateContent_of_ne hid _).trans hm', hq, ?_⟩
      rw [hlogs, if_neg hid]
      exact hshows
  · exact Nat.lt_of_lt_of_le (h.past v (List.mem_filter.1 hmem).1) (d.writes_le_updateContent _ _ p.encode)
  · have hne : id ≠ reading.message := d.ne_of_writes_updateContent id p.encode hid
    exact ⟨Device.messages_updateContent_of_ne hne _, (hlogs id).trans (if_neg hne)⟩

end Kept

/-! ## The programs -/

section Programs

variable {messages : Text → Option Message} {d : Device} {o : List Wait} {reading : Reading} {vote : Vote}

abbrev Read (messages : Text → Option Message) (reading : Reading) (d : Device) (o : List Wait) : Prop :=
  Kept messages d o ∧ d.Since reading

theorem read_iff (step : Prepare) :
    Read messages reading d o ↔ (pollRules messages).Inv d (.preparing reading step :: o) :=
  ⟨fun h => h.1.cons h.2, fun h => ⟨h.tail, h.head⟩⟩

theorem steady_on (step : Prepare) : (on (.preparing reading step)).Steady (pollRules messages) True
    (Read messages reading) :=
  Program.steady_wait (fun _ _ => read_iff step) (.inl trivial)

theorem steady_encryptAll :
    ∀ recipients, (encryptAll reading recipients).Steady (pollRules messages) True (Read messages reading)
  | [] => Program.steady_pure _
  | _ :: rest => (steady_on .encryptDirect).bind fun _ => steady_encryptAll rest

theorem steady_signals (userId : Text) (conversation : Conversation) :
    (signals reading userId conversation).Steady (pollRules messages) True (Read messages reading) := by
  refine (steady_on .ensureConnected).bind fun connected => ?_
  split
  · exact Program.steady_pure _
  split
  · show Program.Steady _ _ _ (if _ then _ else _)
    split
    · exact Program.steady_pure _
    · exact (steady_on _).bind fun _ => (steady_on _).bind fun _ => (steady_encryptAll _).bind fun _ =>
        Program.steady_pure _
  · exact (steady_encryptAll _).bind fun _ => Program.steady_pure _

abbrev Written (messages : Text → Option Message) (reading : Reading) (vote : Vote) (d : Device)
  (o : List Wait) : Prop :=
  Kept messages d o ∧ d.Undoable messages reading vote

theorem steady_sendAll : ∀ recipients allSent,
    (sendAll reading vote recipients allSent).Steady (pollRules messages) False (Written messages reading vote)
  | [], _ => Program.steady_pure _
  | _ :: rest, _ => by
    refine Program.Steady.bind (Program.steady_wait (fun d o => ⟨fun h => h.1.cons h.2, fun h => ⟨h.tail, h.head⟩⟩)
      (.inr fun d o h => ?_)) fun sent => steady_sendAll rest _
    cases h

theorem steady_sendRounds (recipients : List Text) : ∀ attempts,
    (sendRounds reading vote recipients attempts).Steady (pollRules messages) False (Written messages reading vote)
  | 0 => Program.steady_pure _
  | attempts + 1 => by
    refine (steady_sendAll recipients true).bind fun allSent => ?_
    split
    · exact Program.steady_pure _
    · exact steady_sendRounds recipients attempts

theorem deliver_holds {Q : Except Unit Bool → Device → List Wait → Prop} {m : Message} {poll updated : PollData}
    {userId : Text} {i : ℤ} {recipients : List Text} (h : Read messages reading d o) (hfound : reading.found = some m)
    (hp : PollData.parse m.content = some poll) (hq : poll.toggleVote userId i = some updated)
    (hQ : ∀ r d o, Kept messages d o → Q r d o) :
    (deliver reading userId i poll updated recipients).HoldsBeside tasks (pollRules messages) Q d o := by
  refine HoldsBeside.bind ?_
  refine ⟨h.1.cons h.2, fun d' o' hi => ⟨fun _ _ => hQ _ _ _ hi.tail, fun _ _ hadm => ?_⟩⟩
  show HoldsBeside tasks (pollRules messages) Q
    ((sendRounds reading ⟨reading.message, userId, i, d'.writes reading.message⟩ recipients 3).attempt >>= _)
    (d'.castVote ⟨reading.message, userId, i, d'.writes reading.message⟩ updated.encode) o'
  have hu : d'.writes reading.message = reading.version := eq_of_beq hadm
  have hwritten := hi.tail.castVote hi.head hu hfound hp hq
  generalize hvote : (⟨reading.message, userId, i, d'.writes reading.message⟩ : Vote) = vote at hwritten ⊢
  have hsent : (sendRounds reading vote recipients 3).HoldsBeside tasks (pollRules messages)
      (fun r d o => (∃ sent, r = .ok sent) ∧ Written messages reading vote d o) (d'.castVote vote updated.encode) o' :=
    (steady_sendRounds recipients 3).holds hwritten (fun sent d o hd => ⟨⟨sent, rfl⟩, hd⟩) fun hf => hf.elim
  refine HoldsBeside.bind (HoldsBeside.attempt (hsent.imp fun r d o hr => ?_))
  obtain ⟨⟨sent, rfl⟩, hkept, hundo⟩ := hr
  cases sent with
  | true => exact hQ _ _ _ hkept
  | false =>
    refine ⟨hkept.cons hundo, fun d' o' hi => ⟨fun _ hadm => (by cases hadm), fun _ _ hadm => ?_⟩⟩
    exact hQ _ _ _ (hi.tail.restore hi.head (eq_of_beq hadm) hfound hp)

theorem since_read (d : Device) (id : Text) : d.Since ⟨id, d.writes id, d.messages id⟩ := ⟨Nat.le_refl _, fun _ => rfl⟩

theorem vote_holds {Q : Except Unit Bool → Device → List Wait → Prop} (userId : Option Text) (id : Text) (i : ℤ)
    (h : Kept messages d o) (hQ : ∀ r d o, Kept messages d o → Q r d o) :
    (Polls.vote userId id i).HoldsBeside tasks (pollRules messages) Q d o := by
  unfold Polls.vote
  split
  · exact hQ _ _ _ h
  rename_i user huser
  refine Program.holds_get_bind ?_
  generalize hreading : (⟨id, d.writes id, d.messages id⟩ : Reading) = reading
  have hsince : d.Since reading := hreading ▸ since_read d id
  refine Program.holds_wait_bind (h.cons hsince) (fun _ _ hi _ _ => hQ _ _ _ hi.tail) fun _ d' o' hi _ _ => ?_
  split
  · exact hQ _ _ _ hi.tail
  rename_i m hm
  split
  · exact hQ _ _ _ hi.tail
  rename_i poll hp
  split
  · exact hQ _ _ _ hi.tail
  rename_i updated hq
  refine Program.holds_wait_bind (hi.tail.cons hi.head) (fun _ _ hi _ _ => hQ _ _ _ hi.tail) fun found d'
    o' hi _ _ => ?_
  split
  · exact hQ _ _ _ hi.tail
  rename_i conversation hconversation
  refine HoldsBeside.bind (HoldsBeside.attempt ?_)
  refine (steady_signals user conversation).holds (⟨hi.tail, hi.head⟩ : Read messages reading d' o')
    (fun prepared d o hread => ?_) fun _ _ d o hread => hQ _ _ _ hread.1
  cases prepared with
  | none => exact hQ _ _ _ hread.1
  | some recipients => exact deliver_holds hread (Option.filter_eq_some_iff.1 hm).1 hp hq hQ

theorem _applyPollVote_holds {Q : Except Unit Unit → Device → List Wait → Prop} (localUserId : Option Text) (id : Text)
    (i : ℤ) (senderId conversationId : Text) (h : Kept messages d o) (hQ : ∀ r d o, Kept messages d o → Q r d o) :
    (_applyPollVote localUserId id i senderId conversationId).HoldsBeside tasks (pollRules messages) Q d o := by
  unfold _applyPollVote
  refine Program.holds_get_bind ?_
  generalize hreading : (⟨id, d.writes id, d.messages id⟩ : Reading) = reading
  have hsince : d.Since reading := hreading ▸ since_read d id
  refine Program.holds_wait_bind (h.cons hsince) (fun _ _ hi _ _ => hQ _ _ _ hi.tail) fun _ d' o' hi _ _ => ?_
  split
  · exact hQ _ _ _ hi.tail
  rename_i m hm
  refine Program.holds_wait_bind (hi.tail.cons hi.head) (fun _ _ hi _ _ => hQ _ _ _ hi.tail) fun found d'
    o' hi _ _ => ?_
  split
  · exact hQ _ _ _ hi.tail
  split
  · exact hQ _ _ _ hi.tail
  rename_i updated hupdated
  obtain ⟨poll, hp, hq⟩ := Option.bind_eq_some_iff.1 hupdated
  refine HoldsBeside.bind (HoldsBeside.attempt ?_)
  refine ⟨hi.tail.cons hi.head, fun d' o' hi => ⟨fun _ _ => hQ _ _ _ hi.tail, fun _ _ hadm => ?_⟩⟩
  exact hQ _ _ _ (hi.tail.castVote hi.head (eq_of_beq hadm) hm hp hq).1

theorem program_holds (e : Event) (h : Kept messages d o) :
    (program e).HoldsBeside tasks (pollRules messages) (fun _ => Kept messages) d o := by
  cases e with
  | vote userId id i =>
    refine HoldsBeside.bind (vote_holds userId id i h fun r d o hk => ?_)
    cases r with
    | ok voted => exact hk
    | error e => exact hk
  | incoming localUserId id i senderId conversationId =>
    exact _applyPollVote_holds localUserId id i senderId conversationId h fun _ _ _ hk => hk

end Programs

/-! ## The runs -/

/-- **No vote is lost**, in every run whose steps meet the condition. -/
theorem votes_run (messages : Text → Option Message) {q : State} {ls : List (Pool.Label Event (Option Answer))}
    (hm : Runs.Meets tasks.step (Pool.Moves (Tasks.Orderly (pollRules messages))) ⟨start messages, []⟩ ls)
    (hr : Runs.run tasks.step ⟨start messages, []⟩ ls = some q) : q.shared.Counted messages := by
  have hkept : Kept messages q.shared (Task.labels q.threads) := by
    refine Tasks.holds_run (R := pollRules messages) (fun _ _ _ hp h => h.perm hp) (fun e d o h _ => program_holds e h)
      ?_ hm hr
    refine ⟨fun id m p hmessage _ hparse => ⟨m, p, hmessage, hparse, rfl, fun _ => rfl⟩, fun v hv => ?_, fun w hw => ?_⟩
    · exact absurd hv List.not_mem_nil
    · exact absurd hw List.not_mem_nil
  exact hkept.counted

section Sample

def readBefore : List (Pool.Label Event (Option Answer)) :=
  [.start (.vote (some "ali".toList) "m".toList 0), go 0, go 0, talk 0, go 0, go 0,
    .start (.incoming (some "ali".toList) "m".toList 1 "veli".toList "c".toList), go 1, go 1, talk 1, go 1, go 0, go 0]

theorem sample_normal : samplePoll.Normal :=
  ⟨by decide, fun _ _ h => (by cases h), fun _ _ h => (by cases h)⟩

/-- It has gone when both have finished. -/
theorem vote_lost : ¬ ∀ (messages : Text → Option Message) (ls : List (Pool.Label Event (Option Answer))) (q : State),
    Runs.run tasks.step ⟨start messages, []⟩ ls = some q → q.threads.all ended = true →
      q.shared.Counted messages := by
  intro h
  have hrun : ∃ q, Runs.run tasks.step ⟨start sampleMessages, []⟩ readBefore = some q ∧
      (q.threads.all ended = true ∧
        (((q.shared.messages "m".toList).bind fun m => PollData.parse m.content).map fun p => p.voted "veli".toList 1) =
          some false ∧
        tally true (q.shared.log "m".toList) "veli".toList (fun _ => false) 1 = true) :=
    Runs.exists_run _ _ (fun q : State => q.threads.all ended = true ∧
      (((q.shared.messages "m".toList).bind fun m => PollData.parse m.content).map fun p => p.voted "veli".toList 1) =
        some false ∧
      tally true (q.shared.log "m".toList) "veli".toList (fun _ => false) 1 = true) (by decide +kernel)
  obtain ⟨q, hr, hended, hvoted, htally⟩ := hrun
  obtain ⟨p, hp, hsingle, -, hnone⟩ := PollData.parse_encode sample_normal
  obtain ⟨m', p', hm', hp', hshows, -⟩ := h sampleMessages readBefore q hr hended "m".toList _ p rfl rfl hp
  rw [hm', Option.bind_some, hp', Option.map_some, hshows.voted, hnone, hsingle] at hvoted
  have hboth : some true = some false := (congrArg some htally).symm.trans hvoted
  cases hboth

def takenBack : List (Pool.Label Event (Option Answer)) :=
  [.start (.vote (some "ali".toList) "m".toList 0), go 0, go 0, talk 0, go 0, go 0, go 0, refuse 0, refuse 0, refuse 0,
    go 0, .start (.incoming (some "ali".toList) "m".toList 1 "veli".toList "c".toList), go 1, go 1, talk 1, go 1]

theorem votes_takenBack : ∃ q : State, Runs.run tasks.step ⟨start sampleMessages, []⟩ takenBack = some q ∧
    q.shared.Counted sampleMessages := by
  have hrun : ∃ q, Runs.run tasks.step ⟨start sampleMessages, []⟩ takenBack = some q ∧
      q.shared.cast = [⟨"m".toList, "veli".toList, 1, 2⟩] :=
    Runs.exists_run _ _ (fun q : State => q.shared.cast = [⟨"m".toList, "veli".toList, 1, 2⟩]) (by decide +kernel)
  obtain ⟨q, hr, -⟩ := hrun
  exact ⟨q, hr, votes_run sampleMessages (by decide +kernel) hr⟩

end Sample

end Polls
end SecureChat
