import SecureChat.Collections
import SecureChat.Json
/-!
# MessageReactions — who has reacted to a message, and with what

The reactions of a message are a document that lists for each emoji those who chose it.  A reaction rewrites the whole
document, and for nobody but its sender does that change what is read from it (`reacted_applyMessageReaction`).

A message's reactions are known here by the document that they decode to; a text that is none is read like an absent
one.
-/
namespace SecureChat
namespace MessageReactions

open GroupControl (Text)
open scoped GroupControl

abbrev Reactions := Table Text (LinkedSet Text)

abbrev IsValid := Text → Bool

def fresh : List Text → List Text → List Text
  | _, [] => []
  | seen, id :: ids => if id = [] ∨ id ∈ seen then fresh seen ids else id :: fresh (id :: seen) ids

def readEntry (isValidMessageReaction : IsValid) (before : Reactions × List Text) (entry : String × Json) :
    Reactions × List Text :=
  match entry.2 with
  | .arr items =>
    if isValidMessageReaction entry.1.toList then
      let voters := fresh before.2 (items.filterMap Json.asString)
      (if voters = [] then before.1 else before.1.assign entry.1.toList (.ofList voters), before.2 ++ voters)
    else before
  | _ => before

def parseReactions (isValidMessageReaction : IsValid) : Option Json → Reactions
  | some (.obj fields) => (fields.foldl (readEntry isValidMessageReaction) (.empty, [])).1
  | _ => .empty

/-- The voters of an emoji, perhaps without a user. -/
def left (userId emoji : Text) (remove : Bool) (e : Text) (voters : LinkedSet Text) : LinkedSet Text :=
  if ¬ remove ∨ e = emoji then voters.erase userId else voters

def erased (userId emoji : Text) (remove : Bool) (entry : Text × LinkedSet Text) : Option (Text × LinkedSet Text) :=
  if (left userId emoji remove entry.1 entry.2).elems = [] then none
  else some (entry.1, left userId emoji remove entry.1 entry.2)

theorem erased_eq_some {userId emoji : Text} {remove : Bool} {entry x : Text × LinkedSet Text} :
    erased userId emoji remove entry = some x ↔ (left userId emoji remove entry.1 entry.2).elems ≠ [] ∧
      x = (entry.1, left userId emoji remove entry.1 entry.2) := by
  unfold erased
  by_cases h : (left userId emoji remove entry.1 entry.2).elems = []
  · simp [h]
  · simp [h, eq_comm]

def without (userId emoji : Text) (remove : Bool) (r : Reactions) : Reactions where
  entries := r.entries.filterMap (erased userId emoji remove)
  nodup := by
    have hsub : ((r.entries.filterMap (erased userId emoji remove)).map Prod.fst).Sublist (r.entries.map Prod.fst) := by
      induction r.entries with
      | nil => exact List.Sublist.slnil
      | cons x l ih =>
        cases hx : erased userId emoji remove x with
        | none =>
          rw [List.filterMap_cons_none hx]
          exact ih.cons _
        | some y =>
          rw [List.filterMap_cons_some hx, List.map_cons, List.map_cons, (erased_eq_some.1 hx).2]
          exact ih.cons_cons _
    exact hsub.nodup r.nodup

def writeEntry (entry : Text × LinkedSet Text) : String × Json := (String.ofList entry.1, Json.strings entry.2.elems)

def document (r : Reactions) : Option Json :=
  if r.entries = [] then none else some (.obj (r.entries.map writeEntry))

def reactedWith (r : Reactions) (userId emoji : Text) (remove : Bool) : Reactions :=
  let rest := without userId emoji remove r
  if remove then rest else rest.assign emoji (((rest.get emoji).getD .empty).insert userId)

def applyMessageReaction (isValidMessageReaction : IsValid) (raw : Option Json) (userId emoji : Text) (remove : Bool) :
    Option Json :=
  document (reactedWith (parseReactions isValidMessageReaction raw) userId emoji remove)

def Reacted (r : Reactions) (user emoji : Text) : Prop := ∃ voters, r.get emoji = some voters ∧ user ∈ voters

/-- Reactions as they are read: with valid emoji that somebody chose, and one of each account. -/
structure Normal (isValidMessageReaction : IsValid) (r : Reactions) : Prop where
  valid (emoji : Text) (voters : LinkedSet Text) : r.get emoji = some voters →
    isValidMessageReaction emoji = true ∧ voters.elems ≠ []
  named (user emoji : Text) : Reacted r user emoji → user ≠ []
  once (user emoji emoji' : Text) : Reacted r user emoji → Reacted r user emoji' → emoji = emoji'

section Parse

variable {V : IsValid} {r : Reactions} {user emoji : Text} {seen ids : List Text}

theorem mem_fresh {x : Text} : x ∈ fresh seen ids ↔ x ∈ ids ∧ x ≠ [] ∧ x ∉ seen := by
  induction ids generalizing seen with
  | nil => simp [fresh]
  | cons id ids ih =>
    unfold fresh
    by_cases hid : id = [] ∨ id ∈ seen
    · rw [if_pos hid, ih, List.mem_cons]
      constructor
      · rintro ⟨hx, hne, hs⟩
        exact ⟨.inr hx, hne, hs⟩
      · rintro ⟨rfl | hx, hne, hs⟩
        · exact (hid.elim hne hs).elim
        · exact ⟨hx, hne, hs⟩
    · rw [if_neg hid, List.mem_cons, ih, List.mem_cons, List.mem_cons]
      obtain ⟨hne, hs⟩ := not_or.1 hid
      constructor
      · rintro (rfl | ⟨hx, hx', hnot⟩)
        · exact ⟨.inl rfl, hne, hs⟩
        · exact ⟨.inr hx, hx', fun h => hnot (.inr h)⟩
      · rintro ⟨rfl | hx, hx', hnot⟩
        · exact .inl rfl
        · by_cases he : x = id
          · exact .inl he
          · exact .inr ⟨hx, hx', fun h => h.elim he hnot⟩

theorem fresh_eq_self (hnodup : ids.Nodup) (hne : ∀ x ∈ ids, x ≠ []) (hs : ∀ x ∈ ids, x ∉ seen) :
    fresh seen ids = ids := by
  induction ids generalizing seen with
  | nil => rfl
  | cons id ids ih =>
    obtain ⟨hid, hnodup⟩ := List.nodup_cons.1 hnodup
    have hnot : ¬ (id = [] ∨ id ∈ seen) :=
      not_or.2 ⟨hne id List.mem_cons_self, hs id List.mem_cons_self⟩
    rw [fresh, if_neg hnot, ih hnodup (fun x hx => hne x (List.mem_cons_of_mem _ hx))]
    intro x hx hmem
    rcases List.mem_cons.1 hmem with rfl | hmem
    · exact hid hx
    · exact hs x (List.mem_cons_of_mem _ hx) hmem

theorem reacted_assign {voters : LinkedSet Text} {e : Text} :
    Reacted (r.assign e voters) user emoji ↔ if emoji = e then user ∈ voters else Reacted r user emoji := by
  unfold Reacted
  rw [Table.get_assign]
  by_cases h : emoji = e
  · simp [h]
  · simp [h]

/-- What is known while the entries are read: who has reacted was seen. -/
structure ReadSoFar (V : IsValid) (before : Reactions × List Text) : Prop where
  normal : Normal V before.1
  seen (user emoji : Text) : Reacted before.1 user emoji → user ∈ before.2

theorem ReadSoFar.readEntry {before : Reactions × List Text} (h : ReadSoFar V before) (entry : String × Json) :
    ReadSoFar V (readEntry V before entry) := by
  unfold MessageReactions.readEntry
  split
  · rename_i items heq
    split
    · rename_i hvalid
      simp only
      generalize hv : fresh before.2 (items.filterMap Json.asString) = voters
      have hmem : ∀ x ∈ voters, x ≠ [] ∧ x ∉ before.2 := fun x hx => (mem_fresh.1 (hv ▸ hx)).2
      by_cases hempty : voters = []
      · subst hempty
        rw [if_pos rfl, List.append_nil]
        exact h
      · rw [if_neg hempty]
        have hset : ∀ x, x ∈ LinkedSet.ofList voters ↔ x ∈ voters := fun x => LinkedSet.mem_ofList
        refine ⟨⟨fun e vs he => ?_, fun u e hu => ?_, fun u e e' hu hu' => ?_⟩, fun u e hu => ?_⟩
        · rw [Table.get_assign] at he
          split at he
          · rename_i hee
            cases he
            refine ⟨hee ▸ hvalid, fun hnil => ?_⟩
            obtain ⟨x, hx⟩ := List.exists_mem_of_ne_nil voters hempty
            have hmem : x ∈ (LinkedSet.ofList voters).elems := (hset x).2 hx
            rw [hnil] at hmem
            cases hmem
          · exact h.normal.valid e vs he
        · rw [reacted_assign] at hu
          split at hu
          · exact (hmem u ((hset u).1 hu)).1
          · exact h.normal.named u e hu
        · rw [reacted_assign] at hu hu'
          split at hu <;> split at hu'
          · rename_i he he'
            exact he.trans he'.symm
          · exact absurd (h.seen u e' hu') (hmem u ((hset u).1 hu)).2
          · exact absurd (h.seen u e hu) (hmem u ((hset u).1 hu')).2
          · exact h.normal.once u e e' hu hu'
        · rw [reacted_assign] at hu
          split at hu
          · exact List.mem_append_right _ ((hset u).1 hu)
          · exact List.mem_append_left _ (h.seen u e hu)
    · exact h
  · exact h

theorem not_reacted_empty : ¬ Reacted .empty user emoji := by
  rintro ⟨voters, h, -⟩
  cases h

theorem normal_empty : Normal V .empty :=
  ⟨fun _ _ h => (by cases h), fun _ _ h => absurd h not_reacted_empty, fun _ _ _ h => absurd h not_reacted_empty⟩

theorem normal_parseReactions (raw : Option Json) : Normal V (parseReactions V raw) := by
  unfold parseReactions
  split
  · rename_i fields
    have hfold : ∀ (l : List (String × Json)) (before : Reactions × List Text), ReadSoFar V before →
        ReadSoFar V (l.foldl (readEntry V) before) := by
      intro l
      induction l with
      | nil => exact fun _ h => h
      | cons entry l ih => exact fun before h => ih _ (h.readEntry entry)
    exact (hfold fields _ ⟨normal_empty, fun _ _ h => absurd h not_reacted_empty⟩).normal
  · exact normal_empty

end Parse

section Apply

variable {V : IsValid} {r : Reactions} {user userId emoji e : Text} {remove : Bool}

theorem get_without {voters : LinkedSet Text} : (without userId emoji remove r).get e = some voters ↔
    ∃ before, r.get e = some before ∧ voters.elems ≠ [] ∧ voters = left userId emoji remove e before := by
  rw [Table.get_eq_some]
  unfold without
  simp only [List.mem_filterMap, erased_eq_some]
  constructor
  · rintro ⟨x, hx, hne, he⟩
    obtain ⟨rfl, rfl⟩ := Prod.mk.inj he
    exact ⟨x.2, Table.get_eq_some.2 hx, hne, rfl⟩
  · rintro ⟨before, hb, hne, rfl⟩
    exact ⟨(e, before), Table.get_eq_some.1 hb, hne, rfl⟩

theorem mem_left {voters : LinkedSet Text} : user ∈ left userId emoji remove e voters ↔
    user ∈ voters ∧ (user = userId → remove = true ∧ e ≠ emoji) := by
  unfold left
  by_cases h : ¬ remove ∨ e = emoji
  · rw [if_pos h, LinkedSet.mem_erase]
    refine and_congr_right fun _ => ⟨fun hne heq => absurd heq hne, fun huser heq => ?_⟩
    obtain ⟨hremove, hne⟩ := huser heq
    exact h.elim (fun h => h hremove) hne
  · rw [if_neg h]
    obtain ⟨hremove, hne⟩ := not_or.1 h
    exact (and_iff_left fun _ => ⟨by simpa using hremove, hne⟩).symm

theorem reacted_without : Reacted (without userId emoji remove r) user e ↔
    Reacted r user e ∧ (user = userId → remove = true ∧ e ≠ emoji) := by
  constructor
  · rintro ⟨voters, hget, hmem⟩
    obtain ⟨before, hb, -, rfl⟩ := get_without.1 hget
    obtain ⟨hin, huser⟩ := mem_left.1 hmem
    exact ⟨⟨before, hb, hin⟩, huser⟩
  · rintro ⟨⟨before, hb, hmem⟩, huser⟩
    have hstays : user ∈ left userId emoji remove e before := mem_left.2 ⟨hmem, huser⟩
    refine ⟨_, get_without.2 ⟨before, hb, fun hnil => ?_, rfl⟩, hstays⟩
    have hin : user ∈ (left userId emoji remove e before).elems := hstays
    rw [hnil] at hin
    cases hin

theorem Normal.without (h : Normal V r) : Normal V (without userId emoji remove r) := by
  refine ⟨fun e vs he => ?_, fun u e hu => ?_, fun u e e' hu hu' => ?_⟩
  · obtain ⟨before, hb, hne, -⟩ := get_without.1 he
    exact ⟨(h.valid e before hb).1, hne⟩
  · exact h.named u e (reacted_without.1 hu).1
  · exact h.once u e e' (reacted_without.1 hu).1 (reacted_without.1 hu').1

theorem reacted_reactedWith : Reacted (reactedWith r userId emoji remove) user e ↔
    if user = userId then (if remove then Reacted r user e ∧ e ≠ emoji else e = emoji) else Reacted r user e := by
  unfold reactedWith
  cases remove with
  | true =>
    simp only [if_true, reacted_without]
    by_cases hu : user = userId
    · simp [hu]
    · simp [hu]
  | false =>
    simp only [Bool.false_eq_true, if_false, reacted_assign, LinkedSet.mem_insert]
    have hin : user ∈ ((SecureChat.MessageReactions.without userId emoji false r).get emoji).getD .empty ↔
        Reacted (SecureChat.MessageReactions.without userId emoji false r) user emoji := by
      unfold Reacted
      cases (SecureChat.MessageReactions.without userId emoji false r).get emoji with
      | none => simp
      | some voters => simp
    rw [hin, reacted_without, reacted_without]
    by_cases hu : user = userId
    · by_cases he : e = emoji
      · simp [hu, he]
      · simp [hu, he]
    · by_cases he : e = emoji
      · simp [hu, he]
      · simp [hu, he]

theorem Normal.reactedWith (h : Normal V r) (hu : userId ≠ []) (he : V emoji = true) :
    Normal V (reactedWith r userId emoji remove) := by
  refine ⟨fun e vs hget => ?_, fun u e hr => ?_, fun u e e' hr hr' => ?_⟩
  · have hrest : Normal V (SecureChat.MessageReactions.without userId emoji remove r) := h.without
    unfold SecureChat.MessageReactions.reactedWith at hget
    cases remove with
    | true => exact hrest.valid e vs hget
    | false =>
      simp only [Bool.false_eq_true, if_false, Table.get_assign] at hget
      split at hget
      · rename_i hee
        cases hget
        refine ⟨hee ▸ he, fun hnil => ?_⟩
        have hin : userId ∈ (((SecureChat.MessageReactions.without userId emoji false r).get emoji).getD
          .empty).insert userId :=
          LinkedSet.mem_insert.2 (.inr rfl)
        have hmem : userId ∈ ((((SecureChat.MessageReactions.without userId emoji false r).get emoji).getD
          .empty).insert
          userId).elems := hin
        rw [hnil] at hmem
        cases hmem
      · exact hrest.valid e vs hget
  · rw [reacted_reactedWith] at hr
    split at hr
    · rename_i huser
      exact huser ▸ hu
    · exact h.named u e hr
  · rw [reacted_reactedWith] at hr hr'
    by_cases huser : u = userId
    · rw [if_pos huser] at hr hr'
      cases remove with
      | true => exact h.once u e e' hr.1 hr'.1
      | false => exact hr.trans hr'.symm
    · rw [if_neg huser] at hr hr'
      exact h.once u e e' hr hr'

end Apply

section Document

variable {V : IsValid} {r : Reactions}

theorem foldl_writeEntry : ∀ (l : List (Text × LinkedSet Text)) (t : Reactions) (seen : List Text),
    (∀ x ∈ l, V x.1 = true ∧ x.2.elems ≠ [] ∧ ∀ u ∈ x.2.elems, u ≠ [] ∧ u ∉ seen) →
    l.Pairwise (fun x y => ∀ u ∈ x.2.elems, u ∉ y.2.elems) →
    ((l.map writeEntry).foldl (readEntry V) (t, seen)).1 = l.foldl (fun t x => t.assign x.1 x.2) t
  | [], _, _, _, _ => rfl
  | x :: l, t, seen, hl, hpair => by
    obtain ⟨hx, hpair⟩ := List.pairwise_cons.1 hpair
    obtain ⟨hvalid, hne, hvoters⟩ := hl x List.mem_cons_self
    have hstrings : (x.2.elems.map Json.str).filterMap Json.asString = x.2.elems := by
      rw [List.filterMap_map]
      exact List.filterMap_some
    have hfresh : fresh seen x.2.elems = x.2.elems :=
      fresh_eq_self x.2.nodup (fun u hu => (hvoters u hu).1) fun u hu => (hvoters u hu).2
    have hset : LinkedSet.ofList x.2.elems = x.2 := by
      have helems := LinkedSet.elems_ofList x.2.nodup
      cases hs : LinkedSet.ofList x.2.elems with
      | mk elems nodup =>
        rw [hs] at helems
        cases helems
        rfl
    have hstep : readEntry V (t, seen) (writeEntry x) = (t.assign x.1 x.2, seen ++ x.2.elems) := by
      simp only [readEntry, writeEntry, Json.strings, String.toList_ofList, hvalid, if_true, hstrings, hfresh, hset,
        if_neg hne]
    rw [List.map_cons, List.foldl_cons, hstep, List.foldl_cons]
    refine foldl_writeEntry l _ _ (fun y hy => ?_) hpair
    obtain ⟨hv, hn, hvs⟩ := hl y (List.mem_cons_of_mem _ hy)
    refine ⟨hv, hn, fun u hu => ⟨(hvs u hu).1, fun hmem => ?_⟩⟩
    rcases List.mem_append.1 hmem with hseen | hin
    · exact (hvs u hu).2 hseen
    · exact hx y hy u hin hu

theorem get_parse_document (h : Normal V r) (emoji : Text) :
    (parseReactions V (document r)).get emoji = r.get emoji := by
  unfold document
  split
  · rename_i hempty
    have hnone : r.get emoji = none := by
      rw [Table.get_eq_none, hempty]
      exact List.not_mem_nil
    rw [hnone]
    rfl
  · have hpair : r.entries.Pairwise (fun x y => ∀ u ∈ x.2.elems, u ∉ y.2.elems) := by
      refine (List.pairwise_map.1 r.nodup).imp_of_mem fun {x y} hx hy hne u hu hu' => ?_
      exact hne (h.once u x.1 y.1 ⟨x.2, Table.get_eq_some.2 hx, hu⟩ ⟨y.2, Table.get_eq_some.2 hy, hu'⟩)
    have hread : parseReactions V (some (.obj (r.entries.map writeEntry))) = Table.ofList r.entries := by
      refine foldl_writeEntry r.entries .empty [] (fun x hx => ?_) hpair
      obtain ⟨hv, hn⟩ := h.valid x.1 x.2 (Table.get_eq_some.2 hx)
      exact ⟨hv, hn, fun u hu => ⟨h.named u x.1 ⟨x.2, Table.get_eq_some.2 hx, hu⟩, List.not_mem_nil⟩⟩
    rw [hread]
    ext voters
    rw [Table.get_ofList r.nodup, Table.get_eq_some]

theorem reacted_applyMessageReaction {userId emoji : Text} (hu : userId ≠ []) (he : V emoji = true) (raw : Option Json)
    (remove : Bool) (user e : Text) :
    Reacted (parseReactions V (applyMessageReaction V raw userId emoji remove)) user e ↔
      if user = userId then
        (if remove then Reacted (parseReactions V raw) user e ∧ e ≠ emoji else e = emoji)
      else Reacted (parseReactions V raw) user e := by
  have hnormal : Normal V (reactedWith (parseReactions V raw) userId emoji remove) :=
    (normal_parseReactions raw).reactedWith hu he
  rw [← reacted_reactedWith]
  unfold applyMessageReaction Reacted
  rw [get_parse_document hnormal]

end Document

end MessageReactions
end SecureChat
