import SecureChat.Collections
import SecureChat.JsonReading
/-!
# ReactionTexts — reactions as the text in which they are stored

A message's reactions are stored as a JSON text that lists for each emoji those who chose it.  Whatever the text is, it
is read so that each user has the first valid emoji that lists the user (`reacted_parseEntries`), and a reaction writes
it anew.  What is read for a user depends on no other user's reactions (`reactions_byUser`).
-/
namespace SecureChat
namespace ReactionTexts

open PlaintextPadding (Units)
open JsonText (Value Entries decode encode keys isFinite finiteItems finiteEntries WellFormed WellFormedItems
  WellFormedEntries)

abbrev Reactions := Table Units (LinkedSet Units)

abbrev IsValid := Units → Bool

/-- `whereType<String>()` -/
def asText : Value → Option Units
  | .str u => some u
  | _ => none

def fresh : List Units → List Units → List Units
  | _, [] => []
  | seen, id :: ids => if id = [] ∨ id ∈ seen then fresh seen ids else id :: fresh (id :: seen) ids

def readEntry (isValidMessageReaction : IsValid) (before : Reactions × List Units) (entry : Units × Value) :
    Reactions × List Units :=
  match entry.2 with
  | .arr items =>
    if isValidMessageReaction entry.1 = true then
      let voters := fresh before.2 (items.filterMap asText)
      (if voters = [] then before.1 else before.1.assign entry.1 (.ofList voters), before.2 ++ voters)
    else before
  | _ => before

def parseEntries (isValidMessageReaction : IsValid) (entries : Entries) : Reactions :=
  (entries.foldl (readEntry isValidMessageReaction) (.empty, [])).1

def parseReactions (isValidMessageReaction : IsValid) (raw : Option Units) : Reactions :=
  match raw with
  | none => .empty
  | some text =>
    if text = [] then .empty
    else
      match decode text with
      | some (.obj entries) => parseEntries isValidMessageReaction entries
      | _ => .empty

/-- The voters of an emoji, perhaps without a user. -/
def left (userId emoji : Units) (remove : Bool) (e : Units) (voters : LinkedSet Units) : LinkedSet Units :=
  if remove = false ∨ e = emoji then voters.erase userId else voters

def without (userId emoji : Units) (remove : Bool) (r : Reactions) : Reactions :=
  Table.filter (fun x => !x.2.elems.isEmpty)
    ⟨r.entries.map fun x => (x.1, left userId emoji remove x.1 x.2), by rw [List.map_map]; exact r.nodup⟩

def reactedWith (r : Reactions) (userId emoji : Units) (remove : Bool) : Reactions :=
  let rest := without userId emoji remove r
  if remove = true then rest else rest.assign emoji (((rest.get emoji).getD .empty).insert userId)

def writeEntry (entry : Units × LinkedSet Units) : Units × Value := (entry.1, .arr (entry.2.elems.map .str))

def document (r : Reactions) : Option Units :=
  if r.entries = [] then none else encode (.obj (r.entries.map writeEntry))

def applyMessageReaction (isValidMessageReaction : IsValid) (raw : Option Units) (userId emoji : Units)
    (remove : Bool) : Option Units :=
  document (reactedWith (parseReactions isValidMessageReaction raw) userId emoji remove)

/-- `MessageDao.applyReaction`, of the reactions in a row that is perhaps deleted. -/
def applyReaction (isValidMessageReaction : IsValid) (deleted : Bool) (raw : Option Units) (userId emoji : Units)
    (remove : Bool) : Option Units :=
  if userId = [] ∨ isValidMessageReaction emoji = false ∨ deleted = true then raw
  else applyMessageReaction isValidMessageReaction raw userId emoji remove

def Reacted (r : Reactions) (user emoji : Units) : Prop := ∃ voters, r.get emoji = some voters ∧ user ∈ voters

def Once (r : Reactions) : Prop := ∀ user emoji emoji', Reacted r user emoji → Reacted r user emoji' → emoji = emoji'

def Voted (r : Reactions) : Prop := ∀ emoji voters, r.get emoji = some voters → voters.elems ≠ []

variable {V : IsValid} {r : Reactions} {user userId emoji e : Units} {remove : Bool}

/-! ## Reading -/

section Reading

variable {seen ids : List Units}

theorem mem_fresh {x : Units} : x ∈ fresh seen ids ↔ x ∈ ids ∧ x ≠ [] ∧ x ∉ seen := by
  induction ids generalizing seen with
  | nil => simp [fresh]
  | cons id ids ih =>
    unfold fresh
    by_cases hid : id = [] ∨ id ∈ seen
    · rw [if_pos hid, ih, List.mem_cons]
      constructor
      · rintro ⟨hx, hne, hs⟩
        exact ⟨.inr hx, hne, hs⟩
      · rintro ⟨rfl | hx, hne, hs⟩
        · exact (hid.elim hne hs).elim
        · exact ⟨hx, hne, hs⟩
    · rw [if_neg hid, List.mem_cons, ih, List.mem_cons, List.mem_cons]
      obtain ⟨hne, hs⟩ := not_or.1 hid
      constructor
      · rintro (rfl | ⟨hx, hx', hnot⟩)
        · exact ⟨.inl rfl, hne, hs⟩
        · exact ⟨.inr hx, hx', fun h => hnot (.inr h)⟩
      · rintro ⟨rfl | hx, hx', hnot⟩
        · exact .inl rfl
        · by_cases he : x = id
          · exact .inl he
          · exact .inr ⟨hx, hx', fun h => h.elim he hnot⟩

theorem reacted_assign {voters : LinkedSet Units} {k : Units} :
    Reacted (r.assign k voters) user e ↔ if e = k then user ∈ voters else Reacted r user e := by
  unfold Reacted
  rw [Table.get_assign]
  by_cases h : e = k
  · simp [h]
  · simp [h]

theorem not_reacted_empty : ¬ Reacted .empty user e := by
  rintro ⟨voters, h, -⟩
  cases h

def listedIn : Value → List Units
  | .arr items => items.filterMap asText
  | _ => []

def picks (V : IsValid) (user : Units) (entry : Units × Value) : Bool :=
  V entry.1 && (listedIn entry.2).any fun id => decide (id = user)

theorem picks_eq_true {entry : Units × Value} :
    picks V user entry = true ↔ V entry.1 = true ∧ user ∈ listedIn entry.2 := by
  unfold picks
  rw [Bool.and_eq_true, List.any_eq_true]
  refine and_congr_right fun _ => ⟨?_, fun h => ⟨user, h, decide_eq_true rfl⟩⟩
  rintro ⟨id, hid, heq⟩
  exact of_decide_eq_true heq ▸ hid

theorem reacted_readEntry {t : Reactions} {entry : Units × Value} (hnew : t.get entry.1 = none) :
    Reacted (readEntry V (t, seen) entry).1 user e ↔
      Reacted t user e ∨ e = entry.1 ∧ picks V user entry = true ∧ user ≠ [] ∧ user ∉ seen := by
  obtain ⟨k, v⟩ := entry
  have hnone : ¬ Reacted t user k := by
    rintro ⟨voters, hget, -⟩
    rw [hnew] at hget
    cases hget
  rw [picks_eq_true]
  cases v with
  | arr items =>
    unfold readEntry
    dsimp only
    by_cases hvalid : V k = true
    · rw [if_pos hvalid]
      have hmem : user ∈ fresh seen (items.filterMap asText) ↔ _ := mem_fresh
      generalize fresh seen (items.filterMap asText) = voters at hmem
      by_cases hempty : voters = []
      · subst hempty
        rw [if_pos rfl]
        refine (or_iff_left ?_).symm
        rintro ⟨-, ⟨-, hin⟩, hne, hseen⟩
        exact List.not_mem_nil (hmem.2 ⟨hin, hne, hseen⟩)
      · rw [if_neg hempty, reacted_assign]
        by_cases he : e = k
        · rw [if_pos he, LinkedSet.mem_ofList, hmem, he]
          exact ⟨fun h => .inr ⟨rfl, ⟨hvalid, h.1⟩, h.2⟩, fun h => h.elim (fun h => absurd h hnone)
            fun h => ⟨h.2.1.2, h.2.2⟩⟩
        · rw [if_neg he]
          exact (or_iff_left fun h => he h.1).symm
    · rw [if_neg hvalid]
      exact (or_iff_left fun h => hvalid h.2.1.1).symm
  | _ =>
    refine (or_iff_left ?_).symm
    rintro ⟨-, ⟨-, hin⟩, -⟩
    cases hin

theorem mem_seen_readEntry {t : Reactions} {entry : Units × Value} :
    user ∈ (readEntry V (t, seen) entry).2 ↔ user ∈ seen ∨ picks V user entry = true ∧ user ≠ [] := by
  obtain ⟨k, v⟩ := entry
  rw [picks_eq_true]
  cases v with
  | arr items =>
    unfold readEntry
    dsimp only
    by_cases hvalid : V k = true
    · rw [if_pos hvalid, List.mem_append, mem_fresh]
      by_cases hseen : user ∈ seen
      · simp [hseen]
      · simp [hseen, hvalid, listedIn]
    · rw [if_neg hvalid]
      simp [hvalid]
  | _ =>
    refine (or_iff_left ?_).symm
    rintro ⟨⟨-, hin⟩, -⟩
    cases hin

theorem get_readEntry {t : Reactions} {entry : Units × Value} {k : Units} (h : k ≠ entry.1) :
    (readEntry V (t, seen) entry).1.get k = t.get k := by
  unfold readEntry
  split
  · split
    · dsimp only
      split
      · rfl
      · exact Table.get_assign_of_ne h
    · rfl
  · rfl

theorem reacted_foldl : ∀ {l : Entries} {t : Reactions} {seen : List Units}, (keys l).Nodup →
    (∀ k ∈ keys l, t.get k = none) → (Reacted (l.foldl (readEntry V) (t, seen)).1 user e ↔
      Reacted t user e ∨ user ≠ [] ∧ user ∉ seen ∧ (l.find? (picks V user)).map Prod.fst = some e)
  | [], t, seen, _, _ => by simp
  | entry :: l, t, seen, hn, hnone => by
    obtain ⟨hnot, hn⟩ := List.nodup_cons.1 hn
    have hstep : Reacted (readEntry V (t, seen) entry).1 user e ↔ _ :=
      reacted_readEntry (hnone entry.1 List.mem_cons_self)
    have hseen : user ∈ (readEntry V (t, seen) entry).2 ↔ _ := mem_seen_readEntry
    have hrest : ∀ k ∈ keys l, (readEntry V (t, seen) entry).1.get k = none := fun k hk => by
      rw [get_readEntry fun he => hnot (he ▸ hk)]
      exact hnone k (List.mem_cons_of_mem _ hk)
    rw [List.foldl_cons]
    generalize readEntry V (t, seen) entry = after at hstep hseen hrest
    obtain ⟨t', seen'⟩ := after
    rw [reacted_foldl hn hrest, hstep]
    cases hpicks : picks V user entry with
    | true =>
      have hin : user ∈ seen' ↔ user ∈ seen ∨ user ≠ [] := by simpa [hpicks] using hseen
      rw [List.find?_cons_of_pos hpicks]
      simp only [hin, Option.map_some, Option.some.injEq, true_and]
      by_cases hne : user = []
      · simp [hne]
      · by_cases hs : user ∈ seen
        · simp [hne, hs]
        · simp [hne, hs, eq_comm]
    | false =>
      have hin : user ∈ seen' ↔ user ∈ seen := by simpa [hpicks] using hseen
      rw [List.find?_cons_of_neg (by simp [hpicks])]
      simp [hin]

theorem reacted_parseEntries {l : Entries} (hn : (keys l).Nodup) : Reacted (parseEntries V l) user e ↔
    user ≠ [] ∧ (l.find? (picks V user)).map Prod.fst = some e := by
  refine (reacted_foldl hn fun _ _ => rfl).trans ?_
  rw [or_iff_right not_reacted_empty]
  simp

theorem parseReactions_cases (V : IsValid) (raw : Option Units) : parseReactions V raw = .empty ∨
    ∃ l, (keys l).Nodup ∧ parseReactions V raw = parseEntries V l := by
  unfold parseReactions
  split
  · exact .inl rfl
  · split
    · exact .inl rfl
    · split
      · rename_i entries hdecode
        exact .inr ⟨entries, (JsonText.wellFormed_decode hdecode).1, rfl⟩
      · exact .inl rfl

theorem of_reacted_parse {raw : Option Units} (h : Reacted (parseReactions V raw) user e) :
    V e = true ∧ user ≠ [] := by
  rcases parseReactions_cases V raw with hempty | ⟨l, hn, hparse⟩
  · rw [hempty] at h
    exact absurd h not_reacted_empty
  · rw [hparse, reacted_parseEntries hn] at h
    obtain ⟨hne, hfind⟩ := h
    obtain ⟨entry, hentry, rfl⟩ := Option.map_eq_some_iff.1 hfind
    exact ⟨(picks_eq_true.1 (List.find?_some hentry)).1, hne⟩

theorem once_parse (V : IsValid) (raw : Option Units) : Once (parseReactions V raw) := by
  intro user e e' h h'
  rcases parseReactions_cases V raw with hempty | ⟨l, hn, hparse⟩
  · rw [hempty] at h
    exact absurd h not_reacted_empty
  · rw [hparse, reacted_parseEntries hn] at h h'
    exact Option.some.inj (h.2.symm.trans h'.2)

end Reading

/-! ## Reacting -/

section Reacting

theorem mem_left {voters : LinkedSet Units} : user ∈ left userId emoji remove e voters ↔
    user ∈ voters ∧ (user = userId → remove = true ∧ e ≠ emoji) := by
  unfold left
  by_cases h : remove = false ∨ e = emoji
  · rw [if_pos h, LinkedSet.mem_erase]
    refine and_congr_right fun _ => ⟨fun hne heq => absurd heq hne, fun huser heq => ?_⟩
    obtain ⟨hremove, hne⟩ := huser heq
    rcases h with h | h
    · rw [hremove] at h
      cases h
    · exact hne h
  · rw [if_neg h]
    obtain ⟨hremove, hne⟩ := not_or.1 h
    exact (and_iff_left fun _ => ⟨by simpa using hremove, hne⟩).symm

theorem get_without {voters : LinkedSet Units} : (without userId emoji remove r).get e = some voters ↔
    voters.elems ≠ [] ∧ ∃ before, r.get e = some before ∧ voters = left userId emoji remove e before := by
  unfold without
  rw [Table.get_filter_eq_some, Table.get_eq_some]
  simp only [List.mem_map, Prod.mk.injEq, Bool.not_eq_true', List.isEmpty_eq_false_iff]
  constructor
  · rintro ⟨⟨x, hx, rfl, rfl⟩, hne⟩
    exact ⟨hne, x.2, Table.get_eq_some.2 hx, rfl⟩
  · rintro ⟨hne, before, hb, rfl⟩
    exact ⟨⟨(e, before), Table.get_eq_some.1 hb, rfl, rfl⟩, hne⟩

theorem reacted_without : Reacted (without userId emoji remove r) user e ↔
    Reacted r user e ∧ (user = userId → remove = true ∧ e ≠ emoji) := by
  constructor
  · rintro ⟨voters, hget, hmem⟩
    obtain ⟨-, before, hb, rfl⟩ := get_without.1 hget
    obtain ⟨hin, huser⟩ := mem_left.1 hmem
    exact ⟨⟨before, hb, hin⟩, huser⟩
  · rintro ⟨⟨before, hb, hmem⟩, huser⟩
    have hstays : user ∈ left userId emoji remove e before := mem_left.2 ⟨hmem, huser⟩
    exact ⟨_, get_without.2 ⟨List.ne_nil_of_mem hstays, before, hb, rfl⟩, hstays⟩

theorem reacted_reactedWith : Reacted (reactedWith r userId emoji remove) user e ↔
    if user = userId then (if remove = true then Reacted r user e ∧ e ≠ emoji else e = emoji)
    else Reacted r user e := by
  unfold reactedWith
  cases remove with
  | true =>
    simp only [if_true, reacted_without]
    by_cases hu : user = userId
    · simp [hu]
    · simp [hu]
  | false =>
    have hin : user ∈ ((without userId emoji false r).get emoji).getD .empty ↔
        Reacted (without userId emoji false r) user emoji := by
      unfold Reacted
      cases (without userId emoji false r).get emoji with
      | none => simp
      | some voters => simp
    simp only [Bool.false_eq_true, if_false, reacted_assign, LinkedSet.mem_insert, hin, reacted_without]
    by_cases hu : user = userId
    · by_cases he : e = emoji
      · simp [hu, he]
      · simp [hu, he]
    · by_cases he : e = emoji
      · simp [hu, he]
      · simp [hu, he]

theorem once_reactedWith (h : Once r) : Once (reactedWith r userId emoji remove) := by
  intro user e e' hr hr'
  rw [reacted_reactedWith] at hr hr'
  by_cases huser : user = userId
  · rw [if_pos huser] at hr hr'
    cases remove with
    | true => exact h user e e' hr.1 hr'.1
    | false => exact hr.trans hr'.symm
  · rw [if_neg huser] at hr hr'
    exact h user e e' hr hr'

theorem voted_reactedWith : Voted (reactedWith r userId emoji remove) := by
  intro e voters hget
  unfold reactedWith at hget
  cases remove with
  | true => exact (get_without.1 hget).1
  | false =>
    simp only [Bool.false_eq_true, if_false, Table.get_assign] at hget
    split at hget
    · cases hget
      exact List.ne_nil_of_mem (LinkedSet.mem_insert.2 (.inr rfl))
    · exact (get_without.1 hget).1

end Reacting

/-! ## Writing -/

section Writing

theorem finite_texts : ∀ l : List Units, finiteItems (l.map .str) = true
  | [] => rfl
  | _ :: l => finite_texts l

theorem finite_entries : ∀ l : List (Units × LinkedSet Units), finiteEntries (l.map writeEntry) = true
  | [] => rfl
  | x :: l => Bool.and_eq_true_iff.2 ⟨finite_texts x.2.elems, finite_entries l⟩

theorem wellFormed_texts : ∀ l : List Units, WellFormedItems (l.map .str)
  | [] => trivial
  | _ :: l => ⟨trivial, wellFormed_texts l⟩

theorem wellFormed_entries : ∀ l : List (Units × LinkedSet Units), WellFormedEntries (l.map writeEntry)
  | [] => trivial
  | x :: l => ⟨wellFormed_texts x.2.elems, wellFormed_entries l⟩

theorem keys_writeEntry (l : List (Units × LinkedSet Units)) : keys (l.map writeEntry) = l.map Prod.fst := by
  unfold keys
  rw [List.map_map]
  rfl

theorem document_cases (r : Reactions) : (r.entries = [] ∧ document r = none) ∨
    ∃ text, text ≠ [] ∧ document r = some text ∧ decode text = some (.obj (r.entries.map writeEntry)) := by
  unfold document
  by_cases hempty : r.entries = []
  · exact .inl ⟨hempty, if_pos hempty⟩
  · rw [if_neg hempty]
    have hencode : encode (.obj (r.entries.map writeEntry)) = some (JsonText.print (.obj (r.entries.map writeEntry))) :=
      if_pos (finite_entries r.entries)
    have hwell : WellFormed (.obj (r.entries.map writeEntry)) :=
      ⟨keys_writeEntry r.entries ▸ r.nodup, wellFormed_entries r.entries⟩
    have hdecode := JsonText.decode_encode hwell hencode
    refine .inr ⟨_, fun hnil => ?_, hencode, hdecode⟩
    rw [hnil] at hdecode
    cases hdecode

theorem parse_document (V : IsValid) (r : Reactions) :
    parseReactions V (document r) = parseEntries V (r.entries.map writeEntry) := by
  rcases document_cases r with ⟨hempty, hnone⟩ | ⟨text, hne, hsome, hdecode⟩
  · rw [hnone, hempty]
    rfl
  · rw [hsome, parseReactions, if_neg hne, hdecode]

theorem listedIn_writeEntry (x : Units × LinkedSet Units) : listedIn (writeEntry x).2 = x.2.elems := by
  show (x.2.elems.map Value.str).filterMap asText = x.2.elems
  rw [List.filterMap_map]
  exact List.filterMap_some

theorem picks_writeEntry {x : Units × LinkedSet Units} :
    picks V user (writeEntry x) = true ↔ V x.1 = true ∧ user ∈ x.2 := by
  rw [picks_eq_true, listedIn_writeEntry]
  rfl

/-- **Reactions are read back as they were written**, but for emoji that are not valid and a user without a name. -/
theorem reacted_parse_document (h : Once r) : Reacted (parseReactions V (document r)) user e ↔
    V e = true ∧ user ≠ [] ∧ Reacted r user e := by
  have hn : (keys (r.entries.map writeEntry)).Nodup := keys_writeEntry r.entries ▸ r.nodup
  rw [parse_document, reacted_parseEntries hn, List.find?_map]
  constructor
  · rintro ⟨hne, hfind⟩
    rw [Option.map_map, Option.map_eq_some_iff] at hfind
    obtain ⟨x, hx, rfl⟩ := hfind
    have hpicks : picks V user (writeEntry x) = true := List.find?_some (p := picks V user ∘ writeEntry) hx
    obtain ⟨hvalid, huser⟩ := picks_writeEntry.1 hpicks
    exact ⟨hvalid, hne, x.2, Table.get_eq_some.2 (List.mem_of_find?_eq_some hx), huser⟩
  · rintro ⟨hvalid, hne, voters, hget, huser⟩
    have hmem : (e, voters) ∈ r.entries := Table.get_eq_some.1 hget
    refine ⟨hne, ?_⟩
    cases hfind : r.entries.find? (picks V user ∘ writeEntry) with
    | none => exact absurd (picks_writeEntry.2 ⟨hvalid, huser⟩) (List.find?_eq_none.1 hfind _ hmem)
    | some x =>
      have hpicks : picks V user (writeEntry x) = true := List.find?_some (p := picks V user ∘ writeEntry) hfind
      obtain ⟨-, hx⟩ := picks_writeEntry.1 hpicks
      have hsame : x.1 = e := h user x.1 e ⟨x.2, Table.get_eq_some.2 (List.mem_of_find?_eq_some hfind), hx⟩
        ⟨voters, hget, huser⟩
      exact congrArg some hsame

end Writing

/-! ## Sequences of reactions -/

def OnePerUser (raw : Option Units) : Prop :=
  raw = none ∨ ∃ text, raw = some text ∧ ∃ r : Reactions, decode text = some (.obj (r.entries.map writeEntry)) ∧
    Once r ∧ Voted r

structure Operation where
  userId : Units
  emoji : Units
  remove : Bool

def react (isValidMessageReaction : IsValid) (raw : Option Units) (op : Operation) : Option Units :=
  applyMessageReaction isValidMessageReaction raw op.userId op.emoji op.remove

theorem reacted_react (raw : Option Units) (op : Operation) : Reacted (parseReactions V (react V raw op)) user e ↔
    if user = op.userId then
      (if op.remove = true then Reacted (parseReactions V raw) user e ∧ e ≠ op.emoji
        else V e = true ∧ user ≠ [] ∧ e = op.emoji)
    else Reacted (parseReactions V raw) user e := by
  unfold react applyMessageReaction
  rw [reacted_parse_document (once_reactedWith (once_parse V raw)), reacted_reactedWith]
  by_cases huser : user = op.userId
  · rw [if_pos huser, if_pos huser]
    cases op.remove with
    | true =>
      refine ⟨fun h => h.2.2, fun h => ?_⟩
      obtain ⟨hvalid, hne⟩ := of_reacted_parse h.1
      exact ⟨hvalid, hne, h⟩
    | false => exact Iff.rfl
  · rw [if_neg huser, if_neg huser]
    refine ⟨fun h => h.2.2, fun h => ?_⟩
    obtain ⟨hvalid, hne⟩ := of_reacted_parse h
    exact ⟨hvalid, hne, h⟩

theorem onePerUser_react (raw : Option Units) (op : Operation) : OnePerUser (react V raw op) := by
  unfold react applyMessageReaction
  rcases document_cases (reactedWith (parseReactions V raw) op.userId op.emoji op.remove) with
    ⟨-, hnone⟩ | ⟨text, -, hsome, hdecode⟩
  · exact .inl hnone
  · exact .inr ⟨text, hsome, _, hdecode, once_reactedWith (once_parse V raw), voted_reactedWith⟩

theorem onePerUser_foldl (raw : Option Units) {ops : List Operation} (h : ops ≠ []) :
    OnePerUser (ops.foldl (react V) raw) := by
  rw [← List.dropLast_append_getLast h, List.foldl_concat]
  exact onePerUser_react _ _

theorem reacted_comm {a b : Operation} (h : a.userId ≠ b.userId) (raw : Option Units) :
    Reacted (parseReactions V (react V (react V raw a) b)) user e ↔
      Reacted (parseReactions V (react V (react V raw b) a)) user e := by
  rw [reacted_react, reacted_react, reacted_react, reacted_react]
  by_cases ha : user = a.userId
  · have hb : user ≠ b.userId := fun hb => h (ha.symm.trans hb)
    simp only [if_pos ha, if_neg hb]
  · simp only [if_neg ha]

def ofUser (user : Units) (ops : List Operation) : List Operation := ops.filter fun op => decide (op.userId = user)

theorem ofUser_cons_self {op : Operation} (h : user = op.userId) (ops : List Operation) :
    ofUser user (op :: ops) = op :: ofUser user ops := by
  unfold ofUser
  rw [List.filter_cons, if_pos (decide_eq_true h.symm)]

theorem ofUser_cons_of_ne {op : Operation} (h : user ≠ op.userId) (ops : List Operation) :
    ofUser user (op :: ops) = ofUser user ops := by
  unfold ofUser
  rw [List.filter_cons, if_neg]
  rw [decide_eq_true_eq]
  exact fun heq => h heq.symm

theorem reacted_foldl_ofUser : ∀ (ops : List Operation) {raw raw' : Option Units},
    (∀ e, Reacted (parseReactions V raw) user e ↔ Reacted (parseReactions V raw') user e) → ∀ e,
      (Reacted (parseReactions V (ops.foldl (react V) raw)) user e ↔
        Reacted (parseReactions V ((ofUser user ops).foldl (react V) raw')) user e)
  | [], raw, raw', h, e => h e
  | op :: ops, raw, raw', h, e => by
    by_cases huser : user = op.userId
    · rw [ofUser_cons_self huser, List.foldl_cons, List.foldl_cons]
      refine reacted_foldl_ofUser ops (fun e => ?_) e
      rw [reacted_react, reacted_react, h e]
    · rw [ofUser_cons_of_ne huser, List.foldl_cons]
      refine reacted_foldl_ofUser ops (fun e => ?_) e
      rw [reacted_react, if_neg huser, h e]

def Operation.valid (isValidMessageReaction : IsValid) (op : Operation) : Bool :=
  decide (op.userId ≠ []) && isValidMessageReaction op.emoji

/-- **A row stores what `react` makes of the operations that name a user and a valid emoji**, unless it is deleted. -/
theorem foldl_applyReaction (V : IsValid) (deleted : Bool) (raw : Option Units) (ops : List Operation) :
    ops.foldl (fun raw op => applyReaction V deleted raw op.userId op.emoji op.remove) raw =
      if deleted = true then raw else (ops.filter (Operation.valid V)).foldl (react V) raw := by
  induction ops generalizing raw with
  | nil => exact (ite_self raw).symm
  | cons op ops ih =>
    have hstep : applyReaction V deleted raw op.userId op.emoji op.remove =
        if deleted = true then raw else if op.valid V = true then react V raw op else raw := by
      unfold applyReaction Operation.valid
      cases deleted <;> cases V op.emoji <;> by_cases hu : op.userId = [] <;> simp [hu, react]
    rw [List.foldl_cons, ih, hstep, List.filter_cons]
    cases deleted with
    | true => rfl
    | false =>
      by_cases hop : op.valid V = true
      · simp only [Bool.false_eq_true, if_false, if_pos hop, List.foldl_cons]
      · simp only [Bool.false_eq_true, if_false, if_neg hop]

/-- **One emoji for each user, whatever the others do.**  What is written lists each user under one emoji at most and no
emoji without a user; reactions of different users commute in what is read; and what is read for a user is what the
user's own reactions make of the text. -/
theorem reactions_byUser (V : IsValid) (raw : Option Units) :
    (∀ ops : List Operation, ops ≠ [] → OnePerUser (ops.foldl (react V) raw)) ∧
    (∀ ops : List Operation, Once (parseReactions V (ops.foldl (react V) raw))) ∧
    (∀ a b : Operation, a.userId ≠ b.userId → ∀ user e,
      (Reacted (parseReactions V (react V (react V raw a) b)) user e ↔
        Reacted (parseReactions V (react V (react V raw b) a)) user e)) ∧
    ∀ (ops : List Operation) (user e : Units), Reacted (parseReactions V (ops.foldl (react V) raw)) user e ↔
      Reacted (parseReactions V ((ofUser user ops).foldl (react V) raw)) user e :=
  ⟨fun _ h => onePerUser_foldl raw h, fun _ => once_parse V _, fun _ _ h _ _ => reacted_comm h raw,
    fun ops _ e => reacted_foldl_ofUser ops (fun _ => Iff.rfl) e⟩

end ReactionTexts
end SecureChat
