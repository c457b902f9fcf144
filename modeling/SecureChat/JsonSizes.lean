import SecureChat.JsonBytes
/-!
# JsonSizes — how many bytes a document takes

A document takes as many bytes as its tokens, a text between quotes as many as its units: one for most of ASCII, two or
six for what is escaped, six for half of a surrogate pair and up to four for what is neither.
-/
namespace SecureChat
namespace JsonText

open PlaintextPadding (Units ascii isHigh isLow unitBytes utf8Length)
open Utf16 (isSurrogate isSurrogate_false isHigh_iff isLow_iff paired pair single scalars utf8Encode)

/-! ## Texts -/

theorem length_utf8EncodeChar_single (u : UInt16) : (String.utf8EncodeChar (single u)).length = unitBytes u := by
  have h80 : (0x80 : UInt16).toNat = 0x80 := rfl
  have h800 : (0x800 : UInt16).toNat = 0x800 := rfl
  rw [String.length_utf8EncodeChar]
  unfold unitBytes
  simp only [UInt16.lt_iff_toNat_lt, h80, h800]
  cases hs : isSurrogate u with
  | true =>
    have hrange := Utf16.isSurrogate_iff.1 hs
    rw [if_neg (by omega), if_neg (by omega), single, if_pos hs]
    rfl
  | false =>
    have hnat : (single u).val.toNat = u.toNat := Utf16.toNat_single hs
    have hu := u.toNat_lt
    by_cases h1 : u.toNat < 0x80
    · rw [if_pos h1, Char.utf8Size_eq_one_iff, UInt32.le_iff_toNat_le, hnat]
      exact Nat.le_of_lt_succ h1
    · rw [if_neg h1]
      by_cases h2 : u.toNat < 0x800
      · rw [if_pos h2, Char.utf8Size_eq_two_iff, UInt32.le_iff_toNat_le, UInt32.lt_iff_toNat_lt, hnat]
        exact ⟨Nat.lt_of_not_le fun h => h1 (Nat.lt_succ_of_le h), Nat.le_of_lt_succ h2⟩
      · rw [if_neg h2, Char.utf8Size_eq_three_iff, UInt32.le_iff_toNat_le, UInt32.lt_iff_toNat_lt, hnat]
        exact ⟨Nat.lt_of_not_le fun h => h2 (Nat.lt_succ_of_le h), Nat.le_of_lt_succ hu⟩

theorem length_utf8EncodeChar_pair {u v : UInt16} (hu : isHigh u = true) (hv : isLow v = true) :
    (String.utf8EncodeChar (pair u v)).length = 4 := by
  obtain ⟨hu, hu'⟩ := isHigh_iff.1 hu
  obtain ⟨hv, hv'⟩ := isLow_iff.1 hv
  have hnat : (pair u v).val.toNat = 0x10000 + (u.toNat - 0xD800) * 0x400 + (v.toNat - 0xDC00) :=
    Utf16.toNat_ofNat (by omega)
  rw [String.length_utf8EncodeChar, Char.utf8Size_eq_four_iff, UInt32.lt_iff_toNat_lt, hnat]
  show 0xffff < _
  omega

theorem length_utf8Encode : ∀ l : Units, (utf8Encode l).length = utf8Length l
  | [] => rfl
  | [u] => by
    show (String.utf8EncodeChar (single u) ++ []).length = unitBytes u
    rw [List.append_nil, length_utf8EncodeChar_single]
  | u :: v :: l => by
    unfold utf8Encode
    rw [scalars, utf8Length]
    by_cases h : isHigh u = true ∧ isLow v = true
    · rw [if_pos h, if_pos h, List.flatMap_cons, List.length_append, length_utf8EncodeChar_pair h.1 h.2]
      exact congrArg (4 + ·) (length_utf8Encode l)
    · rw [if_neg h, if_neg h, List.flatMap_cons, List.length_append, length_utf8EncodeChar_single]
      exact congrArg (unitBytes u + ·) (length_utf8Encode (v :: l))

theorem utf8Length_append : ∀ {a : Units} (b : Units), paired a = true →
    utf8Length (a ++ b) = utf8Length a + utf8Length b
  | [], b, _ => (Nat.zero_add _).symm
  | [u], b, h => by
    have hu : isSurrogate u = false := by simpa [paired] using h
    have hhigh : isHigh u = false := (Bool.or_eq_false_iff.1 hu).1
    cases b with
    | nil => rfl
    | cons v l =>
      have hstep : utf8Length (u :: v :: l) = unitBytes u + utf8Length (v :: l) := if_neg (by simp [hhigh])
      exact hstep
  | u :: v :: l, b, h => by
    rw [paired] at h
    rw [List.cons_append, List.cons_append, utf8Length, utf8Length]
    split at h
    · rename_i hpair
      rw [if_pos hpair, if_pos hpair, utf8Length_append b h, Nat.add_assoc]
    · rename_i hpair
      obtain ⟨-, h⟩ := Bool.and_eq_true_iff.1 h
      have ih := utf8Length_append b h
      rw [List.cons_append] at ih
      rw [if_neg hpair, if_neg hpair, ih, Nat.add_assoc]

theorem utf8Length_ascii {t : Units} (h : ∀ u ∈ t, u < 0x80) : utf8Length t = t.length := by
  induction t with
  | nil => rfl
  | cons u t ih =>
    have hu : u < 0x80 := h u List.mem_cons_self
    have hplain : isSurrogate u = false := by
      have h80 : (0x80 : UInt16).toNat = 0x80 := rfl
      rw [UInt16.lt_iff_toNat_lt, h80] at hu
      rw [isSurrogate_false]
      omega
    have hpaired : paired [u] = true := by simp [paired, hplain]
    have hbytes : utf8Length [u] = 1 := if_pos hu
    have happend := utf8Length_append t hpaired
    rw [List.singleton_append, hbytes, ih fun v hv => h v (List.mem_cons_of_mem u hv)] at happend
    rw [happend, List.length_cons, Nat.add_comm]

/-! ## Between quotes -/

def escapedBytes (u : UInt16) : ℕ :=
  if u = quote ∨ u = backslash then 2
  else if u = 8 ∨ u = 9 ∨ u = 10 ∨ u = 12 ∨ u = 13 then 2
  else if u < 32 ∨ isSurrogate u = true then 6
  else unitBytes u

def jsonBytes : Units → ℕ
  | [] => 0
  | [u] => escapedBytes u
  | u :: v :: l => if isHigh u = true ∧ isLow v = true then 4 + jsonBytes l else escapedBytes u + jsonBytes (v :: l)

theorem ascii_hexDigit : ∀ {d : ℕ}, d < 16 → hexDigit d < 0x80 := by decide

theorem utf8Length_numbered (u : UInt16) : utf8Length (numbered u) = 6 := by
  have hu := u.toNat_lt
  refine utf8Length_ascii fun v hv => ?_
  simp only [numbered, List.mem_cons, List.not_mem_nil, or_false] at hv
  rcases hv with rfl | rfl | rfl | rfl | rfl | rfl
  · decide
  · decide
  · exact ascii_hexDigit (by omega)
  · exact ascii_hexDigit (by omega)
  · exact ascii_hexDigit (by omega)
  · exact ascii_hexDigit (by omega)

theorem utf8Length_escapedUnit (u : UInt16) : utf8Length (escapedUnit u) = escapedBytes u := by
  have hsurrogate : (isHigh u = true ∨ isLow u = true) ↔ isSurrogate u = true := Bool.or_eq_true_iff.symm
  unfold escapedUnit escapedBytes
  simp only [hsurrogate]
  by_cases hquote : u = quote ∨ u = backslash
  · rw [if_pos hquote, if_pos hquote]
    rcases hquote with rfl | rfl <;> decide
  · rw [if_neg hquote, if_neg hquote]
    by_cases h8 : u = 8
    · subst h8; decide
    · by_cases h9 : u = 9
      · subst h9; decide
      · by_cases h10 : u = 10
        · subst h10; decide
        · by_cases h12 : u = 12
          · subst h12; decide
          · by_cases h13 : u = 13
            · subst h13; decide
            · have hshort : ¬(u = 8 ∨ u = 9 ∨ u = 10 ∨ u = 12 ∨ u = 13) := by tauto
              rw [if_neg h8, if_neg h9, if_neg h10, if_neg h12, if_neg h13, if_neg hshort]
              by_cases hlow : u < 32 ∨ isSurrogate u = true
              · rw [if_pos hlow, if_pos hlow, utf8Length_numbered]
              · rw [if_neg hlow, if_neg hlow]
                rfl

theorem utf8Length_escaped : ∀ s : Units, utf8Length (escaped s) = jsonBytes s
  | [] => rfl
  | [u] => utf8Length_escapedUnit u
  | u :: v :: l => by
    rw [escaped, jsonBytes]
    split
    · rename_i hpair
      rw [utf8Length, if_pos hpair, utf8Length_escaped l]
    · rw [utf8Length_append _ (paired_escapedUnit u), utf8Length_escapedUnit, utf8Length_escaped (v :: l)]

theorem jsonBytes_replicate {u : UInt16} (h : isSurrogate u = false) : ∀ n : ℕ,
    jsonBytes (List.replicate n u) = n * escapedBytes u
  | 0 => (Nat.zero_mul _).symm
  | 1 => (Nat.one_mul _).symm
  | n + 2 => by
    have hhigh : isHigh u = false := (Bool.or_eq_false_iff.1 h).1
    have ih := jsonBytes_replicate h (n + 1)
    rw [List.replicate_succ] at ih
    rw [List.replicate_succ, List.replicate_succ, jsonBytes, if_neg (by simp [hhigh]), ih]
    ring

/-! ## Documents -/

def Token.bytes : Token → ℕ
  | .str u => 2 + jsonBytes u
  | .atom v => utf8Length (atomText v)
  | _ => 1

theorem utf8Length_text (t : Token) : utf8Length t.text = t.bytes := by
  cases t with
  | str u =>
    show utf8Length (([quote] ++ escaped u) ++ [quote]) = 2 + jsonBytes u
    have hquote : paired [quote] = true := by decide
    rw [utf8Length_append _ (Utf16.paired_append hquote (paired_escaped u)), utf8Length_append _ hquote,
      utf8Length_escaped]
    show 1 + jsonBytes u + 1 = _
    omega
  | atom v => rfl
  | _ => rfl

theorem utf8Length_print {v : Value} (h : isFinite v = true) :
    utf8Length (print v) = ((tokens v).map Token.bytes).sum := by
  have hall : ∀ ts : List Token, (∀ t ∈ ts, t.isFinite = true) →
      utf8Length (ts.flatMap Token.text) = (ts.map Token.bytes).sum := by
    intro ts
    induction ts with
    | nil => exact fun _ => rfl
    | cons t ts ih =>
      intro hts
      obtain ⟨ht, hts⟩ := List.forall_mem_cons.1 hts
      rw [List.flatMap_cons, utf8Length_append _ (paired_text ht), utf8Length_text, ih hts, List.map_cons,
        List.sum_cons]
  exact hall _ (finite_tokens v h)

theorem bytes_int (n : Int64) : (Token.atom (.int n)).bytes = (DartInt.print n).length := by
  have h := atomText_int n
  show utf8Length (ascii (DartInt.print n)) = _
  rw [utf8Length_ascii fun u hu => ?_]
  · exact List.length_map ..
  · have hatom := h.units u hu
    have h97 : (97 : UInt16).toNat = 97 := rfl
    have h122 : (122 : UInt16).toNat = 122 := rfl
    have h65 : (65 : UInt16).toNat = 65 := rfl
    have h90 : (90 : UInt16).toNat = 90 := rfl
    have h48 : (48 : UInt16).toNat = 48 := rfl
    have h57 : (57 : UInt16).toNat = 57 := rfl
    have h80 : (0x80 : UInt16).toNat = 128 := rfl
    simp only [isAtomUnit, Bool.or_eq_true, decide_eq_true_eq, UInt16.le_iff_toNat_le] at hatom
    rw [UInt16.lt_iff_toNat_lt, h80]
    rcases hatom with ((((hatom | hatom) | hatom) | rfl) | rfl) | rfl
    · omega
    · omega
    · omega
    · decide
    · decide
    · decide

def size (v : Value) : ℕ := ((tokens v).map Token.bytes).sum

def entriesSize (l : Entries) : ℕ := ((moreEntries l).map Token.bytes).sum

theorem size_str (u : Units) : size (.str u) = 2 + jsonBytes u := rfl

theorem size_int (n : Int64) : size (.int n) = (DartInt.print n).length := bytes_int n

theorem entriesSize_nil : entriesSize [] = 1 := rfl

theorem entriesSize_cons (k : Units) (v : Value) (l : Entries) :
    entriesSize ((k, v) :: l) = 4 + jsonBytes k + size v + entriesSize l := by
  unfold entriesSize size
  rw [moreEntries]
  simp only [List.cons_append, List.map_cons, List.map_append, List.sum_cons, List.sum_append, Token.bytes]
  ring

theorem size_obj_cons (e : Units × Value) (l : Entries) : size (.obj (e :: l)) = entriesSize (e :: l) := by
  obtain ⟨k, v⟩ := e
  rw [entriesSize_cons]
  unfold entriesSize size
  rw [tokens]
  simp only [List.cons_append, List.map_cons, List.map_append, List.sum_cons, List.sum_append, Token.bytes]
  ring

theorem utf8Length_print_cons {e : Units × Value} {l : Entries} (h : isFinite (.obj (e :: l)) = true) :
    utf8Length (print (.obj (e :: l))) = entriesSize (e :: l) := (utf8Length_print h).trans (size_obj_cons e l)

theorem two_le_utf8Length_print {l : Entries} (h : isFinite (.obj l) = true) : 2 ≤ utf8Length (print (.obj l)) := by
  cases l with
  | nil => decide
  | cons e l =>
    rw [utf8Length_print_cons h, entriesSize_cons]
    exact Nat.le_trans (by decide : 2 ≤ 4) (Nat.le_add_right_of_le (Nat.le_add_right_of_le (Nat.le_add_right 4 _)))

end JsonText
end SecureChat
