import SecureChat.JsonReading
import SecureChat.Utf16
/-!
# JsonBytes — the bytes of documents

The surrogates of a written text come in pairs, since half of a pair is written by its number; so a map is read back
from its bytes as well (`decode_utf8Encode`).
-/
namespace SecureChat
namespace JsonText

open PlaintextPadding (Units ascii isHigh isLow)
open Utf16 (isSurrogate paired paired_append paired_of_plain isSurrogate_false utf8Encode utf8Decode)

theorem plain_of_atomUnit {u : UInt16} (h : isAtomUnit u = true) : isSurrogate u = false := by
  have h97 : (97 : UInt16).toNat = 97 := rfl
  have h122 : (122 : UInt16).toNat = 122 := rfl
  have h65 : (65 : UInt16).toNat = 65 := rfl
  have h90 : (90 : UInt16).toNat = 90 := rfl
  have h48 : (48 : UInt16).toNat = 48 := rfl
  have h57 : (57 : UInt16).toNat = 57 := rfl
  simp only [isAtomUnit, Bool.or_eq_true, decide_eq_true_eq, UInt16.le_iff_toNat_le] at h
  rcases h with ((((h | h) | h) | rfl) | rfl) | rfl
  · rw [isSurrogate_false]
    omega
  · rw [isSurrogate_false]
    omega
  · rw [isSurrogate_false]
    omega
  · decide
  · decide
  · decide

theorem plain_hexDigit : ∀ {d : ℕ}, d < 16 → isSurrogate (hexDigit d) = false := by decide

theorem paired_numbered (u : UInt16) : paired (numbered u) = true := by
  have hu := u.toNat_lt
  refine paired_of_plain fun v hv => ?_
  simp only [numbered, List.mem_cons, List.not_mem_nil, or_false] at hv
  rcases hv with rfl | rfl | rfl | rfl | rfl | rfl
  · decide
  · decide
  · exact plain_hexDigit (by omega)
  · exact plain_hexDigit (by omega)
  · exact plain_hexDigit (by omega)
  · exact plain_hexDigit (by omega)

theorem paired_escapedUnit (u : UInt16) : paired (escapedUnit u) = true := by
  unfold escapedUnit
  split
  · rename_i h
    rcases h with rfl | rfl <;> decide
  · split
    · decide
    · split
      · decide
      · split
        · decide
        · split
          · decide
          · split
            · decide
            · split
              · exact paired_numbered u
              · rename_i h
                have hplain : isSurrogate u = false := by
                  rw [← Bool.not_eq_true]
                  intro hs
                  exact h (.inr (Bool.or_eq_true_iff.1 hs))
                simp [paired, hplain]

theorem paired_escaped : ∀ s : Units, paired (escaped s) = true
  | [] => rfl
  | [u] => paired_escapedUnit u
  | u :: v :: l => by
    unfold escaped
    split
    · rename_i h
      rw [paired, if_pos h]
      exact paired_escaped l
    · exact paired_append (paired_escapedUnit u) (paired_escaped (v :: l))

theorem paired_ascii {t : List Char} {v : Value} (h : AtomText (ascii t) v) : paired (ascii t) = true :=
  paired_of_plain fun u hu => plain_of_atomUnit (h.units u hu)

theorem paired_atomText : ∀ {v : Value}, isFinite v = true → paired (atomText v) = true
  | .null, _ => by decide
  | .bool true, _ => by decide
  | .bool false, _ => by decide
  | .int n, _ => paired_ascii (atomText_int n)
  | .double _, h => paired_ascii (atomText_double h)
  | .str _, _ => rfl
  | .arr _, _ => rfl
  | .obj _, _ => rfl

def Token.isFinite : Token → Bool
  | .atom v => JsonText.isFinite v
  | _ => true

theorem paired_text {t : Token} (h : t.isFinite = true) : paired t.text = true := by
  cases t with
  | str u => exact paired_append (paired_append (by decide : paired [quote] = true) (paired_escaped u)) (by decide)
  | atom v => exact paired_atomText h
  | _ => rfl

mutual

theorem finite_tokens : ∀ v : Value, isFinite v = true → ∀ t ∈ tokens v, t.isFinite = true
  | .null, _ => by simp [tokens, Token.isFinite, isFinite]
  | .bool _, _ => by simp [tokens, Token.isFinite, isFinite]
  | .int _, _ => by simp [tokens, Token.isFinite, isFinite]
  | .double d, h => by simpa [tokens, Token.isFinite] using h
  | .str _, _ => by simp [tokens, Token.isFinite]
  | .arr [], _ => by simp [tokens, Token.isFinite]
  | .arr (v :: l), h => by
    have h := Bool.and_eq_true_iff.1 h
    have hv := finite_tokens v h.1
    have hl := finite_moreItems l h.2
    simp only [tokens, List.mem_cons, List.mem_append]
    rintro t ((rfl | ht) | ht)
    · rfl
    · exact hv t ht
    · exact hl t ht
  | .obj [], _ => by simp [tokens, Token.isFinite]
  | .obj ((k, v) :: l), h => by
    have h := Bool.and_eq_true_iff.1 h
    have hv := finite_tokens v h.1
    have hl := finite_moreEntries l h.2
    simp only [tokens, List.mem_cons, List.mem_append]
    rintro t ((rfl | rfl | rfl | ht) | ht)
    · rfl
    · rfl
    · rfl
    · exact hv t ht
    · exact hl t ht

theorem finite_moreItems : ∀ l : List Value, finiteItems l = true → ∀ t ∈ moreItems l, t.isFinite = true
  | [], _ => by simp [moreItems, Token.isFinite]
  | v :: l, h => by
    have h := Bool.and_eq_true_iff.1 h
    have hv := finite_tokens v h.1
    have hl := finite_moreItems l h.2
    simp only [moreItems, List.mem_cons, List.mem_append]
    rintro t ((rfl | ht) | ht)
    · rfl
    · exact hv t ht
    · exact hl t ht

theorem finite_moreEntries : ∀ l : Entries, finiteEntries l = true → ∀ t ∈ moreEntries l, t.isFinite = true
  | [], _ => by simp [moreEntries, Token.isFinite]
  | (k, v) :: l, h => by
    have h := Bool.and_eq_true_iff.1 h
    have hv := finite_tokens v h.1
    have hl := finite_moreEntries l h.2
    simp only [moreEntries, List.mem_cons, List.mem_append]
    rintro t ((rfl | rfl | rfl | ht) | ht)
    · rfl
    · rfl
    · rfl
    · exact hv t ht
    · exact hl t ht

end

theorem paired_print {v : Value} (h : isFinite v = true) : paired (print v) = true := by
  have hall : ∀ ts : List Token, (∀ t ∈ ts, t.isFinite = true) → paired (ts.flatMap Token.text) = true := by
    intro ts
    induction ts with
    | nil => exact fun _ => rfl
    | cons t ts ih =>
      intro hts
      obtain ⟨ht, hts⟩ := List.forall_mem_cons.1 hts
      rw [List.flatMap_cons]
      exact paired_append (paired_text ht) (ih hts)
  exact hall _ (finite_tokens v h)

theorem exists_print_obj (l : Entries) : ∃ rest, print (.obj l) = 123 :: rest := by
  cases l with
  | nil => exact ⟨_, rfl⟩
  | cons e l => exact ⟨_, rfl⟩

theorem utf8Decode_print {l : Entries} (h : isFinite (.obj l) = true) :
    utf8Decode (utf8Encode (print (.obj l))) = some (print (.obj l)) := by
  refine Utf16.utf8Decode_utf8Encode (paired_print h) ?_
  obtain ⟨rest, hrest⟩ := exists_print_obj l
  rw [hrest, Utf16.head?_scalars_cons (by decide)]
  decide

end JsonText
end SecureChat
