import Mathlib
import SecureChat.GroupControl
/-!
# DartInt — the texts of 64-bit integers

`tryParse` reads decimal and hexadecimal digits with a sign and white space around them, `print` writes decimal digits.
What was printed is read back (`tryParse_print`).
-/
namespace SecureChat
namespace DartInt

open GroupControl (Text isWhitespace trim)

def digit (c : Char) : Option ℕ :=
  if c.isDigit = true then some (c.toNat - '0'.toNat)
  else if 'a' ≤ c ∧ c ≤ 'f' then some (c.toNat - 'a'.toNat + 10)
  else if 'A' ≤ c ∧ c ≤ 'F' then some (c.toNat - 'A'.toNat + 10)
  else none

def digits (radix : ℕ) : ℕ → Text → Option ℕ
  | v, [] => some v
  | v, c :: cs =>
    match digit c with
    | some d => if d < radix then digits radix (radix * v + d) cs else none
    | none => none

def signed (negative : Bool) (v : ℕ) : ℤ := if negative then -(v : ℤ) else v

def decimal (negative : Bool) (t : Text) : Option Int64 :=
  if t = [] then none
  else (digits 10 0 t).bind fun v =>
    let n := signed negative v
    if -2 ^ 63 ≤ n ∧ n < 2 ^ 63 then some (Int64.ofInt n) else none

/-- Up to 64 bits without a minus sign, and the highest may be set. -/
def hexadecimal (negative : Bool) (t : Text) : Option Int64 :=
  if t = [] then none
  else (digits 16 0 t).bind fun v =>
    let n := signed negative v
    if -2 ^ 63 ≤ n ∧ n < 2 ^ 64 then some (Int64.ofInt n) else none

def unsigned (negative : Bool) : Text → Option Int64
  | '0' :: 'x' :: t => hexadecimal negative t
  | '0' :: 'X' :: t => hexadecimal negative t
  | t => decimal negative t

def tryParse (source : Text) : Option Int64 :=
  match trim source with
  | '-' :: t => unsigned true t
  | '+' :: t => unsigned false t
  | t => unsigned false t

def print (n : Int64) : Text :=
  if n.toInt < 0 then '-' :: Nat.toDigits 10 n.toInt.natAbs else Nat.toDigits 10 n.toInt.natAbs

theorem dropWhile_eq_self {p : Char → Bool} {t : Text} (h : ∀ c ∈ t, p c = false) : t.dropWhile p = t := by
  cases t with
  | nil => rfl
  | cons c t => simp [h c List.mem_cons_self]

theorem trim_eq_self {t : Text} (h : ∀ c ∈ t, isWhitespace c = false) : trim t = t := by
  have hrev : ∀ c ∈ t.reverse, isWhitespace c = false := fun c hc => h c (List.mem_reverse.1 hc)
  rw [trim, dropWhile_eq_self h, dropWhile_eq_self hrev, List.reverse_reverse]

theorem isDigit_bounds {c : Char} (h : c.isDigit = true) : 48 ≤ c.toNat ∧ c.toNat ≤ 57 := by
  simp only [Char.isDigit, Bool.and_eq_true, decide_eq_true_eq] at h
  have hlow := UInt32.le_iff_toNat_le.1 h.1
  have hhigh := UInt32.le_iff_toNat_le.1 h.2
  exact ⟨hlow, hhigh⟩

theorem isWhitespace_of_isDigit {c : Char} (h : c.isDigit = true) : isWhitespace c = false := by
  obtain ⟨hlow, hhigh⟩ := isDigit_bounds h
  simp only [isWhitespace, Bool.or_eq_false_iff, decide_eq_false_iff_not, List.contains_eq_mem, List.mem_cons,
    List.not_mem_nil, or_false, not_and, not_or]
  omega

theorem digit_of_isDigit {c : Char} (h : c.isDigit = true) : digit c = some (c.toNat - '0'.toNat) := if_pos h

theorem digits_eq : ∀ {t : Text} {v : ℕ}, (∀ c ∈ t, c.isDigit = true) → digits 10 v t = some (Nat.ofDigitChars 10 t v)
  | [], v, _ => by simp [digits]
  | c :: t, v, h => by
    have hc := h c List.mem_cons_self
    have hbounds := isDigit_bounds hc
    have hlt : c.toNat - '0'.toNat < 10 := by
      show c.toNat - 48 < 10
      omega
    rw [digits, digit_of_isDigit hc]
    simp only [if_pos hlt, digits_eq fun c hc => h c (List.mem_cons_of_mem _ hc), Nat.ofDigitChars_cons]

theorem decimal_toDigits {negative : Bool} {v : ℕ} (h : -2 ^ 63 ≤ signed negative v ∧ signed negative v < 2 ^ 63) :
    decimal negative (Nat.toDigits 10 v) = some (Int64.ofInt (signed negative v)) := by
  have hdigits : ∀ c ∈ Nat.toDigits 10 v, c.isDigit = true := fun c hc =>
    Nat.isDigit_of_mem_toDigits (by omega) (by omega) hc
  rw [decimal, if_neg Nat.toDigits_ne_nil, digits_eq hdigits, Nat.ofDigitChars_toDigits (by omega) (by omega)]
  rw [Option.bind_some]
  exact if_pos h

theorem unsigned_eq {negative : Bool} {t : Text} (h : ∀ c ∈ t, c.isDigit = true) :
    unsigned negative t = decimal negative t := by
  unfold unsigned
  split
  · exact absurd (h 'x' (by simp)) (by decide)
  · exact absurd (h 'X' (by simp)) (by decide)
  · rfl

theorem mem_print {n : Int64} {c : Char} (h : c ∈ print n) : c = '-' ∨ c.isDigit = true := by
  have hdigit : ∀ v, c ∈ Nat.toDigits 10 v → c.isDigit = true := fun v hc =>
    Nat.isDigit_of_mem_toDigits (by omega) (by omega) hc
  unfold print at h
  split at h
  · exact (List.mem_cons.1 h).imp id (hdigit _)
  · exact .inr (hdigit _ h)

theorem tryParse_print (n : Int64) : tryParse (print n) = some n := by
  have htrim : trim (print n) = print n := by
    refine trim_eq_self fun c hc => ?_
    rcases mem_print hc with rfl | hdigit
    · decide
    · exact isWhitespace_of_isDigit hdigit
  have hdigits : ∀ c ∈ Nat.toDigits 10 n.toInt.natAbs, c.isDigit = true := fun c hc =>
    Nat.isDigit_of_mem_toDigits (by omega) (by omega) hc
  have hlow := n.le_toInt
  have hhigh := n.toInt_lt
  rw [tryParse, htrim, print]
  by_cases hneg : n.toInt < 0
  · have hsigned : signed true n.toInt.natAbs = n.toInt := by
      simp only [signed, if_true]
      omega
    rw [if_pos hneg]
    show unsigned true (Nat.toDigits 10 n.toInt.natAbs) = some n
    rw [unsigned_eq hdigits, decimal_toDigits (by omega), hsigned, Int64.ofInt_toInt]
  · have hsigned : signed false n.toInt.natAbs = n.toInt := by
      simp only [signed, Bool.false_eq_true, if_false]
      omega
    rw [if_neg hneg]
    split
    · rename_i t ht
      exact absurd (hdigits '-' (ht ▸ List.mem_cons_self)) (by decide)
    · rename_i t ht
      exact absurd (hdigits '+' (ht ▸ List.mem_cons_self)) (by decide)
    · rw [unsigned_eq hdigits, decimal_toDigits (by omega), hsigned, Int64.ofInt_toInt]

end DartInt
end SecureChat
