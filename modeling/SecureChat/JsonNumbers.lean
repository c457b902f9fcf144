import SecureChat.DartInt
import Mathlib.Data.List.DropRight
import SecureChat.Doubles
/-!
# JsonNumbers — integers and floats as JSON writes them

A literal has a sign, a whole part and, if it has them, a fraction and an exponent; `literal` reads its text
(`literal_text`).  A literal with neither fraction nor exponent is an integer if 64 bits hold it, and any other one is
the float nearest to it.  A printed number is read back, an infinite one excepted (`value_ofDouble`).
-/
namespace SecureChat
namespace JsonNumbers

open GroupControl (Text)
open Doubles (Decimal infinite shortest bits_shortest)

inductive Double
  | nan
  | number (negative : Bool) (bits : ℕ) (le : bits ≤ infinite)
deriving DecidableEq

def Double.isFinite : Double → Bool
  | .nan => false
  | .number _ bits _ => decide (bits < infinite)

inductive Number
  | int (n : Int64)
  | double (d : Double)

structure Literal where
  negative : Bool
  whole : Text
  fraction : Option Text
  exponent : Option (Bool × Text)
deriving DecidableEq

namespace Literal

def fractionText : Option Text → Text
  | none => []
  | some ds => '.' :: ds

def exponentText : Option (Bool × Text) → Text
  | none => []
  | some (negative, ds) => 'e' :: (if negative then '-' else '+') :: ds

def text (l : Literal) : Text :=
  (if l.negative then ['-'] else []) ++ l.whole ++ fractionText l.fraction ++ exponentText l.exponent

/-- The digits of whole part and fraction, and how many tens or tenths they are. -/
def decimal (l : Literal) : Decimal where
  digits := Nat.ofDigitChars 10 (l.whole ++ l.fraction.getD []) 0
  exponent := (l.exponent.elim 0 fun e => DartInt.signed e.1 (Nat.ofDigitChars 10 e.2 0)) - (l.fraction.getD []).length

def double (negative : Bool) (d : Decimal) : Double := .number negative d.bits (Nat.min_le_left _ _)

def integer (negative : Bool) (v : ℕ) : Number :=
  if -2 ^ 63 ≤ DartInt.signed negative v ∧ DartInt.signed negative v < 2 ^ 63 then
    .int (Int64.ofInt (DartInt.signed negative v))
  else .double (double negative ⟨v, 0⟩)

def value (l : Literal) : Number :=
  if l.fraction = none ∧ l.exponent = none then integer l.negative (Nat.ofDigitChars 10 l.whole 0)
  else .double (double l.negative l.decimal)

end Literal

/-! ## Reading -/

def sign : Text → Bool × Text
  | '-' :: t => (true, t)
  | t => (false, t)

def exponentSign : Text → Bool × Text
  | '+' :: t => (false, t)
  | t => sign t

def digits (t : Text) : Option (Text × Text) :=
  if t.takeWhile Char.isDigit = [] then none else some (t.takeWhile Char.isDigit, t.dropWhile Char.isDigit)

/-- Digits without a zero in front of others. -/
def whole (t : Text) : Option (Text × Text) :=
  (digits t).bind fun r => if r.1.head? = some '0' ∧ r.1 ≠ ['0'] then none else some r

def fraction : Text → Option (Option Text × Text)
  | '.' :: t => (digits t).map fun r => (some r.1, r.2)
  | t => some (none, t)

def exponent : Text → Option (Option (Bool × Text) × Text)
  | [] => some (none, [])
  | c :: t =>
    if c = 'e' ∨ c = 'E' then (digits (exponentSign t).2).map fun r => (some ((exponentSign t).1, r.1), r.2)
    else some (none, c :: t)

def literal (t : Text) : Option Literal :=
  (whole (sign t).2).bind fun w => (fraction w.2).bind fun f => (exponent f.2).bind fun e =>
    if e.2 = [] then some ⟨(sign t).1, w.1, f.1, e.1⟩ else none

def number (t : Text) : Option Number := (literal t).map Literal.value

/-! ## Printing -/

/-- The digits `ds` with the point behind the first `point` of them, as they are written. -/
def layout (negative : Bool) (ds : Text) (point : ℤ) : Literal :=
  if point ≤ -6 ∨ 21 < point then
    ⟨negative, ds.take 1, if ds.drop 1 = [] then none else some (ds.drop 1),
      some (decide (point - 1 < 0), Nat.toDigits 10 (point - 1).natAbs)⟩
  else if point ≤ 0 then ⟨negative, ['0'], some (List.replicate (-point).toNat '0' ++ ds), none⟩
  else if (ds.length : ℤ) ≤ point then
    ⟨negative, ds ++ List.replicate (point - ds.length).toNat '0', some ['0'], none⟩
  else ⟨negative, ds.take point.toNat, some (ds.drop point.toNat), none⟩

def withoutZeros (ds : Text) : Text := ds.rdropWhile fun c => decide (c = '0')

def ofDecimal (negative : Bool) (d : Decimal) : Literal :=
  layout negative (withoutZeros (Nat.toDigits 10 d.digits)) ((Nat.toDigits 10 d.digits).length + d.exponent)

/-- `toString()` of a magnitude that is not infinite. -/
def ofMagnitude (negative : Bool) (bits : ℕ) : Literal :=
  if bits = 0 then ⟨negative, ['0'], some ['0'], none⟩ else ofDecimal negative (shortest bits)

def ofInt (n : Int64) : Literal := ⟨decide (n.toInt < 0), Nat.toDigits 10 n.toInt.natAbs, none, none⟩

/-- `toString()` -/
def Double.print : Double → Text
  | .nan => "NaN".toList
  | .number negative bits _ =>
    if bits = infinite then (if negative then "-Infinity".toList else "Infinity".toList)
    else (ofMagnitude negative bits).text

/-! ## A literal is read back -/

def Digits (t : Text) : Prop := t ≠ [] ∧ ∀ c ∈ t, c.isDigit = true

structure Literal.Proper (l : Literal) : Prop where
  whole : Digits l.whole
  leading : l.whole.head? = some '0' → l.whole = ['0']
  fraction : ∀ ds, l.fraction = some ds → Digits ds
  exponent : ∀ e, l.exponent = some e → Digits e.2

def NoDigit (t : Text) : Prop := ∀ c, t.head? = some c → c.isDigit = false

theorem noDigit_cons {c : Char} (t : Text) (h : c.isDigit = false) : NoDigit (c :: t) := by
  intro d hd
  cases hd
  exact h

theorem digits_append {ds rest : Text} (h : Digits ds) (hrest : NoDigit rest) :
    digits (ds ++ rest) = some (ds, rest) := by
  have htake : rest.takeWhile Char.isDigit = [] := by
    cases rest with
    | nil => rfl
    | cons c t => simp [hrest c rfl]
  have hdrop : rest.dropWhile Char.isDigit = rest := by
    cases rest with
    | nil => rfl
    | cons c t => simp [hrest c rfl]
  rw [digits, List.takeWhile_append_of_pos h.2, htake, List.append_nil, if_neg h.1, List.dropWhile_append_of_pos h.2,
    hdrop]

theorem digits_self {ds : Text} (h : Digits ds) : digits ds = some (ds, []) := by
  have hrest : NoDigit [] := fun c hc => by cases hc
  have happend := digits_append h hrest
  rwa [List.append_nil] at happend

theorem whole_append {ds rest : Text} (h : Digits ds) (hleading : ds.head? = some '0' → ds = ['0'])
    (hrest : NoDigit rest) : whole (ds ++ rest) = some (ds, rest) := by
  rw [whole, digits_append h hrest, Option.bind_some, if_neg fun hzero => hzero.2 (hleading hzero.1)]

theorem sign_digits {ds : Text} (h : Digits ds) (rest : Text) : sign (ds ++ rest) = (false, ds ++ rest) := by
  obtain ⟨hne, hdigits⟩ := h
  cases ds with
  | nil => exact absurd rfl hne
  | cons c t =>
    have hc : c ≠ '-' := by
      rintro rfl
      exact absurd (hdigits '-' List.mem_cons_self) (by decide)
    simp only [List.cons_append]
    unfold sign
    split
    · rename_i heq
      exact absurd (List.cons.inj heq).1 hc
    · rfl

theorem fraction_append {f : Option Text} (h : ∀ ds, f = some ds → Digits ds) {rest : Text} (hrest : NoDigit rest)
    (hpoint : rest.head? ≠ some '.') : fraction (Literal.fractionText f ++ rest) = some (f, rest) := by
  cases f with
  | none =>
    show fraction rest = _
    unfold fraction
    split
    · exact absurd rfl hpoint
    · rfl
  | some ds =>
    show (digits (ds ++ rest)).map _ = _
    rw [digits_append (h ds rfl) hrest]
    rfl

theorem exponentSign_digits (negative : Bool) (ds : Text) :
    exponentSign ((if negative = true then '-' else '+') :: ds) = (negative, ds) := by
  cases negative <;> rfl

theorem exponent_text {e : Option (Bool × Text)} (h : ∀ x, e = some x → Digits x.2) :
    exponent (Literal.exponentText e) = some (e, []) := by
  cases e with
  | none => rfl
  | some x =>
    obtain ⟨negative, ds⟩ := x
    have hds : Digits ds := h _ rfl
    show exponent ('e' :: (if negative = true then '-' else '+') :: ds) = _
    rw [exponent, if_pos (.inl rfl), exponentSign_digits, digits_self hds]
    rfl

theorem noDigit_exponentText (e : Option (Bool × Text)) : NoDigit (Literal.exponentText e) := by
  cases e with
  | none =>
    intro c hc
    cases hc
  | some x => exact noDigit_cons _ (by decide)

theorem noDigit_fractionText (f : Option Text) {rest : Text} (h : NoDigit rest) :
    NoDigit (Literal.fractionText f ++ rest) := by
  cases f with
  | none => exact h
  | some ds => exact noDigit_cons _ (by decide)

theorem point_exponentText (e : Option (Bool × Text)) : (Literal.exponentText e).head? ≠ some '.' := by
  cases e with
  | none =>
    intro h
    cases h
  | some x =>
    intro h
    exact absurd (Option.some.inj h) (by decide)

theorem literal_text {l : Literal} (h : l.Proper) : literal l.text = some l := by
  obtain ⟨negative, w, f, e⟩ := l
  have hsign : sign (Literal.text ⟨negative, w, f, e⟩) =
      (negative, w ++ (Literal.fractionText f ++ Literal.exponentText e)) := by
    unfold Literal.text
    rw [List.append_assoc, List.append_assoc]
    cases negative with
    | true => rfl
    | false => exact sign_digits h.whole _
  have hexponent := noDigit_exponentText e
  rw [literal, hsign, whole_append h.whole h.leading (noDigit_fractionText f hexponent), Option.bind_some,
    fraction_append h.fraction hexponent (point_exponentText e), Option.bind_some, exponent_text h.exponent,
    Option.bind_some, if_pos rfl]

/-! ## A number is read back -/

theorem digits_toDigits (n : ℕ) : Digits (Nat.toDigits 10 n) :=
  ⟨Nat.toDigits_ne_nil, fun _ hc => Nat.isDigit_of_mem_toDigits (by omega) (by omega) hc⟩

theorem head?_toDigits {n : ℕ} (h : 0 < n) : (Nat.toDigits 10 n).head? ≠ some '0' := by
  induction n using Nat.strongRecOn with
  | ind n ih =>
    by_cases hlt : n < 10
    · rw [Nat.toDigits_of_lt_base hlt]
      interval_cases n <;> decide
    · rw [Nat.toDigits_of_base_le (by omega) (by omega), List.head?_append_of_ne_nil _ Nat.toDigits_ne_nil]
      exact ih (n / 10) (by omega) (by omega)

theorem leading_toDigits (n : ℕ) : (Nat.toDigits 10 n).head? = some '0' → Nat.toDigits 10 n = ['0'] := by
  intro h
  by_cases hn : 0 < n
  · exact absurd h (head?_toDigits hn)
  · obtain rfl : n = 0 := by omega
    rfl

theorem proper_ofInt (n : Int64) : (ofInt n).Proper where
  whole := digits_toDigits _
  leading := leading_toDigits _
  fraction _ h := by cases h
  exponent _ h := by cases h

theorem value_ofInt (n : Int64) : (ofInt n).value = .int n := by
  have hsigned : DartInt.signed (ofInt n).negative n.toInt.natAbs = n.toInt := by
    unfold ofInt DartInt.signed
    split
    · rename_i h
      have := of_decide_eq_true h
      omega
    · rename_i h
      have : ¬ n.toInt < 0 := fun hneg => h (decide_eq_true hneg)
      omega
  have hrange : -2 ^ 63 ≤ n.toInt ∧ n.toInt < 2 ^ 63 := ⟨n.le_toInt, n.toInt_lt⟩
  have hwhole : (ofInt n).whole = Nat.toDigits 10 n.toInt.natAbs := rfl
  rw [Literal.value, if_pos ⟨rfl, rfl⟩, hwhole, Nat.ofDigitChars_ten_toDigits, Literal.integer, hsigned, if_pos hrange,
    Int64.ofInt_toInt]

theorem digits_zeros_append {ds : Text} (h : Digits ds) (k : ℕ) : Digits (List.replicate k '0' ++ ds) := by
  refine ⟨fun hnil => h.1 (List.append_eq_nil_iff.1 hnil).2, fun c hc => ?_⟩
  rcases List.mem_append.1 hc with hc | hc
  · rw [List.eq_of_mem_replicate hc]
    rfl
  · exact h.2 c hc

theorem digits_append_zeros {ds : Text} (h : Digits ds) (k : ℕ) : Digits (ds ++ List.replicate k '0') := by
  refine ⟨fun hnil => h.1 (List.append_eq_nil_iff.1 hnil).1, fun c hc => ?_⟩
  rcases List.mem_append.1 hc with hc | hc
  · exact h.2 c hc
  · rw [List.eq_of_mem_replicate hc]
    rfl

theorem proper_layout {ds : Text} (h : Digits ds) (hleading : ds.head? ≠ some '0') (negative : Bool) (point : ℤ) :
    (layout negative ds point).Proper := by
  have htake : ∀ k : ℕ, 0 < k → Digits (ds.take k) ∧ (ds.take k).head? ≠ some '0' := by
    intro k hk
    refine ⟨⟨fun hnil => ?_, fun c hc => h.2 c (List.mem_of_mem_take hc)⟩, ?_⟩
    · rcases List.take_eq_nil_iff.1 hnil with hzero | hnil
      · omega
      · exact h.1 hnil
    · rwa [List.head?_take, if_neg hk.ne']
  have hdrop : ∀ k : ℕ, ds.drop k ≠ [] → Digits (ds.drop k) := fun k hne =>
    ⟨hne, fun c hc => h.2 c (List.mem_of_mem_drop hc)⟩
  unfold layout
  split
  · refine ⟨(htake 1 (by omega)).1, fun hzero => absurd hzero (htake 1 (by omega)).2, fun ds' hds' => ?_, ?_⟩
    · dsimp only at hds'
      split at hds'
      · cases hds'
      · rename_i hne
        cases hds'
        exact hdrop 1 hne
    · intro e he
      cases he
      exact digits_toDigits _
  · split
    · refine ⟨⟨List.cons_ne_nil _ _, ?_⟩, fun _ => rfl, ?_, ?_⟩
      · intro c hc
        rw [List.mem_singleton.1 hc]
        rfl
      · intro ds' hds'
        cases hds'
        exact digits_zeros_append h _
      · intro e he
        cases he
    · split
      · refine ⟨digits_append_zeros h _, fun hzero => ?_, ?_, ?_⟩
        · dsimp only at hzero
          rw [List.head?_append_of_ne_nil _ h.1] at hzero
          exact absurd hzero hleading
        · intro ds' hds'
          cases hds'
          refine ⟨List.cons_ne_nil _ _, fun c hc => ?_⟩
          rw [List.mem_singleton.1 hc]
          rfl
        · intro e he
          cases he
      · rename_i hpositive hshort
        have hpoint : 0 < point.toNat := by omega
        refine ⟨(htake _ hpoint).1, fun hzero => absurd hzero (htake _ hpoint).2, ?_, ?_⟩
        · intro ds' hds'
          cases hds'
          refine hdrop _ fun hnil => ?_
          have := List.drop_eq_nil_iff.1 hnil
          omega
        · intro e he
          cases he

theorem bits_layout {ds : Text} (hne : ds ≠ []) (negative : Bool) (point : ℤ) :
    (layout negative ds point).decimal.bits =
      Decimal.bits ⟨Nat.ofDigitChars 10 ds 0, point - ds.length⟩ := by
  have hpos : 0 < ds.length := List.length_pos_of_ne_nil hne
  unfold layout
  split
  · have hdigits : ds.take 1 ++ (if ds.drop 1 = [] then none else some (ds.drop 1)).getD [] = ds := by
      split
      · rename_i hnil
        have h := List.take_append_drop 1 ds
        rwa [hnil] at h
      · exact List.take_append_drop 1 ds
    have hlength : ((if ds.drop 1 = [] then none else some (ds.drop 1)).getD []).length = ds.length - 1 := by
      split
      · rename_i hnil
        have h := congrArg List.length hnil
        rw [List.length_drop] at h
        rw [h]
        rfl
      · exact List.length_drop
    have hexponent : DartInt.signed (decide (point - 1 < 0)) (point - 1).natAbs - ((ds.length - 1 : ℕ) : ℤ) =
        point - ds.length := by
      unfold DartInt.signed
      split
      · rename_i h
        have := of_decide_eq_true h
        omega
      · rename_i h
        have : ¬ point - 1 < 0 := fun hneg => h (decide_eq_true hneg)
        omega
    unfold Literal.decimal
    rw [hdigits, hlength, Option.elim_some, Nat.ofDigitChars_ten_toDigits, hexponent]
  · split
    · rename_i hzero
      have hdigits : Nat.ofDigitChars 10 (['0'] ++ (List.replicate (-point).toNat '0' ++ ds)) 0 =
          Nat.ofDigitChars 10 ds 0 := by
        rw [Nat.ofDigitChars_append, Nat.ofDigitChars_append, Nat.ofDigitChars_replicate_zero]
        rfl
      have hexponent : (0 : ℤ) - ((List.replicate (-point).toNat '0' ++ ds).length : ℕ) = point - ds.length := by
        rw [List.length_append, List.length_replicate]
        omega
      unfold Literal.decimal
      simp only [Option.getD_some, Option.elim_none]
      rw [hdigits, hexponent]
    · split
      · rename_i hlong
        have hdigits : Nat.ofDigitChars 10 (ds ++ List.replicate (point - ds.length).toNat '0' ++ ['0']) 0 =
            Nat.ofDigitChars 10 ds 0 * 10 ^ ((point - ds.length).toNat + 1) := by
          have hzero : (['0'] : Text) = List.replicate 1 '0' := rfl
          rw [hzero, List.append_assoc, ← List.replicate_add, Nat.ofDigitChars_append,
            Nat.ofDigitChars_replicate_zero, Nat.mul_comm]
        have hexponent : (0 : ℤ) - ((['0'] : Text).length : ℕ) =
            point - ds.length - ((point - ds.length).toNat + 1 : ℕ) := by
          show (0 : ℤ) - 1 = _
          omega
        unfold Literal.decimal
        simp only [Option.getD_some, Option.elim_none]
        rw [hdigits, hexponent, Decimal.bits_zeros]
      · rename_i hshort
        have hexponent : (0 : ℤ) - ((ds.drop point.toNat).length : ℕ) = point - ds.length := by
          rw [List.length_drop]
          omega
        unfold Literal.decimal
        simp only [Option.getD_some, Option.elim_none]
        rw [List.take_append_drop, hexponent]

theorem withoutZeros_concat (ds : Text) (c : Char) :
    withoutZeros (ds ++ [c]) = if c = '0' then withoutZeros ds else ds ++ [c] := by
  simp only [withoutZeros, List.rdropWhile_concat, decide_eq_true_eq]

theorem exists_zeros (ds : Text) : ∃ k, ds = withoutZeros ds ++ List.replicate k '0' := by
  induction ds using List.reverseRecOn with
  | nil => exact ⟨0, rfl⟩
  | append_singleton ds c ih =>
    rw [withoutZeros_concat]
    split
    · rename_i hc
      obtain ⟨k, hk⟩ := ih
      refine ⟨k + 1, ?_⟩
      rw [List.replicate_succ', ← List.append_assoc, hc, ← hk]
    · exact ⟨0, (List.append_nil _).symm⟩

theorem ofDecimal_spec {d : Decimal} (h : 0 < d.digits) (negative : Bool) :
    (ofDecimal negative d).Proper ∧ (ofDecimal negative d).decimal.bits = d.bits := by
  obtain ⟨n, e⟩ := d
  obtain ⟨k, hk⟩ := exists_zeros (Nat.toDigits 10 n)
  have hvalue : Nat.ofDigitChars 10 (withoutZeros (Nat.toDigits 10 n)) 0 * 10 ^ k = n := by
    have hn : Nat.ofDigitChars 10 (Nat.toDigits 10 n) 0 = n := Nat.ofDigitChars_ten_toDigits
    rwa [hk, Nat.ofDigitChars_append, Nat.ofDigitChars_replicate_zero, Nat.mul_comm] at hn
  have hne : withoutZeros (Nat.toDigits 10 n) ≠ [] := by
    intro hnil
    rw [hnil, Nat.ofDigitChars_nil, Nat.zero_mul] at hvalue
    exact absurd hvalue h.ne
  have hdigits : Digits (withoutZeros (Nat.toDigits 10 n)) :=
    ⟨hne, fun c hc => (digits_toDigits n).2 c ((List.rdropWhile_prefix _ _).subset hc)⟩
  have hleading : (withoutZeros (Nat.toDigits 10 n)).head? ≠ some '0' := by
    have hhead := head?_toDigits h
    rwa [hk, List.head?_append_of_ne_nil _ hne] at hhead
  have hlength : ((Nat.toDigits 10 n).length : ℤ) = (withoutZeros (Nat.toDigits 10 n)).length + k := by
    have := congrArg List.length hk
    rw [List.length_append, List.length_replicate] at this
    omega
  have hexponent : (Nat.toDigits 10 n).length + e - (withoutZeros (Nat.toDigits 10 n)).length = e + k := by omega
  refine ⟨proper_layout hdigits hleading negative _, ?_⟩
  have hzeros := Decimal.bits_zeros (Nat.ofDigitChars 10 (withoutZeros (Nat.toDigits 10 n)) 0) (e + k) k
  rw [hvalue, add_sub_cancel_right] at hzeros
  rw [ofDecimal, bits_layout hne, hexponent, hzeros]

theorem ofMagnitude_spec {bits : ℕ} (h : bits ≤ infinite) (negative : Bool) :
    (ofMagnitude negative bits).Proper ∧ (ofMagnitude negative bits).decimal.bits = bits := by
  unfold ofMagnitude
  split
  · rename_i hzero
    subst hzero
    refine ⟨⟨?_, fun _ => rfl, ?_, ?_⟩, ?_⟩
    · exact digits_toDigits 0
    · intro ds hds
      cases hds
      exact digits_toDigits 0
    · intro e he
      cases he
    · have hdecimal : Literal.decimal ⟨negative, ['0'], some ['0'], none⟩ = ⟨0, -1⟩ := rfl
      rw [hdecimal, Decimal.bits_zero]
  · rename_i hne
    have hbits := bits_shortest h
    have hspec := ofDecimal_spec (Decimal.digits_pos (hbits.trans_ne hne)) negative
    rwa [hbits] at hspec

theorem layout_float (negative : Bool) (ds : Text) (point : ℤ) : (layout negative ds point).negative = negative ∧
    ¬ ((layout negative ds point).fraction = none ∧ (layout negative ds point).exponent = none) := by
  unfold layout
  split
  · exact ⟨rfl, fun h => by cases h.2⟩
  · split
    · exact ⟨rfl, fun h => by cases h.1⟩
    · split
      · exact ⟨rfl, fun h => by cases h.1⟩
      · exact ⟨rfl, fun h => by cases h.1⟩

theorem value_ofMagnitude {bits : ℕ} (h : bits ≤ infinite) (negative : Bool) :
    (ofMagnitude negative bits).value = .double (.number negative bits h) := by
  have hbits := (ofMagnitude_spec h negative).2
  have hfloat : (ofMagnitude negative bits).negative = negative ∧
      ¬ ((ofMagnitude negative bits).fraction = none ∧ (ofMagnitude negative bits).exponent = none) := by
    unfold ofMagnitude
    split
    · exact ⟨rfl, fun h => by cases h.1⟩
    · exact layout_float _ _ _
  rw [Literal.value, if_neg hfloat.2, hfloat.1, Literal.double]
  simp only [hbits]

theorem number_print (n : Int64) : number (DartInt.print n) = some (.int n) := by
  have htext : DartInt.print n = (ofInt n).text := by
    unfold DartInt.print Literal.text
    by_cases h : n.toInt < 0
    · simp [ofInt, h, Literal.fractionText, Literal.exponentText]
    · simp [ofInt, h, Literal.fractionText, Literal.exponentText]
  rw [number, htext, literal_text (proper_ofInt n), Option.map_some, value_ofInt]

theorem number_double {d : Double} (h : d.isFinite = true) : number d.print = some (.double d) := by
  cases d with
  | nan => cases h
  | number negative bits le =>
    have hlt : bits < infinite := of_decide_eq_true h
    rw [Double.print, if_neg hlt.ne, number, literal_text (ofMagnitude_spec le negative).1, Option.map_some,
      value_ofMagnitude le]

end JsonNumbers
end SecureChat
