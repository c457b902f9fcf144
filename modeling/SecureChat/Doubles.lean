import Mathlib.Data.Nat.Log
import Mathlib.Tactic.Ring
/-!
# Doubles — numbers of 64-bit floats and their decimal texts

A magnitude is known by its bits, which count the magnitudes below it: a number below `2 ^ 52` is a subnormal one, and
from there on every `2 ^ 52` numbers double the distance to the next.  `nearest` rounds a fraction to a magnitude, of
two the even one, and `shortest` is the decimal with the fewest digits that rounds to a magnitude.  What was printed is
read back (`ofDecimal_shortest`).
-/
namespace SecureChat
namespace Doubles

/-- The least magnitude is two to the power of minus `depth`. -/
def depth : ℕ := 1074

def infinite : ℕ := 2047 * 2 ^ 52

def scaled (bits : ℕ) : ℕ := if bits < 2 ^ 52 then bits else (2 ^ 52 + bits % 2 ^ 52) * 2 ^ (bits / 2 ^ 52 - 1)

def below (units : ℕ) : ℕ := (units.log2 - 52) * 2 ^ 52 + units / 2 ^ (units.log2 - 52)

def nearest (num den : ℕ) : ℕ :=
  let bits := below (num / den)
  let middle := (scaled bits + scaled (bits + 1)) * den
  if 2 * num < middle ∨ (2 * num = middle ∧ bits % 2 = 0) then bits else bits + 1

structure Decimal where
  digits : ℕ
  exponent : ℤ

namespace Decimal

def bits (d : Decimal) : ℕ :=
  min infinite (nearest (d.digits * 10 ^ d.exponent.toNat * 2 ^ depth) (10 ^ (-d.exponent).toNat))

/-- The last `c` digits rounded away, half to the even digit. -/
def rounded (d : Decimal) (c : ℕ) : Decimal where
  digits :=
    if 2 * (d.digits % 10 ^ c) < 10 ^ c ∨ (2 * (d.digits % 10 ^ c) = 10 ^ c ∧ d.digits / 10 ^ c % 2 = 0) then
      d.digits / 10 ^ c
    else d.digits / 10 ^ c + 1
  exponent := d.exponent + c

end Decimal

def exact (bits : ℕ) : Decimal := ⟨scaled bits * 5 ^ depth, -depth⟩

def dropped (bits : ℕ) : Option ℕ :=
  (List.range (Nat.toDigits 10 (exact bits).digits).length).reverse.find? fun c =>
    decide (((exact bits).rounded c).bits = bits)

def shortest (bits : ℕ) : Decimal := (exact bits).rounded ((dropped bits).getD 0)

/-! ## Magnitudes -/

theorem scaled_of_lt {n : ℕ} (h : n < 2 ^ 52) : scaled n = n := if_pos h

/-- A number of units with its leading bit in place: `m` units of `2 ^ e`. -/
theorem scaled_add {e m : ℕ} (hlow : 2 ^ 52 ≤ m) (hhigh : m < 2 ^ 53) : scaled (e * 2 ^ 52 + m) = m * 2 ^ e := by
  have hdiv : (e * 2 ^ 52 + m) / 2 ^ 52 - 1 = e := by omega
  have hmod : 2 ^ 52 + (e * 2 ^ 52 + m) % 2 ^ 52 = m := by omega
  rw [scaled, if_neg (by omega), hdiv, hmod]

/-- Bits from `2 ^ 52` on are an exponent and a significand with its leading bit. -/
theorem exists_significand {n : ℕ} (h : 2 ^ 52 ≤ n) : ∃ e m, 2 ^ 52 ≤ m ∧ m < 2 ^ 53 ∧ n = e * 2 ^ 52 + m :=
  ⟨n / 2 ^ 52 - 1, 2 ^ 52 + n % 2 ^ 52, by omega, by omega, by omega⟩

theorem log2_significand {e m : ℕ} (hlow : 2 ^ 52 ≤ m) (hhigh : m < 2 ^ 53) : (m * 2 ^ e).log2 = 52 + e := by
  have hpos : 0 < 2 ^ e := Nat.two_pow_pos e
  have hne : m * 2 ^ e ≠ 0 := Nat.mul_ne_zero (by omega) hpos.ne'
  refine (Nat.log2_eq_iff hne).2 ⟨?_, ?_⟩
  · rw [Nat.pow_add]
    exact Nat.mul_le_mul_right _ hlow
  · rw [Nat.add_right_comm, Nat.pow_add]
    exact Nat.mul_lt_mul_of_pos_right hhigh hpos

theorem below_scaled (n : ℕ) : below (scaled n) = n := by
  by_cases h : n < 2 ^ 52
  · have hlog : n.log2 - 52 = 0 := by
      by_cases hzero : n = 0
      · rw [hzero]
        rfl
      · have := (Nat.log2_lt hzero).2 h
        omega
    rw [scaled_of_lt h, below, hlog]
    omega
  · obtain ⟨e, m, hlow, hhigh, rfl⟩ := exists_significand (Nat.not_lt.1 h)
    rw [scaled_add hlow hhigh, below, log2_significand hlow hhigh, Nat.add_sub_cancel_left,
      Nat.mul_div_cancel _ (Nat.two_pow_pos e)]

theorem scaled_lt_succ (n : ℕ) : scaled n < scaled (n + 1) := by
  by_cases h : n < 2 ^ 52
  · by_cases hnext : n + 1 < 2 ^ 52
    · rw [scaled_of_lt h, scaled_of_lt hnext]
      omega
    · have hn : n + 1 = 0 * 2 ^ 52 + 2 ^ 52 := by omega
      rw [hn, scaled_add (by omega) (by omega), scaled_of_lt h]
      omega
  · obtain ⟨e, m, hlow, hhigh, rfl⟩ := exists_significand (Nat.not_lt.1 h)
    have hpos : 0 < 2 ^ e := Nat.two_pow_pos e
    by_cases hnext : m + 1 < 2 ^ 53
    · rw [Nat.add_assoc, scaled_add hlow hhigh, scaled_add (by omega) hnext]
      exact Nat.mul_lt_mul_of_pos_right (Nat.lt_succ_self m) hpos
    · -- the significand is full, and the exponent counts one up
      have hn : e * 2 ^ 52 + m + 1 = (e + 1) * 2 ^ 52 + 2 ^ 52 := by omega
      have hfull : 2 ^ 52 * 2 ^ (e + 1) = 2 ^ 53 * 2 ^ e := by rw [Nat.pow_succ]; omega
      rw [hn, scaled_add hlow hhigh, scaled_add (by omega) (by omega), hfull]
      exact Nat.mul_lt_mul_of_pos_right hhigh hpos

/-! ## Rounding -/

theorem nearest_scaled (n : ℕ) {den : ℕ} (h : 0 < den) : nearest (scaled n * den) den = n := by
  have hbits : below (scaled n * den / den) = n := by rw [Nat.mul_div_cancel _ h, below_scaled]
  have hmiddle : 2 * (scaled n * den) < (scaled n + scaled (n + 1)) * den := by
    rw [← Nat.mul_assoc]
    refine Nat.mul_lt_mul_of_pos_right ?_ h
    have := scaled_lt_succ n
    omega
  simp only [nearest]
  rw [hbits, if_pos (.inl hmiddle)]

theorem nearest_mul (num : ℕ) {den k : ℕ} (h : 0 < k) : nearest (num * k) (den * k) = nearest num den := by
  have hlt : ∀ m : ℕ, 2 * (num * k) < m * (den * k) ↔ 2 * num < m * den := fun m => by
    rw [← Nat.mul_assoc, ← Nat.mul_assoc]
    exact Nat.mul_lt_mul_right h
  have heq : ∀ m : ℕ, 2 * (num * k) = m * (den * k) ↔ 2 * num = m * den := fun m => by
    rw [← Nat.mul_assoc, ← Nat.mul_assoc]
    exact Nat.mul_left_inj h.ne'
  simp only [nearest, Nat.mul_div_mul_right _ _ h, hlt, heq]

theorem nearest_congr {num den num' den' : ℕ} (hden : 0 < den) (hden' : 0 < den') (h : num * den' = num' * den) :
    nearest num den = nearest num' den' := by
  rw [← nearest_mul num hden', h, Nat.mul_comm den, nearest_mul num' hden]

namespace Decimal

theorem bits_zeros (n : ℕ) (e : ℤ) (j : ℕ) : bits ⟨n * 10 ^ j, e - j⟩ = bits ⟨n, e⟩ := by
  have hexponent : j + (e - j).toNat + (-e).toNat = e.toNat + (-(e - j)).toNat := by omega
  have hcross : n * 10 ^ j * 10 ^ (e - j).toNat * 2 ^ depth * 10 ^ (-e).toNat =
      n * 10 ^ e.toNat * 2 ^ depth * 10 ^ (-(e - j)).toNat := by
    calc n * 10 ^ j * 10 ^ (e - j).toNat * 2 ^ depth * 10 ^ (-e).toNat
        = n * 10 ^ (j + (e - j).toNat + (-e).toNat) * 2 ^ depth := by rw [pow_add, pow_add]; ring
      _ = n * 10 ^ (e.toNat + (-(e - j)).toNat) * 2 ^ depth := by rw [hexponent]
      _ = n * 10 ^ e.toNat * 2 ^ depth * 10 ^ (-(e - j)).toNat := by rw [pow_add]; ring
  simp only [bits]
  rw [nearest_congr (Nat.pow_pos (by omega)) (Nat.pow_pos (by omega)) hcross]

theorem rounded_zero (d : Decimal) : d.rounded 0 = d := by
  obtain ⟨n, e⟩ := d
  simp [rounded, Nat.mod_one]

theorem bits_zero (e : ℤ) : bits ⟨0, e⟩ = 0 := by
  have hnearest := nearest_scaled 0 (Nat.pow_pos (by omega) : 0 < 10 ^ (-e).toNat)
  rw [scaled_of_lt (by omega), Nat.zero_mul] at hnearest
  simp only [bits]
  rw [Nat.zero_mul, Nat.zero_mul, hnearest, Nat.min_zero]

theorem digits_pos {d : Decimal} (h : d.bits ≠ 0) : 0 < d.digits := by
  obtain ⟨n, e⟩ := d
  refine Nat.pos_of_ne_zero fun hzero => h ?_
  obtain rfl : n = 0 := hzero
  exact bits_zero e

end Decimal

theorem bits_exact {n : ℕ} (h : n ≤ infinite) : (exact n).bits = n := by
  simp only [exact, Decimal.bits]
  generalize depth = places
  have htens : 10 ^ places = 5 ^ places * 2 ^ places := Nat.mul_pow 5 2 places
  have hnum : scaled n * 5 ^ places * 10 ^ (-(places : ℤ)).toNat * 2 ^ places = scaled n * 10 ^ places := by
    have hzero : (-(places : ℤ)).toNat = 0 := by omega
    rw [hzero, Nat.pow_zero, Nat.mul_one, Nat.mul_assoc, htens]
  have hden : (-(-(places : ℤ))).toNat = places := by omega
  rw [hnum, hden, nearest_scaled n (Nat.pow_pos (by omega)), Nat.min_eq_right h]

theorem bits_shortest {n : ℕ} (h : n ≤ infinite) : (shortest n).bits = n := by
  unfold shortest
  cases hdropped : dropped n with
  | none => rw [Option.getD_none, Decimal.rounded_zero, bits_exact h]
  | some c =>
    unfold dropped at hdropped
    have hc := List.find?_some hdropped
    exact of_decide_eq_true hc

end Doubles
end SecureChat
