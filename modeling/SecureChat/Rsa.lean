import Mathlib.Data.Nat.ChineseRemainder
import Mathlib.FieldTheory.Finite.Basic
/-!
# Rsa — raising to a power and back

A key has two primes and an exponent that undoes the public one in the group of each.  So raising to the public and then
to the private exponent is the identity modulo the product of the primes (`Key.pow_pow`).
-/
namespace SecureChat
namespace Rsa

/-- `base ^ exponent % modulus` by squaring; `fuel` bounds the bits of the exponent. -/
def powMod (modulus : ℕ) : ℕ → ℕ → ℕ → ℕ
  | 0, _, _ => 1 % modulus
  | fuel + 1, base, exponent =>
    let squares := powMod modulus fuel (base * base % modulus) (exponent / 2)
    if exponent % 2 = 1 then base * squares % modulus else squares

def modPow (base exponent modulus : ℕ) : ℕ := powMod modulus (Nat.log2 exponent + 1) base exponent

theorem powMod_eq (modulus : ℕ) : ∀ {fuel base exponent : ℕ}, exponent < 2 ^ fuel →
    powMod modulus fuel base exponent = base ^ exponent % modulus
  | 0, base, exponent, h => by
    obtain rfl : exponent = 0 := Nat.lt_one_iff.1 h
    rfl
  | fuel + 1, base, exponent, h => by
    have hhalf : exponent / 2 < 2 ^ fuel := by
      rw [Nat.pow_succ] at h
      omega
    have hsquares : powMod modulus fuel (base * base % modulus) (exponent / 2) =
        base ^ (2 * (exponent / 2)) % modulus := by
      rw [powMod_eq modulus hhalf, ← Nat.pow_mod, Nat.pow_mul, Nat.pow_two]
    simp only [powMod, hsquares]
    split
    · rename_i hodd
      rw [Nat.mul_mod_mod, ← Nat.pow_succ', show (2 * (exponent / 2)).succ = exponent by omega]
    · rename_i heven
      rw [show 2 * (exponent / 2) = exponent by omega]

theorem modPow_eq (base exponent modulus : ℕ) : modPow base exponent modulus = base ^ exponent % modulus :=
  powMod_eq modulus (Nat.lt_log2_self)

structure Key where
  p : ℕ
  q : ℕ
  exponent : ℕ
  inverse : ℕ
  prime_p : p.Prime
  prime_q : q.Prime
  distinct : p ≠ q
  inverse_p : exponent * inverse ≡ 1 [MOD p - 1]
  inverse_q : exponent * inverse ≡ 1 [MOD q - 1]
  positive : 0 < exponent * inverse

/-- Raising to an exponent that is one modulo `p - 1`. -/
theorem pow_modEq_self {p k : ℕ} (hp : p.Prime) (hk : k ≡ 1 [MOD p - 1]) (hpos : 0 < k) (x : ℕ) :
    x ^ k ≡ x [MOD p] := by
  obtain ⟨m, rfl⟩ : ∃ m, k = 1 + (p - 1) * m := by
    obtain ⟨m, hm⟩ := (Nat.modEq_iff_dvd' hpos).1 hk.symm
    exact ⟨m, by omega⟩
  by_cases hx : p ∣ x
  · have hzero : x ≡ 0 [MOD p] := (Nat.modEq_zero_iff_dvd).2 hx
    calc x ^ (1 + (p - 1) * m)
        = x * x ^ ((p - 1) * m) := by rw [Nat.pow_add, Nat.pow_one]
      _ ≡ 0 * x ^ ((p - 1) * m) [MOD p] := hzero.mul_right _
      _ = 0 := Nat.zero_mul _
      _ ≡ x [MOD p] := hzero.symm
  · have hfermat : x ^ (p - 1) ≡ 1 [MOD p] := by
      have hcop : Nat.Coprime x p := ((Nat.Prime.coprime_iff_not_dvd hp).2 hx).symm
      have htotient := Nat.ModEq.pow_totient hcop
      rwa [Nat.totient_prime hp] at htotient
    calc x ^ (1 + (p - 1) * m)
        = x * (x ^ (p - 1)) ^ m := by rw [Nat.pow_add, Nat.pow_one, Nat.pow_mul]
      _ ≡ x * 1 ^ m [MOD p] := (hfermat.pow m).mul_left x
      _ = x := by rw [Nat.one_pow, Nat.mul_one]

namespace Key

def modulus (k : Key) : ℕ := k.p * k.q

theorem coprime_primes (k : Key) : Nat.Coprime k.p k.q := (Nat.coprime_primes k.prime_p k.prime_q).2 k.distinct

theorem pow_pow (k : Key) (x : ℕ) : x ^ (k.exponent * k.inverse) ≡ x [MOD k.modulus] :=
  (Nat.modEq_and_modEq_iff_modEq_mul k.coprime_primes).1
    ⟨pow_modEq_self k.prime_p k.inverse_p k.positive x, pow_modEq_self k.prime_q k.inverse_q k.positive x⟩

end Key

end Rsa
end SecureChat
