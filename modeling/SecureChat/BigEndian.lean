import Mathlib
/-!
# BigEndian — natural numbers as bytes, the high byte first

`bytes n x` are the low `n` bytes of `x` and `value` reads bytes back.  A number that fits is what its bytes say
(`value_bytes`), and more room puts zeros in front (`bytes_add`).
-/
namespace SecureChat
namespace BigEndian

def bytes : ℕ → ℕ → List UInt8
  | 0, _ => []
  | n + 1, x => bytes n (x / 256) ++ [UInt8.ofNat x]

def value (l : List UInt8) : ℕ := l.foldl (fun v b => v * 256 + b.toNat) 0

theorem length_bytes : ∀ n x : ℕ, (bytes n x).length = n
  | 0, _ => rfl
  | n + 1, x => by rw [bytes, List.length_append, length_bytes n, List.length_singleton]

theorem value_append_singleton (l : List UInt8) (b : UInt8) : value (l ++ [b]) = value l * 256 + b.toNat := by
  rw [value, List.foldl_append]
  rfl

theorem value_bytes_mod : ∀ n x : ℕ, value (bytes n x) = x % 256 ^ n
  | 0, x => (Nat.mod_one x).symm
  | n + 1, x => by
    have hbyte : (UInt8.ofNat x).toNat = x % 256 := UInt8.toNat_ofNat'
    rw [bytes, value_append_singleton, value_bytes_mod n, hbyte, Nat.pow_succ', Nat.mod_mul]
    omega

theorem value_bytes {n x : ℕ} (h : x < 256 ^ n) : value (bytes n x) = x := by
  rw [value_bytes_mod, Nat.mod_eq_of_lt h]

theorem bytes_add {x : ℕ} (k : ℕ) : ∀ {n : ℕ}, x < 256 ^ n → bytes (k + n) x = List.replicate k 0 ++ bytes n x := by
  intro n
  induction n generalizing x with
  | zero =>
    intro h
    obtain rfl : x = 0 := Nat.lt_one_iff.1 h
    have hzero : ∀ k, bytes k 0 = List.replicate k 0 := by
      intro k
      induction k with
      | zero => rfl
      | succ k ih =>
        rw [bytes, Nat.zero_div, ih, List.replicate_succ']
        rfl
    rw [Nat.add_zero, hzero, bytes, List.append_nil]
  | succ n ih =>
    intro h
    have hdiv : x / 256 < 256 ^ n := by
      rw [Nat.div_lt_iff_lt_mul (by omega), ← Nat.pow_succ]
      exact h
    rw [← Nat.add_assoc, bytes, bytes, ih hdiv, List.append_assoc]

theorem bytes_succ_cons (n x : ℕ) (h : x < 256 ^ (n + 1)) : ∃ b, bytes (n + 1) x = b :: bytes n x ∧
    (b = 0 ↔ x < 256 ^ n) := by
  induction n generalizing x with
  | zero =>
    refine ⟨UInt8.ofNat x, rfl, ?_⟩
    have hx : x < 256 := h
    rw [← UInt8.toNat_inj, UInt8.toNat_ofNat', Nat.mod_eq_of_lt hx]
    simp
  | succ n ih =>
    have hdiv : x / 256 < 256 ^ (n + 1) := by
      rw [Nat.div_lt_iff_lt_mul (by omega), ← Nat.pow_succ]
      exact h
    obtain ⟨b, hb, hzero⟩ := ih (x / 256) hdiv
    refine ⟨b, ?_, ?_⟩
    · rw [bytes, hb, List.cons_append]
      rfl
    · rw [hzero, Nat.div_lt_iff_lt_mul (by omega), ← Nat.pow_succ]

end BigEndian
end SecureChat
