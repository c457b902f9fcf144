import Mathlib.Data.List.Basic
import Mathlib.Data.List.TakeWhile
/-!
# Base64Url — bytes as text

Three bytes make four characters of the alphabet, and `=` fills up the end.  The alphabet is made of letters, digits,
`-` and `_`.  A decoder reads back what was encoded, with or without its padding (`decode_encode`).
-/
namespace SecureChat
namespace Base64Url

def alphabet : List Char := "ABCDEFGHIJKLMNOPQRSTUVWXYZabcdefghijklmnopqrstuvwxyz0123456789-_".toList

def character (n : ℕ) : Char := alphabet.getD n 'A'

def sextets : List UInt8 → List ℕ
  | [] => []
  | [a] => [a.toNat / 4, a.toNat % 4 * 16]
  | [a, b] => [a.toNat / 4, a.toNat % 4 * 16 + b.toNat / 16, b.toNat % 16 * 4]
  | a :: b :: c :: l =>
    a.toNat / 4 :: (a.toNat % 4 * 16 + b.toNat / 16) :: (b.toNat % 16 * 4 + c.toNat / 64) :: c.toNat % 64 :: sextets l

def encode (bytes : List UInt8) : List Char :=
  (sextets bytes).map character ++ List.replicate ((3 - bytes.length % 3) % 3) '='

def withoutPadding (text : List Char) : List Char := text.filter fun c => decide (c ≠ '=')

def utf8 (text : String) : List UInt8 := text.toList.flatMap String.utf8EncodeChar

def ofSextets (strict : Bool) : List ℕ → Option (List UInt8)
  | [] => some []
  | [_] => none
  | [a, b] => if strict = true ∧ b % 16 ≠ 0 then none else some [UInt8.ofNat (a * 4 + b / 16)]
  | [a, b, c] =>
    if strict = true ∧ c % 4 ≠ 0 then none
    else some [UInt8.ofNat (a * 4 + b / 16), UInt8.ofNat (b % 16 * 16 + c / 4)]
  | a :: b :: c :: d :: l =>
    (ofSextets strict l).map fun bytes =>
      UInt8.ofNat (a * 4 + b / 16) :: UInt8.ofNat (b % 16 * 16 + c / 4) :: UInt8.ofNat (c % 4 * 64 + d) :: bytes

/-- A decoder that reads characters by `digit`; padding may be left out but not be wrong. -/
def decode (digit : Char → Option ℕ) (strict : Bool) (text : List Char) : Option (List UInt8) :=
  let body := text.takeWhile fun c => decide (c ≠ '=')
  let padding := text.drop body.length
  if padding = [] ∨ (padding = List.replicate padding.length '=' ∧ padding.length ≤ 2 ∧
      body.length % 4 + padding.length = 4) then
    (body.mapM digit).bind (ofSextets strict)
  else none

def digit (c : Char) : Option ℕ := alphabet.idxOf? c

theorem character_mem (n : ℕ) : character n ∈ alphabet := by
  rw [character, List.getD_eq_getElem?_getD]
  cases hn : alphabet[n]? with
  | none => decide +kernel
  | some c => exact List.mem_of_getElem? hn

theorem character_ne_padding (n : ℕ) : character n ≠ '=' :=
  fun h => absurd (h ▸ character_mem n : '=' ∈ alphabet) (by decide +kernel)

theorem withoutPadding_encode (bytes : List UInt8) : withoutPadding (encode bytes) = (sextets bytes).map character := by
  rw [withoutPadding, encode, List.filter_append, List.filter_replicate_of_neg (by decide), List.append_nil]
  refine List.filter_eq_self.2 fun c hc => decide_eq_true ?_
  obtain ⟨n, -, rfl⟩ := List.mem_map.1 hc
  exact character_ne_padding n

theorem sextets_lt : ∀ {bytes : List UInt8} {n : ℕ}, n ∈ sextets bytes → n < 64
  | [a], n, h => by
    have ha := a.toNat_lt
    simp only [sextets, List.mem_cons, List.not_mem_nil, or_false] at h
    omega
  | [a, b], n, h => by
    have ha := a.toNat_lt
    have hb := b.toNat_lt
    simp only [sextets, List.mem_cons, List.not_mem_nil, or_false] at h
    omega
  | a :: b :: c :: l, n, h => by
    have ha := a.toNat_lt
    have hb := b.toNat_lt
    have hc := c.toNat_lt
    simp only [sextets, List.mem_cons] at h
    rcases h with rfl | rfl | rfl | rfl | h
    · omega
    · omega
    · omega
    · omega
    · exact sextets_lt h

theorem ofSextets_sextets (strict : Bool) : ∀ bytes : List UInt8, ofSextets strict (sextets bytes) = some bytes
  | [] => rfl
  | [a] => by
    have ha := a.toNat_lt
    have hbits : ¬ (strict = true ∧ a.toNat % 4 * 16 % 16 ≠ 0) := by omega
    have hbyte : a.toNat / 4 * 4 + a.toNat % 4 * 16 / 16 = a.toNat := by omega
    rw [sextets, ofSextets, if_neg hbits, hbyte, UInt8.ofNat_toNat]
  | [a, b] => by
    have ha := a.toNat_lt
    have hb := b.toNat_lt
    have hbits : ¬ (strict = true ∧ b.toNat % 16 * 4 % 4 ≠ 0) := by omega
    have hfirst : a.toNat / 4 * 4 + (a.toNat % 4 * 16 + b.toNat / 16) / 16 = a.toNat := by omega
    have hsecond : (a.toNat % 4 * 16 + b.toNat / 16) % 16 * 16 + b.toNat % 16 * 4 / 4 = b.toNat := by omega
    rw [sextets, ofSextets, if_neg hbits, hfirst, hsecond, UInt8.ofNat_toNat, UInt8.ofNat_toNat]
  | a :: b :: c :: l => by
    have ha := a.toNat_lt
    have hb := b.toNat_lt
    have hc := c.toNat_lt
    have hfirst : a.toNat / 4 * 4 + (a.toNat % 4 * 16 + b.toNat / 16) / 16 = a.toNat := by omega
    have hsecond : (a.toNat % 4 * 16 + b.toNat / 16) % 16 * 16 + (b.toNat % 16 * 4 + c.toNat / 64) / 4 = b.toNat := by
      omega
    have hthird : (b.toNat % 16 * 4 + c.toNat / 64) % 4 * 64 + c.toNat % 64 = c.toNat := by omega
    rw [sextets, ofSextets, ofSextets_sextets strict l, Option.map_some, hfirst, hsecond, hthird, UInt8.ofNat_toNat,
      UInt8.ofNat_toNat, UInt8.ofNat_toNat]

theorem digit_character : ∀ {n : ℕ}, n < 64 → digit (character n) = some n := by decide +kernel

theorem mapM_digit {f : Char → Option ℕ} (hf : ∀ n < 64, f (character n) = some n) : ∀ {l : List ℕ}, (∀ n ∈ l, n < 64) →
    (l.map character).mapM f = some l
  | [], _ => rfl
  | n :: l, h => by
    rw [List.map_cons, List.mapM_cons, hf n (h n List.mem_cons_self),
      mapM_digit hf fun k hk => h k (List.mem_cons_of_mem _ hk)]
    rfl

theorem decode_encode {f : Char → Option ℕ} (hf : ∀ n < 64, f (character n) = some n) (strict : Bool)
    (bytes : List UInt8) : decode f strict (withoutPadding (encode bytes)) = some bytes := by
  have hbody : (withoutPadding (encode bytes)).takeWhile (fun c => decide (c ≠ '=')) = withoutPadding (encode bytes) :=
    List.takeWhile_eq_self_iff.2 fun c hc => (List.mem_filter.1 hc).2
  have hsextets : (withoutPadding (encode bytes)).mapM f = some (sextets bytes) := by
    rw [withoutPadding_encode]
    exact mapM_digit hf fun n hn => sextets_lt hn
  simp only [decode]
  rw [hbody, if_pos (.inl List.drop_length), hsextets, Option.bind_some, ofSextets_sextets]

theorem length_sextets : ∀ bytes : List UInt8,
    (sextets bytes).length % 4 = if bytes.length % 3 = 0 then 0 else bytes.length % 3 + 1
  | [] => rfl
  | [a] => rfl
  | [a, b] => rfl
  | a :: b :: c :: l => by
    have ih := length_sextets l
    have hsextets : (sextets (a :: b :: c :: l)).length % 4 = (sextets l).length % 4 := by
      simp only [sextets, List.length_cons]
      omega
    have hbytes : (a :: b :: c :: l).length % 3 = l.length % 3 := by
      simp only [List.length_cons]
      omega
    rw [hsextets, hbytes, ih]

theorem length_encode (bytes : List UInt8) : (encode bytes).length = (bytes.length + 2) / 3 * 4 := by
  have hcount : (sextets bytes).length + (3 - bytes.length % 3) % 3 = (bytes.length + 2) / 3 * 4 := by
    induction bytes using sextets.induct with
    | case1 => rfl
    | case2 a => simp [sextets]
    | case3 a b => simp [sextets]
    | case4 a b c l ih =>
      simp only [sextets, List.length_cons]
      omega
  rw [encode, List.length_append, List.length_map, List.length_replicate, hcount]

theorem length_encode_mod (bytes : List UInt8) : (encode bytes).length % 4 = 0 := by
  rw [length_encode, Nat.mul_mod_left]

theorem decode_encode_padded {f : Char → Option ℕ} (hf : ∀ n < 64, f (character n) = some n) (strict : Bool)
    (bytes : List UInt8) : decode f strict (encode bytes) = some bytes := by
  have hne : ∀ c ∈ (sextets bytes).map character, decide (c ≠ '=') = true := by
    intro c hc
    obtain ⟨n, -, rfl⟩ := List.mem_map.1 hc
    exact decide_eq_true (character_ne_padding n)
  have hpadded : (List.replicate ((3 - bytes.length % 3) % 3) '=').takeWhile (fun c => decide (c ≠ '=')) = [] := by
    cases (3 - bytes.length % 3) % 3 with
    | zero => rfl
    | succ n => rfl
  have hbody : (encode bytes).takeWhile (fun c => decide (c ≠ '=')) = (sextets bytes).map character := by
    rw [encode, List.takeWhile_append_of_pos hne, hpadded, List.append_nil]
  have hpadding : (encode bytes).drop ((sextets bytes).map character).length =
      List.replicate ((3 - bytes.length % 3) % 3) '=' := by rw [encode, List.drop_left]
  have hshape : List.replicate ((3 - bytes.length % 3) % 3) '=' = [] ∨
      (List.replicate ((3 - bytes.length % 3) % 3) '=' =
        List.replicate (List.replicate ((3 - bytes.length % 3) % 3) '=').length '=' ∧
        (List.replicate ((3 - bytes.length % 3) % 3) '=').length ≤ 2 ∧
        ((sextets bytes).map character).length % 4 + (List.replicate ((3 - bytes.length % 3) % 3) '=').length = 4) := by
    have hlength := length_sextets bytes
    simp only [List.replicate_eq_nil_iff, List.length_replicate, List.length_map, true_and]
    split at hlength
    · left
      omega
    · right
      omega
  simp only [decode]
  rw [hbody, hpadding, if_pos hshape, mapM_digit hf fun n hn => sextets_lt hn, Option.bind_some, ofSextets_sextets]

end Base64Url
end SecureChat
