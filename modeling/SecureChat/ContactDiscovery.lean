import SecureChat.PrivateDirectoryOprf
/-!
# ContactDiscovery — both sides derive the same token

The conversions of both sides are the same big-endian numbers, so both map a phone hash to the same point
(`fullDomainPoint_eq`).  The blinding goes in as `r ^ e` and comes out of the private operation as `r`, so what the
client unblinds is the point raised to the private exponent, which is what the server derives its token from
(`discovery_agrees`).
-/
namespace SecureChat
namespace Directory

theorem lt_two_pow_bitLength (n : ℕ) : n < 2 ^ bitLength n := by
  unfold bitLength
  split
  · subst n
    exact Nat.one_pos
  · exact Nat.lt_log2_self

theorem bitLength_le {n m : ℕ} (h : n < 2 ^ m) : bitLength n ≤ m := by
  unfold bitLength
  split
  · exact Nat.zero_le m
  · exact Nat.succ_le_of_lt ((Nat.log2_lt ‹_›).2 h)

theorem pow_256 (n : ℕ) : 256 ^ n = 2 ^ (8 * n) := by
  rw [Nat.pow_mul]

theorem lt_width {x modulus : ℕ} (h : x < modulus) : x < 256 ^ PrivateDirectoryOprf.width modulus := by
  have hbits : bitLength modulus ≤ 8 * PrivateDirectoryOprf.width modulus := by
    rw [PrivateDirectoryOprf.width]
    omega
  rw [pow_256]
  exact h.trans ((lt_two_pow_bitLength modulus).trans_le (Nat.pow_le_pow_right (by decide) hbits))

theorem bytesToBigInt_eq (bytes : List UInt8) : DirectoryOprfMath.bytesToBigInt bytes = BigEndian.value bytes := by
  have hstep : (fun (value : ℕ) (byte : UInt8) => (value <<< 8) ||| byte.toNat) = fun v b => v * 256 + b.toNat := by
    funext v b
    rw [← Nat.shiftLeft_add_eq_or_of_lt b.toNat_lt, Nat.shiftLeft_eq]
  rw [DirectoryOprfMath.bytesToBigInt, hstep, BigEndian.value]

theorem fillBytes_eq : ∀ (n remaining : ℕ) (output : List UInt8), DirectoryOprfMath.fillBytes n remaining output =
    (BigEndian.bytes n remaining ++ output, remaining / 256 ^ n)
  | 0, remaining, output => by rw [DirectoryOprfMath.fillBytes, Nat.pow_zero, Nat.div_one]; rfl
  | n + 1, remaining, output => by
    have hshift : remaining >>> 8 = remaining / 256 := Nat.shiftRight_eq_div_pow _ _
    have hlow : UInt8.ofNat (remaining &&& 255) = UInt8.ofNat remaining := by
      rw [← UInt8.toNat_inj, UInt8.toNat_ofNat', UInt8.toNat_ofNat',
        Nat.and_two_pow_sub_one_eq_mod remaining 8, Nat.mod_mod]
    rw [DirectoryOprfMath.fillBytes, fillBytes_eq n, hshift, hlow, BigEndian.bytes, List.append_assoc,
      Nat.div_div_eq_div_mul, ← Nat.pow_succ']
    rfl

theorem bigIntToBytes_eq {value width : ℕ} (h : value < 256 ^ width) :
    DirectoryOprfMath.bigIntToBytes value width = some (BigEndian.bytes width value) := by
  simp only [DirectoryOprfMath.bigIntToBytes, fillBytes_eq, Nat.div_eq_of_lt h, List.append_nil]
  rfl

theorem unsignedBytes_eq {value size : ℕ} (h : value < 256 ^ size) (hsize : 0 < size) :
    PrivateDirectoryOprf.unsignedBytes value size = some (BigEndian.bytes size value) := by
  have hfits : value < 256 ^ (bitLength value / 8 + 1) := by
    rw [pow_256]
    exact (lt_two_pow_bitLength value).trans_le (Nat.pow_le_pow_right (by decide) (by omega))
  have hbits : bitLength value ≤ 8 * size := bitLength_le (pow_256 size ▸ h)
  generalize hk : bitLength value / 8 = k at hfits
  obtain ⟨b, hcons, hzero⟩ := BigEndian.bytes_succ_cons k value hfits
  -- what is left after the sign byte is taken off
  have hpad : ∀ n, n ≤ size → value < 256 ^ n →
      some (List.replicate (size - (BigEndian.bytes n value).length) 0 ++ BigEndian.bytes n value) =
        some (BigEndian.bytes size value) := by
    intro n hn hlt
    have hadd := BigEndian.bytes_add (size - n) hlt
    rw [Nat.sub_add_cancel hn] at hadd
    rw [BigEndian.length_bytes, hadd]
  simp only [PrivateDirectoryOprf.unsignedBytes, PrivateDirectoryOprf.toByteArray, hk, BigEndian.length_bytes]
  by_cases hsign : 1 < k + 1 ∧ (BigEndian.bytes (k + 1) value).head? = some 0
  · have hb : b = 0 := by
      have hhead := hsign.2
      rw [hcons] at hhead
      exact Option.some.inj hhead
    rw [if_pos hsign, hcons, List.drop_succ_cons, List.drop_zero, BigEndian.length_bytes, if_pos (by omega)]
    have := hpad k (by omega) (hzero.1 hb)
    rwa [BigEndian.length_bytes] at this
  · have hroom : k + 1 ≤ size := by
      by_contra hlt
      have hpow : 256 ^ size ≤ 256 ^ k := Nat.pow_le_pow_right (by decide) (by omega)
      refine hsign ⟨by omega, ?_⟩
      rw [hcons, hzero.2 (h.trans_le hpow)]
      rfl
    rw [if_neg hsign, BigEndian.length_bytes, if_pos hroom]
    have := hpad (k + 1) hroom hfits
    rwa [BigEndian.length_bytes] at this

theorem isLowerHex_toLower (c : Char) : isLowerHex c.toLower = (isLowerHex c || decide (c ∈ "ABCDEF".toList)) := by
  by_cases hc : 'A'.val ≤ c.val ∧ c.val ≤ 'Z'.val
  · have hl : 65 ≤ c.toNat := UInt32.le_iff_toNat_le.1 hc.1
    have hn : c.toNat ≤ 90 := UInt32.le_iff_toNat_le.1 hc.2
    have hall : ∀ n < 26, isLowerHex (Char.ofNat (65 + n)).toLower =
        (isLowerHex (Char.ofNat (65 + n)) || decide (Char.ofNat (65 + n) ∈ "ABCDEF".toList)) := by decide +kernel
    have h := hall (c.toNat - 65) (by omega)
    rwa [Nat.add_sub_cancel' hl, Char.ofNat_toNat] at h
  · have hlower : c.toLower = c := dif_neg hc
    have hnot : ¬ c ∈ "ABCDEF".toList := by
      intro hmem
      have hall : "ABCDEF".toList.all (fun d => decide ('A'.val ≤ d.val ∧ d.val ≤ 'Z'.val)) = true := by decide
      exact hc (of_decide_eq_true (List.all_eq_true.1 hall c hmem))
    rw [hlower, decide_eq_false hnot, Bool.or_false]

theorem normalize_eq (phoneHash : List Char) : DirectoryOprfMath.normalize phoneHash =
    if PrivateDirectoryOprf.isHexHash phoneHash = true then some (phoneHash.map Char.toLower) else none := by
  have hall : (phoneHash.map Char.toLower).all isLowerHex =
      phoneHash.all fun c => isLowerHex c || decide (c ∈ "ABCDEF".toList) := by
    rw [List.all_map]
    exact congrArg phoneHash.all (funext isLowerHex_toLower)
  have hcond : ((phoneHash.map Char.toLower).length = 64 ∧ (phoneHash.map Char.toLower).all isLowerHex = true) ↔
      PrivateDirectoryOprf.isHexHash phoneHash = true := by
    rw [PrivateDirectoryOprf.isHexHash, hall, List.length_map, Bool.and_eq_true, decide_eq_true_iff]
  simp only [DirectoryOprfMath.normalize, hcond]

theorem expand_eq (needed : ℕ) (seed : List UInt8) : ∀ (fuel counter : ℕ) (expanded : List UInt8),
    DirectoryOprfMath.expand needed seed fuel counter expanded =
      PrivateDirectoryOprf.expand needed seed fuel counter expanded
  | 0, _, _ => rfl
  | fuel + 1, counter, expanded => by
    rw [DirectoryOprfMath.expand, PrivateDirectoryOprf.expand, expand_eq needed seed fuel]

theorem candidate_eq (text : List Char) (modulus exponent attempt : ℕ) :
    DirectoryOprfMath.candidate text ⟨modulus, exponent, PrivateDirectoryOprf.width modulus⟩ attempt =
      PrivateDirectoryOprf.candidate text modulus attempt := by
  rw [DirectoryOprfMath.candidate, PrivateDirectoryOprf.candidate, bytesToBigInt_eq, expand_eq]

theorem findPoint_eq (text : List Char) (modulus exponent : ℕ) : ∀ n attempt : ℕ,
    DirectoryOprfMath.findPoint text ⟨modulus, exponent, PrivateDirectoryOprf.width modulus⟩ n attempt =
      PrivateDirectoryOprf.findPoint text modulus n attempt
  | 0, _ => rfl
  | n + 1, attempt => by
    rw [DirectoryOprfMath.findPoint, PrivateDirectoryOprf.findPoint, candidate_eq, findPoint_eq text modulus exponent n]

theorem fullDomainPoint_eq (text : List Char) (modulus exponent : ℕ) :
    DirectoryOprfMath.fullDomainPoint text ⟨modulus, exponent, PrivateDirectoryOprf.width modulus⟩ =
      if PrivateDirectoryOprf.isHexHash text = true then
        PrivateDirectoryOprf.fullDomainPoint (text.map Char.toLower) modulus
      else none := by
  rw [DirectoryOprfMath.fullDomainPoint, normalize_eq]
  split
  · rw [Option.bind_some, findPoint_eq, PrivateDirectoryOprf.fullDomainPoint]
  · rfl

theorem candidate_lt {text : List Char} {modulus : ℕ} (hmod : 1 < modulus) (attempt : ℕ) :
    PrivateDirectoryOprf.candidate text modulus attempt < modulus := by
  rw [PrivateDirectoryOprf.candidate]
  exact Nat.lt_sub_iff_add_lt.1 (Nat.mod_lt _ (Nat.sub_pos_of_lt hmod))

theorem findPoint_spec {text : List Char} {modulus : ℕ} (hmod : 1 < modulus) (n attempt : ℕ) :
    ∀ point ∈ PrivateDirectoryOprf.findPoint text modulus n attempt,
      1 < point ∧ point < modulus ∧ Nat.Coprime point modulus := by
  induction n generalizing attempt with
  | zero => nofun
  | succ n ih =>
    intro point hpoint
    have hlt : PrivateDirectoryOprf.candidate text modulus attempt < modulus := candidate_lt hmod attempt
    rw [PrivateDirectoryOprf.findPoint] at hpoint
    generalize PrivateDirectoryOprf.candidate text modulus attempt = c at hpoint hlt
    split at hpoint
    · rename_i hc
      cases hpoint
      exact ⟨hc.1, hlt, hc.2⟩
    · exact ih (attempt + 1) point hpoint

/-- `modInverse` is the inverse modulo `n`. -/
theorem mul_modInverse {a n : ℕ} (hcop : Nat.Coprime a n) (hn : 0 < n) :
    a * DirectoryOprfMath.modInverse a n ≡ 1 [MOD n] := by
  have hnonneg : 0 ≤ Nat.gcdA a n % (n : ℤ) := Int.emod_nonneg _ (by omega)
  have hbezout : (a : ℤ) * Nat.gcdA a n ≡ 1 [ZMOD n] := by
    have hgcd := Nat.gcd_eq_gcd_ab a n
    rw [hcop.gcd_eq_one] at hgcd
    refine Int.modEq_iff_dvd.2 ⟨Nat.gcdB a n, ?_⟩
    push_cast at hgcd
    linarith
  rw [← Int.natCast_modEq_iff]
  push_cast
  rw [DirectoryOprfMath.modInverse, Int.toNat_of_nonneg hnonneg]
  exact ((Int.mod_modEq _ _).mul_left _).trans hbezout

namespace PrivateDirectoryOprf

variable (o : PrivateDirectoryOprf)

theorem one_lt_modulus : 1 < o.modulus := by
  by_contra h
  have hle : bitLength o.key.modulus ≤ 1 := bitLength_le (Nat.lt_of_le_of_lt (Nat.not_lt.1 h) (by decide))
  exact absurd (o.large.trans hle) (by decide)

theorem lt_modulusBytes {value : ℕ} (h : value < o.modulus) : value < 256 ^ o.modulusBytes := lt_width h

theorem modulusBytes_pos : 0 < o.modulusBytes := by
  by_contra h
  have hone := o.lt_modulusBytes o.one_lt_modulus
  rw [Nat.eq_zero_of_not_pos h] at hone
  exact absurd hone (by decide)

theorem privateOperation_eq {value : ℕ} (h : value < o.modulus) :
    o.privateOperation value = some (value ^ o.key.inverse % o.modulus) := by
  have hpower : value ^ o.key.inverse % o.modulus < o.modulus :=
    Nat.mod_lt _ (Nat.lt_of_lt_of_le Nat.one_pos o.one_lt_modulus.le)
  have hinput : BigEndian.value (BigEndian.bytes o.modulusBytes value) = value :=
    BigEndian.value_bytes (o.lt_modulusBytes h)
  rw [privateOperation, unsignedBytes_eq (o.lt_modulusBytes h) o.modulusBytes_pos]
  simp only [Option.bind_eq_bind, Option.bind_some, doFinal, hinput, if_pos h, Rsa.modPow_eq]
  rw [BigEndian.value_bytes (o.lt_modulusBytes hpower)]
  rfl

theorem finalizeToken_eq {value : ℕ} (h : value < o.modulus) : o.finalizeToken value =
    some (encodeToString (Sha256.digest (tokenDomain ++ BigEndian.bytes o.modulusBytes value))) := by
  rw [finalizeToken, unsignedBytes_eq (o.lt_modulusBytes h) o.modulusBytes_pos]
  rfl

theorem evaluate_eq {value : ℕ} (hone : 1 < value) (h : value < o.modulus) (hcop : Nat.Coprime value o.modulus) :
    o.evaluate (encodeToString (BigEndian.bytes o.modulusBytes value)) =
      some (encodeToString (BigEndian.bytes o.modulusBytes (value ^ o.key.inverse % o.modulus))) := by
  have hpower : value ^ o.key.inverse % o.modulus < o.modulus :=
    Nat.mod_lt _ (Nat.lt_of_lt_of_le Nat.one_pos o.one_lt_modulus.le)
  have hdecode : decode (encodeToString (BigEndian.bytes o.modulusBytes value)) =
      some (BigEndian.bytes o.modulusBytes value) :=
        Base64Url.decode_encode (fun n hn => Base64Url.digit_character hn) _ _
  have hvalue : BigEndian.value (BigEndian.bytes o.modulusBytes value) = value :=
    BigEndian.value_bytes (o.lt_modulusBytes h)
  have hgroup : 1 < value ∧ value < o.modulus ∧ Nat.gcd value o.modulus = 1 := ⟨hone, h, hcop⟩
  rw [evaluate, hdecode]
  simp only [Option.bind_eq_bind, Option.bind_some, BigEndian.length_bytes, ne_eq, not_true_eq_false, if_false, hvalue,
    if_pos hgroup, o.privateOperation_eq h, unsignedBytes_eq (o.lt_modulusBytes hpower) o.modulusBytes_pos]
  rfl

end PrivateDirectoryOprf

theorem digit_character {n : ℕ} (h : n < 64) : DirectoryOprfMath.digit (Base64Url.character n) = some n := by
  have hplus : Base64Url.character n ≠ '+' := fun he => absurd (he ▸ Base64Url.character_mem n) (by decide)
  have hslash : Base64Url.character n ≠ '/' := fun he => absurd (he ▸ Base64Url.character_mem n) (by decide)
  rw [DirectoryOprfMath.digit, if_neg hplus, if_neg hslash, Base64Url.digit_character h]

namespace DirectoryOprfMath

variable {o : PrivateDirectoryOprf}

theorem unblind_eq {value inverse : ℕ} (hone : 1 < value) (h : value < o.modulus) (hcop : Nat.Coprime value o.modulus) :
    unblind (PrivateDirectoryOprf.encodeToString (BigEndian.bytes o.modulusBytes value)) inverse o.publicConfig =
      o.finalizeToken (value * inverse % o.modulus) := by
  have hproduct : value * inverse % o.modulus < o.modulus := Nat.mod_lt _ (Nat.lt_trans Nat.one_pos o.one_lt_modulus)
  have hdecode : decodeBase64Url (PrivateDirectoryOprf.encodeToString (BigEndian.bytes o.modulusBytes value)) =
      some (BigEndian.bytes o.modulusBytes value) := Base64Url.decode_encode (fun n hn => digit_character hn) _ _
  have hvalue : bytesToBigInt (BigEndian.bytes o.modulusBytes value) = value := by
    rw [bytesToBigInt_eq, BigEndian.value_bytes (o.lt_modulusBytes h)]
  have hgroup : ¬ (value ≤ 1 ∨ o.modulus ≤ value ∨ Nat.gcd value o.modulus ≠ 1) := by
    rintro (hle | hle | hne)
    · omega
    · omega
    · exact hne hcop
  rw [unblind, hdecode, o.finalizeToken_eq hproduct]
  simp only [Option.bind_eq_bind, Option.bind_some, PrivateDirectoryOprf.publicConfig, BigEndian.length_bytes, ne_eq,
    not_true_eq_false, if_false, hvalue]
  rw [if_neg hgroup, bigIntToBytes_eq (o.lt_modulusBytes hproduct)]
  rfl

end DirectoryOprfMath

theorem coprime_mod {x n : ℕ} (h : Nat.Coprime x n) : Nat.Coprime (x % n) n :=
  (Nat.ModEq.gcd_eq (Nat.mod_modEq x n)).trans h

theorem one_lt_of_coprime {x n : ℕ} (hn : 1 < n) (h : Nat.Coprime x n) (hne : x ≠ 1) : 1 < x := by
  have hzero : x ≠ 0 := by
    rintro rfl
    exact hn.ne' ((Nat.gcd_zero_left n).symm.trans h)
  omega

section Blinding

variable (o : PrivateDirectoryOprf)

theorem pow_inverse_ne_one {value : ℕ} (h : value < o.modulus) (hne : value ≠ 1) :
    value ^ o.key.inverse % o.modulus ≠ 1 := by
  intro hone
  have hpower : value ^ o.key.inverse ≡ 1 [MOD o.modulus] := by
    rw [Nat.ModEq, hone, Nat.mod_eq_of_lt o.one_lt_modulus]
  have hvalue : value ≡ 1 [MOD o.modulus] :=
    calc value
        ≡ value ^ (o.key.exponent * o.key.inverse) [MOD o.modulus] := (o.key.pow_pow value).symm
      _ = (value ^ o.key.inverse) ^ o.key.exponent := by rw [Nat.mul_comm, Nat.pow_mul]
      _ ≡ 1 ^ o.key.exponent [MOD o.modulus] := hpower.pow _
      _ = 1 := Nat.one_pow _
  rw [Nat.ModEq, Nat.mod_eq_of_lt h, Nat.mod_eq_of_lt o.one_lt_modulus] at hvalue
  exact hne hvalue

theorem unblinded_eq {point factor : ℕ} (hcop : Nat.Coprime factor o.modulus) :
    ((point * factor ^ o.key.exponent % o.modulus) ^ o.key.inverse % o.modulus) *
        DirectoryOprfMath.modInverse factor o.modulus % o.modulus =
      point ^ o.key.inverse % o.modulus := by
  have hinverse := mul_modInverse hcop (Nat.lt_trans Nat.one_pos o.one_lt_modulus)
  have hblinded : (point * factor ^ o.key.exponent % o.modulus) ^ o.key.inverse ≡
      point ^ o.key.inverse * factor [MOD o.modulus] :=
    calc (point * factor ^ o.key.exponent % o.modulus) ^ o.key.inverse
        ≡ (point * factor ^ o.key.exponent) ^ o.key.inverse [MOD o.modulus] := (Nat.mod_modEq _ _).pow _
      _ = point ^ o.key.inverse * factor ^ (o.key.exponent * o.key.inverse) := by rw [Nat.mul_pow, Nat.pow_mul]
      _ ≡ point ^ o.key.inverse * factor [MOD o.modulus] := (o.key.pow_pow factor).mul_left _
  show _ ≡ _ [MOD o.modulus]
  calc (point * factor ^ o.key.exponent % o.modulus) ^ o.key.inverse % o.modulus *
        DirectoryOprfMath.modInverse factor o.modulus
      ≡ point ^ o.key.inverse * factor * DirectoryOprfMath.modInverse factor o.modulus [MOD o.modulus] :=
        ((Nat.mod_modEq _ _).trans hblinded).mul_right _
    _ = point ^ o.key.inverse * (factor * DirectoryOprfMath.modInverse factor o.modulus) := Nat.mul_assoc _ _ _
    _ ≡ point ^ o.key.inverse * 1 [MOD o.modulus] := hinverse.mul_left _
    _ = point ^ o.key.inverse := Nat.mul_one _

end Blinding

theorem publicConfig_point (o : PrivateDirectoryOprf) (text : List Char) :
    DirectoryOprfMath.fullDomainPoint text o.publicConfig =
      if PrivateDirectoryOprf.isHexHash text = true then
        PrivateDirectoryOprf.fullDomainPoint (text.map Char.toLower) o.modulus
      else none := fullDomainPoint_eq text o.modulus o.key.exponent

theorem fullDomainPoint_coprime {o : PrivateDirectoryOprf} {text : List Char} {point : ℕ}
    (h : DirectoryOprfMath.fullDomainPoint text o.publicConfig = some point) : Nat.Coprime point o.modulus := by
  rw [publicConfig_point] at h
  split at h
  · exact (findPoint_spec o.one_lt_modulus 256 0 point h).2.2
  · nomatch h

theorem tokenForPhoneHash_eq (o : PrivateDirectoryOprf) (text : List Char) : o.tokenForPhoneHash text =
    (DirectoryOprfMath.fullDomainPoint text o.publicConfig).bind fun point =>
      o.finalizeToken (point ^ o.key.inverse % o.modulus) := by
  rw [publicConfig_point, PrivateDirectoryOprf.tokenForPhoneHash]
  split
  · cases hpoint : PrivateDirectoryOprf.fullDomainPoint (text.map Char.toLower) o.modulus with
    | none => rfl
    | some point =>
      have hlt := (findPoint_spec o.one_lt_modulus 256 0 point hpoint).2.1
      simp only [Option.bind_eq_bind, Option.bind_some, o.privateOperation_eq hlt]
  · rfl

theorem blindWithFactor_eq {o : PrivateDirectoryOprf} {text : List Char} {factor point : ℕ} (hone : 1 < factor)
    (hlt : factor < o.modulus) (hcop : Nat.Coprime factor o.modulus)
    (hpoint : DirectoryOprfMath.fullDomainPoint text o.publicConfig = some point) :
    DirectoryOprfMath.blindWithFactor text o.publicConfig factor =
      some ⟨PrivateDirectoryOprf.encodeToString
        (BigEndian.bytes o.modulusBytes (point * factor ^ o.key.exponent % o.modulus)),
        DirectoryOprfMath.modInverse factor o.modulus⟩ := by
  have hblinded : point * factor ^ o.key.exponent % o.modulus < o.modulus :=
    Nat.mod_lt _ (Nat.lt_trans Nat.one_pos o.one_lt_modulus)
  have hgroup : ¬ ((factor : ℤ) ≤ 1 ∨ (o.modulus : ℤ) ≤ factor ∨ Int.gcd factor o.modulus ≠ 1) := by
    rintro (hle | hle | hne)
    · omega
    · omega
    · exact hne (Int.gcd_natCast_natCast _ _ ▸ hcop)
  rw [DirectoryOprfMath.blindWithFactor, hpoint]
  simp only [PrivateDirectoryOprf.publicConfig, if_neg hgroup, Option.bind_eq_bind, Option.bind_some, Int.toNat_natCast,
    Rsa.modPow_eq, Nat.mul_mod_mod, bigIntToBytes_eq (o.lt_modulusBytes hblinded)]
  rfl

theorem discover_refused {o : PrivateDirectoryOprf} {factor : ℤ}
    (h : factor ≤ 1 ∨ (o.modulus : ℤ) ≤ factor ∨ Int.gcd factor o.modulus ≠ 1) (text : List Char) :
    discover o text factor = none := by
  have hblind : DirectoryOprfMath.blindWithFactor text o.publicConfig factor = none := if_pos h
  rw [discover, hblind]
  rfl

theorem discover_eq {o : PrivateDirectoryOprf} {text : List Char} {factor point : ℕ} (hone : 1 < factor)
    (hlt : factor < o.modulus) (hcop : Nat.Coprime factor o.modulus)
    (hpoint : DirectoryOprfMath.fullDomainPoint text o.publicConfig = some point)
    (hblinded : point * factor ^ o.key.exponent % o.modulus ≠ 1) :
    discover o text factor = o.finalizeToken (point ^ o.key.inverse % o.modulus) := by
  have hcoprime : Nat.Coprime point o.modulus := fullDomainPoint_coprime hpoint
  have hb : Nat.Coprime (point * factor ^ o.key.exponent % o.modulus) o.modulus :=
    coprime_mod (hcoprime.mul_left (hcop.pow_left _))
  have hblt : point * factor ^ o.key.exponent % o.modulus < o.modulus :=
    Nat.mod_lt _ (Nat.lt_trans Nat.one_pos o.one_lt_modulus)
  have hbone := one_lt_of_coprime o.one_lt_modulus hb hblinded
  -- what the server answers
  have hc : Nat.Coprime ((point * factor ^ o.key.exponent % o.modulus) ^ o.key.inverse % o.modulus) o.modulus :=
    coprime_mod (hb.pow_left _)
  have hcone := one_lt_of_coprime o.one_lt_modulus hc (pow_inverse_ne_one o hblt hblinded)
  have hclt : (point * factor ^ o.key.exponent % o.modulus) ^ o.key.inverse % o.modulus < o.modulus :=
    Nat.mod_lt _ (Nat.lt_trans Nat.one_pos o.one_lt_modulus)
  rw [discover, blindWithFactor_eq hone hlt hcop hpoint]
  simp only [Option.bind_eq_bind, Option.bind_some]
  rw [o.evaluate_eq hbone hblt hb, Option.bind_some]
  rw [DirectoryOprfMath.unblind_eq hcone hclt hc, unblinded_eq o hcop]

/-- **Contact discovery agrees**: for a factor the client can sample, unless it blinds the point to one, what the client
gets of the server's evaluation is the server's own token; and the two maps into the group are the same for every text
and modulus. -/
theorem discovery_agrees (o : PrivateDirectoryOprf) (phoneHash : List Char) (factor : ℤ) (hone : 1 < factor)
    (hlt : factor < o.modulus) (hcop : Int.gcd factor o.modulus = 1)
    (hblinded : ∀ point ∈ DirectoryOprfMath.fullDomainPoint phoneHash o.publicConfig,
      point * factor.toNat ^ 65537 % o.modulus ≠ 1) :
    discover o phoneHash factor = o.tokenForPhoneHash phoneHash ∧
      ∀ text modulus exponent, DirectoryOprfMath.fullDomainPoint text
          ⟨modulus, exponent, PrivateDirectoryOprf.width modulus⟩ =
        if PrivateDirectoryOprf.isHexHash text = true then
          PrivateDirectoryOprf.fullDomainPoint (text.map Char.toLower) modulus
        else none := by
  refine ⟨?_, fun text modulus exponent => fullDomainPoint_eq text modulus exponent⟩
  lift factor to ℕ using (Int.le_trans Int.one_nonneg hone.le) with r
  rw [Int.gcd_natCast_natCast] at hcop
  rw [Int.toNat_natCast, ← o.exponent] at hblinded
  rw [tokenForPhoneHash_eq]
  cases hpoint : DirectoryOprfMath.fullDomainPoint phoneHash o.publicConfig with
  | none =>
    have hblind : DirectoryOprfMath.blindWithFactor phoneHash o.publicConfig r = none := by
      rw [DirectoryOprfMath.blindWithFactor, hpoint]
      split <;> rfl
    rw [discover, hblind]
    rfl
  | some point =>
    rw [Option.bind_some]
    exact discover_eq (Int.ofNat_lt.1 hone) (Int.ofNat_lt.1 hlt) hcop hpoint (hblinded point hpoint)

def mersenneKey : Rsa.Key where
  p := mersenne 1279
  q := mersenne 2203
  exponent := 65537
  inverse := (1 + 21803 * Nat.lcm (mersenne 1279 - 1) (mersenne 2203 - 1)) / 65537
  prime_p := lucas_lehmer_sufficiency _ (by simp) (by norm_num)
  prime_q := lucas_lehmer_sufficiency _ (by simp) (by norm_num)
  distinct := by decide +kernel
  inverse_p := by decide +kernel
  inverse_q := by decide +kernel
  positive := by decide +kernel

def mersenneOprf : PrivateDirectoryOprf := ⟨mersenneKey, rfl, by decide +kernel⟩

def zeroHash : List Char := List.replicate 64 '0'

theorem zeroHash_point : ((DirectoryOprfMath.fullDomainPoint zeroHash mersenneOprf.publicConfig).any fun point =>
    decide (point * Rsa.modPow 2 65537 mersenneOprf.modulus % mersenneOprf.modulus ≠ 1)) = true := by decide +kernel

theorem discovery_agrees_two :
    discover mersenneOprf zeroHash 2 = mersenneOprf.tokenForPhoneHash zeroHash := by
  refine (discovery_agrees mersenneOprf zeroHash 2 (by decide) (by decide +kernel) (by decide +kernel) ?_).1
  intro point hpoint
  have hcheck := zeroHash_point
  rw [Option.mem_def.1 hpoint, Option.any_some, decide_eq_true_iff, Rsa.modPow_eq, Nat.mul_mod_mod] at hcheck
  exact hcheck

/-- One is invertible, and the client refuses it. -/
theorem discovery_refuses_one : ∃ (o : PrivateDirectoryOprf) (phoneHash : List Char) (factor : ℤ),
    Int.gcd factor o.modulus = 1 ∧ discover o phoneHash factor ≠ o.tokenForPhoneHash phoneHash := by
  obtain ⟨point, hpoint, -⟩ := (Option.any_eq_true _ _).1 zeroHash_point
  have hlt : point ^ mersenneOprf.key.inverse % mersenneOprf.modulus < mersenneOprf.modulus :=
    Nat.mod_lt _ (Nat.lt_trans Nat.one_pos mersenneOprf.one_lt_modulus)
  refine ⟨mersenneOprf, zeroHash, 1, Int.one_gcd, ?_⟩
  rw [discover_refused (Or.inl le_rfl), tokenForPhoneHash_eq, hpoint, Option.bind_some,
    mersenneOprf.finalizeToken_eq hlt]
  nofun

end Directory
end SecureChat
