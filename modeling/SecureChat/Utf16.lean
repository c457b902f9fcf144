import SecureChat.PlaintextPadding
/-!
# Utf16 — texts as code units, as characters and as bytes

The code units of characters are read back (`scalars_units`), and so are the characters of code units whose surrogates
come in pairs (`units_scalars`).  Such a text is read back from its bytes as well, if no byte order mark begins it
(`utf8Decode_utf8Encode`).
-/
namespace SecureChat
namespace Utf16

open PlaintextPadding (Units isHigh isLow)

def isSurrogate (u : UInt16) : Bool := isHigh u || isLow u

def pair (u v : UInt16) : Char := Char.ofNat (0x10000 + (u.toNat - 0xD800) * 0x400 + (v.toNat - 0xDC00))

def single (u : UInt16) : Char := if isSurrogate u = true then Char.ofNat 0xFFFD else Char.ofNat u.toNat

def scalars : Units → List Char
  | [] => []
  | [u] => [single u]
  | u :: v :: l => if isHigh u = true ∧ isLow v = true then pair u v :: scalars l else single u :: scalars (v :: l)

def charUnits (c : Char) : Units :=
  if c.toNat < 0x10000 then [UInt16.ofNat c.toNat]
  else [UInt16.ofNat (0xD800 + (c.toNat - 0x10000) / 0x400), UInt16.ofNat (0xDC00 + (c.toNat - 0x10000) % 0x400)]

def units (t : List Char) : Units := t.flatMap charUnits

def paired : Units → Bool
  | [] => true
  | [u] => !isSurrogate u
  | u :: v :: l => if isHigh u = true ∧ isLow v = true then paired l else !isSurrogate u && paired (v :: l)

/-- `utf8.encode(text)` -/
def utf8Encode (text : Units) : List UInt8 := (scalars text).flatMap String.utf8EncodeChar

def byteOrderMark : Char := Char.ofNat 0xFEFF

def withoutMark : List Char → List Char
  | [] => []
  | c :: t => if c = byteOrderMark then t else c :: t

/-- `utf8.decode(bytes)`: what is no text throws. -/
def utf8Decode (bytes : List UInt8) : Option Units :=
  bytes.toByteArray.utf8Decode?.map fun t => units (withoutMark t.toList)

/-! ## Units -/

theorem isHigh_iff {u : UInt16} : isHigh u = true ↔ 0xD800 ≤ u.toNat ∧ u.toNat < 0xDC00 := by
  simp only [isHigh, decide_eq_true_eq, UInt16.le_iff_toNat_le, UInt16.lt_iff_toNat_lt]
  exact Iff.rfl

theorem isLow_iff {u : UInt16} : isLow u = true ↔ 0xDC00 ≤ u.toNat ∧ u.toNat < 0xE000 := by
  simp only [isLow, decide_eq_true_eq, UInt16.le_iff_toNat_le, UInt16.lt_iff_toNat_lt]
  exact Iff.rfl

theorem isSurrogate_iff {u : UInt16} : isSurrogate u = true ↔ 0xD800 ≤ u.toNat ∧ u.toNat < 0xE000 := by
  simp only [isSurrogate, Bool.or_eq_true, isHigh_iff, isLow_iff]
  omega

theorem isSurrogate_false {u : UInt16} : isSurrogate u = false ↔ u.toNat < 0xD800 ∨ 0xE000 ≤ u.toNat := by
  rw [← Bool.not_eq_true, isSurrogate_iff]
  omega

/-! ## Characters -/

theorem toNat_ofNat {n : ℕ} (h : n < 0xD800 ∨ 0xDFFF < n ∧ n < 0x110000) : (Char.ofNat n).toNat = n := by
  have hvalid : n.isValidChar := h
  rw [Char.toNat_ofNat, if_pos hvalid]

theorem toNat_char (c : Char) : c.toNat < 0xD800 ∨ 0xDFFF < c.toNat ∧ c.toNat < 0x110000 := c.valid

theorem toNat_single {u : UInt16} (h : isSurrogate u = false) : (single u).toNat = u.toNat := by
  have hu := u.toNat_lt
  have hrange := isSurrogate_false.1 h
  rw [single, if_neg (by rw [h]; decide), toNat_ofNat (by omega)]

theorem charUnits_single {u : UInt16} (h : isSurrogate u = false) : charUnits (single u) = [u] := by
  have hu : u.toNat < 0x10000 := u.toNat_lt
  rw [charUnits, toNat_single h, if_pos hu, UInt16.ofNat_toNat]

theorem charUnits_pair {u v : UInt16} (hu : isHigh u = true) (hv : isLow v = true) : charUnits (pair u v) = [u, v] := by
  obtain ⟨hu, hu'⟩ := isHigh_iff.1 hu
  obtain ⟨hv, hv'⟩ := isLow_iff.1 hv
  have hnat : (pair u v).toNat = 0x10000 + (u.toNat - 0xD800) * 0x400 + (v.toNat - 0xDC00) := toNat_ofNat (by omega)
  have hhigh : 0xD800 + (0x10000 + (u.toNat - 0xD800) * 0x400 + (v.toNat - 0xDC00) - 0x10000) / 0x400 = u.toNat := by
    omega
  have hlow : 0xDC00 + (0x10000 + (u.toNat - 0xD800) * 0x400 + (v.toNat - 0xDC00) - 0x10000) % 0x400 = v.toNat := by
    omega
  rw [charUnits, hnat, if_neg (by omega), hhigh, hlow, UInt16.ofNat_toNat, UInt16.ofNat_toNat]

theorem units_scalars : ∀ {l : Units}, paired l = true → units (scalars l) = l
  | [], _ => rfl
  | [u], h => by
    have hu : isSurrogate u = false := by simpa [paired] using h
    show charUnits (single u) ++ [] = [u]
    rw [charUnits_single hu, List.append_nil]
  | u :: v :: l, h => by
    unfold paired at h
    unfold scalars
    split at h
    · rename_i hpair
      rw [if_pos hpair]
      show charUnits (pair u v) ++ units (scalars l) = _
      rw [charUnits_pair hpair.1 hpair.2, units_scalars h]
      rfl
    · rename_i hpair
      obtain ⟨hu, h⟩ := Bool.and_eq_true_iff.1 h
      rw [if_neg hpair]
      show charUnits (single u) ++ units (scalars (v :: l)) = _
      rw [charUnits_single (by simpa using hu), units_scalars h]
      rfl

theorem scalars_charUnits_append (c : Char) (l : Units) : scalars (charUnits c ++ l) = c :: scalars l := by
  have hc := toNat_char c
  unfold charUnits
  split
  · rename_i hsmall
    have hnat : (UInt16.ofNat c.toNat).toNat = c.toNat := UInt16.toNat_ofNat_of_lt hsmall
    have hplain : isSurrogate (UInt16.ofNat c.toNat) = false := by
      rw [isSurrogate_false, hnat]
      omega
    have hhigh : isHigh (UInt16.ofNat c.toNat) = false := (Bool.or_eq_false_iff.1 hplain).1
    have hsingle : single (UInt16.ofNat c.toNat) = c := by
      rw [single, if_neg (by rw [hplain]; decide), hnat, Char.ofNat_toNat]
    cases l with
    | nil => exact congrArg (fun d => [d]) hsingle
    | cons v l => rw [List.singleton_append, scalars, if_neg (by simp [hhigh]), hsingle]
  · rename_i hlarge
    have hu : (UInt16.ofNat (0xD800 + (c.toNat - 0x10000) / 0x400)).toNat = 0xD800 + (c.toNat - 0x10000) / 0x400 :=
      UInt16.toNat_ofNat_of_lt (by show _ < 65536; omega)
    have hv : (UInt16.ofNat (0xDC00 + (c.toNat - 0x10000) % 0x400)).toNat = 0xDC00 + (c.toNat - 0x10000) % 0x400 :=
      UInt16.toNat_ofNat_of_lt (by show _ < 65536; omega)
    have hhigh : isHigh (UInt16.ofNat (0xD800 + (c.toNat - 0x10000) / 0x400)) = true := by
      rw [isHigh_iff, hu]
      omega
    have hlow : isLow (UInt16.ofNat (0xDC00 + (c.toNat - 0x10000) % 0x400)) = true := by
      rw [isLow_iff, hv]
      omega
    have hpair : pair (UInt16.ofNat (0xD800 + (c.toNat - 0x10000) / 0x400))
        (UInt16.ofNat (0xDC00 + (c.toNat - 0x10000) % 0x400)) = c := by
      have hvalue : 0x10000 + (0xD800 + (c.toNat - 0x10000) / 0x400 - 0xD800) * 0x400 +
          (0xDC00 + (c.toNat - 0x10000) % 0x400 - 0xDC00) = c.toNat := by omega
      rw [pair, hu, hv, hvalue, Char.ofNat_toNat]
    rw [List.cons_append, List.cons_append, List.nil_append, scalars, if_pos ⟨hhigh, hlow⟩, hpair]

theorem scalars_units : ∀ t : List Char, scalars (units t) = t
  | [] => rfl
  | c :: t => by
    show scalars (charUnits c ++ units t) = _
    rw [scalars_charUnits_append, scalars_units t]

theorem units_inj {s t : List Char} : units s = units t ↔ s = t := by
  constructor
  · intro h
    have := congrArg scalars h
    rwa [scalars_units, scalars_units] at this
  · rintro rfl
    rfl

/-! ## Bytes -/

theorem utf8Decode_utf8Encode {l : Units} (h : paired l = true) (hmark : (scalars l).head? ≠ some byteOrderMark) :
    utf8Decode (utf8Encode l) = some l := by
  have hbytes : (utf8Encode l).toByteArray.utf8Decode? = some (scalars l).toArray := List.utf8Decode?_utf8Encode
  have hwithout : withoutMark (scalars l) = scalars l := by
    cases hl : scalars l with
    | nil => rfl
    | cons c t =>
      rw [withoutMark, if_neg]
      rintro rfl
      rw [hl] at hmark
      exact hmark rfl
  rw [utf8Decode, hbytes, Option.map_some, List.toList_toArray, hwithout, units_scalars h]

theorem utf8Encode_inj {k l : Units} : utf8Encode k = utf8Encode l ↔ scalars k = scalars l := by
  constructor
  · intro h
    have hdecode : some (scalars k).toArray = some (scalars l).toArray := by
      rw [← List.utf8Decode?_utf8Encode (l := scalars k), ← List.utf8Decode?_utf8Encode (l := scalars l)]
      exact congrArg (fun bytes : List UInt8 => bytes.toByteArray.utf8Decode?) h
    exact List.toArray_inj (Option.some.inj hdecode)
  · intro h
    rw [utf8Encode, h, utf8Encode]

theorem paired_of_plain : ∀ {l : Units}, (∀ u ∈ l, isSurrogate u = false) → paired l = true
  | [], _ => rfl
  | [u], h => by simp [paired, h u List.mem_cons_self]
  | u :: v :: l, h => by
    have hu := h u List.mem_cons_self
    have hhigh : isHigh u = false := (Bool.or_eq_false_iff.1 hu).1
    have ih := paired_of_plain (l := v :: l) fun w hw => h w (List.mem_cons_of_mem u hw)
    rw [paired, if_neg (by simp [hhigh]), hu, ih]
    rfl

theorem paired_append : ∀ {a b : Units}, paired a = true → paired b = true → paired (a ++ b) = true
  | [], b, _, hb => hb
  | [u], b, ha, hb => by
    have hu : isSurrogate u = false := by simpa [paired] using ha
    have hhigh : isHigh u = false := (Bool.or_eq_false_iff.1 hu).1
    cases b with
    | nil => exact ha
    | cons v l => rw [List.singleton_append, paired, if_neg (by simp [hhigh]), hu, hb]; rfl
  | u :: v :: l, b, ha, hb => by
    rw [paired] at ha
    rw [List.cons_append, List.cons_append, paired]
    split at ha
    · rename_i hpair
      rw [if_pos hpair]
      exact paired_append ha hb
    · rename_i hpair
      obtain ⟨hu, ha⟩ := Bool.and_eq_true_iff.1 ha
      have ih := paired_append ha hb
      rw [List.cons_append] at ih
      rw [if_neg hpair, hu, ih]
      rfl

theorem head?_scalars_cons {u : UInt16} (h : isSurrogate u = false) (l : Units) :
    (scalars (u :: l)).head? = some (single u) := by
  have hhigh : isHigh u = false := (Bool.or_eq_false_iff.1 h).1
  cases l with
  | nil => rfl
  | cons v l => rw [scalars, if_neg (by simp [hhigh])]; rfl

end Utf16
end SecureChat
