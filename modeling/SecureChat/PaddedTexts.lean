import SecureChat.PlaintextPadding
/-!
# PaddedTexts — what padding shows, and which texts unpadding accepts

A padded text is read back (`unpadPlaintext_padPlaintext`) and its bytes are the least multiple of the bucket that
header and text fit in (`utf8Length_padPlaintext`).  What unpadding does depends on the field and on what stands
behind it (`unpadPlaintext_short`, `unpadPlaintext_wrapped`, `unpadPlaintext_text`); a field that is no canonical number,
zeros that do not fill the bucket and a length that wraps around are not refused as they should be
(`unpadPlaintext_proper_iff`).
-/
namespace SecureChat
namespace PlaintextPadding

/-! ## Bytes -/

theorem utf8Length_ascii_append {a : Units} (ha : ∀ u ∈ a, u < 0x80) (s : Units) :
    utf8Length (a ++ s) = a.length + utf8Length s := by
  induction a with
  | nil => exact (Nat.zero_add _).symm
  | cons u a ih =>
    have hu : u < 0x80 := ha u List.mem_cons_self
    have hbytes : unitBytes u = 1 := if_pos hu
    have hhigh : isHigh u = false := by
      refine decide_eq_false fun h => ?_
      have hlow := UInt16.le_iff_toNat_le.1 h.1
      have hlt := UInt16.lt_iff_toNat_lt.1 hu
      have hd : (0xD800 : UInt16).toNat = 0xD800 := rfl
      have h8 : (0x80 : UInt16).toNat = 0x80 := rfl
      omega
    have ih := ih fun v hv => ha v (List.mem_cons_of_mem u hv)
    have hstep : utf8Length (u :: (a ++ s)) = 1 + utf8Length (a ++ s) := by
      cases hrest : a ++ s with
      | nil => exact hbytes
      | cons v l => rw [utf8Length, if_neg (by simp [hhigh]), hbytes]
    rw [List.cons_append, hstep, ih, List.length_cons]
    omega

theorem utf8Length_zeros (k : ℕ) : ∀ s : Units, utf8Length (s ++ List.replicate k 0) = utf8Length s + k
  | [] => by
    have h := utf8Length_ascii_append (a := List.replicate k 0) (fun u hu => by
      rw [List.eq_of_mem_replicate hu]
      decide) []
    rw [List.append_nil, List.length_replicate] at h
    rw [List.nil_append, h]
    exact Nat.add_comm _ _
  | [u] => by
    cases k with
    | zero => rfl
    | succ k =>
      have h := utf8Length_zeros (k + 1) []
      rw [List.nil_append] at h
      have hlow : isLow 0 = false := by decide
      rw [List.replicate_succ] at h ⊢
      have hstep : utf8Length (u :: 0 :: List.replicate k 0) = unitBytes u + utf8Length (0 :: List.replicate k 0) :=
        if_neg (by simp [hlow])
      rw [List.singleton_append, hstep, h]
      show unitBytes u + (0 + (k + 1)) = unitBytes u + (k + 1)
      rw [Nat.zero_add]
  | u :: v :: l => by
    have ih := utf8Length_zeros k l
    have ih' := utf8Length_zeros k (v :: l)
    rw [List.cons_append] at ih'
    rw [List.cons_append, List.cons_append, utf8Length, utf8Length]
    by_cases h : isHigh u = true ∧ isLow v = true
    · rw [if_pos h, if_pos h, ih, Nat.add_assoc]
    · rw [if_neg h, if_neg h, ih', Nat.add_assoc]

/-! ## The header -/

theorem print_digits {n : ℕ} (h : n < 2 ^ 63) : DartInt.print (Int64.ofNat n) = Nat.toDigits 10 n := by
  have hint : (Int64.ofNat n).toInt = n := Int64.toInt_ofNat_of_lt h
  unfold DartInt.print
  rw [hint, if_neg (by omega), Int.natAbs_natCast]

theorem isDigit_toDigits {n : ℕ} {c : Char} (h : c ∈ Nat.toDigits 10 n) : c.isDigit = true :=
  Nat.isDigit_of_mem_toDigits (by omega) (by omega) h

theorem toNat_unit {c : Char} (h : c.isDigit = true) : (UInt16.ofNat c.toNat).toNat = c.toNat := by
  obtain ⟨-, hle⟩ := DartInt.isDigit_bounds h
  exact UInt16.toNat_ofNat_of_lt (Nat.lt_of_le_of_lt hle (by decide))

theorem mem_ascii {t : List Char} (h : ∀ c ∈ t, c.isDigit = true) {u : UInt16} (hu : u ∈ ascii t) :
    u < 0x80 ∧ u ≠ separator := by
  obtain ⟨c, hc, rfl⟩ := List.mem_map.1 hu
  obtain ⟨hlow, hhigh⟩ := DartInt.isDigit_bounds (h c hc)
  have hnat := toNat_unit (h c hc)
  constructor
  · refine UInt16.lt_iff_toNat_lt.2 ?_
    rw [hnat]
    show c.toNat < 128
    omega
  · intro he
    rw [he] at hnat
    have hsep : separator.toNat = 58 := rfl
    omega

def lengthDigits (n : ℕ) : Units := ascii (Nat.toDigits 10 n)

theorem mem_lengthDigits {n : ℕ} {u : UInt16} (h : u ∈ lengthDigits n) : u < 0x80 ∧ u ≠ separator :=
  mem_ascii (fun _ hc => isDigit_toDigits hc) h

theorem header_eq {s : Units} (h : s.length < 2 ^ 63) : header s = marker ++ lengthDigits s.length ++ [separator] := by
  rw [header, print_digits h]
  rfl

theorem header_ascii {s : Units} (h : s.length < 2 ^ 63) : ∀ u ∈ header s, u < 0x80 := by
  rw [header_eq h]
  intro u hu
  rcases List.mem_append.1 hu with hu | hu
  · rcases List.mem_append.1 hu with hu | hu
    · have hmark : ∀ v ∈ marker, v < 0x80 := by
        simp only [marker, List.forall_mem_cons]
        exact ⟨by decide, by decide, by decide, by decide, fun v hv => absurd hv List.not_mem_nil⟩
      exact hmark u hu
    · exact (mem_lengthDigits hu).1
  · rw [List.mem_singleton.1 hu]
    decide

/-! ## Buckets -/

/-- **Up to the largest bucket the bytes are the least multiple of the bucket that holds header and text**, above it
there is only the header. -/
theorem utf8Length_padPlaintext {s : Units} (h : s.length < 2 ^ 63) :
    utf8Length (padPlaintext s) =
      if total s ≤ 65536 then (total s + bucketFor (total s) - 1) / bucketFor (total s) * bucketFor (total s)
      else total s := by
  have hplain : utf8Length (header s ++ s) = total s := utf8Length_ascii_append (header_ascii h) s
  by_cases hsize : total s ≤ 65536
  · have hne : bucketFor (total s) ≠ 0 := by
      unfold bucketFor
      split
      · decide
      · decide
    have hle : total s ≤ (total s + bucketFor (total s) - 1) / bucketFor (total s) * bucketFor (total s) := by
      unfold bucketFor
      split
      · omega
      · omega
    unfold padPlaintext
    rw [if_neg hne, if_pos hsize, utf8Length_zeros, hplain]
    show total s + ((total s + bucketFor (total s) - 1) / bucketFor (total s) * bucketFor (total s) - total s) = _
    omega
  · have hzero : bucketFor (total s) = 0 := by
      unfold bucketFor
      rw [if_neg (by omega), if_neg hsize]
    unfold padPlaintext
    rw [if_pos hzero, if_neg hsize, hplain]

def SameBucket (n m : ℕ) : Prop :=
  bucketFor n = bucketFor m ∧ (n + bucketFor n - 1) / bucketFor n = (m + bucketFor m - 1) / bucketFor m

theorem padPlaintext_eq (s : Units) : padPlaintext s = header s ++ s ++ List.replicate (fill s) 0 := by
  unfold padPlaintext
  split
  · next h =>
    have hfill : fill s = 0 := by
      unfold fill
      rw [h]
      simp
    rw [hfill, List.replicate_zero, List.append_nil]
  · rfl

/-! ## Marked texts -/

def marked (field rest : Units) : Units := marker ++ field ++ separator :: rest

section Marked

variable {field rest : Units}

theorem take_marked : (marked field rest).take marker.length = marker := by
  rw [marked, List.append_assoc, List.take_left]

theorem drop_marked : (marked field rest).drop marker.length = field ++ separator :: rest := by
  rw [marked, List.append_assoc, List.drop_left]

theorem lengthField_marked (h : separator ∉ field) : lengthField (marked field rest) = field := by
  have hpos : ∀ u ∈ field, decide (u ≠ separator) = true := by
    intro u hu
    refine decide_eq_true fun he => ?_
    exact h (he ▸ hu)
  rw [lengthField, drop_marked, List.takeWhile_append_of_pos hpos]
  simp

theorem parsedLength_marked (h : separator ∉ field) :
    parsedLength (marked field rest) = DartInt.tryParse (chars field) := by
  rw [parsedLength, drop_marked, if_pos (List.mem_append_right _ List.mem_cons_self), lengthField_marked h]

theorem start_marked (h : separator ∉ field) : start (marked field rest) = marker.length + field.length + 1 := by
  rw [start, lengthField_marked h]

theorem drop_start_marked (h : separator ∉ field) : (marked field rest).drop (start (marked field rest)) = rest := by
  have hlen : (marker ++ field ++ [separator]).length = marker.length + field.length + 1 := by
    rw [List.length_append, List.length_append, List.length_singleton]
  rw [start_marked h, marked, List.append_cons (marker ++ field), ← hlen, List.drop_left]

theorem length_marked (h : separator ∉ field) :
    (marked field rest).length = start (marked field rest) + rest.length := by
  rw [start_marked h, marked, List.length_append, List.length_append, List.length_cons]
  omega

theorem exists_marked {value : Units} (hmark : value.take marker.length = marker)
    (hsep : separator ∈ value.drop marker.length) :
    ∃ field rest, separator ∉ field ∧ value = marked field rest := by
  obtain ⟨field, rest, hdrop, hfield⟩ := List.eq_append_cons_of_mem hsep
  refine ⟨field, rest, hfield, ?_⟩
  rw [marked, List.append_assoc, ← hdrop, ← hmark, List.length_take_of_le (by
    have hlen := congrArg List.length hmark
    rw [List.length_take] at hlen
    omega), List.take_append_drop]

theorem padPlaintext_marked {s : Units} (h : s.length < 2 ^ 63) :
    padPlaintext s = marked (lengthDigits s.length) (s ++ List.replicate (fill s) 0) := by
  rw [padPlaintext_eq, header_eq h, marked]
  simp only [List.append_assoc, List.cons_append, List.nil_append]

theorem separator_not_mem_lengthDigits (n : ℕ) : separator ∉ lengthDigits n := fun h => (mem_lengthDigits h).2 rfl

theorem tryParse_lengthDigits {n : ℕ} (h : n < 2 ^ 63) :
    DartInt.tryParse (chars (lengthDigits n)) = some (Int64.ofNat n) := by
  rw [lengthDigits, chars_ascii fun _ hc => toNat_unit (isDigit_toDigits hc), ← print_digits h, DartInt.tryParse_print]

/-! ## What unpadding does -/

theorem unpadPlaintext_unmarked {value : Units} (h : value.take marker.length ≠ marker) :
    unpadPlaintext value = .ok value := if_pos h

theorem unpadPlaintext_none {value : Units} (hmark : value.take marker.length = marker)
    (h : parsedLength value = none) :
    unpadPlaintext value = .error (.formatException "Invalid padded plaintext") := by
  unfold unpadPlaintext
  rw [if_neg (not_not.2 hmark), h]

variable {value : Units} {n : Int64}

theorem unpadPlaintext_negative (hmark : value.take marker.length = marker) (h : parsedLength value = some n)
    (hn : n.toInt < 0) : unpadPlaintext value = .error (.formatException "Invalid padded plaintext") := by
  have hneg : n < 0 := Int64.lt_iff_toInt_lt.2 hn
  unfold unpadPlaintext
  rw [if_neg (not_not.2 hmark), h]
  exact if_pos (Or.inl hneg)

theorem toInt_end {a : ℕ} (ha : a < 2 ^ 63) (hn : 0 ≤ n.toInt) :
    (Int64.ofNat a + n).toInt = if a + n.toInt < 2 ^ 63 then a + n.toInt else a + n.toInt - 2 ^ 64 := by
  have hlt := n.toInt_lt
  rw [Int64.toInt_add, Int64.toInt_ofNat_of_lt ha, Int.bmod]
  split
  · split
    · omega
    · omega
  · split
    · omega
    · omega

theorem unpadPlaintext_short (hmark : value.take marker.length = marker) (hlen : value.length < 2 ^ 63)
    (h : parsedLength value = some n) (hn : 0 ≤ n.toInt) (hend : start value + n.toInt < 2 ^ 63)
    (hshort : value.length < start value + n.toInt) :
    unpadPlaintext value = .error (.formatException "Invalid padded plaintext") := by
  have hlt : Int64.ofNat value.length < Int64.ofNat (start value) + n := by
    rw [Int64.lt_iff_toInt_lt, toInt_end (by omega) hn, if_pos hend, Int64.toInt_ofNat_of_lt hlen]
    exact hshort
  unfold unpadPlaintext
  rw [if_neg (not_not.2 hmark), h]
  exact if_pos (Or.inr hlt)

theorem unpadPlaintext_wrapped (hmark : value.take marker.length = marker) (hlen : value.length < 2 ^ 63)
    (h : parsedLength value = some n) (hn : 0 ≤ n.toInt) (hstart : start value ≤ value.length)
    (hend : 2 ^ 63 ≤ start value + n.toInt) : unpadPlaintext value = .error .rangeError := by
  have hlt := n.toInt_lt
  have hwrap := toInt_end (n := n) (a := start value) (by omega) hn
  rw [if_neg (by omega)] at hwrap
  have hnot : ¬ (n < 0 ∨ Int64.ofNat value.length < Int64.ofNat (start value) + n) := by
    rw [Int64.lt_iff_toInt_lt, Int64.lt_iff_toInt_lt, hwrap, Int64.toInt_ofNat_of_lt hlen]
    have hzero : (0 : Int64).toInt = 0 := rfl
    omega
  have hneg : Int64.ofNat (start value) + n < 0 := by
    rw [Int64.lt_iff_toInt_lt, hwrap]
    have hzero : (0 : Int64).toInt = 0 := rfl
    omega
  unfold unpadPlaintext
  rw [if_neg (not_not.2 hmark), h]
  simp only [if_neg hnot, checkPadding, if_pos hneg]
  rfl

theorem unpadPlaintext_text (hmark : value.take marker.length = marker) (hlen : value.length < 2 ^ 63)
    (h : parsedLength value = some n) (hn : 0 ≤ n.toInt) (hin : start value + n.toInt ≤ value.length) :
    unpadPlaintext value =
      if ((value.drop (start value)).drop n.toInt.toNat).all (fun u => decide (u = 0)) = true then
        .ok ((value.drop (start value)).take n.toInt.toNat)
      else .error (.formatException "Invalid plaintext padding") := by
  have hlt := n.toInt_lt
  have hend := toInt_end (n := n) (a := start value) (by omega) hn
  rw [if_pos (by omega)] at hend
  have hnot : ¬ (n < 0 ∨ Int64.ofNat value.length < Int64.ofNat (start value) + n) := by
    rw [Int64.lt_iff_toInt_lt, Int64.lt_iff_toInt_lt, hend, Int64.toInt_ofNat_of_lt hlen]
    have hzero : (0 : Int64).toInt = 0 := rfl
    omega
  have hneg : ¬ Int64.ofNat (start value) + n < 0 := by
    rw [Int64.lt_iff_toInt_lt, hend]
    have hzero : (0 : Int64).toInt = 0 := rfl
    omega
  have hindex : (start value + n.toInt).toNat = start value + n.toInt.toNat := by omega
  unfold unpadPlaintext
  rw [if_neg (not_not.2 hmark), h]
  simp only [if_neg hnot, checkPadding, if_neg hneg, hend, hindex, List.drop_drop]
  split
  · rfl
  · rfl

end Marked

theorem unpadPlaintext_padPlaintext {s : Units} (h : (padPlaintext s).length < 2 ^ 63) :
    unpadPlaintext (padPlaintext s) = .ok s := by
  have hs : s.length < 2 ^ 63 := by
    rw [padPlaintext_eq, List.length_append, List.length_append] at h
    omega
  have hfield := separator_not_mem_lengthDigits s.length
  rw [padPlaintext_marked hs] at h ⊢
  have hint : (Int64.ofNat s.length).toInt = s.length := Int64.toInt_ofNat_of_lt hs
  have hparsed : parsedLength (marked (lengthDigits s.length) (s ++ List.replicate (fill s) 0)) =
      some (Int64.ofNat s.length) := (parsedLength_marked hfield).trans (tryParse_lengthDigits hs)
  rw [unpadPlaintext_text take_marked h hparsed (by omega) (by
    rw [length_marked hfield, List.length_append, hint]
    push_cast
    omega), drop_start_marked hfield, hint, Int.toNat_natCast, List.drop_left, List.take_left]
  exact if_pos (List.all_eq_true.2 fun u hu => decide_eq_true (List.eq_of_mem_replicate hu))

/-- **What a padded text shows**: up to the largest bucket the least multiple of the bucket that holds header and text,
so nothing but the bucket; above it the size.  It is read back in any case. -/
theorem padPlaintext_hides {s : Units} (h : (padPlaintext s).length < 2 ^ 63) :
    unpadPlaintext (padPlaintext s) = .ok s ∧
    (total s ≤ 65536 → bucketFor (total s) ∣ utf8Length (padPlaintext s) ∧
      total s ≤ utf8Length (padPlaintext s) ∧ utf8Length (padPlaintext s) < total s + bucketFor (total s) ∧
      ∀ s', (padPlaintext s').length < 2 ^ 63 → SameBucket (total s) (total s') →
        utf8Length (padPlaintext s') = utf8Length (padPlaintext s)) ∧
    (65536 < total s → utf8Length (padPlaintext s) = total s) := by
  have hlength : ∀ s' : Units, (padPlaintext s').length < 2 ^ 63 → s'.length < 2 ^ 63 := by
    intro s' h'
    rw [padPlaintext_eq, List.length_append, List.length_append] at h'
    omega
  have hbytes := utf8Length_padPlaintext (hlength s h)
  refine ⟨unpadPlaintext_padPlaintext h, fun hsize => ?_, fun hlarge => ?_⟩
  · rw [if_pos hsize] at hbytes
    refine ⟨⟨_, hbytes.trans (Nat.mul_comm _ _)⟩, ?_, ?_, fun s' h' hsame => ?_⟩
    · rw [hbytes]
      unfold bucketFor
      split
      · omega
      · omega
    · rw [hbytes]
      unfold bucketFor
      split
      · omega
      · omega
    · have hbytes' := utf8Length_padPlaintext (hlength s' h')
      obtain ⟨hblock, hcount⟩ := hsame
      have hsize' : total s' ≤ 65536 := by
        by_contra hnot
        unfold bucketFor at hblock
        rw [if_neg (by omega : ¬ total s' ≤ 4096), if_neg hnot] at hblock
        split at hblock
        · omega
        · omega
      rw [if_pos hsize'] at hbytes'
      rw [hbytes, hbytes', hcount, hblock]
  · rw [hbytes, if_neg (by omega)]

theorem padPlaintext_hides_hi : unpadPlaintext (padPlaintext [104, 105]) = .ok [104, 105] :=
  (padPlaintext_hides (s := [104, 105]) (by decide +kernel)).1

/-- **Texts of the same bytes are padded to different sizes**, and above the largest bucket the size is no multiple of
one. -/
theorem padPlaintext_shows :
    utf8Length (List.replicate 249 97) = utf8Length (List.replicate 83 0x20AC) ∧
    utf8Length (padPlaintext (List.replicate 249 97)) = 512 ∧
    utf8Length (padPlaintext (List.replicate 83 0x20AC)) = 256 ∧
    utf8Length (padPlaintext (List.replicate 65536 97)) = 65546 := by
  refine ⟨by decide +kernel, by decide +kernel, by decide +kernel, ?_⟩
  have hlen : (List.replicate 65536 (97 : UInt16)).length = 65536 := List.length_replicate
  have hutf8 : utf8Length (List.replicate 65536 97) = 65536 := by
    have h := utf8Length_ascii_append (a := List.replicate 65536 97) (fun u hu => by
      rw [List.eq_of_mem_replicate hu]
      decide) []
    rw [List.append_nil, hlen] at h
    exact h
  have htotal : total (List.replicate 65536 97) = 65546 := by
    rw [total, hutf8, header_eq (by omega), hlen]
    decide +kernel
  rw [utf8Length_padPlaintext (by omega), htotal]
  rfl

/-! ## Canonical texts -/

/-- A marked text that unpadding neither refuses properly nor reads as what padding made: the text would end behind the
last number there is, or it is there with zeros behind it, but its field or its zeros are not what padding writes. -/
def Strays (value : Units) : Prop :=
  value.take marker.length = marker ∧ ∃ n ∈ parsedLength value, 0 ≤ n.toInt ∧
    (2 ^ 63 ≤ start value + n.toInt ∨
      start value + n.toInt ≤ value.length ∧
        ((value.drop (start value)).drop n.toInt.toNat).all (fun u => decide (u = 0)) = true ∧
        (lengthField value ≠ lengthDigits n.toInt.toNat ∨
          ((value.drop (start value)).drop n.toInt.toNat).length ≠
            fill ((value.drop (start value)).take n.toInt.toNat)))

def Proper (value : Units) : Prop :=
  value.take marker.length ≠ marker ∧ unpadPlaintext value = .ok value ∨
    (∃ s, unpadPlaintext value = .ok s ∧ value = padPlaintext s) ∨
    ∃ message, unpadPlaintext value = .error (.formatException message)

theorem separator_of_parsedLength {value : Units} {n : Int64} (h : parsedLength value = some n) :
    separator ∈ value.drop marker.length := by
  unfold parsedLength at h
  split at h
  · next hsep => exact hsep
  · cases h

theorem marked_eq_padPlaintext {field rest : Units} {k : ℕ} (hfield : separator ∉ field) (hle : k ≤ rest.length)
    (hzeros : (rest.drop k).all (fun u => decide (u = 0)) = true) (hk : k < 2 ^ 63) :
    marked field rest = padPlaintext (rest.take k) ↔
      field = lengthDigits k ∧ (rest.drop k).length = fill (rest.take k) := by
  have htake : (rest.take k).length = k := List.length_take_of_le hle
  have hpad := padPlaintext_marked (s := rest.take k) (by omega)
  rw [htake] at hpad
  rw [hpad]
  constructor
  · intro h
    have hf := congrArg lengthField h
    rw [lengthField_marked hfield, lengthField_marked (separator_not_mem_lengthDigits k)] at hf
    have hrest : (marked field rest).drop (start (marked field rest)) =
        (marked (lengthDigits k) (rest.take k ++ List.replicate (fill (rest.take k)) 0)).drop
          (start (marked (lengthDigits k) (rest.take k ++ List.replicate (fill (rest.take k)) 0))) :=
      congrArg (fun v => v.drop (start v)) h
    rw [drop_start_marked hfield, drop_start_marked (separator_not_mem_lengthDigits k)] at hrest
    have hlength := congrArg List.length hrest
    rw [List.length_append, List.length_replicate, htake] at hlength
    refine ⟨hf, ?_⟩
    rw [List.length_drop]
    omega
  · rintro ⟨hf, hlength⟩
    have hdrop : rest.drop k = List.replicate (fill (rest.take k)) 0 :=
      List.eq_replicate_iff.2 ⟨hlength, fun u hu => of_decide_eq_true (List.all_eq_true.1 hzeros u hu)⟩
    rw [hf, ← hdrop, List.take_append_drop]

/-- **Unpadding is proper exactly on the texts that do not stray.** -/
theorem unpadPlaintext_proper_iff {value : Units} (hlen : value.length < 2 ^ 63) : Proper value ↔ ¬ Strays value := by
  by_cases hmark : value.take marker.length = marker
  · cases hp : parsedLength value with
    | none =>
      refine iff_of_true (Or.inr (Or.inr ⟨_, unpadPlaintext_none hmark hp⟩)) ?_
      rintro ⟨-, n, hn, -⟩
      rw [hp] at hn
      cases hn
    | some n =>
      have hstray : Strays value ↔ 0 ≤ n.toInt ∧ (2 ^ 63 ≤ start value + n.toInt ∨
          start value + n.toInt ≤ value.length ∧
            ((value.drop (start value)).drop n.toInt.toNat).all (fun u => decide (u = 0)) = true ∧
            (lengthField value ≠ lengthDigits n.toInt.toNat ∨
              ((value.drop (start value)).drop n.toInt.toNat).length ≠
                fill ((value.drop (start value)).take n.toInt.toNat))) := by
        unfold Strays
        rw [hp]
        simp [hmark]
      rw [hstray]
      by_cases hneg : n.toInt < 0
      · exact iff_of_true (Or.inr (Or.inr ⟨_, unpadPlaintext_negative hmark hp hneg⟩)) fun h => by omega
      · have hn : 0 ≤ n.toInt := Int.not_lt.1 hneg
        obtain ⟨field, rest, hfield, rfl⟩ := exists_marked hmark (separator_of_parsedLength hp)
        have hstart : (marked field rest).length = start (marked field rest) + rest.length := length_marked hfield
        by_cases hwrap : 2 ^ 63 ≤ start (marked field rest) + n.toInt
        · -- the loop begins below zero
          have hrange := unpadPlaintext_wrapped hmark hlen hp hn (by omega) hwrap
          refine iff_of_false ?_ (not_not.2 ⟨hn, Or.inl hwrap⟩)
          rintro (⟨h, -⟩ | ⟨s, hs, -⟩ | ⟨message, hs⟩)
          · exact h hmark
          · rw [hrange] at hs
            cases hs
          · rw [hrange] at hs
            cases hs
        · by_cases hshort : (marked field rest).length < start (marked field rest) + n.toInt
          · refine iff_of_true (Or.inr (Or.inr ⟨_, unpadPlaintext_short hmark hlen hp hn (by omega) hshort⟩)) ?_
            rintro ⟨-, h | ⟨h, -⟩⟩
            · exact hwrap h
            · omega
          · have htext := unpadPlaintext_text hmark hlen hp hn (by omega)
            have hle : n.toInt.toNat ≤ rest.length := by omega
            rw [drop_start_marked hfield] at htext ⊢
            rw [lengthField_marked hfield]
            by_cases hzeros : (rest.drop n.toInt.toNat).all (fun u => decide (u = 0)) = true
            · rw [if_pos hzeros] at htext
              have hpad := marked_eq_padPlaintext hfield hle hzeros (by omega)
              constructor
              · rintro (⟨h, -⟩ | ⟨s, hs, hvalue⟩ | ⟨message, hs⟩)
                · exact absurd hmark h
                · rw [htext] at hs
                  cases hs
                  obtain ⟨hdigits, hfill⟩ := hpad.1 hvalue
                  rintro ⟨-, h | ⟨-, -, h | h⟩⟩
                  · exact hwrap h
                  · exact h hdigits
                  · exact h hfill
                · rw [htext] at hs
                  cases hs
              · intro h
                refine Or.inr (Or.inl ⟨_, htext, hpad.2 ?_⟩)
                by_contra hnot
                exact h ⟨hn, Or.inr ⟨by omega, hzeros, not_and_or.1 hnot⟩⟩
            · rw [if_neg hzeros] at htext
              refine iff_of_true (Or.inr (Or.inr ⟨_, htext⟩)) ?_
              rintro ⟨-, h | ⟨-, h, -⟩⟩
              · exact hwrap h
              · exact hzeros h
  · refine iff_of_true (Or.inl ⟨hmark, unpadPlaintext_unmarked hmark⟩) ?_
    rintro ⟨h, -⟩
    exact hmark h

/-- A padded text. -/
theorem unpadPlaintext_proper_padded :
    Proper (padPlaintext [104, 105]) ∧ ¬ Strays (padPlaintext [104, 105]) := by
  have hproper : Proper (padPlaintext [104, 105]) := .inr (.inl ⟨[104, 105], by decide +kernel, rfl⟩)
  exact ⟨hproper, (unpadPlaintext_proper_iff (by decide +kernel)).1 hproper⟩

/-- **A sign, a zero in front, hexadecimal digits and missing zeros are accepted**, and a huge number is another error.
-/
theorem unpadPlaintext_strays :
    unpadPlaintext (marked (ascii "+1".toList) [97]) = .ok [97] ∧
    unpadPlaintext (marked (ascii "01".toList) [97]) = .ok [97] ∧
    unpadPlaintext (marked (ascii "0x1".toList) [97]) = .ok [97] ∧
    unpadPlaintext (marked (ascii "1".toList) [97]) = .ok [97] ∧
    (padPlaintext [97]).length = 256 ∧
    unpadPlaintext (marked (ascii "9223372036854775807".toList) []) = .error .rangeError := by
  refine ⟨?_, ?_, ?_, ?_, ?_, ?_⟩
  all_goals decide +kernel

end PlaintextPadding
end SecureChat
