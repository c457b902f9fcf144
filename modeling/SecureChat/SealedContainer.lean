import SecureChat.MediaVault
/-!
# SealedContainer — what the container accepts

Under an ideal cipher a record opens only if it was encrypted under the key with the same nonce and the same associated
data, which name the container's header, the record's place and whether it is the last.  So the reader accepts the
containers that were made and nothing else (`container_faithful`).  A place has four bytes: of a container with more
than 2^32 records, the last one alone passes for a container (`lastRecord_accepted`).
-/
namespace SecureChat
namespace MediaVault

abbrev Entry := Bytes × Bytes × Bytes

/-- An ideal cipher opens what was encrypted, and only that. -/
structure Aead.Ideal (A : Aead) (log : List Entry) : Prop where
  opens : ∀ e ∈ log, A.decrypt e.1 e.2.1 (A.encrypt e.1 e.2.1 e.2.2).1 (A.encrypt e.1 e.2.1 e.2.2).2 = some e.2.2
  rejects : ∀ nonce aad cipherText mac plain, A.decrypt nonce aad cipherText mac = some plain →
    (nonce, aad, plain) ∈ log ∧ A.encrypt nonce aad plain = (cipherText, mac)

abbrev Content := Bytes × Bytes

def entries (baseNonce : Bytes) : List Bytes → ℕ → List Entry
  | [], _ => []
  | plain :: records, index =>
    (_nonceFor baseNonce index, _aad (_header baseNonce recordSize) index records.isEmpty, plain) ::
      entries baseNonce records (index + 1)

def log (produced : List Content) : List Entry := produced.flatMap fun c => entries c.1 (chunks recordSize c.2) 0

structure Fresh (produced : List Content) : Prop where
  length : ∀ c ∈ produced, c.1.length = 12
  unique : ∀ c ∈ produced, ∀ c' ∈ produced, c.1 = c'.1 → c = c'

def container (A : Aead) (c : Content) : Bytes := _sealBuffer A c.1 c.2

/-- The operation fails and leaves the files as they were, but for the temporary file. -/
structure Leaves (files : Files) (output suffix : String) (result : Files × Except MediaError Unit) : Prop where
  failed : ∃ e, result.2 = .error e
  temporary : result.1.get (output ++ suffix) = none
  others : ∀ path, path ≠ output ++ suffix → result.1.get path = files.get path

structure Writes (files : Files) (output suffix : String) (bytes : Bytes) (result : Files × Except MediaError Unit) : Prop where
  done : result.2 = .ok ()
  written : result.1.get output = some bytes
  temporary : result.1.get (output ++ suffix) = none
  others : ∀ path, path ≠ output → path ≠ output ++ suffix → result.1.get path = files.get path

/-- **The container is a faithful authenticated format** for what was produced under a key: the writers agree, what was
sealed opens, lengths are told apart from outside, and nothing else is accepted, by the reader or by the operations on
files that use it. -/
structure Faithful (A : Aead) (produced : List Content) : Prop where
  writers : ∀ (baseNonce : Bytes) (parts : List Bytes), ((parts.foldl (SealWriter.add A) (.new baseNonce)).close A).sink =
    _sealBuffer A baseNonce parts.flatten
  lengths : ∀ c : Content, c.1.length = 12 → plaintextLength (container A c).length recordSize = .ok c.2.length
  opens : ∀ c ∈ produced, _openBuffer A (container A c) = .ok c.2
  only : ∀ bytes plain, _openBuffer A bytes = .ok plain → ∃ c ∈ produced, bytes = container A c ∧ plain = c.2
  stored : ∀ (openRead : Bytes → List Bytes) (baseNonce : Bytes) files (sources : List String) (texts : List Bytes) output,
    (∀ bytes, (openRead bytes).flatten = bytes) → ¬ output ++ ".sealing" ∈ sources →
    sources.map files.get = texts.map some → Writes files output ".sealing" (container A (baseNonce, texts.flatten))
      (_sealPaths A openRead baseNonce files sources output false)
  opened : ∀ files source output, (∀ c ∈ produced, source ≠ output ++ ".opening" →
      files.get source = some (container A c) → Writes files output ".opening" c.2 (_openPath A files source output)) ∧
    ((∀ c ∈ produced, files.get source ≠ some (container A c)) →
      Leaves files output ".opening" (_openPath A files source output))
  resealed : ∀ (own : Aead) (baseNonce : Bytes) files source output, (∀ c ∈ produced, source ≠ output ++ ".sealing" →
      files.get source = some (container A c) →
      Writes files output ".sealing" (container own (baseNonce, c.2)) (_resealPath A own baseNonce files source output)) ∧
    ((∀ c ∈ produced, files.get source ≠ some (container A c)) →
      Leaves files output ".sealing" (_resealPath A own baseNonce files source output))
  merged : ∀ (openRead : Bytes → List Bytes) (baseNonce : Bytes) files (sources : List String) output,
    (∀ parts : List Content, (∀ c ∈ parts, c ∈ produced) → ¬ output ++ ".sealing" ∈ sources →
      sources.map files.get = parts.map (fun c => some (container A c)) →
      Writes files output ".sealing" (container A (baseNonce, (parts.map Prod.snd).flatten))
        (_sealPaths A openRead baseNonce files sources output true)) ∧
    ((∃ source ∈ sources, ∀ c ∈ produced, files.get source ≠ some (container A c)) →
      Leaves files output ".sealing" (_sealPaths A openRead baseNonce files sources output true))

section Writers

variable {A : Aead} {baseNonce : Bytes} {w : SealWriter}

theorem recordSize_pos : 0 < recordSize := by decide

def sealRecords (A : Aead) (baseNonce : Bytes) : List Bytes → ℕ → Bytes
  | [], _ => []
  | plain :: records, index =>
    A.record baseNonce index records.isEmpty plain ++ sealRecords A baseNonce records (index + 1)

def sealFull (A : Aead) (baseNonce : Bytes) : List Bytes → ℕ → Bytes
  | [], _ => []
  | plain :: records, index => A.record baseNonce index false plain ++ sealFull A baseNonce records (index + 1)

theorem sealFull_append : ∀ (front back : List Bytes) (index : ℕ), sealFull A baseNonce (front ++ back) index =
    sealFull A baseNonce front index ++ sealFull A baseNonce back (index + front.length)
  | [], back, index => rfl
  | plain :: front, back, index => by
    rw [List.cons_append, sealFull, sealFull, sealFull_append front back, List.append_assoc, List.length_cons,
      Nat.add_right_comm, Nat.add_assoc]

theorem sealRecords_eq : ∀ {records : List Bytes} (index : ℕ), records ≠ [] → sealRecords A baseNonce records index =
    sealFull A baseNonce records.dropLast index ++
      A.record baseNonce (index + (records.length - 1)) true (records.getLastD [])
  | [], _, h => absurd rfl h
  | [plain], index, _ => by
    show A.record baseNonce index true plain ++ [] = [] ++ A.record baseNonce (index + 0) true plain
    rw [List.append_nil, List.nil_append, Nat.add_zero]
  | plain :: plain' :: records, index, _ => by
    have ih : sealRecords A baseNonce (plain' :: records) (index + 1) =
        sealFull A baseNonce (plain' :: records).dropLast (index + 1) ++
          A.record baseNonce (index + 1 + ((plain' :: records).length - 1)) true ((plain' :: records).getLastD []) :=
      sealRecords_eq (index + 1) (List.cons_ne_nil _ _)
    have hindex : index + 1 + ((plain' :: records).length - 1) = index + ((plain :: plain' :: records).length - 1) := by
      simp only [List.length_cons]
      omega
    rw [hindex] at ih
    rw [sealRecords, ih, List.dropLast_cons_of_ne_nil (List.cons_ne_nil _ _), sealFull, List.append_assoc,
      getLastD_cons_of_ne_nil (List.cons_ne_nil _ _)]
    rfl

/-- `_sealBuffer` seals the chunks of its plaintext. -/
theorem sealLoop_eq (plaintext : Bytes) (offset index : ℕ) (h : offset ≤ plaintext.length) :
    sealLoop A baseNonce plaintext offset index =
      sealRecords A baseNonce (chunks recordSize (plaintext.drop offset)) index := by
  have hlength : (plaintext.drop offset).length = plaintext.length - offset := List.length_drop
  rw [sealLoop]
  split
  · rename_i hstop
    rw [hstop, List.take_length, chunks_of_le (by omega)]
    show _ = A.record baseNonce index true (plaintext.drop offset) ++ []
    rw [List.append_nil]
  · rename_i hstop
    have hmin : min (offset + recordSize) plaintext.length = offset + recordSize := by omega
    have hlong : recordSize < (plaintext.drop offset).length := by omega
    have hrecord : (plaintext.take (offset + recordSize)).drop offset = (plaintext.drop offset).take recordSize := by
      rw [List.drop_take, Nat.add_sub_cancel_left]
    rw [hmin, sealLoop_eq plaintext (offset + recordSize) (index + 1) (by omega), hrecord,
      chunks_of_lt recordSize_pos hlong, sealRecords, List.drop_drop]
    have hmore : (chunks recordSize (plaintext.drop (offset + recordSize))).isEmpty = false :=
      List.isEmpty_eq_false_iff.2 chunks_ne_nil
    rw [hmore]
termination_by plaintext.length - offset
decreasing_by
  have := recordSize_pos
  omega

theorem sealBuffer_eq (plaintext : Bytes) : _sealBuffer A baseNonce plaintext =
    _header baseNonce recordSize ++ sealRecords A baseNonce (chunks recordSize plaintext) 0 := by
  rw [_sealBuffer, sealLoop_eq plaintext 0 0 (Nat.zero_le _), List.drop_zero]

/-- A writer in the middle of a text: all chunks but the last are written, the last is in the buffer. -/
structure Holding (A : Aead) (baseNonce text : Bytes) (w : SealWriter) : Prop where
  nonce : w.baseNonce = baseNonce
  buffer : w.buffer = (chunks recordSize text).getLastD []
  index : w.index = (chunks recordSize text).length - 1
  sink : w.start.sink = _header baseNonce recordSize ++ sealFull A baseNonce (chunks recordSize text).dropLast 0

theorem new_holding : Holding A baseNonce [] (.new baseNonce) := by
  have hchunks : chunks recordSize ([] : Bytes) = [[]] := chunks_of_le (Nat.zero_le _)
  refine ⟨rfl, by rw [hchunks]; rfl, by rw [hchunks]; rfl, ?_⟩
  rw [hchunks]
  show [] ++ _header baseNonce recordSize = _header baseNonce recordSize ++ []
  rw [List.nil_append, List.append_nil]

theorem drain_spec (w : SealWriter) : (w.drain A).baseNonce = w.baseNonce ∧
    (w.drain A).buffer = (chunks recordSize w.buffer).getLastD [] ∧ (w.drain A).started = w.started ∧
    (w.drain A).index = w.index + ((chunks recordSize w.buffer).length - 1) ∧
    (w.drain A).sink = w.sink ++ sealFull A w.baseNonce (chunks recordSize w.buffer).dropLast w.index := by
  fun_induction SealWriter.drain A w with
  | case1 w h ih =>
    have hne : chunks recordSize (w.buffer.drop recordSize) ≠ [] := chunks_ne_nil
    have hpos : 0 < (chunks recordSize (w.buffer.drop recordSize)).length := List.length_pos_iff.2 hne
    obtain ⟨hnonce, hbuffer, hstarted, hindex, hsink⟩ := ih
    simp only [SealWriter._writeRecord, SealWriter.withBuffer] at hnonce hbuffer hstarted hindex hsink
    rw [chunks_of_lt recordSize_pos h, List.dropLast_cons_of_ne_nil hne, getLastD_cons_of_ne_nil hne, List.length_cons]
    refine ⟨hnonce, hbuffer, hstarted, hindex.trans (by omega), ?_⟩
    refine hsink.trans ?_
    rw [sealFull, List.append_assoc]
  | case2 w h =>
    rw [chunks_of_le (by omega)]
    exact ⟨rfl, rfl, rfl, rfl, (List.append_nil _).symm⟩

theorem drain_start (w : SealWriter) (h : w.started = true) : (w.drain A).start = w.drain A := by
  rw [SealWriter.start, if_pos ((drain_spec w).2.2.1.trans h)]

theorem start_started : w.start.started = true := by
  unfold SealWriter.start
  split
  · assumption
  · rfl

theorem Holding.add {text : Bytes} (h : Holding A baseNonce text w) (bytes : Bytes) :
    Holding A baseNonce (text ++ bytes) (w.add A bytes) := by
  obtain ⟨hnonce, hbuffer, hindex, hsink⟩ := h
  have hstart : w.start.baseNonce = w.baseNonce ∧ w.start.index = w.index := by
    unfold SealWriter.start
    split <;> exact ⟨rfl, rfl⟩
  obtain ⟨hnonce', hbuffer', -, hindex', hsink'⟩ := drain_spec (A := A) (w.start.withBuffer (w.buffer ++ bytes))
  have hne : chunks recordSize (w.buffer ++ bytes) ≠ [] := chunks_ne_nil
  have hpos : 0 < (chunks recordSize (w.buffer ++ bytes)).length := List.length_pos_iff.2 hne
  have hchunks : chunks recordSize (text ++ bytes) =
      (chunks recordSize text).dropLast ++ chunks recordSize (w.buffer ++ bytes) := by
    rw [hbuffer]
    exact chunks_append recordSize_pos text bytes
  have hfront : (chunks recordSize text).dropLast.length = (chunks recordSize text).length - 1 := List.length_dropLast
  refine ⟨hnonce'.trans (hstart.1.trans hnonce), ?_, ?_, ?_⟩
  · rw [hchunks]
    refine hbuffer'.trans ?_
    rw [List.getLastD_eq_getLast?, List.getLastD_eq_getLast?, List.getLast?_append_of_ne_nil _ hne]
    rfl
  · rw [hchunks, List.length_append, hfront]
    have hcount : (w.add A bytes).index = w.start.index + ((chunks recordSize (w.buffer ++ bytes)).length - 1) := hindex'
    omega
  · have hstarted : (w.start.withBuffer (w.buffer ++ bytes)).started = true := start_started
    rw [SealWriter.add, drain_start _ hstarted, hsink', hchunks, List.dropLast_append_of_ne_nil hne,
      sealFull_append, hfront, Nat.zero_add]
    show w.start.sink ++ sealFull A w.start.baseNonce (chunks recordSize (w.buffer ++ bytes)).dropLast w.start.index = _
    rw [hsink, hstart.1, hstart.2, hnonce, hindex, List.append_assoc]

theorem Holding.addAll : ∀ {text : Bytes} {w : SealWriter} (parts : List Bytes), Holding A baseNonce text w →
    Holding A baseNonce (text ++ parts.flatten) (parts.foldl (SealWriter.add A) w)
  | text, w, [], h => by
    rw [List.flatten_nil, List.append_nil]
    exact h
  | text, w, part :: parts, h => by
    rw [List.flatten_cons, ← List.append_assoc]
    exact (h.add part).addAll parts

theorem Holding.close {text : Bytes} (h : Holding A baseNonce text w) : (w.close A).sink = _sealBuffer A baseNonce text := by
  have hstart : w.start.baseNonce = w.baseNonce ∧ w.start.index = w.index := by
    unfold SealWriter.start
    split <;> exact ⟨rfl, rfl⟩
  rw [sealBuffer_eq, sealRecords_eq 0 chunks_ne_nil, ← List.append_assoc, ← h.sink, Nat.zero_add, ← h.index, ← h.buffer,
    ← h.nonce]
  show w.start.sink ++ A.record w.start.baseNonce w.start.index true w.buffer = _
  rw [hstart.1, hstart.2]

theorem writers_agree (baseNonce : Bytes) (parts : List Bytes) :
    ((parts.foldl (SealWriter.add A) (.new baseNonce)).close A).sink = _sealBuffer A baseNonce parts.flatten :=
  (new_holding.addAll parts).close

end Writers

section Reader

variable {A : Aead} {baseNonce : Bytes} {produced : List Content} {σ : Type} {emit : σ → Bytes → σ}

theorem length_record (index : ℕ) (last : Bool) (plain : Bytes) :
    (A.record baseNonce index last plain).length = plain.length + tagLength := by
  rw [Aead.record, List.length_append, A.length_cipherText, A.length_mac]

theorem length_sealRecords : ∀ (records : List Bytes) (index : ℕ),
    (sealRecords A baseNonce records index).length = records.flatten.length + tagLength * records.length
  | [], _ => rfl
  | plain :: records, index => by
    rw [sealRecords, List.length_append, length_record, length_sealRecords records, List.flatten_cons, List.length_append,
      List.length_cons, Nat.mul_succ]
    omega

theorem length_header (h : baseNonce.length = 12) (record : ℕ) : (_header baseNonce record).length = headerLength := by
  rw [_header, List.length_append, List.length_append, BigEndian.length_bytes, h]
  rfl

theorem lengths_told (c : Content) (h : c.1.length = 12) :
    plaintextLength (container A c).length recordSize = .ok (c.2.length : ℤ) := by
  have hlength : (container A c).length =
      headerLength + (c.2.length + tagLength * (chunks recordSize c.2).length) := by
    rw [container, sealBuffer_eq, List.length_append, length_header h, length_sealRecords, flatten_chunks]
  obtain ⟨hupper, hlower⟩ := length_chunks recordSize_pos c.2
  have hpos : 0 < (chunks recordSize c.2).length := List.length_pos_iff.2 chunks_ne_nil
  rw [plaintextLength, hlength]
  unfold headerLength tagLength recordSize at *
  dsimp only
  rw [if_neg (by omega)]
  congr 1
  omega

theorem mem_entries : ∀ {records : List Bytes} {index : ℕ} {e : Entry}, e ∈ entries baseNonce records index ↔
    ∃ k plain later, records.drop k = plain :: later ∧
      e = (_nonceFor baseNonce (index + k), _aad (_header baseNonce recordSize) (index + k) later.isEmpty, plain)
  | [], index, e => by
    refine ⟨nofun, ?_⟩
    rintro ⟨k, plain, later, h, -⟩
    rw [List.drop_nil] at h
    cases h
  | plain :: records, index, e => by
    rw [entries, List.mem_cons, mem_entries]
    constructor
    · rintro (rfl | ⟨k, plain', later, hdrop, rfl⟩)
      · exact ⟨0, plain, records, rfl, rfl⟩
      · exact ⟨k + 1, plain', later, hdrop, by rw [Nat.add_right_comm, Nat.add_assoc]⟩
    · rintro ⟨k, plain', later, hdrop, rfl⟩
      cases k with
      | zero =>
        cases hdrop
        exact .inl rfl
      | succ k => exact .inr ⟨k, plain', later, hdrop, by rw [Nat.add_right_comm, Nat.add_assoc]⟩

theorem aad_inj {header header' : Bytes} {i j : ℕ} {last last' : Bool} (hlength : header.length = header'.length)
    (h : _aad header i last = _aad header' j last') : header = header' ∧ i % 2 ^ 32 = j % 2 ^ 32 ∧ last = last' := by
  unfold _aad at h
  rw [List.append_assoc, List.append_assoc] at h
  obtain ⟨hheader, hrest⟩ := List.append_inj h hlength
  obtain ⟨hindex, hflag⟩ := List.append_inj hrest (by rw [BigEndian.length_bytes, BigEndian.length_bytes])
  refine ⟨hheader, ?_, ?_⟩
  · have hvalue := congrArg BigEndian.value hindex
    rw [BigEndian.value_bytes_mod, BigEndian.value_bytes_mod] at hvalue
    exact hvalue
  · cases last <;> cases last' <;> simp_all

theorem header_inj {baseNonce' : Bytes} (h : baseNonce.length = 12) (h' : baseNonce'.length = 12)
    (he : _header baseNonce recordSize = _header baseNonce' recordSize) : baseNonce = baseNonce' := by
  unfold _header at he
  rw [List.append_assoc, List.append_assoc] at he
  exact (List.append_inj (List.append_cancel_left he) (h.trans h'.symm)).1

theorem count_le (hshort : ∀ c ∈ produced, c.2.length ≤ 2 ^ 32 * recordSize) {c : Content} (hc : c ∈ produced) :
    (chunks recordSize c.2).length ≤ 2 ^ 32 := by
  have hlength := hshort c hc
  rcases (length_chunks recordSize_pos c.2).2 with hone | hmore
  · rw [hone]
    exact Nat.one_le_two_pow
  · have hlt := Nat.lt_of_mul_lt_mul_right (hmore.trans_le hlength)
    omega

/-- **An entry has one place**: what was encrypted for a place of a container is the record there. -/
theorem entry_unique (hfresh : Fresh produced) (hshort : ∀ c ∈ produced, c.2.length ≤ 2 ^ 32 * recordSize) {c : Content}
    (hc : c ∈ produced) {nonce plain : Bytes} {index : ℕ} {last : Bool} (hindex : index < (chunks recordSize c.2).length)
    (h : (nonce, _aad (_header c.1 recordSize) index last, plain) ∈ log produced) :
    ∃ later, (chunks recordSize c.2).drop index = plain :: later ∧ last = later.isEmpty := by
  obtain ⟨c', hc', hentry⟩ := List.mem_flatMap.1 h
  obtain ⟨k, plain', later, hdrop, he⟩ := mem_entries.1 hentry
  obtain ⟨-, he⟩ := Prod.mk.inj he
  obtain ⟨haad, rfl⟩ := Prod.mk.inj he
  have hlength : (_header c.1 recordSize).length = (_header c'.1 recordSize).length := by
    rw [length_header (hfresh.length c hc), length_header (hfresh.length c' hc')]
  obtain ⟨hheader, hplace, hlast⟩ := aad_inj hlength haad
  obtain rfl : c = c' :=
    hfresh.unique c hc c' hc' (header_inj (hfresh.length c hc) (hfresh.length c' hc') hheader)
  have hk : k < (chunks recordSize c.2).length := by
    by_contra hout
    rw [List.drop_eq_nil_of_le (by omega)] at hdrop
    cases hdrop
  have hcount := count_le hshort hc
  obtain rfl : index = k := by
    rw [Nat.zero_add, Nat.mod_eq_of_lt (hindex.trans_le hcount), Nat.mod_eq_of_lt (hk.trans_le hcount)] at hplace
    exact hplace
  exact ⟨later, hdrop, hlast⟩

theorem parseRecords_record {header rest : Bytes} {total offset index : ℕ} {sawLast : Bool} {out : σ} {plain later : Bytes}
    {last : Bool} (hrest : rest = A.record baseNonce index last plain ++ later) (hplain : plain.length ≤ recordSize)
    (hlater : later = [] ∨ plain.length = recordSize) (hlast : last = later.isEmpty)
    (htotal : total = offset + rest.length) (hheader : header = _header baseNonce recordSize)
    (hopens : A.decrypt (_nonceFor baseNonce index) (_aad header index last)
        (A.encrypt (_nonceFor baseNonce index) (_aad header index last) plain).1
        (A.encrypt (_nonceFor baseNonce index) (_aad header index last) plain).2 = some plain) :
    parseRecords A header baseNonce recordSize total emit rest offset index sawLast out =
      parseRecords A header baseNonce recordSize total emit later (offset + (plain.length + tagLength)) (index + 1) last
        (emit out plain) := by
  have hrecord : (A.record baseNonce index last plain).length = plain.length + tagLength := length_record index last plain
  have hlength : rest.length = plain.length + tagLength + later.length := by rw [hrest, List.length_append, hrecord]
  have htag : tagLength = 16 := rfl
  have hempty : later = [] ↔ later.length = 0 := List.length_eq_zero_iff.symm
  have hmin : min (total - offset) (recordSize + tagLength) = plain.length + tagLength := by
    rcases hlater with rfl | hfull
    · rw [List.length_nil] at hlength
      omega
    · omega
  have hbytes : rest.take (plain.length + tagLength) = A.record baseNonce index last plain := by
    rw [hrest, List.take_left' hrecord]
  have hdrop : rest.drop (plain.length + tagLength) = later := by rw [hrest, List.drop_left' hrecord]
  have hwhole : decide (offset + (plain.length + tagLength) = total) = last := by
    rw [hlast, Bool.eq_iff_iff, decide_eq_true_eq, List.isEmpty_iff, hempty]
    omega
  have hcipher : (A.record baseNonce index last plain).take (plain.length + tagLength - tagLength) =
      (A.encrypt (_nonceFor baseNonce index) (_aad header index last) plain).1 := by
    rw [Nat.add_sub_cancel, Aead.record, hheader]
    exact List.take_left' (A.length_cipherText _ _ _)
  have hmac : (A.record baseNonce index last plain).drop (plain.length + tagLength - tagLength) =
      (A.encrypt (_nonceFor baseNonce index) (_aad header index last) plain).2 := by
    rw [Nat.add_sub_cancel, Aead.record, hheader]
    exact List.drop_left' (A.length_cipherText _ _ _)
  rw [parseRecords, if_pos (by omega)]
  simp only [hmin, hbytes, hrecord, hwhole, hcipher, hmac, hopens, hdrop]
  rw [if_neg (by omega), if_neg (not_not.2 rfl)]

theorem parseRecords_complete : ∀ {records : List Bytes} {offset index : ℕ} {sawLast : Bool} {out : σ}, records ≠ [] →
    (∀ c ∈ records.dropLast, c.length = recordSize) → (records.getLastD []).length ≤ recordSize →
    (∀ e ∈ entries baseNonce records index,
      A.decrypt e.1 e.2.1 (A.encrypt e.1 e.2.1 e.2.2).1 (A.encrypt e.1 e.2.1 e.2.2).2 = some e.2.2) →
    parseRecords A (_header baseNonce recordSize) baseNonce recordSize
      (offset + (sealRecords A baseNonce records index).length) emit (sealRecords A baseNonce records index) offset index
      sawLast out = .ok (records.foldl emit out)
  | [], _, _, _, _, h, _, _, _ => absurd rfl h
  | [plain], offset, index, sawLast, out, _, _, hlast, hopens => by
    have hseal : sealRecords A baseNonce [plain] index = A.record baseNonce index true plain ++ [] := rfl
    have hplain : plain.length ≤ recordSize := hlast
    rw [parseRecords_record hseal hplain (.inl rfl) rfl rfl rfl (hopens _ List.mem_cons_self)]
    have hlength : (sealRecords A baseNonce [plain] index).length = plain.length + tagLength := by
      rw [length_sealRecords, List.flatten_singleton, List.length_singleton, Nat.mul_one]
    rw [parseRecords, hlength, if_neg (lt_irrefl _)]
    rfl
  | plain :: plain' :: records, offset, index, sawLast, out, _, hfull, hlast, hopens => by
    have hne : plain' :: records ≠ [] := List.cons_ne_nil _ _
    rw [List.dropLast_cons_of_ne_nil hne] at hfull
    rw [getLastD_cons_of_ne_nil hne] at hlast
    have hplain : plain.length = recordSize := hfull plain List.mem_cons_self
    have hlater : (sealRecords A baseNonce (plain' :: records) (index + 1)).isEmpty = false := by
      rw [← Bool.not_eq_true, List.isEmpty_iff, ← List.length_eq_zero_iff, length_sealRecords, List.length_cons, tagLength]
      omega
    have hseal : sealRecords A baseNonce (plain :: plain' :: records) index =
        A.record baseNonce index false plain ++ sealRecords A baseNonce (plain' :: records) (index + 1) := rfl
    rw [parseRecords_record hseal hplain.le (.inr hplain) hlater.symm rfl rfl (hopens _ List.mem_cons_self), hseal,
      List.length_append, length_record, ← Nat.add_assoc]
    exact parseRecords_complete hne (fun c hc => hfull c (List.mem_cons_of_mem _ hc)) hlast
      fun e he => hopens e (List.mem_cons_of_mem _ he)

/-- **Nothing else is read**: what is accepted as the records of a container from one of its places on are its records
there. -/
theorem parseRecords_sound (hideal : A.Ideal (log produced)) (hfresh : Fresh produced)
    (hshort : ∀ c ∈ produced, c.2.length ≤ 2 ^ 32 * recordSize) {c : Content} (hc : c ∈ produced) {total : ℕ} {t : σ}
    {records : List Bytes} {rest : Bytes} {offset index : ℕ} {out : σ}
    (hrecords : (chunks recordSize c.2).drop index = records) (hindex : index < (chunks recordSize c.2).length)
    (hrest : rest.length = total - offset)
    (h : parseRecords A (_header c.1 recordSize) c.1 recordSize total emit rest offset index false out = .ok t) :
    rest = sealRecords A c.1 records index ∧ t = records.foldl emit out := by
  induction records generalizing rest offset index out with
  | nil => exact absurd (List.drop_eq_nil_iff.1 hrecords) (by omega)
  | cons plain later ih =>
    rw [parseRecords] at h
    split at h
    · rename_i hmore
      dsimp only at h
      split at h
      · cases h
      · rename_i hlong
        split at h
        · cases h
        · split at h
          · cases h
          · rename_i hfull plain' hdecrypt
            obtain ⟨hentry, hencrypt⟩ := hideal.rejects _ _ _ _ _ hdecrypt
            obtain ⟨later', hdrop, hlast⟩ := entry_unique hfresh hshort hc hindex hentry
            obtain ⟨rfl, rfl⟩ := List.cons.inj (hdrop.symm.trans hrecords)
            have hrecord : A.record c.1 index (decide (offset + min (total - offset) (recordSize + tagLength) = total))
                plain' = rest.take (min (total - offset) (recordSize + tagLength)) := by
              rw [Aead.record, hencrypt]
              exact List.take_append_drop _ _
            rw [hlast] at hrecord
            rw [sealRecords, hrecord, List.foldl_cons]
            by_cases hend : offset + min (total - offset) (recordSize + tagLength) = total
            · rw [decide_eq_true hend] at h hlast
              have hlater : later' = [] := List.isEmpty_iff.1 hlast.symm
              rw [parseRecords, if_neg (by omega), if_pos rfl] at h
              rw [hlater, List.take_of_length_le (by omega)]
              exact ⟨(List.append_nil _).symm, (Except.ok.inj h).symm⟩
            · rw [decide_eq_false hend] at h hlast
              have hlater : (chunks recordSize c.2).drop (index + 1) = later' := by
                rw [← List.drop_drop, hdrop]
                rfl
              have hindex' : index + 1 < (chunks recordSize c.2).length := by
                by_contra hout
                rw [List.drop_eq_nil_of_le (by omega)] at hlater
                rw [← hlater] at hlast
                cases hlast
              obtain ⟨hrest', ht⟩ := ih hlater hindex' (by rw [List.length_drop]; omega) h
              rw [← hrest']
              exact ⟨(List.take_append_drop _ _).symm, ht⟩
    · cases h

theorem header_fields (h : baseNonce.length = 12) : (_header baseNonce recordSize).take 8 = _magic ∧
    ((_header baseNonce recordSize).drop 8).take 12 = baseNonce ∧
    BigEndian.value ((_header baseNonce recordSize).drop 20) = recordSize := by
  have hmagic : _magic.length = 8 := rfl
  have hboth : (_magic ++ baseNonce).length = 20 := by rw [List.length_append, hmagic, h]
  refine ⟨?_, ?_, ?_⟩
  · rw [_header, List.append_assoc, List.take_left' hmagic]
  · rw [_header, List.append_assoc, List.drop_left' hmagic, List.take_left' h]
  · rw [_header, List.drop_left' hboth]
    exact BigEndian.value_bytes (by decide)

theorem parseRecords_first (hideal : A.Ideal (log produced)) {header rest : Bytes} {record total offset : ℕ} {out t : σ}
    (h : parseRecords A header baseNonce record total emit rest offset 0 false out = .ok t) :
    ∃ nonce last plain, (nonce, _aad header 0 last, plain) ∈ log produced := by
  rw [parseRecords] at h
  split at h
  · dsimp only at h
    split at h
    · cases h
    · split at h
      · cases h
      · split at h
        · cases h
        · rename_i plain hdecrypt
          exact ⟨_, _, plain, (hideal.rejects _ _ _ _ _ hdecrypt).1⟩
  · cases h

theorem parseSealed_container {c : Content} (h : c.1.length = 12) {out : σ}
    (hopens : ∀ e ∈ entries c.1 (chunks recordSize c.2) 0,
      A.decrypt e.1 e.2.1 (A.encrypt e.1 e.2.1 e.2.2).1 (A.encrypt e.1 e.2.1 e.2.2).2 = some e.2.2) :
    _parseSealed A (container A c) emit out = .ok ((chunks recordSize c.2).foldl emit out) := by
  have hlength : (_header c.1 recordSize).length = headerLength := length_header h _
  obtain ⟨hmagic, hnonce, hrecord⟩ := header_fields h
  obtain ⟨hfull, hlast⟩ := length_of_mem_chunks recordSize_pos c.2
  rw [_parseSealed, container, sealBuffer_eq, List.take_left' hlength, List.drop_left' hlength]
  simp only [hlength, hmagic, hnonce, hrecord, List.length_append]
  rw [if_neg (not_not.2 rfl), if_neg (not_not.2 rfl), if_neg (by decide)]
  exact parseRecords_complete chunks_ne_nil hfull hlast hopens

/-- **What the reader accepts**: a container that was produced, whose records it hands on in their order. -/
theorem parseSealed_ok_iff (hideal : A.Ideal (log produced)) (hfresh : Fresh produced)
    (hshort : ∀ c ∈ produced, c.2.length ≤ 2 ^ 32 * recordSize) {bytes : Bytes} {out t : σ} :
    _parseSealed A bytes emit out = .ok t ↔
      ∃ c ∈ produced, bytes = container A c ∧ t = (chunks recordSize c.2).foldl emit out := by
  constructor
  · intro h
    rw [_parseSealed] at h
    split at h
    · cases h
    · rename_i hlength
      split at h
      · cases h
      · dsimp only at h
        split at h
        · cases h
        · have hlength : (bytes.take headerLength).length = headerLength := not_not.1 hlength
          obtain ⟨nonce, last, plain, hentry⟩ := parseRecords_first hideal h
          obtain ⟨c, hc, hentry⟩ := List.mem_flatMap.1 hentry
          obtain ⟨k, plain', later, -, he⟩ := mem_entries.1 hentry
          have hheader : bytes.take headerLength = _header c.1 recordSize :=
            (aad_inj (hlength.trans (length_header (hfresh.length c hc) _).symm) (Prod.mk.inj (Prod.mk.inj he).2).1).1
          obtain ⟨-, hnonce, hrecord⟩ := header_fields (hfresh.length c hc)
          rw [hheader, hnonce, hrecord] at h
          have hcount : 0 < (chunks recordSize c.2).length := List.length_pos_iff.2 chunks_ne_nil
          obtain ⟨hrest, ht⟩ := parseRecords_sound hideal hfresh hshort hc (List.drop_zero) hcount List.length_drop h
          refine ⟨c, hc, ?_, ht⟩
          rw [container, sealBuffer_eq, ← hrest, ← hheader, List.take_append_drop]
  · rintro ⟨c, hc, rfl, rfl⟩
    exact parseSealed_container (hfresh.length c hc) fun e he => hideal.opens e (List.mem_flatMap.2 ⟨c, hc, he⟩)

end Reader

section Operations

variable {A : Aead} {produced : List Content} {files : Files} {source output suffix : String} {σ : Type}

theorem output_ne (output : String) (h : 0 < suffix.length) : output ≠ output ++ suffix := by
  intro he
  have hlength := congrArg String.length he
  rw [String.length_append] at hlength
  omega

theorem writeBeside_writes {write : Files → Except MediaError Bytes} {bytes : Bytes} (hsuffix : 0 < suffix.length)
    (h : write (files.put (output ++ suffix) []) = .ok bytes) :
    Writes files output suffix bytes (writeBeside files output suffix write) := by
  have hne := output_ne output hsuffix
  have hresult : writeBeside files output suffix write =
      (((files.put (output ++ suffix) []).remove (output ++ suffix)).put output bytes, .ok ()) := by
    rw [writeBeside]
    simp only [h]
  rw [hresult]
  refine ⟨rfl, Table.get_put_self, ?_, fun path hpath htemporary => ?_⟩
  · exact (Table.get_put_of_ne hne.symm).trans Table.get_remove_self
  · exact ((Table.get_put_of_ne hpath).trans (Table.get_remove_of_ne htemporary)).trans (Table.get_put_of_ne htemporary)

theorem writeBeside_leaves {write : Files → Except MediaError Bytes}
    (h : ∃ e, write (files.put (output ++ suffix) []) = .error e) :
    Leaves files output suffix (writeBeside files output suffix write) := by
  obtain ⟨e, h⟩ := h
  have hresult : writeBeside files output suffix write =
      ((files.put (output ++ suffix) []).remove (output ++ suffix), .error e) := by
    rw [writeBeside]
    simp only [h]
  rw [hresult]
  refine ⟨⟨e, rfl⟩, Table.get_remove_self, fun path hpath => ?_⟩
  exact (Table.get_remove_of_ne hpath).trans (Table.get_put_of_ne hpath)

theorem addSources_plain {openRead : Bytes → List Bytes} (hread : ∀ bytes, (openRead bytes).flatten = bytes)
    {baseNonce : Bytes} {temporary : String} : ∀ {texts : List Bytes} {sources : List String} {text : Bytes} {w : SealWriter},
      ¬ temporary ∈ sources → sources.map files.get = texts.map some → Holding A baseNonce text w →
      ∃ w', addSources A openRead (files.put temporary []) false sources w = .ok w' ∧
        Holding A baseNonce (text ++ texts.flatten) w'
  | [], [], text, w, _, _, h => by
    refine ⟨w, rfl, ?_⟩
    rw [List.flatten_nil, List.append_nil]
    exact h
  | [], _ :: _, _, _, _, hget, _ => nomatch hget
  | _ :: _, [], _, _, _, hget, _ => nomatch hget
  | bytes :: texts, source :: sources, text, w, hout, hget, h => by
    obtain ⟨hsource, hrest⟩ := List.cons.inj hget
    have hsource : files.get source = some bytes := hsource
    rw [List.mem_cons, not_or] at hout
    have hadded := h.addAll (openRead bytes)
    rw [hread] at hadded
    obtain ⟨w', hw', hholding⟩ := addSources_plain hread hout.2 hrest hadded
    refine ⟨w', ?_, ?_⟩
    · rw [addSources, if_neg Bool.false_ne_true, Table.get_put_of_ne (Ne.symm hout.1), hsource]
      exact hw'
    · rw [List.flatten_cons, ← List.append_assoc]
      exact hholding

variable (hideal : A.Ideal (log produced)) (hfresh : Fresh produced)
  (hshort : ∀ c ∈ produced, c.2.length ≤ 2 ^ 32 * recordSize)

include hideal hfresh hshort

theorem readSealed_ok (emit : σ → Bytes → σ) (out : σ) {c : Content} {temporary : String} (hc : c ∈ produced) (hsource : source ≠ temporary)
    (hget : files.get source = some (container A c)) :
    _readSealed A (files.put temporary []) source emit out = .ok ((chunks recordSize c.2).foldl emit out) := by
  rw [_readSealed, Table.get_put_of_ne hsource, hget]
  exact (parseSealed_ok_iff hideal hfresh hshort).2 ⟨c, hc, rfl, rfl⟩

theorem readSealed_error (emit : σ → Bytes → σ) (out : σ) (temporary : String) (hget : ∀ c ∈ produced, files.get source ≠ some (container A c)) :
    ∃ e, _readSealed A (files.put temporary []) source emit out = .error e := by
  rw [_readSealed]
  split
  · exact ⟨_, rfl⟩
  · rename_i bytes hbytes
    cases hparse : _parseSealed A bytes emit out with
    | error e => exact ⟨e, rfl⟩
    | ok t =>
      obtain ⟨c, hc, hcontainer, -⟩ := (parseSealed_ok_iff hideal hfresh hshort).1 hparse
      by_cases hsource : source = temporary
      · rw [hsource] at hbytes
        cases Table.get_put_self.symm.trans hbytes
        have hlength := congrArg List.length hcontainer
        rw [container, sealBuffer_eq, List.length_append, length_header (hfresh.length c hc)] at hlength
        exact absurd hlength (by rw [List.length_nil, headerLength]; omega)
      · rw [Table.get_put_of_ne hsource] at hbytes
        exact absurd (hcontainer ▸ hbytes) (hget c hc)

theorem opened_files (files : Files) (source output : String) : (∀ c ∈ produced, source ≠ output ++ ".opening" →
      files.get source = some (container A c) → Writes files output ".opening" c.2 (_openPath A files source output)) ∧
    ((∀ c ∈ produced, files.get source ≠ some (container A c)) →
      Leaves files output ".opening" (_openPath A files source output)) := by
  refine ⟨fun c hc hsource hget => writeBeside_writes (by decide) ?_, fun hget => writeBeside_leaves ?_⟩
  · rw [readSealed_ok hideal hfresh hshort _ _ hc hsource hget, foldl_chunks]
  · exact readSealed_error hideal hfresh hshort _ _ _ hget

theorem resealed_files (own : Aead) (baseNonce : Bytes) (files : Files) (source output : String) :
    (∀ c ∈ produced, source ≠ output ++ ".sealing" → files.get source = some (container A c) →
      Writes files output ".sealing" (container own (baseNonce, c.2)) (_resealPath A own baseNonce files source output)) ∧
    ((∀ c ∈ produced, files.get source ≠ some (container A c)) →
      Leaves files output ".sealing" (_resealPath A own baseNonce files source output)) := by
  refine ⟨fun c hc hsource hget => writeBeside_writes (by decide) ?_, fun hget => writeBeside_leaves ?_⟩
  · rw [readSealed_ok hideal hfresh hshort _ _ hc hsource hget, Except.map, writers_agree, flatten_chunks]
    rfl
  · obtain ⟨e, he⟩ := readSealed_error hideal hfresh hshort _ _ _ hget
    rw [he]
    exact ⟨e, rfl⟩

theorem addSources_ok (openRead : Bytes → List Bytes) {baseNonce : Bytes} {temporary : String} :
    ∀ {parts : List Content} {sources : List String} {text : Bytes} {w : SealWriter}, (∀ c ∈ parts, c ∈ produced) →
      ¬ temporary ∈ sources → sources.map files.get = parts.map (fun c => some (container A c)) →
      Holding A baseNonce text w → ∃ w', addSources A openRead (files.put temporary []) true sources w = .ok w' ∧
        Holding A baseNonce (text ++ (parts.map Prod.snd).flatten) w'
  | [], [], text, w, _, _, _, h => by
    refine ⟨w, rfl, ?_⟩
    rw [List.map_nil, List.flatten_nil, List.append_nil]
    exact h
  | [], _ :: _, _, _, _, _, hget, _ => nomatch hget
  | _ :: _, [], _, _, _, _, hget, _ => nomatch hget
  | c :: parts, source :: sources, text, w, hparts, hout, hget, h => by
    obtain ⟨hsource, hrest⟩ := List.cons.inj hget
    rw [List.mem_cons, not_or] at hout
    have hread := readSealed_ok hideal hfresh hshort (SealWriter.add A) w (hparts c List.mem_cons_self)
      (Ne.symm hout.1) hsource
    have hadded := h.addAll (chunks recordSize c.2)
    rw [flatten_chunks] at hadded
    obtain ⟨w', hw', hholding⟩ :=
      addSources_ok openRead (fun c hc => hparts c (List.mem_cons_of_mem _ hc)) hout.2 hrest hadded
    refine ⟨w', ?_, ?_⟩
    · rw [addSources, if_pos rfl, hread]
      exact hw'
    · rw [List.map_cons, List.flatten_cons, ← List.append_assoc]
      exact hholding

theorem addSources_error (openRead : Bytes → List Bytes) {temporary : String} :
    ∀ {sources : List String} {w : SealWriter}, (∃ source ∈ sources, ∀ c ∈ produced, files.get source ≠ some (container A c)) →
      ∃ e, addSources A openRead (files.put temporary []) true sources w = .error e
  | [], _, h => by
    obtain ⟨_, hsource, -⟩ := h
    cases hsource
  | source :: sources, w, h => by
    rw [addSources, if_pos rfl]
    cases hread : _readSealed A (files.put temporary []) source (SealWriter.add A) w with
    | error e => exact ⟨e, rfl⟩
    | ok w' =>
      obtain ⟨bad, hbad, hget⟩ := h
      rcases List.mem_cons.1 hbad with rfl | hlater
      · obtain ⟨e, he⟩ := readSealed_error hideal hfresh hshort (SealWriter.add A) w temporary hget
        cases hread.symm.trans he
      · exact addSources_error openRead ⟨bad, hlater, hget⟩

theorem merged_files (openRead : Bytes → List Bytes) (baseNonce : Bytes) (files : Files) (sources : List String)
    (output : String) : (∀ parts : List Content, (∀ c ∈ parts, c ∈ produced) → ¬ output ++ ".sealing" ∈ sources →
      sources.map files.get = parts.map (fun c => some (container A c)) →
      Writes files output ".sealing" (container A (baseNonce, (parts.map Prod.snd).flatten))
        (_sealPaths A openRead baseNonce files sources output true)) ∧
    ((∃ source ∈ sources, ∀ c ∈ produced, files.get source ≠ some (container A c)) →
      Leaves files output ".sealing" (_sealPaths A openRead baseNonce files sources output true)) := by
  refine ⟨fun parts hparts hout hget => writeBeside_writes (by decide) ?_, fun hbad => writeBeside_leaves ?_⟩
  · obtain ⟨w, hw, hholding⟩ := addSources_ok hideal hfresh hshort openRead hparts hout hget new_holding
    rw [hw, Except.map, hholding.close, List.nil_append]
    rfl
  · obtain ⟨e, he⟩ := addSources_error hideal hfresh hshort openRead hbad
    rw [he]
    exact ⟨e, rfl⟩

/-- **The container is faithful**, under an ideal cipher and fresh base nonces, for plaintexts of at most 2^32 records. -/
theorem container_faithful : Faithful A produced where
  writers baseNonce parts := writers_agree baseNonce parts
  lengths c h := lengths_told c h
  opens c hc := by
    rw [_openBuffer, (parseSealed_ok_iff hideal hfresh hshort).2 ⟨c, hc, rfl, rfl⟩, foldl_chunks]
  only bytes plain h := by
    obtain ⟨c, hc, hbytes, hplain⟩ := (parseSealed_ok_iff hideal hfresh hshort).1 h
    refine ⟨c, hc, hbytes, hplain.trans ?_⟩
    rw [foldl_chunks]
  stored openRead baseNonce files sources texts output hread hout hget := by
    obtain ⟨w, hw, hholding⟩ := addSources_plain hread hout hget new_holding
    refine writeBeside_writes (by decide) ?_
    rw [hw, Except.map, hholding.close, List.nil_append]
    rfl
  opened files source output := opened_files hideal hfresh hshort files source output
  resealed own baseNonce files source output := resealed_files hideal hfresh hshort own baseNonce files source output
  merged openRead baseNonce files sources output :=
    merged_files hideal hfresh hshort openRead baseNonce files sources output

end Operations

section Sample

def idealCipher (log : List Entry) : Aead where
  encrypt _ _ plain := (plain, List.replicate tagLength 0)
  decrypt nonce aad cipherText mac :=
    if mac = List.replicate tagLength 0 ∧ (nonce, aad, cipherText) ∈ log then some cipherText else none
  length_cipherText _ _ _ := rfl
  length_mac _ _ _ := List.length_replicate

theorem idealCipher_ideal (log : List Entry) : (idealCipher log).Ideal log := by
  refine ⟨fun e he => if_pos ⟨rfl, he⟩, fun nonce aad cipherText mac plain h => ?_⟩
  have hguard : (if mac = List.replicate tagLength 0 ∧ (nonce, aad, cipherText) ∈ log then some cipherText else none) =
      some plain := h
  split at hguard
  · rename_i hlog
    cases hguard
    exact ⟨hlog.2, by rw [hlog.1]; rfl⟩
  · cases hguard

def twoFiles : List Content := [(List.replicate 12 7, [104, 105]), (List.replicate 12 8, [])]

theorem faithful_twoFiles : Faithful (idealCipher (log twoFiles)) twoFiles :=
  container_faithful (idealCipher_ideal _) ⟨by decide, by decide⟩ (by decide)

def oneTooMany : Content := (List.replicate 12 0, List.replicate (2 ^ 32 * recordSize) 0 ++ [1])

theorem oneTooMany_chunks : (chunks recordSize oneTooMany.2).drop (2 ^ 32) = [[1]] :=
  drop_chunks_append recordSize_pos List.length_replicate (Nat.two_pow_pos 32) Nat.zero_lt_one recordSize_pos

/-- **The last of too many records passes for a container**: its place is written like the first one's. -/
theorem lastRecord_accepted :
    ¬ ∀ (A : Aead) (produced : List Content), A.Ideal (log produced) → Fresh produced → Faithful A produced := by
  intro h
  have hfaithful : Faithful (idealCipher (log [oneTooMany])) [oneTooMany] := by
    refine h _ _ (idealCipher_ideal _) ⟨?_, ?_⟩
    · intro c hc
      rw [List.mem_singleton.1 hc]
      rfl
    · intro c hc c' hc' _
      rw [List.mem_singleton.1 hc, List.mem_singleton.1 hc']
  have hchunks : chunks recordSize ([1] : Bytes) = [[1]] := chunks_of_le (by decide)
  have hentry : ∀ e ∈ entries oneTooMany.1 (chunks recordSize [1]) 0, e ∈ log [oneTooMany] := by
    intro e he
    rw [hchunks] at he
    rw [List.mem_singleton.1 he, log, List.flatMap_singleton]
    exact mem_entries.2 ⟨2 ^ 32, [1], [], oneTooMany_chunks, rfl⟩
  have hopens : _openBuffer (idealCipher (log [oneTooMany])) (container (idealCipher (log [oneTooMany]))
      (oneTooMany.1, [1])) = .ok [1] := by
    rw [_openBuffer, parseSealed_container rfl fun e he => (idealCipher_ideal _).opens e (hentry e he), foldl_chunks]
  obtain ⟨c, hc, -, hplain⟩ := hfaithful.only _ _ hopens
  rw [List.mem_singleton.1 hc] at hplain
  have hlength := congrArg List.length hplain
  rw [oneTooMany, List.length_append, List.length_replicate] at hlength
  exact absurd hlength (by decide)

end Sample

end MediaVault
end SecureChat
