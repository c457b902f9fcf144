import SecureChat.SealedContainer
import SecureChat.Utf16
/-!
# BackupCrypto — the container of a backup

A new backup is a header with the parameters of Argon2id, a salt, a nonce, the ciphertext and its tag; header and salt
are the associated data.  A legacy one has no header, PBKDF2 and no associated data.  Both are opened by one function,
which takes a legacy file for a new one if its salt begins that way, and tries the legacy format when that fails.

Ciphers and key derivations are parameters.  Of an ideal one (`Made`) the container is sound (`sound`): whatever was
made opens, nothing else does, and nothing is thrown.  Passwords are told apart by their characters, so half of a
surrogate pair is as good as another (`surrogates_open`).
-/
namespace SecureChat
namespace BackupCrypto

open MediaVault (Aead Bytes Entry idealCipher idealCipher_ideal)
open PlaintextPadding (Units)
open Utf16 (scalars utf8Encode)

/-- What is thrown; a `RangeError` is an `ArgumentError`. -/
inductive Fault where
  | authentication
  | argument
  | range
deriving DecidableEq

/-! ## The format -/

/-- `ascii.encode('ELCB')` -/
def _magic : Bytes := [0x45, 0x4C, 0x43, 0x42]

def _version : UInt8 := 2

def _kdfArgon2id : UInt8 := 1

def _headerLength : ℕ := 4 + 1 + 1 + 4 + 4 + 1

def _saltV2 : ℕ := 16

def _maximumMemoryKiB : ℕ := 256 * 1024

def _maximumIterations : ℕ := 10

def saltLength : ℕ := 32

def nonceLength : ℕ := 12

def macLength : ℕ := 16

def legacyIterations : ℕ := 120000

def _u32 (value : ℕ) : Bytes := BigEndian.bytes 4 value

def header (memoryKiB iterations : ℕ) : Bytes :=
  _magic ++ [_version, _kdfArgon2id] ++ _u32 memoryKiB ++ _u32 iterations ++ [1]

/-- `data.sublist(start, end)` -/
def sublist (data : Bytes) (start stop : ℤ) : Except Fault Bytes :=
  if 0 ≤ start ∧ start ≤ stop ∧ stop ≤ data.length then .ok ((data.take stop.toNat).drop start.toNat)
  else .error .range

/-- `data[i]` -/
def byteAt (data : Bytes) (i : ℕ) : Except Fault UInt8 := (data[i]?).elim (.error .range) .ok

def getUint32 (data : Bytes) (offset : ℕ) : Except Fault ℕ :=
  (sublist data offset (offset + 4)).map BigEndian.value

/-- `Random.nextInt(256)`, again and again. -/
def _bytes (random : ℕ → UInt8) (start length : ℕ) : Bytes := (List.range' start length).map random

/-! ## The functions -/

/-- `utf8.encode(password)`, a salt and the costs make a key, if the parameters are some that the function takes. -/
structure Kdf where
  argon2id : Bytes → Bytes → ℕ → ℕ → Except Fault Bytes
  pbkdf2Sha256 : Bytes → Bytes → ℕ → Bytes

section
variable (K : Kdf) (cipher : Bytes → Aead)

def _argon2id (password : Units) (salt : Bytes) (memoryKiB iterations : ℕ) : Except Fault Bytes :=
  K.argon2id (utf8Encode password) salt memoryKiB iterations

/-- `_cipher` takes keys of 32 bytes. -/
def aesGcm (key : Bytes) : Except Fault Aead := if key.length = 32 then .ok (cipher key) else .error .argument

/-- `_cipher.decrypt` -/
def openBox (key nonce aad cipherText mac : Bytes) : Except Fault Bytes := do
  let A ← aesGcm cipher key
  (A.decrypt nonce aad cipherText mac).elim (.error .authentication) .ok

def encrypt (memoryKiB iterations : ℕ) (random : ℕ → UInt8) (plaintext : Bytes) (password : Units) :
    Except Fault Bytes := do
  let salt := _bytes random 0 _saltV2
  let nonce := _bytes random _saltV2 nonceLength
  let head := header memoryKiB iterations
  let key ← _argon2id K password salt memoryKiB iterations
  let A ← aesGcm cipher key
  let box := A.encrypt nonce (head ++ salt) plaintext
  .ok (head ++ salt ++ nonce ++ box.1 ++ box.2)

def _isV2 (data : Bytes) : Bool :=
  decide (_headerLength + _saltV2 + nonceLength + macLength < data.length) && decide (data.take 4 = _magic) &&
    decide (data[4]? = some _version)

/-- `on SecretBoxAuthenticationError` -/
def unlessAuthentic : Except Fault Bytes → Except Fault (Option Bytes)
  | .ok clear => .ok (some clear)
  | .error .authentication => .ok none
  | .error e => .error e

/-- `on SecretBoxAuthenticationError`, `on ArgumentError` -/
def unlessValid : Except Fault Bytes → Except Fault (Option Bytes)
  | .ok clear => .ok (some clear)
  | .error _ => .ok none

def refused (kdf : UInt8) (memory rounds : ℕ) (lanes : UInt8) : Prop :=
  kdf ≠ _kdfArgon2id ∨ lanes ≠ 1 ∨ memory < 8 ∨ _maximumMemoryKiB < memory ∨ rounds < 1 ∨ _maximumIterations < rounds

instance (kdf : UInt8) (memory rounds : ℕ) (lanes : UInt8) : Decidable (refused kdf memory rounds lanes) :=
  inferInstanceAs (Decidable (_ ∨ _))

def openV2 (data : Bytes) (password : Units) (memory rounds : ℕ) : Except Fault (Option Bytes) := do
  let aad ← sublist data 0 (_headerLength + _saltV2)
  let salt ← sublist data _headerLength (_headerLength + _saltV2)
  let nonce ← sublist data (_headerLength + _saltV2) (_headerLength + _saltV2 + nonceLength)
  let body ← sublist data (_headerLength + _saltV2 + nonceLength) data.length
  unlessAuthentic do
    let cipherText ← sublist body 0 (body.length - macLength)
    let mac ← sublist body (body.length - macLength) body.length
    let key ← _argon2id K password salt memory rounds
    openBox cipher key nonce aad cipherText mac

def _decryptV2 (data : Bytes) (password : Units) : Except Fault (Option Bytes) := do
  let kdf ← byteAt data 5
  let memory ← getUint32 data 6
  let rounds ← getUint32 data 10
  let lanes ← byteAt data 14
  if refused kdf memory rounds lanes then .ok none else openV2 K cipher data password memory rounds

def _decryptV1 (encrypted : Bytes) (password : Units) : Except Fault (Option Bytes) :=
  if encrypted.length < saltLength + nonceLength + macLength + 1 then .ok none
  else unlessValid do
    let salt ← sublist encrypted 0 saltLength
    let nonce ← sublist encrypted saltLength (saltLength + nonceLength)
    let body ← sublist encrypted (saltLength + nonceLength) encrypted.length
    let cipherText ← sublist body 0 (body.length - macLength)
    let mac ← sublist body (body.length - macLength) body.length
    openBox cipher (K.pbkdf2Sha256 (utf8Encode password) salt legacyIterations) nonce [] cipherText mac

def decrypt (encrypted : Bytes) (password : Units) : Except Fault (Option Bytes) := do
  if _isV2 encrypted then
    let opened ← _decryptV2 K cipher encrypted password
    if opened.isSome then .ok opened else _decryptV1 K cipher encrypted password
  else _decryptV1 K cipher encrypted password

end

/-! ## What was made -/

/-- What a file was made with: the costs of a new one, and none of a legacy one. -/
structure Backup where
  costs : Option (ℕ × ℕ)
  password : Units
  salt : Bytes
  nonce : Bytes
  plaintext : Bytes

namespace Backup

variable (K : Kdf) (cipher : Bytes → Aead) (f : Backup)

def key : Except Fault Bytes :=
  f.costs.elim (.ok (K.pbkdf2Sha256 (utf8Encode f.password) f.salt legacyIterations)) fun c =>
    _argon2id K f.password f.salt c.1 c.2

def front : Bytes := f.costs.elim f.salt fun c => header c.1 c.2 ++ f.salt

def aad : Bytes := f.costs.elim [] fun _ => f.front

def box (key : Bytes) : Bytes × Bytes := (cipher key).encrypt f.nonce f.aad f.plaintext

def bytes (key : Bytes) : Bytes := f.front ++ f.nonce ++ (f.box cipher key).1 ++ (f.box cipher key).2

def Holds (data : Bytes) : Prop := ∃ key, f.key K = .ok key ∧ data = f.bytes cipher key

/-- The salt and the nonce have their lengths, and the costs are admitted. -/
structure WellFormed : Prop where
  salt : f.salt.length = f.costs.elim saltLength fun _ => _saltV2
  nonce : f.nonce.length = nonceLength
  plaintext : f.plaintext ≠ []
  memory : ∀ c ∈ f.costs, 8 ≤ c.1 ∧ c.1 ≤ _maximumMemoryKiB
  rounds : ∀ c ∈ f.costs, 1 ≤ c.2 ∧ c.2 ≤ _maximumIterations

/-- What `encrypt` makes. -/
def ofEncrypt (memoryKiB iterations : ℕ) (random : ℕ → UInt8) (plaintext : Bytes) (password : Units) : Backup :=
  ⟨some (memoryKiB, iterations), password, _bytes random 0 _saltV2, _bytes random _saltV2 nonceLength, plaintext⟩

end Backup

/-- The functions take what they are documented to take, and their keys have 32 bytes. -/
structure Kdf.Lawful (K : Kdf) : Prop where
  argon2id : ∀ password salt memory rounds, 8 ≤ memory → 1 ≤ rounds → salt.length = _saltV2 →
    ∃ key, K.argon2id password salt memory rounds = .ok key ∧ key.length = 32
  pbkdf2Sha256 : ∀ password salt rounds, (K.pbkdf2Sha256 password salt rounds).length = 32

def log (K : Kdf) (produced : List Backup) (key : Bytes) : List Entry :=
  (produced.filter fun f => decide (f.key K = .ok key)).map fun f => (f.nonce, f.aad, f.plaintext)

/-- **These files were made** with an ideal cipher and ideal key derivations: nothing else leads to the key of one of
them, and no two have the same bytes. -/
structure Made (K : Kdf) (cipher : Bytes → Aead) (produced : List Backup) : Prop where
  wellFormed : ∀ f ∈ produced, f.WellFormed
  ideal : ∀ key, (cipher key).Ideal (log K produced key)
  argon2id : ∀ f ∈ produced, f.costs.isSome → ∀ password salt memory rounds,
    K.argon2id password salt memory rounds = f.key K → password = utf8Encode f.password
  pbkdf2 : ∀ f ∈ produced, f.costs = none → ∀ password salt,
    .ok (K.pbkdf2Sha256 password salt legacyIterations) = f.key K → password = utf8Encode f.password ∧ salt = f.salt
  apart : ∀ f ∈ produced, ∀ g ∈ produced, ∀ data, f.Holds K cipher data → g.Holds K cipher data → f = g

/-- **The container is sound.** -/
structure Sound (K : Kdf) (cipher : Bytes → Aead) (produced : List Backup) : Prop where
  inverts : ∀ memoryKiB iterations random plaintext password,
    Backup.ofEncrypt memoryKiB iterations random plaintext password ∈ produced →
    ∃ data, encrypt K cipher memoryKiB iterations random plaintext password = .ok data ∧
      decrypt K cipher data password = .ok (some plaintext)
  legacy : ∀ f ∈ produced, f.costs = none → ∀ data, f.Holds K cipher data →
    decrypt K cipher data f.password = .ok (some f.plaintext)
  rejects : ∀ data password, (∀ f ∈ produced, f.Holds K cipher data → scalars password ≠ scalars f.password) →
    decrypt K cipher data password = .ok none
  total : ∀ data password, ∃ opened, decrypt K cipher data password = .ok opened

/-! ## The parts of a file -/

theorem sublist_append {a b c : Bytes} {start stop : ℤ} (hstart : start = a.length)
    (hstop : stop = (a.length + b.length : ℕ)) : sublist (a ++ b ++ c) start stop = .ok b := by
  subst hstart hstop
  have hwithin : 0 ≤ (a.length : ℤ) ∧ (a.length : ℤ) ≤ ((a.length + b.length : ℕ) : ℤ) ∧
      ((a.length + b.length : ℕ) : ℤ) ≤ (a ++ b ++ c).length := by
    simp only [List.length_append]
    omega
  rw [sublist, if_pos hwithin, Int.toNat_natCast, Int.toNat_natCast, ← List.length_append,
    List.take_left' rfl, List.drop_left' rfl]

theorem sublist_drop {a b : Bytes} {start stop : ℤ} (hstart : start = a.length)
    (hstop : stop = (a.length + b.length : ℕ)) : sublist (a ++ b) start stop = .ok b := by
  have h := sublist_append (c := []) hstart hstop
  rwa [List.append_nil] at h

theorem sublist_take {a b : Bytes} {stop : ℤ} (hstop : stop = a.length) : sublist (a ++ b) 0 stop = .ok a :=
  sublist_append (a := []) (c := b) rfl (by simpa using hstop)

section
variable {K : Kdf} {cipher : Bytes → Aead} {head salt nonce cipherText mac : Bytes} {password : Units}
  {memory rounds : ℕ}

theorem text_end (hmac : mac.length = macLength) :
    ((cipherText ++ mac).length : ℤ) - macLength = cipherText.length := by
  rw [List.length_append, hmac]
  omega

theorem sublist_text (hmac : mac.length = macLength) :
    sublist (cipherText ++ mac) 0 ((cipherText ++ mac).length - macLength) = .ok cipherText :=
  sublist_take (text_end hmac)

theorem sublist_mac (hmac : mac.length = macLength) :
    sublist (cipherText ++ mac) ((cipherText ++ mac).length - macLength) (cipherText ++ mac).length = .ok mac :=
  sublist_drop (text_end hmac) (by rw [List.length_append])

theorem openV2_append (hhead : head.length = _headerLength) (hsalt : salt.length = _saltV2)
    (hnonce : nonce.length = nonceLength) (hmac : mac.length = macLength) :
    openV2 K cipher (head ++ salt ++ nonce ++ (cipherText ++ mac)) password memory rounds =
      unlessAuthentic (do
        let key ← _argon2id K password salt memory rounds
        openBox cipher key nonce (head ++ salt) cipherText mac) := by
  have hfront : (head ++ salt).length = _headerLength + _saltV2 := by rw [List.length_append, hhead, hsalt]
  have haad : sublist (head ++ salt ++ nonce ++ (cipherText ++ mac)) 0 (_headerLength + _saltV2) =
      .ok (head ++ salt) := by
    rw [List.append_assoc (head ++ salt)]
    exact sublist_take (by rw [hfront]; rfl)
  have hsalt' : sublist (head ++ salt ++ nonce ++ (cipherText ++ mac)) _headerLength (_headerLength + _saltV2) =
      .ok salt := by
    rw [List.append_assoc (head ++ salt)]
    exact sublist_append (by rw [hhead]) (by rw [hhead, hsalt]; rfl)
  have hnonce' : sublist (head ++ salt ++ nonce ++ (cipherText ++ mac)) (_headerLength + _saltV2)
      (_headerLength + _saltV2 + nonceLength) = .ok nonce :=
    sublist_append (by rw [hfront]; rfl) (by rw [hfront, hnonce]; rfl)
  have hbody : sublist (head ++ salt ++ nonce ++ (cipherText ++ mac)) (_headerLength + _saltV2 + nonceLength)
      (head ++ salt ++ nonce ++ (cipherText ++ mac)).length = .ok (cipherText ++ mac) :=
    sublist_drop (by rw [List.length_append, hfront, hnonce]; rfl) (congrArg Nat.cast List.length_append)
  simp only [openV2, haad, hsalt', hnonce', hbody, sublist_text hmac, sublist_mac hmac, bind, Except.bind]

theorem decryptV1_append (hsalt : salt.length = saltLength) (hnonce : nonce.length = nonceLength)
    (hmac : mac.length = macLength) (htext : cipherText ≠ []) :
    _decryptV1 K cipher (salt ++ nonce ++ (cipherText ++ mac)) password =
      unlessValid (openBox cipher (K.pbkdf2Sha256 (utf8Encode password) salt legacyIterations) nonce [] cipherText
        mac) := by
  have hlong : ¬ (salt ++ nonce ++ (cipherText ++ mac)).length < saltLength + nonceLength + macLength + 1 := by
    have hpos := List.length_pos_iff.2 htext
    simp only [List.length_append, hsalt, hnonce, hmac]
    omega
  have hsalt' : sublist (salt ++ nonce ++ (cipherText ++ mac)) 0 saltLength = .ok salt := by
    rw [List.append_assoc salt]
    exact sublist_take (by rw [hsalt])
  have hnonce' : sublist (salt ++ nonce ++ (cipherText ++ mac)) saltLength (saltLength + nonceLength) = .ok nonce :=
    sublist_append (by rw [hsalt]) (by rw [hsalt, hnonce]; rfl)
  have hbody : sublist (salt ++ nonce ++ (cipherText ++ mac)) (saltLength + nonceLength)
      (salt ++ nonce ++ (cipherText ++ mac)).length = .ok (cipherText ++ mac) :=
    sublist_drop (by rw [List.length_append, hsalt, hnonce]; rfl) (congrArg Nat.cast List.length_append)
  rw [_decryptV1, if_neg hlong]
  simp only [hsalt', hnonce', hbody, sublist_text hmac, sublist_mac hmac, bind, Except.bind]

end

theorem exists_parts {data : Bytes} {n : ℕ} (h : n + nonceLength + macLength < data.length) :
    ∃ front nonce cipherText mac, data = front ++ nonce ++ (cipherText ++ mac) ∧ front.length = n ∧
      nonce.length = nonceLength ∧ mac.length = macLength ∧ cipherText ≠ [] := by
  have hcut : data = data.take n ++ (data.drop n).take nonceLength ++
      (((data.drop n).drop nonceLength).take (data.length - n - nonceLength - macLength) ++
        ((data.drop n).drop nonceLength).drop (data.length - n - nonceLength - macLength)) := by
    rw [List.take_append_drop, List.append_assoc, List.take_append_drop, List.take_append_drop]
  refine ⟨_, _, _, _, hcut, ?_, ?_, ?_, ?_⟩
  · rw [List.length_take]
    omega
  · rw [List.length_take, List.length_drop]
    omega
  · simp only [List.length_drop]
    omega
  · intro hempty
    have hlength := congrArg List.length hempty
    simp only [List.length_take, List.length_drop, List.length_nil] at hlength
    omega

/-! ## The header -/

section
variable {memory rounds : ℕ} {rest : Bytes}

theorem length_u32 (n : ℕ) : (_u32 n).length = 4 := BigEndian.length_bytes 4 n

theorem length_header : (header memory rounds).length = _headerLength := by
  simp only [header, List.length_append, length_u32]
  rfl

theorem getUint32_append {a : Bytes} {n offset : ℕ} (hn : n < 2 ^ 32) (hoffset : offset = a.length) :
    getUint32 (a ++ _u32 n ++ rest) offset = .ok n := by
  rw [getUint32, sublist_append (by rw [hoffset]) (by rw [hoffset, length_u32]; rfl), _u32]
  exact congrArg Except.ok (BigEndian.value_bytes hn)

theorem getUint32_memory (h : memory < 2 ^ 32) : getUint32 (header memory rounds ++ rest) 6 = .ok memory := by
  have hcut : header memory rounds ++ rest =
      (_magic ++ [_version, _kdfArgon2id]) ++ _u32 memory ++ (_u32 rounds ++ [1] ++ rest) := by
    simp only [header, List.append_assoc]
  rw [hcut]
  exact getUint32_append h rfl

theorem getUint32_rounds (h : rounds < 2 ^ 32) : getUint32 (header memory rounds ++ rest) 10 = .ok rounds := by
  have hcut : header memory rounds ++ rest =
      (_magic ++ [_version, _kdfArgon2id] ++ _u32 memory) ++ _u32 rounds ++ ([1] ++ rest) := by
    simp only [header, List.append_assoc]
  rw [hcut]
  exact getUint32_append h (by rw [List.length_append, length_u32]; rfl)

theorem byteAt_kdf : byteAt (header memory rounds ++ rest) 5 = .ok _kdfArgon2id := rfl

theorem byteAt_lanes : byteAt (header memory rounds ++ rest) 14 = .ok 1 := by
  have hlength : (_magic ++ [_version, _kdfArgon2id] ++ _u32 memory ++ _u32 rounds).length = 14 := by
    simp only [List.length_append, length_u32]
    rfl
  rw [byteAt, header, List.append_assoc, List.getElem?_append_right (by rw [hlength]), hlength]
  rfl

theorem isV2_header (h : _saltV2 + nonceLength + macLength < rest.length) :
    _isV2 (header memory rounds ++ rest) = true := by
  have hlong : _headerLength + _saltV2 + nonceLength + macLength < (header memory rounds ++ rest).length := by
    rw [List.length_append, length_header]
    omega
  rw [_isV2, decide_eq_true hlong]
  rfl

theorem decryptV2_header {K : Kdf} {cipher : Bytes → Aead} {password : Units}
    (hmemory : 8 ≤ memory ∧ memory ≤ _maximumMemoryKiB) (hrounds : 1 ≤ rounds ∧ rounds ≤ _maximumIterations) :
    _decryptV2 K cipher (header memory rounds ++ rest) password =
      openV2 K cipher (header memory rounds ++ rest) password memory rounds := by
  have hadmitted : ¬ refused _kdfArgon2id memory rounds 1 := by
    unfold refused
    simp only [ne_eq, not_true_eq_false, false_or, not_or, not_lt]
    exact ⟨hmemory.1, hmemory.2, hrounds.1, hrounds.2⟩
  have hm : memory < 2 ^ 32 := hmemory.2.trans_lt (by decide)
  have hr : rounds < 2 ^ 32 := hrounds.2.trans_lt (by decide)
  simp only [_decryptV2, byteAt_kdf, byteAt_lanes, getUint32_memory hm, getUint32_rounds hr, bind, Except.bind,
    if_neg hadmitted]

end

theorem byteAt_lt (data : Bytes) (i : ℕ) (h : i < data.length) : ∃ b, byteAt data i = .ok b :=
  ⟨data[i], by rw [byteAt, List.getElem?_eq_getElem h]; rfl⟩

theorem getUint32_lt (data : Bytes) (offset : ℕ) (h : offset + 4 ≤ data.length) :
    ∃ n, getUint32 data offset = .ok n := by
  have hwithin : 0 ≤ (offset : ℤ) ∧ (offset : ℤ) ≤ offset + 4 ∧ (offset : ℤ) + 4 ≤ data.length := by omega
  rw [getUint32, sublist, if_pos hwithin]
  exact ⟨_, rfl⟩

theorem decryptV2_cases (K : Kdf) (cipher : Bytes → Aead) {data : Bytes} (password : Units)
    (h : _headerLength ≤ data.length) : _decryptV2 K cipher data password = .ok none ∨
    ∃ memory rounds, 8 ≤ memory ∧ 1 ≤ rounds ∧
      _decryptV2 K cipher data password = openV2 K cipher data password memory rounds := by
  have hlength : 15 ≤ data.length := h
  obtain ⟨kdf, hkdf⟩ := byteAt_lt data 5 (by omega)
  obtain ⟨lanes, hlanes⟩ := byteAt_lt data 14 (by omega)
  obtain ⟨memory, hmemory⟩ := getUint32_lt data 6 (by omega)
  obtain ⟨rounds, hrounds⟩ := getUint32_lt data 10 (by omega)
  simp only [_decryptV2, hkdf, hlanes, hmemory, hrounds, bind, Except.bind]
  split
  · exact .inl rfl
  · rename_i hadmitted
    simp only [refused, not_or, not_lt] at hadmitted
    exact .inr ⟨memory, rounds, hadmitted.2.2.1, hadmitted.2.2.2.2.1, rfl⟩

/-! ## Opening -/

section
variable {K : Kdf} {cipher : Bytes → Aead} {produced : List Backup} {f : Backup}
  {data key nonce aad cipherText mac clear : Bytes}

theorem openBox_ok (h : openBox cipher key nonce aad cipherText mac = .ok clear) :
    (cipher key).decrypt nonce aad cipherText mac = some clear := by
  unfold openBox aesGcm at h
  split at h
  · cases hdecrypt : (cipher key).decrypt nonce aad cipherText mac with
    | none => simp [bind, Except.bind, hdecrypt] at h
    | some c => simpa [bind, Except.bind, hdecrypt] using h
  · cases h

theorem openBox_of_length (h : key.length = 32) : openBox cipher key nonce aad cipherText mac =
    ((cipher key).decrypt nonce aad cipherText mac).elim (.error .authentication) .ok := by
  unfold openBox aesGcm
  rw [if_pos h]
  rfl

theorem exists_unlessValid (r : Except Fault Bytes) : ∃ opened, unlessValid r = .ok opened := by
  cases r with
  | ok clear => exact ⟨some clear, rfl⟩
  | error e => exact ⟨none, rfl⟩

theorem unlessValid_some {r : Except Fault Bytes} (h : unlessValid r = .ok (some clear)) : r = .ok clear := by
  cases r with
  | ok c => cases h; rfl
  | error e => cases h

theorem mem_log {e : Entry} : e ∈ log K produced key ↔ ∃ f ∈ produced, f.key K = .ok key ∧
    e = (f.nonce, f.aad, f.plaintext) := by
  simp only [log, List.mem_map, List.mem_filter, decide_eq_true_eq, and_assoc]
  exact exists_congr fun f => and_congr_right fun _ => and_congr_right fun _ => eq_comm

theorem exists_key (hK : K.Lawful) (h : f.WellFormed) : ∃ key, f.key K = .ok key ∧ key.length = 32 := by
  cases hcosts : f.costs with
  | none =>
    rw [Backup.key, hcosts]
    exact ⟨_, rfl, hK.pbkdf2Sha256 _ _ _⟩
  | some c =>
    have hsalt := h.salt
    rw [hcosts] at hsalt
    rw [Backup.key, hcosts]
    exact hK.argon2id _ _ _ _ (h.memory c hcosts).1 (h.rounds c hcosts).1 hsalt

theorem length_key (hK : K.Lawful) (h : f.WellFormed) (hkey : f.key K = .ok key) : key.length = 32 := by
  obtain ⟨key', hkey', hlength⟩ := exists_key hK h
  rw [hkey] at hkey'
  cases hkey'
  exact hlength

theorem openBox_made (h : Made K cipher produced) (hopen : openBox cipher key nonce aad cipherText mac = .ok clear) :
    ∃ f ∈ produced, f.key K = .ok key ∧ nonce = f.nonce ∧ aad = f.aad ∧ clear = f.plaintext ∧
      f.box cipher key = (cipherText, mac) := by
  obtain ⟨hlog, hbox⟩ := (h.ideal key).rejects _ _ _ _ _ (openBox_ok hopen)
  obtain ⟨f, hf, hkey, he⟩ := mem_log.1 hlog
  cases he
  exact ⟨f, hf, hkey, rfl, rfl, rfl, hbox⟩

theorem box_opens (hK : K.Lawful) (h : Made K cipher produced) (hf : f ∈ produced) (hkey : f.key K = .ok key) :
    openBox cipher key f.nonce f.aad (f.box cipher key).1 (f.box cipher key).2 = .ok f.plaintext := by
  rw [openBox_of_length (length_key hK (h.wellFormed f hf) hkey), Backup.box,
    (h.ideal key).opens (f.nonce, f.aad, f.plaintext) (mem_log.2 ⟨f, hf, hkey, rfl⟩)]
  rfl

theorem length_mac (f : Backup) (key : Bytes) : (f.box cipher key).2.length = macLength :=
  (cipher key).length_mac _ _ _

theorem cipherText_ne_nil (cipher : Bytes → Aead) (h : f.WellFormed) (key : Bytes) : (f.box cipher key).1 ≠ [] := by
  intro hempty
  refine h.plaintext (List.length_eq_zero_iff.1 ?_)
  rw [← (cipher key).length_cipherText f.nonce f.aad f.plaintext]
  exact List.length_eq_zero_iff.2 hempty

end

/-! ## The container is sound -/

section
variable {K : Kdf} {cipher : Bytes → Aead} {produced : List Backup} {f : Backup} {data key : Bytes} {password : Units}

theorem Backup.bytes_eq (f : Backup) (key : Bytes) : f.bytes cipher key =
    f.front ++ f.nonce ++ ((f.box cipher key).1 ++ (f.box cipher key).2) := by
  rw [Backup.bytes, List.append_assoc]

theorem decryptV2_made (hK : K.Lawful) (h : Made K cipher produced) (hf : f ∈ produced) (hnew : f.costs.isSome)
    (hdata : f.Holds K cipher data) :
    _isV2 data = true ∧ _decryptV2 K cipher data f.password = .ok (some f.plaintext) := by
  obtain ⟨key, hkey, rfl⟩ := hdata
  obtain ⟨c, hcosts⟩ := Option.isSome_iff_exists.1 hnew
  have hwell := h.wellFormed f hf
  have hopen := box_opens hK h hf hkey
  have hfront : f.front = header c.1 c.2 ++ f.salt := by rw [Backup.front, hcosts]; rfl
  have haad : f.aad = header c.1 c.2 ++ f.salt := by rw [← hfront, Backup.aad, hcosts]; rfl
  have hderive : _argon2id K f.password f.salt c.1 c.2 = .ok key := by rw [← hkey, Backup.key, hcosts]; rfl
  have hsalt : f.salt.length = _saltV2 := by rw [hwell.salt, hcosts]; rfl
  have hpos := List.length_pos_iff.2 (cipherText_ne_nil cipher hwell key)
  have hcut : f.bytes cipher key = header c.1 c.2 ++
      (f.salt ++ f.nonce ++ ((f.box cipher key).1 ++ (f.box cipher key).2)) := by
    simp only [Backup.bytes, hfront, List.append_assoc]
  refine ⟨?_, ?_⟩
  · rw [hcut]
    refine isV2_header ?_
    simp only [List.length_append, hsalt, hwell.nonce, length_mac]
    omega
  · have hread : _decryptV2 K cipher (f.bytes cipher key) f.password =
        openV2 K cipher (f.bytes cipher key) f.password c.1 c.2 := by
      rw [hcut]
      exact decryptV2_header (hwell.memory c hcosts) (hwell.rounds c hcosts)
    rw [hread, f.bytes_eq, hfront, openV2_append length_header hsalt hwell.nonce (length_mac f key), hderive]
    rw [haad] at hopen
    exact congrArg unlessAuthentic hopen

theorem decryptV1_made (hK : K.Lawful) (h : Made K cipher produced) (hf : f ∈ produced) (hold : f.costs = none)
    (hdata : f.Holds K cipher data) : _decryptV1 K cipher data f.password = .ok (some f.plaintext) := by
  obtain ⟨key, hkey, rfl⟩ := hdata
  have hwell := h.wellFormed f hf
  have hopen := box_opens hK h hf hkey
  have hfront : f.front = f.salt := by rw [Backup.front, hold]; rfl
  have haad : f.aad = [] := by rw [Backup.aad, hold]; rfl
  have hderive : K.pbkdf2Sha256 (utf8Encode f.password) f.salt legacyIterations = key := by
    rw [Backup.key, hold] at hkey
    exact Except.ok.inj hkey
  have hsalt : f.salt.length = saltLength := by rw [hwell.salt, hold]; rfl
  rw [f.bytes_eq, hfront, decryptV1_append hsalt hwell.nonce (length_mac f key) (cipherText_ne_nil cipher hwell key),
    hderive]
  rw [haad] at hopen
  exact congrArg unlessValid hopen

theorem decryptV2_sound (password : Units) (hK : K.Lawful) (h : Made K cipher produced) (hdata : _isV2 data = true) :
    ∃ opened, _decryptV2 K cipher data password = .ok opened ∧ (opened.isSome → ∃ f ∈ produced, f.costs.isSome ∧
      f.Holds K cipher data ∧ utf8Encode password = utf8Encode f.password) := by
  have hlong : _headerLength + _saltV2 + nonceLength + macLength < data.length := by
    simp only [_isV2, Bool.and_eq_true, decide_eq_true_eq] at hdata
    exact hdata.1.1
  rcases decryptV2_cases K cipher password (show _headerLength ≤ data.length by omega) with
    hnone | ⟨memory, rounds, hmemory, hrounds, hopen⟩
  · exact ⟨none, hnone, fun hsome => (by cases hsome)⟩
  · obtain ⟨front, nonce, cipherText, mac, rfl, hfront, hnonce, hmac, -⟩ := exists_parts hlong
    obtain ⟨head, salt, rfl, hhead⟩ : ∃ head salt, front = head ++ salt ∧ head.length = _headerLength :=
      ⟨front.take _headerLength, front.drop _headerLength, (List.take_append_drop _ _).symm, by
        rw [List.length_take, hfront]
        exact min_eq_left (Nat.le_add_right _ _)⟩
    have hsalt : salt.length = _saltV2 := by
      rw [List.length_append, hhead] at hfront
      omega
    obtain ⟨key, hkey, hlength⟩ := hK.argon2id (utf8Encode password) salt memory rounds hmemory hrounds hsalt
    have hkey' : _argon2id K password salt memory rounds = .ok key := hkey
    rw [hopen, openV2_append hhead hsalt hnonce hmac, hkey']
    show ∃ opened, unlessAuthentic (openBox cipher key nonce (head ++ salt) cipherText mac) = .ok opened ∧ _
    cases hbox : openBox cipher key nonce (head ++ salt) cipherText mac with
    | error e =>
      rw [openBox_of_length hlength] at hbox
      cases hdecrypt : (cipher key).decrypt nonce (head ++ salt) cipherText mac with
      | none =>
        rw [hdecrypt] at hbox
        cases hbox
        exact ⟨none, rfl, fun hsome => (by cases hsome)⟩
      | some clear =>
        rw [hdecrypt] at hbox
        cases hbox
    | ok clear =>
      refine ⟨some clear, rfl, fun _ => ?_⟩
      obtain ⟨f, hf, hfkey, rfl, haad, -, hsealed⟩ := openBox_made h hbox
      have hnew : f.costs.isSome := by
        cases hcosts : f.costs with
        | some c => rfl
        | none =>
          have hempty := congrArg List.length haad
          rw [Backup.aad, hcosts, hfront] at hempty
          cases hempty
      have hfrontEq : f.front = head ++ salt := by
        obtain ⟨c, hcosts⟩ := Option.isSome_iff_exists.1 hnew
        rw [haad, Backup.aad, hcosts]
        rfl
      refine ⟨f, hf, hnew, ⟨key, hfkey, ?_⟩, h.argon2id f hf hnew _ _ _ _ (hkey.trans hfkey.symm)⟩
      rw [f.bytes_eq, hfrontEq, hsealed]

theorem decryptV1_sound (data : Bytes) (password : Units) (h : Made K cipher produced) :
    ∃ opened, _decryptV1 K cipher data password = .ok opened ∧ (opened.isSome → ∃ f ∈ produced,
      f.Holds K cipher data ∧ utf8Encode password = utf8Encode f.password) := by
  by_cases hlong : saltLength + nonceLength + macLength < data.length
  · obtain ⟨salt, nonce, cipherText, mac, rfl, hsalt, hnonce, hmac, htext⟩ := exists_parts hlong
    rw [decryptV1_append hsalt hnonce hmac htext]
    obtain ⟨opened, hopened⟩ := exists_unlessValid (openBox cipher
      (K.pbkdf2Sha256 (utf8Encode password) salt legacyIterations) nonce [] cipherText mac)
    refine ⟨opened, hopened, fun hsome => ?_⟩
    obtain ⟨clear, rfl⟩ := Option.isSome_iff_exists.1 hsome
    obtain ⟨f, hf, hkey, rfl, haad, -, hsealed⟩ := openBox_made h (unlessValid_some hopened)
    have hold : f.costs = none := by
      cases hcosts : f.costs with
      | none => rfl
      | some c =>
        have hempty := congrArg List.length haad
        rw [Backup.aad, hcosts] at hempty
        simp only [Option.elim_some, Backup.front, hcosts, List.length_append, length_header, List.length_nil] at hempty
        exact absurd hempty (by rw [_headerLength]; omega)
    obtain ⟨hpassword, rfl⟩ := h.pbkdf2 f hf hold _ _ hkey.symm
    refine ⟨f, hf, ⟨_, hkey, ?_⟩, hpassword⟩
    rw [f.bytes_eq, hsealed, Backup.front, hold]
    rfl
  · exact ⟨none, if_pos (by omega), fun hsome => (by cases hsome)⟩

/-- **The container of a backup is sound.** -/
theorem sound (hK : K.Lawful) (h : Made K cipher produced) : Sound K cipher produced where
  inverts memoryKiB iterations random plaintext password hf := by
    obtain ⟨key, hkey, hlength⟩ := exists_key hK (h.wellFormed _ hf)
    obtain ⟨hnew, hopen⟩ := decryptV2_made hK h hf rfl ⟨key, hkey, rfl⟩
    refine ⟨(Backup.ofEncrypt memoryKiB iterations random plaintext password).bytes cipher key, ?_, ?_⟩
    · have hderive : _argon2id K password (_bytes random 0 _saltV2) memoryKiB iterations = .ok key := hkey
      simp only [encrypt, hderive, aesGcm, if_pos hlength, bind, Except.bind]
      rfl
    · have hopen' : _decryptV2 K cipher ((Backup.ofEncrypt memoryKiB iterations random plaintext password).bytes cipher
          key) password = .ok (some plaintext) := hopen
      simp only [decrypt, hnew, hopen', bind, Except.bind, if_true, Option.isSome_some]
  legacy f hf hold data hdata := by
    have hopen := decryptV1_made hK h hf hold hdata
    unfold decrypt
    split
    · rename_i hnew
      obtain ⟨opened, hopened, hsome⟩ := decryptV2_sound f.password hK h hnew
      cases opened with
      | none => simp only [hopened, hopen, bind, Except.bind, Option.isSome_none, Bool.false_eq_true, if_false]
      | some clear =>
        obtain ⟨g, hg, hcosts, hdata', -⟩ := hsome rfl
        rw [h.apart g hg f hf data hdata' hdata, hold] at hcosts
        cases hcosts
    · exact hopen
  rejects data password hother := by
    have hwrong : ∀ f ∈ produced, f.Holds K cipher data → utf8Encode password ≠ utf8Encode f.password :=
      fun f hf hdata he => hother f hf hdata (Utf16.utf8Encode_inj.1 he)
    obtain ⟨opened, hopened, hsome⟩ := decryptV1_sound data password h
    have hlegacy : _decryptV1 K cipher data password = .ok none := by
      cases opened with
      | none => exact hopened
      | some clear =>
        obtain ⟨f, hf, hdata, he⟩ := hsome rfl
        exact absurd he (hwrong f hf hdata)
    unfold decrypt
    split
    · rename_i hnew
      obtain ⟨opened', hopened', hsome'⟩ := decryptV2_sound password hK h hnew
      cases opened' with
      | none =>
        simp only [hopened', hlegacy, bind, Except.bind, Option.isSome_none, Bool.false_eq_true, if_false]
      | some clear =>
        obtain ⟨f, hf, -, hdata, he⟩ := hsome' rfl
        exact absurd he (hwrong f hf hdata)
    · exact hlegacy
  total data password := by
    obtain ⟨opened, hopened, -⟩ := decryptV1_sound data password h
    unfold decrypt
    split
    · rename_i hnew
      obtain ⟨opened', hopened', -⟩ := decryptV2_sound password hK h hnew
      cases opened' with
      | none => exact ⟨opened, by
          simp only [hopened', hopened, bind, Except.bind, Option.isSome_none, Bool.false_eq_true, if_false]⟩
      | some clear => exact ⟨some clear, by simp only [hopened', bind, Except.bind, Option.isSome_some, if_true]⟩
    · exact ⟨opened, hopened⟩

end

section Sample

def newFile : Backup := ⟨some (8, 1), [0xD800], List.replicate 16 0, List.replicate 12 0, [104]⟩

def oldFile : Backup := ⟨none, [112], header 8 1 ++ List.replicate 17 0, List.replicate 12 0, [104, 105]⟩

def files : List Backup := [newFile, oldFile]

def sampleKdf : Kdf where
  argon2id password salt memory rounds :=
    if 8 ≤ memory ∧ 1 ≤ rounds ∧ salt.length = _saltV2 then
      .ok (List.replicate 32 (if password = utf8Encode newFile.password then 1 else 0))
    else .error .argument
  pbkdf2Sha256 password salt _ :=
    List.replicate 32 (if password = utf8Encode oldFile.password ∧ salt = oldFile.salt then 3 else 2)

def sampleCipher (key : Bytes) : Aead := idealCipher (log sampleKdf files key)

theorem sampleKdf_lawful : sampleKdf.Lawful :=
  ⟨fun _ _ _ _ hmemory hrounds hsalt => ⟨_, if_pos ⟨hmemory, hrounds, hsalt⟩, List.length_replicate⟩,
    fun _ _ _ => List.length_replicate⟩

theorem length_bytes (f : Backup) (cipher : Bytes → Aead) (key : Bytes) :
    (f.bytes cipher key).length = f.front.length + f.nonce.length + f.plaintext.length + macLength := by
  rw [Backup.bytes, List.length_append, List.length_append, List.length_append, length_mac]
  exact congrArg (f.front.length + f.nonce.length + · + macLength) ((cipher key).length_cipherText _ _ _)

theorem files_made : Made sampleKdf sampleCipher files where
  wellFormed f hf := by
    simp only [files, List.mem_cons, List.not_mem_nil, or_false] at hf
    rcases hf with rfl | rfl
    · exact ⟨rfl, rfl, by decide, fun c hc => (by cases hc; decide), fun c hc => (by cases hc; decide)⟩
    · exact ⟨rfl, rfl, by decide, fun c hc => (by cases hc), fun c hc => (by cases hc)⟩
  ideal key := idealCipher_ideal _
  argon2id f hf hnew password salt memory rounds hkey := by
    simp only [files, List.mem_cons, List.not_mem_nil, or_false] at hf
    rcases hf with rfl | rfl
    · have hnewKey : newFile.key sampleKdf = .ok (List.replicate 32 1) := by decide
      rw [hnewKey] at hkey
      simp only [sampleKdf] at hkey
      split at hkey
      · by_contra hne
        rw [if_neg hne] at hkey
        exact absurd hkey (by decide)
      · cases hkey
    · cases hnew
  pbkdf2 f hf hold password salt hkey := by
    simp only [files, List.mem_cons, List.not_mem_nil, or_false] at hf
    rcases hf with rfl | rfl
    · cases hold
    · have holdKey : oldFile.key sampleKdf = .ok (List.replicate 32 3) := by decide
      rw [holdKey] at hkey
      simp only [sampleKdf] at hkey
      by_contra hne
      rw [if_neg hne] at hkey
      exact absurd hkey (by decide)
  apart f hf g hg data hfdata hgdata := by
    obtain ⟨key, -, rfl⟩ := hfdata
    obtain ⟨key', -, hbytes⟩ := hgdata
    have hlength := congrArg List.length hbytes
    rw [length_bytes, length_bytes] at hlength
    simp only [files, List.mem_cons, List.not_mem_nil, or_false] at hf hg
    rcases hf with rfl | rfl <;> rcases hg with rfl | rfl
    · rfl
    · exact absurd hlength (by decide)
    · exact absurd hlength (by decide)
    · rfl

theorem sound_files : Sound sampleKdf sampleCipher files := sound sampleKdf_lawful files_made

/-- **Another half of a pair opens the file**: both are encoded as U+FFFD. -/
theorem surrogates_open : ¬ ∀ (K : Kdf) (cipher : Bytes → Aead) (produced : List Backup), K.Lawful →
    Made K cipher produced → ∀ f ∈ produced, ∀ data, f.Holds K cipher data → ∀ password, password ≠ f.password →
      decrypt K cipher data password = .ok none := by
  intro h
  have hnew : newFile ∈ files := List.mem_cons_self
  obtain ⟨key, hkey, -⟩ := exists_key sampleKdf_lawful (files_made.wellFormed newFile hnew)
  have hholds : newFile.Holds sampleKdf sampleCipher (newFile.bytes sampleCipher key) := ⟨key, hkey, rfl⟩
  have hnone := h _ _ _ sampleKdf_lawful files_made newFile hnew _ hholds [0xD801] (by decide)
  obtain ⟨hisNew, hopen⟩ := decryptV2_made sampleKdf_lawful files_made hnew rfl hholds
  have hopen' : _decryptV2 sampleKdf sampleCipher (newFile.bytes sampleCipher key) [0xD801] = .ok (some [104]) := hopen
  simp only [decrypt, hisNew, hopen', bind, Except.bind, if_true, Option.isSome_some] at hnone
  cases hnone

end Sample

end BackupCrypto
end SecureChat
