import SecureChat.Base64Url
import SecureChat.Rsa
import SecureChat.Sha256
/-!
# PrivateDirectoryOprf — private contact discovery, on the client and on the server

The client maps a phone hash into the RSA group, blinds the point and sends it; the server raises it to its private
exponent; the client takes the blinding out and derives the token.  The server derives the token of a phone hash itself.
The client is written in Dart (`DirectoryOprfMath`), the server in Kotlin (`PrivateDirectoryOprf`), each with its own
conversions between integers and bytes.  What throws gives `none`.
-/
namespace SecureChat
namespace Directory

def asciiBytes (text : List Char) : List UInt8 := text.map fun c => UInt8.ofNat c.toNat

def phoneInputDomain : List UInt8 := asciiBytes "elcim-directory-phone-v1\x00".toList

def tokenDomain : List UInt8 := asciiBytes "elcim-directory-token-v1\x00".toList

def int32 (n : ℕ) : List UInt8 := BigEndian.bytes 4 n

def isLowerHex (c : Char) : Bool := decide (c ∈ "0123456789abcdef".toList)

def bitLength (n : ℕ) : ℕ := if n = 0 then 0 else Nat.log2 n + 1

/-- The part of the public configuration that the client computes with. -/
structure PrivateDirectoryConfig where
  modulus : ℕ
  exponent : ℕ
  modulusBytes : ℕ

structure DirectoryBlindValue where
  encoded : List Char
  inverse : ℕ

namespace DirectoryOprfMath

/-- `_phoneHashPattern` on the lower-case text; no character beyond ASCII has a hexadecimal digit for its lower case. -/
def normalize (phoneHash : List Char) : Option (List Char) :=
  let normalized := phoneHash.map Char.toLower
  if normalized.length = 64 ∧ normalized.all isLowerHex = true then some normalized else none

def bytesToBigInt (bytes : List UInt8) : ℕ := bytes.foldl (fun value byte => (value <<< 8) ||| byte.toNat) 0

/-- The loop of `_bigIntToBytes`, from the last index to the first. -/
def fillBytes : ℕ → ℕ → List UInt8 → List UInt8 × ℕ
  | 0, remaining, output => (output, remaining)
  | n + 1, remaining, output => fillBytes n (remaining >>> 8) (UInt8.ofNat (remaining &&& 255) :: output)

def bigIntToBytes (value width : ℕ) : Option (List UInt8) :=
  let filled := fillBytes width value []
  if filled.2 ≠ 0 then none else some filled.1

def base64UrlNoPadding (bytes : List UInt8) : List Char := Base64Url.withoutPadding (Base64Url.encode bytes)

def digit (c : Char) : Option ℕ := Base64Url.digit (if c = '+' then '-' else if c = '/' then '_' else c)

/-- `_decodeBase64Url`, but for percent escapes, which no encoder makes. -/
def decodeBase64Url (value : List Char) : Option (List UInt8) := Base64Url.decode digit true value

/-- `while (expanded.length < modulusBytes + 16)`; every round adds 32 bytes, so `fuel` need not be more. -/
def expand (needed : ℕ) (seed : List UInt8) : ℕ → ℕ → List UInt8 → List UInt8
  | 0, _, expanded => expanded
  | fuel + 1, counter, expanded =>
    if expanded.length < needed then
      expand needed seed fuel (counter + 1) (expanded ++ Sha256.digest (seed ++ int32 counter))
    else expanded

def candidate (normalized : List Char) (config : PrivateDirectoryConfig) (attempt : ℕ) : ℕ :=
  let seed := Sha256.digest (phoneInputDomain ++ asciiBytes normalized ++ int32 attempt)
  let needed := config.modulusBytes + 16
  let expanded := expand needed seed needed 0 []
  bytesToBigInt expanded % (config.modulus - 1) + 1

/-- The attempts from one on, `n` of them. -/
def findPoint (normalized : List Char) (config : PrivateDirectoryConfig) : ℕ → ℕ → Option ℕ
  | 0, _ => none
  | n + 1, attempt =>
    let c := candidate normalized config attempt
    if 1 < c ∧ Nat.gcd c config.modulus = 1 then some c else findPoint normalized config n (attempt + 1)

def fullDomainPoint (phoneHash : List Char) (config : PrivateDirectoryConfig) : Option ℕ :=
  (normalize phoneHash).bind fun normalized => findPoint normalized config 256 0

def modInverse (a n : ℕ) : ℕ := (Nat.gcdA a n % n).toNat

def blindWithFactor (phoneHash : List Char) (config : PrivateDirectoryConfig) (factor : ℤ) :
    Option DirectoryBlindValue :=
  if factor ≤ 1 ∨ (config.modulus : ℤ) ≤ factor ∨ Int.gcd factor config.modulus ≠ 1 then none
  else do
    let point ← fullDomainPoint phoneHash config
    let blinded := point * Rsa.modPow factor.toNat config.exponent config.modulus % config.modulus
    let bytes ← bigIntToBytes blinded config.modulusBytes
    return ⟨base64UrlNoPadding bytes, modInverse factor.toNat config.modulus⟩

def unblind (encoded : List Char) (inverse : ℕ) (config : PrivateDirectoryConfig) : Option (List Char) := do
  let bytes ← decodeBase64Url encoded
  if bytes.length ≠ config.modulusBytes then none
  else
    let evaluated := bytesToBigInt bytes
    if evaluated ≤ 1 ∨ config.modulus ≤ evaluated ∨ Nat.gcd evaluated config.modulus ≠ 1 then none
    else
      let unblinded := evaluated * inverse % config.modulus
      let bytes ← bigIntToBytes unblinded config.modulusBytes
      return base64UrlNoPadding (Sha256.digest (tokenDomain ++ bytes))

end DirectoryOprfMath

structure PrivateDirectoryOprf where
  key : Rsa.Key
  exponent : key.exponent = 65537
  large : 3072 ≤ bitLength key.modulus

namespace PrivateDirectoryOprf

def width (modulus : ℕ) : ℕ := (bitLength modulus + 7) / 8

variable (o : PrivateDirectoryOprf)

def modulus : ℕ := o.key.modulus

def modulusBytes : ℕ := width o.modulus

def publicConfig : PrivateDirectoryConfig := ⟨o.modulus, o.key.exponent, o.modulusBytes⟩

/-- `BigInteger.toByteArray` of a number that is not negative: one bit more than it needs. -/
def toByteArray (value : ℕ) : List UInt8 := BigEndian.bytes (bitLength value / 8 + 1) value

def unsignedBytes (value size : ℕ) : Option (List UInt8) :=
  let array := toByteArray value
  let raw := if 1 < array.length ∧ array.head? = some 0 then array.drop 1 else array
  if raw.length ≤ size then some (List.replicate (size - raw.length) 0 ++ raw) else none

def encodeToString (bytes : List UInt8) : List Char := Base64Url.withoutPadding (Base64Url.encode bytes)

def decode (encoded : List Char) : Option (List UInt8) := Base64Url.decode Base64Url.digit false encoded

/-- The cipher `RSA/ECB/NoPadding` with the private key. -/
def doFinal (input : List UInt8) : Option (List UInt8) :=
  let message := BigEndian.value input
  if message < o.modulus then
    some (BigEndian.bytes o.modulusBytes (Rsa.modPow message o.key.inverse o.modulus))
  else none

def privateOperation (value : ℕ) : Option ℕ := do
  let input ← unsignedBytes value o.modulusBytes
  let output ← o.doFinal input
  return BigEndian.value output

/-- `while (expanded.size < modulusBytes + 16)`. -/
def expand (needed : ℕ) (seed : List UInt8) : ℕ → ℕ → List UInt8 → List UInt8
  | 0, _, expanded => expanded
  | fuel + 1, counter, expanded =>
    if expanded.length < needed then
      expand needed seed fuel (counter + 1) (expanded ++ Sha256.digest (seed ++ int32 counter))
    else expanded

def candidate (phoneHash : List Char) (modulus attempt : ℕ) : ℕ :=
  let seed := Sha256.digest (phoneInputDomain ++ asciiBytes phoneHash ++ int32 attempt)
  let needed := width modulus + 16
  let expanded := expand needed seed needed 0 []
  BigEndian.value expanded % (modulus - 1) + 1

/-- The attempts from one on, `n` of them. -/
def findPoint (phoneHash : List Char) (modulus : ℕ) : ℕ → ℕ → Option ℕ
  | 0, _ => none
  | n + 1, attempt =>
    let c := candidate phoneHash modulus attempt
    if 1 < c ∧ Nat.gcd c modulus = 1 then some c else findPoint phoneHash modulus n (attempt + 1)

def fullDomainPoint (phoneHash : List Char) (modulus : ℕ) : Option ℕ := findPoint phoneHash modulus 256 0

/-- `SHA256_HEX`, which does not tell upper from lower case. -/
def isHexHash (phoneHash : List Char) : Bool :=
  decide (phoneHash.length = 64) && phoneHash.all fun c => isLowerHex c || decide (c ∈ "ABCDEF".toList)

def finalizeToken (evaluated : ℕ) : Option (List Char) :=
  (unsignedBytes evaluated o.modulusBytes).map fun bytes => encodeToString (Sha256.digest (tokenDomain ++ bytes))

def tokenForPhoneHash (phoneHash : List Char) : Option (List Char) :=
  if isHexHash phoneHash = true then do
    let point ← fullDomainPoint (phoneHash.map Char.toLower) o.modulus
    let evaluated ← o.privateOperation point
    o.finalizeToken evaluated
  else none

def evaluate (encoded : List Char) : Option (List Char) := do
  let bytes ← decode encoded
  if bytes.length ≠ o.modulusBytes then none
  else
    let value := BigEndian.value bytes
    if 1 < value ∧ value < o.modulus ∧ Nat.gcd value o.modulus = 1 then
      let evaluated ← o.privateOperation value
      let bytes ← unsignedBytes evaluated o.modulusBytes
      return encodeToString bytes
    else none

end PrivateDirectoryOprf

/-- A discovery of one phone hash: the client blinds it, the server evaluates it, the client takes the blinding out. -/
def discover (o : PrivateDirectoryOprf) (phoneHash : List Char) (factor : ℤ) : Option (List Char) := do
  let blind ← DirectoryOprfMath.blindWithFactor phoneHash o.publicConfig factor
  let evaluated ← o.evaluate blind.encoded
  DirectoryOprfMath.unblind evaluated blind.inverse o.publicConfig

end Directory
end SecureChat
