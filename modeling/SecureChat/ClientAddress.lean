import Mathlib
import SecureChat.BitPrefix
/-!
# ClientAddress — the address a request is counted under

Behind a reverse proxy the socket's address is the proxy's, and the client's is what the proxy appended to the forwarded
header.  The header is read only if the socket's address is a trusted proxy's, from the right, past what is trusted or
no address.  Only literal addresses are addresses: a host name is never resolved.
-/
namespace SecureChat
namespace ClientAddress

open BitPrefix

abbrev Text := List Char

/-! ## Networks -/

structure Cidr where
  network : List UInt8
  prefixBits : ℤ

/-- The bytes of `contains`, from the index where `remaining` bits are left to compare. -/
def agree : ℤ → List UInt8 → List UInt8 → Bool
  | remaining, n :: network, a :: address =>
    if remaining ≤ 0 then true
    else
      let bits := if 8 ≤ remaining then 8 else remaining
      if toInt a &&& mask bits.toNat ≠ toInt n &&& mask bits.toNat then false
      else agree (remaining - bits) network address
  | _, _, _ => true

def Cidr.contains (c : Cidr) (address : List UInt8) : Bool :=
  if address.length ≠ c.network.length then false else agree c.prefixBits c.network address

/-! ## Literal addresses -/

/-- A number from 0 to 255 without leading zeros. -/
def octet (t : Text) : Option UInt8 :=
  if t ≠ [] ∧ t.length ≤ 3 ∧ t.all Char.isDigit = true ∧ (t.length = 1 ∨ t.head? ≠ some '0') ∧
      Nat.ofDigitChars 10 t 0 ≤ 255 then
    some (UInt8.ofNat (Nat.ofDigitChars 10 t 0))
  else none

/-- The bytes of a text that `IPV4` matches. -/
def ipv4 (t : Text) : Option (List UInt8) :=
  if (t.splitOn '.').length = 4 then (t.splitOn '.').mapM octet else none

def hexDigit (c : Char) : Option ℕ :=
  if c.isDigit then some (c.toNat - '0'.toNat)
  else if 'a' ≤ c ∧ c ≤ 'f' then some (c.toNat - 'a'.toNat + 10)
  else if 'A' ≤ c ∧ c ≤ 'F' then some (c.toNat - 'A'.toNat + 10)
  else none

/-- `IPV6` matches. -/
def ipv6 (t : Text) : Bool :=
  decide (2 ≤ t.length ∧ t.length ≤ 45) && t.all fun c => (hexDigit c).isSome || decide (c = ':')

/-- What the parser of IPv6 addresses has read: the bytes, how many stood before the gap, and the group at hand. -/
structure Groups where
  dst : List UInt8
  colonp : Option ℕ
  val : ℕ
  sawXdigit : Bool

/-- The loop of `textToNumericFormatV6`. -/
def readGroups : Text → Groups → Option Groups
  | [], g => some g
  | ch :: t, g =>
    match hexDigit ch with
    | some chval =>
      if 0xffff < g.val * 16 + chval then none
      else readGroups t { g with val := g.val * 16 + chval, sawXdigit := true }
    | none =>
      if ch ≠ ':' then none
      else if g.sawXdigit = false then
        if g.colonp ≠ none then none else readGroups t { g with colonp := some g.dst.length }
      else if t = [] then none
      else if 16 < g.dst.length + 2 then none
      else
        readGroups t
          { g with dst := g.dst ++ [UInt8.ofNat (g.val / 256), UInt8.ofNat g.val], val := 0, sawXdigit := false }

def closeGroups (g : Groups) : Option (List UInt8) :=
  if g.sawXdigit = true ∧ 16 < g.dst.length + 2 then none
  else
    let dst := if g.sawXdigit = true then g.dst ++ [UInt8.ofNat (g.val / 256), UInt8.ofNat g.val] else g.dst
    match g.colonp with
    | none => if dst.length = 16 then some dst else none
    | some n =>
      if dst.length = 16 then none else some (dst.take n ++ List.replicate (16 - dst.length) 0 ++ dst.drop n)

/-- `convertFromIPv4MappedAddress`: the address of a mapped one has four bytes. -/
def unmapped (dst : List UInt8) : List UInt8 :=
  if dst.take 12 = List.replicate 10 0 ++ [0xff, 0xff] then dst.drop 12 else dst

def textToNumericFormatV6 (src : Text) : Option (List UInt8) :=
  match src with
  | ':' :: ':' :: t => (readGroups (':' :: t) ⟨[], none, 0, false⟩).bind closeGroups |>.map unmapped
  | ':' :: _        => none
  | t => (readGroups t ⟨[], none, 0, false⟩).bind closeGroups |>.map unmapped

def toBytes (address : Text) : Option (List UInt8) :=
  match ipv4 address with
  | some bytes => some bytes
  | none => if ':' ∈ address ∧ ipv6 address = true then textToNumericFormatV6 address else none

/-! ## The forwarded header -/

def isWhitespace (c : Char) : Bool :=
  decide (9 ≤ c.toNat ∧ c.toNat ≤ 13) || decide (0x1C ≤ c.toNat ∧ c.toNat ≤ 0x20) ||
    decide (0x2000 ≤ c.toNat ∧ c.toNat ≤ 0x200A) ||
    [0xA0, 0x1680, 0x2028, 0x2029, 0x202F, 0x205F, 0x3000].contains c.toNat

def trim (t : Text) : Text := ((t.dropWhile isWhitespace).reverse.dropWhile isWhitespace).reverse

def isBlank (t : Text) : Bool := t.all isWhitespace

def isTrustedProxy (address : Text) (trustedProxies : List Cidr) : Bool :=
  if trustedProxies = [] then false
  else
    match toBytes address with
    | none => false
    | some bytes => trustedProxies.any fun c => c.contains bytes

def removePrefix (t : Text) : Text :=
  match t with
  | '[' :: t => t
  | t => t

def substringBefore (d : Char) (t : Text) : Text := t.takeWhile fun c => decide (c ≠ d)

def normalize (value : Text) : Option Text :=
  let withoutBrackets := substringBefore ']' (removePrefix value)
  let candidate := if withoutBrackets.count ':' = 1 then substringBefore ':' withoutBrackets else withoutBrackets
  if toBytes candidate ≠ none then some candidate else none

def untrusted (trustedProxies : List Cidr) (candidate : Text) : Option Text :=
  (normalize candidate).bind fun normalized =>
    if isTrustedProxy normalized trustedProxies then none else some normalized

def resolve (socketAddress : Text) (forwardedFor : Option Text) (trustedProxies : List Cidr) : Text :=
  match forwardedFor with
  | none => socketAddress
  | some header =>
    if isBlank header then socketAddress
    else if isTrustedProxy socketAddress trustedProxies = false then socketAddress
    else
      let chain := ((header.splitOn ',').map trim).filter fun t => decide (t ≠ [])
      (chain.reverse.findSome? (untrusted trustedProxies)).getD socketAddress

/-! ## The list of trusted proxies -/

/-- `toIntOrNull`, with what `Character.digit` makes of a character. -/
def toIntOrNull (digit : Char → Option ℕ) (t : Text) : Option ℤ :=
  let digits (t : Text) : Option ℕ := if t = [] then none else t.foldlM (fun n c => (digit c).map fun d => n * 10 + d) 0
  match t with
  | [] => none
  | c :: rest =>
    if '0' ≤ c then (digits (c :: rest)).bind fun n => if n < 2 ^ 31 then some (n : ℤ) else none
    else if c = '-' then (digits rest).bind fun n => if n ≤ 2 ^ 31 then some (-(n : ℤ)) else none
    else if c = '+' then (digits rest).bind fun n => if n < 2 ^ 31 then some (n : ℤ) else none
    else none

def parseEntry (digit : Char → Option ℕ) (entry : Text) : Option Cidr :=
  let trimmed := trim entry
  if trimmed = [] then none
  else
    (toBytes (substringBefore '/' trimmed)).bind fun bytes =>
      (if '/' ∈ trimmed then toIntOrNull digit ((trimmed.dropWhile fun c => decide (c ≠ '/')).drop 1)
        else some (bytes.length * 8 : ℕ)).bind fun prefixBits =>
        if 0 ≤ prefixBits ∧ prefixBits ≤ (bytes.length * 8 : ℕ) then some ⟨bytes, prefixBits⟩ else none

def parseTrusted (digit : Char → Option ℕ) (value : Option Text) : List Cidr :=
  match value with
  | none => []
  | some t => if isBlank t then [] else (t.splitOn ',').filterMap (parseEntry digit)

end ClientAddress
end SecureChat
