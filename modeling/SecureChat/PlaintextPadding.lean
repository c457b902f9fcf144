import Mathlib
import SecureChat.DartInt
/-!
# PlaintextPadding — texts padded to buckets before they are encrypted

A text is a list of UTF-16 code units.  The padded text begins with a mark and the length of the text, and zeros fill
the bucket up; the size of the bucket depends on the bytes of header and text together, and above the largest bucket
nothing is filled up.  A text without the mark is read as it is.
-/
namespace SecureChat
namespace PlaintextPadding

open GroupControl (Text)

abbrev Units := List UInt16

def ascii (t : Text) : Units := t.map fun c => UInt16.ofNat c.toNat

def chars (l : Units) : Text := l.map fun u => Char.ofNat u.toNat

def isHigh (u : UInt16) : Bool := decide (0xD800 ≤ u ∧ u < 0xDC00)

def isLow (u : UInt16) : Bool := decide (0xDC00 ≤ u ∧ u < 0xE000)

def unitBytes (u : UInt16) : ℕ := if u < 0x80 then 1 else if u < 0x800 then 2 else 3

/-- `utf8.encode(text).length` -/
def utf8Length : Units → ℕ
  | [] => 0
  | [u] => unitBytes u
  | u :: v :: l => if isHigh u = true ∧ isLow v = true then 4 + utf8Length l else unitBytes u + utf8Length (v :: l)

def marker : Units := [0, 80, 49, 58]

def separator : UInt16 := 58

def bucketFor (bytes : ℕ) : ℕ :=
  if bytes ≤ 4096 then 256
  else if bytes ≤ 65536 then 4096
  else 0

def header (plaintext : Units) : Units :=
  marker ++ ascii (DartInt.print (Int64.ofNat plaintext.length)) ++ [separator]

def total (plaintext : Units) : ℕ := (header plaintext).length + utf8Length plaintext

def fill (plaintext : Units) : ℕ :=
  let block := bucketFor (total plaintext)
  (total plaintext + block - 1) / block * block - total plaintext

def padPlaintext (plaintext : Units) : Units :=
  if bucketFor (total plaintext) = 0 then header plaintext ++ plaintext
  else header plaintext ++ plaintext ++ List.replicate (fill plaintext) 0

inductive Failure where
  | formatException (message : String)
  | rangeError
deriving DecidableEq

/-- The loop over the padding, from `i`: an index below zero is out of range. -/
def checkPadding (value : Units) (i : Int64) : Except Failure Unit :=
  if i < 0 then .error .rangeError
  else if (value.drop i.toInt.toNat).all (fun u => decide (u = 0)) = true then .ok ()
  else .error (.formatException "Invalid plaintext padding")

def lengthField (value : Units) : Units := (value.drop marker.length).takeWhile fun u => decide (u ≠ separator)

/-- `int.tryParse` of the field, if there is one. -/
def parsedLength (value : Units) : Option Int64 :=
  if separator ∈ value.drop marker.length then DartInt.tryParse (chars (lengthField value)) else none

def start (value : Units) : ℕ := marker.length + (lengthField value).length + 1

def unpadPlaintext (value : Units) : Except Failure Units :=
  if value.take marker.length ≠ marker then .ok value
  else
    match parsedLength value with
    | none => .error (.formatException "Invalid padded plaintext")
    | some length =>
      -- the sum wraps at 64 bits
      if length < 0 ∨ Int64.ofNat value.length < Int64.ofNat (start value) + length then
        .error (.formatException "Invalid padded plaintext")
      else
        (checkPadding value (Int64.ofNat (start value) + length)).map fun _ =>
          (value.drop (start value)).take length.toInt.toNat

theorem chars_ascii : ∀ {t : Text}, (∀ c ∈ t, (UInt16.ofNat c.toNat).toNat = c.toNat) → chars (ascii t) = t
  | [], _ => rfl
  | c :: t, h => by
    have hc : Char.ofNat (UInt16.ofNat c.toNat).toNat = c := by rw [h c List.mem_cons_self, Char.ofNat_toNat]
    exact congrArg₂ List.cons hc (chars_ascii fun d hd => h d (List.mem_cons_of_mem c hd))

end PlaintextPadding
end SecureChat
