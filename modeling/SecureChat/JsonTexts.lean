import SecureChat.PlaintextPadding
import SecureChat.JsonNumbers
/-!
# JsonTexts — documents and their texts

A text is cut into tokens and the tokens are read with a stack of the lists and maps that are open, so both readers go
over their input once.  A document is written without spaces; half of a surrogate pair is written by its number.  A key
that comes again replaces the value and keeps its place.
-/
namespace SecureChat
namespace JsonText

open PlaintextPadding (Units ascii chars isHigh isLow)
open JsonNumbers (Double Number)

inductive Value
  | null
  | bool (b : Bool)
  | int (n : Int64)
  | double (d : Double)
  | str (u : Units)
  | arr (items : List Value)
  | obj (entries : List (Units × Value))

abbrev Entries := List (Units × Value)

/-- `map[key] = value` -/
def put : Entries → Units → Value → Entries
  | []               , key, v => [(key, v)]
  | (k, old) :: rest, key, v => if k = key then (k, v) :: rest else (k, old) :: put rest key v

inductive Token
  | beginObject
  | endObject
  | beginArray
  | endArray
  | colon
  | comma
  | str (u : Units)
  | atom (v : Value)

/-! ## Cutting a text into tokens -/

def ofNumber : Number → Value
  | .int n => .int n
  | .double d => .double d

/-- `null`, `true`, `false` or a number. -/
def atomOf (u : Units) : Option Value :=
  if u = ascii "null".toList then some .null
  else if u = ascii "true".toList then some (.bool true)
  else if u = ascii "false".toList then some (.bool false)
  else (JsonNumbers.number (chars u)).map ofNumber

def isAtomUnit (u : UInt16) : Bool :=
  decide (97 ≤ u ∧ u ≤ 122) || decide (65 ≤ u ∧ u ≤ 90) || decide (48 ≤ u ∧ u ≤ 57) || decide (u = 43) ||
    decide (u = 45) || decide (u = 46)

def isSpace (u : UInt16) : Bool := decide (u = 32) || decide (u = 9) || decide (u = 10) || decide (u = 13)

def quote : UInt16 := 34

def backslash : UInt16 := 92

def delimiter (u : UInt16) : Option Token :=
  if u = 123 then some .beginObject
  else if u = 125 then some .endObject
  else if u = 91 then some .beginArray
  else if u = 93 then some .endArray
  else if u = 58 then some .colon
  else if u = 44 then some .comma
  else none

def hexValue (u : UInt16) : Option ℕ :=
  if 48 ≤ u ∧ u ≤ 57 then some (u.toNat - 48)
  else if 97 ≤ u ∧ u ≤ 102 then some (u.toNat - 87)
  else if 65 ≤ u ∧ u ≤ 70 then some (u.toNat - 55)
  else none

def unescape (u : UInt16) : Option UInt16 :=
  if u = quote ∨ u = backslash ∨ u = 47 then some u
  else if u = 98 then some 8
  else if u = 102 then some 12
  else if u = 110 then some 10
  else if u = 114 then some 13
  else if u = 116 then some 9
  else none

inductive Mode
  | between
  | atom (read : Units)
  | string (read : Units)
  | escape (read : Units)
  | unicode (read : Units) (missing : ℕ) (value : ℕ)

def start (u : UInt16) : Option (List Token × Mode) :=
  if isSpace u = true then some ([], .between)
  else if u = quote then some ([], .string [])
  else if isAtomUnit u = true then some ([], .atom [u])
  else (delimiter u).map fun t => ([t], .between)

def scan : Mode → UInt16 → Option (List Token × Mode)
  | .between, u => start u
  | .atom read, u =>
    if isAtomUnit u = true then some ([], .atom (read ++ [u]))
    else (atomOf read).bind fun v => (start u).map fun r => (.atom v :: r.1, r.2)
  | .string read, u =>
    if u = quote then some ([.str read], .between)
    else if u = backslash then some ([], .escape read)
    else if u < 32 then none
    else some ([], .string (read ++ [u]))
  | .escape read, u =>
    if u = 117 then some ([], .unicode read 3 0)
    else (unescape u).map fun v => ([], .string (read ++ [v]))
  | .unicode read 0 value, u =>
    (hexValue u).map fun d => ([], .string (read ++ [UInt16.ofNat (value * 16 + d)]))
  | .unicode read (k + 1) value, u => (hexValue u).map fun d => ([], .unicode read k (value * 16 + d))

def stop : Mode → Option (List Token)
  | .between => some []
  | .atom read => (atomOf read).map fun v => [.atom v]
  | _ => none

def lex : Mode → Units → Option (List Token)
  | m, [] => stop m
  | m, u :: l => (scan m u).bind fun r => (lex r.2 l).map fun ts => r.1 ++ ts

/-! ## Reading tokens -/

/-- A list or a map that is open; of a map also the key that a value is read for. -/
inductive Frame
  | arr (items : List Value)
  | obj (entries : Entries) (key : Units)

inductive State
  | value (stack : List Frame)
  | firstItem (stack : List Frame)
  | firstKey (stack : List Frame)
  | key (entries : Entries) (stack : List Frame)
  | colon (entries : Entries) (key : Units) (stack : List Frame)
  | after (v : Value) (stack : List Frame)

def begin (stack : List Frame) : Token → Option State
  | .atom v => some (.after v stack)
  | .str u => some (.after (.str u) stack)
  | .beginArray => some (.firstItem stack)
  | .beginObject => some (.firstKey stack)
  | _ => none

def next (v : Value) : List Frame → Token → Option State
  | .arr items :: stack, .comma => some (.value (.arr (items ++ [v]) :: stack))
  | .arr items :: stack, .endArray => some (.after (.arr (items ++ [v])) stack)
  | .obj entries key :: stack, .comma => some (.key (put entries key v) stack)
  | .obj entries key :: stack, .endObject => some (.after (.obj (put entries key v)) stack)
  | _, _ => none

def step : State → Token → Option State
  | .value stack, t => begin stack t
  | .firstItem stack, .endArray => some (.after (.arr []) stack)
  | .firstItem stack, t => begin (.arr [] :: stack) t
  | .firstKey stack, .endObject => some (.after (.obj []) stack)
  | .firstKey stack, .str u => some (.colon [] u stack)
  | .key entries stack, .str u => some (.colon entries u stack)
  | .colon entries key stack, .colon => some (.value (.obj entries key :: stack))
  | .after v stack, t => next v stack t
  | _, _ => none

def finished : State → Option Value
  | .after v [] => some v
  | _ => none

def parse : State → List Token → Option Value
  | s, [] => finished s
  | s, t :: ts => (step s t).bind fun s' => parse s' ts

/-- `jsonDecode(text)` -/
def decode (text : Units) : Option Value := (lex .between text).bind (parse (.value []))

/-! ## Writing -/

def hexDigit (d : ℕ) : UInt16 := if d < 10 then UInt16.ofNat (48 + d) else UInt16.ofNat (87 + d)

def numbered (u : UInt16) : Units :=
  [backslash, 117, hexDigit (u.toNat / 4096), hexDigit (u.toNat / 256 % 16), hexDigit (u.toNat / 16 % 16),
    hexDigit (u.toNat % 16)]

def escapedUnit (u : UInt16) : Units :=
  if u = quote ∨ u = backslash then [backslash, u]
  else if u = 8 then [backslash, 98]
  else if u = 9 then [backslash, 116]
  else if u = 10 then [backslash, 110]
  else if u = 12 then [backslash, 102]
  else if u = 13 then [backslash, 114]
  else if u < 32 ∨ isHigh u = true ∨ isLow u = true then numbered u
  else [u]

def escaped : Units → Units
  | [] => []
  | [u] => escapedUnit u
  | u :: v :: l =>
    if isHigh u = true ∧ isLow v = true then u :: v :: escaped l else escapedUnit u ++ escaped (v :: l)

def atomText : Value → Units
  | .null => ascii "null".toList
  | .bool true => ascii "true".toList
  | .bool false => ascii "false".toList
  | .int n => ascii (DartInt.print n)
  | .double d => ascii d.print
  | _ => []

def Token.text : Token → Units
  | .beginObject => [123]
  | .endObject => [125]
  | .beginArray => [91]
  | .endArray => [93]
  | .colon => [58]
  | .comma => [44]
  | .str u => quote :: escaped u ++ [quote]
  | .atom v => atomText v

mutual

def tokens : Value → List Token
  | .null => [.atom .null]
  | .bool b => [.atom (.bool b)]
  | .int n => [.atom (.int n)]
  | .double d => [.atom (.double d)]
  | .str u => [.str u]
  | .arr [] => [.beginArray, .endArray]
  | .arr (v :: l) => .beginArray :: tokens v ++ moreItems l
  | .obj [] => [.beginObject, .endObject]
  | .obj ((k, v) :: l) => .beginObject :: .str k :: .colon :: tokens v ++ moreEntries l

def moreItems : List Value → List Token
  | [] => [.endArray]
  | v :: l => .comma :: tokens v ++ moreItems l

def moreEntries : List (Units × Value) → List Token
  | [] => [.endObject]
  | (k, v) :: l => .comma :: .str k :: .colon :: tokens v ++ moreEntries l

end

mutual

def isFinite : Value → Bool
  | .double d => d.isFinite
  | .arr l => finiteItems l
  | .obj l => finiteEntries l
  | _ => true

def finiteItems : List Value → Bool
  | [] => true
  | v :: l => isFinite v && finiteItems l

def finiteEntries : List (Units × Value) → Bool
  | [] => true
  | (_, v) :: l => isFinite v && finiteEntries l

end

def print (v : Value) : Units := (tokens v).flatMap Token.text

/-- `jsonEncode(value)`: a number that is not finite has no text. -/
def encode (v : Value) : Option Units := if isFinite v = true then some (print v) else none

end JsonText
end SecureChat
