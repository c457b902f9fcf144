import Mathlib
import SecureChat.GroupControl
/-!
# Json — decoded documents and the casts that read them

A document as the decoder leaves it.  The casts are those of the source: `as T?` lets an absent value through and fails
on a value of another type.
-/
namespace SecureChat

open GroupControl (Text)

/-- A number with a fraction or an exponent is known by the integer it truncates to, if it is finite. -/
inductive Json
  | null
  | bool (b : Bool)
  | int (n : ℤ)
  | double (truncated : Option ℤ)
  | str (t : Text)
  | arr (items : List Json)
  | obj (fields : List (String × Json))

namespace Json

abbrev Fields := List (String × Json)

/-- `json[key]`: an absent field is null. -/
def get : Fields → String → Json
  | []            , _ => .null
  | (k, v) :: rest, key => if k = key then v else get rest key

def asString? : Json → Option (Option Text)
  | .null => some none
  | .str t => some (some t)
  | _ => none

def asString : Json → Option Text
  | .str t => some t
  | _ => none

def asBool? : Json → Option (Option Bool)
  | .null => some none
  | .bool b => some (some b)
  | _ => none

/-- `(as num?)?.toInt()` -/
def toInt? : Json → Option (Option ℤ)
  | .null => some none
  | .int n => some (some n)
  | .double (some n) => some (some n)
  | _ => none

/-- `(as num).toInt()` -/
def toInt : Json → Option ℤ
  | .int n => some n
  | .double (some n) => some n
  | _ => none

def asList : Json → Option (List Json)
  | .arr items => some items
  | _ => none

def asMap : Json → Option Fields
  | .obj fields => some fields
  | _ => none

/-- `(as List?)?.cast<String>()`, read to its end. -/
def strings? : Json → Option (Option (List Text))
  | .null => some none
  | .arr items => (items.mapM asString).map some
  | _ => none

def orNull {α : Type} (f : α → Json) : Option α → Json
  | none => .null
  | some a => f a

def unlessNull {α : Type} (key : String) (f : α → Json) : Option α → Fields
  | none => []
  | some a => [(key, f a)]

def strings (l : List Text) : Json := .arr (l.map .str)

theorem mapM_map {α β : Type} {f : α → β} {g : β → Option α} (h : ∀ a, g (f a) = some a) :
    ∀ l : List α, (l.map f).mapM g = some l
  | [] => rfl
  | a :: l => by simp [h, mapM_map h l]

@[simp] theorem asString?_str (t : Text) : asString? (.str t) = some (some t) := rfl

@[simp] theorem asString_str (t : Text) : asString (.str t) = some t := rfl

@[simp] theorem asBool?_bool (b : Bool) : asBool? (.bool b) = some (some b) := rfl

@[simp] theorem toInt?_int (n : ℤ) : toInt? (.int n) = some (some n) := rfl

@[simp] theorem toInt_int (n : ℤ) : toInt (.int n) = some n := rfl

@[simp] theorem asList_arr (l : List Json) : asList (.arr l) = some l := rfl

@[simp] theorem asMap_obj (l : Fields) : asMap (.obj l) = some l := rfl

@[simp] theorem asString?_null : asString? .null = some none := rfl

@[simp] theorem toInt?_null : toInt? .null = some none := rfl

@[simp] theorem strings?_null : strings? .null = some none := rfl

@[simp] theorem strings?_strings (l : List Text) : strings? (strings l) = some (some l) := by
  simp [strings, strings?, mapM_map (f := Json.str) (g := asString) fun _ => rfl]

@[simp] theorem asString?_orNull (o : Option Text) : asString? (orNull .str o) = some o := by cases o <;> rfl

@[simp] theorem toInt?_orNull (o : Option ℤ) : toInt? (orNull .int o) = some o := by cases o <;> rfl

@[simp] theorem strings?_orNull (o : Option (List Text)) : strings? (orNull strings o) = some o := by
  cases o with
  | none => rfl
  | some l => exact strings?_strings l

@[simp] theorem elim_null {α : Type} (f : α → Json) (o : Option α) : o.elim .null f = orNull f o := by cases o <;> rfl

@[simp] theorem get_nil (key : String) : get [] key = .null := rfl

@[simp] theorem get_cons (key key' : String) (v : Json) (rest : Fields) :
    get ((key, v) :: rest) key' = if key = key' then v else get rest key' := rfl

@[simp] theorem get_unlessNull_append {α : Type} (key key' : String) (f : α → Json) (o : Option α) (rest : Fields) :
    get (unlessNull key f o ++ rest) key' = if key = key' then o.elim (get rest key') f else get rest key' := by
  cases o <;> simp [unlessNull]

@[simp] theorem get_unlessNull {α : Type} (key key' : String) (f : α → Json) (o : Option α) :
    get (unlessNull key f o) key' = if key = key' then orNull f o else .null := by
  cases o <;> simp [unlessNull, orNull]

end Json
end SecureChat
