import SecureChat.JsonBytes
import SecureChat.Collections
/-!
# SignalFields — the fields of signal messages

A message is written as a map literal of texts, numbers, flags, lists and maps of texts, and read with the casts of the
source: `as String?` lets an absent field through and throws on a value of another type.  Times are written as whole
milliseconds and read as local times.
-/
namespace SecureChat
namespace Signals

open PlaintextPadding (Units)
open JsonText (Value Entries put keys WellFormed WellFormedEntries WellFormedItems isFinite finiteItems finiteEntries
  nodup_put wellFormed_put)
open JsonNumbers (Double)

/-- What is thrown: a reader of the library knows a text of its own for what is `unreadable`. -/
inductive Failure
  | format (message : String)
  | unreadable
  | type
  | unsupported
  | unencodable
  | range
  | argument (message : String)
deriving DecidableEq

/-! ## Times -/

def maxMillis : ℕ := 8640000000000000

/-- A time in microseconds since the epoch. -/
structure DateTime where
  micros : ℤ
  isUtc : Bool
  le : micros.natAbs ≤ maxMillis * 1000

namespace DateTime

/-- `millisecondsSinceEpoch` -/
def millis (d : DateTime) : ℤ := d.micros.tdiv 1000

/-- `DateTime.fromMillisecondsSinceEpoch(ms)` -/
def ofMillis (ms : ℤ) : Except Failure DateTime :=
  if h : ms.natAbs ≤ maxMillis then .ok ⟨ms * 1000, false, by rw [Int.natAbs_mul]; exact Nat.mul_le_mul_right _ h⟩
  else .error .range

theorem natAbs_millis (d : DateTime) : d.millis.natAbs ≤ maxMillis := by
  rw [millis, Int.natAbs_tdiv]
  exact Nat.div_le_of_le_mul (Nat.le_trans d.le (Nat.le_of_eq (Nat.mul_comm _ _)))

def coarse (d : DateTime) : DateTime :=
  ⟨d.millis * 1000, false, by rw [Int.natAbs_mul]; exact Nat.mul_le_mul_right _ d.natAbs_millis⟩

theorem ofMillis_millis (d : DateTime) : ofMillis d.millis = .ok d.coarse := dif_pos d.natAbs_millis

theorem toInt_millis (d : DateTime) : (Int64.ofInt d.millis).toInt = d.millis := by
  have h := d.natAbs_millis
  have hmax : maxMillis < 2 ^ 63 := by decide
  exact Int64.toInt_ofInt_of_le (by omega) (by omega)

end DateTime

/-! ## Writing -/

def key (name : String) : Units := Utf16.units name.toList

inductive Content
  | null
  | text (u : Units)
  | number (n : Int64)
  | flag (b : Bool)
  | texts (l : List Units)
  | table (t : Table Units Units)

namespace Content

def value : Content → Value
  | .null => .null
  | .text u => .str u
  | .number n => .int n
  | .flag b => .bool b
  | .texts l => .arr (l.map .str)
  | .table t => .obj (t.entries.map fun e => (e.1, .str e.2))

def date (d : DateTime) : Content := .number (Int64.ofInt d.millis)

def orNull (o : Option Units) : Content := o.elim .null .text

def dateOrZero (o : Option DateTime) : Content := o.elim (.number 0) date

end Content

abbrev Fields := List (String × Content)

def unlessNull {α : Type} (name : String) (f : α → Content) (o : Option α) : Fields := o.toList.map fun a => (name, f a)

def ifTrue (b : Bool) (name : String) (c : Content) : Fields := if b then [(name, c)] else []

def mapLiteral (fields : Fields) : Entries := fields.foldl (fun m f => put m (key f.1) f.2.value) []

/-! ## Reading -/

/-- `json[name]`: an absent field is null. -/
def get : Entries → String → Value
  | []            , _ => .null
  | (k, v) :: rest, name => if k = key name then v else get rest name

def asString? : Value → Except Failure (Option Units)
  | .null => .ok none
  | .str u => .ok (some u)
  | _ => .error .type

def asBool? : Value → Except Failure (Option Bool)
  | .null => .ok none
  | .bool b => .ok (some b)
  | _ => .error .type

def truncated (negative : Bool) (bits : ℕ) : Int64 :=
  Int64.ofInt (max (-2 ^ 63) (min (2 ^ 63 - 1) (DartInt.signed negative (Doubles.scaled bits / 2 ^ Doubles.depth))))

/-- `(as num?)?.toInt()` -/
def toInt? : Value → Except Failure (Option Int64)
  | .null => .ok none
  | .int n => .ok (some n)
  | .double (.number negative bits _) =>
    if bits < Doubles.infinite then .ok (some (truncated negative bits)) else .error .unsupported
  | .double .nan => .error .unsupported
  | _ => .error .type

def text (v : Value) (default : String) : Except Failure Units := (asString? v).map fun o => o.getD (key default)

def flag (v : Value) : Except Failure Bool := (asBool? v).map fun o => o.getD false

def integer (v : Value) (default : Int64) : Except Failure Int64 := (toInt? v).map fun o => o.getD default

/-- `_dt(value)` -/
def dt (v : Value) : Except Failure DateTime := (integer v 0).bind fun n => DateTime.ofMillis n.toInt

/-- `value == null ? null : _dt(value)` -/
def dtUnlessNull : Value → Except Failure (Option DateTime)
  | .null => .ok none
  | v => (dt v).map some

/-- `_dtOrNull(value)`: a time up to the epoch is unknown. -/
def dtOrNull (v : Value) : Except Failure (Option DateTime) :=
  (toInt? v).bind fun
    | none => .ok none
    | some n => if n.toInt ≤ 0 then .ok none else (DateTime.ofMillis n.toInt).map some

def textsOf : List Value → List Units
  | [] => []
  | .str u :: l => u :: textsOf l
  | _ :: l => textsOf l

/-- `_stringList(value)` -/
def stringList : Value → List Units
  | .arr l => textsOf l
  | _ => []

mutual

/-- `toString()` -/
def display : Value → Units
  | .null => key "null"
  | .bool b => if b then key "true" else key "false"
  | .int n => PlaintextPadding.ascii (DartInt.print n)
  | .double d => PlaintextPadding.ascii d.print
  | .str u => u
  | .arr l => key "[" ++ displayItems l ++ key "]"
  | .obj l => key "\x7b" ++ displayEntries l ++ key "\x7d"

def displayItems : List Value → Units
  | [] => []
  | [v] => display v
  | v :: w :: l => display v ++ key ", " ++ displayItems (w :: l)

def displayEntries : List (Units × Value) → Units
  | [] => []
  | [(k, v)] => k ++ key ": " ++ display v
  | (k, v) :: e :: l => k ++ key ": " ++ display v ++ key ", " ++ displayEntries (e :: l)

end

/-- `value?.toString() ?? ''` -/
def displayOrEmpty : Value → Units
  | .null => []
  | v => display v

/-- `_stringMap(value)` -/
def stringMap : Value → Table Units Units
  | .obj l => Table.ofList (l.map fun e => (e.1, displayOrEmpty e.2))
  | _ => .empty

/-! ## Tables -/

theorem entries_assign {κ β : Type} [DecidableEq κ] {t : Table κ β} {k : κ} {v : β} (h : t.get k = none) :
    (t.assign k v).entries = t.entries ++ [(k, v)] := by
  show (if (t.get k).isSome = true then _ else _) = _
  rw [h]
  rfl

theorem entries_foldl_assign {κ β : Type} [DecidableEq κ] : ∀ (l : List (κ × β)) (t : Table κ β),
    ((t.entries ++ l).map Prod.fst).Nodup → (l.foldl (fun t x => t.assign x.1 x.2) t).entries = t.entries ++ l
  | [], _, _ => (List.append_nil _).symm
  | x :: l, t, h => by
    have hnone : t.get x.1 = none := by
      refine Table.get_eq_none.2 fun hmem => ?_
      rw [List.map_append] at h
      exact List.disjoint_of_nodup_append h hmem List.mem_cons_self
    have hentries : (t.assign x.1 x.2).entries ++ l = t.entries ++ x :: l := by
      rw [entries_assign hnone, List.append_assoc]
      rfl
    rw [List.foldl_cons, entries_foldl_assign l _ (by rw [hentries]; exact h), hentries]

theorem ofList_entries {κ β : Type} [DecidableEq κ] (t : Table κ β) : Table.ofList t.entries = t := by
  have h := entries_foldl_assign t.entries Table.empty t.nodup
  cases t with
  | mk entries nodup =>
    cases hl : Table.ofList entries with
    | mk entries' nodup' =>
      have heq : entries' = entries := (congrArg Table.entries hl).symm.trans h
      subst heq
      rfl

/-! ## What is written is read back -/

theorem key_inj {s t : String} : key s = key t ↔ s = t := Utf16.units_inj.trans String.toList_inj

theorem get_put (l : Entries) (name name' : String) (v : Value) :
    get (put l (key name) v) name' = if name = name' then v else get l name' := by
  induction l with
  | nil => simp [put, get, key_inj]
  | cons e l ih =>
    obtain ⟨k, old⟩ := e
    rw [put]
    by_cases hk : k = key name
    · rw [if_pos hk, get, hk]
      by_cases hname : name = name'
      · rw [if_pos hname, if_pos (key_inj.2 hname)]
      · have hkey : key name ≠ key name' := fun h => hname (key_inj.1 h)
        rw [if_neg hname, if_neg hkey, get, if_neg hkey]
    · rw [if_neg hk, get, get, ih]
      by_cases hname : name = name'
      · subst hname
        rw [if_pos rfl, if_neg hk, if_pos rfl]
      · rw [if_neg hname, if_neg hname]

def found : Fields → String → Value
  | []            , _ => .null
  | (n, c) :: rest, name => if n = name then c.value else found rest name

theorem get_mapLiteral (fields : Fields) (name : String) :
    get (mapLiteral fields) name = found fields.reverse name := by
  induction fields using List.reverseRecOn with
  | nil => rfl
  | append_singleton l f ih =>
    rw [mapLiteral, List.foldl_append, List.reverse_append]
    show get (put (mapLiteral l) (key f.1) f.2.value) name = if f.1 = name then f.2.value else found l.reverse name
    rw [get_put, ih]

@[simp] theorem found_nil (name : String) : found [] name = .null := rfl

@[simp] theorem found_cons (n name : String) (c : Content) (rest : Fields) :
    found ((n, c) :: rest) name = if n = name then c.value else found rest name := rfl

@[simp] theorem found_unlessNull_append {α : Type} (n name : String) (f : α → Content) (o : Option α) (rest : Fields) :
    found ((unlessNull n f o).reverse ++ rest) name =
      if n = name then o.elim (found rest name) fun a => (f a).value else found rest name := by
  cases o <;> simp [unlessNull, found_cons]

@[simp] theorem found_ifTrue_append (b : Bool) (n name : String) (c : Content) (rest : Fields) :
    found ((ifTrue b n c).reverse ++ rest) name = if n = name ∧ b = true then c.value else found rest name := by
  cases b <;> simp [ifTrue, found_cons]

/-! ## Maps that are written -/

theorem finite_put : ∀ {l : Entries} {v : Value} (k : Units), finiteEntries l = true → isFinite v = true →
    finiteEntries (put l k v) = true
  | [], v, k, _, hv => Bool.and_eq_true_iff.2 ⟨hv, rfl⟩
  | (k', old) :: l, v, k, h, hv => by
    obtain ⟨hold, hl⟩ := Bool.and_eq_true_iff.1 h
    unfold put
    split
    · exact Bool.and_eq_true_iff.2 ⟨hv, hl⟩
    · exact Bool.and_eq_true_iff.2 ⟨hold, finite_put k hl hv⟩

structure Printable (json : Entries) : Prop where
  nodup : (keys json).Nodup
  values : WellFormedEntries json
  finite : finiteEntries json = true

theorem Printable.put {json : Entries} (h : Printable json) (k : Units) {v : Value} (hv : WellFormed v)
    (hf : isFinite v = true) : Printable (put json k v) :=
  ⟨nodup_put h.nodup k v, wellFormed_put k h.values hv, finite_put k h.finite hf⟩

theorem wellFormedItems_str : ∀ l : List Units, WellFormedItems (l.map .str)
  | [] => trivial
  | _ :: l => ⟨trivial, wellFormedItems_str l⟩

theorem finiteItems_str : ∀ l : List Units, finiteItems (l.map .str) = true
  | [] => rfl
  | _ :: l => finiteItems_str l

theorem wellFormedEntries_str : ∀ l : List (Units × Units), WellFormedEntries (l.map fun e => (e.1, .str e.2))
  | [] => trivial
  | _ :: l => ⟨trivial, wellFormedEntries_str l⟩

theorem finiteEntries_str : ∀ l : List (Units × Units), finiteEntries (l.map fun e => (e.1, .str e.2)) = true
  | [] => rfl
  | _ :: l => finiteEntries_str l

theorem Content.wellFormed (c : Content) : WellFormed c.value := by
  cases c with
  | texts l => exact wellFormedItems_str l
  | table t =>
    refine ⟨?_, wellFormedEntries_str t.entries⟩
    rw [keys, List.map_map]
    exact t.nodup
  | _ => trivial

theorem Content.finite (c : Content) : isFinite c.value = true := by
  cases c with
  | texts l => exact finiteItems_str l
  | table t => exact finiteEntries_str t.entries
  | _ => rfl

theorem printable_mapLiteral (fields : Fields) : Printable (mapLiteral fields) := by
  have hfold : ∀ (fields : Fields) (json : Entries), Printable json →
      Printable (fields.foldl (fun m f => put m (key f.1) f.2.value) json) := by
    intro fields
    induction fields with
    | nil => exact fun _ h => h
    | cons f rest ih => exact fun json h => ih _ (h.put (key f.1) f.2.wellFormed f.2.finite)
  exact hfold fields [] ⟨List.nodup_nil, trivial, rfl⟩

theorem Printable.encode {json : Entries} (h : Printable json) :
    JsonText.encode (.obj json) = some (JsonText.print (.obj json)) :=
  if_pos h.finite

theorem Printable.decode {json : Entries} (h : Printable json) :
    JsonText.decode (JsonText.print (.obj json)) = some (.obj json) :=
  JsonText.decode_encode ⟨h.nodup, h.values⟩ h.encode

end Signals
end SecureChat
