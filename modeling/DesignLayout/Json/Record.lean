import DesignLayout.Json.Basic
import DesignLayout.Number.Binary

/-!
# Records in data values

A record is an object with the fields of the record, in any order and with
fields of other names between them, or an array of the fields in the order in
which the record lists them.  No field may come twice.

A kind is one of several records or words.  The kind of a record is a field of
its own, or the first item of the array.
-/

namespace DesignLayout.Json

/-- Where the fields of a record are found. -/
inductive Fields where
  | named (fields : List (String × Json))
  | listed (items : List Json)
  deriving Repr

/-- Reads fields one after the other, in the order of the record. -/
abbrev FieldReader := StateT Fields Option

/-- What is at a field.  A name that comes twice is refused. -/
def Fields.take? (name : String) : Fields → Option (Option Json × Fields)
  | .named fields =>
    match fields.filter fun field => field.1 == name with
    | [] => some (none, .named fields)
    | [field] => some (some field.2, .named fields)
    | _ => none
  | .listed [] => some (none, .listed [])
  | .listed (item :: rest) => some (some item, .listed rest)

def Fields.isNamed : Fields → Bool
  | .named _ => true
  | .listed _ => false

/-- No item of an array is left over; an object may have other fields. -/
def Fields.isFinished : Fields → Bool
  | .named _ => true
  | .listed items => items.isEmpty

/-- A field that may be missing. -/
def field? (name : String) : FieldReader (Option Json) :=
  fun fields => fields.take? name

/-- A field that must be there. -/
def requiredField {α : Type} (name : String) (read : Json → Option α) : FieldReader α := do
  match ← field? name with
  | some value => read value
  | none => failure

/-- A field with a value for when it is missing. -/
def defaultedField {α : Type} (name : String) (default : α) (read : Json → Option α) :
    FieldReader α := do
  match ← field? name with
  | some value => read value
  | none => return default

/-- A value or null. -/
def nullable {α : Type} (read : Json → Option α) : Json → Option (Option α)
  | .null => some none
  | value => (read value).map some

/-- A field that may be null, and may be missing from an object. -/
def optionalField {α : Type} (name : String) (read : Json → Option α) : FieldReader (Option α) := do
  match ← field? name with
  | some value => nullable read value
  | none => if (← get).isNamed then return none else failure

/-- Reads the record in a value. -/
def record? {α : Type} (read : FieldReader α) (value : Json) : Option α := do
  let fields ←
    match value with
    | .obj fields => some (.named fields)
    | .arr items => some (.listed items)
    | _ => none
  let (result, rest) ← read.run fields
  guard rest.isFinished
  return result

def bool? : Json → Option Bool
  | .bool value => some value
  | _ => none

def string? : Json → Option String
  | .str value => some value
  | _ => none

/-- A finite number. -/
def finite? (number : Float) : Option Float :=
  if finiteNumber number then some number else none

/-- A number of either kind, if it is finite. -/
def float? : Json → Option Float
  | .int value => finite? (Float.ofInt value)
  | .float value => finite? value
  | _ => none

/-- A whole number of 32 bits without sign. -/
def uint32? : Json → Option UInt32
  | .int value => if 0 ≤ value ∧ value < UInt32.size then some (UInt32.ofNat value.toNat) else none
  | _ => none

/-- A whole number of 32 bits with sign. -/
def int32? : Json → Option Int32
  | .int value =>
    if Int32.minValue.toInt ≤ value ∧ value ≤ Int32.maxValue.toInt then some (Int32.ofInt value)
    else none
  | _ => none

def list? {α : Type} (read : Json → Option α) : Json → Option (List α)
  | .arr items => items.mapM read
  | _ => none

/-- A word by itself, or as the only name of an object, with null.  Where
`loose`, as in the record of a kind, an empty object may stand for null. -/
def word? (loose : Bool) : Json → Option String
  | .str word => some word
  | .obj [(word, .null)] => some word
  | .obj [(word, .obj [])] => if loose then some word else none
  | _ => none

/-- The value that a word stands for. -/
def ofWord? {α : Type} (loose : Bool) (words : List (String × α)) (value : Json) : Option α := do
  words.lookup (← value.word? loose)

/-- The name of a kind.  Where `numbered`, a kind may also be given by its
place among the kinds. -/
def kindAt? (kinds : List String) (numbered : Bool) : Json → Option String
  | .str name => some name
  | .int place => if numbered ∧ 0 ≤ place then some (kinds.getD place.toNat "") else none
  | _ => none

/-- The kind of a record, and the record without its kind. -/
def tagged? (tag : String) (kinds : List String) (numbered : Bool) :
    Json → Option (String × Json)
  | .obj fields =>
    match fields.filter fun field => field.1 == tag with
    | [field] => do
      let kind ← kindAt? kinds numbered field.2
      return (kind, .obj (fields.filter fun field => field.1 != tag))
    | _ => none
  | .arr (item :: rest) => do
    let kind ← kindAt? kinds numbered item
    return (kind, .arr rest)
  | _ => none

/-- A kind without fields: an object may have any, an array has none. -/
def noFields? : Json → Option Unit
  | .obj _ => some ()
  | .arr [] => some ()
  | _ => none

/-- A value all of whose parts are readable. -/
def whole? {α : Type} (read : Json → Option α) (value : Json) : Option α :=
  if value.isReadable then read value else none

end DesignLayout.Json
