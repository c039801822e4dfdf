/-!
# Data values

A value as a data file states it.  Fields keep their order, and one name may
come several times.  A whole number and a number with a point or an exponent
are different values.
-/

namespace DesignLayout

inductive Json where
  | null
  | bool (value : Bool)
  | int (value : Int)
  | float (value : Float)
  | str (value : String)
  | arr (items : List Json)
  | obj (fields : List (String × Json))
  /-- Well-formed text that no value stands for: a number beyond all floats,
  half of a character, or what lies too deep. -/
  | unreadable
  deriving Repr

namespace Json

instance : Inhabited Json := ⟨null⟩

mutual

/-- How deep the containers of a value are nested. -/
def depth : Json → Nat
  | .arr items => depthItems items + 1
  | .obj fields => depthFields fields + 1
  | _ => 0

def depthItems : List Json → Nat
  | [] => 0
  | item :: rest => max item.depth (depthItems rest)

def depthFields : List (String × Json) → Nat
  | [] => 0
  | (_, value) :: rest => max value.depth (depthFields rest)

end

mutual

/-- Whether every part of a value is readable. -/
def isReadable : Json → Bool
  | .unreadable => false
  | .arr items => readableItems items
  | .obj fields => readableFields fields
  | _ => true

def readableItems : List Json → Bool
  | [] => true
  | item :: rest => item.isReadable && readableItems rest

def readableFields : List (String × Json) → Bool
  | [] => true
  | (_, value) :: rest => value.isReadable && readableFields rest

end

end Json

end DesignLayout
