import DesignLayout.Json.Basic
import DesignLayout.Number.Style

/-!
# Data values as text

The compact form has no blanks.  The pretty form puts each item on a line of
its own, two blanks deeper than its container, and empty containers on one
line.
-/

namespace DesignLayout.Json

/-- One character of a string: quotes, backslashes and controls are escaped,
all else stands for itself. -/
def escapedCharacter (character : Char) : List Char :=
  if character = '"' then ['\\', '"']
  else if character = '\\' then ['\\', '\\']
  else if character = '\x08' then ['\\', 'b']
  else if character = '\x0c' then ['\\', 'f']
  else if character = '\n' then ['\\', 'n']
  else if character = '\r' then ['\\', 'r']
  else if character = '\t' then ['\\', 't']
  else if character.toNat < 0x20 then
    ['\\', 'u', '0', '0', Nat.digitChar (character.toNat / 16),
      Nat.digitChar (character.toNat % 16)]
  else [character]

def stringText (value : String) : List Char :=
  '"' :: value.toList.flatMap escapedCharacter ++ ['"']

/-- What is no number of the real line has no number text. -/
def floatText (value : Float) : List Char :=
  if finiteNumber value then (NumberStyle.data.text value).toList else "null".toList

def intText (value : Int) : List Char :=
  if value < 0 then '-' :: Nat.toDigits 10 value.natAbs else Nat.toDigits 10 value.natAbs

/-- The text of a value that holds no other. -/
def scalarText : Json → List Char
  | .bool true => "true".toList
  | .bool false => "false".toList
  | .int value => intText value
  | .float value => floatText value
  | .str value => stringText value
  | _ => "null".toList

mutual

/-- The compact form. -/
def compactText : Json → List Char
  | .arr [] => "[]".toList
  | .arr (item :: rest) => '[' :: item.compactText ++ compactItems rest ++ [']']
  | .obj [] => ['\x7b', '\x7d']
  | .obj ((name, value) :: rest) =>
    '\x7b' :: stringText name ++ ':' :: value.compactText ++ compactFields rest ++ ['\x7d']
  | scalar => scalar.scalarText

def compactItems : List Json → List Char
  | [] => []
  | item :: rest => ',' :: item.compactText ++ compactItems rest

def compactFields : List (String × Json) → List Char
  | [] => []
  | (name, value) :: rest =>
    ',' :: stringText name ++ ':' :: value.compactText ++ compactFields rest

end

/-- The start of a line at a depth. -/
def lineStart (depth : Nat) : List Char :=
  '\n' :: List.replicate (2 * depth) ' '

mutual

/-- The pretty form of a value that stands at a depth. -/
def prettyText (depth : Nat) : Json → List Char
  | .arr [] => "[]".toList
  | .arr (item :: rest) =>
    '[' :: lineStart (depth + 1) ++ prettyText (depth + 1) item ++
      prettyItems (depth + 1) rest ++ lineStart depth ++ [']']
  | .obj [] => ['\x7b', '\x7d']
  | .obj ((name, value) :: rest) =>
    '\x7b' :: lineStart (depth + 1) ++ stringText name ++ ':' :: ' ' ::
      prettyText (depth + 1) value ++ prettyFields (depth + 1) rest ++
      lineStart depth ++ ['\x7d']
  | scalar => scalar.scalarText

def prettyItems (depth : Nat) : List Json → List Char
  | [] => []
  | item :: rest => ',' :: lineStart depth ++ prettyText depth item ++ prettyItems depth rest

def prettyFields (depth : Nat) : List (String × Json) → List Char
  | [] => []
  | (name, value) :: rest =>
    ',' :: lineStart depth ++ stringText name ++ ':' :: ' ' :: prettyText depth value ++
      prettyFields depth rest

end

def compact (value : Json) : String :=
  String.ofList value.compactText

def pretty (value : Json) : String :=
  String.ofList (value.prettyText 0)

end DesignLayout.Json
