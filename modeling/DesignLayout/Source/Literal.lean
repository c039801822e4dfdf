import DesignLayout.Property

/-!
# Design values in source text

Lengths are in units of `dp` and type sizes in units of `sp`.  A number that
is not finite has no source text.
-/

namespace DesignLayout

/-- A value that source text cannot express. -/
inductive Unwritable where
  | number (value : Float)
  | color (value : Color)
  deriving DecidableEq, Repr

namespace Unwritable

/-- The kind of the value, as messages name it. -/
def kind : Unwritable → String
  | .number _ => "number"
  | .color _ => "color"

/-- The value, as messages show it. -/
def shown : Unwritable → String
  | .number value => NumberStyle.source.text value
  | .color value =>
    "Color \x7b r: " ++ NumberStyle.message.text value.red ++
      ", g: " ++ NumberStyle.message.text value.green ++
      ", b: " ++ NumberStyle.message.text value.blue ++
      ", a: " ++ NumberStyle.message.text value.alpha ++ " \x7d"

def message (unsupported : Unwritable) : String :=
  "Unsupported " ++ unsupported.kind ++ " value: " ++ unsupported.shown

end Unwritable

namespace Source

/-- A finite number. -/
def number (value : Float) : Except Unwritable String :=
  if finiteNumber value then .ok (NumberStyle.source.text value) else .error (.number value)

/-- The whole number nearest to a finite number. -/
def wholeNumber (value : Float) : Except Unwritable String :=
  if finiteNumber value then .ok (wholeText value) else .error (.number value)

def color (value : Color) : Except Unwritable String :=
  if value.channels.all finiteNumber then .ok ("Color(0x" ++ value.hex ++ ")")
  else .error (.color value)

/-- One character of a string literal.  The dollar sign would start a
template. -/
def escapedCharacter (character : Char) : List Char :=
  if character = '\\' then ['\\', '\\']
  else if character = '"' then ['\\', '"']
  else if character = '$' then ['\\', '$']
  else if character = '\n' then ['\\', 'n']
  else if character = '\r' then ['\\', 'r']
  else if character = '\t' then ['\\', 't']
  else [character]

/-- A text as it stands between the quotes of a string literal. -/
def escaped (text : String) : String :=
  String.ofList (text.toList.flatMap escapedCharacter)

def stringLiteral (text : String) : String :=
  "\"" ++ escaped text ++ "\""

/-- A type size. -/
def typeSize (value : Float) : Except Unwritable String := do
  return (← number value) ++ ".sp"

/-- The extra space between characters, where it is given in pixels and shows. -/
def letterSpacing? (spacing : LetterSpacing) : Except Unwritable (Option String) :=
  if spacing.unit == .pixels && spacing.value != 0.0 then do
    return some ("letterSpacing = " ++ (← typeSize spacing.value))
  else .ok none

/-- The height of a line, where it is given in pixels. -/
def lineHeight? (height : LineHeight) : Except Unwritable (Option String) :=
  match height.inPixels? with
  | some value => do return some ("lineHeight = " ++ (← typeSize value))
  | none => .ok none

def decoration? : TextDecoration → Option String
  | .none => none
  | .underline => some "textDecoration = TextDecoration.Underline"
  | .strikethrough => some "textDecoration = TextDecoration.LineThrough"

def fontStyle (font : Typography) : Except Unwritable String := do
  let weight := "fontWeight = FontWeight(" ++ (← wholeNumber font.weight) ++ ")"
  let size := "fontSize = " ++ (← typeSize font.size)
  let slant := if font.face.isSlanted then some "fontStyle = FontStyle.Italic" else none
  let spacing ← letterSpacing? font.letterSpacing
  let height ← lineHeight? font.lineHeight
  let parts := [some weight, some size, slant, spacing, height, decoration? font.decoration]
  return "TextStyle(" ++ ", ".intercalate (parts.filterMap id) ++ ")"

end Source

/-- The source text of a design value. -/
def Primitive.source : Primitive → Except Unwritable String
  | .number value => do return (← Source.number value) ++ ".dp"
  | .text value => .ok (Source.stringLiteral value)
  | .color value => Source.color value
  | .font value => Source.fontStyle value

end DesignLayout
