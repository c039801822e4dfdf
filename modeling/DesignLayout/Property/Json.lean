import DesignLayout.Json.Record
import DesignLayout.Property

/-!
# Properties as data values

A linked property is a record of the id, name and value of its token; any
other property is the value itself.  Words are written in capitals.
-/

namespace DesignLayout

open Json (requiredField defaultedField optionalField)

namespace Color

def toJson (color : Color) : Json :=
  .obj [("r", .float color.red), ("g", .float color.green), ("b", .float color.blue),
    ("a", .float color.alpha)]

/-- Paints carry their alpha separately, so a color without alpha is opaque. -/
def ofJson? : Json → Option Color :=
  Json.record? do
    let red ← requiredField "r" Json.float?
    let green ← requiredField "g" Json.float?
    let blue ← requiredField "b" Json.float?
    let alpha ← defaultedField "a" 1.0 Json.float?
    return ⟨red, green, blue, alpha⟩

end Color

namespace FontFace

def toJson (face : FontFace) : Json :=
  .obj [("family", .str face.family), ("style", .str face.style)]

def ofJson? : Json → Option FontFace :=
  Json.record? do
    let family ← requiredField "family" Json.string?
    let style ← requiredField "style" Json.string?
    return ⟨family, style⟩

end FontFace

namespace LengthUnit

def word : LengthUnit → String
  | .pixels => "PIXELS"
  | .percent => "PERCENT"

def ofJson? (loose : Bool) : Json → Option LengthUnit :=
  Json.ofWord? loose ([.pixels, .percent].map fun unit => (unit.word, unit))

end LengthUnit

namespace LetterSpacing

def toJson (spacing : LetterSpacing) : Json :=
  .obj [("unit", .str spacing.unit.word), ("value", .float spacing.value)]

def ofJson? (loose : Bool) : Json → Option LetterSpacing :=
  Json.record? do
    let unit ← requiredField "unit" (LengthUnit.ofJson? loose)
    let value ← requiredField "value" Json.float?
    return ⟨unit, value⟩

end LetterSpacing

namespace LineHeight

def toJson : LineHeight → Json
  | .auto => .obj [("unit", .str "AUTO")]
  | .pixels value => .obj [("unit", .str "PIXELS"), ("value", .float value)]
  | .percent value => .obj [("unit", .str "PERCENT"), ("value", .float value)]

def ofJson? (numbered : Bool) (json : Json) : Option LineHeight := do
  let (unit, rest) ← json.tagged? "unit" ["AUTO", "PIXELS", "PERCENT"] numbered
  match unit with
  | "AUTO" => rest.noFields?.map fun _ => .auto
  | "PIXELS" => (rest.record? (requiredField "value" Json.float?)).map .pixels
  | "PERCENT" => (rest.record? (requiredField "value" Json.float?)).map .percent
  | _ => none

end LineHeight

namespace TextDecoration

def word : TextDecoration → String
  | .none => "NONE"
  | .underline => "UNDERLINE"
  | .strikethrough => "STRIKETHROUGH"

def ofJson? (loose : Bool) : Json → Option TextDecoration :=
  Json.ofWord? loose ([TextDecoration.none, .underline, .strikethrough].map fun decoration =>
    (decoration.word, decoration))

end TextDecoration

namespace TextCase

def word : TextCase → String
  | .asWritten => "ORIGINAL"
  | .upper => "UPPER"
  | .lower => "LOWER"
  | .title => "TITLE"
  | .smallCaps => "SMALL_CAPS"
  | .smallCapsForced => "SMALL_CAPS_FORCED"

def ofJson? (loose : Bool) : Json → Option TextCase :=
  Json.ofWord? loose ([TextCase.asWritten, .upper, .lower, .title, .smallCaps, .smallCapsForced].map
    fun letterCase => (letterCase.word, letterCase))

end TextCase

namespace Typography

def toJson (font : Typography) : Json :=
  .obj [("fontSize", .float font.size), ("fontWeight", .float font.weight),
    ("textDecoration", .str font.decoration.word), ("fontName", font.face.toJson),
    ("letterSpacing", font.letterSpacing.toJson), ("lineHeight", font.lineHeight.toJson),
    ("textCase", .str font.letterCase.word)]

def ofJson? (numbered : Bool) : Json → Option Typography :=
  Json.record? do
    let size ← requiredField "fontSize" Json.float?
    let weight ← requiredField "fontWeight" Json.float?
    let decoration ← requiredField "textDecoration" (TextDecoration.ofJson? false)
    let face ← requiredField "fontName" FontFace.ofJson?
    let letterSpacing ← requiredField "letterSpacing" (LetterSpacing.ofJson? false)
    let lineHeight ← requiredField "lineHeight" (LineHeight.ofJson? numbered)
    let letterCase ← requiredField "textCase" (TextCase.ofJson? false)
    return ⟨size, weight, decoration, face, letterSpacing, lineHeight, letterCase⟩

end Typography

namespace TokenLink

variable {α : Type}

def toJson (write : α → Json) (link : TokenLink α) : Json :=
  .obj [("id", .str link.id), ("name", .str link.name),
    ("value", write link.value)]

def ofJson? (read : Json → Option α) : Json → Option (TokenLink α) :=
  Json.record? do
    let id ← requiredField "id" Json.string?
    let name ← requiredField "name" Json.string?
    let value ← requiredField "value" read
    return ⟨id, name, value⟩

end TokenLink

namespace Property

variable {α : Type}

def toJson (write : α → Json) : Property α → Json
  | .linked link => link.toJson write
  | .own value => write value

/-- What reads as a link is one. -/
def ofJson? (read : Json → Option α) : Json → Option (Property α) :=
  Json.whole? fun json =>
    match TokenLink.ofJson? read json with
    | some link => some (.linked link)
    | none => (read json).map .own

end Property

namespace Dimension

def toJson : Dimension → Json :=
  Property.toJson .float

def ofJson? : Json → Option Dimension :=
  Property.ofJson? Json.float?

end Dimension

end DesignLayout
