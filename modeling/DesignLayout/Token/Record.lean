import DesignLayout.Json.Parser
import DesignLayout.Json.Printer
import DesignLayout.Json.Record
import DesignLayout.Token.Basic

/-!
# Token records

The record of a token is its id, name, value and category as one compact data
text.
-/

namespace DesignLayout

namespace Category

def ofJson? : Json → Option Category :=
  Json.ofWord? false (all.map fun category => (category.name, category))

end Category

namespace Token

def toJson (token : Token) : Json :=
  .obj [("id", .int token.id.toInt), ("name", .str token.name), ("value", .str token.value),
    ("table", .str token.category.name)]

def ofJson? : Json → Option Token :=
  Json.record? do
    let id ← Json.requiredField "id" Json.int32?
    let name ← Json.requiredField "name" Json.string?
    let value ← Json.requiredField "value" Json.string?
    let category ← Json.requiredField "table" Category.ofJson?
    return ⟨id, name, value, category⟩

def record (token : Token) : List Char :=
  token.toJson.compactText

def ofRecord? (text : List Char) : Option Token := do
  ofJson? (← Json.ofCharacters? text)

end Token

end DesignLayout
