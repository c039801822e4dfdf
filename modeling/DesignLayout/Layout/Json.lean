import DesignLayout.Layout.Basic
import DesignLayout.Property.Json

/-!
# Layout trees as data values

A node is a record of its name, modifiers and children, with its kind and the
fields of the kind among them.  An arrangement is a dimension or a word.
-/

namespace DesignLayout

open Json (requiredField optionalField)

/-- The value, or null. -/
def Json.orNull {α : Type} (write : α → Json) : Option α → Json
  | some value => write value
  | none => .null

namespace HorizontalPlacement

def word : HorizontalPlacement → String
  | .spaceBetween => "space_between"
  | .center => "center"
  | .start => "start"
  | .finish => "end"

def words : List (String × HorizontalPlacement) :=
  [.spaceBetween, .center, .start, .finish].map fun placement => (placement.word, placement)

end HorizontalPlacement

namespace VerticalPlacement

def word : VerticalPlacement → String
  | .spaceBetween => "space_between"
  | .center => "center"
  | .top => "top"
  | .bottom => "bottom"

def words : List (String × VerticalPlacement) :=
  [.spaceBetween, .center, .top, .bottom].map fun placement => (placement.word, placement)

end VerticalPlacement

namespace RowAlignment

def word : RowAlignment → String
  | .top => "top"
  | .bottom => "bottom"
  | .center => "center"
  | .baseline => "baseline"

def words : List (String × RowAlignment) :=
  [.top, .bottom, .center, .baseline].map fun alignment => (alignment.word, alignment)

end RowAlignment

namespace ColumnAlignment

def word : ColumnAlignment → String
  | .start => "start"
  | .finish => "end"
  | .center => "center"

def words : List (String × ColumnAlignment) :=
  [.start, .finish, .center].map fun alignment => (alignment.word, alignment)

end ColumnAlignment

namespace TextPlacement

def word : TextPlacement → String
  | .start => "start"
  | .finish => "end"
  | .center => "center"
  | .justify => "justify"

def words : List (String × TextPlacement) :=
  [.start, .finish, .center, .justify].map fun align => (align.word, align)

end TextPlacement

namespace Axis

def word : Axis → String
  | .width => "width"
  | .height => "height"

def words : List (String × Axis) :=
  [.width, .height].map fun axis => (axis.word, axis)

end Axis

namespace Extent

def word : Extent → String
  | .both => "size"
  | .width => "width"
  | .height => "height"

def words : List (String × Extent) :=
  [.both, .width, .height].map fun axis => (axis.word, axis)

end Extent

namespace Arrangement

variable {α : Type}

def toJson (word : α → String) : Arrangement α → Json
  | .spaced spacing => spacing.toJson
  | .placed placement => .str (word placement)

/-- What reads as a dimension is a space between the children. -/
def ofJson? (words : List (String × α)) : Json → Option (Arrangement α) :=
  Json.whole? fun json =>
    match Dimension.ofJson? json with
    | some spacing => some (.spaced spacing)
    | none => (Json.ofWord? false words json).map .placed

end Arrangement

namespace Shape

def toJson (shape : Shape) : Json :=
  .obj [("radiusTopLeft", Dimension.toJson shape.topLeft),
    ("radiusTopRight", Dimension.toJson shape.topRight),
    ("radiusBottomRight", Dimension.toJson shape.bottomRight),
    ("radiusBottomLeft", Dimension.toJson shape.bottomLeft)]

def ofJson? : Json → Option Shape :=
  Json.record? do
    let topLeft ← requiredField "radiusTopLeft" Dimension.ofJson?
    let topRight ← requiredField "radiusTopRight" Dimension.ofJson?
    let bottomRight ← requiredField "radiusBottomRight" Dimension.ofJson?
    let bottomLeft ← requiredField "radiusBottomLeft" Dimension.ofJson?
    return ⟨topLeft, topRight, bottomRight, bottomLeft⟩

end Shape

namespace Padding

/-- The four sides by name; a side without space is null. -/
def fields (padding : Padding) : List (String × Json) :=
  [("left", Json.orNull Dimension.toJson padding.left),
    ("top", Json.orNull Dimension.toJson padding.top),
    ("right", Json.orNull Dimension.toJson padding.right),
    ("bottom", Json.orNull Dimension.toJson padding.bottom)]

def toJson (padding : Padding) : Json :=
  .obj (fields padding)

def ofJson? : Json → Option Padding :=
  Json.record? do
    let left ← optionalField "left" Dimension.ofJson?
    let top ← optionalField "top" Dimension.ofJson?
    let right ← optionalField "right" Dimension.ofJson?
    let bottom ← optionalField "bottom" Dimension.ofJson?
    return ⟨left, top, right, bottom⟩

end Padding

namespace Modifier

def kinds : List String :=
  ["background", "border", "padding", "weight", "fill_max", "baseline", "size"]

def toJson : Modifier → Json
  | .background color shape =>
    .obj [("name", .str "background"), ("color", color.toJson Color.toJson),
      ("shape", Json.orNull Shape.toJson shape)]
  | .border color shape width =>
    .obj [("name", .str "border"), ("color", color.toJson Color.toJson),
      ("shape", Json.orNull Shape.toJson shape),
      ("width", Json.orNull Dimension.toJson width)]
  | .padding sides => .obj (("name", .str "padding") :: Padding.fields sides)
  | .weight share => .obj [("name", .str "weight"), ("weight", .float share)]
  | .fillMax axis => .obj [("name", .str "fill_max"), ("axis", .str axis.word)]
  | .baseline => .obj [("name", .str "baseline")]
  | .size axis value =>
    .obj [("name", .str "size"), ("axis", .str axis.word), ("value", value.toJson)]

/-- Reads the fields of a modifier of a kind. -/
def ofFields? (kind : String) (json : Json) : Option Modifier :=
  match kind with
  | "background" => json.record? do
    let color ← requiredField "color" (Property.ofJson? Color.ofJson?)
    let shape ← optionalField "shape" Shape.ofJson?
    return .background color shape
  | "border" => json.record? do
    let color ← requiredField "color" (Property.ofJson? Color.ofJson?)
    let shape ← optionalField "shape" Shape.ofJson?
    let width ← optionalField "width" Dimension.ofJson?
    return .border color shape width
  | "padding" => (Padding.ofJson? json).map .padding
  | "weight" => json.record? do
    let weight ← requiredField "weight" Json.float?
    return .weight weight
  | "fill_max" => json.record? do
    let axis ← requiredField "axis" (Json.ofWord? true Axis.words)
    return .fillMax axis
  | "baseline" => json.noFields?.map fun _ => .baseline
  | "size" => json.record? do
    let axis ← requiredField "axis" (Json.ofWord? true Extent.words)
    let value ← requiredField "value" Dimension.ofJson?
    return .size axis value
  | _ => none

def ofJson? : Json → Option Modifier :=
  Json.whole? fun json => do
    let (kind, rest) ← json.tagged? "name" kinds false
    ofFields? kind rest

end Modifier

namespace TextBlock

def fields (content : TextBlock) : List (String × Json) :=
  [("text", .str content.text), ("textStyle", content.style.toJson Typography.toJson),
    ("textColor", Json.orNull (Property.toJson Color.toJson) content.color),
    ("textAlign", Json.orNull (fun align => .str align.word) content.align),
    ("maxLines", Json.orNull (fun lines => .int lines.toNat) content.lineLimit),
    ("overflow", if content.ellipsis then .str "ellipsis" else .null)]

def ofJson? : Json → Option TextBlock :=
  Json.record? do
    let text ← requiredField "text" Json.string?
    let style ← requiredField "textStyle" (Property.ofJson? (Typography.ofJson? true))
    let color ← optionalField "textColor" (Property.ofJson? Color.ofJson?)
    let align ← optionalField "textAlign" (Json.ofWord? true TextPlacement.words)
    let lineLimit ← optionalField "maxLines" Json.uint32?
    let overflow ← optionalField "overflow" (Json.ofWord? true [("ellipsis", ())])
    return ⟨text, style, color, align, lineLimit, overflow.isSome⟩

end TextBlock

namespace LayoutKind

def kinds : List String := ["row", "flowRow", "column", "box", "text"]

/-- The kind and its fields. -/
def fields (kind : LayoutKind) : List (String × Json) :=
  ("name", .str kind.name) ::
    match kind with
    | .row arrangement alignment =>
      [("horizontalArrangement",
          Json.orNull (Arrangement.toJson HorizontalPlacement.word) arrangement),
        ("verticalAlignment", Json.orNull (fun alignment => .str alignment.word) alignment)]
    | .flowRow horizontal vertical =>
      [("horizontalArrangement",
          Json.orNull (Arrangement.toJson HorizontalPlacement.word) horizontal),
        ("verticalArrangement",
          Json.orNull (Arrangement.toJson VerticalPlacement.word) vertical)]
    | .column arrangement alignment =>
      [("verticalArrangement",
          Json.orNull (Arrangement.toJson VerticalPlacement.word) arrangement),
        ("horizontalAlignment", Json.orNull (fun alignment => .str alignment.word) alignment)]
    | .box centered => [("alignment", if centered then .str "center" else .null)]
    | .text content => content.fields

def ofFields? (kind : String) (json : Json) : Option LayoutKind :=
  match kind with
  | "row" => json.record? do
    let arrangement ← optionalField "horizontalArrangement"
      (Arrangement.ofJson? HorizontalPlacement.words)
    let alignment ← optionalField "verticalAlignment" (Json.ofWord? true RowAlignment.words)
    return .row arrangement alignment
  | "flowRow" => json.record? do
    let horizontal ← optionalField "horizontalArrangement"
      (Arrangement.ofJson? HorizontalPlacement.words)
    let vertical ← optionalField "verticalArrangement"
      (Arrangement.ofJson? VerticalPlacement.words)
    return .flowRow horizontal vertical
  | "column" => json.record? do
    let arrangement ← optionalField "verticalArrangement"
      (Arrangement.ofJson? VerticalPlacement.words)
    let alignment ← optionalField "horizontalAlignment" (Json.ofWord? true ColumnAlignment.words)
    return .column arrangement alignment
  | "box" => json.record? do
    let alignment ← optionalField "alignment" (Json.ofWord? true [("center", ())])
    return .box alignment.isSome
  | "text" => (TextBlock.ofJson? json).map .text
  | _ => none

/-- Reads the kind among the fields of a node. -/
def ofJson? : Json → Option LayoutKind :=
  Json.whole? fun json => do
    let (kind, rest) ← json.tagged? "name" kinds true
    ofFields? kind rest

end LayoutKind

namespace Layout

mutual

def toJson : Layout → Json
  | ⟨name, modifiers, children, kind⟩ =>
    .obj ([("nodeName", .str name), ("modifiers", .arr (modifiers.map Modifier.toJson)),
      ("children", .arr (toJsonList children))] ++ kind.fields)

def toJsonList : List Layout → List Json
  | [] => []
  | node :: rest => node.toJson :: toJsonList rest

end

theorem toJsonList_eq_map (nodes : List Layout) : toJsonList nodes = nodes.map toJson := by
  induction nodes with
  | nil => simp [toJsonList]
  | cons node rest ih => simp [toJsonList, ih]

/-- The fields that every node has. -/
def ownFields : List String := ["nodeName", "modifiers", "children"]

/-- Reads a node whose value is nested no deeper than `depth`. -/
def ofJsonAt? : Nat → Json → Option Layout
  | depth + 1, .obj fields => do
    let rest := fields.filter fun field => !ownFields.contains field.1
    let ((name, modifiers, children), _) ←
      (do
        let name ← requiredField "nodeName" Json.string?
        let modifiers ← requiredField "modifiers" (Json.list? Modifier.ofJson?)
        let children ← requiredField "children" (Json.list? (ofJsonAt? depth))
        return (name, modifiers, children) : Json.FieldReader _).run (.named fields)
    let kind ← LayoutKind.ofJson? (.obj rest)
    return ⟨name, modifiers, children, kind⟩
  | _, _ => none

def ofJson? (json : Json) : Option Layout :=
  ofJsonAt? json.depth json

end Layout

end DesignLayout
