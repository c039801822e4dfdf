import DesignLayout.Json.Parser
import DesignLayout.Property.Json
import DesignLayout.Scene.Document

/-!
# Reading design documents

Field names are those of the design tool.  Fields that no one asks for are
passed over, and types, modes and paints of other names count as unsupported.
-/

namespace DesignLayout

open Json (requiredField defaultedField optionalField)

namespace Uniform

variable {α : Type}

/-- The word `MIXED` before any value. -/
def ofJson? (read : Json → Option α) (json : Json) : Option (Uniform α) :=
  if json.word? false = some "MIXED" then some .mixed else (read json).map .same

end Uniform

namespace FlowMode

def ofJson? (json : Json) : Option FlowMode :=
  (json.word? true).map fun
    | "NONE" => .none
    | "HORIZONTAL" => .horizontal
    | "VERTICAL" => .vertical
    | _ => .unsupported

end FlowMode

namespace FlowWrap

def ofJson? (json : Json) : Option FlowWrap :=
  (json.word? true).map fun
    | "NO_WRAP" => .noWrap
    | "WRAP" => .wraps
    | _ => .unsupported

end FlowWrap

namespace Alignment

def ofJson? : Json → Option Alignment :=
  Json.ofWord? true [("MIN", .min), ("CENTER", .center), ("MAX", .max),
    ("SPACE_BETWEEN", .spaceBetween), ("BASELINE", .baseline)]

end Alignment

namespace Sizing

def ofJson? : Json → Option Sizing :=
  Json.ofWord? true [("FIXED", .fixed), ("HUG", .hug), ("FILL", .fill)]

end Sizing

namespace PaintKind

def ofJson? (loose : Bool) (json : Json) : Option PaintKind :=
  (json.word? loose).map fun
    | "SOLID" => .solid
    | _ => .other

end PaintKind

/-- The id of a variable, from the record that refers to it. -/
def variableId? : Json → Option String :=
  Json.record? (requiredField "id" Json.string?)

namespace Paint

def ofJson? (loose : Bool) : Json → Option Paint :=
  Json.record? do
    let kind ← defaultedField "type" .solid (PaintKind.ofJson? loose)
    let color ← optionalField "color" Color.ofJson?
    let opacity ← optionalField "opacity" Json.float?
    let visible ← defaultedField "visible" true Json.bool?
    let colorVariable ← defaultedField "boundVariables" none
      (Json.record? (optionalField "color" variableId?))
    return ⟨kind, color, opacity, visible, colorVariable⟩

end Paint

namespace FrameVariables

def ofJson? : Json → Option FrameVariables :=
  Json.record? do
    let spacing ← optionalField "itemSpacing" variableId?
    let lineSpacing ← optionalField "counterAxisSpacing" variableId?
    let left ← optionalField "paddingLeft" variableId?
    let top ← optionalField "paddingTop" variableId?
    let right ← optionalField "paddingRight" variableId?
    let bottom ← optionalField "paddingBottom" variableId?
    let topLeft ← optionalField "topLeftRadius" variableId?
    let topRight ← optionalField "topRightRadius" variableId?
    let bottomRight ← optionalField "bottomRightRadius" variableId?
    let bottomLeft ← optionalField "bottomLeftRadius" variableId?
    let strokeWidth ← optionalField "strokeWeight" variableId?
    return {
      spacing, lineSpacing, strokeWidth
      padding := ⟨left, top, right, bottom⟩
      radii := ⟨topLeft, topRight, bottomRight, bottomLeft⟩ }

end FrameVariables

/-- Reads a frame with its children, each of which `readChild` reads. -/
def Frame.ofJson? {α : Type} (readChild : Json → Option α) :
    Json → Option (Frame × List α) :=
  Json.record? do
    let _ ← defaultedField "id" "" Json.string?
    let name ← defaultedField "name" "" Json.string?
    let visible ← defaultedField "visible" true Json.bool?
    let children ← defaultedField "children" [] (Json.list? readChild)
    let width ← defaultedField "width" 0.0 Json.float?
    let height ← defaultedField "height" 0.0 Json.float?
    let horizontalSizing ← defaultedField "layoutSizingHorizontal" .fixed Sizing.ofJson?
    let verticalSizing ← defaultedField "layoutSizingVertical" .fixed Sizing.ofJson?
    let mode ← defaultedField "layoutMode" .none FlowMode.ofJson?
    let wrap ← defaultedField "layoutWrap" .noWrap FlowWrap.ofJson?
    let primaryAlign ← defaultedField "primaryAxisAlignItems" .min Alignment.ofJson?
    let counterAlign ← defaultedField "counterAxisAlignItems" .min Alignment.ofJson?
    let spacing ← defaultedField "itemSpacing" 0.0 Json.float?
    let lineSpacing ← defaultedField "counterAxisSpacing" none (Json.nullable Json.float?)
    let left ← defaultedField "paddingLeft" 0.0 Json.float?
    let top ← defaultedField "paddingTop" 0.0 Json.float?
    let right ← defaultedField "paddingRight" 0.0 Json.float?
    let bottom ← defaultedField "paddingBottom" 0.0 Json.float?
    let fills ← defaultedField "fills" (.same [])
      (Uniform.ofJson? (Json.list? (Paint.ofJson? false)))
    let fillStyle ← defaultedField "fillStyleId" (.same "") (Uniform.ofJson? Json.string?)
    let strokes ← defaultedField "strokes" [] (Json.list? (Paint.ofJson? true))
    let strokeStyle ← defaultedField "strokeStyleId" "" Json.string?
    let strokeWidth ← defaultedField "strokeWeight" none
      (Json.nullable (Uniform.ofJson? Json.float?))
    let topLeft ← defaultedField "topLeftRadius" 0.0 Json.float?
    let topRight ← defaultedField "topRightRadius" 0.0 Json.float?
    let bottomRight ← defaultedField "bottomRightRadius" 0.0 Json.float?
    let bottomLeft ← defaultedField "bottomLeftRadius" 0.0 Json.float?
    let bindings ← defaultedField "boundVariables" {} FrameVariables.ofJson?
    let frame : Frame := {
      name, visible, width, height, horizontalSizing, verticalSizing, mode, wrap
      primaryAlign, counterAlign, spacing, lineSpacing
      padding := ⟨left, top, right, bottom⟩
      fills, fillStyle, strokes, strokeStyle, strokeWidth
      radii := ⟨topLeft, topRight, bottomRight, bottomLeft⟩
      bindings }
    return (frame, children)

namespace TextSide

def ofJson? : Json → Option TextSide :=
  Json.ofWord? true [("LEFT", .left), ("CENTER", .center), ("RIGHT", .right),
    ("JUSTIFIED", .justified)]

end TextSide

namespace Truncation

def ofJson? : Json → Option Truncation :=
  Json.ofWord? true [("DISABLED", .disabled), ("ENDING", .ending)]

end Truncation

def TextRun.ofJson? : Json → Option TextRun :=
  Json.record? do
    let _ ← defaultedField "id" "" Json.string?
    let name ← defaultedField "name" "" Json.string?
    let visible ← defaultedField "visible" true Json.bool?
    let characters ← defaultedField "characters" "" Json.string?
    let width ← defaultedField "width" 0.0 Json.float?
    let height ← defaultedField "height" 0.0 Json.float?
    let horizontalSizing ← defaultedField "layoutSizingHorizontal" .hug Sizing.ofJson?
    let verticalSizing ← defaultedField "layoutSizingVertical" .hug Sizing.ofJson?
    let style ← defaultedField "textStyleId" (.same "") (Uniform.ofJson? Json.string?)
    let size ← defaultedField "fontSize" (.same 12.0) (Uniform.ofJson? Json.float?)
    let weight ← defaultedField "fontWeight" (.same 400.0) (Uniform.ofJson? Json.float?)
    let face ← defaultedField "fontName" (.same ⟨"Inter", "Regular"⟩)
      (Uniform.ofJson? FontFace.ofJson?)
    let decoration ← defaultedField "textDecoration" (.same .none)
      (Uniform.ofJson? (TextDecoration.ofJson? false))
    let letterSpacing ← defaultedField "letterSpacing" (.same ⟨.pixels, 0.0⟩)
      (Uniform.ofJson? (LetterSpacing.ofJson? false))
    let lineHeight ← defaultedField "lineHeight" (.same .auto)
      (Uniform.ofJson? (LineHeight.ofJson? true))
    let letterCase ← defaultedField "textCase" (.same .asWritten)
      (Uniform.ofJson? (TextCase.ofJson? false))
    let fills ← defaultedField "fills" (.same [])
      (Uniform.ofJson? (Json.list? (Paint.ofJson? false)))
    let fillStyle ← defaultedField "fillStyleId" (.same "") (Uniform.ofJson? Json.string?)
    let align ← defaultedField "textAlignHorizontal" .left TextSide.ofJson?
    let truncation ← defaultedField "textTruncation" .disabled Truncation.ofJson?
    let lineLimit ← defaultedField "maxLines" none (Json.nullable Json.uint32?)
    return {
      name, visible, characters, width, height, horizontalSizing, verticalSizing, style
      size, weight, face, decoration, letterSpacing, lineHeight, letterCase
      fills, fillStyle, align, truncation, lineLimit }

namespace Scene

def kinds : List String := ["FRAME", "COMPONENT", "INSTANCE", "TEXT"]

/-- Reads a node whose value is nested no deeper than `depth`. -/
def ofJsonAt? (depth : Nat) (numbered : Bool) (json : Json) : Option Scene :=
  match depth with
  | 0 => none
  | depth + 1 => do
    let (kind, rest) ← json.tagged? "type" kinds numbered
    if kind = "FRAME" ∨ kind = "COMPONENT" ∨ kind = "INSTANCE" then
      let (properties, children) ← Frame.ofJson? (ofJsonAt? depth true) rest
      return .frame properties children
    else if kind = "TEXT" then
      return .text (← TextRun.ofJson? rest)
    else
      rest.noFields?
      return .unsupported

def ofJson? : Json → Option Scene :=
  Json.whole? fun json => ofJsonAt? json.depth false json

end Scene

def TypeStyle.ofJson? : Json → Option TypeStyle :=
  Json.record? do
    let name ← requiredField "name" Json.string?
    let size ← requiredField "fontSize" Json.float?
    let face ← requiredField "fontName" FontFace.ofJson?
    let decoration ← defaultedField "textDecoration" .none (TextDecoration.ofJson? true)
    let letterSpacing ← defaultedField "letterSpacing" ⟨.pixels, 0.0⟩ (LetterSpacing.ofJson? true)
    let lineHeight ← defaultedField "lineHeight" .auto (LineHeight.ofJson? true)
    let letterCase ← defaultedField "textCase" .asWritten (TextCase.ofJson? true)
    return ⟨name, size, face, decoration, letterSpacing, lineHeight, letterCase⟩

namespace SharedStyle

def ofJson? : Json → Option SharedStyle :=
  Json.whole? fun json => do
    let (kind, rest) ← json.tagged? "type" ["PAINT", "TEXT"] false
    match kind with
    | "PAINT" => rest.record? do
      let name ← requiredField "name" Json.string?
      let paints ← defaultedField "paints" [] (Json.list? (Paint.ofJson? true))
      return .paint name paints
    | "TEXT" => (TypeStyle.ofJson? rest).map .text
    | _ => rest.noFields?.map fun _ => .other

end SharedStyle

namespace VariableKind

def ofJson? : Json → Option VariableKind :=
  Json.ofWord? false [("BOOLEAN", .boolean), ("FLOAT", .number), ("STRING", .text),
    ("COLOR", .color)]

end VariableKind

namespace VariableContent

def ofJson? : Json → Option VariableContent :=
  Json.whole? fun
    | .bool value => some (.boolean value)
    | .str value => some (.text value)
    | json =>
      match json.float? with
      | some value => some (.number value)
      | none => (Color.ofJson? json).map .color

end VariableContent

def Variable.ofJson? : Json → Option Variable :=
  Json.record? do
    let name ← requiredField "name" Json.string?
    let type ← requiredField "resolvedType" VariableKind.ofJson?
    let value ← optionalField "value" VariableContent.ofJson?
    return ⟨name, type, value⟩

/-- Reads an object as a map; of a name that comes several times, the last
value counts. -/
def OrderedMap.ofJson? {α : Type} (read : Json → Option α) :
    Json → Option (OrderedMap String α)
  | .obj fields => do
    return ofList (← fields.mapM fun field => (read field.2).map fun value => (field.1, value))
  | _ => none

namespace Document

def ofJson? : Json → Option Document :=
  Json.record? do
    let root ← requiredField "root" Scene.ofJson?
    let styleById ← defaultedField "styles" .empty (OrderedMap.ofJson? SharedStyle.ofJson?)
    let variableById ← defaultedField "variables" .empty (OrderedMap.ofJson? Variable.ofJson?)
    return { root, styleById, variableById }

def parse? (text : String) : Option Document := do
  ofJson? (← Json.parse? text)

end Document

end DesignLayout
