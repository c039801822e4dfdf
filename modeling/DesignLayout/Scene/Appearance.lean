import DesignLayout.Layout.Basic
import DesignLayout.Scene.Document

/-!
# How a scene node looks

Each trait of a node is bound to a style or variable of the document, or is
the node's own.  A binding that the document cannot resolve counts as none.
-/

namespace DesignLayout

/-- The line around a frame.  A width that is not said is left to the host. -/
structure Border where
  color : Property Color
  width : Option Dimension
  deriving DecidableEq, Repr

inductive Direction where
  | horizontal
  | vertical
  | free
  deriving DecidableEq, Repr

/-- How a frame lays out its children. -/
structure AutoLayout where
  direction : Direction
  wraps : Bool
  spacing : Dimension
  lineSpacing : Option Dimension
  padding : Edges Dimension
  deriving DecidableEq, Repr

/-- No spacing and no padding. -/
def AutoLayout.plain (direction : Direction) : AutoLayout :=
  ⟨direction, false, .own 0.0, none, .uniform (.own 0.0)⟩

/-- What a text shows, in the words of the scene. -/
structure TextAppearance where
  text : String
  style : Property Typography
  color : Option (Property Color)
  align : TextSide
  truncation : Truncation
  lineLimit : Option UInt32
  deriving DecidableEq, Repr

/-- Corners are rounded when at least one radius shows. -/
def Corners.shape? (radii : Corners Dimension) : Option Shape :=
  if radii.toList.all Property.isBlank then none else some radii

/-- The number of a variable, or a number of another kind's place. -/
def Variable.numberOr (entry : Variable) (own : Float) : Float :=
  match entry.value with
  | some (.number value) => value
  | _ => own

/-- The color of a variable under the opacity of a paint, or else a color. -/
def Variable.colorOr (entry : Variable) (opacity : Float) (own : Color) : Color :=
  match entry.value with
  | some (.color value) => value.setAlpha (value.alpha * opacity)
  | _ => own

/-- The typography of a text by itself, if it is the same throughout. -/
def TextRun.ownFont? (run : TextRun) : Option Typography := do
  return {
    size := ← run.size.value?
    weight := ← run.weight.value?
    decoration := ← run.decoration.value?
    face := ← run.face.value?
    letterSpacing := ← run.letterSpacing.value?
    lineHeight := ← run.lineHeight.value?
    letterCase := ← run.letterCase.value? }

/-- The typography that a style gives to a text of some weight. -/
def TypeStyle.font (style : TypeStyle) (weight : Float) : Typography :=
  { size := style.size, weight, decoration := style.decoration, face := style.face
    letterSpacing := style.letterSpacing, lineHeight := style.lineHeight
    letterCase := style.letterCase }

namespace Document

variable (document : Document)

/-- A number of a node that may be bound to a variable. -/
def dimension (own : Float) (binding : Option String) : Dimension :=
  match binding with
  | none => .own own
  | some id =>
    match document.variable? id .number with
    | some entry => .linked ⟨id, entry.name, entry.numberOr own⟩
    | none => .own own

/-- The color of the only paint that is visible. -/
def soleColor? (paints : List Paint) : Option (Property Color) :=
  match paints.filter Paint.visible with
  | [paint] => do
    let color ← paint.solid?
    match paint.colorVariable with
    | none => return .own color
    | some id =>
      match document.variable? id .color with
      | some entry => return .linked ⟨id, entry.name, entry.colorOr paint.strength color⟩
      | none => return .own color
  | _ => none

/-- The color of some paint, or of the paint style that takes its place.  A
style shows its first paint, and none where that is not solid. -/
def colorOf? (paints : Option (List Paint)) (style : Option String) :
    Option (Property Color) :=
  match style.filter fun id => id ≠ "" with
  | none => paints.bind document.soleColor?
  | some id =>
    match document.styleById.get? id with
    | some (.paint name layers) => do
      let color ← (← layers.head?).solid?
      return .linked ⟨id, name, color⟩
    | _ => paints.bind document.soleColor?

def background? (frame : Frame) : Option (Property Color) :=
  document.colorOf? frame.fills.value? frame.fillStyle.value?

/-- A line of zero or mixed width is none. -/
def border? (frame : Frame) : Option Border := do
  let color ← document.colorOf? (some frame.strokes) (some frame.strokeStyle)
  match frame.strokeWidth with
  | none => return ⟨color, none⟩
  | some .mixed => none
  | some (.same weight) =>
    if weight == 0.0 then none
    else return ⟨color, some (document.dimension weight frame.bindings.strokeWidth)⟩

def radii (frame : Frame) : Corners Dimension :=
  frame.radii.zipWith document.dimension frame.bindings.radii

/-- The layout of a frame, if its mode and wrapping are supported. -/
def autoLayout? (frame : Frame) : Option AutoLayout := do
  let direction ←
    match frame.mode with
    | .horizontal => some .horizontal
    | .vertical => some .vertical
    | .none => some .free
    | .unsupported => none
  let wraps ←
    match frame.wrap with
    | .noWrap => some false
    | .wraps => some true
    | .unsupported => none
  return {
    direction, wraps
    spacing := document.dimension frame.spacing frame.bindings.spacing
    lineSpacing := frame.lineSpacing.map fun spacing =>
      document.dimension spacing frame.bindings.lineSpacing
    padding := frame.padding.zipWith document.dimension frame.bindings.padding }

/-- The typography of a text: that of its style where style and weight are the
same throughout, and else its own. -/
def font? (run : TextRun) : Option (Property Typography) :=
  match run.style, run.weight with
  | .same id, .same weight =>
    if id = "" then run.ownFont?.map .own
    else
      match document.styleById.get? id with
      | some (.text style) => some (.linked ⟨id, style.name, style.font weight⟩)
      | _ => run.ownFont?.map .own
  | _, _ => run.ownFont?.map .own

/-- What a text shows, if its typography and its fills are known. -/
def text? (run : TextRun) : Option TextAppearance := do
  let style ← document.font? run
  let fills ← run.fills.value?
  return {
    text := run.characters, style
    color := document.colorOf? (some fills) run.fillStyle.value?
    align := run.align, truncation := run.truncation, lineLimit := run.lineLimit }

end Document

end DesignLayout
