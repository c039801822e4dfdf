import DesignLayout.Geometry
import DesignLayout.Property

/-!
# Scenes

A scene is the tree of frames and texts as the design tool holds it.  It keeps
the properties that decide on layout and look.
-/

namespace DesignLayout

/-- A property of a run of parts: one value for all of them, or several. -/
inductive Uniform (α : Type) where
  | mixed
  | same (value : α)
  deriving DecidableEq, Repr

namespace Uniform

variable {α : Type}

def value? : Uniform α → Option α
  | .mixed => none
  | .same value => some value

def isMixed : Uniform α → Bool
  | .mixed => true
  | .same _ => false

end Uniform

/-- The direction in which a frame lays out its children, if it does. -/
inductive FlowMode where
  | none
  | horizontal
  | vertical
  | unsupported
  deriving DecidableEq, Repr

inductive FlowWrap where
  | noWrap
  | wraps
  | unsupported
  deriving DecidableEq, Repr

inductive Alignment where
  | min
  | center
  | max
  | spaceBetween
  | baseline
  deriving DecidableEq, Repr

/-- How a node gets its size along an axis. -/
inductive Sizing where
  | fixed
  | hug
  | fill
  deriving DecidableEq, Repr

inductive PaintKind where
  | solid
  | other
  deriving DecidableEq, Repr

/-- A layer of paint.  The color may be that of a variable. -/
structure Paint where
  kind : PaintKind
  color : Option Color
  opacity : Option Float
  visible : Bool
  colorVariable : Option String
  deriving DecidableEq, Repr

/-- The opacity of a paint, full unless it is said. -/
def Paint.strength (paint : Paint) : Float :=
  paint.opacity.getD 1.0

/-- The color of a solid paint, as strong as its opacity says. -/
def Paint.solid? (paint : Paint) : Option Color :=
  match paint.kind, paint.color with
  | .solid, some color => some (color.setAlpha paint.strength)
  | _, _ => none

/-- The ids of the variables to which numbers of a frame are bound. -/
structure FrameVariables where
  spacing : Option String := none
  lineSpacing : Option String := none
  padding : Edges (Option String) := .uniform none
  radii : Corners (Option String) := .uniform none
  strokeWidth : Option String := none
  deriving DecidableEq, Repr

/-- The properties of a frame.  What a scene leaves out is as here. -/
structure Frame where
  name : String := ""
  visible : Bool := true
  width : Float := 0.0
  height : Float := 0.0
  horizontalSizing : Sizing := .fixed
  verticalSizing : Sizing := .fixed
  mode : FlowMode := .none
  wrap : FlowWrap := .noWrap
  primaryAlign : Alignment := .min
  counterAlign : Alignment := .min
  spacing : Float := 0.0
  lineSpacing : Option Float := none
  padding : Edges Float := .uniform 0.0
  fills : Uniform (List Paint) := .same []
  fillStyle : Uniform String := .same ""
  strokes : List Paint := []
  strokeStyle : String := ""
  strokeWidth : Option (Uniform Float) := none
  radii : Corners Float := .uniform 0.0
  bindings : FrameVariables := {}
  deriving DecidableEq, Repr

inductive TextSide where
  | left
  | center
  | right
  | justified
  deriving DecidableEq, Repr

inductive Truncation where
  | disabled
  | ending
  deriving DecidableEq, Repr

/-- The properties of a text.  What a scene leaves out is as here. -/
structure TextRun where
  name : String := ""
  visible : Bool := true
  characters : String := ""
  width : Float := 0.0
  height : Float := 0.0
  horizontalSizing : Sizing := .hug
  verticalSizing : Sizing := .hug
  style : Uniform String := .same ""
  size : Uniform Float := .same 12.0
  weight : Uniform Float := .same 400.0
  face : Uniform FontFace := .same ⟨"Inter", "Regular"⟩
  decoration : Uniform TextDecoration := .same .none
  letterSpacing : Uniform LetterSpacing := .same ⟨.pixels, 0.0⟩
  lineHeight : Uniform LineHeight := .same .auto
  letterCase : Uniform TextCase := .same .asWritten
  fills : Uniform (List Paint) := .same []
  fillStyle : Uniform String := .same ""
  align : TextSide := .left
  truncation : Truncation := .disabled
  lineLimit : Option UInt32 := none
  deriving DecidableEq, Repr

/-- A node of a scene.  Nodes of other types take part in their parent's child
count and in nothing else. -/
inductive Scene where
  | frame (properties : Frame) (children : List Scene)
  | text (run : TextRun)
  | unsupported
  deriving Repr

namespace Scene

def name : Scene → String
  | .frame properties _ => properties.name
  | .text run => run.name
  | .unsupported => ""

def isShown : Scene → Bool
  | .frame properties _ => properties.visible
  | .text run => run.visible
  | .unsupported => true

mutual

/-- The nodes of a scene, parents first. -/
def preorder : Scene → List Scene
  | .frame properties children => .frame properties children :: preorderList children
  | .text run => [.text run]
  | .unsupported => [.unsupported]

def preorderList : List Scene → List Scene
  | [] => []
  | node :: rest => node.preorder ++ preorderList rest

end

theorem preorderList_eq_flatMap (nodes : List Scene) :
    preorderList nodes = nodes.flatMap preorder := by
  induction nodes with
  | nil => simp [preorderList]
  | cons node rest ih => simp [preorderList, ih]

end Scene

end DesignLayout
