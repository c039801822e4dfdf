import DesignLayout.Geometry
import DesignLayout.Property

/-!
# Layout trees

A layout tree says how a design is laid out: rows, columns and boxes with
their arrangement, and the text in them.  It records intent only and never a
computed position.
-/

namespace DesignLayout

/-- How children share the main axis: with a fixed space between them, or by
a placement.  The two never meet. -/
inductive Arrangement (α : Type) where
  | spaced (spacing : Dimension)
  | placed (placement : α)
  deriving DecidableEq, Repr

inductive HorizontalPlacement where
  | spaceBetween
  | center
  | start
  | finish
  deriving DecidableEq, Repr

inductive VerticalPlacement where
  | spaceBetween
  | center
  | top
  | bottom
  deriving DecidableEq, Repr

/-- Where the children of a row sit across it. -/
inductive RowAlignment where
  | top
  | bottom
  | center
  | baseline
  deriving DecidableEq, Repr

/-- Where the children of a column sit across it. -/
inductive ColumnAlignment where
  | start
  | finish
  | center
  deriving DecidableEq, Repr

inductive TextPlacement where
  | start
  | finish
  | center
  | justify
  deriving DecidableEq, Repr

/-- What a text node shows.  Text that is too long ends in an ellipsis or
goes on. -/
structure TextBlock where
  text : String
  style : Property Typography
  color : Option (Property Color)
  align : Option TextPlacement
  lineLimit : Option UInt32
  ellipsis : Bool
  deriving DecidableEq, Repr

/-- Text in a style, with nothing else said. -/
def TextBlock.plain (text : String) (style : Property Typography) : TextBlock :=
  ⟨text, style, none, none, none, false⟩

/-- The radius of each corner. -/
abbrev Shape := Corners Dimension

/-- The space inside each edge that has any. -/
abbrev Padding := Edges (Option Dimension)

inductive Axis where
  | width
  | height
  deriving DecidableEq, Repr

inductive Extent where
  | both
  | width
  | height
  deriving DecidableEq, Repr

/-- What is done to a node before it is drawn, in the order of the list that
holds it. -/
inductive Modifier where
  | background (color : Property Color) (shape : Option Shape)
  | border (color : Property Color) (shape : Option Shape) (width : Option Dimension)
  | padding (padding : Padding)
  | weight (weight : Float)
  | fillMax (axis : Axis)
  | baseline
  | size (axis : Extent) (value : Dimension)
  deriving DecidableEq, Repr

def Modifier.name : Modifier → String
  | .background _ _ => "background"
  | .border _ _ _ => "border"
  | .padding _ => "padding"
  | .weight _ => "weight"
  | .fillMax .width => "fill_max_width"
  | .fillMax .height => "fill_max_height"
  | .baseline => "baseline"
  | .size .both _ => "size"
  | .size .width _ => "width"
  | .size .height _ => "height"

/-- What a node is.  A flow row goes on in further lines. -/
inductive LayoutKind where
  | row (arrangement : Option (Arrangement HorizontalPlacement))
      (alignment : Option RowAlignment)
  | flowRow (horizontal : Option (Arrangement HorizontalPlacement))
      (vertical : Option (Arrangement VerticalPlacement))
  | column (arrangement : Option (Arrangement VerticalPlacement))
      (alignment : Option ColumnAlignment)
  | box (centered : Bool)
  | text (content : TextBlock)
  deriving DecidableEq, Repr

namespace LayoutKind

def name : LayoutKind → String
  | .row _ _ => "row"
  | .flowRow _ _ => "flowRow"
  | .column _ _ => "column"
  | .box _ => "box"
  | .text _ => "text"

def holdsText : LayoutKind → Bool
  | .text _ => true
  | _ => false

end LayoutKind

/-- A node, with the name of the design node that it comes from. -/
structure Layout where
  name : String
  modifiers : List Modifier
  children : List Layout
  kind : LayoutKind
  deriving Repr

namespace Layout

/-- A node without modifiers and children. -/
def leaf (name : String) (kind : LayoutKind) : Layout :=
  ⟨name, [], [], kind⟩

def holdsText (node : Layout) : Bool :=
  node.kind.holdsText

/-- Gives a node its children; a text node stays without. -/
def holding (node : Layout) (children : List Layout) : Layout :=
  if node.holdsText then node else { node with children }

mutual

/-- The nodes of a tree, parents first. -/
def preorder : Layout → List Layout
  | ⟨name, modifiers, children, kind⟩ =>
    ⟨name, modifiers, children, kind⟩ :: preorderList children

def preorderList : List Layout → List Layout
  | [] => []
  | node :: rest => node.preorder ++ preorderList rest

end

theorem preorderList_eq_flatMap (nodes : List Layout) :
    preorderList nodes = nodes.flatMap preorder := by
  induction nodes with
  | nil => simp [preorderList]
  | cons node rest ih => simp [preorderList, ih]

mutual

/-- The number of nodes in a tree. -/
def size : Layout → Nat
  | ⟨_, _, children, _⟩ => 1 + sizeList children

def sizeList : List Layout → Nat
  | [] => 0
  | node :: rest => node.size + sizeList rest

end

end Layout

end DesignLayout
