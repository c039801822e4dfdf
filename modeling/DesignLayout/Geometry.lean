/-!
# Corners and edges of a rectangle
-/

namespace DesignLayout

/-- A value for each corner, clockwise from the top left. -/
structure Corners (α : Type) where
  topLeft : α
  topRight : α
  bottomRight : α
  bottomLeft : α
  deriving DecidableEq, Repr

namespace Corners

variable {α β γ : Type}

def uniform (value : α) : Corners α :=
  ⟨value, value, value, value⟩

def map (change : α → β) (corners : Corners α) : Corners β :=
  ⟨change corners.topLeft, change corners.topRight, change corners.bottomRight,
    change corners.bottomLeft⟩

def zipWith (combine : α → β → γ) (left : Corners α) (right : Corners β) : Corners γ :=
  ⟨combine left.topLeft right.topLeft, combine left.topRight right.topRight,
    combine left.bottomRight right.bottomRight, combine left.bottomLeft right.bottomLeft⟩

def toList (corners : Corners α) : List α :=
  [corners.topLeft, corners.topRight, corners.bottomRight, corners.bottomLeft]

end Corners

/-- A value for each edge. -/
structure Edges (α : Type) where
  left : α
  top : α
  right : α
  bottom : α
  deriving DecidableEq, Repr

namespace Edges

variable {α β γ : Type}

def uniform (value : α) : Edges α :=
  ⟨value, value, value, value⟩

def map (change : α → β) (edges : Edges α) : Edges β :=
  ⟨change edges.left, change edges.top, change edges.right, change edges.bottom⟩

def zipWith (combine : α → β → γ) (left : Edges α) (right : Edges β) : Edges γ :=
  ⟨combine left.left right.left, combine left.top right.top,
    combine left.right right.right, combine left.bottom right.bottom⟩

def toList (edges : Edges α) : List α :=
  [edges.left, edges.top, edges.right, edges.bottom]

end Edges

end DesignLayout
