import DesignLayout.OrderedMap
import DesignLayout.Scene.Basic

/-!
# Design documents

A document is a scene with the styles and variables that its nodes refer to by
id.
-/

namespace DesignLayout

/-- The typography that a text style fixes; the weight stays with the text. -/
structure TypeStyle where
  name : String
  size : Float
  face : FontFace
  decoration : TextDecoration
  letterSpacing : LetterSpacing
  lineHeight : LineHeight
  letterCase : TextCase
  deriving DecidableEq, Repr

inductive SharedStyle where
  | paint (name : String) (paints : List Paint)
  | text (style : TypeStyle)
  | other
  deriving DecidableEq, Repr

inductive VariableKind where
  | boolean
  | number
  | text
  | color
  deriving DecidableEq, Repr

inductive VariableContent where
  | boolean (value : Bool)
  | number (value : Float)
  | text (value : String)
  | color (value : Color)
  deriving DecidableEq, Repr

/-- A named value of a type.  The value may be unknown, or of another type. -/
structure Variable where
  name : String
  type : VariableKind
  value : Option VariableContent
  deriving DecidableEq, Repr

structure Document where
  root : Scene
  styleById : OrderedMap String SharedStyle := .empty
  variableById : OrderedMap String Variable := .empty
  deriving Repr

/-- The variable of an id, if it has the expected type. -/
def Document.variable? (document : Document) (id : String) (type : VariableKind) :
    Option Variable :=
  (document.variableById.get? id).filter fun entry => entry.type = type

end DesignLayout
