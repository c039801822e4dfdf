/-!
# Fonts

The typography of a run of text: its face, size, spacing and decoration.
-/

namespace DesignLayout

/-- A font family and the name of one of its styles, such as `Bold Italic`. -/
structure FontFace where
  family : String
  style : String
  deriving DecidableEq, Repr, Inhabited

/-- Whether `part` occurs in `text`. -/
def occursIn (part : List Char) : List Char → Bool
  | [] => part.isEmpty
  | character :: rest => part.isPrefixOf (character :: rest) || occursIn part rest

/-- Style names say in words whether the face is slanted. -/
def FontFace.isSlanted (face : FontFace) : Bool :=
  occursIn "Italic".toList face.style.toList

/-- What a spacing is measured in. -/
inductive LengthUnit where
  | pixels
  | percent
  deriving DecidableEq, Repr, Inhabited

/-- The extra space between characters. -/
structure LetterSpacing where
  unit : LengthUnit
  value : Float
  deriving DecidableEq, Repr

instance : Inhabited LetterSpacing := ⟨⟨.pixels, 0.0⟩⟩

inductive LineHeight where
  | auto
  | pixels (value : Float)
  | percent (value : Float)
  deriving DecidableEq, Repr, Inhabited

/-- The height in pixels, where it is given in pixels. -/
def LineHeight.inPixels? : LineHeight → Option Float
  | .pixels value => some value
  | _ => none

inductive TextDecoration where
  | none
  | underline
  | strikethrough
  deriving DecidableEq, Repr, Inhabited

inductive TextCase where
  | asWritten
  | upper
  | lower
  | title
  | smallCaps
  | smallCapsForced
  deriving DecidableEq, Repr, Inhabited

structure Typography where
  size : Float
  weight : Float
  decoration : TextDecoration
  face : FontFace
  letterSpacing : LetterSpacing
  lineHeight : LineHeight
  letterCase : TextCase
  deriving DecidableEq, Repr

/-- No size, no weight and an unnamed face. -/
instance : Inhabited Typography :=
  ⟨⟨0.0, 0.0, .none, ⟨"", ""⟩, ⟨.pixels, 0.0⟩, .auto, .asWritten⟩⟩

end DesignLayout
