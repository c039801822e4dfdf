import DesignLayout.Number.Rounding

/-!
# Colors

Each channel is a fraction of full strength.  Hex notation gives the channels
in eight bits, alpha first.
-/

namespace DesignLayout

structure Color where
  red : Float
  green : Float
  blue : Float
  alpha : Float := 1.0
  deriving DecidableEq, Repr

namespace Color

def white : Color := ⟨1.0, 1.0, 1.0, 1.0⟩

def black : Color := ⟨0.0, 0.0, 0.0, 1.0⟩

def transparent : Color := ⟨0.0, 0.0, 0.0, 0.0⟩

instance : Inhabited Color := ⟨black⟩

def setAlpha (color : Color) (alpha : Float) : Color :=
  { color with alpha }

/-- Red, green, blue and alpha. -/
def channels (color : Color) : List Float :=
  [color.red, color.green, color.blue, color.alpha]

/-- Alpha, red, green and blue on a scale of eight bits. -/
def bytes (color : Color) : List UInt8 :=
  [color.alpha, color.red, color.green, color.blue].map fun channel =>
    nearestByte (channel * 255.0)

/-- Two uppercase hex digits. -/
def hexByte (byte : UInt8) : List Char :=
  [Nat.digitChar (byte.toNat / 16), Nat.digitChar (byte.toNat % 16)].map Char.toUpper

/-- The four bytes in hex. -/
def hex (color : Color) : String :=
  String.ofList (color.bytes.flatMap hexByte)

end Color

end DesignLayout
