import DesignLayout.Number.Style

/-!
# Rounding to whole numbers

Halves go away from zero.
-/

namespace DesignLayout

/-- The whole number nearest to a magnitude, a half going up. -/
def Magnitude.nearestWhole (magnitude : Magnitude) : Nat :=
  let unit := Nat.pow 2 (-magnitude.exponent).toNat
  (2 * magnitude.mantissa * Nat.pow 2 magnitude.exponent.toNat + unit) / (2 * unit)

/-- The nearest step of an eight-bit scale: what lies outside the scale goes
to its end, and what is no number to zero. -/
def nearestByte (number : Float) : UInt8 :=
  match Binary.ofFloat number with
  | .nan => 0
  | .infinite negative => if negative then 0 else 255
  | .finite negative magnitude =>
    if negative then 0 else UInt8.ofNat (min 255 magnitude.nearestWhole)

/-- The source text of the nearest whole number, which keeps the sign of what
it rounds.  A float with no fraction bits left is whole already. -/
def wholeText (number : Float) : String :=
  match Binary.ofFloat number with
  | .finite negative magnitude =>
    if 0 ≤ magnitude.exponent then NumberStyle.source.text number
    else
      String.ofList
        (NumberStyle.sign negative ++ Nat.toDigits 10 magnitude.nearestWhole)
  | _ => NumberStyle.source.text number

end DesignLayout
