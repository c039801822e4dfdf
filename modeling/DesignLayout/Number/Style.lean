import DesignLayout.Number.Shortest

/-!
# Number styles

A number is written with the fewest digits that identify it.  A style fixes
the layout of those digits: which numbers are written positionally, whether a
whole number shows a point, and how an exponent is signed.
-/

namespace DesignLayout

/-- The layout decisions of one number format. -/
structure NumberStyle where
  /-- Whether a number with this exponent of its leading digit is positional. -/
  positional : Int → Bool
  /-- Whether a positional whole number ends in `.0`. -/
  pointZero : Bool
  /-- Whether an exponent above zero has a plus sign. -/
  plusSign : Bool
  tie : Tie

namespace NumberStyle

/-- Source text: always positional, a whole number without a point. -/
def source : NumberStyle := ⟨fun _ => true, false, false, .up⟩

/-- Messages: positional from `0.0001` up to below `10 ^ 16`. -/
def message : NumberStyle :=
  ⟨fun exponent => decide (-4 ≤ exponent ∧ exponent < 16), true, false, .up⟩

/-- Data files: positional from `0.00001` up to below `10 ^ 16`. -/
def data : NumberStyle :=
  ⟨fun exponent => decide (-5 ≤ exponent ∧ exponent < 16), true, true, .even⟩

/-- The digits with the point where the exponent puts it. -/
def layPositional (style : NumberStyle) (digits : List Char) (exponent : Int) : List Char :=
  if 0 ≤ exponent then
    digits ++ List.replicate exponent.toNat '0' ++ if style.pointZero then ['.', '0'] else []
  else if -exponent < digits.length then
    let whole := digits.length - (-exponent).toNat
    digits.take whole ++ '.' :: digits.drop whole
  else
    '0' :: '.' :: (List.replicate ((-exponent).toNat - digits.length) '0' ++ digits)

/-- One digit before the point, and the exponent of that digit. -/
def layScientific (style : NumberStyle) (digits : List Char) (leading : Int) : List Char :=
  let fraction := digits.drop 1
  digits.take 1 ++ (if fraction.isEmpty then [] else '.' :: fraction) ++ 'e' ::
    ((if leading < 0 then ['-'] else if style.plusSign then ['+'] else []) ++
      Nat.toDigits 10 leading.natAbs)

/-- A magnitude in a style. -/
def layMagnitude (style : NumberStyle) (magnitude : Magnitude) : List Char :=
  if magnitude.mantissa = 0 then
    if style.pointZero then ['0', '.', '0'] else ['0']
  else
    let decimal := magnitude.shortest style.tie
    let digits := Nat.toDigits 10 decimal.digits
    let leading := decimal.exponent + (digits.length - 1 : Nat)
    if style.positional leading then style.layPositional digits decimal.exponent
    else style.layScientific digits leading

/-- The sign, shown also for a negative zero. -/
def sign (negative : Bool) : List Char :=
  if negative then ['-'] else []

/-- A float in a style, with words for what is no number. -/
def text (style : NumberStyle) (number : Float) : String :=
  match Binary.ofFloat number with
  | .nan => "NaN"
  | .infinite negative => String.ofList (sign negative ++ ['i', 'n', 'f'])
  | .finite negative magnitude =>
    String.ofList (sign negative ++ style.layMagnitude magnitude)

end NumberStyle

end DesignLayout
