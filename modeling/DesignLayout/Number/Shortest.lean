import DesignLayout.Number.Binary

/-!
# The fewest digits that identify a float

A decimal identifies a float when it lies among the reals that round to it.
The search goes through the grids of one, two, … seventeen digits and tries
the two neighbours of the value on each, in exact arithmetic: the first grid
with a hit wins, and of two hits the nearer.
-/

namespace DesignLayout

/-- The number `digits * 10 ^ exponent`. -/
structure Decimal where
  digits : Nat
  exponent : Int
  deriving DecidableEq, Repr

/-- Which of two equally near decimals is taken. -/
inductive Tie where
  | up
  | even
  deriving DecidableEq, Repr

namespace Decimal

/-- The order of a decimal and `units * 2 ^ scale`, by cross multiplication. -/
def compareTo (decimal : Decimal) (units : Nat) (scale : Int) : Ordering :=
  compare (decimal.digits * Nat.pow 10 decimal.exponent.toNat * Nat.pow 2 (-scale).toNat)
    (units * Nat.pow 2 scale.toNat * Nat.pow 10 (-decimal.exponent).toNat)

/-- Moves trailing zeros of the digits into the exponent. -/
def strip : Nat → Decimal → Decimal
  | 0, decimal => decimal
  | fuel + 1, decimal =>
    if decimal.digits % 10 = 0 then
      strip fuel ⟨decimal.digits / 10, decimal.exponent + 1⟩
    else decimal

end Decimal

namespace Magnitude

/-- Whether a decimal lies among the reals that round to the magnitude: from
halfway to the float below to halfway to the float above, the ends included
when the mantissa is even. -/
def readsBack (magnitude : Magnitude) (decimal : Decimal) : Bool :=
  let low := 4 * magnitude.mantissa - if magnitude.narrowBelow then 1 else 2
  let high := 4 * magnitude.mantissa + 2
  let closed := magnitude.mantissa % 2 == 0
  let fromLow := decimal.compareTo low (magnitude.exponent - 2)
  let fromHigh := decimal.compareTo high (magnitude.exponent - 2)
  (fromLow == .gt || closed && fromLow == .eq) &&
    (fromHigh == .lt || closed && fromHigh == .eq)

/-- The integral part of `magnitude / 10 ^ grid`. -/
def floorAt (magnitude : Magnitude) (grid : Int) : Nat :=
  magnitude.mantissa * Nat.pow 2 magnitude.exponent.toNat * Nat.pow 10 (-grid).toNat /
    (Nat.pow 2 (-magnitude.exponent).toNat * Nat.pow 10 grid.toNat)

/-- The least `k` with `magnitude < 10 ^ k`, for a magnitude above zero.  No
positive float lies below `10 ^ -324`. -/
def scale (magnitude : Magnitude) : Int :=
  (Nat.toDigits 10 (magnitude.floorAt (-324))).length - 324

/-- The neighbour of the magnitude on a decimal grid that identifies it. -/
def onGrid? (magnitude : Magnitude) (tie : Tie) (grid : Int) : Option Decimal :=
  let below : Decimal := ⟨magnitude.floorAt grid, grid⟩
  let above : Decimal := ⟨magnitude.floorAt grid + 1, grid⟩
  match magnitude.readsBack below, magnitude.readsBack above with
  | false, false => none
  | true, false => some below
  | false, true => some above
  | true, true =>
    -- twice the value against the sum of the two neighbours
    match Decimal.compareTo ⟨2 * below.digits + 1, grid⟩ magnitude.mantissa
        (magnitude.exponent + 1) with
    | .gt => some below
    | .lt => some above
    | .eq =>
      match tie with
      | .up => some above
      | .even => if below.digits % 2 = 0 then some below else some above

/-- The magnitude written out in full. -/
def exactly (magnitude : Magnitude) : Decimal :=
  ⟨magnitude.mantissa * Nat.pow 2 magnitude.exponent.toNat *
      Nat.pow 5 (-magnitude.exponent).toNat,
    min magnitude.exponent 0⟩

/-- The decimal with the fewest digits that identifies a magnitude above
zero; seventeen digits are always enough. -/
def shortest (magnitude : Magnitude) (tie : Tie) : Decimal :=
  let scale := magnitude.scale
  let found := (List.range 17).findSome? fun count =>
    magnitude.onGrid? tie (scale - (count + 1 : Nat))
  (found.getD magnitude.exactly).strip 400

end Magnitude

end DesignLayout
