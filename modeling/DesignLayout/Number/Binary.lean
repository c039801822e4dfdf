/-!
# The value of a 64-bit float

A finite float is a sign and a magnitude `mantissa * 2 ^ exponent`.  The rest
of the library prints and rounds numbers from this exact form, so no result
hangs on a rounding of its own.
-/

namespace DesignLayout

/-- A non-negative number `mantissa * 2 ^ exponent`.  Below a power of two the
floats lie twice as dense as above it, which `narrowBelow` records. -/
structure Magnitude where
  mantissa : Nat
  exponent : Int
  narrowBelow : Bool
  deriving DecidableEq, Repr

/-- What a 64-bit float stands for. -/
inductive Binary where
  | nan
  | infinite (negative : Bool)
  | finite (negative : Bool) (magnitude : Magnitude)
  deriving DecidableEq, Repr

namespace Binary

/-- The reading of a bit pattern: one sign bit, eleven exponent bits and
fifty-two fraction bits. -/
def ofBits (bits : UInt64) : Binary :=
  let negative := bits.toNat / Nat.pow 2 63 == 1
  let biased : Nat := bits.toNat / Nat.pow 2 52 % Nat.pow 2 11
  let fraction : Nat := bits.toNat % Nat.pow 2 52
  if biased = 2047 then
    if fraction = 0 then .infinite negative else .nan
  else if biased = 0 then
    .finite negative ⟨fraction, -1074, false⟩
  else
    .finite negative
      ⟨Nat.pow 2 52 + fraction, (biased : Int) - 1075, fraction == 0 && 1 < biased⟩

def ofFloat (number : Float) : Binary :=
  ofBits number.toBits

def isFinite : Binary → Bool
  | .finite _ _ => true
  | _ => false

end Binary

/-- Whether a float is a number of the real line. -/
def finiteNumber (number : Float) : Bool :=
  (Binary.ofFloat number).isFinite

theorem finiteNumber_iff {number : Float} :
    finiteNumber number = true ↔
      ∃ negative magnitude, Binary.ofFloat number = .finite negative magnitude := by
  unfold finiteNumber
  cases Binary.ofFloat number <;> simp [Binary.isFinite]

end DesignLayout
