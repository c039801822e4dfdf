/-!
# Hexadecimal digits
-/

namespace DesignLayout.Text

/-- The value of a hexadecimal digit of either case. -/
def hexValue? (digit : Char) : Option Nat :=
  if '0' ≤ digit ∧ digit ≤ '9' then some (digit.toNat - '0'.toNat)
  else if 'a' ≤ digit ∧ digit ≤ 'f' then some (digit.toNat - 'a'.toNat + 10)
  else if 'A' ≤ digit ∧ digit ≤ 'F' then some (digit.toNat - 'A'.toNat + 10)
  else none

/-- Whether a number is the code point of a character. -/
def isCodePoint (number : Nat) : Bool :=
  number < 0xD800 || (0xDFFF < number && number < 0x110000)

end DesignLayout.Text
