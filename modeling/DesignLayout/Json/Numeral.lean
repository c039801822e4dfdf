import DesignLayout.Json.Basic
import DesignLayout.Number.Binary

/-!
# Numerals

A numeral is a sign, whole digits, and perhaps a fraction and an exponent.  A
whole numeral that fits into 64 bits is a whole number.  Any other is a float:
as many digits as 64 bits hold are taken, and scaled by one power of ten.
-/

namespace DesignLayout.Json

/-- The parts of a numeral.  A numeral without a fraction part has no
fraction digits, and one without an exponent part has no exponent. -/
structure Numeral where
  negative : Bool
  whole : List Char
  fraction : List Char
  exponent : Option Int
  deriving DecidableEq, Repr

namespace Numeral

def digitValue (digit : Char) : Nat :=
  digit.toNat - '0'.toNat

def digitsValue (digits : List Char) : Nat :=
  digits.foldl (fun value digit => 10 * value + digitValue digit) 0

/-- Some digits, and none but digits. -/
def isDigits (characters : List Char) : Bool :=
  !characters.isEmpty && characters.all Char.isDigit

/-- Whole digits have no leading zero. -/
def isWhole (characters : List Char) : Bool :=
  isDigits characters && (characters.length == 1 || characters.head? != some '0')

/-- Reads an exponent with its sign. -/
def exponent? : List Char → Option Int
  | '-' :: digits => if isDigits digits then some (-(digitsValue digits : Int)) else none
  | '+' :: digits => if isDigits digits then some (digitsValue digits) else none
  | digits => if isDigits digits then some (digitsValue digits) else none

/-- Reads what follows the whole digits. -/
def ending? : List Char → Option (List Char × Option Int)
  | [] => some ([], none)
  | '.' :: rest =>
    let (fraction, rest) := rest.span Char.isDigit
    if fraction.isEmpty then none
    else
      match rest with
      | [] => some (fraction, none)
      | mark :: rest =>
        if mark = 'e' ∨ mark = 'E' then
          (exponent? rest).map fun exponent => (fraction, some exponent)
        else none
  | mark :: rest =>
    if mark = 'e' ∨ mark = 'E' then (exponent? rest).map fun exponent => ([], some exponent)
    else none

/-- Reads a numeral without its sign. -/
def unsigned? (negative : Bool) (characters : List Char) : Option Numeral := do
  let (whole, rest) := characters.span Char.isDigit
  guard (isWhole whole)
  let (fraction, exponent) ← ending? rest
  return ⟨negative, whole, fraction, exponent⟩

def ofCharacters? : List Char → Option Numeral
  | '-' :: rest => unsigned? true rest
  | characters => unsigned? false characters

/-- Appends digits to a number as long as it fits into 64 bits, and gives the
digits that are left. -/
def absorb (value : Nat) : List Char → Nat × List Char
  | [] => (value, [])
  | digit :: rest =>
    let next := 10 * value + digitValue digit
    if next < UInt64.size then absorb next rest else (value, digit :: rest)

/-- A power of ten as a float. -/
def powerOfTen (exponent : Nat) : Float :=
  Float.ofScientific 1 false exponent

/-- Scales by a power of ten, in two steps where one power is beyond all
floats. -/
def scale (value : Float) (exponent : Int) : Float :=
  if 0 ≤ exponent then
    if value == 0.0 then value else value * powerOfTen (min exponent.toNat 400)
  else if -308 ≤ exponent then value / powerOfTen (-exponent).toNat
  else value / powerOfTen 308 / powerOfTen (min (-exponent - 308).toNat 308)

/-- The float of a numeral. -/
def float (numeral : Numeral) : Float :=
  let (value, dropped) := absorb 0 numeral.whole
  let (value, unread) := absorb value numeral.fraction
  let taken := numeral.fraction.length - unread.length
  let exponent := (dropped.length : Int) - taken + numeral.exponent.getD 0
  let magnitude := scale (Float.ofNat value) exponent
  if numeral.negative then -magnitude else magnitude

/-- The value of a numeral; a number beyond all floats has none. -/
def value (numeral : Numeral) : Json :=
  let whole := digitsValue numeral.whole
  let limit := if numeral.negative then UInt64.size / 2 else UInt64.size - 1
  if numeral.fraction.isEmpty ∧ numeral.exponent.isNone ∧ whole ≤ limit ∧
      ¬(numeral.negative ∧ whole = 0) then
    .int (if numeral.negative then -whole else whole)
  else if finiteNumber numeral.float then .float numeral.float
  else .unreadable

end Numeral

end DesignLayout.Json
