import DesignLayout.Text.Hex

/-!
# Plain values in config texts

Booleans, numbers, dates and times.  Only their form matters here, and that
whole numbers fit into 64 bits and no float lies above all floats.
-/

namespace DesignLayout.Toml

/-- Digits, with single underscores between them. -/
def isGrouped (isDigit : Char → Bool) : List Char → Bool
  | [] => false
  | [digit] => isDigit digit
  | digit :: '_' :: rest => isDigit digit && isGrouped isDigit rest
  | digit :: rest => isDigit digit && isGrouped isDigit rest

/-- Grouped decimal digits without a leading zero. -/
def isWhole (characters : List Char) : Bool :=
  isGrouped Char.isDigit characters && (characters.length == 1 || characters.head? != some '0')

/-- The value of digits in a base; underscores do not count. -/
def digitsValue (base : Nat) (digits : List Char) : Nat :=
  (digits.filterMap Text.hexValue?).foldl (fun value digit => base * value + digit) 0

/-- Whether there is a sign, and the characters after it. -/
def splitSign : List Char → Bool × Bool × List Char
  | '-' :: rest => (true, true, rest)
  | '+' :: rest => (true, false, rest)
  | characters => (false, false, characters)

/-- Whole numbers have 64 bits with sign, so those above zero lie below this. -/
def integerLimit : Nat := UInt64.size / 2

def isInteger (characters : List Char) : Bool :=
  match characters with
  | '0' :: 'x' :: digits =>
    isGrouped (fun digit => (Text.hexValue? digit).isSome) digits &&
      digitsValue 16 digits < integerLimit
  | '0' :: 'o' :: digits =>
    isGrouped (fun digit => '0' ≤ digit && digit ≤ '7') digits &&
      digitsValue 8 digits < integerLimit
  | '0' :: 'b' :: digits =>
    isGrouped (fun digit => digit = '0' || digit = '1') digits &&
      digitsValue 2 digits < integerLimit
  | _ =>
    let (_, negative, digits) := splitSign characters
    isWhole digits && digitsValue 10 digits < integerLimit + if negative then 1 else 0

/-- The least number that rounds to none of the floats. -/
def floatLimit : Nat := (Nat.pow 2 54 - 1) * Nat.pow 2 970

/-- Whether `digits * 10 ^ exponent` lies above all floats. -/
def isTooLarge (digits : Nat) (exponent : Int) : Bool :=
  if digits = 0 then false
  else if 0 ≤ exponent then floatLimit ≤ digits * Nat.pow 10 (min exponent.toNat 400)
  else floatLimit ≤ digits / Nat.pow 10 (min (-exponent).toNat (Nat.toDigits 10 digits).length)

/-- The exponent of a float, from behind its mark. -/
def exponent? (characters : List Char) : Option Int :=
  let (_, negative, digits) := splitSign characters
  if isGrouped Char.isDigit digits then
    some (if negative then -(digitsValue 10 digits : Int) else digitsValue 10 digits)
  else none

def isExponentMark (character : Char) : Bool :=
  character = 'e' || character = 'E'

def isGroupCharacter (character : Char) : Bool :=
  character.isDigit || character = '_'

/-- A float with a fraction, an exponent, or both. -/
def isDecimal (characters : List Char) : Bool :=
  let (_, negative, body) := splitSign characters
  let (whole, rest) := body.span isGroupCharacter
  let (fraction?, rest) :=
    match rest with
    | '.' :: rest =>
      let (fraction, rest) := rest.span isGroupCharacter
      (some fraction, rest)
    | _ => (none, rest)
  let exponent? :=
    match rest with
    | [] => some none
    | mark :: rest => if isExponentMark mark then (exponent? rest).map some else none
  match exponent? with
  | none => false
  | some exponent =>
    let fraction := fraction?.getD []
    let places := (fraction.filter Char.isDigit).length
    isWhole whole && (fraction?.isSome || exponent.isSome) &&
      (fraction?.isNone || isGrouped Char.isDigit fraction) &&
      (negative || !isTooLarge (digitsValue 10 (whole ++ fraction)) (exponent.getD 0 - places))

/-- Infinity and what is no number, with any sign. -/
def isSpecial (characters : List Char) : Bool :=
  let (_, _, word) := splitSign characters
  word = "inf".toList || word = "nan".toList

/-- The value of so many decimal digits, and what follows them. -/
def fixedDigits? : Nat → List Char → Option (Nat × List Char)
  | 0, characters => some (0, characters)
  | count + 1, characters => do
    let (value, rest) ← fixedDigits? count characters
    match rest with
    | digit :: rest =>
      if digit.isDigit then some (10 * value + (digit.toNat - '0'.toNat), rest) else none
    | [] => none

def character? (expected : Char) : List Char → Option (List Char)
  | character :: rest => if character = expected then some rest else none
  | [] => none

def daysInMonth (year month : Nat) : Nat :=
  if month = 2 then
    if year % 4 = 0 ∧ (year % 100 ≠ 0 ∨ year % 400 = 0) then 29 else 28
  else if month = 4 ∨ month = 6 ∨ month = 9 ∨ month = 11 then 30
  else 31

/-- Reads a date of the calendar. -/
def date? (characters : List Char) : Option (List Char) := do
  let (year, rest) ← fixedDigits? 4 characters
  let (month, rest) ← fixedDigits? 2 (← character? '-' rest)
  let (day, rest) ← fixedDigits? 2 (← character? '-' rest)
  if 1 ≤ month ∧ month ≤ 12 ∧ 1 ≤ day ∧ day ≤ daysInMonth year month then some rest else none

/-- Reads the hours and minutes of a clock. -/
def clock? (characters : List Char) : Option (List Char) := do
  let (hour, rest) ← fixedDigits? 2 characters
  let (minute, rest) ← fixedDigits? 2 (← character? ':' rest)
  if hour < 24 ∧ minute < 60 then some rest else none

/-- Reads the fraction of a second, if there is one. -/
def secondFraction? : List Char → Option (List Char)
  | '.' :: rest =>
    let (fraction, rest) := rest.span Char.isDigit
    if fraction.isEmpty then none else some rest
  | rest => some rest

/-- Reads a time of day; a minute may have a leap second. -/
def time? (characters : List Char) : Option (List Char) := do
  let rest ← clock? characters
  let (second, rest) ← fixedDigits? 2 (← character? ':' rest)
  if 60 < second then none else secondFraction? rest

/-- An offset from universal time, or nothing. -/
def isOffset : List Char → Bool
  | [] => true
  | ['Z'] => true
  | ['z'] => true
  | '+' :: rest => clock? rest == some []
  | '-' :: rest => clock? rest == some []
  | _ => false

def isTime (characters : List Char) : Bool :=
  time? characters == some []

def isDate (characters : List Char) : Bool :=
  date? characters == some []

/-- A time with its offset, from behind a date. -/
def isTimeWithOffset (characters : List Char) : Bool :=
  match time? characters with
  | some rest => isOffset rest
  | none => false

/-- A date and a time with a letter between them. -/
def isDateTime (characters : List Char) : Bool :=
  match date? characters with
  | some ('T' :: rest) => isTimeWithOffset rest
  | some ('t' :: rest) => isTimeWithOffset rest
  | _ => false

def isBoolean (characters : List Char) : Bool :=
  characters = "true".toList || characters = "false".toList

/-- A plain value without blanks. -/
def isScalar (characters : List Char) : Bool :=
  isBoolean characters || isInteger characters || isDecimal characters ||
    isSpecial characters || isDate characters || isTime characters || isDateTime characters

/-- The characters that end a plain value. -/
def endsScalar (character : Char) : Bool :=
  character = ' ' || character = '\t' || character = '\n' || character = '\r' ||
    character = ',' || character = ']' || character = '\x7d' || character = '#'

/-- Reads a plain value.  A blank may stand between a date and a time. -/
def scalar? (text : List Char) : Option (List Char) :=
  let (word, rest) := text.span fun character => !endsScalar character
  match rest with
  | ' ' :: digit :: others =>
    if isDate word && digit.isDigit then
      let (time, rest) := (digit :: others).span fun character => !endsScalar character
      if isTimeWithOffset time then some rest else none
    else if isScalar word then some rest
    else none
  | _ => if isScalar word then some rest else none

end DesignLayout.Toml
