import DesignLayout.Toml.Basic
import DesignLayout.Toml.Scalar

/-!
# Dates in the place of tables

A table below the top can stand for a date: its first key is then a reserved
one, with the date as a string.  Such a table is a plain value, and whatever
else is in it does not count.
-/

namespace DesignLayout.Toml

/-- The key that makes a date of a table. -/
def dateKey : String := "$__toml_private_datetime"

/-- Reads a time of day in a string, in which the hour may be the 24th. -/
def dayTime? (characters : List Char) : Option (List Char) := do
  let (hour, rest) ← fixedDigits? 2 characters
  let (minute, rest) ← fixedDigits? 2 (← character? ':' rest)
  let (second, rest) ← fixedDigits? 2 (← character? ':' rest)
  if hour ≤ 24 ∧ minute < 60 ∧ second ≤ 60 then secondFraction? rest else none

/-- The minutes of an offset, from behind its sign. -/
def offsetMinutes? (characters : List Char) : Option Nat := do
  let (hours, rest) ← fixedDigits? 2 characters
  let (minutes, rest) ← fixedDigits? 2 (← character? ':' rest)
  if rest.isEmpty then some (60 * hours + minutes) else none

/-- An offset of a day at most, or nothing. -/
def isDayOffset : List Char → Bool
  | [] => true
  | ['Z'] => true
  | ['z'] => true
  | sign :: rest =>
    (sign = '+' || sign = '-') && (offsetMinutes? rest).any fun minutes => minutes ≤ 24 * 60

/-- What follows a date: nothing, or a time with its offset. -/
def isAfterDate : List Char → Bool
  | [] => true
  | separator :: rest =>
    (separator = 'T' || separator = 't' || separator = ' ') && (dayTime? rest).any isDayOffset

/-- A date, a time, or both, in a string. -/
def isDateText (text : List Char) : Bool :=
  if text[2]? = some ':' then dayTime? text == some []
  else (date? text).any isAfterDate

/-- Whether a value under the reserved key is a date. -/
def isDateValue : Toml → Bool
  | .string text => isDateText text.toList
  | _ => false

/-- The value under the reserved key, where that key is the first. -/
def Entries.dated? : Entries → Option Toml
  | [] => none
  | (key, value) :: _ => if key = dateKey then some value else none

mutual

/-- Replaces every table that stands for a date.  A table with the reserved key
first and no date in it has no meaning. -/
def settle? : Toml → Option Toml
  | .table origin entries =>
    match Entries.dated? entries with
    | some value => if isDateValue value then some .plain else none
    | none => (settleEntries? entries).map (.table origin)
  | .array items => (settleItems? items).map .array
  | .tables elements => (settleTables? elements).map .array
  | value => some value

/-- Replaces dates in the values of entries. -/
def settleEntries? : List (String × Toml) → Option (List (String × Toml))
  | [] => some []
  | (key, value) :: rest => do
    let value ← settle? value
    return (key, value) :: (← settleEntries? rest)

/-- Replaces dates among the items of an array. -/
def settleItems? : List Toml → Option (List Toml)
  | [] => some []
  | item :: rest => do
    let item ← settle? item
    return item :: (← settleItems? rest)

/-- Replaces dates among tables, which make an array. -/
def settleTables? : List (List (String × Toml)) → Option (List Toml)
  | [] => some []
  | entries :: rest => do
    let table ←
      match Entries.dated? entries with
      | some value => if isDateValue value then some .plain else none
      | none => (settleEntries? entries).map (.table .header)
    return table :: (← settleTables? rest)

end

end DesignLayout.Toml
