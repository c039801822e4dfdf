import DesignLayout.Json.Numeral
import DesignLayout.Text.Hex

/-!
# Lexemes of data text

The lexer is a finite automaton: it goes through the text once, a character at
a time, and collects the punctuation marks and the values that hold no other.
A string may spell a character as one or two sixteen-bit units; a unit that
makes no character leaves the string well-formed and unreadable.
-/

namespace DesignLayout.Json

inductive Lexeme where
  | openArray
  | closeArray
  | openObject
  | closeObject
  | comma
  | colon
  /-- A string, unless its units make no text. -/
  | string (text : Option String)
  | scalar (value : Json)
  deriving Repr

namespace Lexeme

/-- A string under way: its characters, latest first, a high surrogate that
waits for its other half, and whether all units made characters so far. -/
structure Content where
  characters : List Char
  high : Option Nat
  readable : Bool
  deriving DecidableEq, Repr

namespace Content

def empty : Content := ⟨[], none, true⟩

def add (content : Content) (character : Char) : Content :=
  ⟨character :: content.characters, none, content.readable && content.high.isNone⟩

def isHigh (unit : Nat) : Bool :=
  0xD800 ≤ unit && unit < 0xDC00

def isLow (unit : Nat) : Bool :=
  0xDC00 ≤ unit && unit < 0xE000

/-- The character of two surrogates. -/
def joined (high low : Nat) : Char :=
  Char.ofNat (0x10000 + (high - 0xD800) * 0x400 + (low - 0xDC00))

def addUnit (content : Content) (unit : Nat) : Content :=
  match content.high with
  | some high =>
    if isLow unit then ⟨joined high unit :: content.characters, none, content.readable⟩
    else ⟨content.characters, none, false⟩
  | none =>
    if isHigh unit then { content with high := some unit }
    else if isLow unit then { content with readable := false }
    else content.add (Char.ofNat unit)

/-- The text of a string that ends here. -/
def text? (content : Content) : Option String :=
  if content.readable && content.high.isNone then
    some (String.ofList content.characters.reverse)
  else none

end Content

/-- What the automaton is in the middle of. -/
inductive State where
  | between
  | word (letters : List Char)
  | numeral (characters : List Char)
  | string (content : Content)
  | escape (content : Content)
  /-- Inside an escaped unit, with the digits that are still to come. -/
  | unit (content : Content) (missing : Nat) (value : Nat)
  deriving DecidableEq, Repr

/-- The lexemes so far, latest first, and the state. -/
structure Scan where
  lexemes : List Lexeme
  state : State
  deriving Repr

def isBlank (character : Char) : Bool :=
  character = ' ' || character = '\n' || character = '\r' || character = '\t'

def isNumeralCharacter (character : Char) : Bool :=
  character.isDigit || character = '-' || character = '+' || character = '.' ||
    character = 'e' || character = 'E'

/-- The value of a bare word. -/
def word? (letters : List Char) : Option Json :=
  if letters = "true".toList then some (.bool true)
  else if letters = "false".toList then some (.bool false)
  else if letters = "null".toList then some .null
  else none

/-- The mark that a character is by itself. -/
def mark? (character : Char) : Option Lexeme :=
  if character = '[' then some .openArray
  else if character = ']' then some .closeArray
  else if character = '\x7b' then some .openObject
  else if character = '\x7d' then some .closeObject
  else if character = ',' then some .comma
  else if character = ':' then some .colon
  else none

/-- Reads the first character of a lexeme. -/
def begin? (lexemes : List Lexeme) (character : Char) : Option Scan :=
  if isBlank character then some ⟨lexemes, .between⟩
  else if character = '"' then some ⟨lexemes, .string .empty⟩
  else if character.isDigit ∨ character = '-' then some ⟨lexemes, .numeral [character]⟩
  else if character.isLower then some ⟨lexemes, .word [character]⟩
  else (mark? character).map fun mark => ⟨mark :: lexemes, .between⟩

/-- The character of a short escape. -/
def shortEscape? (character : Char) : Option Char :=
  if character = '"' ∨ character = '\\' ∨ character = '/' then some character
  else if character = 'b' then some '\x08'
  else if character = 'f' then some '\x0c'
  else if character = 'n' then some '\n'
  else if character = 'r' then some '\r'
  else if character = 't' then some '\t'
  else none

/-- Ends a word or a numeral. -/
def finish? (scan : Scan) : Option (List Lexeme) :=
  match scan.state with
  | .between => some scan.lexemes
  | .word letters => (word? letters.reverse).map fun value => .scalar value :: scan.lexemes
  | .numeral characters =>
    (Numeral.ofCharacters? characters.reverse).map fun numeral =>
      .scalar numeral.value :: scan.lexemes
  | _ => none

def step? (scan : Scan) (character : Char) : Option Scan :=
  match scan.state with
  | .between => begin? scan.lexemes character
  | .word letters =>
    if character.isLower then some { scan with state := .word (character :: letters) }
    else do begin? (← finish? scan) character
  | .numeral characters =>
    if isNumeralCharacter character then
      some { scan with state := .numeral (character :: characters) }
    else do begin? (← finish? scan) character
  | .string content =>
    if character = '"' then some ⟨.string content.text? :: scan.lexemes, .between⟩
    else if character = '\\' then some { scan with state := .escape content }
    else if character.toNat < 0x20 then none
    else some { scan with state := .string (content.add character) }
  | .escape content =>
    if character = 'u' then some { scan with state := .unit content 3 0 }
    else (shortEscape? character).map fun escaped =>
      { scan with state := .string (content.add escaped) }
  | .unit content missing value =>
    (Text.hexValue? character).map fun digit =>
      match missing with
      | 0 => { scan with state := .string (content.addUnit (16 * value + digit)) }
      | missing + 1 => { scan with state := .unit content missing (16 * value + digit) }

/-- The lexemes of a text. -/
def list? (text : List Char) : Option (List Lexeme) := do
  let scan ← text.foldlM step? ⟨[], .between⟩
  return (← finish? scan).reverse

end Lexeme

end DesignLayout.Json
