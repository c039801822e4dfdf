/-!
# Writing config texts

A key is bare where it can be, and a string takes the first form that shows it
without escapes.  Controls are always escaped.
-/

namespace DesignLayout.Toml

/-- A control other than a tab. -/
def isControl (character : Char) : Bool :=
  (character.toNat < 0x20 && character != '\t') || character.toNat == 0x7f

/-- The longest run of a character in a text, given the run that ends before
it. -/
def longestRun (quote : Char) (current : Nat) : List Char → Nat
  | [] => current
  | character :: rest =>
    if character = quote then longestRun quote (current + 1) rest
    else max current (longestRun quote 0 rest)

def upperHexDigit (digit : Nat) : Char :=
  (Nat.digitChar digit).toUpper

/-- One character between double quotes, but for quotes and line breaks. -/
def escapedCharacter (character : Char) : List Char :=
  if character = '\x08' then ['\\', 'b']
  else if character = '\t' then ['\\', 't']
  else if character = '\x0c' then ['\\', 'f']
  else if character = '\r' then ['\\', 'r']
  else if character = '\\' then ['\\', '\\']
  else if isControl character then
    ['\\', 'u', '0', '0', upperHexDigit (character.toNat / 16),
      upperHexDigit (character.toNat % 16)]
  else [character]

/-- One character of a string on one line. -/
def lineCharacter (character : Char) : List Char :=
  if character = '"' then ['\\', '"']
  else if character = '\n' then ['\\', 'n']
  else escapedCharacter character

def basicText (text : List Char) : List Char :=
  '"' :: text.flatMap lineCharacter ++ ['"']

def literalText (text : List Char) : List Char :=
  '\'' :: text ++ ['\'']

/-- The text between three double quotes: of quotes in a row each third is
escaped.  An escape starts the count anew. -/
def multilineCharacters (quotes : Nat) : List Char → List Char
  | [] => []
  | character :: rest =>
    if character = '"' then
      if quotes = 2 then '\\' :: '"' :: multilineCharacters 0 rest
      else '"' :: multilineCharacters (quotes + 1) rest
    else if character = '\n' then '\n' :: multilineCharacters 0 rest
    else escapedCharacter character ++ multilineCharacters 0 rest

/-- A line break after the opening quotes, where there are several lines. -/
def openingBreak (text : List Char) : List Char :=
  if '\n' ∈ text then ['\n'] else []

def multilineBasicText (text : List Char) : List Char :=
  ['"', '"', '"'] ++ openingBreak text ++ multilineCharacters 0 text ++ ['"', '"', '"']

def multilineLiteralText (text : List Char) : List Char :=
  ['\'', '\'', '\''] ++ openingBreak text ++ text ++ ['\'', '\'', '\'']

/-- A string as a value. -/
def valueText (text : List Char) : List Char :=
  let isPlain := text.all fun character => !isControl character || character == '\n'
  let isOneLine := text.all (· != '\n')
  let hasBackslash := text.any (· == '\\')
  let singles := longestRun '\'' 0 text
  let doubles := longestRun '"' 0 text
  if isPlain && !hasBackslash && doubles == 0 && isOneLine then basicText text
  else if isPlain && singles == 0 && isOneLine then literalText text
  else if isPlain && !hasBackslash && doubles ≤ 2 then multilineBasicText text
  else if isPlain && singles ≤ 2 then multilineLiteralText text
  else if isOneLine then basicText text
  else multilineBasicText text

/-- The characters of a key without quotes. -/
def isBareKey (text : List Char) : Bool :=
  !text.isEmpty &&
    text.all fun character => character.isAlphanum || character == '_' || character == '-'

/-- A string as a key. -/
def keyText (text : List Char) : List Char :=
  let isPlain := text.all fun character => !isControl character
  if isBareKey text then text
  else if isPlain && text.all (fun character => character != '\\' && character != '"') then
    basicText text
  else if isPlain && text.all (· != '\'') then literalText text
  else basicText text

/-- One key and its value on a line. -/
def entryText (entry : String × String) : List Char :=
  keyText entry.1.toList ++ " = ".toList ++ valueText entry.2.toList ++ ['\n']

/-- A header with the entries under it. -/
def sectionText (name : String) (entries : List (String × String)) : List Char :=
  '[' :: keyText name.toList ++ [']', '\n'] ++ entries.flatMap entryText

/-- Sections with empty lines between them. -/
def documentText (sections : List (String × List (String × String))) : List Char :=
  ['\n'].intercalate (sections.map fun entries => sectionText entries.1 entries.2)

end DesignLayout.Toml
