import DesignLayout.Text.Hex

/-!
# Strings in config texts

A string stands between double quotes, where a backslash starts an escape, or
between single quotes, where all stands for itself.  Between three quotes of
either kind it may go over several lines; a line break after the opening
quotes does not count, and one or two quotes may stand anywhere in it.
-/

namespace DesignLayout.Toml

/-- A character that may stand for itself in strings and comments: a tab, or
anything but a control. -/
def isPrintable (character : Char) : Bool :=
  character = '\t' || (0x20 ≤ character.toNat && character.toNat ≠ 0x7f)

def isBlank (character : Char) : Bool :=
  character = ' ' || character = '\t'

/-- The character of a short escape. -/
def shortEscape? (character : Char) : Option Char :=
  if character = '"' ∨ character = '\\' then some character
  else if character = 'b' then some '\x08'
  else if character = 't' then some '\t'
  else if character = 'n' then some '\n'
  else if character = 'f' then some '\x0c'
  else if character = 'r' then some '\r'
  else none

/-- The character of a code point in hexadecimal digits. -/
def codePoint? (digits : List Char) : Option Char := do
  let values ← digits.mapM Text.hexValue?
  let number := values.foldl (fun number digit => 16 * number + digit) 0
  if Text.isCodePoint number then some (Char.ofNat number) else none

/-- Puts a character before a string that is read. -/
def putBefore (character : Char) (read : Option (List Char × List Char)) :
    Option (List Char × List Char) :=
  read.map fun result => (character :: result.1, result.2)

/-- Reads a string in double quotes from behind the opening one. -/
def basic? : List Char → Option (List Char × List Char)
  | [] => none
  | '"' :: rest => some ([], rest)
  | '\\' :: 'u' :: a :: b :: c :: d :: rest => do
    putBefore (← codePoint? [a, b, c, d]) (basic? rest)
  | '\\' :: 'U' :: a :: b :: c :: d :: e :: f :: g :: h :: rest => do
    putBefore (← codePoint? [a, b, c, d, e, f, g, h]) (basic? rest)
  | '\\' :: character :: rest => do
    putBefore (← shortEscape? character) (basic? rest)
  | character :: rest =>
    if isPrintable character then putBefore character (basic? rest) else none

/-- Reads a string in single quotes from behind the opening one. -/
def literal? : List Char → Option (List Char × List Char)
  | [] => none
  | '\'' :: rest => some ([], rest)
  | character :: rest =>
    if isPrintable character then putBefore character (literal? rest) else none

/-- What a backslash has done to the lines of a string: nothing, or it waits
for the end of its line, or it passes over the blanks and line breaks that
follow. -/
inductive Folding where
  | off
  | waiting
  | passing
  deriving DecidableEq, Repr

/-- Reads a string in three double quotes from behind the opening ones. -/
def multilineBasic? : Folding → List Char → Option (List Char × List Char)
  | _, [] => none
  | .waiting, '\r' :: '\n' :: rest => multilineBasic? .passing rest
  | .waiting, character :: rest =>
    if character = '\n' then multilineBasic? .passing rest
    else if isBlank character then multilineBasic? .waiting rest
    else none
  | _, '"' :: '"' :: '"' :: '"' :: '"' :: rest => some (['"', '"'], rest)
  | _, '"' :: '"' :: '"' :: '"' :: rest => some (['"'], rest)
  | _, '"' :: '"' :: '"' :: rest => some ([], rest)
  | _, '\\' :: 'u' :: a :: b :: c :: d :: rest => do
    putBefore (← codePoint? [a, b, c, d]) (multilineBasic? .off rest)
  | _, '\\' :: 'U' :: a :: b :: c :: d :: e :: f :: g :: h :: rest => do
    putBefore (← codePoint? [a, b, c, d, e, f, g, h]) (multilineBasic? .off rest)
  | _, '\\' :: '\r' :: '\n' :: rest => multilineBasic? .passing rest
  | _, '\\' :: character :: rest =>
    if character = '\n' then multilineBasic? .passing rest
    else if isBlank character then multilineBasic? .waiting rest
    else do putBefore (← shortEscape? character) (multilineBasic? .off rest)
  | folding, '\r' :: '\n' :: rest =>
    if folding = .passing then multilineBasic? .passing rest
    else putBefore '\n' (multilineBasic? .off rest)
  | folding, character :: rest =>
    if character = '\n' ∨ isBlank character then
      if folding = .passing then multilineBasic? .passing rest
      else putBefore character (multilineBasic? .off rest)
    else if isPrintable character then putBefore character (multilineBasic? .off rest)
    else none

/-- Reads a string in three single quotes from behind the opening ones. -/
def multilineLiteral? : List Char → Option (List Char × List Char)
  | [] => none
  | '\'' :: '\'' :: '\'' :: '\'' :: '\'' :: rest => some (['\'', '\''], rest)
  | '\'' :: '\'' :: '\'' :: '\'' :: rest => some (['\''], rest)
  | '\'' :: '\'' :: '\'' :: rest => some ([], rest)
  | '\r' :: '\n' :: rest => putBefore '\n' (multilineLiteral? rest)
  | character :: rest =>
    if character = '\n' ∨ isPrintable character then putBefore character (multilineLiteral? rest)
    else none

/-- Passes over one line break. -/
def dropLineBreak : List Char → List Char
  | '\n' :: rest => rest
  | '\r' :: '\n' :: rest => rest
  | text => text

/-- Reads a string of any form. -/
def string? : List Char → Option (List Char × List Char)
  | '"' :: '"' :: '"' :: rest => multilineBasic? .off (dropLineBreak rest)
  | '\'' :: '\'' :: '\'' :: rest => multilineLiteral? (dropLineBreak rest)
  | '"' :: rest => basic? rest
  | '\'' :: rest => literal? rest
  | _ => none

end DesignLayout.Toml
