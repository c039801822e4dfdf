import DesignLayout.Toml.Date
import DesignLayout.Toml.Text

/-!
# Reading config texts

A config text is a list of headers and of keys with values, one on a line.
Keys keep the order of the text.
-/

namespace DesignLayout.Toml

def dropBlanks (text : List Char) : List Char :=
  text.dropWhile isBlank

/-- Passes over blanks, line breaks and comments between the parts of a
value. -/
def dropTrivia? : Bool → List Char → Option (List Char)
  | _, [] => some []
  | _, '\r' :: '\n' :: rest => dropTrivia? false rest
  | inComment, character :: rest =>
    if character = '\n' then dropTrivia? false rest
    else if inComment then if isPrintable character then dropTrivia? true rest else none
    else if isBlank character then dropTrivia? false rest
    else if character = '#' then dropTrivia? true rest
    else some (character :: rest)

/-- Passes over the rest of a line that holds nothing more than a comment. -/
def endLine? : Bool → List Char → Option (List Char)
  | _, [] => some []
  | _, '\r' :: '\n' :: rest => some rest
  | inComment, character :: rest =>
    if character = '\n' then some rest
    else if inComment then if isPrintable character then endLine? true rest else none
    else if isBlank character then endLine? false rest
    else if character = '#' then endLine? true rest
    else none

/-- The characters of a key without quotes. -/
def isBare (character : Char) : Bool :=
  character.isAlphanum || character = '_' || character = '-'

/-- Reads one part of a key. -/
def simpleKey? (text : List Char) : Option (String × List Char) :=
  match text with
  | '"' :: rest => (basic? rest).map fun result => (String.ofList result.1, result.2)
  | '\'' :: rest => (literal? rest).map fun result => (String.ofList result.1, result.2)
  | _ =>
    let (bare, rest) := text.span isBare
    if bare.isEmpty then none else some (String.ofList bare, rest)

/-- Reads a key of so many parts at most, with the blanks around it. -/
def key? : Nat → List Char → Option (List String × List Char)
  | 0, _ => none
  | parts + 1, text => do
    let (first, rest) ← simpleKey? (dropBlanks text)
    match dropBlanks rest with
    | '.' :: rest =>
      let (others, rest) ← key? parts rest
      return (first :: others, rest)
    | rest => return ([first], rest)

/-- A key has fewer parts than this, and values are nested less deep. -/
def limit : Nat := 80

/-- Passes over an expected character. -/
def expect? (expected : Char) : List Char → Option (List Char)
  | character :: rest => if character = expected then some rest else none
  | [] => none

mutual

/-- Reads a value.  No reading takes more steps than there are characters and
brackets, which `fuel` counts; `depth` bounds the nesting. -/
def value? (fuel depth : Nat) (text : List Char) : Option (Toml × List Char) :=
  match fuel with
  | 0 => none
  | fuel + 1 =>
    match text with
    | '"' :: _ => (string? text).map fun result => (.string (String.ofList result.1), result.2)
    | '\'' :: _ => (string? text).map fun result => (.string (String.ofList result.1), result.2)
    | '[' :: rest =>
      match depth with
      | 0 => none
      | depth + 1 => (arrayEnd? fuel depth rest).map fun (items, rest) => (.array items, rest)
    | '\x7b' :: rest =>
      match depth with
      | 0 => none
      | depth + 1 =>
        match dropBlanks rest with
        | '\x7d' :: rest => some (.table .inline [], rest)
        | rest => do
          let (entries, rest) ← inlineEnd? fuel depth [] rest
          return (.table .inline entries, rest)
    | _ => (scalar? text).map fun rest => (.plain, rest)

/-- Reads the items of an array and the bracket that closes it. -/
def arrayEnd? (fuel depth : Nat) (text : List Char) : Option (List Toml × List Char) :=
  match fuel with
  | 0 => none
  | fuel + 1 => do
    match ← dropTrivia? false text with
    | ']' :: rest => return ([], rest)
    | text =>
      let (item, rest) ← value? fuel depth text
      match ← dropTrivia? false rest with
      | ',' :: rest =>
        let (items, rest) ← arrayEnd? fuel depth rest
        return (item :: items, rest)
      | rest => return ([item], ← expect? ']' rest)

/-- Reads the entries of a table in braces and the brace that closes it. -/
def inlineEnd? (fuel depth : Nat) (entries : Entries) (text : List Char) :
    Option (Entries × List Char) :=
  match fuel with
  | 0 => none
  | fuel + 1 => do
    let (path, rest) ← key? (limit - 1) text
    let rest ← expect? '=' rest
    let (value, rest) ← value? fuel depth (dropBlanks rest)
    let entries ← entries.addKey? path value
    match dropBlanks rest with
    | ',' :: rest => inlineEnd? fuel depth entries rest
    | rest => return (entries, ← expect? '\x7d' rest)

end

/-- Reads the line of a header or of a key. -/
def line? (state : State) (text : List Char) : Option (State × List Char) :=
  match text with
  | '[' :: '[' :: rest => do
    let (path, rest) ← key? (limit - 1) rest
    let rest ← endLine? false (← expect? ']' (← expect? ']' rest))
    return (← state.beginElement? path, rest)
  | '[' :: rest => do
    let (path, rest) ← key? (limit - 1) rest
    let rest ← endLine? false (← expect? ']' rest)
    return (← state.beginTable? path, rest)
  | _ => do
    let (path, rest) ← key? (limit - 1) text
    let rest ← expect? '=' rest
    let (value, rest) ← value? (2 * rest.length + 2) (limit - 1) (dropBlanks rest)
    let rest ← endLine? false rest
    return (← state.addKey? path value, rest)

/-- Reads lines to the end of the text. -/
def lines? (fuel : Nat) (state : State) (text : List Char) : Option State :=
  match fuel with
  | 0 => none
  | fuel + 1 => do
    match ← dropTrivia? false text with
    | [] => return state
    | text =>
      let (state, rest) ← line? state text
      lines? fuel state rest

/-- A mark of byte order may stand before the text. -/
def dropByteOrderMark : List Char → List Char
  | '\ufeff' :: rest => rest
  | text => text

/-- The contents of a config text, with the dates among its tables settled. -/
def read? (text : String) : Option Entries := do
  let text := dropByteOrderMark text.toList
  settleEntries? (← (← lines? (text.length + 1) .start text).complete?)

end DesignLayout.Toml
