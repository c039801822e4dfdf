import DesignLayout.Json.Lexeme

/-!
# Reading data text

The parser keeps the open containers on a stack and takes one lexeme after the
other.  A text is read whole: one value, and nothing after it but blanks.
-/

namespace DesignLayout.Json

/-- An open container: what it holds so far, latest first.  An object may have
a name whose value is still to come, and a name that no text stands for. -/
inductive Frame where
  | array (items : List Json)
  | object (fields : List (String × Json)) (name : String) (readable : Bool)
  deriving Repr

/-- What may come next. -/
inductive Expected where
  | value
  | valueOrClose
  | name
  | nameOrClose
  | colon
  | commaOrClose
  | finish (value : Json)
  deriving Repr

/-- The open containers, innermost first, and what may come next. -/
structure Parse where
  stack : List Frame
  expected : Expected
  deriving Repr

namespace Parse

def start : Parse := ⟨[], .value⟩

/-- Containers may be nested this deep. -/
def depthLimit : Nat := 127

/-- Puts a complete value in its place. -/
def place (stack : List Frame) (value : Json) : Parse :=
  match stack with
  | [] => ⟨[], .finish value⟩
  | .array items :: rest => ⟨.array (value :: items) :: rest, .commaOrClose⟩
  | .object fields name readable :: rest =>
    ⟨.object ((name, value) :: fields) "" readable :: rest, .commaOrClose⟩

/-- The value of a container that is closed under `below` others. -/
def closed (below : List Frame) (readable : Bool) (value : Json) : Json :=
  if readable && below.length < depthLimit then value else .unreadable

def closeArray? (parse : Parse) : Option Parse :=
  match parse.stack with
  | .array items :: rest => some (place rest (closed rest true (.arr items.reverse)))
  | _ => none

def closeObject? (parse : Parse) : Option Parse :=
  match parse.stack with
  | .object fields _ readable :: rest =>
    some (place rest (closed rest readable (.obj fields.reverse)))
  | _ => none

/-- Takes a lexeme where a value may begin. -/
def value? (parse : Parse) : Lexeme → Option Parse
  | .scalar value => some (place parse.stack value)
  | .string text => some (place parse.stack (text.elim .unreadable .str))
  | .openArray => some ⟨.array [] :: parse.stack, .valueOrClose⟩
  | .openObject => some ⟨.object [] "" true :: parse.stack, .nameOrClose⟩
  | _ => none

/-- Takes a lexeme where a name must come. -/
def name? (parse : Parse) (lexeme : Lexeme) : Option Parse :=
  match parse.stack, lexeme with
  | .object fields _ readable :: rest, .string (some name) =>
    some ⟨.object fields name readable :: rest, .colon⟩
  | .object fields _ _ :: rest, .string none =>
    some ⟨.object fields "" false :: rest, .colon⟩
  | _, _ => none

def step? (parse : Parse) (lexeme : Lexeme) : Option Parse :=
  match parse.expected with
  | .value => parse.value? lexeme
  | .valueOrClose =>
    match lexeme with
    | .closeArray => parse.closeArray?
    | _ => parse.value? lexeme
  | .name => parse.name? lexeme
  | .nameOrClose =>
    match lexeme with
    | .closeObject => parse.closeObject?
    | _ => parse.name? lexeme
  | .colon =>
    match lexeme with
    | .colon => some { parse with expected := .value }
    | _ => none
  | .commaOrClose =>
    match lexeme, parse.stack with
    | .comma, .array _ :: _ => some { parse with expected := .value }
    | .comma, .object _ _ _ :: _ => some { parse with expected := .name }
    | .closeArray, _ => parse.closeArray?
    | .closeObject, _ => parse.closeObject?
    | _, _ => none
  | .finish _ => none

/-- The value of a parse that is at its end. -/
def result? (parse : Parse) : Option Json :=
  match parse.expected with
  | .finish value => some value
  | _ => none

end Parse

/-- Reads a text as one value. -/
def ofCharacters? (text : List Char) : Option Json := do
  let lexemes ← Lexeme.list? text
  (← lexemes.foldlM Parse.step? .start).result?

def parse? (text : String) : Option Json :=
  ofCharacters? text.toList

end DesignLayout.Json
