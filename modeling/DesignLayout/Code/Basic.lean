import DesignLayout.Token.Table

/-!
# Source text with tokens

Source text is a sequence of pieces, each a literal text or a token.  Which value a token
stands for is settled when the code is written; how it is shown is settled
when the code is displayed.
-/

namespace DesignLayout

inductive Piece where
  | text (content : String)
  | token (token : Token)
  deriving DecidableEq, Repr

/-- Pieces in reading order. -/
structure Code where
  pieces : List Piece
  deriving DecidableEq, Repr

namespace Piece

/-- The token of a piece, if it is one. -/
def token? : Piece → Option Token
  | .text _ => none
  | .token entry => some entry

/-- Puts a piece before others.  An empty text is left out, and a text is
joined to the one that follows it. -/
def before : Piece → List Piece → List Piece
  | .text content, rest =>
    if content.isEmpty then rest
    else
      match rest with
      | .text next :: rest => .text (content ++ next) :: rest
      | rest => .text content :: rest
  | .token entry, rest => .token entry :: rest

end Piece

namespace Code

def empty : Code := ⟨[]⟩

instance : Inhabited Code := ⟨empty⟩

def ofText (content : String) : Code :=
  ⟨Piece.before (.text content) []⟩

def ofToken (token : Token) : Code :=
  ⟨[.token token]⟩

/-- Joins two codes, and the texts that meet between them. -/
def append (code other : Code) : Code :=
  ⟨code.pieces.foldr Piece.before other.pieces⟩

instance : Append Code := ⟨append⟩

/-- Adds literal text; an empty text adds nothing. -/
def addText (code : Code) (content : String) : Code :=
  code ++ ofText content

def addToken (code : Code) (token : Token) : Code :=
  code ++ ofToken token

def join (codes : List Code) : Code :=
  codes.foldr append empty

def isEmpty (code : Code) : Bool :=
  code.pieces.isEmpty

/-- The tokens in reading order. -/
def tokens (code : Code) : List Token :=
  code.pieces.filterMap Piece.token?

/-- Shows the code, with each token as `display` gives it, from left to
right. -/
def displayM {m : Type → Type} [Monad m] (display : Token → m String) (code : Code) : m String :=
  code.pieces.foldlM (fun shown piece =>
    match piece with
    | .text content => pure (shown ++ content)
    | .token token => do return shown ++ (← display token)) ""

/-- Shows the code, with each token as `display` gives it. -/
def displayWith (display : Token → String) (code : Code) : String :=
  Id.run (code.displayM fun token => pure (display token))

/-- How a token is shown: by its name, or by the value that a table has for
it, or else by the value it was written with. -/
def display (table : TokenTable) (showValues : Bool) (token : Token) : String :=
  if showValues then
    match table.get? token.category token.id with
    | some entry => entry.value
    | none => token.value
  else token.name

def sourceText (code : Code) (table : TokenTable) (showValues : Bool) : String :=
  code.displayWith (display table showValues)

/-- The code with each token as the value it was written with. -/
def plainText (code : Code) : String :=
  code.displayWith Token.value

end Code

end DesignLayout
