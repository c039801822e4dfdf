import DesignLayout.Code.Basic
import DesignLayout.Text.Quoted
import DesignLayout.Token.Record

/-!
# Marked text

Hosts that exchange plain text get each token as its record between two
marker characters.  No record contains the marker, so marked text can be read
back as long as no literal text contains it.
-/

namespace DesignLayout

/-- The character before and after each record. -/
def marker : Char := '\x0f'

inductive MarkerFault where
  /-- Literal text contains the marker. -/
  | collision (text : String)
  /-- What stands between two markers, or after a last one, is no record. -/
  | malformed (record : String)
  deriving DecidableEq, Repr

def MarkerFault.message : MarkerFault → String
  | .collision text =>
    "Rendered text contains the reserved marker character: " ++ Text.quoted text
  | .malformed record => "Malformed marker record: " ++ Text.quoted record

/-- The record of a token between markers. -/
def Token.marked (token : Token) : List Char :=
  marker :: token.record ++ [marker]

namespace Piece

def marked : Piece → Except MarkerFault (List Char)
  | .text content =>
    if marker ∈ content.toList then .error (.collision content) else .ok content.toList
  | .token entry => .ok entry.marked

end Piece

namespace Code

/-- The marked text of a code; the first text with a marker in it is
refused. -/
def markedText (code : Code) : Except MarkerFault String := do
  return String.ofList (← code.pieces.mapM Piece.marked).flatten

end Code

/-- What lies before, between and after the markers. -/
def markerParts : List Char → List (List Char)
  | [] => [[]]
  | character :: rest =>
    if character = marker then [] :: markerParts rest
    else
      match markerParts rest with
      | [] => [[character]]
      | part :: parts => (character :: part) :: parts

namespace Code

/-- Adds parts that are in turn literal text and a record. -/
def addParts (code : Code) : List (List Char) → Except MarkerFault Code
  | [] => .ok code
  | [text] => .ok (code.addText (String.ofList text))
  | text :: record :: rest =>
    match Token.ofRecord? record with
    | some token => addParts ((code.addText (String.ofList text)).addToken token) rest
    | none => .error (.malformed (String.ofList record))

/-- Reads marked text.  An odd number of markers leaves a record open. -/
def readMarked (text : String) : Except MarkerFault Code :=
  let parts := markerParts text.toList
  if parts.length % 2 = 0 then
    .error (.malformed (String.ofList (parts.getLastD [])))
  else empty.addParts parts

end Code

/-- Shows marked text, with each token as `display` gives it. -/
def displayMarked {m : Type → Type} [Monad m] (text : String) (display : Token → m String) :
    ExceptT MarkerFault m String := do
  let code ← ExceptT.mk (pure (Code.readMarked text))
  ExceptT.lift (code.displayM display)

end DesignLayout
