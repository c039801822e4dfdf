import DesignLayout.Source.Call

/-!
# Layout trees as source text

Each node is one statement under a comment with the name of the node.  A
container holds the statements of its children in braces, one step deeper.
-/

namespace DesignLayout

/-- How source text is laid out. -/
structure SourceOptions where
  indentation : Nat := 4
  /-- The number of characters of a name that a comment shows. -/
  nameLimit : Nat := 40
  deriving DecidableEq, Repr

namespace SourceOptions

/-- The blanks that start a line at a depth. -/
def margin (options : SourceOptions) (depth : Nat) : String :=
  String.ofList (List.replicate (depth * options.indentation) ' ')

/-- A name on one line, and cut where it is too long. -/
def nameComment (options : SourceOptions) (name : String) : String :=
  let flat := name.toList.map fun character =>
    if character = '\n' ∨ character = '\r' then ' ' else character
  if flat.length > options.nameLimit then
    String.ofList (flat.take options.nameLimit ++ ['.', '.', '.'])
  else String.ofList flat

end SourceOptions

/-- A named argument of a statement. -/
structure Parameter where
  name : String
  value : Code
  deriving DecidableEq, Repr

namespace Source

/-- The calls of those modifiers that show. -/
def modifierCalls : List Modifier → Rendering (List Code)
  | [] => return []
  | modifier :: rest => do
    let call ← modifier? modifier
    let calls ← modifierCalls rest
    return call.toList ++ calls

/-- Calls one after the other, each on a line of its own. -/
def chained (options : SourceOptions) (depth : Nat) (calls : List Code) : Code :=
  .ofText "Modifier" ++
    Code.join (calls.map fun call => .ofText ("\n" ++ options.margin depth ++ ".") ++ call)

/-- The modifiers of a statement at a depth, where any show. -/
def modifierParameter (options : SourceOptions) (depth : Nat) (modifiers : List Modifier) :
    Rendering (List Parameter) := do
  let calls ← modifierCalls modifiers
  return if calls.isEmpty then [] else [⟨"modifier", chained options (depth + 2) calls⟩]

def horizontalName : HorizontalPlacement → String
  | .spaceBetween => "Arrangement.SpaceBetween"
  | .center => "Arrangement.Center"
  | .start => "Arrangement.Start"
  | .finish => "Arrangement.End"

def verticalName : VerticalPlacement → String
  | .spaceBetween => "Arrangement.SpaceBetween"
  | .center => "Arrangement.Center"
  | .top => "Arrangement.Top"
  | .bottom => "Arrangement.Bottom"

/-- An arrangement, where it is said and shows. -/
def arrangementParameter {α : Type} (name : String) (placementName : α → String) :
    Option (Arrangement α) → Rendering (List Parameter)
  | none => return []
  | some (.spaced spacing) => do
    return (← spacing? spacing).toList.map fun call => ⟨name, call⟩
  | some (.placed placement) => return [⟨name, .ofText (placementName placement)⟩]

/-- Top is where children sit by default; those on a baseline say so
themselves. -/
def rowAlignmentName? : RowAlignment → Option String
  | .bottom => some "Alignment.Bottom"
  | .center => some "Alignment.CenterVertically"
  | .top => none
  | .baseline => none

/-- Start is where children sit by default. -/
def columnAlignmentName? : ColumnAlignment → Option String
  | .finish => some "Alignment.End"
  | .center => some "Alignment.CenterHorizontally"
  | .start => none

def textAlignName : TextPlacement → String
  | .start => "TextAlign.Start"
  | .finish => "TextAlign.End"
  | .center => "TextAlign.Center"
  | .justify => "TextAlign.Justify"

/-- A parameter with a fixed text, where it has one. -/
def textParameter (name : String) (text : Option String) : List Parameter :=
  text.toList.map fun text => ⟨name, .ofText text⟩

def tokenParameter (name : String) (token : Option Token) : List Parameter :=
  token.toList.map fun token => ⟨name, .ofToken token⟩

def textParameters (content : TextBlock) : Rendering (List Parameter) := do
  let style ← token? .text (some content.style)
  let color ← token? .color content.color
  return tokenParameter "style" style ++
    textParameter "text" (some (stringLiteral content.text)) ++
    tokenParameter "color" color ++
    textParameter "textAlign" (content.align.map textAlignName) ++
    textParameter "overflow" (if content.ellipsis then some "TextOverflow.Ellipsis" else none) ++
    textParameter "maxLines" (content.lineLimit.map fun lines => toString lines.toNat)

/-- The parameters that a kind has of its own. -/
def kindParameters : LayoutKind → Rendering (List Parameter)
  | .row arrangement alignment => do
    let arrangement ← arrangementParameter "horizontalArrangement" horizontalName arrangement
    return arrangement ++
      textParameter "verticalAlignment" (alignment.bind rowAlignmentName?)
  | .flowRow horizontal vertical => do
    let horizontal ← arrangementParameter "horizontalArrangement" horizontalName horizontal
    let vertical ← arrangementParameter "verticalArrangement" verticalName vertical
    return horizontal ++ vertical
  | .column arrangement alignment => do
    let arrangement ← arrangementParameter "verticalArrangement" verticalName arrangement
    return arrangement ++
      textParameter "horizontalAlignment" (alignment.bind columnAlignmentName?)
  | .box centered =>
    return textParameter "contentAlignment" (if centered then some "Alignment.Center" else none)
  | .text content => textParameters content

/-- The function that a statement of a kind calls. -/
def functionName : LayoutKind → String
  | .row _ _ => "Row"
  | .flowRow _ _ => "FlowRow"
  | .column _ _ => "Column"
  | .box _ => "Box"
  | .text _ => "Text"

/-- One parameter on a line of its own. -/
def parameterLine (options : SourceOptions) (depth : Nat) (parameter : Parameter) : Code :=
  .ofText (options.margin (depth + 1) ++ parameter.name ++ " = ") ++
    (parameter.value ++ .ofText ",\n")

/-- A statement at a depth up to where its children begin, or the whole of it
if it is a text. -/
def header (options : SourceOptions) (depth : Nat) (name : String) (kind : LayoutKind)
    (parameters : List Parameter) : Code :=
  let margin := options.margin depth
  let opening := .ofText (margin ++ "// " ++ options.nameComment name ++ "\n")
  if parameters.isEmpty && !kind.holdsText then
    opening ++ .ofText (margin ++ functionName kind ++ " \x7b\n")
  else
    opening ++ (.ofText (margin ++ functionName kind ++ "(\n") ++
      (Code.join (parameters.map (parameterLine options depth)) ++
        .ofText (margin ++ if kind.holdsText then ")\n" else ") \x7b\n")))

/-- What stands in a container without children. -/
def emptyBody (options : SourceOptions) (depth : Nat) : Code :=
  .ofText (options.margin depth ++ "// empty\n")

def footer (options : SourceOptions) (depth : Nat) : Code :=
  .ofText (options.margin depth ++ "\x7d\n")

mutual

/-- The statement of a node at a depth.  The children of a text are not
shown. -/
def statement (options : SourceOptions) (depth : Nat) : Layout → Rendering Code
  | ⟨name, modifiers, children, kind⟩ => do
    let modifier ← modifierParameter options depth modifiers
    let parameters ← kindParameters kind
    let header := header options depth name kind (modifier ++ parameters)
    if kind.holdsText then return header
    else do
      let body ← statements options (depth + 1) children
      let body := if children.isEmpty then emptyBody options (depth + 1) else body
      return header ++ (body ++ footer options depth)

/-- Statements one after the other. -/
def statements (options : SourceOptions) (depth : Nat) : List Layout → Rendering Code
  | [] => return .empty
  | node :: rest => do
    let first ← statement options depth node
    let others ← statements options depth rest
    return first ++ others

end

end Source

/-- The source text of a layout tree; its values are registered as tokens. -/
def Layout.render (root : Layout) (options : SourceOptions) : Rendering Code :=
  Source.statement options 0 root

end DesignLayout
