import DesignLayout.Code.Basic
import DesignLayout.Layout.Basic
import DesignLayout.Source.Literal
import DesignLayout.Token.Registry

/-!
# Calls in source text

A modifier becomes a call whose arguments show the tokens of its values.
Equal tokens are said once: one argument for all sides, or one for each pair
of opposite sides.
-/

namespace DesignLayout

/-- Writes source text and registers its values. -/
abbrev Rendering := Registering Unwritable

/-- An argument of a call, with its label if it has one. -/
structure Argument where
  label : Option String
  value : Code
  deriving DecidableEq, Repr

namespace Source

/-- Registers a value as a token that shows its source text. -/
def token? {α : Type} [ToPrimitive α] (category : Category) (property : Option (Property α)) :
    Rendering (Option Token) :=
  register Primitive.source category property

/-- The argument after its label. -/
def labelled (argument : Argument) : Code :=
  match argument.label with
  | some label => .ofText (label ++ " = ") ++ argument.value
  | none => argument.value

/-- Arguments with commas between them. -/
def argumentList : List Argument → Code
  | [] => .empty
  | [argument] => labelled argument
  | argument :: rest => labelled argument ++ (.ofText ", " ++ argumentList rest)

def call (name : String) (arguments : List Argument) : Code :=
  .ofText (name ++ "(") ++ (argumentList arguments ++ .ofText ")")

/-- The arguments whose tokens are there. -/
def tokenArguments (arguments : List (Option String × Option Token)) : List Argument :=
  arguments.filterMap fun argument =>
    argument.2.map fun token => ⟨argument.1, .ofToken token⟩

/-- The arguments of a padding with these tokens at its edges. -/
def paddingArguments (tokens : Edges (Option Token)) : List Argument :=
  if tokens.left.isSome ∧ tokens.left = tokens.top ∧ tokens.left = tokens.right ∧
      tokens.left = tokens.bottom then
    tokenArguments [(none, tokens.left)]
  else if tokens.left = tokens.right ∧ tokens.top = tokens.bottom then
    tokenArguments [(some "horizontal", tokens.left), (some "vertical", tokens.top)]
  else
    tokenArguments [(some "start", tokens.left), (some "top", tokens.top),
      (some "end", tokens.right), (some "bottom", tokens.bottom)]

/-- The arguments of a shape with these tokens at its corners. -/
def shapeArguments (tokens : Corners (Option Token)) : List Argument :=
  if tokens.topLeft.isSome ∧ tokens.topLeft = tokens.topRight ∧
      tokens.topLeft = tokens.bottomRight ∧ tokens.topLeft = tokens.bottomLeft then
    tokenArguments [(none, tokens.topLeft)]
  else
    tokenArguments [(some "topStart", tokens.topLeft), (some "topEnd", tokens.topRight),
      (some "bottomEnd", tokens.bottomRight), (some "bottomStart", tokens.bottomLeft)]

/-- A padding without a token at any edge is no call. -/
def edgesCall? (tokens : Edges (Option Token)) : Option Code :=
  if tokens.toList.all Option.isNone then none
  else some (call "padding" (paddingArguments tokens))

/-- A shape without a token at any corner is no call. -/
def cornersCall? (tokens : Corners (Option Token)) : Option Code :=
  if tokens.toList.all Option.isNone then none
  else some (call "RoundedCornerShape" (shapeArguments tokens))

/-- The call of a padding, where any edge shows. -/
def padding? (padding : Padding) : Rendering (Option Code) := do
  let left ← token? .padding padding.left
  let top ← token? .padding padding.top
  let right ← token? .padding padding.right
  let bottom ← token? .padding padding.bottom
  return edgesCall? ⟨left, top, right, bottom⟩

/-- The call of a shape, where any corner shows. -/
def shape? (shape : Shape) : Rendering (Option Code) := do
  let topLeft ← token? .shape (some shape.topLeft)
  let topRight ← token? .shape (some shape.topRight)
  let bottomRight ← token? .shape (some shape.bottomRight)
  let bottomLeft ← token? .shape (some shape.bottomLeft)
  return cornersCall? ⟨topLeft, topRight, bottomRight, bottomLeft⟩

/-- The argument that a shape is, where it shows. -/
def shapeArgument (label : Option String) : Option Shape → Rendering (List Argument)
  | none => pure []
  | some shape => do return (← shape? shape).toList.map fun code => ⟨label, code⟩

/-- A spacing that does not show is no call. -/
def spacing? (spacing : Dimension) : Rendering (Option Code) := do
  let token ← token? .padding (some spacing)
  return token.map fun token => call "Arrangement.spacedBy" [⟨none, .ofToken token⟩]

def sizeName : Extent → String
  | .both => "size"
  | .width => "width"
  | .height => "height"

/-- The call of a modifier, where it shows. -/
def modifier? : Modifier → Rendering (Option Code)
  | .weight weight => do
    let text ← Registering.ofExcept (number weight)
    return some (.ofText ("weight(" ++ text ++ "f)"))
  | .fillMax .width => return some (.ofText "fillMaxWidth()")
  | .fillMax .height => return some (.ofText "fillMaxHeight()")
  | .baseline => return some (.ofText "alignByBaseline()")
  | .background color shape => do
    match ← token? .color (some color) with
    | none => return none
    | some color =>
      let shape ← shapeArgument none shape
      return some (call "background" (⟨none, .ofToken color⟩ :: shape))
  | .border color shape width => do
    match ← token? .color (some color) with
    | none => return none
    | some color =>
      let width ← token? .padding width
      let shape ← shapeArgument (some "shape") shape
      let width := width.elim (.ofText "Dp.Hairline") .ofToken
      return some (call "border"
        (⟨some "width", width⟩ :: ⟨some "color", .ofToken color⟩ :: shape))
  | .padding padding => padding? padding
  | .size axis value => do
    let token ← token? .padding (some value)
    return token.map fun token => call (sizeName axis) [⟨none, .ofToken token⟩]

end Source

end DesignLayout
