import Mathlib
import DesignLayout.Layout.Basic
import DesignLayout.Source.Literal
import DesignLayout.Token.Registry

/-!
# The design values of a layout tree

A layout tree holds values in its modifiers and arrangements and in its texts.
They are registered in one order and shown in another, and equal tokens at
the sides of a rectangle are shown once.  A value that shows asks for a token
of its own: the token of its link, or one that goes by the text of the value.
-/

namespace DesignLayout

/-- The first of some tokens in the category and under the id of a token. -/
def Token.firstLike? (own : Token) (tokens : List Token) : Option Token :=
  tokens.find? fun other => other.category = own.category ∧ other.id = own.id

/-- A value of a layout tree, with the category in which it is registered. -/
structure DesignValue where
  category : Category
  property : Property Primitive
  deriving DecidableEq, Repr

namespace DesignValue

variable {α : Type}

def of [ToPrimitive α] (category : Category) (property : Property α) : DesignValue :=
  ⟨category, property.map toPrimitive⟩

def isBlank (value : DesignValue) : Bool :=
  value.property.isBlank

/-- The token that a value asks for. -/
def ownToken (value : DesignValue) : Except Unwritable Token := do
  return value.property.token value.category (← value.property.toPrimitive.source)

/-- The tokens that values ask for, where they show. -/
def ownTokens (values : List DesignValue) : Except Unwritable (List Token) :=
  (values.filter fun value => !value.isBlank).mapM ownToken

/-- Whether a token stands for a value: it has the name of the value's link,
or else the text of the value as its name and its value. -/
def StoodForBy (value : DesignValue) (token : Token) : Prop :=
  token.category = value.category ∧
    match value.property with
    | .linked link => token.name = link.name
    | .own primitive => primitive.source = .ok token.value ∧ token.name = token.value

instance (value : DesignValue) (token : Token) : Decidable (value.StoodForBy token) :=
  match value with
  | ⟨category, .linked link⟩ =>
    inferInstanceAs (Decidable (token.category = category ∧ token.name = link.name))
  | ⟨category, .own primitive⟩ =>
    inferInstanceAs (Decidable (token.category = category ∧
      primitive.source = .ok token.value ∧ token.name = token.value))

theorem isBlank_of [ToPrimitive α] (category : Category) (property : Property α) :
    (of category property).isBlank = property.isBlank := by
  cases property <;> rfl

theorem ownToken_of [ToPrimitive α] (category : Category) (property : Property α) :
    (of category property).ownToken =
      property.toPrimitive.source.map (property.token category) := by
  cases property <;> rfl

end DesignValue

section values

def shapeValues (shape : Option Shape) : List DesignValue :=
  shape.toList.flatMap fun shape => shape.toList.map (.of .shape)

def dimensionValues (dimension : Option Dimension) : List DesignValue :=
  dimension.toList.map (.of .padding)

def Modifier.values : Modifier → List DesignValue
  | .background color shape => .of .color color :: shapeValues shape
  | .border color shape width => .of .color color :: (dimensionValues width ++ shapeValues shape)
  | .padding edges => edges.toList.flatMap dimensionValues
  | .weight _ => []
  | .fillMax _ => []
  | .baseline => []
  | .size _ value => [.of .padding value]

def arrangementValues {α : Type} : Option (Arrangement α) → List DesignValue
  | some (.spaced spacing) => [.of .padding spacing]
  | _ => []

def LayoutKind.values : LayoutKind → List DesignValue
  | .row arrangement _ => arrangementValues arrangement
  | .flowRow horizontal vertical => arrangementValues horizontal ++ arrangementValues vertical
  | .column arrangement _ => arrangementValues arrangement
  | .box _ => []
  | .text content => .of .text content.style :: content.color.toList.map (.of .color)

namespace Layout

mutual

/-- The values of a tree in the order in which they are registered; what a
text node holds is not rendered. -/
def values : Layout → List DesignValue
  | ⟨_, modifiers, children, kind⟩ =>
    modifiers.flatMap Modifier.values ++ kind.values ++
      if kind.holdsText then [] else valuesList children

def valuesList : List Layout → List DesignValue
  | [] => []
  | node :: rest => node.values ++ valuesList rest

end

end Layout

end values

section tokens

variable (tokenOf : DesignValue → Option Token)

/-- Equal tokens at all edges are shown once, and so are those at opposite
edges. -/
def Edges.shownTokens (tokens : Edges (Option Token)) : List Token :=
  if tokens.left = tokens.top ∧ tokens.left = tokens.right ∧ tokens.left = tokens.bottom then
    tokens.left.toList
  else if tokens.left = tokens.right ∧ tokens.top = tokens.bottom then
    tokens.left.toList ++ tokens.top.toList
  else tokens.toList.flatMap Option.toList

/-- Equal tokens at all corners are shown once. -/
def Corners.shownTokens (tokens : Corners (Option Token)) : List Token :=
  if tokens.topLeft = tokens.topRight ∧ tokens.topLeft = tokens.bottomRight ∧
      tokens.topLeft = tokens.bottomLeft then
    tokens.topLeft.toList
  else tokens.toList.flatMap Option.toList

def dimensionToken (dimension : Option Dimension) : Option Token :=
  dimension.bind fun dimension => tokenOf (.of .padding dimension)

def shapeTokens : Option Shape → List Token
  | none => []
  | some shape =>
    Corners.shownTokens ⟨tokenOf (.of .shape shape.topLeft), tokenOf (.of .shape shape.topRight),
      tokenOf (.of .shape shape.bottomRight), tokenOf (.of .shape shape.bottomLeft)⟩

/-- The tokens that a modifier shows, in reading order, where each value has
a token.  A border shows its width before its color. -/
def Modifier.shownTokens : Modifier → List Token
  | .background color shape => (tokenOf (.of .color color)).toList ++ shapeTokens tokenOf shape
  | .border color shape width =>
    (dimensionToken tokenOf width).toList ++ (tokenOf (.of .color color)).toList ++
      shapeTokens tokenOf shape
  | .padding edges => Edges.shownTokens (edges.map (dimensionToken tokenOf))
  | .weight _ => []
  | .fillMax _ => []
  | .baseline => []
  | .size _ value => (tokenOf (.of .padding value)).toList

def LayoutKind.shownTokens (kind : LayoutKind) : List Token :=
  kind.values.flatMap fun value => (tokenOf value).toList

namespace Layout

mutual

/-- The tokens that a tree shows, in reading order. -/
def shownTokens : Layout → List Token
  | ⟨_, modifiers, children, kind⟩ =>
    modifiers.flatMap (Modifier.shownTokens tokenOf) ++ kind.shownTokens tokenOf ++
      if kind.holdsText then [] else shownTokensList children

def shownTokensList : List Layout → List Token
  | [] => []
  | node :: rest => node.shownTokens ++ shownTokensList rest

end

end Layout

end tokens

end DesignLayout
