import DesignLayout.Color
import DesignLayout.Font

/-!
# Design properties

A property of a design is a value of its own or a link to a named token.  The
name is the token: two links with one name lead to the same token, whatever
their ids and the values they last had.
-/

namespace DesignLayout

/-- A value that a design can hold. -/
inductive Primitive where
  | number (value : Float)
  | text (value : String)
  | color (value : Color)
  | font (value : Typography)
  deriving DecidableEq, Repr

/-- A zero and an empty text stand for nothing to show; a color or a font
never does. -/
def Primitive.isBlank : Primitive → Bool
  | .number value => value == 0.0
  | .text value => value.isEmpty
  | .color _ => false
  | .font _ => false

/-- The types whose values a design can hold. -/
class ToPrimitive (α : Type) where
  toPrimitive : α → Primitive

export ToPrimitive (toPrimitive)

instance : ToPrimitive Float := ⟨.number⟩
instance : ToPrimitive String := ⟨.text⟩
instance : ToPrimitive Color := ⟨.color⟩
instance : ToPrimitive Typography := ⟨.font⟩
instance : ToPrimitive Primitive := ⟨id⟩

/-- A named token as a design refers to it, with the value it last had. -/
structure TokenLink (α : Type) where
  id : String
  name : String
  value : α
  deriving DecidableEq, Repr

/-- A value of its own, or a link to a token. -/
inductive Property (α : Type) where
  | linked (link : TokenLink α)
  | own (value : α)
  deriving DecidableEq, Repr

/-- A length that no screen density changes. -/
abbrev Dimension := Property Float

namespace Property

variable {α β : Type}

/-- The value, whether its own or the one the token last had. -/
def value : Property α → α
  | .linked link => link.value
  | .own value => value

def link? : Property α → Option (TokenLink α)
  | .linked link => some link
  | .own _ => none

/-- Changes the value and keeps the token. -/
def map (change : α → β) : Property α → Property β
  | .linked link => .linked ⟨link.id, link.name, change link.value⟩
  | .own value => .own (change value)

def toPrimitive [ToPrimitive α] (property : Property α) : Primitive :=
  DesignLayout.toPrimitive property.value

/-- A blank value of its own shows nothing; a link always shows. -/
def isBlank [ToPrimitive α] : Property α → Bool
  | .linked _ => false
  | .own value => (DesignLayout.toPrimitive value).isBlank

@[simp] theorem value_linked (link : TokenLink α) :
    (Property.linked link).value = link.value := rfl

@[simp] theorem value_own (value : α) : (Property.own value).value = value := rfl

@[simp] theorem isBlank_linked [ToPrimitive α] (link : TokenLink α) :
    (Property.linked link).isBlank = false := rfl

end Property

end DesignLayout
