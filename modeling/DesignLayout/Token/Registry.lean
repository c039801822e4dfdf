import DesignLayout.Property
import DesignLayout.Token.Table

/-!
# Token registries

While source text is written, every design value that it shows is registered
as a token.  The first value registered under a name stays: later uses of the
name give the token that is already there.
-/

namespace DesignLayout

/-- The tokens registered so far. -/
structure Registry where
  table : TokenTable
  deriving DecidableEq, Repr

/-- A computation that registers tokens and may fail.  What was registered
before a failure stays registered. -/
abbrev Registering (ε : Type) := ExceptT ε (StateM Registry)

namespace Registry

def empty : Registry := ⟨.empty⟩

instance : Inhabited Registry := ⟨empty⟩

def get? (registry : Registry) (category : Category) (id : Int32) : Option Token :=
  registry.table.get? category id

def merge (registry : Registry) (table : TokenTable) (overwrite : Bool) : Registry :=
  ⟨registry.table.merge table overwrite⟩

def size (registry : Registry) : Nat :=
  registry.table.size

def isEmpty (registry : Registry) : Bool :=
  registry.size == 0

/-- Stores a token unless its id is taken, and gives the token under the id. -/
def store (registry : Registry) (token : Token) : Token × Registry :=
  match registry.get? token.category token.id with
  | some present => (present, registry)
  | none => (token, ⟨registry.table.insert token⟩)

end Registry

/-- A computation that registers nothing. -/
def Registering.ofExcept {ε α : Type} (result : Except ε α) : Registering ε α :=
  ExceptT.mk (pure result)

/-- The token that a property asks for, given the text of its value: a
link goes by its name, a value of its own by its text. -/
def Property.token {α : Type} (property : Property α) (category : Category) (text : String) :
    Token :=
  match property with
  | .linked link => Token.named category link.name text
  | .own _ => Token.named category text text

/-- Registers the value of a property.  A missing property and a blank value
of its own give no token, and their text is not asked for. -/
def register {ε α : Type} [ToPrimitive α] (format : Primitive → Except ε String)
    (category : Category) : Option (Property α) → Registering ε (Option Token)
  | none => pure none
  | some property =>
    if property.isBlank then pure none
    else do
      let text ← Registering.ofExcept (format property.toPrimitive)
      let token ← modifyGet fun registry => registry.store (property.token category text)
      return some token

end DesignLayout
