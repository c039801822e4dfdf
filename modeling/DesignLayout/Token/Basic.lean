import DesignLayout.Text.Units
import DesignLayout.Token.Category

/-!
# Design tokens

A token is a named design value with the source text that stands for it.  Its
id is a 32-bit hash of the name, the same that the host computes.
-/

namespace DesignLayout

/-- The hash of a name: over its sixteen-bit units from left to right, each
step multiplies by 31, adds the unit and wraps. -/
def tokenId (name : String) : Int32 :=
  (Text.units name).foldl (fun hash unit => hash * 31 + Int32.ofNat unit) 0

/-- A token of a category: its name, and the source text it stands for. -/
structure Token where
  id : Int32
  name : String
  value : String
  category : Category
  deriving DecidableEq, Repr

namespace Token

/-- The token whose id is that of its name. -/
def named (category : Category) (name value : String) : Token :=
  ⟨tokenId name, name, value, category⟩

/-- Whether the id is that of the name. -/
def IdOfName (token : Token) : Prop :=
  token.id = tokenId token.name

instance (token : Token) : Decidable token.IdOfName :=
  inferInstanceAs (Decidable (token.id = tokenId token.name))

end Token

end DesignLayout
