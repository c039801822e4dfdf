/-!
# Token categories

Tokens of different categories never meet: a padding and a corner radius may
share a name and keep values of their own.
-/

namespace DesignLayout

inductive Category where
  | padding
  | shape
  | color
  | text
  deriving DecidableEq, Repr

namespace Category

/-- The order in which sections and entries are listed. -/
def all : List Category := [.padding, .shape, .color, .text]

def name : Category → String
  | .padding => "padding"
  | .shape => "shape"
  | .color => "color"
  | .text => "text"

/-- The category of a name, read exactly. -/
def ofName? (name : String) : Option Category :=
  all.find? fun category => category.name == name

theorem mem_all (category : Category) : category ∈ all := by
  cases category <;> decide

@[simp] theorem ofName?_name (category : Category) :
    ofName? category.name = some category := by
  cases category <;> decide

end Category

end DesignLayout
