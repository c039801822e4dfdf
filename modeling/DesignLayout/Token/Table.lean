import DesignLayout.OrderedMap
import DesignLayout.Token.Basic

/-!
# Token tables

A table keeps the tokens of each category under their ids, in the order in
which they came.  Tables are compared by content: the value under each id,
whatever the order and the names.
-/

namespace DesignLayout

/-- The tokens of one category. -/
abbrev Shelf := OrderedMap Int32 Token

structure TokenTable where
  padding : Shelf := .empty
  shape : Shelf := .empty
  color : Shelf := .empty
  text : Shelf := .empty
  deriving DecidableEq, Repr

namespace TokenTable

def empty : TokenTable := {}

instance : Inhabited TokenTable := ⟨empty⟩

def shelf (table : TokenTable) : Category → Shelf
  | .padding => table.padding
  | .shape => table.shape
  | .color => table.color
  | .text => table.text

def modifyShelf (table : TokenTable) (category : Category) (change : Shelf → Shelf) :
    TokenTable :=
  match category with
  | .padding => { table with padding := change table.padding }
  | .shape => { table with shape := change table.shape }
  | .color => { table with color := change table.color }
  | .text => { table with text := change table.text }

def get? (table : TokenTable) (category : Category) (id : Int32) : Option Token :=
  (table.shelf category).get? id

/-- The tokens of one category in their order. -/
def tokens (table : TokenTable) (category : Category) : List Token :=
  (table.shelf category).values

/-- All tokens, category by category. -/
def toList (table : TokenTable) : List Token :=
  Category.all.flatMap table.tokens

def size (table : TokenTable) : Nat :=
  table.toList.length

def isEmpty (table : TokenTable) : Bool :=
  Category.all.all fun category => (table.shelf category).isEmpty

/-- Stores a token in its own category under its own id. -/
def insert (table : TokenTable) (token : Token) : TokenTable :=
  table.modifyShelf token.category fun shelf => shelf.insert token.id token

/-- Stores a token unless its id is taken in its category. -/
def insertNew (table : TokenTable) (token : Token) : TokenTable :=
  table.modifyShelf token.category fun shelf => shelf.insertNew token.id token

def ofList (tokens : List Token) : TokenTable :=
  tokens.foldl insert empty

/-- Lays the tokens of `other` over a table, or under it. -/
def merge (table other : TokenTable) (overwrite : Bool) : TokenTable :=
  other.toList.foldl (if overwrite then insert else insertNew) table

/-- Gives a token another value, if the table has the token. -/
def revalue (table : TokenTable) (category : Category) (id : Int32) (value : String) :
    TokenTable :=
  table.modifyShelf category fun shelf =>
    shelf.modify id fun token => { token with value }

/-- Whether every id of `shelf` has the same value in `other`. -/
def shelfAgrees (shelf other : Shelf) : Bool :=
  shelf.entries.all fun entry =>
    match other.get? entry.1 with
    | some token => token.value == entry.2.value
    | none => false

/-- Whether two tables have the same ids with the same values. -/
def agrees (table other : TokenTable) : Bool :=
  Category.all.all fun category =>
    (table.shelf category).size == (other.shelf category).size &&
      shelfAgrees (table.shelf category) (other.shelf category)

instance : BEq TokenTable := ⟨agrees⟩

@[simp] theorem shelf_modifyShelf_self (table : TokenTable) (category : Category)
    (change : Shelf → Shelf) :
    (table.modifyShelf category change).shelf category = change (table.shelf category) := by
  cases category <;> rfl

theorem shelf_modifyShelf_of_ne (table : TokenTable) {category other : Category}
    (change : Shelf → Shelf) (different : other ≠ category) :
    (table.modifyShelf category change).shelf other = table.shelf other := by
  cases category <;> cases other <;> first | rfl | exact absurd rfl different

@[simp] theorem get?_empty (category : Category) (id : Int32) :
    empty.get? category id = none := by
  cases category <;> rfl

end TokenTable

end DesignLayout
