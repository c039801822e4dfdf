/-!
# Maps that keep the order of insertion

A new key goes to the end.  A key that is present keeps its place when its
value is replaced.
-/

namespace DesignLayout

/-- Pairs of a key and its value, in the order in which the keys came. -/
structure OrderedMap (κ ν : Type) where
  entries : List (κ × ν)
  deriving DecidableEq, Repr

namespace OrderedMap

variable {κ ν : Type}

def empty : OrderedMap κ ν := ⟨[]⟩

instance : Inhabited (OrderedMap κ ν) := ⟨empty⟩

def keys (map : OrderedMap κ ν) : List κ :=
  map.entries.map Prod.fst

def values (map : OrderedMap κ ν) : List ν :=
  map.entries.map Prod.snd

def size (map : OrderedMap κ ν) : Nat :=
  map.entries.length

def isEmpty (map : OrderedMap κ ν) : Bool :=
  map.entries.isEmpty

variable [DecidableEq κ]

def lookup (key : κ) : List (κ × ν) → Option ν
  | [] => none
  | (other, value) :: rest => if other = key then some value else lookup key rest

def get? (map : OrderedMap κ ν) (key : κ) : Option ν :=
  lookup key map.entries

def contains (map : OrderedMap κ ν) (key : κ) : Bool :=
  (map.get? key).isSome

/-- Replaces the value at a key, or adds the pair at the end. -/
def put (key : κ) (value : ν) : List (κ × ν) → List (κ × ν)
  | [] => [(key, value)]
  | (other, previous) :: rest =>
    if other = key then (other, value) :: rest
    else (other, previous) :: put key value rest

def insert (map : OrderedMap κ ν) (key : κ) (value : ν) : OrderedMap κ ν :=
  ⟨put key value map.entries⟩

/-- Keeps the value that a key already has. -/
def insertNew (map : OrderedMap κ ν) (key : κ) (value : ν) : OrderedMap κ ν :=
  if map.contains key then map else map.insert key value

/-- Changes the value at a key, if the key is present. -/
def alter (key : κ) (change : ν → ν) : List (κ × ν) → List (κ × ν)
  | [] => []
  | (other, value) :: rest =>
    if other = key then (other, change value) :: rest
    else (other, value) :: alter key change rest

def modify (map : OrderedMap κ ν) (key : κ) (change : ν → ν) : OrderedMap κ ν :=
  ⟨alter key change map.entries⟩

def ofList (pairs : List (κ × ν)) : OrderedMap κ ν :=
  pairs.foldl (fun map pair => map.insert pair.1 pair.2) empty

attribute [local simp] lookup put

@[simp] theorem get?_empty (key : κ) : (empty : OrderedMap κ ν).get? key = none := rfl

@[simp] theorem get?_insert_self (map : OrderedMap κ ν) (key : κ) (value : ν) :
    (map.insert key value).get? key = some value := by
  unfold get? insert
  induction map.entries with
  | nil => simp
  | cons entry rest ih =>
      rcases entry with ⟨other, previous⟩
      by_cases equal : other = key
      · simp [equal]
      · simp [equal, ih]

theorem get?_insert_of_ne (map : OrderedMap κ ν) {key other : κ} (value : ν)
    (different : other ≠ key) :
    (map.insert key value).get? other = map.get? other := by
  unfold get? insert
  induction map.entries with
  | nil => simp [different.symm]
  | cons entry rest ih =>
      rcases entry with ⟨head, previous⟩
      by_cases equal : head = key
      · subst head
        simp [different.symm]
      · by_cases found : head = other
        · simp [found, different]
        · simp [equal, found, ih]

end OrderedMap

end DesignLayout
