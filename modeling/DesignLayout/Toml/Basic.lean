import DesignLayout.OrderedMap

/-!
# Config tables

The contents of a config text: keys with strings, with tables, with arrays, and
with plain values, of which it only matters that they are no strings.  How a table came
about decides who may still add to it.
-/

namespace DesignLayout

namespace Toml

/-- How a table came about. -/
inductive Origin where
  /-- Defined under a header of its own. -/
  | header
  /-- Named in a longer header only; a header of its own may follow. -/
  | implied
  /-- Made by a dotted key. -/
  | dotted
  /-- Written as a value; nothing adds to it. -/
  | inline
  deriving DecidableEq, Repr

end Toml

inductive Toml where
  | string (value : String)
  | plain
  | array (items : List Toml)
  | table (origin : Toml.Origin) (entries : List (String × Toml))
  /-- Tables under headers in double brackets, in their order. -/
  | tables (elements : List (List (String × Toml)))
  deriving Repr

namespace Toml

/-- The contents of a table. -/
abbrev Entries := List (String × Toml)

namespace Entries

def find? (key : String) (entries : Entries) : Option Toml :=
  OrderedMap.lookup key entries

/-- Adds an entry with a new key. -/
def add? (key : String) (value : Toml) (entries : Entries) : Option Entries :=
  if (entries.find? key).isSome then none else some (entries ++ [(key, value)])

/-- Replaces the value of a key, or adds the key. -/
def put (key : String) (value : Toml) (entries : Entries) : Entries :=
  OrderedMap.put key value entries

def erase (key : String) (entries : Entries) : Entries :=
  entries.filter fun entry => entry.1 != key

/-- Changes the last of several tables. -/
def changeLast? (change : Entries → Option Entries) :
    List Entries → Option (List Entries)
  | [] => none
  | [last] => (change last).map fun changed => [changed]
  | first :: rest => (changeLast? change rest).map fun changed => first :: changed

/-- Changes the table that the keys of a header lead to.  Tables on the way
that are not there are implied. -/
def descend? (change : Entries → Option Entries) : List String → Entries → Option Entries
  | [], entries => change entries
  | key :: path, entries =>
    match entries.find? key with
    | none => do
      let changed ← descend? change path []
      return entries.put key (.table .implied changed)
    | some (.table origin inner) =>
      if origin = .inline then none
      else do
        let changed ← descend? change path inner
        return entries.put key (.table origin changed)
    | some (.tables elements) => do
      let changed ← changeLast? (descend? change path) elements
      return entries.put key (.tables changed)
    | _ => none

/-- Adds the value of a dotted key.  The tables on the way must not have a
header of their own, and the one that takes the value is made by dotted keys
only. -/
def addDotted? (key : String) (value : Toml) (isDotted : Bool) :
    List String → Entries → Option Entries
  | [], entries => if isDotted then entries.add? key value else none
  | step :: path, entries =>
    match entries.find? step with
    | none => do
      let changed ← addDotted? key value true path []
      return entries.put step (.table .dotted changed)
    | some (.table origin inner) =>
      if origin = .implied ∨ origin = .dotted then do
        let changed ← addDotted? key value (origin == .dotted) path inner
        return entries.put step (.table origin changed)
      else none
    | some (.tables elements) => do
      let changed ← changeLast? (addDotted? key value false path) elements
      return entries.put step (.tables changed)
    | _ => none

/-- Adds the value of a key that may be dotted. -/
def addKey? (path : List String) (value : Toml) (entries : Entries) : Option Entries :=
  match path.getLast? with
  | none => none
  | some key => addDotted? key value true path.dropLast entries

end Entries

/-- The table that entries are being added to: where its header puts it, and
whether the header adds a table to several. -/
structure Current where
  path : List String
  isElement : Bool
  entries : Entries
  deriving Repr

/-- The tables that are complete, and the one that is not. -/
structure State where
  root : Entries
  current : Current
  deriving Repr

namespace State

def start : State := ⟨[], ⟨[], false, []⟩⟩

/-- Adds a key and its value to the current table. -/
def addKey? (state : State) (path : List String) (value : Toml) : Option State := do
  let entries ← state.current.entries.addKey? path value
  return { state with current := { state.current with entries } }

/-- Puts the current table in its place. -/
def complete? (state : State) : Option Entries :=
  match state.current.path.getLast? with
  | none => some state.current.entries
  | some key =>
    Entries.descend? (fun parent =>
      if state.current.isElement then
        match parent.find? key with
        | none => some (parent.put key (.tables [state.current.entries]))
        | some (.tables elements) =>
          some (parent.put key (.tables (elements ++ [state.current.entries])))
        | _ => none
      else parent.add? key (.table .header state.current.entries))
      state.current.path.dropLast state.root

/-- What a table has before its header: nothing, or what longer headers put
into it.  Any other table of the name is defined already. -/
def implied? (key : String) (parent : Entries) : Option Entries :=
  match parent.find? key with
  | none => some []
  | some (.table .implied entries) => some entries
  | _ => none

/-- Looks a table up by the keys of a header. -/
def parentOf? (path : List String) (root : Entries) : Option Entries :=
  match path with
  | [] => some root
  | key :: path =>
    match root.find? key with
    | none => some []
    | some (.table origin inner) => if origin = .inline then none else parentOf? path inner
    | some (.tables elements) => parentOf? path (elements.getLast?.getD [])
    | _ => none

/-- Begins the table of a header. -/
def beginTable? (state : State) (path : List String) : Option State := do
  let root ← state.complete?
  let key ← path.getLast?
  let entries ← implied? key (← parentOf? path.dropLast root)
  let root ← Entries.descend? (fun parent => some (parent.erase key)) path.dropLast root
  return ⟨root, ⟨path, false, entries⟩⟩

/-- Begins another of several tables. -/
def beginElement? (state : State) (path : List String) : Option State := do
  let root ← state.complete?
  let key ← path.getLast?
  let root ← Entries.descend? (fun parent =>
    match parent.find? key with
    | none => some (parent.put key (.tables []))
    | some (.tables _) => some parent
    | _ => none) path.dropLast root
  return ⟨root, ⟨path, true, []⟩⟩

end State

end Toml

end DesignLayout
