import DesignLayout.Token.Table
import DesignLayout.Toml.Reader
import DesignLayout.Toml.Writer

/-!
# Token configs

A config has a section for each category, with the names of tokens as keys and
the source text that they stand for as values.
-/

namespace DesignLayout

/-- What keeps a text from being a config. -/
inductive ConfigFault where
  | malformed
  | unknownSection (key : String)
  | notATable (key : String)
  | notAString (key : String)
  deriving DecidableEq, Repr

/-- What is said to the user.  Where a malformed text goes wrong is not said. -/
def ConfigFault.message : ConfigFault → String
  | .malformed => "Invalid config syntax:"
  | .unknownSection key => "Unknown key in config: " ++ key
  | .notATable key => "Config section [" ++ key ++ "] must be a table of entries"
  | .notAString key => "Config key \"" ++ key ++ "\" has an unsupported value"

/-- The sections of a config in its order, and the entries of each. -/
abbrev ConfigSections := List (Category × List (String × String))

namespace Config

/-- The entry of a key, which must have a string. -/
def entry (pair : String × Toml) : Except ConfigFault (String × String) :=
  match pair.2 with
  | .string value => .ok (pair.1, value)
  | _ => .error (.notAString pair.1)

/-- The section of a key, which must name a category and have a table. -/
def sectionOf (pair : String × Toml) : Except ConfigFault (Category × List (String × String)) :=
  match Category.ofName? pair.1 with
  | none => .error (.unknownSection pair.1)
  | some category =>
    match pair.2 with
    | .table _ entries => do return (category, ← entries.mapM entry)
    | _ => .error (.notATable pair.1)

/-- Checks the contents of a config; the first fault in its order counts. -/
def sections (contents : Toml.Entries) : Except ConfigFault ConfigSections :=
  contents.mapM sectionOf

end Config

/-- Reads the sections of a config text. -/
def readConfig (text : String) : Except ConfigFault ConfigSections :=
  match Toml.read? text with
  | none => .error .malformed
  | some contents => Config.sections contents

/-- The tokens of checked sections. -/
def ConfigSections.tokens (sections : ConfigSections) : List Token :=
  sections.flatMap fun entries =>
    entries.2.map fun entry => Token.named entries.1 entry.1 entry.2

namespace TokenTable

/-- The names and values of a category.  Of a name that comes several times
the last value stands at the first place. -/
def namedValues (table : TokenTable) (category : Category) : List (String × String) :=
  (OrderedMap.ofList
    ((table.tokens category).map fun token => (token.name, token.value))).entries

def configText (table : TokenTable) : String :=
  String.ofList (Toml.documentText
    (Category.all.map fun category => (category.name, table.namedValues category)))

def ofConfig (text : String) : Except ConfigFault TokenTable :=
  (readConfig text).map fun sections => ofList sections.tokens

/-- The table of a config text, or an empty one where the text is no config. -/
def ofConfigOrEmpty (text : String) : TokenTable :=
  match ofConfig text with
  | .ok table => table
  | .error _ => empty

end TokenTable

end DesignLayout
