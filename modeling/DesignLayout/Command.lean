import DesignLayout.Code.Marked
import DesignLayout.Layout.Json
import DesignLayout.Scene.Json
import DesignLayout.Scene.Layout
import DesignLayout.Settings
import DesignLayout.Source.Statement
import DesignLayout.Token.Config

/-!
# Commands

A command reads files of a directory and gives a text to print and perhaps a
file to save.  A command that fails prints nothing and saves nothing.
-/

namespace DesignLayout

/-- What is found under the name of a file. -/
inductive File where
  | absent
  | unreadable
  | text (content : String)
  deriving DecidableEq, Repr

/-- The files of a directory by name. -/
abbrev Directory := String → File

/-- How rendered code is printed, and whether its tokens are saved. -/
structure RenderFlags where
  names : Bool := false
  marked : Bool := false
  save : Bool := false
  deriving DecidableEq, Repr

inductive Command where
  /-- Prints the layout tree of a document. -/
  | convert (document : String)
  /-- Prints the source text of a document. -/
  | render (document settings : String) (flags : RenderFlags)
  /-- Prints how many entries a config has. -/
  | countEntries (config : String)
  deriving DecidableEq, Repr

inductive CommandFault where
  | readingDocument (name : String)
  | parsingDocument (name : String)
  | noLayout
  | readingSettings (name : String)
  | readingConfig (name : String)
  | config (error : ConfigFault)
  | value (error : Unwritable)
  | marker (error : MarkerFault)
  deriving DecidableEq, Repr

def CommandFault.message : CommandFault → String
  | .readingDocument name => "reading document " ++ name
  | .parsingDocument name => "parsing document " ++ name
  | .noLayout => "Root node is hidden or unsupported"
  | .readingSettings name => "reading settings " ++ name
  | .readingConfig name => "reading config " ++ name
  | .config error => error.message
  | .value error => error.message
  | .marker error => error.message

/-- What a command does: the text that it prints, and the file that it
writes. -/
structure Effect where
  printed : String
  saved : Option (String × String) := none
  deriving DecidableEq, Repr

namespace Command

def readDocument (directory : Directory) (name : String) : Except CommandFault Document :=
  match directory name with
  | .text content =>
    match Document.parse? content with
    | some document => .ok document
    | none => .error (.parsingDocument name)
  | _ => .error (.readingDocument name)

/-- The layout tree of the document in a file. -/
def readLayout (directory : Directory) (name : String) : Except CommandFault Layout := do
  let document ← readDocument directory name
  match document.layout? with
  | some root => return root
  | none => throw .noLayout

/-- The settings in a file; without the file they are as at first. -/
def readSettings (directory : Directory) (name : String) : Except CommandFault Settings :=
  match directory name with
  | .absent => .ok .default
  | .unreadable => .error (.readingSettings name)
  | .text content => .ok (.parse content)

/-- Renders a layout tree by itself: its code, and the tokens of its values. -/
def renderTree (root : Layout) : Except CommandFault (Code × TokenTable) :=
  match (root.render {}).run.run .empty with
  | (.ok code, registry) => .ok (code, registry.table)
  | (.error error, _) => .error (.value error)

/-- The source text of a layout tree under settings, and its table of tokens
with the tokens of the settings laid over it. -/
def printedSource (root : Layout) (settings : Settings) (marked : Bool) :
    Except CommandFault (String × TokenTable) := do
  let (code, rendered) ← renderTree root
  let table := rendered.merge (.ofConfigOrEmpty settings.config) true
  if marked then
    match code.markedText with
    | .ok text => return (text, table)
    | .error error => throw (.marker error)
  else return (code.sourceText table settings.showsValues, table)

/-- One line for each category with the number of its entries. -/
def countLines (sections : ConfigSections) : String :=
  String.join (Category.all.map fun category =>
    category.name ++ ": " ++ toString ((sections.lookup category).elim 0 List.length) ++
      " entries\n")

/-- What a command does in a directory. -/
def run (directory : Directory) : Command → Except CommandFault Effect
  | .convert document => do
    let root ← readLayout directory document
    return { printed := root.toJson.pretty ++ "\n" }
  | .render document settingsFile flags => do
    let root ← readLayout directory document
    let stored ← readSettings directory settingsFile
    let settings := if flags.names then { stored with showsValues := false } else stored
    let (printed, table) ← printedSource root settings flags.marked
    let saved := { settings with config := table.configText }
    return {
      printed
      saved := if flags.save then some (settingsFile, saved.fileText) else none }
  | .countEntries config => do
    match directory config with
    | .text content =>
      match readConfig content with
      | .ok sections => return { printed := countLines sections }
      | .error error => throw (.config error)
    | _ => throw (.readingConfig config)

end Command

/-- The directory after a command. -/
def Directory.after (directory : Directory) (result : Except CommandFault Effect) : Directory :=
  match result with
  | .ok ⟨_, some (name, content)⟩ =>
    fun other => if other = name then .text content else directory other
  | _ => directory

end DesignLayout
