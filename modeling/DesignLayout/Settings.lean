import DesignLayout.Json.Parser
import DesignLayout.Json.Printer
import DesignLayout.Json.Record

/-!
# Settings

What is kept between runs: the size of the host's window, the token config,
and whether source text shows the values of tokens or their names.
-/

namespace DesignLayout

open Json (requiredField)

structure Window where
  width : UInt32
  height : UInt32
  deriving DecidableEq, Repr

structure Settings where
  window : Window
  config : String
  showsValues : Bool
  deriving DecidableEq, Repr

namespace Window

def toJson (size : Window) : Json :=
  .obj [("w", .int size.width.toNat), ("h", .int size.height.toNat)]

def ofJson? : Json → Option Window :=
  Json.record? do
    let width ← requiredField "w" Json.uint32?
    let height ← requiredField "h" Json.uint32?
    return ⟨width, height⟩

end Window

namespace Settings

def default : Settings :=
  ⟨⟨800, 600⟩, "", true⟩

instance : Inhabited Settings := ⟨default⟩

def toJson (settings : Settings) : Json :=
  .obj [("pluginWindowSize", settings.window.toJson),
    ("mappingConfig", .str settings.config),
    ("showMappedValues", .bool settings.showsValues)]

def ofJson? : Json → Option Settings :=
  Json.record? do
    let window ← requiredField "pluginWindowSize" Window.ofJson?
    let config ← requiredField "mappingConfig" Json.string?
    let showsValues ← requiredField "showMappedValues" Json.bool?
    return ⟨window, config, showsValues⟩

/-- The record in a text, if it is complete. -/
def parse? (text : String) : Option Settings := do
  ofJson? (← Json.parse? text)

/-- The settings of a text.  A text without a complete record counts for
nothing. -/
def parse (text : String) : Settings :=
  (parse? text).getD default

/-- The text that a settings file holds. -/
def fileText (settings : Settings) : String :=
  settings.toJson.pretty

end Settings

end DesignLayout
