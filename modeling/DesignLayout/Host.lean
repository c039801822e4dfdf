import DesignLayout.Command

/-!
# Commands on a host

On a host a command reads each file when it is asked for, prints once all is
worked out, and saves after that.
-/

namespace DesignLayout

/-- What a command uses of the machine that it runs on. -/
structure Host (m : Type → Type) where
  read : String → m File
  print : String → m Unit
  /-- Writes a text to the file of a name, and tells whether that succeeded. -/
  write : String → String → m Bool

inductive HostFault where
  | command (fault : CommandFault)
  | writingSettings (name : String)
  deriving DecidableEq, Repr

def HostFault.message : HostFault → String
  | .command fault => fault.message
  | .writingSettings name => "writing settings " ++ name

namespace Host

variable {m : Type → Type} [Monad m] {α : Type} (host : Host m)

def attempt (outcome : Except CommandFault α) : ExceptT HostFault m α :=
  ofExcept (outcome.mapError .command)

/-- What a file holds for one who reads it in a directory. -/
def load (read : Directory → String → Except CommandFault α) (name : String) :
    ExceptT HostFault m α := do
  let file ← host.read name
  attempt (read (fun _ => file) name)

end Host

namespace Command

variable {m : Type → Type} [Monad m] (host : Host m)

/-- Performs a command that reads the file of one name, and prints. -/
def performShown (command : Command) (name : String) : ExceptT HostFault m Unit := do
  let effect ← host.load (fun directory _ => run directory command) name
  host.print effect.printed

def performRender (document settingsFile : String) (flags : RenderFlags) :
    ExceptT HostFault m Unit := do
  let root ← host.load readLayout document
  let stored ← host.load readSettings settingsFile
  let settings := if flags.names then { stored with showsValues := false } else stored
  let (printed, table) ← Host.attempt (printedSource root settings flags.marked)
  host.print printed
  if flags.save then
    let saved := { settings with config := table.configText }
    let written ← host.write settingsFile saved.fileText
    if !written then throw (.writingSettings settingsFile)

def perform : Command → ExceptT HostFault m Unit
  | .convert document => performShown host (.convert document) document
  | .render document settingsFile flags => performRender host document settingsFile flags
  | .countEntries config => performShown host (.countEntries config) config

end Command

end DesignLayout
