import DesignLayout.Host

/-!
# Command line
-/

namespace DesignLayout.CommandLine

/-- Where settings are kept if no other file is named. -/
def settingsFile : String := "kompose.json"

def usage : String :=
  "usage: convert DOCUMENT\n" ++
  "       render DOCUMENT [--settings FILE] [--names] [--marked] [--save]\n" ++
  "       check-config CONFIG"

/-- Reads the arguments of a render command. -/
def parseRender? (document : Option String) (settings : Option String) (flags : RenderFlags) :
    List String → Option Command
  | [] => document.map fun document => .render document (settings.getD settingsFile) flags
  | "--names" :: rest =>
    if flags.names then none else parseRender? document settings { flags with names := true } rest
  | "--marked" :: rest =>
    if flags.marked then none
    else parseRender? document settings { flags with marked := true } rest
  | "--save" :: rest =>
    if flags.save then none else parseRender? document settings { flags with save := true } rest
  | "--settings" :: file :: rest =>
    if settings.isSome then none else parseRender? document (some file) flags rest
  | "-s" :: file :: rest =>
    if settings.isSome then none else parseRender? document (some file) flags rest
  | argument :: rest =>
    if document.isSome ∨ argument.startsWith "-" then none
    else parseRender? (some argument) settings flags rest

def parse? : List String → Option Command
  | ["convert", document] => some (.convert document)
  | ["check-config", config] => some (.countEntries config)
  | "render" :: arguments => parseRender? none none {} arguments
  | _ => none

def readFile (name : String) : IO File := do
  try
    return .text (← IO.FS.readFile name)
  catch
    | .noFileOrDirectory .. => return .absent
    | _ => return .unreadable

def writeFile (name content : String) : IO Bool := do
  try
    IO.FS.writeFile name content
    return true
  catch _ => return false

def console : Host IO where
  read := readFile
  print := IO.print
  write := writeFile

def execute (command : Command) : IO UInt32 := do
  match ← (command.perform console).run with
  | .ok () => return 0
  | .error fault =>
    IO.eprintln ("Error: " ++ fault.message)
    return 1

end DesignLayout.CommandLine

open DesignLayout.CommandLine in
def main (arguments : List String) : IO UInt32 := do
  match parse? arguments with
  | some command => execute command
  | none =>
    IO.eprintln usage
    return 2
