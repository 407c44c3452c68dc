import Mustache.Packages.Usual

/-! The program. It looks at the files that its command line names, and at the
directories of the search path, and leaves everything else to the commands. -/

namespace Mustache.Program

open Files CommandLine

/-- A picture of some files, and the places that have been looked at. -/
structure Picture where
  tree : FileTree
  seen : List Place

def placeOf (path : String) : Place := (Path.ofText path).parts

/-- Adds what stands at a path to a picture, with all that is below it and all that is
linked from there. What cannot be looked at is left out. -/
partial def look (picture : Picture) (path : String) : IO Picture := do
  try
    let real ← IO.FS.realPath path
    let place := placeOf real.toString
    if picture.seen.contains place then return picture
    let picture := { picture with seen := place :: picture.seen }
    let tree := picture.tree.makeDirectories place.dropLast
    match (← real.metadata).type with
    | .file =>
      let content := (← IO.FS.readBinFile real).toList
      return { picture with tree := tree.put place (.file content) }
    | .dir =>
      let mut picture := { picture with tree := tree.makeDirectories place }
      for entry in ← real.readDir do
        let child := place ++ [entry.fileName]
        let target := (← IO.FS.realPath entry.path).toString
        if placeOf target != child then
          picture := { picture with tree := picture.tree.put child (.link target) }
        picture ← look picture target
      return picture
    | _ => return picture
  catch _ => return picture

def lookAll (picture : Picture) (paths : List Path) : IO Picture :=
  paths.foldlM (fun picture path => look picture path.text) picture

def settingVariables : List String :=
  [Log.debugVariable] ++ ["SEARCH_PATH", "EXTENSION", "ENCODING", "MAX_SOURCE_BYTES", "MAX_DEPTH",
    "LOGGING__LEVEL", "LOGGING__FORMAT", "LOGGING__FILE"].map (Config.variablePrefix ++ ·)

def environment : IO Config.Environment :=
  settingVariables.filterMapM fun name => do return (← IO.getEnv name).map (name, ·)

def named (i : Invocation) : List Path :=
  i.config.toList ++ match i.command with
    | .render _ (some data) => [data]
    | _ => []

def writeLog (settings : LogSettings) (entries : List Log.Entry) : IO Unit := do
  let text := String.join (entries.map fun e => e.written settings.format .null ++ "\n")
  if settings.file.isEmpty then IO.eprint text
  else
    IO.FS.createDirAll (Path.ofText settings.file).parent.text
    (← IO.FS.Handle.mk settings.file .append).putStr text

def carryOut (i : Invocation) : IO UInt32 := do
  let env ← environment
  let start : FileTree := ⟨[], placeOf (← IO.FS.realPath ".").toString⟩
  let picture ← lookAll ⟨start.makeDirectories start.workingDirectory, []⟩ (named i)
  let settings := (i.settings .usual Config.validate picture.tree env).toOption
  let picture ← lookAll picture ((settings.map Settings.searchPath).getD [])
  match i.run .usual .usual picture.tree env with
  | .error _ =>
    IO.eprintln "Error: the command could not be carried out"
    return 1
  | .ok out =>
    IO.print out.stdout
    if let some logging := settings.map Settings.logging then
      writeLog logging (Log.taken env logging.level.name (out.events.map Log.Entry.ofEvent))
    if let some complaint := out.complaint then IO.eprint complaint.text
    return out.exit.toUInt32

def usage : String :=
  "Usage: stache check [TEMPLATES] [OPTIONS]\n" ++
  "       stache render TEMPLATE [--data FILE] [OPTIONS]\n" ++
  "Options: --config FILE, --search-path DIRECTORY, -I DIRECTORY, --extension SUFFIX\n"

end Mustache.Program

open Mustache CommandLine in
def main (arguments : List String) : IO UInt32 := do
  match parse arguments with
  | none =>
    IO.eprint Program.usage
    return misuseCode.toUInt32
  | some .help =>
    IO.print Program.usage
    return 0
  | some (.run i) => Program.carryOut i
