import RouteContract.CommandLine.Run
import RouteContract.Json.Writer
import RouteContract.Storage.File

/-!
# The program

The program reads the files that its arguments and settings name, runs on what it has read, writes
the databases that have changed, and prints the answer. A source is a file with the document of a
module.
-/

namespace RouteContract.CommandLine

set_option autoImplicit false

open RouteContract Sources Storage

/-! ## What files hold -/

/-- The texts that may name files: arguments, and the values behind their equals signs. -/
def candidates (arguments : List String) (settings : Option Settings) : List String :=
  arguments ++ arguments.filterMap (fun a => (Arguments.splitOption a).2) ++
    (settings.elim [] fun s => s.store.text :: s.sources)

/-- What a file with a text is as a source. The document of a module has classes. -/
def contentOf (text : String) : FileContent :=
  match Json.read text.toList with
  | .ok d =>
      match d.member? "classes", ModuleDocument.read d with
      | some _, .ok m => .module m
      | _, _ => .other
  | .error _ => .other

/-- What a file with a text is on the disk, if it is a database. -/
def entryOf? (file : String × String) : Option (Place × Entry) := do
  let d ← (Json.read file.2.toList).toOption
  return (.ofText file.1, .database (← Database.ofJson? d))

/-- The databases that one disk has and another one has not. -/
def changes (before now : Disk) : List (Place × Database) :=
  now.entries.filterMap fun e =>
    match e.2 with
    | .database content => if before.entry? e.1 == some e.2 then none else some (e.1, content)
    | .folder => none

/-! ## Reading and writing -/

/-- The text of a file, if there is one. -/
def readText? (name : String) : IO (Option String) := do
  try return some (← IO.FS.readFile name) catch _ => return none

/-- Whether there is a folder of a name. -/
def isFolder (name : String) : IO Bool := do
  try
    let _ ← IO.FS.realPath (name ++ "/.")
    return true
  catch _ => return false

/-- The variables of the environment that hold settings. -/
def readEnvironment (names : List String) : IO (Table String) := do
  let found ← names.mapM fun name => do
    return (← IO.getEnv name).map fun value => (name, value)
  return found.filterMap id

/-- The names of the variables that hold settings. -/
def variableNames : List String :=
  Settings.names.map fun name => (Settings.outerName name).toUpper

/-- The installation that a list of arguments is about. -/
def readInstallation (arguments : List String) : IO Installation := do
  let environment ← readEnvironment variableNames
  let assignments := (← readText? ".env").getD ""
  let settings := (Settings.read [] environment assignments).toOption
  let names := candidates arguments settings
  let texts := (← names.mapM fun name => do return (← readText? name).map (name, ·)).filterMap id
  let ways := names.flatMap fun name => (Place.ofText name).way
  let folders ← ways.filterM fun p => isFolder p.text
  return {
    environment, assignments, texts,
    library := ⟨texts.map fun file => (file.1, contentOf file.2), [], "module"⟩,
    disk := ⟨texts.filterMap entryOf? ++ folders.map fun p => (p, .folder)⟩ }

/-- Write a database to its file. -/
def writeDatabase (p : Place) (content : Database) : IO Unit := do
  IO.FS.createDirAll p.folder.text
  IO.FS.writeFile p.text content.toJson.write

/-- How the program is called. -/
def usage : String :=
  "usage: [--log-level LEVEL] generate [SOURCE...] [--db FILE]\n" ++
  "       [--log-level LEVEL] routes list [--db FILE] [--method METHOD] [--format table|json]\n" ++
  "       [--log-level LEVEL] find METHOD PATH [--db FILE]\n" ++
  "       [--log-level LEVEL] dump-schema [--db FILE] [--template FILE]\n" ++
  "       [--log-level LEVEL] ping\n"

/-- Print an answer, and tell the status to end with. -/
def report : Result Answer → IO UInt32
  | .ok .help => do IO.print usage; return 0
  | .ok (.printed text) => do IO.print text; return 0
  | .ok (.written count) => do IO.println s!"Routes written: {count}"; return 0
  | .ok (.listed count) => do IO.println s!"Routes: {count}"; return 0
  | .error .unclear => do IO.eprint usage; return 2
  | .error .reported => do IO.eprintln "error: no such route, source or contract"; return 1
  | .error (.failed _) => do IO.eprintln "error: the command has failed"; return 1

end RouteContract.CommandLine

/-- Run the program. -/
def main (arguments : List String) : IO UInt32 := do
  let i ← RouteContract.CommandLine.readInstallation arguments
  let (answer, disk) := RouteContract.CommandLine.run i arguments
  (RouteContract.CommandLine.changes i.disk disk).forM fun (p, content) =>
    RouteContract.CommandLine.writeDatabase p content
  RouteContract.CommandLine.report answer
