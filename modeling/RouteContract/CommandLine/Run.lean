import RouteContract.CommandLine.Arguments
import RouteContract.OpenApi.Assembler
import RouteContract.Registry.Basic
import RouteContract.Settings.Basic
import RouteContract.Sources.Library

/-!
# Running commands

A command acts on an installation: its environment, its files, the sources that can be found, and
the disk with its stores. Settings are read only where an argument leaves something open. Errors of
contracts and of finding sources are reported; any other error is a failure of the command.
-/

namespace RouteContract.CommandLine

set_option autoImplicit false

open RouteContract Sources Storage

/-- What commands act on. -/
structure Installation where
  environment : Table String
  /-- The text of the file of assignments. -/
  assignments : String
  /-- The texts of files. -/
  texts : Table String
  library : Library
  disk : Disk

/-- Why a command fails. -/
inductive Failure where
  | settings (issues : List Issue)
  | unknownLevel
  | registry (e : Registry.RegistryError SourceError)
  /-- There is no file of that name. -/
  | missingFile (name : String)
  /-- A file is no JSON text, or holds an integer with too many digits. -/
  | unreadable (e : Json.ReadError)
  | assembly (e : OpenApi.AssemblyError Empty)
  | hugeCount

/-- How a command ends without an answer. -/
inductive Stop where
  /-- The arguments make no sense. -/
  | unclear
  /-- An error is reported. -/
  | reported
  | failed (e : Failure)

/-- The answer of a command. -/
inductive Answer where
  | help
  | printed (text : String)
  /-- So many routes were written. -/
  | written (count : Nat)
  /-- So many routes were listed as a table. -/
  | listed (count : Nat)

/-- The answer of a command, and the disk after it. -/
abbrev Result (α : Type) := Except Stop α

/-! ## Settings -/

/-- The settings of an installation. -/
def Installation.settings (i : Installation) : Result Settings :=
  (Settings.read [] i.environment i.assignments).mapError fun issues => .failed (.settings issues)

/-- The names of the levels of messages. -/
def levelNames : List String :=
  ["CRITICAL", "FATAL", "ERROR", "WARN", "WARNING", "INFO", "DEBUG", "NOTSET"]

/-- A letter in upper case, as far as it is one of the alphabet then. -/
def upperLetter (c : Char) : Char :=
  if c = 'ı' then 'I' else if c = 'ſ' then 'S' else c.toUpper

/-- Whether there is a level of a name. -/
def isLevel (name : String) : Bool :=
  levelNames.contains (String.ofList (name.toList.map upperLetter))

/-- Set the level of messages: the one that is given, or the one of the settings. -/
def setLevel (i : Installation) (given : Option String) : Result PUnit := do
  let level ← match given.filter fun s => !s.isEmpty with
    | some level => pure level
    | none => do pure (← i.settings).logLevel
  if isLevel level then return ⟨⟩ else throw (.failed .unknownLevel)

/-- The place of the store: the one that is given, or the one of the settings. -/
def storePlace (i : Installation) (given : Option String) : Result Place :=
  match given with
  | some text => .ok (.ofText text)
  | none => do return (← i.settings).store

/-! ## Registries -/

/-- Whether an error of a registry is reported. -/
def isReported : Registry.RegistryError SourceError → Bool
  | .notLoaded => true
  | .noStore => true
  | .generation (.source (.missingModule _)) => true
  | .generation (.source (.noModule _)) => true
  | .generation (.action (.type (.inconvertible _ _ _))) => true
  | .store (.noSnapshot _) => true
  | _ => false

/-- How an error of a registry ends a command. -/
def Stop.ofRegistry (e : Registry.RegistryError SourceError) : Stop :=
  if isReported e then .reported else .failed (.registry e)

/-- Run an operation of a registry that begins without a snapshot; the disk is as the operation
leaves it. -/
def runRegistry {α : Type} (i : Installation) (op : Registry.Operation PUnit SourceError α) :
    Result α × Disk :=
  let (result, s) := op.run ⟨none, i.disk, ⟨⟩⟩
  (result.mapError Stop.ofRegistry, s.disk)

/-- A registry with a store. -/
def configAt (p : Place) : Registry.Config := ⟨some p, [], false, false⟩

/-! ## Commands -/

/-- Generate a snapshot and store it. -/
def generateAt (i : Installation) (p : Place) (sources : List String) : Result Answer × Disk :=
  runRegistry i do
    let s ← Registry.generateFrom i.library.introspector sources
    return .written (← (configAt p).persist (some s))

/-- A stored route as a list shows it. -/
def rowOutline (row : Row) : Json :=
  let name := ((Json.read row.action.toList).toOption.bind fun d => d.member? "name").getD .null
  .obj
    [("method", .str row.method), ("path", .str row.path), ("pattern", .str row.pattern),
      ("action", name)]

/-- List the stored routes. -/
def listAt (i : Installation) (p : Place) (method : Option String) (format : String) :
    Result Answer × Disk :=
  if i.disk.hasDatabase p then
    runRegistry i do
      let rows ← Registry.onDisk fun d => listRows d p method
      return if Text.Unicode.lowercase format = "json" then
        .printed ((Json.arr (rows.map rowOutline)).writeIndented ++ "\n")
      else .listed rows.length
  else (.error .reported, i.disk)

/-- The parameters of a match as a line, if there are any. -/
def parameterLine (params : Table (Option String)) : String :=
  if params.isEmpty then ""
  else (Json.obj (params.map fun e => (e.1, e.2.elim .null .str))).write ++ "\n"

/-- The answer of a lookup. -/
def findIn (s : Snapshot) (method path : String) : Result Answer :=
  match (Route.lookup s method path).result with
  | .error _ => .error (.failed .hugeCount)
  | .ok none => .error .reported
  | .ok (some found) =>
      .ok (.printed (found.entry.action.name ++ "\n" ++ parameterLine found.params))

/-- Load the stored snapshot and go on with it. -/
def withSnapshot (i : Installation) (p : Place) (next : Snapshot → Result Answer) :
    Result Answer × Disk :=
  let (loaded, disk) := runRegistry i ((configAt p).load i.library.introspector)
  (loaded.bind next, disk)

/-- The template in a file. -/
def templateOf (i : Installation) (name : String) : Result Json :=
  match Table.get? i.texts name with
  | none => .error (.failed (.missingFile name))
  | some text => (Json.read text.toList).mapError fun e => .failed (.unreadable e)

/-- The document of a snapshot as a text. -/
def documentText (s : Snapshot) (template : Json) : Result Answer :=
  let get : OpenApi.HookResult PUnit (OpenApi.AssemblyError Empty) (OpenApi.Assembler × Json) :=
    (OpenApi.Assembler.ofTemplate template).getDocument OpenApi.Hooks.none (some s)
  match (get.run ⟨⟩).1 with
  | .ok (_, d) => .ok (.printed (d.writeIndented ++ "\n"))
  | .error e => .error (.failed (.assembly e))

/-- Print the document of the stored snapshot. -/
def dumpAt (i : Installation) (settings : Settings) (p : Place) (template : Option String) :
    Result Answer × Disk :=
  withSnapshot i p fun s => do
    let t ← match template with
      | some name => templateOf i name
      | none => pure (OpenApi.plainTemplate settings.title settings.version)
    documentText s t

/-- An answer on which the rest depends; the disk stays as it is where there is none. -/
def after {α : Type} (i : Installation) (r : Result α) (next : α → Result Answer × Disk) :
    Result Answer × Disk :=
  match r with
  | .ok x => next x
  | .error e => (.error e, i.disk)

/-- The sources that a command is told, or those of the settings. -/
def sourcesOf (i : Installation) (given : List String) : Result (List String) := do
  let sources ← if given.isEmpty then do pure (← i.settings).sources else pure given
  if sources.isEmpty then throw .unclear else return sources

/-- Run the call of a command. -/
def runCall (i : Installation) (call : Call) : Result Answer × Disk :=
  match call.command with
  | .generate given =>
      after i (sourcesOf i given) fun sources =>
        after i (storePlace i call.store) fun p => generateAt i p sources
  | .listRoutes method format =>
      after i (storePlace i call.store) fun p => listAt i p method format
  | .find method path =>
      after i (storePlace i call.store) fun p => withSnapshot i p fun s => findIn s method path
  | .dumpSchema template =>
      after i i.settings fun settings =>
        after i (storePlace i call.store) fun p => dumpAt i settings p template
  | .ping => (.ok (.printed "pong\n"), i.disk)

/-- Run a program on a list of arguments. The level of messages is set before the arguments of the
command are looked at. -/
def run (i : Installation) (arguments : List String) : Result Answer × Disk :=
  match Opening.read arguments with
  | .unclear => (.error .unclear, i.disk)
  | .help => (.ok .help, i.disk)
  | .clear opening =>
      after i (setLevel i opening.logLevel) fun _ =>
        match opening.call with
        | .unclear => (.error .unclear, i.disk)
        | .help => (.ok .help, i.disk)
        | .clear call => runCall i call

end RouteContract.CommandLine
