import RouteContract.Registry.Generation
import RouteContract.Sources.Controllers

/-!
# Libraries of sources

A source is a file with a module in it, or the name of a module that is installed. The controllers
of a file are those of its module; an installed module has none of its own.
-/

namespace RouteContract.Sources

set_option autoImplicit false

open RouteContract

/-- What is found in a file. -/
inductive FileContent where
  | module (d : ModuleDocument)
  /-- Something that is no module. -/
  | other

/-- The files that are there, and the names of the modules that are installed. -/
structure Library where
  files : Table FileContent
  installed : List String
  /-- The name of a module while it is at work. -/
  moduleName : String

/-- The names on the way to a module, outermost first, and its own. -/
def wayTo (name : String) : List String :=
  let parts := nameParts name
  (List.range parts.length).map fun n => ".".intercalate (parts.take (n + 1))

/-- The first name on the way to a module that is not installed. -/
def Library.missing? (l : Library) (name : String) : Option String :=
  (wayTo name).find? fun n => !l.installed.contains n

/-- The controllers of an installed module. -/
def Library.describeInstalled (l : Library) (name : String) : Except SourceError Declaration :=
  if name.isEmpty then .error .unnamed
  else if name.startsWith "." then .error .mismatch
  else
    match l.missing? name with
    | some n => .error (.missingModule n)
    | none => .ok ⟨.empty, []⟩

/-- The controllers of a source. -/
def Library.describe (l : Library) (source : String) : Except SourceError Declaration :=
  match Table.get? l.files source with
  | some (.module d) =>
      match Module.ofDocument l.moduleName d with
      | .ok m => m.declaration
      | .error e => .error e
  | some .other => .error (.noModule source)
  | none =>
    if source.endsWith ".py" then .error (.missingFile source) else l.describeInstalled source

/-- An introspector that tells the controllers of the sources in a library. It remembers nothing. -/
def Library.introspector (l : Library) : Registry.Introspector PUnit SourceError :=
  ⟨fun source memory => (l.describe source, memory)⟩

end RouteContract.Sources
