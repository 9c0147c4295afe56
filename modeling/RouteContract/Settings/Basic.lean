import RouteContract.Contract.Field
import RouteContract.Settings.Assignment
import RouteContract.Storage.Place
import RouteContract.Text.Unicode.Lowercase

/-!
# Settings

What an installation is told from outside. Each setting is looked for among the values that are
given, then in the environment, then in a file of assignments; the letter case of a name counts only
in the first place. What is found nowhere has a default.
-/

namespace RouteContract

set_option autoImplicit false

open Storage

/-- What an installation is for. -/
inductive Environment where
  | development
  | testing
  | production
deriving Repr, DecidableEq

/-- The name of an environment. -/
def Environment.name : Environment → String
  | .development => "development"
  | .testing => "testing"
  | .production => "production"

/-- The settings of an installation. -/
structure Settings where
  environment : Environment
  logLevel : String
  /-- Where controllers are declared. -/
  sources : List String
  /-- Where the snapshot is stored. -/
  store : Place
  isGenerationDisabled : Bool
  /-- Whether the document is served, and under which path. -/
  servesDocument : Bool
  documentPath : String
  title : String
  version : String
  checksRequests : Bool
  checksResponses : Bool
  /-- Whether a response that breaks its contract is refused, and with which status. -/
  refusesResponses : Bool
  refusalStatus : Int

namespace Settings

/-- An installation in development generates its snapshot anew at every load. -/
def isLive (s : Settings) : Bool := s.environment == .development

/-- The settings as a document. -/
def toJson (s : Settings) : Json :=
  .obj
    [("environment", .str s.environment.name), ("log_level", .str s.logLevel),
      ("metadata_sources", .arr (s.sources.map .str)), ("metadata_path", .str s.store.text),
      ("disable_metadata_generation", .bool s.isGenerationDisabled),
      ("schema_enable", .bool s.servesDocument), ("schema_path", .str s.documentPath),
      ("openapi_title", .str s.title), ("openapi_version", .str s.version),
      ("validate_requests", .bool s.checksRequests),
      ("validate_responses", .bool s.checksResponses),
      ("return_response_errors", .bool s.refusesResponses),
      ("response_error_status_code", .int s.refusalStatus)]

/-! ## Kinds of settings -/

/-- An environment by its name. -/
def readEnvironment : Json → Reading Environment
  | .str "development" => .ok .development
  | .str "testing" => .ok .testing
  | .str "production" => .ok .production
  | _ => .fail .enumeration

/-- A list of texts, or one text in which they stand between commas. -/
def readSources : Json → Reading (List String)
  | .str s =>
      .ok <|
        ((Text.splitAt ',' s.toList).map fun part => String.ofList (Text.trim part)).filter
          fun part => !part.isEmpty
  | .arr items => Reading.itemsFrom Reading.text 0 items
  | _ => .fail .listType

/-- A place on a disk. -/
def readPlace : Json → Reading Place
  | .str s => .ok (.ofText s)
  | _ => .fail .pathType

/-! ## Reading -/

/-- Where settings are looked for. -/
structure Origins where
  given : Table Json
  environment : Table String
  file : Table (Option String)

/-- The name of a setting outside the program. -/
def outerName (name : String) : String := "restspec_" ++ name

/-- Values by name in lower case; of several names that differ in letter case the last one counts.
-/
def lowered {α : Type} (t : Table α) : Table α :=
  Table.ofList (t.map fun entry => (Text.Unicode.lowercase entry.1, entry.2))

/-- A setting from the first place where it is found. -/
def Origins.find? (o : Origins) (name : String) : Option Json :=
  match Table.get? o.given name with
  | some v => some v
  | none =>
      match Table.get? (lowered o.environment) (outerName name) with
      | some text => some (.str text)
      | none => ((Table.get? (lowered o.file) (outerName name)).bind id).map .str

/-- The names of the settings. -/
def names : List String :=
  ["environment", "log_level", "metadata_sources", "metadata_path", "disable_metadata_generation",
    "schema_enable", "schema_path", "openapi_title", "openapi_version", "validate_requests",
    "validate_responses", "return_response_errors", "response_error_status_code"]

/-- The settings that are found, by name. -/
def Origins.members (o : Origins) : Table Json :=
  names.filterMap fun name => (o.find? name).map (name, ·)

/-- The settings of values by name. -/
def ofMembers (m : Table Json) : Reading Settings :=
  let environment := Reading.defaulted m ["environment"] .production readEnvironment
  let logLevel := Reading.defaulted m ["log_level"] "INFO" Reading.text
  let sources := Reading.defaulted m ["metadata_sources"] [] readSources
  let store := Reading.defaulted m ["metadata_path"] (.ofText ".restspec/metadata.db") readPlace
  let isGenerationDisabled :=
    Reading.defaulted m ["disable_metadata_generation"] false Reading.boolean
  let servesDocument := Reading.defaulted m ["schema_enable"] true Reading.boolean
  let documentPath := Reading.defaulted m ["schema_path"] "/openapi.json" Reading.text
  let title := Reading.defaulted m ["openapi_title"] "REST API" Reading.text
  let version := Reading.defaulted m ["openapi_version"] "1.0.0" Reading.text
  let checksRequests := Reading.defaulted m ["validate_requests"] true Reading.boolean
  let checksResponses := Reading.defaulted m ["validate_responses"] true Reading.boolean
  let refusesResponses := Reading.defaulted m ["return_response_errors"] false Reading.boolean
  let refusalStatus := Reading.defaulted m ["response_error_status_code"] 500 Reading.integer
  let issues :=
    environment.issues ++ logLevel.issues ++ sources.issues ++ store.issues ++
      isGenerationDisabled.issues ++ servesDocument.issues ++ documentPath.issues ++ title.issues ++
      version.issues ++ checksRequests.issues ++ checksResponses.issues ++
      refusesResponses.issues ++ refusalStatus.issues
  if issues.isEmpty then
    .ok
      { environment := environment.value, logLevel := logLevel.value, sources := sources.value,
        store := store.value, isGenerationDisabled := isGenerationDisabled.value,
        servesDocument := servesDocument.value, documentPath := documentPath.value,
        title := title.value, version := version.value, checksRequests := checksRequests.value,
        checksResponses := checksResponses.value, refusesResponses := refusesResponses.value,
        refusalStatus := refusalStatus.value }
  else .error issues

/-- The settings of given values, an environment and the text of a file of assignments. -/
def read (given : Table Json) (environment : Table String) (file : String) : Reading Settings :=
  ofMembers (Origins.members ⟨given, environment, assignments environment file⟩)

end Settings

end RouteContract
