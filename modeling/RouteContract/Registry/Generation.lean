import RouteContract.Contract.Declaration
import RouteContract.Route.Matcher
import RouteContract.Text.Unicode.Lowercase

/-!
# Generating snapshots

A snapshot is generated from sources. An introspector tells the controllers of each source; every
route of every action becomes an entry under its method, in the order of declaration. An action
without routes leaves nothing, and its types are not compiled.
-/

namespace RouteContract.Registry

set_option autoImplicit false

open RouteContract

/-- Tells the controllers of a source. It may remember what it has told before. -/
structure Introspector (σ ε : Type) where
  describe : String → σ → Except ε Declaration × σ

/-- Why nothing was generated. -/
inductive GenerationError (ε : Type) where
  /-- The introspector does not tell the controllers of a source. -/
  | source (e : ε)
  /-- An action has no contract. -/
  | action (e : BuildError)

/-- Routes by method. -/
abbrev Buckets := Table (List RouteEntry)

/-- The entry of a route to an action. -/
def entryOf (action : Action) (route : DeclaredRoute) : RouteEntry :=
  ⟨(Route.Matcher.ofTemplate route.path).encode, route.path, action⟩

/-- Routes with one more at the end of its method. -/
def addRoute (action : Action) (buckets : Buckets) (route : DeclaredRoute) : Buckets :=
  Table.append buckets (Text.Unicode.lowercase route.method) (entryOf action route)

/-- Routes with those of an action. -/
def addAction (g : Shape.Graph) (owner : String) (buckets : Buckets) (a : DeclaredAction) :
    Except BuildError Buckets :=
  if a.routes.isEmpty then .ok buckets
  else (a.toContract g owner).map fun action => a.routes.foldl (addRoute action) buckets

/-- Routes with those of a controller. -/
def addController (g : Shape.Graph) (buckets : Buckets) (c : Controller) :
    Except BuildError Buckets :=
  c.actions.foldlM (addAction g c.owner) buckets

/-- Routes with those of a declaration. -/
def addDeclaration (buckets : Buckets) (d : Declaration) : Except BuildError Buckets :=
  d.controllers.foldlM (addController d.types) buckets

/-- Routes with those of sources. The introspector is asked for one source after the other, and no
further when one of them fails. -/
def addSources {σ ε : Type} (introspector : Introspector σ ε) (buckets : Buckets) :
    List String → σ → Except (GenerationError ε) Buckets × σ
  | [], memory => (.ok buckets, memory)
  | source :: rest, memory =>
      match introspector.describe source memory with
      | (.error e, memory) => (.error (.source e), memory)
      | (.ok declaration, memory) =>
          match addDeclaration buckets declaration with
          | .error e => (.error (.action e), memory)
          | .ok buckets => addSources introspector buckets rest memory

/-- The snapshot of sources. -/
def generate {σ ε : Type} (introspector : Introspector σ ε) (sources : List String) (memory : σ) :
    Except (GenerationError ε) Snapshot × σ :=
  let (result, memory) := addSources introspector [] sources memory
  (result.map Snapshot.mk, memory)

end RouteContract.Registry
