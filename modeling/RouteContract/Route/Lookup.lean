import RouteContract.Contract.Action
import RouteContract.Json.Display
import RouteContract.Route.Matcher

/-!
# Looking up routes

The routes of a method are tried in order, and the first whose matcher accepts the path is taken. A
stored matcher that cannot be read is skipped and does no harm to the routes after it.
-/

namespace RouteContract.Route

set_option autoImplicit false

open RouteContract

/-- A route that accepts a path, and the parameters it reads from it. -/
structure Match where
  method : String
  entry : RouteEntry
  params : Table (Option String)

/-- What trying routes in order came to: the routes that were skipped, and the first that accepts.
-/
structure Search where
  skipped : List RouteEntry
  result : Except HugeCount (Option (RouteEntry × Table (Option String)))

/-- A search in which one more route was skipped at the beginning. -/
def Search.skip (entry : RouteEntry) (s : Search) : Search :=
  { s with skipped := entry :: s.skipped }

/-- Try routes in order. -/
def search (path : String) : List RouteEntry → Search
  | [] => ⟨[], .ok none⟩
  | entry :: rest =>
      match parsePattern entry.pattern with
      | .error e => ⟨[], .error e⟩
      | .ok none => (search path rest).skip entry
      | .ok (some p) =>
          match matchParameters? p path with
          | some params => ⟨[], .ok (some (entry, params))⟩
          | none => search path rest

/-- The part of a path that routes are matched against: what stands before the first question mark.
-/
def routedPart (path : String) : String := String.ofList (path.toList.takeWhile (· != '?'))

/-- What a lookup came to. -/
structure Lookup where
  skipped : List RouteEntry
  result : Except HugeCount (Option Match)

/-- Look up the route for a method and a path. -/
def lookup (s : Snapshot) (method path : String) : Lookup :=
  let found := search (routedPart path) (s.forMethod method)
  ⟨found.skipped,
    found.result.map fun accepted => accepted.map fun (entry, params) =>
      ⟨Text.Unicode.lowercase method, entry, params⟩⟩

/-- What is said about a route that was skipped. -/
def skippedNotice (entry : RouteEntry) : String :=
  "Skipping unparsable route pattern " ++ (Json.str entry.pattern).display ++ " (" ++ entry.path ++
    ")"

end RouteContract.Route
