import RouteContract.Json.Basic

/-!
# Requests and responses

What passes between a client and a controller, as far as contracts are concerned.
-/

namespace RouteContract

set_option autoImplicit false

/-- A request. -/
structure Request where
  method : String
  path : String
  body : Json
  params : Json
  query : Json

/-- A value, or an empty object in place of null. -/
def orEmptyObject : Json → Json
  | .null => .obj []
  | v => v

/-- A request whose parameters and query are empty where they are not given. -/
def Request.ofParts (method path : String) (body params query : Json) : Request :=
  ⟨method, path, body, orEmptyObject params, orEmptyObject query⟩

/-- A response. -/
structure Response where
  status : Int
  body : Json

end RouteContract
