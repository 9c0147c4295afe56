import RouteContract.Pointer
import RouteContract.Shape.Graph

/-!
# Compiling types to schemas

A type is compiled to a schema fragment at a path. An object type that is met again while it is
being expanded becomes a reference to the path at which it was entered, so recursive types have
finite schemas. Compilation ends because every object type is expanded at most once on the way down,
and between two object types the way passes through each other type at most once.

Main definition: `Graph.compile`.
-/

namespace RouteContract.Shape

set_option autoImplicit false

open RouteContract

/-- Why a type has no schema. -/
inductive CompileError where
  /-- A type without a rule, with the way messages call it and where it was declared. -/
  | inconvertible (type : TypeId) (label : String) (source : Option Source)
  /-- The type contains itself without an object type in between. -/
  | endless
  /-- Literal values that cannot be put into one order. -/
  | unordered
deriving Repr, DecidableEq

/-- The message about a type without a rule. -/
def inconvertibleMessage (label : String) (source : Option Source) : String :=
  "Type is not supported. Please check that it does not evaluate to \"never\": " ++ label ++
    (source.elim "" fun s => " (" ++ s.display ++ ")")

/-- An object type that is being expanded, and the path at which it was entered. -/
structure Visit where
  type : TypeId
  path : List String

/-- The object types that are being expanded, outermost first. -/
abbrev Visited := List Visit

/-! ## The bound on expansions -/

/-- Whether an object type is not being expanded. -/
def Graph.isFresh (g : Graph) (visited : Visited) (t : TypeId) : Bool :=
  g.isObject t && !visited.any (·.type == t)

/-- The number of object types that are not being expanded. -/
def Graph.freshCount (g : Graph) (visited : Visited) : Nat :=
  (List.range g.size).countP (g.isFresh visited)

/-- A count falls when its condition is sharpened and an element that passed fails. -/
theorem countP_lt_of_mem {α : Type} {p q : α → Bool} {xs : List α} {a : α}
    (hpq : ∀ x, p x = true → q x = true) (ha : a ∈ xs) (hq : q a = true) (hp : p a = false) :
    xs.countP p < xs.countP q := by
  induction xs with
  | nil => cases ha
  | cons x rest ih =>
    rw [List.countP_cons, List.countP_cons]
    rcases List.mem_cons.1 ha with rfl | ha
    · have := List.countP_mono_left (p := p) (q := q) (l := rest) fun x _ => hpq x
      simp [hq, hp]
      omega
    · have := ih ha
      cases hpx : p x
      · simp only [Bool.false_eq_true, if_false]
        omega
      · simp only [hpq x hpx, if_true]
        omega

/-- Entering an object type leaves fewer of them. -/
theorem Graph.freshCount_lt {g : Graph} {visited : Visited} {t : TypeId} (path : List String)
    (ho : g.isObject t = true) (hv : visited.any (·.type == t) = false) :
    g.freshCount (visited ++ [⟨t, path⟩]) < g.freshCount visited := by
  apply countP_lt_of_mem (a := t)
  · intro x hx
    simp only [isFresh, List.any_append, Bool.and_eq_true, Bool.not_eq_true', Bool.or_eq_false_iff]
      at hx ⊢
    exact ⟨hx.1, hx.2.1⟩
  · exact List.mem_range.2 (lt_size_of_isObject ho)
  · simp only [isFresh, ho, hv, Bool.not_false, Bool.and_self]
  · simp [isFresh]

/-! ## Literals and unions -/

/-- Whether a type is a literal of a kind. -/
def Graph.isLiteral (g : Graph) (kind : ScalarKind) (t : TypeId) : Bool :=
  match g.shape t with
  | .literal k _ => k == kind
  | _ => false

/-- The value of a literal type. -/
def Graph.literalValue (g : Graph) (t : TypeId) : Json :=
  match g.shape t with
  | .literal _ value => value
  | _ => .null

/-- Insert a value into an ascending list, unless an equal one is there. -/
def insertOrdered (before : Json → Json → Bool) (v : Json) : List Json → List Json
  | [] => [v]
  | w :: rest =>
      if Json.numericallyEqual v w then w :: rest
      else if before v w then v :: w :: rest
      else w :: insertOrdered before v rest

/-- The order of numbers by size. -/
def numberBefore (v w : Json) : Bool :=
  match v.count?, w.count? with
  | some a, some b => a.less b
  | _, _ => false

/-- The order of texts by code points. -/
def textBefore (v w : Json) : Bool :=
  match v, w with
  | .str a, .str b => decide (a < b)
  | _, _ => false

/-- Whether a value can be an element of a set. -/
def isAtom : Json → Bool
  | .arr _ => false
  | .obj _ => false
  | _ => true

/-- Literal values in ascending order, the first of several equal ones kept. -/
def orderedValues (values : List Json) : Except CompileError (List Json) :=
  if !values.all isAtom then .error .unordered
  else if values.all fun v => v.text?.isSome then
    .ok (values.foldl (fun done v => insertOrdered textBefore v done) [])
  else if values.all fun v => v.count?.isSome then
    .ok (values.foldl (fun done v => insertOrdered numberBefore v done) [])
  else
    match values with
    | v :: rest => if rest.all (Json.numericallyEqual v) then .ok [v] else .error .unordered
    | [] => .ok []

/-- The branch that the boolean literals of a union make together. -/
def booleanBranch (values : List Json) : Json :=
  let truths := values.map fun v => !v.isVoid
  .obj <|
    ("type", .str "boolean") ::
      (if truths.all id then [("enum", .arr [.bool true])]
      else if truths.all (!·) then [("enum", .arr [.bool false])]
      else [])

/-! ## Parts of a schema -/

/-- The schema of an enumeration: its values, under the type of the first one. -/
def enumerationSchema (values : List Json) : Json :=
  match values with
  | [] => .obj []
  | first :: _ =>
      .obj
        [("type", .str (if first.quantity?.isSome then "number" else "string")),
          ("enum", .arr values)]

/-- The schema of an object type from its parts; empty parts are left out. -/
def objectSchema (additional : Json) (required : List String) (properties : Table Json) : Json :=
  .obj <|
    [("type", .str "object"), ("additionalProperties", additional)] ++
      (if required.isEmpty then [] else [("required", .arr (required.map .str))]) ++
      (if properties.isEmpty then [] else [("properties", .obj properties)])

/-- Whether a property takes part in the schema. -/
def Property.isIgnored (p : Property) : Bool := Table.has p.annotations "ignore"

/-- Whether the annotations of a property are its whole schema. -/
def Property.isSelfTyped (p : Property) : Bool := Table.has p.annotations "type"

/-- The annotations of a property under the keywords compiled for its type. -/
def annotated (annotations : Table Json) (schema : Json) : Json :=
  .obj (Table.putAll annotations ((schema.members?).getD []))

/-- The members under a keyword. -/
def membersUnder (schema : Table Json) (keyword : String) : Table Json :=
  ((Table.get? schema keyword).bind Json.members?).getD []

/-- The items under a keyword. -/
def itemsUnder (schema : Table Json) (keyword : String) : List Json :=
  ((Table.get? schema keyword).bind Json.items?).getD []

/-- Names after the ones that are already listed, each once. -/
def mergeNames (names more : List Json) : List Json :=
  more.foldl
    (fun done name => if done.any (Json.numericallyEqual name) then done else done ++ [name])
    names

/-- A schema that also has what a second one requires and declares. -/
def intersectWith (done : Table Json) (schema : Json) : Table Json :=
  let members := (schema.members?).getD []
  let required := mergeNames (itemsUnder done "required") (itemsUnder members "required")
  let properties :=
    Table.putAll (membersUnder done "properties") (membersUnder members "properties")
  let done :=
    match Table.get? members "additionalProperties" with
    | none => done
    | some .null => done
    | some (.bool false) => done
    | some additional => Table.put done "additionalProperties" additional
  let done := if required.isEmpty then done else Table.put done "required" (.arr required)
  if properties.isEmpty then done else Table.put done "properties" (.obj properties)

/-- The schema that an intersection starts from. -/
def closedObject : Table Json := [("type", .str "object"), ("additionalProperties", .bool false)]

/-! ## Compilation -/

/-- A function over the elements of a list with their positions, up to the first error. -/
def mapWithIndex {α β ε : Type} (f : Nat → α → Except ε β) : Nat → List α → Except ε (List β)
  | _, [] => .ok []
  | i, x :: rest =>
      match f i x with
      | .error e => .error e
      | .ok y => (mapWithIndex f (i + 1) rest).map (y :: ·)

/-- A function over the elements of a list with an accumulator, up to the first error. -/
def foldUntilError {α σ ε : Type} (f : σ → α → Except ε σ) : σ → List α → Except ε σ
  | s, [] => .ok s
  | s, x :: rest =>
      match f s x with
      | .error e => .error e
      | .ok next => foldUntilError f next rest

/-- The schema of a type at a path, with the object types being expanded and the number of types
that may still be passed before the next object type. -/
def Graph.compileFrom (g : Graph) (hops : Nat) (visited : Visited) (path : List String)
    (t : TypeId) : Except CompileError Json :=
  match hops with
  | 0 => .error .endless
  | hops + 1 =>
    match hs : g.shape t with
    | .scalar kind => .ok (.obj [("type", .str kind.name)])
    | .literal kind value => .ok (.obj [("type", .str kind.name), ("enum", .arr [value])])
    | .array element =>
        (g.compileFrom hops visited (path ++ ["items"]) element).map fun items =>
          .obj [("type", .str "array"), ("items", items)]
    | .tuple elements =>
        (mapWithIndex
            (fun i element => g.compileFrom hops visited (path ++ ["items", toString i]) element)
            0 elements).map fun items => .obj [("type", .str "array"), ("items", .arr items)]
    | .object properties index _ =>
        match hv : visited.find? (·.type == t) with
        | some entry => .ok (.obj [("$ref", .str (Pointer.fragment entry.path))])
        | none =>
            have ho : g.isObject t = true := by simp [Graph.isObject, hs]
            have hn : visited.any (·.type == t) = false := by
              simpa using List.find?_eq_none.1 hv
            have := Graph.freshCount_lt path ho hn
            let inner := visited ++ [⟨t, path⟩]
            let declared :=
              foldUntilError
                (fun (done : List String × Table Json) (p : Property) =>
                  if p.isIgnored then .ok done
                  else
                    let required := if p.isOptional then done.1 else done.1 ++ [p.name]
                    if p.isSelfTyped then
                      .ok (required, Table.put done.2 p.name (.obj p.annotations))
                    else
                      (g.compileFrom (g.size + 1) inner (path ++ ["properties", p.name]) p.type).map
                        fun schema =>
                          (required, Table.put done.2 p.name (annotated p.annotations schema)))
                ([], []) properties
            match declared with
            | .error e => .error e
            | .ok (required, compiled) =>
                match index with
                | none => .ok (objectSchema (.bool false) required compiled)
                | some value =>
                    (g.compileFrom (g.size + 1) inner (path ++ ["additionalProperties"]) value).map
                      fun additional => objectSchema additional required compiled
    | .enumeration values _ => .ok (enumerationSchema values)
    | .union members =>
        if !members.isEmpty && members.all (g.isLiteral .string) then
          (orderedValues (members.map g.literalValue)).map fun values =>
            .obj [("type", .str "string"), ("enum", .arr values)]
        else if !members.isEmpty && members.all (g.isLiteral .number) then
          (orderedValues (members.map g.literalValue)).map fun values =>
            .obj [("type", .str "number"), ("enum", .arr values)]
        else
          let booleans := members.filter (g.isLiteral .boolean)
          let others := members.filter fun m => !g.isLiteral .boolean m
          (mapWithIndex
              (fun i member => g.compileFrom hops visited (path ++ ["anyOf", toString i]) member)
              0 others).map fun branches =>
            let folded :=
              if booleans.isEmpty then [] else [booleanBranch (booleans.map g.literalValue)]
            .obj [("anyOf", .arr (branches ++ folded))]
    | .intersection members =>
        (foldUntilError
            (fun (done : Table Json) member =>
              (g.compileFrom hops visited path member).map (intersectWith done))
            closedObject members).map .obj
    | .null => .ok (.obj [("type", .str "null")])
    | .any => .ok (.obj [])
    | .undescribed _ => .error (.inconvertible t (g.label t) (g.node t).source)
    | .bare => .error (.inconvertible t (g.label t) (g.node t).source)
termination_by (g.freshCount visited, hops)
decreasing_by
  all_goals simp only [Prod.lex_def, true_and]
  all_goals omega

/-- The schema of a type at a path, given the object types that are being expanded around it. -/
def Graph.compile (g : Graph) (t : TypeId) (path : List String) (visited : Visited) :
    Except CompileError Json :=
  g.compileFrom (g.size + 1) visited path t

end RouteContract.Shape
