import RouteContract.Proofs.Shape.Reach

/-!
# The calls of compilation

Compiling a type compiles its parts: each at a path, inside the object types that are being
expanded. These calls are listed once, in the order in which they are made (`Graph.calls`). A
schema is put together from the schemas of the calls alone (`Expands.restrict`), and compilation
fails with the refusal of the type itself or with the error of the first call that fails
(`failure?_answer_succ`).

A bound on the hops between two object types that is not reached does not show
(`answer_stable`).
-/

set_option autoImplicit false

namespace RouteContract.Shape

open RouteContract

/-! ## Calls -/

/-- A call of compilation: a type at a path, inside the object types that are being expanded. -/
structure Call where
  visited : Visited
  path : List String
  type : TypeId

/-- The calls for parts that are numbered under a keyword. -/
def Call.numbered (c : Call) (keyword : String) (parts : List TypeId) : List Call :=
  parts.zipIdx.map fun part => ⟨c.visited, c.path ++ [keyword, toString part.2], part.1⟩

/-- The properties of an object type whose types are compiled. -/
def compiledProperties (properties : List Property) : List Property :=
  (participating properties).filter fun p => !p.isSelfTyped

/-- The calls that one call of compilation makes, in their order. -/
def Graph.calls (g : Graph) (c : Call) : List Call :=
  match g.shape c.type with
  | .array element => [⟨c.visited, c.path ++ ["items"], element⟩]
  | .tuple elements => c.numbered "items" elements
  | .object properties index _ =>
      if c.visited.any (·.type == c.type) then []
      else
        (compiledProperties properties).map (fun p =>
            ⟨enter c.visited c.type c.path, c.path ++ ["properties", p.name], p.type⟩) ++
          index.toList.map fun u =>
            ⟨enter c.visited c.type c.path, c.path ++ ["additionalProperties"], u⟩
  | .union members =>
      if (g.collapsed? members).isSome then [] else c.numbered "anyOf" (g.branches members)
  | .intersection members => members.map fun u => ⟨c.visited, c.path, u⟩
  | _ => []

/-- A call that another one makes. -/
def Graph.Calls (g : Graph) (outer inner : Call) : Prop := inner ∈ g.calls outer

variable {g : Graph} {hops : Nat}

theorem mem_numbered {c : Call} {keyword : String} {parts : List TypeId} {i : Nat} {u : TypeId}
    (found : parts[i]? = some u) :
    ⟨c.visited, c.path ++ [keyword, toString i], u⟩ ∈ c.numbered keyword parts :=
  List.mem_map.2 ⟨(u, i), List.mem_zipIdx_iff_getElem?.2 found, rfl⟩

theorem map_type_numbered (c : Call) (keyword : String) (parts : List TypeId) :
    (c.numbered keyword parts).map (·.type) = parts := by
  rw [Call.numbered, List.map_map]
  exact List.zipIdx_map_fst 0 parts

theorem visited_of_mem_numbered {c inner : Call} {keyword : String} {parts : List TypeId}
    (h : inner ∈ c.numbered keyword parts) : inner.visited = c.visited := by
  obtain ⟨part, -, rfl⟩ := List.mem_map.1 h
  rfl

/-- Whether an object type is met while it is being expanded. -/
def Graph.isMetAgain (g : Graph) (c : Call) : Bool :=
  g.isObject c.type && c.visited.any (·.type == c.type)

/-- The parts of a type that compilation looks at, in its order: all of them but the boolean
literals of a union. -/
def Graph.followed (g : Graph) (t : TypeId) : List TypeId :=
  match g.shape t with
  | .union members => g.branches members
  | _ => g.parts t

theorem mem_parts_of_mem_followed {t u : TypeId} (h : u ∈ g.followed t) : u ∈ g.parts t := by
  rw [Graph.followed] at h
  rw [Graph.parts] at h ⊢
  cases shape : g.shape t with
  | union members =>
      rw [shape] at h
      exact (List.mem_filter.1 h).1
  | _ => rwa [shape] at h

/-- A part that is not followed is a boolean literal. -/
theorem mem_followed_of_mem_parts {t u : TypeId} (part : u ∈ g.parts t) :
    u ∈ g.followed t ∨ g.isLiteral .boolean u = true := by
  by_cases boolean : g.isLiteral .boolean u = true
  · exact .inr boolean
  · refine .inl ?_
    rw [Graph.followed]
    rw [Graph.parts] at part ⊢
    cases shape : g.shape t with
    | union members =>
        rw [shape] at part
        exact List.mem_filter.2 ⟨part, by simpa using boolean⟩
    | _ => rwa [shape] at part

/-- **The calls for a type are for the parts that are followed**, but for a type that is met again
and for a union that becomes one enumeration. -/
theorem map_type_calls {c : Call} (new : g.isMetAgain c = false)
    (mixed : ∀ members, g.shape c.type = .union members → g.collapsed? members = none) :
    (g.calls c).map (·.type) = g.followed c.type := by
  rw [Graph.calls, Graph.followed, Graph.parts]
  rw [Graph.isMetAgain, Graph.isObject] at new
  cases shape : g.shape c.type with
  | tuple elements => exact map_type_numbered _ _ _
  | object properties index name =>
      rw [shape, Bool.true_and] at new
      simp only [new, Bool.false_eq_true, if_false, List.map_append, List.map_map]
      cases index <;> rfl
  | union members =>
      simp only [mixed members shape, Option.isSome_none, Bool.false_eq_true, if_false]
      exact map_type_numbered _ _ _
  | intersection members =>
      simp only [List.map_map]
      exact List.map_id _
  | array | scalar | literal | enumeration | null | any | undescribed | bare => rfl

/-- **What a call is**: it is for a part of the type, among the same object types, or inside the
type itself when that is an object type which is not being expanded. -/
theorem calls_cases {outer inner : Call} (h : g.Calls outer inner) :
    inner.type ∈ g.parts outer.type ∧
      (g.isObject outer.type = false ∧ inner.visited = outer.visited ∨
        g.isFresh outer.visited outer.type = true ∧
          inner.visited = enter outer.visited outer.type outer.path) := by
  rw [Graph.Calls, Graph.calls] at h
  rw [Graph.isFresh, Graph.isObject, Graph.parts]
  cases shape : g.shape outer.type with
  | array element =>
      simp only [shape] at h
      rw [List.mem_singleton.1 h]
      exact ⟨List.mem_singleton_self _, .inl ⟨rfl, rfl⟩⟩
  | tuple elements =>
      simp only [shape] at h
      have part := List.mem_map_of_mem (f := (·.type)) h
      rw [map_type_numbered] at part
      exact ⟨part, .inl ⟨rfl, visited_of_mem_numbered h⟩⟩
  | object properties index name =>
      simp only [shape] at h
      split at h
      · cases h
      · next new =>
          refine ⟨?_, .inr ⟨by simpa using new, ?_⟩⟩
          · rcases List.mem_append.1 h with h | h
            · obtain ⟨p, member, rfl⟩ := List.mem_map.1 h
              exact List.mem_append_left _ (List.mem_map_of_mem member)
            · obtain ⟨u, member, rfl⟩ := List.mem_map.1 h
              exact List.mem_append_right _ member
          · rcases List.mem_append.1 h with h | h
            · obtain ⟨p, -, rfl⟩ := List.mem_map.1 h
              rfl
            · obtain ⟨u, -, rfl⟩ := List.mem_map.1 h
              rfl
  | union members =>
      simp only [shape] at h
      split at h
      · cases h
      · have part := List.mem_map_of_mem (f := (·.type)) h
        rw [map_type_numbered] at part
        exact ⟨(List.mem_filter.1 part).1, .inl ⟨rfl, visited_of_mem_numbered h⟩⟩
  | intersection members =>
      simp only [shape] at h
      obtain ⟨u, member, rfl⟩ := List.mem_map.1 h
      exact ⟨member, .inl ⟨rfl, rfl⟩⟩
  | scalar | literal | enumeration | null | any | undescribed | bare =>
      simp only [shape] at h
      cases h

/-- The object types that are being expanded where the parts of a type are looked at. -/
def Graph.inside (g : Graph) (busy : List TypeId) (t : TypeId) : List TypeId :=
  if g.isObject t then busy ++ [t] else busy

/-- The object types that a call is made inside of. -/
def Call.entered (c : Call) : List TypeId := c.visited.map (·.type)

theorem isMetAgain_iff {c : Call} :
    g.isMetAgain c = true ↔ g.isObject c.type = true ∧ c.type ∈ c.entered := by
  simp [Graph.isMetAgain, Call.entered]

/-- Calls are made inside the object types that are being expanded where the parts are looked at. -/
theorem entered_of_calls {outer inner : Call} (called : g.Calls outer inner) :
    inner.entered = g.inside outer.entered outer.type := by
  rw [Graph.inside, Call.entered]
  obtain ⟨-, ⟨bare, same⟩ | ⟨fresh, entered⟩⟩ := calls_cases called
  · rw [same, bare]
    rfl
  · rw [Graph.isFresh, Bool.and_eq_true] at fresh
    rw [entered, if_pos fresh.1, enter, List.map_append]
    rfl

/-- A call that makes calls makes them for the parts that are followed. -/
theorem followed_of_calls {c inner : Call} (called : g.Calls c inner) :
    ¬ (g.isObject c.type = true ∧ c.type ∈ c.entered) ∧
      g.followed c.type = (g.calls c).map (·.type) := by
  have new : g.isMetAgain c = false := by
    obtain ⟨-, ⟨bare, -⟩ | ⟨fresh, -⟩⟩ := calls_cases called
    · rw [Graph.isMetAgain, bare, Bool.false_and]
    · rw [Graph.isFresh, Bool.and_eq_true, Bool.not_eq_true'] at fresh
      rw [Graph.isMetAgain, fresh.2, Bool.and_false]
  refine ⟨?_, (map_type_calls new fun members shape => ?_).symm⟩
  · rw [← isMetAgain_iff, new]
    exact Bool.false_ne_true
  · rw [Graph.Calls, Graph.calls, shape] at called
    by_contra collapsed
    simp only [if_pos (Option.isSome_iff_ne_none.2 collapsed)] at called
    exact absurd called List.not_mem_nil

/-- A schema is put together from the schemas of calls. -/
theorem Expands.restrict {sub : Visited → List String → TypeId → Json → Prop} {visited : Visited}
    {path : List String} {t : TypeId} {s : Json} (h : Expands g sub visited path t s) :
    Expands g (fun visited' path' u s' => sub visited' path' u s' ∧
      g.Calls ⟨visited, path, t⟩ ⟨visited', path', u⟩) visited path t s := by
  cases shape : g.shape t with
  | array element =>
      simp only [Expands, shape, Graph.Calls, Graph.calls] at h ⊢
      obtain ⟨items, part, rfl⟩ := h
      exact ⟨items, ⟨part, List.mem_singleton_self _⟩, rfl⟩
  | tuple elements =>
      simp only [Expands, shape, Graph.Calls, Graph.calls] at h ⊢
      obtain ⟨items, ⟨length, each⟩, rfl⟩ := h
      exact ⟨items, ⟨length, fun i u s hu hs =>
        ⟨each i u s hu hs, mem_numbered (c := ⟨visited, path, t⟩) hu⟩⟩, rfl⟩
  | object properties index name =>
      simp only [Expands, shape, ExpandsObject, Graph.Calls, Graph.calls] at h ⊢
      cases entered : visited.find? (·.type == t) with
      | some entry => simpa only [entered] using h
      | none =>
          have new : visited.any (·.type == t) = false := by
            rw [← List.isSome_find?, entered]
            rfl
          simp only [entered, new, Bool.false_eq_true, if_false] at h ⊢
          obtain ⟨schemas, additional, declared, indexed, rfl⟩ := h
          refine ⟨schemas, additional, ⟨declared.1, fun i p s hp hs typed =>
            ⟨declared.2 i p s hp hs typed, List.mem_append_left _ (List.mem_map.2 ⟨p, ?_, rfl⟩)⟩⟩,
            ?_, rfl⟩
          · exact List.mem_filter.2 ⟨List.mem_of_getElem? hp, by rw [typed]; rfl⟩
          · cases index with
            | none => exact indexed
            | some u =>
                exact ⟨indexed, List.mem_append_right _
                  (List.mem_map.2 ⟨u, List.mem_singleton_self u, rfl⟩)⟩
  | union members =>
      simp only [Expands, shape, ExpandsUnion, Graph.Calls, Graph.calls] at h ⊢
      cases collapsed : g.collapsed? members with
      | some kind => simpa only [collapsed] using h
      | none =>
          simp only [collapsed] at h ⊢
          obtain ⟨schemas, ⟨length, each⟩, rfl⟩ := h
          exact ⟨schemas, ⟨length, fun i u s hu hs =>
            ⟨each i u s hu hs, mem_numbered (c := ⟨visited, path, t⟩) hu⟩⟩, rfl⟩
  | intersection members =>
      simp only [Expands, shape, Graph.Calls, Graph.calls] at h ⊢
      obtain ⟨schemas, ⟨length, each⟩, rfl⟩ := h
      exact ⟨schemas, ⟨length, fun i u s hu hs =>
        ⟨each i u s hu hs, List.mem_map.2 ⟨u, List.mem_of_getElem? hu, rfl⟩⟩⟩, rfl⟩
  | scalar | literal | enumeration | null | any => simpa only [Expands, shape] using h
  | undescribed | bare => simp only [Expands, shape] at h

/-! ## Failing -/

/-- What a call answers under a bound on the types that may be passed before the next object
type. -/
def Graph.answer (g : Graph) (hops : Nat) (c : Call) : Except CompileError Json :=
  g.compileFrom hops c.visited c.path c.type

/-- The error about a type without a rule. -/
def Graph.inconvertible (g : Graph) (t : TypeId) : CompileError :=
  .inconvertible t (g.label t) (g.node t).source

/-- The error of a type that fails by itself, and not in one of its parts. -/
def Graph.refusal? (g : Graph) (t : TypeId) : Option CompileError :=
  match g.shape t with
  | .undescribed _ => some (g.inconvertible t)
  | .bare => some (g.inconvertible t)
  | .union members =>
      (g.collapsed? members).bind fun _ => failure? (orderedValues (members.map g.literalValue))
  | _ => none

theorem failure?_mapWithIndex {α β ε : Type} {f : Nat → α → Except ε β} (start : Nat)
    (xs : List α) :
    failure? (mapWithIndex f start xs) =
      (xs.zipIdx start).findSome? fun x => failure? (f x.2 x.1) := by
  induction xs generalizing start with
  | nil => rfl
  | cons x rest ih =>
      rw [mapWithIndex, List.zipIdx_cons, List.findSome?_cons]
      cases f start x with
      | error e => rfl
      | ok y => exact (failure?_map _ _).trans (ih _)

theorem failure?_foldUntilError {α σ ε : Type} {f : σ → α → Except ε σ} (fails : α → Option ε)
    (same : ∀ s x, failure? (f s x) = fails x) (s : σ) (xs : List α) :
    failure? (foldUntilError f s xs) = xs.findSome? fails := by
  induction xs generalizing s with
  | nil => rfl
  | cons x rest ih =>
      rw [foldUntilError, List.findSome?_cons, ← same s x]
      cases f s x with
      | error e => rfl
      | ok next => exact ih next

theorem failure?_addProperty (compile : List String → TypeId → Except CompileError Json)
    (path : List String) (done : List String × Table Json) (p : Property) :
    failure? (addProperty compile path done p) =
      if p.isIgnored || p.isSelfTyped then none
      else failure? (compile (path ++ ["properties", p.name]) p.type) := by
  rw [addProperty]
  cases p.isIgnored with
  | true => rfl
  | false =>
      cases p.isSelfTyped with
      | true => rfl
      | false => exact failure?_map _ _

theorem findSome?_compiledProperties {β : Type} (f : Property → Option β)
    (properties : List Property) :
    (properties.findSome? fun p => if p.isIgnored || p.isSelfTyped then none else f p) =
      (compiledProperties properties).findSome? f := by
  rw [compiledProperties, participating, List.filter_filter]
  induction properties with
  | nil => rfl
  | cons p rest ih =>
      rw [List.findSome?_cons, List.filter_cons, ih]
      cases p.isIgnored <;> cases p.isSelfTyped <;> rfl

/-- The properties of an object type fail as the first of them whose type is compiled and fails. -/
theorem failure?_foldUntilError_addProperty
    (compile : List String → TypeId → Except CompileError Json) (path : List String)
    (start : List String × Table Json) (properties : List Property) :
    failure? (foldUntilError (addProperty compile path) start properties) =
      (compiledProperties properties).findSome? fun p =>
        failure? (compile (path ++ ["properties", p.name]) p.type) := by
  rw [failure?_foldUntilError _ (failure?_addProperty compile path), findSome?_compiledProperties]

theorem findSome?_numbered {β : Type} (f : Call → Option β) (c : Call) (keyword : String)
    (parts : List TypeId) :
    (c.numbered keyword parts).findSome? f =
      parts.zipIdx.findSome? fun part =>
        f ⟨c.visited, c.path ++ [keyword, toString part.2], part.1⟩ := by
  rw [Call.numbered, List.findSome?_map]
  rfl

/-- **One step of compilation fails by itself, or as the first of its calls that fails.** -/
theorem failure?_answer_succ (c : Call) :
    failure? (g.answer (hops + 1) c) =
      (g.refusal? c.type).or ((g.calls c).findSome? fun inner =>
        failure? (g.answer (g.hopsInside hops c.visited inner.visited) inner)) := by
  obtain ⟨visited, path, t⟩ := c
  have same (path : List String) (u : TypeId) :
      failure? (g.answer (g.hopsInside hops visited visited) ⟨visited, path, u⟩) =
        failure? (g.compileFrom hops visited path u) := by
    rw [g.hopsInside_self]
    rfl
  have inside (path' : List String) (u : TypeId) :
      failure? (g.answer (g.hopsInside hops visited (enter visited t path))
        ⟨enter visited t path, path', u⟩) =
        failure? (g.compileFrom (g.size + 1) (enter visited t path) path' u) := by
    rw [g.hopsInside_enter]
    rfl
  have numbered (keyword : String) (parts : List TypeId) :
      failure? (mapWithIndex (fun i part =>
          g.compileFrom hops visited (path ++ [keyword, toString i]) part) 0 parts) =
        (Call.numbered ⟨visited, path, t⟩ keyword parts).findSome? fun inner =>
          failure? (g.answer (g.hopsInside hops visited inner.visited) inner) := by
    rw [failure?_mapWithIndex, findSome?_numbered]
    simp only [same]
  rw [Graph.answer, Graph.compileFrom]
  split <;> rename_i shape <;> simp only [Graph.refusal?, Graph.calls, shape]
  case h_3 element => rw [failure?_map, List.findSome?_singleton, same, Option.none_or]
  case h_4 elements => rw [failure?_map, numbered, Option.none_or]
  case h_5 properties index name =>
      split <;> rename_i entered
      · rw [← List.isSome_find?, entered]
        rfl
      · rw [← List.isSome_find?, entered, Option.isSome_none, if_neg Bool.false_ne_true,
          Option.none_or, List.findSome?_append, List.findSome?_map, List.findSome?_map]
        generalize folded : foldUntilError _ _ properties = declared
        change foldUntilError (addProperty (g.compileFrom (g.size + 1) (enter visited t path)) path)
          ([], []) properties = _ at folded
        simp only [Function.comp_def, inside]
        rw [← failure?_foldUntilError_addProperty, folded]
        cases declared with
        | error e => rfl
        | ok result =>
            cases index with
            | none => rfl
            | some u =>
                rw [Option.toList, List.findSome?_singleton]
                exact failure?_map _ _
  case h_7 members =>
      rw [Graph.collapsed?]
      split
      · exact (failure?_map _ _).trans (Option.or_none).symm
      · split
        · exact (failure?_map _ _).trans (Option.or_none).symm
        · exact (failure?_map _ _).trans (numbered "anyOf" (g.branches members))
  case h_8 members =>
      rw [failure?_map, List.findSome?_map, Option.none_or,
        failure?_foldUntilError (fun u => failure? (g.compileFrom hops visited path u))
          fun done u => failure?_map _ _]
      simp only [Function.comp_def, same]
  all_goals rfl

/-! ## Bounds that do not show -/

theorem findSome?_congr {α β : Type} {f f' : α → Option β} {xs : List α}
    (same : ∀ x ∈ xs, f x = f' x) : xs.findSome? f = xs.findSome? f' := by
  induction xs with grind

/-- The first result of a list is the same when the members that come to it are. -/
theorem findSome?_congr_of_ne {α β : Type} {f f' : α → Option β} {b : β} {xs : List α}
    (same : ∀ x ∈ xs, f x ≠ some b → f' x = f x) (found : xs.findSome? f ≠ some b) :
    xs.findSome? f' = xs.findSome? f := by
  induction xs with grind

/-- **A larger bound on the hops answers the same**, unless the bound was reached. -/
theorem answer_stable {more : Nat} (le : hops ≤ more) {c : Call}
    (finite : g.answer hops c ≠ .error .endless) : g.answer more c = g.answer hops c := by
  induction hops generalizing more c with
  | zero =>
      rw [Graph.answer, Graph.compileFrom] at finite
      exact absurd rfl finite
  | succ hops ih =>
      cases answered : g.answer (hops + 1) c with
      | ok s => exact compileFrom_mono le answered
      | error e =>
          obtain ⟨more, rfl⟩ : ∃ n, more = n + 1 := ⟨more - 1, by omega⟩
          rw [← failure?_eq_some_iff] at answered ⊢
          rw [← answered, failure?_answer_succ, failure?_answer_succ]
          cases refused : g.refusal? c.type with
          | some e' => rfl
          | none =>
              rw [Option.none_or, Option.none_or]
              -- Only the calls up to the first that fails are looked at, and none of these
              -- reaches the bound: the one that fails would hand its error on.
              refine findSome?_congr_of_ne (b := .endless) ?_ ?_
              · intro inner called fine
                rw [Ne, failure?_eq_some_iff] at fine
                rw [Graph.hopsInside] at fine ⊢
                rw [Graph.hopsInside]
                split at fine
                · next within =>
                    rw [if_pos within, if_pos within, ih (Nat.le_of_succ_le_succ le) fine]
                · next within => rw [if_neg within, if_neg within]
              · rw [failure?_answer_succ, refused, Option.none_or] at answered
                rw [answered]
                rintro ⟨rfl⟩
                exact finite (failure?_eq_some_iff.1
                  (by rw [failure?_answer_succ, refused, Option.none_or, answered]))

end RouteContract.Shape
