import RouteContract.Proofs.Data.Result
import RouteContract.Proofs.Data.Table
import RouteContract.Shape.Compilation

/-!
# How a type is expanded

One step of compilation expands a type into a schema, given the schemas of its parts. The step is
written down once, as a relation with one rule for each shape (`Expands`), and compilation is this
step taken at the type and at all its parts (`compileFrom_succ_iff`). Facts about compiled schemas
are proved by induction on the expansion (`compile_induction`), and none of them opens the compiler
again.

The bound on the hops between two object types shows nowhere: a schema that is compiled under one
bound is compiled under every larger one (`compileFrom_mono`).
-/

set_option autoImplicit false

namespace RouteContract.Shape

open RouteContract

/-! ## Parts of an object type -/

/-- The properties of an object type that take part in its schema. -/
def participating (properties : List Property) : List Property :=
  properties.filter fun p => !p.isIgnored

/-- The names that an object type requires. -/
def requiredNames (properties : List Property) : List String :=
  ((participating properties).filter fun p => !p.isOptional).map (·.name)

/-- The schema of a property, given that of its type. -/
def Property.fragment (p : Property) (schema : Json) : Json :=
  if p.isSelfTyped then .obj p.annotations else annotated p.annotations schema

/-- The schemas of properties under their names, given those of their types. -/
def propertyEntries (properties : List Property) (schemas : List Json) : List (String × Json) :=
  (participating properties).zipWith (fun p schema => (p.name, p.fragment schema)) schemas

/-! ## Parts of a union -/

/-- The kind of a union of texts or of numbers, which becomes one enumeration. -/
def Graph.collapsed? (g : Graph) (members : List TypeId) : Option ScalarKind :=
  if !members.isEmpty && members.all (g.isLiteral .string) then some .string
  else if !members.isEmpty && members.all (g.isLiteral .number) then some .number
  else none

/-- The members of a union that have branches of their own. -/
def Graph.branches (g : Graph) (members : List TypeId) : List TypeId :=
  members.filter fun m => !g.isLiteral .boolean m

/-- The branch of the boolean literals of a union, if there are any. -/
def Graph.folded (g : Graph) (members : List TypeId) : List Json :=
  let booleans := members.filter (g.isLiteral .boolean)
  if booleans.isEmpty then [] else [booleanBranch (booleans.map g.literalValue)]

/-! ## One step of compilation -/

/-- The object types that are being expanded inside an object type. -/
def enter (visited : Visited) (t : TypeId) (path : List String) : Visited := visited ++ [⟨t, path⟩]

/-- Parts of a type at their paths, with a schema for each. -/
def EachPart (sub : List String → TypeId → Json → Prop) (path : Nat → List String)
    (parts : List TypeId) (schemas : List Json) : Prop :=
  schemas.length = parts.length ∧
    ∀ (i : Nat) (u : TypeId) (s : Json),
      parts[i]? = some u → schemas[i]? = some s → sub (path i) u s

/-- The properties of an object type, with a schema for each that is not its own annotations. -/
def EachProperty (sub : List String → TypeId → Json → Prop) (path : List String)
    (properties : List Property) (schemas : List Json) : Prop :=
  schemas.length = (participating properties).length ∧
    ∀ (i : Nat) (p : Property) (s : Json), (participating properties)[i]? = some p →
      schemas[i]? = some s → p.isSelfTyped = false →
      sub (path ++ ["properties", p.name]) p.type s

/-- What an object type says about members that it does not declare. -/
def IndexPart (sub : List String → TypeId → Json → Prop) (path : List String)
    (index : Option TypeId) (additional : Json) : Prop :=
  match index with
  | none => additional = .bool false
  | some u => sub (path ++ ["additionalProperties"]) u additional

/-- What an object type expands to, given the schemas of its parts: a reference when it is being
expanded already, and otherwise its required names, its properties and what it says about others. -/
def ExpandsObject (sub : Visited → List String → TypeId → Json → Prop) (visited : Visited)
    (path : List String) (t : TypeId) (properties : List Property) (index : Option TypeId)
    (s : Json) : Prop :=
  match visited.find? (·.type == t) with
  | some entry => s = .obj [("$ref", .str (Pointer.fragment entry.path))]
  | none =>
      ∃ schemas additional,
        EachProperty (sub (enter visited t path)) path properties schemas ∧
        IndexPart (sub (enter visited t path)) path index additional ∧
        s = objectSchema additional (requiredNames properties)
          (Table.ofList (propertyEntries properties schemas))

/-- What a union expands to: one enumeration, or a branch for each member but the boolean literals,
which have one branch together. -/
def ExpandsUnion (g : Graph) (sub : List String → TypeId → Json → Prop) (path : List String)
    (members : List TypeId) (s : Json) : Prop :=
  match g.collapsed? members with
  | some kind =>
      ∃ values, orderedValues (members.map g.literalValue) = .ok values ∧
        s = .obj [("type", .str kind.name), ("enum", .arr values)]
  | none =>
      ∃ schemas,
        EachPart sub (fun i => path ++ ["anyOf", toString i]) (g.branches members) schemas ∧
        s = .obj [("anyOf", .arr (schemas ++ g.folded members))]

/-- A type expands to a schema, the schemas of its parts being given. -/
def Expands (g : Graph) (sub : Visited → List String → TypeId → Json → Prop) (visited : Visited)
    (path : List String) (t : TypeId) (s : Json) : Prop :=
  match g.shape t with
  | .scalar kind => s = .obj [("type", .str kind.name)]
  | .literal kind value => s = .obj [("type", .str kind.name), ("enum", .arr [value])]
  | .array element =>
      ∃ items, sub visited (path ++ ["items"]) element items ∧
        s = .obj [("type", .str "array"), ("items", items)]
  | .tuple elements =>
      ∃ items, EachPart (sub visited) (fun i => path ++ ["items", toString i]) elements items ∧
        s = .obj [("type", .str "array"), ("items", .arr items)]
  | .object properties index _ => ExpandsObject sub visited path t properties index s
  | .union members => ExpandsUnion g (sub visited) path members s
  | .intersection members =>
      ∃ schemas, EachPart (sub visited) (fun _ => path) members schemas ∧
        s = .obj (schemas.foldl intersectWith closedObject)
  | .enumeration values _ => s = enumerationSchema values
  | .null => s = .obj [("type", .str "null")]
  | .any => s = .obj []
  | .undescribed _ => False
  | .bare => False

theorem EachPart.imp {sub sub' : List String → TypeId → Json → Prop} {paths : Nat → List String}
    {parts : List TypeId} {schemas : List Json} (h : EachPart sub paths parts schemas)
    (f : ∀ path u s, sub path u s → sub' path u s) : EachPart sub' paths parts schemas :=
  ⟨h.1, fun i u s hu hs => f _ _ _ (h.2 i u s hu hs)⟩

section Mono

variable {g : Graph} {visited : Visited} {path : List String} {t : TypeId} {s : Json}

/-- An expansion stays one when the parts are related by less, among the same object types and
inside the type itself. -/
theorem Expands.imp {sub sub' : Visited → List String → TypeId → Json → Prop}
    (h : Expands g sub visited path t s)
    (same : ∀ path u s, sub visited path u s → sub' visited path u s)
    (inside : g.isObject t = true → visited.any (·.type == t) = false →
      ∀ path' u s, sub (enter visited t path) path' u s → sub' (enter visited t path) path' u s) :
    Expands g sub' visited path t s := by
  cases shape : g.shape t with
  | array element =>
      simp only [Expands, shape] at h ⊢
      obtain ⟨items, inner, rfl⟩ := h
      exact ⟨items, same _ _ _ inner, rfl⟩
  | tuple elements =>
      simp only [Expands, shape] at h ⊢
      obtain ⟨items, inner, rfl⟩ := h
      exact ⟨items, inner.imp same, rfl⟩
  | object properties index name =>
      simp only [Expands, shape, ExpandsObject] at h ⊢
      cases entered : visited.find? (·.type == t) with
      | some entry => simpa only [entered] using h
      | none =>
          simp only [entered] at h ⊢
          obtain ⟨schemas, additional, declared, indexed, rfl⟩ := h
          have isObject : g.isObject t = true := by rw [Graph.isObject, shape]
          have isNew : visited.any (·.type == t) = false := by
            simpa using List.find?_eq_none.1 entered
          have step := inside isObject isNew
          refine ⟨schemas, additional, ⟨declared.1, fun i p s hp hs typed =>
            step _ _ _ (declared.2 i p s hp hs typed)⟩, ?_, rfl⟩
          cases index with
          | none => exact indexed
          | some u => exact step _ _ _ indexed
  | union members =>
      simp only [Expands, shape, ExpandsUnion] at h ⊢
      cases collapsed : g.collapsed? members with
      | some kind => simpa only [collapsed] using h
      | none =>
          simp only [collapsed] at h ⊢
          obtain ⟨schemas, inner, rfl⟩ := h
          exact ⟨schemas, inner.imp same, rfl⟩
  | intersection members =>
      simp only [Expands, shape] at h ⊢
      obtain ⟨schemas, inner, rfl⟩ := h
      exact ⟨schemas, inner.imp same, rfl⟩
  | scalar | literal | enumeration | null | any =>
      simpa only [Expands, shape] using h
  | undescribed | bare => simp only [Expands, shape] at h

end Mono

/-! ## Walking lists of parts -/

theorem mapWithIndex_eq_ok_iff {α β ε : Type} {f : Nat → α → Except ε β} {start : Nat}
    {xs : List α} {ys : List β} :
    mapWithIndex f start xs = .ok ys ↔
      ys.length = xs.length ∧
        ∀ (i : Nat) (x : α) (y : β), xs[i]? = some x → ys[i]? = some y →
          f (start + i) x = .ok y := by
  induction xs generalizing start ys with
  | nil =>
      constructor
      · intro h
        cases h
        exact ⟨rfl, fun i x y hx => by simp at hx⟩
      · rintro ⟨length, -⟩
        cases List.length_eq_zero_iff.1 length
        rfl
  | cons x rest ih =>
      rw [mapWithIndex]
      constructor
      · intro h
        cases hx : f start x with
        | error e => simp [hx] at h
        | ok y =>
            simp only [hx] at h
            obtain ⟨more, hmore, rfl⟩ := map_eq_ok_iff.1 h
            obtain ⟨length, each⟩ := ih.1 hmore
            refine ⟨by simp [length], fun i x' y' hx' hy' => ?_⟩
            cases i with
            | zero =>
                simp only [List.getElem?_cons_zero, Option.some.injEq] at hx' hy'
                subst hx' hy'
                exact hx
            | succ i =>
                rw [List.getElem?_cons_succ] at hx' hy'
                rw [Nat.add_comm i 1, ← Nat.add_assoc]
                exact each i x' y' hx' hy'
      · rintro ⟨length, each⟩
        cases ys with
        | nil => simp at length
        | cons y more =>
            have first : f start x = .ok y := each 0 x y rfl rfl
            have tail : mapWithIndex f (start + 1) rest = .ok more := by
              refine ih.2 ⟨by simpa using length, fun i x' y' hx' hy' => ?_⟩
              rw [Nat.add_assoc, Nat.add_comm 1 i]
              exact each (i + 1) x' y' hx' hy'
            simp only [first, tail, Except.map]

theorem foldUntilError_eq_ok_iff {α β ε σ : Type} {f : α → Except ε β} {add : σ → β → σ}
    {start final : σ} {xs : List α} :
    foldUntilError (fun done x => (f x).map (add done)) start xs = .ok final ↔
      ∃ ys : List β, ys.length = xs.length ∧
        (∀ (i : Nat) (x : α) (y : β), xs[i]? = some x → ys[i]? = some y → f x = .ok y) ∧
        ys.foldl add start = final := by
  induction xs generalizing start with
  | nil =>
      constructor
      · intro h
        cases h
        exact ⟨[], rfl, fun i x y hx => by simp at hx, rfl⟩
      · rintro ⟨ys, length, -, rfl⟩
        cases List.length_eq_zero_iff.1 length
        rfl
  | cons x rest ih =>
      rw [foldUntilError]
      constructor
      · intro h
        cases hx : f x with
        | error e => simp [hx, Except.map] at h
        | ok y =>
            simp only [hx, Except.map] at h
            obtain ⟨ys, length, each, result⟩ := ih.1 h
            refine ⟨y :: ys, by simp [length], fun i x' y' hx' hy' => ?_, result⟩
            cases i with
            | zero =>
                simp only [List.getElem?_cons_zero, Option.some.injEq] at hx' hy'
                subst hx' hy'
                exact hx
            | succ i => exact each i x' y' hx' hy'
      · rintro ⟨ys, length, each, result⟩
        cases ys with
        | nil => simp at length
        | cons y more =>
            have first : f x = .ok y := each 0 x y rfl rfl
            simp only [first, Except.map]
            exact ih.2 ⟨more, by simpa using length, fun i => each (i + 1), result⟩

/-! ## Walking the properties of an object type -/

theorem participating_cons_of_ignored {p : Property} (h : p.isIgnored = true)
    (rest : List Property) : participating (p :: rest) = participating rest := by
  rw [participating, List.filter_cons_of_neg (by simp [h])]
  rfl

theorem participating_cons {p : Property} (h : p.isIgnored = false) (rest : List Property) :
    participating (p :: rest) = p :: participating rest := by
  rw [participating, List.filter_cons_of_pos (by simp [h])]
  rfl

theorem requiredNames_cons {p : Property} (h : p.isIgnored = false) (rest : List Property) :
    requiredNames (p :: rest) =
      (if p.isOptional then [] else [p.name]) ++ requiredNames rest := by
  rw [requiredNames, participating_cons h]
  cases optional : p.isOptional with
  | true =>
      rw [List.filter_cons_of_neg (by simp [optional]), if_pos rfl]
      rfl
  | false =>
      rw [List.filter_cons_of_pos (by simp [optional]), if_neg Bool.false_ne_true]
      rfl

theorem propertyEntries_cons {p : Property} (h : p.isIgnored = false) (rest : List Property)
    (s : Json) (schemas : List Json) :
    propertyEntries (p :: rest) (s :: schemas) =
      (p.name, p.fragment s) :: propertyEntries rest schemas := by
  rw [propertyEntries, participating_cons h, List.zipWith_cons_cons]
  rfl

/-- What the properties of an object type add to what is required and declared before them. -/
def addProperty (compile : List String → TypeId → Except CompileError Json) (path : List String)
    (done : List String × Table Json) (p : Property) :
    Except CompileError (List String × Table Json) :=
  if p.isIgnored then .ok done
  else
    let required := if p.isOptional then done.1 else done.1 ++ [p.name]
    if p.isSelfTyped then .ok (required, Table.put done.2 p.name (.obj p.annotations))
    else
      (compile (path ++ ["properties", p.name]) p.type).map fun schema =>
        (required, Table.put done.2 p.name (annotated p.annotations schema))

theorem addProperty_eq_ok_iff {compile : List String → TypeId → Except CompileError Json}
    {path : List String} {done next : List String × Table Json} {p : Property}
    (kept : p.isIgnored = false) :
    addProperty compile path done p = .ok next ↔
      ∃ s, (p.isSelfTyped = false → compile (path ++ ["properties", p.name]) p.type = .ok s) ∧
        next = (done.1 ++ (if p.isOptional then [] else [p.name]),
          Table.put done.2 p.name (p.fragment s)) := by
  have required : (if p.isOptional then done.1 else done.1 ++ [p.name]) =
      done.1 ++ (if p.isOptional then [] else [p.name]) := by
    cases p.isOptional <;> simp
  rw [addProperty, if_neg (by simp [kept])]
  simp only [required]
  cases typed : p.isSelfTyped with
  | true =>
      rw [if_pos rfl]
      constructor
      · intro h
        cases h
        exact ⟨.null, nofun, by rw [Property.fragment, if_pos typed]⟩
      · rintro ⟨s, -, rfl⟩
        rw [Property.fragment, if_pos typed]
  | false =>
      have fragment (s : Json) : p.fragment s = annotated p.annotations s := by
        rw [Property.fragment, typed]
        rfl
      rw [if_neg Bool.false_ne_true, map_eq_ok_iff]
      simp only [fragment, forall_const]
      exact exists_congr fun s => and_congr_right fun _ => eq_comm

theorem foldUntilError_addProperty {compile : List String → TypeId → Except CompileError Json}
    {path : List String} {done final : List String × Table Json} {properties : List Property} :
    foldUntilError (addProperty compile path) done properties = .ok final ↔
      ∃ schemas, EachProperty (fun path u s => compile path u = .ok s) path properties schemas ∧
        final = (done.1 ++ requiredNames properties,
          Table.putAll done.2 (propertyEntries properties schemas)) := by
  induction properties generalizing done with
  | nil =>
      constructor
      · intro h
        cases h
        exact ⟨[], ⟨rfl, fun i p s hp => by simp [participating] at hp⟩, by
          simp [requiredNames, participating, propertyEntries, Table.putAll_nil]⟩
      · rintro ⟨schemas, ⟨length, -⟩, rfl⟩
        cases List.length_eq_zero_iff.1 length
        simp [foldUntilError, requiredNames, participating, propertyEntries, Table.putAll_nil]
  | cons p rest ih =>
      rw [foldUntilError]
      cases kept : p.isIgnored with
      | true =>
          have skip : addProperty compile path done p = .ok done := by rw [addProperty, if_pos kept]
          simp only [skip, ih, EachProperty, requiredNames, propertyEntries,
            participating_cons_of_ignored kept]
      | false =>
          constructor
          · intro h
            cases hp : addProperty compile path done p with
            | error e => simp [hp] at h
            | ok next =>
                simp only [hp] at h
                obtain ⟨s, typed, rfl⟩ := (addProperty_eq_ok_iff kept).1 hp
                obtain ⟨schemas, ⟨length, each⟩, rfl⟩ := ih.1 h
                refine ⟨s :: schemas, ⟨by simp [participating_cons kept, length], ?_⟩, ?_⟩
                · intro i q s' hq hs'
                  rw [participating_cons kept] at hq
                  cases i with
                  | zero =>
                      simp only [List.getElem?_cons_zero, Option.some.injEq] at hq hs'
                      subst hq hs'
                      exact typed
                  | succ i => exact each i q s' hq hs'
                · rw [requiredNames_cons kept, propertyEntries_cons kept, Table.putAll_cons,
                    List.append_assoc]
          · rintro ⟨schemas, ⟨length, each⟩, rfl⟩
            rw [participating_cons kept] at length each
            cases schemas with
            | nil => simp at length
            | cons s more =>
                have first : addProperty compile path done p = .ok _ :=
                  (addProperty_eq_ok_iff kept).2 ⟨s, each 0 p s rfl rfl, rfl⟩
                simp only [first]
                refine ih.2 ⟨more, ⟨by simpa using length, fun i => each (i + 1)⟩, ?_⟩
                rw [requiredNames_cons kept, propertyEntries_cons kept, Table.putAll_cons,
                  List.append_assoc]

/-! ## Compilation is expansion -/

/-- The types that may be passed before the next object type: one fewer among the same object types,
and all of them inside another one. -/
def Graph.hopsInside (g : Graph) (hops : Nat) (visited inner : Visited) : Nat :=
  if inner.length = visited.length then hops else g.size + 1

theorem Graph.hopsInside_self (g : Graph) (hops : Nat) (visited : Visited) :
    g.hopsInside hops visited visited = hops :=
  if_pos rfl

theorem Graph.hopsInside_enter (g : Graph) (hops : Nat) (visited : Visited) (t : TypeId)
    (path : List String) : g.hopsInside hops visited (enter visited t path) = g.size + 1 :=
  if_neg (by simp [enter])

/-- Compilation, as a relation between a type at a path and its schema. -/
def Graph.CompilesWithin (g : Graph) (hops : Visited → Nat) (visited : Visited)
    (path : List String) (t : TypeId) (s : Json) : Prop :=
  g.compileFrom (hops visited) visited path t = .ok s

section Unfolding

variable {g : Graph} {hops : Nat} {visited : Visited} {path : List String} {t : TypeId} {s : Json}

theorem eachPart_of_mapWithIndex {elements : List TypeId} {items : List Json} {key : String}
    (h : mapWithIndex
      (fun i element => g.compileFrom hops visited (path ++ [key, toString i]) element) 0 elements =
        .ok items) :
    EachPart (g.CompilesWithin (g.hopsInside hops visited) visited)
      (fun i => path ++ [key, toString i]) elements items := by
  obtain ⟨length, each⟩ := mapWithIndex_eq_ok_iff.1 h
  refine ⟨length, fun i u s hu hs => ?_⟩
  rw [Graph.CompilesWithin, g.hopsInside_self]
  simpa only [Nat.zero_add] using each i u s hu hs

theorem mapWithIndex_of_eachPart {elements : List TypeId} {items : List Json} {key : String}
    (h : EachPart (g.CompilesWithin (g.hopsInside hops visited) visited)
      (fun i => path ++ [key, toString i]) elements items) :
    mapWithIndex
      (fun i element => g.compileFrom hops visited (path ++ [key, toString i]) element) 0 elements =
        .ok items := by
  refine mapWithIndex_eq_ok_iff.2 ⟨h.1, fun i u s hu hs => ?_⟩
  have part := h.2 i u s hu hs
  rw [Graph.CompilesWithin, g.hopsInside_self] at part
  simpa only [Nat.zero_add] using part

theorem compilesWithin_enter {path' : List String} {u : TypeId} {s' : Json} :
    g.CompilesWithin (g.hopsInside hops visited) (enter visited t path) path' u s' ↔
      g.compileFrom (g.size + 1) (enter visited t path) path' u = .ok s' := by
  rw [Graph.CompilesWithin, g.hopsInside_enter]

variable (hops) in
/-- The properties of an object type that is entered have schemas exactly when they are all compiled
inside it. -/
theorem declaredWithin_iff {properties : List Property}
    {declared : Except CompileError (List String × Table Json)}
    (folded : foldUntilError
      (addProperty (g.compileFrom (g.size + 1) (enter visited t path)) path) ([], []) properties =
        declared) (result : List String × Table Json) :
    declared = .ok result ↔
      ∃ schemas,
        EachProperty (g.CompilesWithin (g.hopsInside hops visited) (enter visited t path)) path
          properties schemas ∧
        result = (requiredNames properties, Table.ofList (propertyEntries properties schemas)) := by
  rw [← folded, foldUntilError_addProperty]
  simp only [EachProperty, compilesWithin_enter, List.nil_append, Table.ofList]

/-- **One step of compilation is one expansion.** -/
theorem compileFrom_succ_iff :
    g.compileFrom (hops + 1) visited path t = .ok s ↔
      Expands g (g.CompilesWithin (g.hopsInside hops visited)) visited path t s := by
  have same (path : List String) (u : TypeId) (s : Json) :
      g.CompilesWithin (g.hopsInside hops visited) visited path u s ↔
        g.compileFrom hops visited path u = .ok s := by
    rw [Graph.CompilesWithin, g.hopsInside_self]
  rw [Graph.compileFrom]
  split <;> rename_i shape <;> simp only [Expands, shape]
  case h_1 => rw [Except.ok.injEq, eq_comm]
  case h_2 => rw [Except.ok.injEq, eq_comm]
  case h_3 element =>
      rw [map_eq_ok_iff]
      exact exists_congr fun items => and_congr (same _ _ _).symm eq_comm
  case h_4 elements =>
      rw [map_eq_ok_iff]
      exact exists_congr fun items =>
        and_congr ⟨eachPart_of_mapWithIndex, mapWithIndex_of_eachPart⟩ eq_comm
  case h_5 properties index name =>
      rw [ExpandsObject]
      split <;> rename_i entered
      · simp only [entered]
        rw [Except.ok.injEq, eq_comm]
      · simp only [entered]
        generalize folded : foldUntilError _ _ properties = declared
        change foldUntilError (addProperty (g.compileFrom (g.size + 1) (enter visited t path)) path)
          ([], []) properties = _ at folded
        have declared_iff := declaredWithin_iff hops folded
        cases declared with
        | error e =>
            simp only [reduceCtorEq, false_iff]
            rintro ⟨schemas, additional, each, -⟩
            cases (declared_iff _).2 ⟨schemas, each, rfl⟩
        | ok result =>
            obtain ⟨known, each, result_eq⟩ := (declared_iff result).1 rfl
            cases result_eq
            constructor
            · intro h
              cases index with
              | none => exact ⟨known, .bool false, each, rfl, (Except.ok.inj h).symm⟩
              | some u =>
                  obtain ⟨additional, compiled, rfl⟩ := map_eq_ok_iff.1 h
                  exact ⟨known, additional, each, compilesWithin_enter.2 compiled, rfl⟩
            · rintro ⟨schemas, additional, each', indexed, rfl⟩
              have result_eq := Except.ok.inj ((declared_iff _).2 ⟨schemas, each', rfl⟩)
              rw [(Prod.mk.inj result_eq).2]
              cases index with
              | none =>
                  cases indexed
                  rfl
              | some u =>
                  exact map_eq_ok_iff.2 ⟨additional, compilesWithin_enter.1 indexed, rfl⟩
  case h_6 => rw [Except.ok.injEq, eq_comm]
  case h_7 members =>
      rw [ExpandsUnion, Graph.collapsed?]
      split
      · simp only [map_eq_ok_iff]
        exact exists_congr fun values => and_congr_right fun _ => eq_comm
      · split
        · simp only [map_eq_ok_iff]
          exact exists_congr fun values => and_congr_right fun _ => eq_comm
        · rw [map_eq_ok_iff]
          exact exists_congr fun schemas =>
            and_congr ⟨eachPart_of_mapWithIndex, mapWithIndex_of_eachPart⟩ eq_comm
  case h_8 members =>
      rw [map_eq_ok_iff]
      constructor
      · rintro ⟨result, folded, rfl⟩
        obtain ⟨schemas, length, each, rfl⟩ := foldUntilError_eq_ok_iff.1 folded
        exact ⟨schemas, ⟨length, fun i u s hu hs => (same _ _ _).2 (each i u s hu hs)⟩, rfl⟩
      · rintro ⟨schemas, ⟨length, each⟩, rfl⟩
        exact ⟨_, foldUntilError_eq_ok_iff.2
          ⟨schemas, length, fun i u s hu hs => (same _ _ _).1 (each i u s hu hs), rfl⟩, rfl⟩
  case h_9 => rw [Except.ok.injEq, eq_comm]
  case h_10 => rw [Except.ok.injEq, eq_comm]
  case h_11 => simp
  case h_12 => simp

end Unfolding

/-! ## Induction on compilation -/

section Induction

variable {g : Graph}

/-- A larger bound on the hops compiles to the same schema. -/
theorem compileFrom_mono {hops more : Nat} {visited : Visited} {path : List String} {t : TypeId}
    {s : Json} (le : hops ≤ more) (h : g.compileFrom hops visited path t = .ok s) :
    g.compileFrom more visited path t = .ok s := by
  cases hops with
  | zero => simp [Graph.compileFrom] at h
  | succ hops =>
      cases more with
      | zero => exact absurd le (Nat.not_succ_le_zero hops)
      | succ more =>
          refine compileFrom_succ_iff.2 ((compileFrom_succ_iff.1 h).imp ?_ ?_)
          · intro path' u s' part
            rw [Graph.CompilesWithin, g.hopsInside_self] at part ⊢
            exact compileFrom_mono (Nat.le_of_succ_le_succ le) part
          · intro isObject isNew path' u s' part
            rwa [Graph.CompilesWithin, g.hopsInside_enter] at part ⊢
termination_by hops

/-- A schema that is compiled under some bound is the compiled schema. -/
theorem compile_of_compileFrom {hops : Nat} {visited : Visited} {path : List String} {t : TypeId}
    {s : Json} (le : hops ≤ g.size + 1) (h : g.compileFrom hops visited path t = .ok s) :
    g.compile t path visited = .ok s :=
  compileFrom_mono le h

theorem compileFrom_induction {motive : Visited → List String → TypeId → Json → Prop}
    (step : ∀ visited path t s,
      Expands g (fun visited path u s => g.compile u path visited = .ok s ∧ motive visited path u s)
        visited path t s → motive visited path t s)
    {hops : Nat} {visited : Visited} {path : List String} {t : TypeId} {s : Json}
    (le : hops ≤ g.size + 1) (h : g.compileFrom hops visited path t = .ok s) :
    motive visited path t s := by
  cases hops with
  | zero => simp [Graph.compileFrom] at h
  | succ hops =>
      refine step visited path t s ((compileFrom_succ_iff.1 h).imp ?_ ?_)
      · intro path' u s' part
        rw [Graph.CompilesWithin, g.hopsInside_self] at part
        have le' : hops ≤ g.size + 1 := Nat.le_of_succ_le le
        exact ⟨compile_of_compileFrom le' part, compileFrom_induction step le' part⟩
      · intro isObject isNew path' u s' part
        rw [Graph.CompilesWithin, g.hopsInside_enter] at part
        have fewer := Graph.freshCount_lt path isObject isNew
        exact ⟨part, compileFrom_induction step (Nat.le_refl _) part⟩
termination_by (g.freshCount visited, hops)
decreasing_by
  · simp only [Prod.lex_def, true_and]
    omega
  · simp only [Prod.lex_def, enter]
    omega

/-- **Induction on compilation**: what holds of an expansion whenever it holds of its parts holds of
every compiled schema. -/
theorem compile_induction {motive : Visited → List String → TypeId → Json → Prop}
    (step : ∀ visited path t s,
      Expands g (fun visited path u s => g.compile u path visited = .ok s ∧ motive visited path u s)
        visited path t s → motive visited path t s)
    {visited : Visited} {path : List String} {t : TypeId} {s : Json}
    (h : g.compile t path visited = .ok s) : motive visited path t s :=
  compileFrom_induction step (Nat.le_refl _) h

/-- A compiled schema is the expansion of its type. -/
theorem expands_of_compile {visited : Visited} {path : List String} {t : TypeId} {s : Json}
    (h : g.compile t path visited = .ok s) :
    Expands g (fun visited path u s => g.compile u path visited = .ok s) visited path t s :=
  (compileFrom_succ_iff.1 h).imp
    (fun _ _ _ part => compile_of_compileFrom (Nat.le_succ _)
      (by rwa [Graph.CompilesWithin, g.hopsInside_self] at part))
    (fun _ _ _ _ _ part => by rwa [Graph.CompilesWithin, g.hopsInside_enter] at part)

end Induction

end RouteContract.Shape
