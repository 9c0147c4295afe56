import Mathlib.Data.List.Forall2
import RouteContract.Proofs.Data.Grouping
import RouteContract.Proofs.Data.Result
import RouteContract.Proofs.Route.Reading
import RouteContract.Registry.Basic

/-!
# The first declared route wins

Generation walks through sources, controllers, actions and routes and puts each route under its
method; a lookup walks through the routes of one method. Both are stated here in terms of one flat
list, the routes in the order of declaration (`servedRoutes`): the snapshot is that list grouped by
method, and a lookup finds the first route in it with the method whose pattern matches. Together
they give the main result `generateFrom_eq_ok_iff`. Generation succeeds as soon as the introspector
tells every source and every action with a route has a contract; nothing is asked of the others.
-/

set_option autoImplicit false

namespace RouteContract.Registry

open RouteContract

/-! ## What is declared -/

/-- An action with the controller and the types that it is declared with. -/
structure PlacedAction where
  types : Shape.Graph
  owner : String
  action : DeclaredAction

/-- The actions of a declaration, controller by controller. -/
def placedActions (d : Declaration) : List PlacedAction :=
  d.controllers.flatMap fun c => c.actions.map fun a => ⟨d.types, c.owner, a⟩

/-- The actions of declarations that routes lead to. -/
def routedActions (declarations : List Declaration) : List PlacedAction :=
  (declarations.flatMap placedActions).filter fun a => !a.action.routes.isEmpty

/-- What an action is to its callers. -/
def HasContract (a : PlacedAction) (contract : Action) : Prop :=
  a.action.toContract a.types a.owner = .ok contract

/-- A declared route and the contract of the action that it leads to. -/
structure ServedRoute where
  route : DeclaredRoute
  action : Action

namespace ServedRoute

/-- The method under which a route is served. -/
def method (r : ServedRoute) : String := Text.Unicode.lowercase r.route.method

/-- The entry of a route in a snapshot. -/
def entry (r : ServedRoute) : RouteEntry := entryOf r.action r.route

end ServedRoute

/-- The routes of actions, given the contracts of the actions, in the order of declaration. -/
def servedRoutes (actions : List PlacedAction) (contracts : List Action) : List ServedRoute :=
  (actions.zip contracts).flatMap fun a => a.1.action.routes.map fun route => ⟨route, a.2⟩

/-- What an introspector tells of sources that it is asked for one after the other. -/
def Introspector.tell {σ ε : Type} (introspector : Introspector σ ε) :
    List String → σ → Except ε (List Declaration) × σ
  | [], memory => (.ok [], memory)
  | source :: rest, memory =>
      match introspector.describe source memory with
      | (.error e, memory) => (.error e, memory)
      | (.ok declaration, memory) =>
          let (later, memory) := introspector.tell rest memory
          (later.map (declaration :: ·), memory)

/-! ## Generation -/

/-- Routes with those of one more action. -/
def addPlaced (buckets : Buckets) (a : PlacedAction) : Except BuildError Buckets :=
  addAction a.types a.owner buckets a.action

/-- Routes with more at the ends of their methods. -/
def addServed (buckets : Buckets) (routes : List ServedRoute) : Buckets :=
  routes.foldl (fun buckets r => Table.append buckets r.method r.entry) buckets

theorem addServed_append (buckets : Buckets) (routes more : List ServedRoute) :
    addServed buckets (routes ++ more) = addServed (addServed buckets routes) more :=
  List.foldl_append

/-- An action without routes is passed over, whatever it is declared with. -/
theorem addPlaced_unrouted {a : PlacedAction} (unrouted : a.action.routes.isEmpty = true)
    (buckets : Buckets) : addPlaced buckets a = .ok buckets := by
  rw [addPlaced, addAction, if_pos unrouted]

/-- The routes of an action are added when the action has a contract. -/
theorem addPlaced_eq_ok_iff {a : PlacedAction} (isRouted : a.action.routes.isEmpty = false)
    {buckets result : Buckets} :
    addPlaced buckets a = .ok result ↔ ∃ contract, HasContract a contract ∧
      addServed buckets (a.action.routes.map fun route => ⟨route, contract⟩) = result := by
  rw [addPlaced, addAction, isRouted, if_neg Bool.false_ne_true, map_eq_ok_iff]
  refine exists_congr fun contract => and_congr Iff.rfl ?_
  rw [addServed, List.foldl_map]
  exact Iff.rfl

theorem foldlM_addPlaced_eq_ok_iff {actions : List PlacedAction} {buckets result : Buckets} :
    actions.foldlM addPlaced buckets = .ok result ↔
      ∃ contracts,
        List.Forall₂ HasContract (actions.filter fun a => !a.action.routes.isEmpty) contracts ∧
        addServed buckets
          (servedRoutes (actions.filter fun a => !a.action.routes.isEmpty) contracts) = result := by
  induction actions generalizing buckets with
  | nil =>
      constructor
      · intro h
        exact ⟨[], .nil, Except.ok.inj h⟩
      · rintro ⟨contracts, each, rfl⟩
        cases each
        rfl
  | cons a rest ih =>
      rw [List.foldlM_cons]
      cases routed : a.action.routes.isEmpty with
      | true =>
          rw [addPlaced_unrouted routed, List.filter_cons_of_neg (by simp [routed])]
          exact ih
      | false =>
          rw [List.filter_cons_of_pos (by simp [routed])]
          constructor
          · intro h
            cases added : addPlaced buckets a with
            | error e =>
                rw [added] at h
                exact nomatch h
            | ok next =>
                rw [added] at h
                obtain ⟨contract, has, rfl⟩ := (addPlaced_eq_ok_iff routed).1 added
                obtain ⟨contracts, each, same⟩ := ih.1 h
                refine ⟨contract :: contracts, .cons has each, ?_⟩
                rw [← same, ← addServed_append]
                rfl
          · rintro ⟨_, each, same⟩
            cases each with
            | cons has each =>
                rw [(addPlaced_eq_ok_iff routed).2 ⟨_, has, rfl⟩]
                refine ih.2 ⟨_, each, ?_⟩
                rw [← same, ← addServed_append]
                rfl

theorem addDeclaration_eq_foldlM (buckets : Buckets) (d : Declaration) :
    addDeclaration buckets d = (placedActions d).foldlM addPlaced buckets := by
  rw [addDeclaration, placedActions]
  induction d.controllers generalizing buckets with
  | nil => rfl
  | cons c rest ih =>
      rw [List.foldlM_cons, List.flatMap_cons, List.foldlM_append, List.foldlM_map, addController]
      refine congrArg _ ?_
      funext next
      exact ih next

section Generation

variable {σ ε : Type} {introspector : Introspector σ ε} {sources : List String} {memory memory' : σ}

theorem addSources_eq_ok_iff {buckets result : Buckets} :
    addSources introspector buckets sources memory = (.ok result, memory') ↔
      ∃ declarations, introspector.tell sources memory = (.ok declarations, memory') ∧
        (declarations.flatMap placedActions).foldlM addPlaced buckets = .ok result := by
  induction sources generalizing buckets memory with
  | nil =>
      rw [addSources, Introspector.tell]
      constructor
      · intro h
        cases h
        exact ⟨[], rfl, rfl⟩
      · rintro ⟨declarations, h, same⟩
        cases h
        cases same
        rfl
  | cons source rest ih =>
      rw [addSources, Introspector.tell]
      rcases introspector.describe source memory with ⟨_ | declaration, next⟩
      · constructor
        · exact fun h => nomatch h
        · exact fun ⟨_, h, _⟩ => nomatch h
      · simp only [addDeclaration_eq_foldlM]
        constructor
        · intro h
          cases added : (placedActions declaration).foldlM addPlaced buckets with
          | error e =>
              rw [added] at h
              exact nomatch h
          | ok onward =>
              rw [added] at h
              obtain ⟨declarations, told, same⟩ := ih.1 h
              refine ⟨declaration :: declarations, ?_, ?_⟩
              · rw [told]
                rfl
              · rw [List.flatMap_cons, List.foldlM_append, added]
                exact same
        · rintro ⟨declarations, told, same⟩
          rw [Prod.mk.injEq, map_eq_ok_iff] at told
          obtain ⟨⟨later, tells, rfl⟩, rfl⟩ := told
          rw [List.flatMap_cons, List.foldlM_append] at same
          cases added : (placedActions declaration).foldlM addPlaced buckets with
          | error e =>
              rw [added] at same
              exact nomatch same
          | ok onward =>
              rw [added] at same
              exact ih.2 ⟨later, Prod.ext tells rfl, same⟩

/-- **Generation groups the declared routes by method.** -/
theorem generate_eq_ok_iff {snapshot : Snapshot} :
    generate introspector sources memory = (.ok snapshot, memory') ↔
      ∃ declarations contracts,
        introspector.tell sources memory = (.ok declarations, memory') ∧
        List.Forall₂ HasContract (routedActions declarations) contracts ∧
        snapshot.routes = Table.grouped ServedRoute.method ServedRoute.entry
          (servedRoutes (routedActions declarations) contracts) := by
  have group (routes : List ServedRoute) :
      addServed [] routes = Table.grouped ServedRoute.method ServedRoute.entry routes :=
    Table.foldl_append_eq_grouped ServedRoute.method ServedRoute.entry routes
  rw [generate, Prod.mk.injEq, map_eq_ok_iff]
  constructor
  · rintro ⟨⟨buckets, found, rfl⟩, same⟩
    obtain ⟨declarations, told, added⟩ := addSources_eq_ok_iff.1 (Prod.ext found same)
    obtain ⟨contracts, each, rfl⟩ := foldlM_addPlaced_eq_ok_iff.1 added
    exact ⟨declarations, contracts, told, each, group _⟩
  · rintro ⟨declarations, contracts, told, each, same⟩
    have added := foldlM_addPlaced_eq_ok_iff.2 ⟨contracts, each, group _⟩
    have all := addSources_eq_ok_iff.2 ⟨declarations, told, added⟩
    rw [all]
    exact ⟨⟨_, rfl, congrArg Snapshot.mk same.symm⟩, rfl⟩

end Generation

/-! ## Lookup -/

/-- The parameters that a template reads from a path, by way of its stored matcher. -/
def parametersOf? (template path : String) : Option (Table (Option String)) :=
  (Route.parsePattern (Route.Matcher.ofTemplate template).encode).toOption.join.bind fun p =>
    Route.matchParameters? p path

/-- The first of the declared routes that serves a method and a path, with what it reads from the
path. -/
def firstDeclared? (routes : List ServedRoute) (method path : String) : Option Route.Match :=
  routes.findSome? fun r =>
    if r.method = Text.Unicode.lowercase method then
      (parametersOf? r.route.path (Route.routedPart path)).map fun params =>
        ⟨Text.Unicode.lowercase method, r.entry, params⟩
    else none

/-- One route is tried, and the later ones if it does not match. -/
theorem search_cons {entry : RouteEntry} {pattern? : Option Pattern} {path : String}
    (parsed : Route.parsePattern entry.pattern = .ok pattern?) (rest : List RouteEntry) :
    (Route.search path (entry :: rest)).result =
      match pattern?.bind fun p => Route.matchParameters? p path with
      | some params => .ok (some (entry, params))
      | none => (Route.search path rest).result := by
  rw [Route.search, parsed]
  cases pattern? with
  | none => rfl
  | some p =>
      simp only [Option.bind_some]
      cases Route.matchParameters? p path with
      | none => rfl
      | some params => rfl

/-- The stored matcher of a template is read, or it is skipped. -/
theorem exists_parsePattern_entry (r : ServedRoute) : ∃ pattern? : Option Pattern,
    Route.parsePattern r.entry.pattern = .ok pattern? ∧
      ∀ path, parametersOf? r.route.path path =
        pattern?.bind fun p => Route.matchParameters? p path := by
  obtain ⟨pattern?, parsed⟩ : ∃ pattern?,
      Route.parsePattern (Route.Matcher.ofTemplate r.route.path).encode = .ok pattern? :=
    ⟨_, Route.parsePattern_ofTemplate r.route.path⟩
  refine ⟨pattern?, parsed, fun path => ?_⟩
  rw [parametersOf?, parsed]
  rfl

theorem search_entries (path : String) (routes : List ServedRoute) :
    (Route.search path (routes.map ServedRoute.entry)).result =
      .ok (routes.findSome? fun r => (parametersOf? r.route.path path).map (r.entry, ·)) := by
  induction routes with
  | nil => rfl
  | cons r rest ih =>
      obtain ⟨pattern?, parsed, reads⟩ := exists_parsePattern_entry r
      rw [List.map_cons, search_cons parsed, List.findSome?_cons, reads]
      cases pattern?.bind fun p => Route.matchParameters? p path with
      | none => exact ih
      | some params => rfl

/-- **A lookup finds the first declared route.** -/
theorem lookup_grouped (routes : List ServedRoute) (method path : String) :
    (Route.lookup ⟨Table.grouped ServedRoute.method ServedRoute.entry routes⟩ method path).result =
      .ok (firstDeclared? routes method path) := by
  have bucket :
      Snapshot.forMethod ⟨Table.grouped ServedRoute.method ServedRoute.entry routes⟩ method =
        (routes.filter fun r => r.method == Text.Unicode.lowercase method).map ServedRoute.entry :=
    Table.getD_get?_grouped ..
  rw [Route.lookup, bucket, search_entries, firstDeclared?]
  refine congrArg Except.ok ?_
  clear bucket
  induction routes with
  | nil => rfl
  | cons r rest ih =>
      rw [List.filter_cons, List.findSome?_cons]
      by_cases same : r.method = Text.Unicode.lowercase method
      · rw [if_pos same, if_pos (beq_iff_eq.2 same), List.findSome?_cons]
        cases parametersOf? r.route.path (Route.routedPart path) with
        | none => exact ih
        | some params => rfl
      · rw [if_neg same, if_neg (by rwa [beq_iff_eq])]
        exact ih

/-- A registry that generates puts the snapshot in place. -/
theorem run_generateFrom_eq_ok_iff {σ ε : Type} {introspector : Introspector σ ε}
    {sources : List String} {s s' : State σ} {snapshot : Snapshot} :
    ((generateFrom introspector sources).run).run s = (.ok snapshot, s') ↔
      ∃ memory, generate introspector sources s.memory = (.ok snapshot, memory) ∧
        s' = { s with snapshot := some snapshot, memory := memory } := by
  show generateFrom introspector sources s = (.ok snapshot, s') ↔ _
  rw [generateFrom]
  rcases generate introspector sources s.memory with ⟨e | found, memory⟩
  · constructor
    · exact fun h => nomatch h
    · exact fun ⟨_, h, _⟩ => nomatch h
  · constructor
    · intro h
      cases h
      exact ⟨memory, rfl, rfl⟩
    · rintro ⟨memory', h, rfl⟩
      cases h
      rfl

/-- **Routing is exactly first-declared-wins.** A registry generates a snapshot exactly when the
introspector tells all sources and the actions to which routes lead have contracts, whatever the
others are declared with. The snapshot groups the declared routes by method, and each lookup finds
the first declared route that serves the method and reads the path. -/
theorem generateFrom_eq_ok_iff {σ ε : Type} (introspector : Introspector σ ε)
    (sources : List String) (s s' : State σ) (snapshot : Snapshot) :
    ((generateFrom introspector sources).run).run s = (.ok snapshot, s') ↔
      ∃ declarations contracts memory,
        introspector.tell sources s.memory = (.ok declarations, memory) ∧
        List.Forall₂ HasContract (routedActions declarations) contracts ∧
        s' = { s with snapshot := some snapshot, memory := memory } ∧
        snapshot.routes = Table.grouped ServedRoute.method ServedRoute.entry
          (servedRoutes (routedActions declarations) contracts) ∧
        ∀ method path, (Route.lookup snapshot method path).result =
          .ok (firstDeclared? (servedRoutes (routedActions declarations) contracts) method
            path) := by
  rw [run_generateFrom_eq_ok_iff]
  constructor
  · rintro ⟨memory, generated, rfl⟩
    obtain ⟨declarations, contracts, told, each, same⟩ := generate_eq_ok_iff.1 generated
    refine ⟨declarations, contracts, memory, told, each, rfl, same, fun method path => ?_⟩
    obtain ⟨routes⟩ := snapshot
    obtain rfl := same
    exact lookup_grouped _ method path
  · rintro ⟨declarations, contracts, memory, told, each, rfl, same, -⟩
    exact ⟨memory, generate_eq_ok_iff.2 ⟨declarations, contracts, told, each, same⟩, rfl⟩

end RouteContract.Registry
