import RouteContract.Proofs.OpenApi.Merge
import RouteContract.Proofs.Route.Lookup

/-!
# The operation that is advertised and the route that is taken

A method may have several routes with the same path. Lookups try them in order, so that the first of
them is taken wherever it accepts a request; the document shows the operation of the last one
(`advertises_last_takes_first`). The two are the same for a path that stands once under its method,
and need not be otherwise (`pairDocument_advertises_last`).
-/

set_option autoImplicit false

namespace RouteContract.OpenApi

open RouteContract Json Schema Route

/-! ## Routes of a method -/

/-- The first of several routes with a path. -/
def firstWith? (path : String) (entries : List RouteEntry) : Option RouteEntry :=
  entries.find? fun entry => entry.path == path

/-- The last of several routes with a path. -/
def lastWith? (path : String) (entries : List RouteEntry) : Option RouteEntry :=
  firstWith? path entries.reverse

section Routes

variable {path method : String} {entries : List RouteEntry} {entry : RouteEntry}

theorem exists_firstWith? (listed : entry ∈ entries) (same : entry.path = path) :
    ∃ first, firstWith? path entries = some first := by
  rw [← Option.isSome_iff_exists, firstWith?, List.find?_isSome]
  exact ⟨entry, listed, beq_iff_eq.2 same⟩

theorem exists_lastWith? (listed : entry ∈ entries) (same : entry.path = path) :
    ∃ last, lastWith? path entries = some last :=
  exists_firstWith? (List.mem_reverse.2 listed) same

/-- A path that stands once has one first and last route. -/
theorem eq_of_once {first last : RouteEntry}
    (once : (entries.filter fun entry => entry.path == path).length = 1)
    (isFirst : firstWith? path entries = some first)
    (isLast : lastWith? path entries = some last) : last = first := by
  obtain ⟨only, same⟩ := List.length_eq_one_iff.1 once
  rw [firstWith?, ← List.head?_filter, same] at isFirst
  rw [lastWith?, firstWith?, ← List.head?_filter, List.filter_reverse, same] at isLast
  cases isFirst
  cases isLast
  rfl

theorem lastRoute?_append (front back : List (String × RouteEntry)) :
    lastRoute? (front ++ back) path method =
      (lastRoute? back path method).or (lastRoute? front path method) := by
  simp only [lastRoute?, List.reverse_append, List.find?_append, Option.map_or]

/-- Among the routes of one method, the last with a path and a method. -/
theorem lastRoute?_bucket (name : String) (entries : List RouteEntry) :
    lastRoute? (entries.map (name, ·)) path method =
      if name = method then lastWith? path entries else none := by
  rw [lastRoute?, ← List.map_reverse, List.find?_map, Option.map_map, lastWith?, firstWith?]
  by_cases same : name = method
  · simp [same, Function.comp_def]
  · simp [same, Function.comp_def]

/-- Among all routes of a snapshot, the last with a path and a method is the last of the method with
the path. -/
theorem lastRoute?_entries {s : Snapshot} (distinct : (Table.keys s.routes).Nodup) :
    lastRoute? s.entries path method =
      lastWith? path ((Table.get? s.routes method).getD []) := by
  obtain ⟨routes⟩ := s
  simp only [Snapshot.entries] at distinct ⊢
  induction routes with
  | nil => rfl
  | cons bucket rest ih =>
      obtain ⟨name, entries⟩ := bucket
      rw [Table.keys, List.map_cons, List.nodup_cons] at distinct
      rw [List.flatMap_cons, lastRoute?_append, ih distinct.2, lastRoute?_bucket]
      by_cases same : name = method
      · subst same
        -- No later routes have the method.
        have once : Table.get? rest name = none := Table.get?_eq_none_iff.2 distinct.1
        rw [once, Table.get?_cons_self, if_pos rfl]
        rfl
      · rw [Table.get?_cons_of_ne same, if_neg same, Option.or_none]

/-! ## Lookups -/

/-- A lookup that finds a route has passed over the routes before it. -/
theorem passed_of_lookup {s : Snapshot} {request : String} {found : Match}
    (looked : (lookup s method request).result = .ok (some found)) :
    ∃ front back, s.forMethod method = front ++ found.entry :: back ∧
      (found.entry.accepted? (routedPart request)).isSome = true ∧
      ∀ earlier ∈ front, earlier.accepted? (routedPart request) = none := by
  have free : ¬ IsBarred (routedPart request) (s.forMethod method) := by
    intro barred
    rw [lookup, search_eq_error_iff.2 barred] at looked
    cases looked
  rw [lookup, search_of_not_isBarred free] at looked
  obtain ⟨⟨entry, params⟩, first, rfl⟩ := Option.map_eq_some_iff.1 (Except.ok.inj looked)
  obtain ⟨front, taken, back, split, accepts, passed⟩ := List.findSome?_eq_some_iff.1 first
  obtain ⟨read, accepts, same⟩ := Option.map_eq_some_iff.1 accepts
  cases same
  refine ⟨front, back, split, by rw [accepts]; rfl, fun earlier listed => ?_⟩
  exact Option.map_eq_none_iff.1 (passed earlier listed)

/-- Among the routes with one path, a lookup finds another one than the first only where the first
does not accept the request. -/
theorem first_of_lookup {s : Snapshot} {request : String} {found : Match} {first : RouteEntry}
    (looked : (lookup s method request).result = .ok (some found))
    (same : found.entry.path = path) (isFirst : firstWith? path (s.forMethod method) = some first) :
    found.entry = first ∨ first.accepted? (routedPart request) = none := by
  obtain ⟨front, back, split, -, passed⟩ := passed_of_lookup looked
  rw [firstWith?, split, List.find?_append] at isFirst
  cases earlier : front.find? (·.path == path) with
  | some other =>
      rw [earlier] at isFirst
      cases isFirst
      exact .inr (passed first (List.mem_of_find?_eq_some earlier))
  | none =>
      rw [earlier, Option.none_or, List.find?_cons, beq_iff_eq.2 same] at isFirst
      exact .inl (Option.some.inj isFirst)

/-- Routes with one matcher accept the same paths. -/
theorem accepted?_congr {first : RouteEntry} (same : entry.pattern = first.pattern)
    (request : String) : entry.accepted? request = first.accepted? request := by
  rw [RouteEntry.accepted?, RouteEntry.accepted?, RouteEntry.expression?, RouteEntry.expression?,
    same]

/-- A lookup finds the first of the routes with one path and one matcher. -/
theorem eq_first_of_lookup {s : Snapshot} {request : String} {found : Match} {first : RouteEntry}
    (looked : (lookup s method request).result = .ok (some found))
    (same : found.entry.path = path) (isFirst : firstWith? path (s.forMethod method) = some first)
    (alike : found.entry.pattern = first.pattern) : found.entry = first := by
  obtain ⟨-, -, -, accepts, -⟩ := passed_of_lookup looked
  rcases first_of_lookup looked same isFirst with eq | refuses
  · exact eq
  · rw [accepted?_congr alike, refuses] at accepts
    cases accepts

end Routes

/-! ## The document and the lookup -/

section Dispatching

variable {σ ε : Type} {s : Snapshot} {method : String} {entry : RouteEntry}

/-- **The document shows the last route with a path, and lookups take the first.** Take a document
that was assembled without replacements from a snapshot with lowercase methods, and a route of it
about whose path and method the template says nothing. The document has the operation of the last
route with that path there. Of the routes with that path, a lookup takes the first one that accepts
the request, which is the first one of all where their matchers are the same. The advertised route
is the first one as well if no other has the path. -/
theorem advertises_last_takes_first {a a' : Assembler} {hooks : Hooks σ ε} {m m' : σ} {doc : Json}
    (fresh : a.kept = none) (lookOn : hooks.LookOn)
    (made : a.getDocument hooks (some s) m = (.ok (a', doc), m'))
    (distinct : (Table.keys s.routes).Nodup)
    (lowercase : ∀ name ∈ Table.keys s.routes, Text.Unicode.lowercase name = name)
    (registered : (method, entry) ∈ s.entries)
    (leavesOut : TemplateLeavesOut a.template entry.path method) :
    ∃ first last op, firstWith? entry.path (s.forMethod method) = some first ∧
      lastWith? entry.path (s.forMethod method) = some last ∧
      operation last.action = .ok op ∧
      doc.follow? ["paths", entry.path, method] =
        some (rebaseMember none ["paths", entry.path] method op) ∧
      (∀ request found, (lookup s method request).result = .ok (some found) →
        found.entry.path = entry.path →
          (found.entry = first ∨ first.accepted? (routedPart request) = none) ∧
          (found.entry.pattern = first.pattern → found.entry = first)) ∧
      (((s.forMethod method).filter fun other => other.path == entry.path).length = 1 →
        last = first) := by
  obtain ⟨⟨name, entries⟩, bucket, listed⟩ := List.mem_flatMap.1 registered
  obtain ⟨other, listed, same⟩ := List.mem_map.1 listed
  obtain ⟨rfl, rfl⟩ : method = name ∧ entry = other := Prod.mk.inj same.symm
  have routes : s.forMethod method = entries := by
    rw [Snapshot.forMethod, lowercase method (Table.mem_keys_of_mem bucket),
      Table.get?_eq_some_of_mem distinct bucket]
    rfl
  obtain ⟨first, isFirst⟩ := exists_firstWith? listed (Eq.refl entry.path)
  obtain ⟨last, isLast⟩ := exists_lastWith? listed (Eq.refl entry.path)
  have stands : lastRoute? s.entries entry.path method = some last := by
    rw [lastRoute?_entries distinct, Table.get?_eq_some_of_mem distinct bucket]
    exact isLast
  obtain ⟨before, after, declared, same, later⟩ := lastRoute?_eq_some_iff.1 stands
  rw [← same] at later leavesOut
  obtain ⟨op, operates, shown⟩ :=
    document_member (document_of_getDocument fresh lookOn made) declared later leavesOut
  rw [same] at shown
  rw [← routes] at isFirst isLast
  refine ⟨first, last, op, isFirst, isLast, operates, shown, fun request found looked path => ?_,
    fun once => eq_of_once once isFirst isLast⟩
  exact ⟨first_of_lookup looked path isFirst, eq_first_of_lookup looked path isFirst⟩

/-- A route to an action of which only the name is known. -/
def namedRoute (name : String) : RouteEntry :=
  ⟨"/^\\/a$/", "/a", { Action.blank with name := name }⟩

/-- Two routes with one path and one method. -/
def pairSnapshot : Snapshot := ⟨[("get", [namedRoute "first", namedRoute "second"])]⟩

/-- The document of those two. -/
def pairDocument : Json :=
  .obj [("openapi", .str "3.0.3"),
    ("info", .obj [("title", .str "REST API"), ("version", .str "1.0.0")]),
    ("paths", .obj [("/a", .obj [("get", .obj [("operationId", .str "second"),
      ("parameters", .arr []),
      ("responses", .obj [("200", .obj [("description", .str "Success response"),
        ("content", .obj [("application/json", .obj [("schema", .obj [])])])])])])])])]

/-- The document shows the second action, and a lookup takes the first one. -/
theorem pairDocument_advertises_last :
    (Assembler.ofTemplate .null).getDocument (Hooks.none : Hooks PUnit PUnit)
        (some pairSnapshot) ⟨⟩ = (.ok (⟨defaultTemplate, some pairDocument⟩, pairDocument), ⟨⟩) ∧
      (pairDocument.follow? ["paths", "/a", "get"]).bind (·.member? "operationId") =
        some (.str "second") ∧
      ∃ found, (lookup pairSnapshot "get" "/a").result = .ok (some found) ∧
        found.entry.path = "/a" ∧ found.entry.action.name = "first" := by
  have made : (Assembler.ofTemplate .null).getDocument (Hooks.none : Hooks PUnit PUnit)
      (some pairSnapshot) ⟨⟩ = (.ok (⟨defaultTemplate, some pairDocument⟩, pairDocument), ⟨⟩) := by
    cbv
  have leavesOut : TemplateLeavesOut defaultTemplate "/a" "get" := by
    rintro members own ⟨⟩ ⟨⟩ item mem
    cases mem
  have registered : ("get", namedRoute "first") ∈ pairSnapshot.entries := List.mem_cons_self ..
  obtain ⟨first, last, op, isFirst, isLast, operates, shown, takes, -⟩ :=
    advertises_last_takes_first rfl lookOn_none made (by decide) (by decide) registered leavesOut
  cases isFirst
  cases isLast
  cases operates
  have read : (lookup pairSnapshot "get" "/a").result.map
      (·.map fun found => (found.entry.path, found.entry.pattern)) =
        .ok (some ("/a", "/^\\/a$/")) := by
    cbv
  obtain ⟨answer, looked, read⟩ := map_eq_ok_iff.1 read
  obtain ⟨found, rfl⟩ : ∃ found, answer = some found := by
    cases answer with
    | none => cases read
    | some found => exact ⟨found, rfl⟩
  obtain ⟨path, pattern⟩ := Prod.mk.inj (Option.some.inj read)
  have taken := (takes "/a" found looked path).2 pattern
  change pairDocument.follow? ["paths", "/a", "get"] = _ at shown
  exact ⟨made, by rw [shown]; rfl, found, looked, path, by rw [taken]; rfl⟩

end Dispatching

end RouteContract.OpenApi
