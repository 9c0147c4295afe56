import Mathlib
import RouteContract.Contract.Document
import RouteContract.Proofs.Data.Table
import RouteContract.Route.Lookup

/-!
# Lookups among stored matchers that cannot be read

Any text may be stored as the matcher of a route. A text that is malformed, or that is no regular
expression, is skipped, and the lookup comes to what it would come to without the route. One kind of
text is an exception: a regular expression that counts beyond every limit ends the lookup where the
route is tried.

The main statement says exactly when that happens, and that in all other cases the routes that
cannot be read make no difference (`lookup_readable`).
-/

set_option autoImplicit false

namespace RouteContract

open Route

/-! ## Routes that can be read -/

namespace RouteEntry

/-- The regular expression of a stored route, if there is one. -/
def expression? (entry : RouteEntry) : Option Pattern :=
  (Matcher.decode? entry.pattern).bind fun m => m.compile.toOption

/-- Whether the matcher of a route is well formed and is a regular expression. -/
def isReadable (entry : RouteEntry) : Bool := entry.expression?.isSome

/-- The matcher of a route counts repetitions beyond every limit. -/
def CountsTooFar (entry : RouteEntry) : Prop :=
  ∃ m, Matcher.decode? entry.pattern = some m ∧ m.compile = .error .hugeCount

/-- What a route reads from a path that it accepts. -/
def accepted? (entry : RouteEntry) (path : String) : Option (Table (Option String)) :=
  entry.expression?.bind fun p => matchParameters? p path

variable {entry : RouteEntry}

theorem parsePattern_of_countsTooFar (far : entry.CountsTooFar) :
    parsePattern entry.pattern = .error ⟨⟩ := by
  obtain ⟨m, decoded, compiled⟩ := far
  rw [parsePattern, decoded]
  simp only [compiled]

theorem parsePattern_of_not_countsTooFar (near : ¬ entry.CountsTooFar) :
    parsePattern entry.pattern = .ok entry.expression? := by
  rw [parsePattern, expression?]
  cases decoded : Matcher.decode? entry.pattern with
  | none => rfl
  | some m =>
      simp only [Option.bind_some]
      cases compiled : m.compile with
      | ok p => rfl
      | error e =>
          cases e with
          | malformed | invalidValue => rfl
          | hugeCount => exact absurd ⟨m, decoded, compiled⟩ near

/-- A matcher that counts too far is not readable. -/
theorem not_countsTooFar_of_isReadable (readable : entry.isReadable = true) :
    ¬ entry.CountsTooFar := by
  rintro ⟨m, decoded, compiled⟩
  rw [isReadable, expression?, decoded, Option.bind_some, compiled] at readable
  cases readable

theorem accepted?_of_not_isReadable (unreadable : entry.isReadable = false) (path : String) :
    entry.accepted? path = none := by
  rw [isReadable, Option.isSome_eq_false_iff, Option.isNone_iff_eq_none] at unreadable
  rw [accepted?, unreadable]
  rfl

end RouteEntry

namespace Snapshot

/-- A snapshot without the routes whose matchers cannot be read. -/
def readable (s : Snapshot) : Snapshot :=
  ⟨s.routes.map fun bucket => (bucket.1, bucket.2.filter RouteEntry.isReadable)⟩

theorem forMethod_readable (s : Snapshot) (method : String) :
    s.readable.forMethod method = (s.forMethod method).filter RouteEntry.isReadable := by
  rw [forMethod, forMethod, readable,
    Table.get?_map fun _ (entries : List RouteEntry) => entries.filter RouteEntry.isReadable]
  cases Table.get? s.routes (Text.Unicode.lowercase method) with
  | none => rfl
  | some entries => rfl

end Snapshot

namespace Route

/-! ## Trying routes -/

/-- The first route that accepts a path, with what it reads from it. -/
def firstAccepting? (path : String) (entries : List RouteEntry) :
    Option (RouteEntry × Table (Option String)) :=
  entries.findSome? fun entry => (entry.accepted? path).map (entry, ·)

/-- Among routes that are tried in order, one comes whose matcher counts too far, and none before it
accepts the path. -/
def IsBarred (path : String) (entries : List RouteEntry) : Prop :=
  ∃ front entry back, entries = front ++ entry :: back ∧ entry.CountsTooFar ∧
    ∀ earlier ∈ front, earlier.accepted? path = none

variable {path : String} {entry : RouteEntry} {entries rest : List RouteEntry}

theorem isBarred_cons :
    IsBarred path (entry :: rest) ↔
      entry.CountsTooFar ∨ entry.accepted? path = none ∧ IsBarred path rest := by
  constructor
  · rintro ⟨front, barring, back, same, far, passed⟩
    cases front with
    | nil =>
        cases same
        exact .inl far
    | cons first front =>
        cases same
        rw [List.forall_mem_cons] at passed
        exact .inr ⟨passed.1, front, barring, back, rfl, far, passed.2⟩
  · rintro (far | ⟨none, front, barring, back, rfl, far, passed⟩)
    · exact ⟨[], entry, rest, rfl, far, nofun⟩
    · exact ⟨entry :: front, barring, back, rfl, far, List.forall_mem_cons.2 ⟨none, passed⟩⟩

/-- One route is tried, and the later ones if it does not accept the path. -/
theorem search_of_not_countsTooFar (near : ¬ entry.CountsTooFar) :
    (search path (entry :: rest)).result =
      match entry.accepted? path with
      | some params => .ok (some (entry, params))
      | none => (search path rest).result := by
  rw [search, RouteEntry.parsePattern_of_not_countsTooFar near, RouteEntry.accepted?]
  cases entry.expression? with
  | none => rfl
  | some p =>
      simp only [Option.bind_some]
      cases matchParameters? p path with
      | none => rfl
      | some params => rfl

/-- A search ends without an answer exactly when it is barred. -/
theorem search_eq_error_iff :
    (search path entries).result = .error ⟨⟩ ↔ IsBarred path entries := by
  induction entries with
  | nil =>
      refine iff_of_false nofun ?_
      rintro ⟨front, entry, back, same, -⟩
      simp at same
  | cons entry rest ih =>
      rw [isBarred_cons]
      by_cases far : entry.CountsTooFar
      · refine iff_of_true ?_ (.inl far)
        rw [search, RouteEntry.parsePattern_of_countsTooFar far]
      · rw [search_of_not_countsTooFar far, ← ih]
        cases entry.accepted? path with
        | none => simp [far]
        | some params => simp [far]

/-- A search that is not barred comes to the first route that accepts the path. -/
theorem search_of_not_isBarred (free : ¬ IsBarred path entries) :
    (search path entries).result = .ok (firstAccepting? path entries) := by
  induction entries with
  | nil => rfl
  | cons entry rest ih =>
      rw [isBarred_cons, not_or, not_and] at free
      rw [search_of_not_countsTooFar free.1, firstAccepting?, List.findSome?_cons]
      cases tried : entry.accepted? path with
      | none => exact ih (free.2 tried)
      | some params => rfl

/-! ## Leaving out routes that cannot be read -/

theorem not_isBarred_filter : ¬ IsBarred path (entries.filter RouteEntry.isReadable) := by
  rintro ⟨front, entry, back, same, far, -⟩
  have listed : entry ∈ entries.filter RouteEntry.isReadable := by
    rw [same]
    exact List.mem_append_right _ (List.mem_cons_self ..)
  exact RouteEntry.not_countsTooFar_of_isReadable (List.mem_filter.1 listed).2 far

theorem firstAccepting?_filter :
    firstAccepting? path (entries.filter RouteEntry.isReadable) = firstAccepting? path entries := by
  induction entries with
  | nil => rfl
  | cons entry rest ih =>
      cases readable : entry.isReadable with
      | true =>
          rw [List.filter_cons_of_pos readable]
          simp only [firstAccepting?, List.findSome?_cons]
          cases entry.accepted? path with
          | none => exact ih
          | some params => rfl
      | false =>
          rw [List.filter_cons_of_neg (by simp [readable]), ih]
          simp only [firstAccepting?, List.findSome?_cons,
            RouteEntry.accepted?_of_not_isReadable readable]
          rfl

/-- **Routes that cannot be read do no harm, but for one kind.** Without them a lookup always comes
to an answer, the first route that accepts the path. With them it comes to the same answer, unless a
route whose matcher counts too far is tried before one accepts the path: then, and only then, it
ends without an answer. -/
theorem lookup_readable (s : Snapshot) (method path : String) :
    (lookup s.readable method path).result =
        .ok ((firstAccepting? (routedPart path) (s.forMethod method)).map fun (entry, params) =>
          ⟨Text.Unicode.lowercase method, entry, params⟩) ∧
      (¬ IsBarred (routedPart path) (s.forMethod method) →
        (lookup s method path).result = (lookup s.readable method path).result) ∧
      ((lookup s method path).result = .error ⟨⟩ ↔
        IsBarred (routedPart path) (s.forMethod method)) := by
  have unbarred :
      ¬ IsBarred (routedPart path) ((s.forMethod method).filter RouteEntry.isReadable) :=
    not_isBarred_filter
  have clean := search_of_not_isBarred unbarred
  rw [firstAccepting?_filter] at clean
  refine ⟨?_, ?_, ?_⟩
  · rw [lookup, Snapshot.forMethod_readable, clean]
    rfl
  · intro free
    rw [lookup, lookup, Snapshot.forMethod_readable, clean, search_of_not_isBarred free]
  · rw [← search_eq_error_iff, lookup]
    cases (search (routedPart path) (s.forMethod method)).result with
    | error e => exact iff_of_true rfl rfl
    | ok found => exact iff_of_false nofun nofun

/-- Two methods with two routes each. The first matcher of the one is malformed, and the first
matcher of the other counts too far. -/
def itemRoutes : Snapshot :=
  let items : RouteEntry := ⟨"/^\\/items$/", "/items", { Action.blank with name := "items" }⟩
  ⟨[("post", [⟨"/^(a$/", "/a", { Action.blank with name := "a" }⟩, items]),
    ("get", [⟨"/^a{4294967295}$/", "/a", { Action.blank with name := "a" }⟩, items])]⟩

/-- The malformed matcher does no harm to the route after it, and the other one does. -/
theorem itemRoutes_readable :
    ¬ IsBarred (routedPart "/items") (itemRoutes.forMethod "post") ∧
      (lookup itemRoutes "post" "/items").result =
        (lookup itemRoutes.readable "post" "/items").result ∧
      IsBarred (routedPart "/items") (itemRoutes.forMethod "get") ∧
      (lookup itemRoutes "get" "/items").result = .error ⟨⟩ ∧
      (lookup itemRoutes.readable "get" "/items").result.map
        (·.map fun found => found.entry.path) = .ok (some "/items") := by
  obtain ⟨-, same, barred⟩ := lookup_readable itemRoutes "post" "/items"
  have answered : (lookup itemRoutes "post" "/items").result.isOk = true := by cbv
  have free : ¬ IsBarred (routedPart "/items") (itemRoutes.forMethod "post") := by
    intro bars
    rw [barred.2 bars] at answered
    cases answered
  have ends : (lookup itemRoutes "get" "/items").result = .error ⟨⟩ := by cbv
  refine ⟨free, same free, (lookup_readable itemRoutes "get" "/items").2.2.1 ends, ends, ?_⟩
  cbv

end Route

end RouteContract
