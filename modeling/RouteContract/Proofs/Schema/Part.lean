import RouteContract.Proofs.Data.Result
import RouteContract.Proofs.Json.Place
import RouteContract.Schema.Scope

/-!
# Where references lead

The documents and the anchors that a schema declares are parts of it (`ofSchema_parts`), and a
pointer only goes further into the document that it starts in. So an object that a reference leads
to is a part of the schema document, whatever address it was looked up under (`lookup_part`).
-/

set_option autoImplicit false

namespace RouteContract.Schema

open RouteContract Json Pointer

/-! ## Documents and anchors -/

namespace Index

/-- All documents and anchors of an index have a property. -/
def Holds (P : Json → Prop) (i : Index) : Prop :=
  (∀ document ∈ i.documents, P document.2) ∧ ∀ anchor ∈ i.anchors, P anchor.2.2

variable {P Q : Json → Prop} {i j : Index}

theorem holds_empty : Holds P empty := ⟨nofun, nofun⟩

theorem Holds.mono (h : Holds P i) (weaker : ∀ v, P v → Q v) : Holds Q i :=
  ⟨fun document mem => weaker _ (h.1 document mem), fun anchor mem => weaker _ (h.2 anchor mem)⟩

theorem Holds.append (hi : Holds P i) (hj : Holds P j) : Holds P (i.append j) := by
  constructor
  · intro document mem
    rcases List.mem_append.1 mem with mem | mem
    · exact hi.1 document mem
    · exact hj.1 document mem
  · intro anchor mem
    rcases List.mem_append.1 mem with mem | mem
    · exact hi.2 anchor mem
    · exact hj.2 anchor mem

/-- The index that a reading leaves, if it leaves one, has a property throughout. -/
def Yields (P : Json → Prop) (r : Except Fault Index) : Prop := ∀ i, r = .ok i → Holds P i

theorem yields_error (e : Fault) : Yields P (.error e) := nofun

theorem yields_empty : Yields P (.ok empty) := by
  rintro i ⟨⟩
  exact holds_empty

theorem Yields.mono {r : Except Fault Index} (h : Yields P r) (weaker : ∀ v, P v → Q v) :
    Yields Q r :=
  fun i done => (h i done).mono weaker

theorem Yields.andThen {a b : Except Fault Index} (ha : Yields P a) (hb : Yields P b) :
    Yields P (andThen a b) := by
  intro k done
  cases a with
  | error e => cases done
  | ok i =>
      obtain ⟨j, second, rfl⟩ := map_eq_ok_iff.1 done
      exact (ha i rfl).append (hb j second)

theorem Yields.ite {p : Prop} [Decidable p] {a b : Except Fault Index} (ha : Yields P a)
    (hb : Yields P b) : Yields P (if p then a else b) := by
  split
  · exact ha
  · exact hb

variable {base : String}

theorem yields_ofSchemas {schemas : List Json}
    (each : ∀ schema ∈ schemas, Yields P (ofSchema base schema)) :
    Yields P (ofSchemas base schemas) := by
  induction schemas with
  | nil =>
      rw [ofSchemas]
      exact yields_empty
  | cons schema rest ih =>
      rw [ofSchemas]
      exact (each schema (List.mem_cons_self ..)).andThen
        (ih fun other mem => each other (List.mem_cons_of_mem _ mem))

theorem yields_ofMembers {members : List (String × Json)}
    (each : ∀ entry ∈ members, Yields P (ofSchema base entry.2)) :
    Yields P (ofMembers base members) := by
  induction members with
  | nil =>
      rw [ofMembers]
      exact yields_empty
  | cons entry rest ih =>
      obtain ⟨name, schema⟩ := entry
      rw [ofMembers]
      exact (each (name, schema) (List.mem_cons_self ..)).andThen
        (ih fun other mem => each other (List.mem_cons_of_mem _ mem))

section Keywords

variable {value : Json} (each : ∀ part, IsPart part value → Yields P (ofSchema base part))
include each

theorem yields_ofList : Yields P (ofList base value) := by
  cases value with
  | null | bool b | int i | float x =>
      rw [ofList.eq_def]
      exact yields_error _
  | str s =>
      rw [ofList]
      exact yields_empty.ite (yields_error _)
  | arr schemas =>
      rw [ofList]
      exact yields_ofSchemas fun schema mem => each schema (.of_item mem)
  | obj members =>
      rw [ofList]
      exact yields_empty.ite (yields_error _)

theorem yields_ofTable : Yields P (ofTable base value) := by
  cases value with
  | null | bool b | int i | float x | str s | arr items =>
      rw [ofTable.eq_def]
      exact yields_error _
  | obj members =>
      rw [ofTable]
      exact yields_ofMembers fun entry mem => each entry.2 (.of_member mem)

theorem yields_ofItems : Yields P (ofItems base value) := by
  cases value with
  | null | bool b =>
      rw [ofItems]
      exact yields_empty
  | int i | float x =>
      rw [ofItems.eq_def]
      exact yields_error _
  | str s =>
      rw [ofItems]
      exact yields_empty.ite (yields_error _)
  | arr schemas =>
      rw [ofItems]
      exact yields_ofSchemas fun schema mem => each schema (.of_item mem)
  | obj members =>
      rw [ofItems]
      exact each _ (.self _)

theorem yields_ofDependencies : Yields P (ofDependencies base value) := by
  have table (members : List (String × Json)) (same : value = .obj members) :
      Yields P (ofMembers base members) :=
    yields_ofMembers fun entry mem => each entry.2 (same ▸ .of_member mem)
  rw [ofDependencies.eq_def]
  split
  · exact yields_empty
  · exact yields_empty
  · exact table _ rfl
  · exact yields_empty
  · exact yields_error _

end Keywords

theorem yields_ofKeywords {members : List (String × Json)}
    (each : ∀ entry ∈ members, ∀ part, IsPart part entry.2 → Yields P (ofSchema base part)) :
    Yields P (ofKeywords base members) := by
  induction members with
  | nil =>
      rw [ofKeywords]
      exact yields_empty
  | cons entry rest ih =>
      obtain ⟨keyword, value⟩ := entry
      have below := each (keyword, value) (List.mem_cons_self ..)
      rw [ofKeywords]
      refine .andThen ?_ (ih fun other mem => each other (List.mem_cons_of_mem _ mem))
      exact .ite (below value (.self value)) <| .ite (yields_ofList below) <|
        .ite (yields_ofTable below) <| .ite (yields_ofItems below) <|
        .ite (yields_ofDependencies below) yields_empty

/-- A part of a schema that gives itself an address or a name. -/
def IsNamedPart (schema part : Json) : Prop :=
  IsPart part schema ∧ ∃ members, part = .obj members ∧ Table.get? members "$id" ≠ none

theorem named_of_baseInside {inside : String} {members : List (String × Json)}
    (read : baseInside base (.obj members) = .ok inside) (other : inside ≠ base) :
    Table.get? members "$id" ≠ none := by
  intro unnamed
  rw [baseInside, ownAddress?, unnamed] at read
  exact other (Except.ok.inj read).symm

theorem named_of_ownAnchor? {members : List (String × Json)} {name : String}
    (anchored : ownAnchor? members = some name) : Table.get? members "$id" ≠ none := by
  intro unnamed
  rw [ownAnchor?, unnamed] at anchored
  cases anchored

/-- **The documents and the anchors that a schema declares are parts of it**, each of which gives
itself an address or a name. -/
theorem ofSchema_parts (base : String) (schema : Json) :
    Yields (IsNamedPart schema) (ofSchema base schema) := by
  induction size : schema.weight using Nat.strongRecOn generalizing base schema with
  | ind n ih =>
      cases schema with
      | bool b =>
          rw [ofSchema]
          exact yields_empty
      | null | int i | float x | str s | arr items =>
          rw [ofSchema.eq_def]
          exact yields_error _
      | obj members =>
          rw [ofSchema]
          cases read : baseInside base (.obj members) with
          | error e => exact yields_error e
          | ok inside =>
              refine Yields.andThen ?_ (yields_ofKeywords fun entry mem part below => ?_)
              · rintro i ⟨⟩
                constructor
                · intro document mem
                  split at mem
                  · cases mem
                  · next other =>
                      rw [List.mem_singleton] at mem
                      subst mem
                      exact ⟨.self _, members, rfl, named_of_baseInside read other⟩
                · intro anchor mem
                  obtain ⟨name, anchored, rfl⟩ := List.mem_map.1 mem
                  exact ⟨.self _, members, rfl, named_of_ownAnchor? (Option.mem_toList.1 anchored)⟩
              · have lt := Json.weight_lt_weightMembers mem
                have le := below.weight_le
                rw [Json.weight] at size
                refine (ih part.weight (by omega) inside part rfl).mono ?_
                rintro inner ⟨isPart, named⟩
                exact ⟨(isPart.trans below).trans (.of_member mem), named⟩

end Index

/-! ## Pointers -/

/-- A value is a part of a document, or a text: the characters of a text can be pointed at, too. -/
def IsPartOrText (whole v : Json) : Prop := IsPart v whole ∨ ∃ s, v = .str s

theorem IsPartOrText.part {whole : Json} {members : List (String × Json)}
    (h : IsPartOrText whole (.obj members)) : IsPart (.obj members) whole := by
  rcases h with part | ⟨s, impossible⟩
  · exact part
  · cases impossible

theorem IsPartOrText.of_isPart {whole v part : Json} (h : IsPartOrText whole v)
    (below : IsPart part v) : IsPartOrText whole part := by
  rcases h with stands | ⟨s, rfl⟩
  · exact .inl (below.trans stands)
  · cases below
    exact .inr ⟨s, rfl⟩

theorem IsPartOrText.isWritable {whole v : Json} (h : IsPartOrText whole v)
    (writable : whole.isWritable = true) : v.isWritable = true := by
  rcases h with part | ⟨s, rfl⟩
  · exact part.isWritable writable
  · rfl

variable {whole value target : Json} {base inside ref : String}

/-- A segment names the key of a step. -/
def Names (segment : List Char) : Step → Prop
  | .key name => String.ofList (unescape segment) = name
  | .index _ => True

theorem exists_getElem?_of_elementAt? {α : Type} {xs : List α} {i : Int} {x : α}
    (found : elementAt? xs i = some x) : ∃ n : Nat, xs[n]? = some x := by
  rw [elementAt?] at found
  split at found
  · exact ⟨_, found⟩
  · split at found
    · exact ⟨_, found⟩
    · cases found

/-- A segment leads by a step that it names, or to a letter of a text. -/
theorem stepInto_cases {value part : Json} {segment : List Char} {taken : Option String}
    (step : stepInto value segment = .ok (part, taken)) :
    (∃ s, part = .str s) ∨ ∃ step, value.child? step = some part ∧ Names segment step := by
  cases value with
  | null | bool b | int i | float x => cases step
  | obj members =>
      rw [stepInto] at step
      split at step
      · next v found =>
          cases step
          exact .inr ⟨.key _, found, rfl⟩
      · cases step
  | arr items =>
      rw [stepInto] at step
      simp only at step
      split at step
      · cases step
      · split at step
        · next x found =>
            cases step
            obtain ⟨n, found⟩ := exists_getElem?_of_elementAt? found
            exact .inr ⟨.index n, found, trivial⟩
        · cases step
  | str s =>
      rw [stepInto] at step
      simp only at step
      split at step
      · cases step
      · split at step
        · next x found =>
            cases step
            obtain ⟨n, found⟩ := exists_getElem?_of_elementAt? found
            obtain ⟨c, -, rfl⟩ := List.mem_map.1 (List.mem_of_getElem? found)
            exact .inl ⟨_, rfl⟩
        · cases step

theorem stepInto_part {segment : List Char} {part : Json} {taken : Option String}
    (stands : IsPartOrText whole value) (step : stepInto value segment = .ok (part, taken)) :
    IsPartOrText whole part := by
  rcases stepInto_cases step with text | ⟨step, child, -⟩
  · exact .inr text
  · rcases stands with stands | ⟨s, rfl⟩
    · exact .inl ((IsPart.of_child? child).trans stands)
    · rw [child?_str] at child
      cases child

/-- What segments lead to, the rest of them leads to from where the first one leads. -/
theorem exists_stepInto_of_followSegments {segment : List Char} {rest : List (List Char)}
    {trail : Trail} (h : followSegments value base trail (segment :: rest) = .ok (target, inside)) :
    ∃ part taken base' trail', stepInto value segment = .ok (part, taken) ∧
      followSegments part base' trail' rest = .ok (target, inside) := by
  rw [followSegments] at h
  split at h
  · cases h
  · next part taken step =>
      refine ⟨part, taken, ?_⟩
      simp only at h
      split at h
      · split at h
        · cases h
        · exact ⟨_, _, step, h⟩
        · exact ⟨_, _, step, h⟩
      · exact ⟨_, _, step, h⟩

/-- A pointer leads further into the document. -/
theorem followSegments_part {segments : List (List Char)} {trail : Trail}
    (stands : IsPartOrText whole value)
    (h : followSegments value base trail segments = .ok (target, inside)) :
    IsPartOrText whole target := by
  induction segments generalizing value base trail with
  | nil =>
      cases h
      exact stands
  | cons segment rest ih =>
      obtain ⟨part, taken, base, trail, step, h⟩ := exists_stepInto_of_followSegments h
      exact ih (stepInto_part stands step) h

/-! ## Looking up -/

theorem document_part {scope : Scope} {address : String} (h : scope.document address = .ok target) :
    IsPart target scope.root := by
  rw [Scope.document] at h
  split at h
  · cases h
    exact .self _
  · cases read : scope.index with
    | error e =>
        rw [read] at h
        cases h
    | ok index =>
        rw [read] at h
        simp only at h
        split at h
        · next found listed =>
            cases h
            exact ((Index.ofSchema_parts _ _ index read).1 found
              (List.mem_reverse.1 (List.mem_of_find?_eq_some listed))).1
        · cases h

theorem anchor_part {scope : Scope} {address name : String}
    (h : scope.anchor address name = .ok target) : IsPart target scope.root := by
  rw [Scope.anchor] at h
  split at h
  · cases h
  · split at h
    · cases h
    · cases h
    · next index own read _ =>
        have listed {at_ : String} {found : String × String × Json}
            (h : index.anchors.reverse.find? (fun a => a.1 == at_ && a.2.1 == name) = some found) :
            IsPart found.2.2 scope.root :=
          ((Index.ofSchema_parts _ _ index read).2 found
            (List.mem_reverse.1 (List.mem_of_find?_eq_some h))).1
        simp only at h
        split at h
        · next found named =>
            cases h
            exact listed named
        · next found _ named =>
            cases h
            obtain ⟨address, -, named⟩ := Option.bind_eq_some_iff.1 named
            exact listed named
        · cases h

/-- **What a reference leads to is a part of the schema document**, or a text. -/
theorem lookup_part {scope : Scope} (h : scope.lookup base ref = .ok (target, inside)) :
    IsPartOrText scope.root target := by
  rw [Scope.lookup] at h
  split at h
  simp only at h
  split at h
  · obtain ⟨document, found, same⟩ := map_eq_ok_iff.1 h
    cases same
    exact .inl (document_part found)
  · split at h
    · cases h
    · next document found => exact followSegments_part (.inl (document_part found)) h
  · obtain ⟨document, found, same⟩ := map_eq_ok_iff.1 h
    cases same
    exact .inl (anchor_part found)

end RouteContract.Schema
