import RouteContract.Proofs.Json.Pointer
import RouteContract.Proofs.Shape.BackReference
import RouteContract.Proofs.Shape.Target

/-!
# Looking back references up

A back reference is written as a pointer and looked up as the fragment of an address, where percent
escapes are decoded. As a pointer it leads to the schema of the type that is met again
(`exists_pointsBack`). Its look-up leads there if and only if no property on the way has an escape
in its name and the way is not broken (`back_reference_lookup`). Otherwise it fails, or it leads
elsewhere: that same schema stands nowhere else in the document, since it would hold its own
reference there.
-/

set_option autoImplicit false

namespace RouteContract.Shape

open RouteContract Pointer Schema

/-! ## Names with escapes -/

/-- A way goes through a property in whose name a percent sign stands before two hexadecimal
digits. -/
def Way.Escapes (way : Way) : Prop :=
  ∃ name, Move.property name ∈ way ∧ hasEscape name.toList = true

theorem hasEscape_toString (i : Nat) : hasEscape (toString i).toList = false := by
  refine hasEscape_eq_false_of_not_mem fun member => ?_
  rw [toList_toString] at member
  exact absurd (Number.isDigits_toDigits i _ member) (by decide)

/-- Of the steps of a move only the name of a property can have an escape. -/
theorem Move.property_of_hasEscape {move : Move} {step : Step} (member : step ∈ move.steps)
    (escapes : hasEscape step.segment.toList = true) :
    ∃ name, move = .property name ∧ hasEscape name.toList = true := by
  have plain {key : String} (none : hasEscape key.toList = false)
      (same : step = .key key) : False := by
    rw [same, Step.segment, none] at escapes
    cases escapes
  have position (i : Nat) (same : step = .index i) : False := by
    rw [same, Step.segment, hasEscape_toString] at escapes
    cases escapes
  cases move with
  | items => exact (plain (by decide) (List.mem_singleton.1 member)).elim
  | additional => exact (plain (by decide) (List.mem_singleton.1 member)).elim
  | item i | branch i =>
      rcases List.mem_cons.1 member with same | member
      · exact (plain (by decide) same).elim
      · exact (position i (List.mem_singleton.1 member)).elim
  | property name =>
      rcases List.mem_cons.1 member with same | member
      · exact (plain (by decide) same).elim
      · rw [List.mem_singleton.1 member] at escapes
        exact ⟨name, rfl, escapes⟩

theorem Way.escapes_iff {way : Way} :
    way.Escapes ↔ ∃ segment ∈ way.segments, hasEscape segment.toList = true := by
  constructor
  · rintro ⟨name, member, escapes⟩
    refine ⟨name, List.mem_map.2 ⟨.key name, List.mem_flatMap.2 ⟨_, member, ?_⟩, rfl⟩, escapes⟩
    exact List.mem_cons_of_mem _ (List.mem_singleton_self _)
  · rintro ⟨segment, member, escapes⟩
    obtain ⟨step, onWay, rfl⟩ := List.mem_map.1 member
    obtain ⟨move, onWay, ofMove⟩ := List.mem_flatMap.1 onWay
    obtain ⟨name, rfl, escapes⟩ := Move.property_of_hasEscape ofMove escapes
    exact ⟨name, onWay, escapes⟩

theorem Way.not_escapes_iff {way : Way} :
    ¬ way.Escapes ↔ ∀ segment ∈ way.segments, hasEscape segment.toList = false := by
  simp only [Way.escapes_iff, not_exists, not_and, Bool.not_eq_true]

/-- A step that is named by its segment as it is read back has no escape in it. -/
theorem hasEscape_of_names {step : Step}
    (names : Names (percentDecode (escape step.segment.toList)) step) :
    hasEscape step.segment.toList = false := by
  cases step with
  | index i => exact hasEscape_toString i
  | key name =>
      have read : unescape (percentDecode (escape name.toList)) = name.toList := by
        rw [← String.toList_ofList (l := unescape _)]
        exact congrArg String.toList names
      exact unescape_percentDecode_escape_iff.1 read

/-! ## References of simple graphs -/

variable {g : Graph} {root t : TypeId} {S s : Json} {frames : List Frame} {way : Way}
  {notes : Table Json} {steps : List Step} {text : String}

/-- In a simple graph nothing is merged under a schema. -/
theorem Site.notes_eq_nil (simple : g.Simple root) (site : Site g root frames way notes t) :
    notes = [] := by
  cases site with
  | root => rfl
  | items | item | additional | branch => rfl
  | property site shape new prevails typed =>
      exact (simple.object site.reaches shape).2 _ (List.mem_filter.1 prevails.mem).1

/-- Simple graphs have no references that were written by hand. -/
theorem Graph.Simple.not_writtenByHand (simple : g.Simple root) :
    ¬ WrittenByHand g root steps text := by
  refine Shape.not_writtenByHand
    (fun t reached properties index name shape => (simple.object reached shape).2) ?_
  intro t reached v admits
  have h := simple t reached
  rw [Graph.SimpleAt] at h
  cases admits with
  | literal shape =>
      rw [shape] at h
      exact h
  | enumeration shape listed =>
      rw [shape] at h
      exact h v listed

/-- **A reference points back** from the end of a way: to the type there, which was entered as one
of the frames, and to the schema that was compiled where it was entered. -/
structure PointsBack (g : Graph) (root : TypeId) (S : Json) (steps : List Step) (text : String)
    (frames : List Frame) (t : TypeId) (k : Nat) (f : Frame) (s : Json) : Prop where
  met : ∃ way, Site g root frames way [] t ∧ f.way ++ [f.exit] <+: way ∧ steps = way.steps
  entry : EntryOf g root [] S frames t k f
  text_eq : text = fragment f.way.segments
  compiled : g.compile t f.way.segments ((frames.take k).map (Frame.visit [])) = .ok s
  standing : S.at? f.way.steps = some s

/-- **Every reference points back**, when the graph is simple. -/
theorem exists_pointsBack (simple : g.Simple root) (compiled : g.compile root [] [] = .ok S)
    (reference : ReferenceAt S steps text) :
    ∃ frames t k f s, PointsBack g root S steps text frames t k f s := by
  obtain ⟨again, only⟩ :=
    back_references_resolve compiled fun u reached => simple.not_intersection reached
  rcases only steps text reference with ⟨frames, way, notes, t, site, met, rfl⟩ | byHand
  · obtain ⟨k, f, entry, further, written⟩ := again frames way notes t site met
    obtain ⟨notes', s, above, part, standing⟩ := entry.standing
    rw [above.notes_eq_nil simple, annotated_nil (isSchema_of_compile part)] at standing
    rw [site.notes_eq_nil simple] at site
    rw [ReferenceAt, written] at reference
    refine ⟨frames, t, k, f, s, ⟨way, site, further, rfl⟩, entry, ?_, part, standing⟩
    exact (Json.str.inj (Option.some.inj reference)).symm
  · exact absurd byHand simple.not_writtenByHand

/-! ## Where the schema of a reference stands -/

namespace PointsBack

variable {k : Nat} {f : Frame}

/-- As a pointer, the reference leads to the schema. -/
theorem resolve? (back : PointsBack g root S steps text frames t k f s) :
    S.resolve? text = some s := by
  rw [back.text_eq, Json.resolve?_fragment]
  exact Json.follow?_of_at? back.standing

/-- The schema holds the reference that points back to it. -/
theorem below (back : PointsBack g root S steps text frames t k f s)
    (reference : ReferenceAt S steps text) : ∃ rest, ReferenceAt s rest text := by
  obtain ⟨way, -, further, rfl⟩ := back.met
  obtain ⟨more, rfl⟩ := further
  refine ⟨Way.steps (f.exit :: more), ?_⟩
  rwa [ReferenceAt, List.append_assoc, Way.steps_append, List.append_assoc, Json.at?_append,
    back.standing, Option.bind_some] at reference

/-- **The schema stands at no other place**, as long as that is not further up: a reference in it
would name that place too. -/
theorem segments_eq (simple : g.Simple root) (compiled : g.compile root [] [] = .ok S)
    (back : PointsBack g root S steps text frames t k f s) (reference : ReferenceAt S steps text)
    {place : List Step} (found : S.at? place = some s)
    (deep : f.way.segments.length ≤ place.length) :
    place.map Step.segment = f.way.segments := by
  obtain ⟨rest, inside⟩ := back.below reference
  have copy : ReferenceAt S (place ++ rest) text := by
    rw [ReferenceAt, List.append_assoc, Json.at?_append, found, Option.bind_some]
    exact inside
  obtain ⟨frames', t', k', f', s', back'⟩ := exists_pointsBack simple compiled copy
  have same : f'.way.segments = f.way.segments :=
    fragment_injective (back'.text_eq.symm.trans back.text_eq)
  obtain ⟨way, -, ⟨more, rfl⟩, at_way⟩ := back'.met
  have longer : f.way.segments <+: place.map Step.segment ++ rest.map Step.segment := by
    refine ⟨(Way.steps (f'.exit :: more)).map Step.segment, ?_⟩
    rw [← List.map_append, at_way, ← same, List.append_assoc, Way.steps_append, List.map_append]
    rfl
  obtain ⟨extra, split⟩ := List.prefix_of_prefix_length_le longer (List.prefix_append _ _)
    (by rwa [List.length_map])
  have first := Json.follow?_of_at? back.standing
  have second := Json.follow?_of_at? found
  rw [← split, Json.follow?_append] at second
  change (S.follow? (f.way.steps.map Step.segment)).bind (·.follow? extra) = some s at second
  rw [first, Option.bind_some] at second
  rw [← split, Json.eq_nil_of_follow?_self second, List.append_nil]

/-! ## Looking references up -/

/-- A look-up that leads to the schema met no escape on the way. -/
theorem not_escapes_of_lookup (simple : g.Simple root) (compiled : g.compile root [] [] = .ok S)
    (back : PointsBack g root S steps text frames t k f s) (reference : ReferenceAt S steps text)
    {address base : String} (lookup : Scope.lookup ⟨S, address⟩ address text = .ok (s, base)) :
    ¬ f.way.Escapes := by
  obtain ⟨members, rfl, -⟩ := isSchema_of_compile back.compiled
  rw [back.text_eq, lookup_fragment ⟨S, address⟩] at lookup
  obtain ⟨place, found, named⟩ := exists_at?_of_followSegments lookup
  have reads := length_le_readSegments f.way.segments
  rw [named.length_eq] at reads
  have same := back.segments_eq simple compiled reference found reads
  have asMany : (readSegments f.way.segments).length = f.way.segments.length := by
    rw [named.length_eq, ← same, List.length_map]
  rw [readSegments_of_length_eq asMany, ← same, List.map_map, List.forall₂_map_left_iff,
    List.forall₂_same] at named
  rw [Way.not_escapes_iff, ← same, List.forall_mem_map]
  exact fun step member => hasEscape_of_names (named step member)

/-- A look-up of segments without escapes follows the way. -/
theorem lookup_eq (back : PointsBack g root S steps text frames t k f s) (address : String)
    (plain : ¬ f.way.Escapes) :
    Scope.lookup ⟨S, address⟩ address text =
      followSegments S address [] (written f.way.steps ++ []) := by
  have segments : f.way.segments.map (fun s => escape s.toList) = written f.way.steps ++ [] := by
    rw [List.append_nil, Way.segments, List.map_map]
    rfl
  rw [back.text_eq, lookup_fragment ⟨S, address⟩,
    readSegments_of_plain (Way.not_escapes_iff.1 plain), segments]

/-- A look-up leads to the schema exactly if no name on the way has an escape and the way is not
broken. -/
theorem lookup_iff (simple : g.Simple root) (compiled : g.compile root [] [] = .ok S)
    (back : PointsBack g root S steps text frames t k f s) (reference : ReferenceAt S steps text)
    (address : String) :
    (∃ base, Scope.lookup ⟨S, address⟩ address text = .ok (s, base)) ↔
      ¬ f.way.Escapes ∧ ¬ Broken g (frames.take k) f.way := by
  obtain ⟨notes', -, above, -⟩ := back.entry.standing
  obtain ⟨there, part, follow⟩ := above.follow address simple compiled
  obtain rfl : there = s := Except.ok.inj (part.symm.trans back.compiled)
  obtain ⟨fine, lost⟩ := follow []
  constructor
  · rintro ⟨base, lookup⟩
    have plain := back.not_escapes_of_lookup simple compiled reference lookup
    refine ⟨plain, fun isBroken => ?_⟩
    obtain ⟨fault, isLost⟩ := lost isBroken
    rw [back.lookup_eq address plain, isLost] at lookup
    cases lookup
  · rintro ⟨plain, kept⟩
    exact ⟨address, (back.lookup_eq address plain).trans (fine kept)⟩

end PointsBack

/-- **Looking a back reference up**: as a pointer it leads to the schema of the type that is met
again, and its look-up leads there if and only if no property on the way has an escape in its name
and the way is not broken. -/
theorem back_reference_lookup (simple : g.Simple root) (compiled : g.compile root [] [] = .ok S)
    (reference : ReferenceAt S steps text) :
    ∃ frames t k f s, PointsBack g root S steps text frames t k f s ∧
      S.resolve? text = some s ∧
      ∀ address, (∃ base, Scope.lookup ⟨S, address⟩ address text = .ok (s, base)) ↔
        ¬ f.way.Escapes ∧ ¬ Broken g (frames.take k) f.way := by
  obtain ⟨frames, t, k, f, s, back⟩ := exists_pointsBack simple compiled reference
  exact ⟨frames, t, k, f, s, back, back.resolve?,
    back.lookup_iff simple compiled reference⟩

/-- An object with two chains below it: the name of one has an escape in it, that of the other one
every letter that a pointer writes in its own way. -/
def escapedGraph : Graph :=
  ⟨#[⟨.object [⟨"%41", 1, false, []⟩, ⟨"50%/~", 1, true, []⟩] none "Escaped", none⟩,
    ⟨.object [⟨"next", 1, true, []⟩] none "Chain", none⟩]⟩

theorem escapedGraph_simple (root : TypeId) : escapedGraph.Simple root := by
  intro t _
  rcases t with _ | _ | t
  · exact ⟨by decide, by simp⟩
  · exact ⟨by decide, by simp⟩
  · simp [Graph.SimpleAt, Graph.shape, Graph.node, escapedGraph]

/-- The schema of a chain that was entered where a reference leads. -/
def chainSchema (reference : String) : Json :=
  .obj [("type", .str "object"), ("additionalProperties", .bool false),
    ("properties", .obj [("next", .obj [("$ref", .str reference)])])]

/-- What the object compiles to. -/
def escapedSchema : Json :=
  .obj [("type", .str "object"), ("additionalProperties", .bool false),
    ("required", .arr [.str "%41"]),
    ("properties", .obj [("%41", chainSchema "#/properties/%41"),
      ("50%/~", chainSchema "#/properties/50%~1~0")])]

/-- As pointers both references lead to their chains. The look-up of the first one does not. -/
theorem escapedGraph_lookup : ∃ S, escapedGraph.compile 0 [] [] = .ok S ∧
    ReferenceAt S [.key "properties", .key "%41", .key "properties", .key "next"]
      "#/properties/%41" ∧
    S.resolve? "#/properties/%41" = some (chainSchema "#/properties/%41") ∧
    (¬ ∃ base, Scope.lookup ⟨S, ""⟩ "" "#/properties/%41" =
      .ok (chainSchema "#/properties/%41", base)) ∧
    Scope.lookup ⟨S, ""⟩ "" "#/properties/50%~1~0" =
      .ok (chainSchema "#/properties/50%~1~0", "") := by
  have compiled : escapedGraph.compile 0 [] [] = .ok escapedSchema := by cbv
  have decoded : Scope.lookup ⟨escapedSchema, ""⟩ "" "#/properties/50%~1~0" =
      .ok (chainSchema "#/properties/50%~1~0", "") := by
    have plain : ∀ segment ∈ ["properties", "50%/~"], hasEscape segment.toList = false := by
      decide
    have written : fragment ["properties", "50%/~"] = "#/properties/50%~1~0" := by cbv
    rw [← written, lookup_fragment ⟨escapedSchema, ""⟩, readSegments_of_plain plain]
    exact (followSegments_key rfl rfl _).trans (followSegments_key rfl rfl [])
  refine ⟨_, compiled, by cbv, by cbv, ?_, decoded⟩
  obtain ⟨frames, t, k, f, s, back, resolved, lookup⟩ :=
    back_reference_lookup (escapedGraph_simple 0) compiled
      (show ReferenceAt _ [.key "properties", .key "%41", .key "properties", .key "next"]
        "#/properties/%41" by cbv)
  have written : fragment ["properties", "%41"] = "#/properties/%41" := by cbv
  have segments : f.way.segments = ["properties", "%41"] :=
    fragment_injective (back.text_eq.symm.trans written.symm)
  have escapes : f.way.Escapes := by
    rw [Way.escapes_iff, segments]
    exact ⟨"%41", by decide, by decide⟩
  have chain : s = chainSchema "#/properties/%41" :=
    Option.some.inj (resolved.symm.trans (by cbv))
  rw [← chain, lookup ""]
  exact fun kept => kept.1 escapes

end RouteContract.Shape
