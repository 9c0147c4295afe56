import RouteContract.Proofs.Schema.Merge
import RouteContract.Proofs.Shape.Guarded
import RouteContract.Proofs.Shape.Ordering
import RouteContract.Proofs.Shape.Verdict

/-!
# Unions

A union is compiled in one of three ways: to one enumeration when its members are all texts or all
numbers, and otherwise to a branch for each member, but for the boolean literals, which have one
branch together. In each way the schema of the union admits a value exactly when the schema of a
member does, in every document and wherever the validation against the schemas of the members
completes (`Graph.union_admits_members`). An enumeration is moreover strictly ascending, and is the
same for all unions of literals with the same values.
-/

set_option autoImplicit false

namespace RouteContract.Shape

open RouteContract Schema

variable {g : Graph} {visited : Visited} {path : List String} {members : List TypeId} {t : TypeId}
  {scope : Scope} {hops : Nat} {base : String} {s v : Json}

/-! ## Validation inside a document -/

/-- Validation of a value against a schema inside a document completes. -/
def Completes (scope : Scope) (hops : Nat) (base : String) (s v : Json) : Prop :=
  ∃ found, descend .draft7 scope hops false base none none s v = .ok found

/-- Validation of a value against a schema inside a document completes and finds nothing wrong. -/
def Validates (scope : Scope) (hops : Nat) (base : String) (s v : Json) : Prop :=
  descend .draft7 scope hops false base none none s v = .ok []

theorem Completes.decides (h : Completes scope hops base s v) :
    Decides False (Validates scope hops base s v)
      (descend .draft7 scope hops false base none none s v) := by
  obtain ⟨found, done⟩ := h
  rw [Validates, done]
  exact .of_ok not_false (by simp)

section Schemas

variable {keywords : List (String × Json)} {stuck holds : Prop} (unnamed : IsUnnamed keywords)
include unnamed

theorem completes_obj_iff : Completes scope hops base (.obj keywords) v ↔
    ∃ found, applyAll .draft7 .draft7 scope hops false base keywords v = .ok found :=
  (endsAlike_descend unnamed).completes_iff

theorem validates_obj_iff : Validates scope hops base (.obj keywords) v ↔
    applyAll .draft7 .draft7 scope hops false base keywords v = .ok [] :=
  (endsAlike_descend unnamed).nil_iff

variable (h : Decides stuck holds
  (applyAll .draft7 .draft7 scope hops false base keywords v))
include h

theorem completes_of_decides : Completes scope hops base (.obj keywords) v ↔ ¬ stuck :=
  (completes_obj_iff unnamed).trans h.completes_iff

theorem validates_of_decides (refuses : stuck → ¬ holds) :
    Validates scope hops base (.obj keywords) v ↔ holds :=
  (validates_obj_iff unnamed).trans (h.nil_iff refuses)

end Schemas

/-! ## Members and their schemas -/

/-- The schema of a literal by itself. -/
def literalSchema (kind : ScalarKind) (value : Json) : Json :=
  .obj [("type", .str kind.name), ("enum", .arr [value])]

/-- A schema of a member of a union: of a literal its own one, and of another type the one that was
compiled for it as a branch. -/
inductive MemberSchema (g : Graph) (visited : Visited) (path : List String)
    (members : List TypeId) : Json → Prop
  | literal {m : TypeId} {kind : ScalarKind} {value : Json} (member : m ∈ members)
      (shape : g.shape m = .literal kind value) :
      MemberSchema g visited path members (literalSchema kind value)
  | branch {i : Nat} {m : TypeId} {s : Json} (found : (g.branches members)[i]? = some m)
      (compound : ∀ kind value, g.shape m ≠ .literal kind value)
      (compiled : g.compile m (path ++ ["anyOf", toString i]) visited = .ok s) :
      MemberSchema g visited path members s

theorem decides_literalSchema {kind : ScalarKind} {value : Json}
    (admitted : kind.admits value = true) :
    Decides (¬ Json.equal value v = true ∧ (v.isWritable && (Json.arr [value]).isWritable) = false)
      (Json.equal value v = true)
      (applyAll .draft7 .draft7 scope hops false base
        [("type", .str kind.name), ("enum", .arr [value])] v) := by
  refine (decides_listed kind (by simpa using admitted)).congr ?_ fun _ => ?_
  · simp
  · simp

theorem validates_literalSchema {kind : ScalarKind} {value : Json}
    (admitted : kind.admits value = true) :
    Validates scope hops base (literalSchema kind value) v ↔ Json.equal value v = true :=
  validates_of_decides ⟨rfl, rfl⟩ (decides_literalSchema admitted) And.left

theorem completes_literalSchema {kind : ScalarKind} {value : Json}
    (admitted : kind.admits value = true) :
    Completes scope hops base (literalSchema kind value) v ↔
      Json.equal value v = true ∨ v.isWritable = true ∧ value.isWritable = true := by
  refine (completes_of_decides ⟨rfl, rfl⟩ (decides_literalSchema admitted)).trans ?_
  rw [not_and_or, not_not, Bool.not_eq_false, Bool.and_eq_true, Json.isWritable_arr_iff]
  simp

/-- A literal compiles to its own schema. -/
theorem eq_literalSchema {m : TypeId} {kind : ScalarKind} {value : Json}
    (shape : g.shape m = .literal kind value) (compiled : g.compile m path visited = .ok s) :
    s = literalSchema kind value := by
  have expands := expands_of_compile compiled
  rwa [Expands, shape] at expands

/-- The schema of a branch is the schema of a member. -/
theorem memberSchema_of_branch {i : Nat} {m : TypeId} (found : (g.branches members)[i]? = some m)
    (compiled : g.compile m (path ++ ["anyOf", toString i]) visited = .ok s) :
    MemberSchema g visited path members s := by
  by_cases literal : ∃ kind value, g.shape m = .literal kind value
  · obtain ⟨kind, value, shape⟩ := literal
    rw [eq_literalSchema shape compiled]
    exact .literal (List.mem_filter.1 (List.mem_of_getElem? found)).1 shape
  · exact .branch found (fun kind value shape => literal ⟨kind, value, shape⟩) compiled

/-! ## Each way -/

/-- What a union is compiled to admits what its members admit. -/
def AdmitsMembers (g : Graph) (visited : Visited) (path : List String) (members : List TypeId)
    (scope : Scope) (hops : Nat) (base : String) (S v : Json) : Prop :=
  (Validates scope hops base S v ↔
      ∃ s, MemberSchema g visited path members s ∧ Validates scope hops base s v) ∧
    (Completes scope hops base S v ↔ v.isWritable = true ∨ Validates scope hops base S v)

/-- A union that became one enumeration. -/
theorem admitsMembers_collapsed (fits : ∀ m ∈ members, g.FitsKind m) {kind : ScalarKind}
    (collapsed : g.collapsed? members = some kind) {values : List Json}
    (ordered : orderedValues (members.map g.literalValue) = .ok values)
    (complete : ∀ s, MemberSchema g visited path members s → Completes scope hops base s v) :
    AdmitsMembers g visited path members scope hops base
      (.obj [("type", .str kind.name), ("enum", .arr values)]) v := by
  have literal {m : TypeId} (member : m ∈ members) :
      ∃ value, g.shape m = .literal kind value ∧ g.literalValue m = value := by
    obtain ⟨value, shape⟩ := isLiteral_iff.1 ((collapsed?_eq_some collapsed).2.2 m member)
    exact ⟨value, shape, literalValue_eq shape⟩
  have decided : Decides _ _ (applyAll .draft7 .draft7 scope hops false base
      [("type", .str kind.name), ("enum", .arr values)] v) :=
    decides_collapsed fits collapsed ordered
  have validates := validates_of_decides ⟨rfl, rfl⟩ decided And.left
  refine ⟨validates.trans ⟨?_, ?_⟩, ?_, ?_⟩
  · rintro ⟨m, member, same⟩
    obtain ⟨value, shape, rfl⟩ := literal member
    exact ⟨_, .literal member shape, (validates_literalSchema (fits m member _ _ shape)).2 same⟩
  · rintro ⟨s, @⟨m, kind', value, member, shape⟩ | @⟨i, m, s, found, compound, -⟩, valid⟩
    · refine ⟨m, member, ?_⟩
      rw [literalValue_eq shape]
      exact (validates_literalSchema (fits m member _ _ shape)).1 valid
    · have member := (List.mem_filter.1 (List.mem_of_getElem? found)).1
      obtain ⟨value, shape, -⟩ := literal member
      exact absurd shape (compound _ _)
  · rw [completes_of_decides ⟨rfl, rfl⟩ decided, not_and_or, not_not, ← validates]
    rintro (valid | written)
    · exact .inr valid
    · exact .inl (Bool.and_eq_true_iff.1 (Bool.not_eq_false _ ▸ written)).1
  · rintro (written | valid)
    · rw [completes_of_decides ⟨rfl, rfl⟩ decided, written, Bool.true_and]
      rintro ⟨unlisted, unwritten⟩
      -- A literal that differs from the value has a text, as validation against it completes.
      refine Bool.false_ne_true (unwritten.symm.trans (Json.isWritable_arr_iff.2 ?_))
      intro value listed
      obtain ⟨m, member, rfl⟩ := List.mem_map.1 (mem_of_mem_orderedValues ordered listed)
      obtain ⟨value, shape, rfl⟩ := literal member
      have completes := complete _ (.literal member shape)
      rw [completes_literalSchema (fits m member _ _ shape)] at completes
      exact (completes.resolve_left fun same => unlisted ⟨m, member, same⟩).2
    · exact ⟨[], valid⟩

/-- A union with branches. -/
theorem admitsMembers_branches (fits : ∀ m ∈ members, g.FitsKind m) {schemas : List Json}
    (parts : EachPart (fun path u s => g.compile u path visited = .ok s)
      (fun i => path ++ ["anyOf", toString i]) (g.branches members) schemas)
    (complete : ∀ s, MemberSchema g visited path members s → Completes scope hops base s v) :
    AdmitsMembers g visited path members scope hops base
      (.obj [("anyOf", .arr (schemas ++ g.folded members))]) v := by
  obtain ⟨length, each⟩ := parts
  have isMember {i : Nat} {s : Json} (found : schemas[i]? = some s) :
      MemberSchema g visited path members s := by
    obtain ⟨u, hu⟩ := getElem?_of_length_eq length.symm found
    exact memberSchema_of_branch hu (each i u s hu found)
  have literal {m : TypeId} (boolean : g.isLiteral .boolean m = true) :
      ∃ value, g.shape m = .literal .boolean value ∧ g.literalValue m = value := by
    obtain ⟨value, shape⟩ := isLiteral_iff.1 boolean
    exact ⟨value, shape, literalValue_eq shape⟩
  have decided := decides_branches fits (fun _ => False)
    (fun i => ∃ s, schemas[i]? = some s ∧ Validates scope hops base s v)
    fun i s found => (complete s (isMember found)).decides.congr Iff.rfl fun _ => by simp [found]
  simp only [false_and, and_false, exists_false, false_or] at decided
  have validates := validates_of_decides ⟨rfl, rfl⟩ decided And.left
  refine ⟨validates.trans ⟨?_, ?_⟩, ?_⟩
  · rintro (⟨i, -, s, found, valid⟩ | ⟨m, member, boolean, same⟩)
    · exact ⟨s, isMember found, valid⟩
    · obtain ⟨value, shape, rfl⟩ := literal boolean
      exact ⟨_, .literal member shape, (validates_literalSchema (fits m member _ _ shape)).2 same⟩
  · have inBranch {i : Nat} {m : TypeId} (found : (g.branches members)[i]? = some m) :
        ∃ s, schemas[i]? = some s ∧ g.compile m (path ++ ["anyOf", toString i]) visited = .ok s := by
      obtain ⟨s, found'⟩ := getElem?_of_length_eq length found
      exact ⟨s, found', each i m s found found'⟩
    rintro ⟨s, @⟨m, kind, value, member, shape⟩ | @⟨i, m, s, found, -, compiled⟩, valid⟩
    · -- Boolean literals are in the branch that they share, and other literals have branches.
      cases boolean : g.isLiteral .boolean m with
      | true =>
          refine .inr ⟨m, member, boolean, ?_⟩
          rw [literalValue_eq shape]
          exact (validates_literalSchema (fits m member _ _ shape)).1 valid
      | false =>
          have listed : m ∈ g.branches members :=
            List.mem_filter.2 ⟨member, by rw [boolean]; rfl⟩
          obtain ⟨i, found⟩ := List.mem_iff_getElem?.1 listed
          obtain ⟨s, found', compiled⟩ := inBranch found
          rw [← eq_literalSchema shape compiled] at valid
          exact .inl ⟨i, (List.getElem?_eq_some_iff.1 found').1, s, found', valid⟩
    · obtain ⟨s', found', compiled'⟩ := inBranch found
      rw [compiled, Except.ok.injEq] at compiled'
      subst compiled'
      exact .inl ⟨i, (List.getElem?_eq_some_iff.1 found').1, s, found', valid⟩
  · rw [completes_of_decides ⟨rfl, rfl⟩ decided, not_and_or, not_not, ← validates, Bool.not_eq_false]
    exact or_comm

/-- A union whose members can be compiled can be compiled. -/
theorem compile_union_ok (shape : g.shape t = .union members) (fits : ∀ m ∈ members, g.FitsKind m)
    (converts : ∀ m ∈ members, g.Converts visited m) (path : List String) :
    ∃ s, g.compile t path visited = .ok s := by
  have parts : g.parts t = members := by rw [Graph.parts, shape]
  refine compile_ok_of_parts (by rw [Graph.isObject, shape]) ?_ (parts.symm ▸ converts) path
  rw [Option.eq_none_iff_forall_ne_some]
  intro e refused
  have unruled := ((refusal?_iff (parts.symm ▸ fits)).1 refused).1
  rw [Graph.IsUnruled, shape] at unruled
  exact unruled

/-! ## Unions of literals -/

/-- The members of a union are literals of a kind, and none is the float that is not a number. -/
def Graph.AreLiterals (g : Graph) (kind : ScalarKind) (members : List TypeId) : Prop :=
  members ≠ [] ∧ ∀ m ∈ members, g.isLiteral kind m = true ∧ kind.Orders (g.literalValue m)

instance (kind : ScalarKind) (members : List TypeId) : Decidable (g.AreLiterals kind members) :=
  inferInstanceAs (Decidable (_ ∧ _))

namespace Graph.AreLiterals

variable {kind : ScalarKind}

theorem collapsed (literals : g.AreLiterals kind members)
    (scalar : kind = .string ∨ kind = .number) : g.collapsed? members = some kind := by
  have nonempty : (!members.isEmpty) = true := by simpa using literals.1
  have all : members.all (g.isLiteral kind) = true :=
    List.all_eq_true.2 fun m member => (literals.2 m member).1
  rw [Graph.collapsed?, nonempty, Bool.true_and, Bool.true_and]
  rcases scalar with rfl | rfl
  · rw [if_pos all]
  · obtain ⟨m, member⟩ := List.exists_mem_of_ne_nil members literals.1
    have noText : ¬ members.all (g.isLiteral .string) = true := by
      intro texts
      obtain ⟨value, shape⟩ := isLiteral_iff.1 (literals.2 m member).1
      obtain ⟨text, shape'⟩ := isLiteral_iff.1 (List.all_eq_true.1 texts m member)
      rw [shape] at shape'
      cases shape'
    rw [if_neg noText, if_pos all]

theorem orders (literals : g.AreLiterals kind members) :
    ∀ v ∈ members.map g.literalValue, kind.Orders v := by
  intro v listed
  obtain ⟨m, member, rfl⟩ := List.mem_map.1 listed
  exact (literals.2 m member).2

/-- A union of literals becomes one enumeration of their values in order. -/
theorem compile (literals : g.AreLiterals kind members) (scalar : kind = .string ∨ kind = .number)
    (shape : g.shape t = .union members) (path : List String) (visited : Visited) :
    ∃ values, orderedValues (members.map g.literalValue) = .ok values ∧
      g.compile t path visited = .ok (.obj [("type", .str kind.name), ("enum", .arr values)]) := by
  have ordered := orderedValues_eq_fold scalar fun v member => (literals.orders v member).1
  refine ⟨_, ordered, compile_iff_expands.2 ?_⟩
  simp only [Expands, shape, ExpandsUnion, literals.collapsed scalar]
  exact ⟨_, ordered, rfl⟩

end Graph.AreLiterals

/-! ## What unions mean -/

/-- **A union admits what its members admit.** Where the literals among the members have values of
their kinds and all members can be compiled, the union can, at every path. Its schema admits a value
exactly when the schema of a member does, in every document in which validation of the value against
the schemas of the members completes; and validation against the schema of the union then completes
where it admits the value, or where the value has a text for a refusal to show. When the members are
all texts or all numbers, the schema lists their values in strictly ascending order, and every union
of literals with the same values has the same list, up to numerical equality. -/
theorem Graph.union_admits_members (shape : g.shape t = .union members)
    (fits : ∀ m ∈ members, g.FitsKind m) (converts : ∀ m ∈ members, g.Converts visited m)
    (path : List String) :
    (∃ S, g.compile t path visited = .ok S ∧ ∀ scope hops base v,
      (∀ s, MemberSchema g visited path members s → Completes scope hops base s v) →
        (Validates scope hops base S v ↔
            ∃ s, MemberSchema g visited path members s ∧ Validates scope hops base s v) ∧
          (Completes scope hops base S v ↔ v.isWritable = true ∨ Validates scope hops base S v)) ∧
      ∀ kind, kind = .string ∨ kind = .number → g.AreLiterals kind members →
        ∃ values,
          g.compile t path visited =
            .ok (.obj [("type", .str kind.name), ("enum", .arr values)]) ∧
          (values.Pairwise fun v w => kind.precedes v w = true) ∧
          SameValues (members.map g.literalValue) values ∧
          ∀ u others path' visited', g.shape u = .union others → g.AreLiterals kind others →
            SameValues (members.map g.literalValue) (others.map g.literalValue) →
            ∃ values',
              g.compile u path' visited' =
                .ok (.obj [("type", .str kind.name), ("enum", .arr values')]) ∧
              List.Forall₂ (fun v w => Json.numericallyEqual v w = true) values values' := by
  refine ⟨?_, fun kind scalar literals => ?_⟩
  · obtain ⟨S, compiled⟩ := compile_union_ok shape fits converts path
    refine ⟨S, compiled, fun scope hops base v complete => ?_⟩
    have expands := expands_of_compile compiled
    simp only [Expands, shape, ExpandsUnion] at expands
    split at expands
    · next kind collapsed =>
        obtain ⟨values, ordered, rfl⟩ := expands
        exact admitsMembers_collapsed fits collapsed ordered complete
    · obtain ⟨schemas, parts, rfl⟩ := expands
      exact admitsMembers_branches fits parts complete
  · obtain ⟨values, ordered, compiled⟩ := literals.compile scalar shape path visited
    obtain ⟨ascending, same⟩ := orderedValues_ascending scalar literals.orders ordered
    refine ⟨values, compiled, ascending, same, ?_⟩
    intro u others path' visited' shape' literals' alike
    obtain ⟨values', ordered', compiled'⟩ := literals'.compile scalar shape' path' visited'
    exact ⟨values', compiled',
      orderedValues_canonical scalar literals.orders literals'.orders alike ordered ordered'⟩

/-- Links to a flag, an end or another link, with their ranks. -/
def linkGraph : Graph :=
  ⟨#[⟨.object [⟨"next", 1, true, []⟩] none "Link", none⟩, ⟨.union [2, 3, 0], none⟩,
    ⟨.literal .boolean (.bool true), none⟩, ⟨.literal .string (.str "end"), none⟩,
    ⟨.union [5, 6, 5], none⟩, ⟨.literal .number (.int 2), none⟩,
    ⟨.literal .number (.int 1), none⟩, ⟨.union [6, 5], none⟩]⟩

/-- What the type of the next link is compiled to. -/
def nextSchema : Json :=
  .obj [("anyOf", .arr [
    .obj [("type", .str "string"), ("enum", .arr [.str "end"])],
    .obj [("$ref", .str "#")],
    .obj [("type", .str "boolean"), ("enum", .arr [.bool true])]])]

/-- What a link is compiled to. -/
def linkSchema : Json :=
  .obj [("type", .str "object"), ("additionalProperties", .bool false),
    ("properties", .obj [("next", nextSchema)])]

/-- Validation against a reference to links completes where links are described. -/
theorem linkReference_completes :
    Completes ⟨linkSchema, ""⟩ (Scope.chainLimit ⟨linkSchema, ""⟩) "" (.obj [("$ref", .str "#")])
      (.str "end") := by
  have limit : Scope.chainLimit ⟨linkSchema, ""⟩ = 23 + 1 := by cbv
  have found : Scope.lookup ⟨linkSchema, ""⟩ "" "#" = .ok (linkSchema, "") := by cbv
  have other (members : List (String × Json)) : Json.str "end" ≠ .obj members := by
    simp
  have form : objectSchema (.bool false) [] [("next", nextSchema)] = linkSchema := rfl
  have verdict : Decides _ _
      (applyAll .draft7 .draft7 ⟨linkSchema, ""⟩ 23 false "" _ (.str "end")) :=
    decides_objectSchema form
      (fun hx => decides_members_other (by simp [memberKeywords]) hx other)
      (fun hx => decides_members_other (by simp [memberKeywords]) hx other)
      fun _ => ⟨not_false, trivial⟩
  rw [limit, completes_of_decides ⟨rfl, rfl⟩ (decides_reference found rfl verdict)]
  simp [Json.isWritable]

/-- **An end is admitted** where links are described, as the literal admits it; and ranks are listed
alike. -/
theorem linkGraph_union_admits :
    linkGraph.compile 0 [] [] = .ok linkSchema ∧
      (∃ S, linkGraph.compile 1 ["properties", "next"] [⟨0, []⟩] = .ok S ∧
        Validates ⟨linkSchema, ""⟩ (Scope.chainLimit ⟨linkSchema, ""⟩) "" S (.str "end")) ∧
      ∃ values values',
        linkGraph.compile 4 [] [] =
          .ok (.obj [("type", .str "number"), ("enum", .arr values)]) ∧
        linkGraph.compile 7 [] [] =
          .ok (.obj [("type", .str "number"), ("enum", .arr values')]) ∧
        List.Forall₂ (fun v w => Json.numericallyEqual v w = true) values values' := by
  have again : linkGraph.compile 0 (["properties", "next"] ++ ["anyOf", toString 1]) [⟨0, []⟩] =
      .ok (.obj [("$ref", .str "#")]) := by cbv
  have fits : ∀ m ∈ [2, 3, 0], linkGraph.FitsKind m := by decide
  have converts : ∀ m ∈ [2, 3, 0], linkGraph.Converts [⟨0, []⟩] m := by
    simp only [List.mem_cons, List.not_mem_nil, or_false, forall_eq_or_imp, forall_eq]
    exact ⟨⟨[], _, compile_iff_expands.2 rfl⟩, ⟨[], _, compile_iff_expands.2 rfl⟩, _, _, again⟩
  have converts' : ∀ m ∈ [5, 6, 5], linkGraph.Converts [] m := by
    simp only [List.mem_cons, List.not_mem_nil, or_false, forall_eq_or_imp, forall_eq]
    exact ⟨⟨[], _, compile_iff_expands.2 rfl⟩, ⟨[], _, compile_iff_expands.2 rfl⟩,
      ⟨[], _, compile_iff_expands.2 rfl⟩⟩
  refine ⟨by cbv, ?_, ?_⟩
  · obtain ⟨S, compiled, means⟩ :=
      (linkGraph.union_admits_members (t := 1) rfl fits converts ["properties", "next"]).1
    refine ⟨S, compiled, (means _ _ _ _ ?_).1.2
      ⟨_, .literal (m := 3) (by decide) rfl, (validates_literalSchema rfl).2 (by decide)⟩⟩
    rintro s (⟨member, shape⟩ | @⟨i, m, s, found, compound, compiled⟩)
    · refine (completes_literalSchema (fits _ member _ _ shape)).2 (.inr ⟨rfl, ?_⟩)
      simp only [List.mem_cons, List.not_mem_nil, or_false] at member
      rcases member with rfl | rfl | rfl <;> cases shape <;> rfl
    · rcases i with _ | _ | i
      · cases found
        exact absurd rfl (compound _ _)
      · cases found
        cases compiled.symm.trans again
        exact linkReference_completes
      · cases found
  · obtain ⟨values, compiled, -, -, canonical⟩ :=
      (linkGraph.union_admits_members (t := 4) rfl (by decide) converts' []).2 .number (.inr rfl)
        (by decide)
    obtain ⟨values', compiled', alike⟩ := canonical 7 [6, 5] [] [] rfl (by decide) (by decide)
    exact ⟨values, values', compiled, compiled', alike⟩

end RouteContract.Shape
