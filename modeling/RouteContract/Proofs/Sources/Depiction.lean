import RouteContract.Proofs.Data.Traversal
import RouteContract.Proofs.Sources.Growth

/-!
# What a description shows

A type depicts a term when it has the shape that the term asks for, with types for its parts that
depict these. A record is the exception: it is depicted by its one object type, whatever that has
got so far, so that a term can be depicted while the records that it mentions are still being walked.
What depicts a term goes on doing so while the description grows (`Depicts.mono`).

The object type of a record has a property for each of its first fields, in order (`Begun`), and it is
complete when it has one for every field.
-/

set_option autoImplicit false

namespace RouteContract.Sources

open RouteContract Shape

/-! ## Records -/

/-- Whether the instances of a class have fields. -/
def Form.isRecord : Form → Bool
  | .keyed _ => true
  | .fielded _ _ _ => true
  | .model _ _ => true
  | .enumeration _ => false
  | .plain => false
  | .controller _ => false

/-- A class of a module whose instances have fields. -/
def Module.record? (m : Module) (c : ClassId) : Option Class :=
  (m.class? c).filter fun definition => definition.form.isRecord

theorem record?_eq_some_iff {m : Module} {c : ClassId} {definition : Class} :
    m.record? c = some definition ↔
      m.class? c = some definition ∧ definition.form.isRecord = true := by
  rw [Module.record?, Option.filter_eq_some_iff]

/-! ## Parts of a term -/

/-- The terms that the description of a term goes on with. -/
def Term.parts : Term → List Term
  | .applied name arguments =>
      match standing name with
      | .tuple =>
          (if isRepeated arguments then arguments.take 1 else arguments).map Term.withoutDemand
      | .collection => (arguments.take 1).map Term.withoutDemand
      | .mapping => (if arguments.length = 2 then arguments.drop 1 else []).map Term.withoutDemand
      | _ => []
  | .union _ members => members.map Term.withoutDemand
  | .remarked base _ => [base]
  | _ => []

/-- A term mentions a class when the description of the term comes to the class. -/
def Term.Mentions (term : Term) (c : ClassId) : Prop :=
  Relation.ReflTransGen (fun outer inner => inner ∈ outer.parts) term (.declared c)

theorem Term.Mentions.of_part {term part : Term} {c : ClassId} (listed : part ∈ term.parts)
    (mentions : part.Mentions c) : term.Mentions c := Relation.ReflTransGen.head listed mentions

/-! ## Shapes of terms -/

section Shapes

variable (m : Module) (d : Description)

/-- The type of many values is the one that is told, or any where none is. -/
def Element (us : List TypeId) (e : TypeId) : Prop :=
  us = [e] ∨ us = [] ∧ e < d.types.size ∧ d.types.shape e = .any

/-- The shape of a general name by itself. -/
def GeneralShape (name : String) (s : TypeShape) : Prop :=
  match standing name with
  | .scalar kind => s = .scalar kind
  | .any => s = .any
  | .collection => ∃ e, Element d [] e ∧ s = .array e
  | .tuple =>
      if isBuildingBlock name then s = .tuple [] else ∃ e, Element d [] e ∧ s = .array e
  | .mapping => ∃ e, Element d [] e ∧ s = .object [] (some e) ""
  | .undescribed => s = .undescribed (callName name)

/-- The shape of a general name whose arguments have types. -/
def AppliedShape (name : String) (arguments : List Term) (us : List TypeId) (s : TypeShape) : Prop :=
  match standing name with
  | .tuple =>
      if isRepeated arguments then ∃ e, Element d us e ∧ s = .array e else s = .tuple us
  | .collection => ∃ e, Element d us e ∧ s = .array e
  | .mapping => ∃ e, Element d us e ∧ s = .object [] (some e) ""
  | _ => s = .undescribed (callName name)

/-- The shape of a choice. -/
def ChoiceShape (constants : List Constant) (s : TypeShape) : Prop :=
  match constants.mapM Constant.shape? with
  | none => s = .undescribed (Term.choice constants).callName
  | some [shape] => s = shape
  | some shapes => ∃ members, s = .union members ∧ (∀ u ∈ members, u < d.types.size) ∧
      members.map d.types.shape = shapes

/-- The shape of a class that is no record. -/
def ClassShape (c : ClassId) (s : TypeShape) : Prop :=
  match m.class? c with
  | none => s = .bare
  | some definition =>
      match definition.form with
      | .enumeration values => s = .enumeration values definition.name
      | .plain => s = .undescribed definition.name
      | .controller _ => s = .undescribed definition.name
      | _ => False

/-- The shape of a term whose parts have types. Records and terms with remarks have none of their
own. -/
def ShapeOf : Term → List TypeId → TypeShape → Prop
  | .nothing, _, s => s = .null
  | .general name, _, s => GeneralShape d name s
  | .declared c, _, s => ClassShape m c s
  | .applied name arguments, us, s => AppliedShape d name arguments us s
  | .union _ _, us, s => s = .union us
  | .choice constants, _, s => ChoiceShape d constants s
  | .remarked _ _, _, _ => False
  | .quoted name, _, s => s = .undescribed (Term.quoted name).callName
  | .reference name place, _, s => s = .undescribed (Term.reference name place).callName
  | .dots, _, s => s = .undescribed Term.dots.callName
  | .demanded isRequired base, _, s => s = .undescribed (Term.demanded isRequired base).callName

/-- A type depicts a term. -/
inductive Depicts : Term → TypeId → Prop
  /-- A record is depicted by its object type, all of them by one. -/
  | record {c : ClassId} {definition : Class} {t : TypeId} (known : m.record? c = some definition)
      (object : d.object? c = some t) : Depicts (.declared c) t
  | remarked {base : Term} {remarks : List Json} {t : TypeId} (depicted : Depicts base t) :
      Depicts (.remarked base remarks) t
  | made {term : Term} {us : List TypeId} {t : TypeId} (known : t < d.types.size)
      (count : us.length = term.parts.length)
      (parts : ∀ (i : Nat) (part : Term) (u : TypeId), term.parts[i]? = some part →
        us[i]? = some u → Depicts part u)
      (shape : ShapeOf m d term us (d.types.shape t)) : Depicts term t

end Shapes

variable {m : Module} {d d' : Description}

/-! ## What a shape rests on -/

/-- A type without links of its own that stays what it is. -/
structure IsLeaf (d : Description) (u : TypeId) : Prop where
  known : u < d.types.size
  links : (d.types.shape u).links = []
  closed : isOpen (d.types.shape u) = false

/-- The shape of a term rests on some leaves beside the types of the parts: it links to nothing else,
and it is the shape of the term in every description with these leaves. -/
structure RestsOn (m : Module) (d : Description) (term : Term) (us : List TypeId) (s : TypeShape)
    (leaves : List TypeId) : Prop where
  leaf : ∀ u ∈ leaves, IsLeaf d u
  links : ∀ u ∈ s.links, u ∈ us ∨ u ∈ leaves
  closed : isOpen s = false
  stays : ∀ d' : Description,
    (∀ u ∈ leaves, u < d'.types.size ∧ d'.types.shape u = d.types.shape u) →
      ShapeOf m d' term us s

/-- The shape of a constant has no links, and no properties to come. -/
theorem Constant.shape?_cases {c : Constant} {s : TypeShape} (h : c.shape? = some s) :
    s = .null ∨ ∃ kind value, c.scalar? = some (kind, value) ∧ s = .literal kind value := by
  unfold Constant.shape? at h
  split at h
  · exact .inl (Option.some.inj h).symm
  · obtain ⟨scalar, found, rfl⟩ := Option.map_eq_some_iff.1 h
    exact .inr ⟨scalar.1, scalar.2, found, rfl⟩

section RestsOn

variable {term : Term} {us : List TypeId} {s : TypeShape}

/-- A shape that does not depend on the description rests on nothing. -/
theorem restsOn_nil (links : ∀ u ∈ s.links, u ∈ us) (closed : isOpen s = false)
    (shape : ∀ d : Description, ShapeOf m d term us s) : RestsOn m d term us s [] :=
  ⟨nofun, fun u linked => .inl (links u linked), closed, fun d' _ => shape d'⟩

/-- A shape of many values of one type rests on that type where no part tells it. -/
theorem exists_restsOn_element {told : List TypeId} {e : TypeId} (element : Element d told e)
    (within : told ⊆ us) (links : s.links = [e]) (closed : isOpen s = false)
    (shape : ∀ d' : Description, Element d' told e → ShapeOf m d' term us s) :
    ∃ leaves, RestsOn m d term us s leaves := by
  rcases element with rfl | ⟨rfl, known, any⟩
  · refine ⟨[], restsOn_nil (fun u linked => ?_) closed fun d' => shape d' (.inl rfl)⟩
    rw [links] at linked
    exact within linked
  · refine ⟨[e], fun u listed => ?_, fun u linked => .inr (links ▸ linked), closed, ?_⟩
    · rw [List.mem_singleton.1 listed]
      exact ⟨known, by rw [any]; rfl, by rw [any]; rfl⟩
    · intro d' stays
      obtain ⟨known', same⟩ := stays e (List.mem_singleton_self e)
      exact shape d' (.inr ⟨rfl, known', same.trans any⟩)

theorem exists_restsOn_general {name : String} (h : GeneralShape d name s) :
    ∃ leaves, RestsOn m d (.general name) us s leaves := by
  cases known : standing name with
  | scalar | any | undescribed =>
      have same := h
      simp only [GeneralShape, known] at same
      subst same
      exact ⟨[], restsOn_nil nofun rfl fun d' => by simp only [ShapeOf, GeneralShape, known]⟩
  | collection | mapping =>
      simp only [GeneralShape, known] at h
      obtain ⟨e, element, rfl⟩ := h
      refine exists_restsOn_element element (List.nil_subset _) rfl rfl fun d' element => ?_
      simp only [ShapeOf, GeneralShape, known]
      exact ⟨e, element, rfl⟩
  | tuple =>
      simp only [GeneralShape, known] at h
      split at h
      · next block =>
          subst h
          refine ⟨[], restsOn_nil nofun rfl fun d' => ?_⟩
          simp only [ShapeOf, GeneralShape, known, block, if_true]
      · next block =>
          obtain ⟨e, element, rfl⟩ := h
          refine exists_restsOn_element element (List.nil_subset _) rfl rfl fun d' element => ?_
          simp only [ShapeOf, GeneralShape, known, if_neg block]
          exact ⟨e, element, rfl⟩

theorem exists_restsOn_applied {name : String} {arguments : List Term}
    (h : AppliedShape d name arguments us s) :
    ∃ leaves, RestsOn m d (.applied name arguments) us s leaves := by
  cases known : standing name with
  | scalar | any | undescribed =>
      have same := h
      simp only [AppliedShape, known] at same
      subst same
      exact ⟨[], restsOn_nil nofun rfl fun d' => by simp only [ShapeOf, AppliedShape, known]⟩
  | collection | mapping =>
      simp only [AppliedShape, known] at h
      obtain ⟨e, element, rfl⟩ := h
      refine exists_restsOn_element element (List.Subset.refl _) rfl rfl fun d' element => ?_
      simp only [ShapeOf, AppliedShape, known]
      exact ⟨e, element, rfl⟩
  | tuple =>
      simp only [AppliedShape, known] at h
      split at h
      · next repeated =>
          obtain ⟨e, element, rfl⟩ := h
          refine exists_restsOn_element element (List.Subset.refl _) rfl rfl fun d' element => ?_
          simp only [ShapeOf, AppliedShape, known, repeated, if_true]
          exact ⟨e, element, rfl⟩
      · next repeated =>
          subst h
          refine ⟨[], restsOn_nil (fun u linked => linked) rfl fun d' => ?_⟩
          simp only [ShapeOf, AppliedShape, known, if_neg repeated]

theorem exists_restsOn_choice {constants : List Constant} (h : ChoiceShape d constants s) :
    ∃ leaves, RestsOn m d (.choice constants) us s leaves := by
  cases found : constants.mapM Constant.shape? with
  | none =>
      have same := h
      simp only [ChoiceShape, found] at same
      subst same
      exact ⟨[], restsOn_nil nofun rfl fun d' => by simp only [ShapeOf, ChoiceShape, found]⟩
  | some shapes =>
      have plain (s : TypeShape) (listed : s ∈ shapes) : s.links = [] ∧ isOpen s = false := by
        obtain ⟨c, -, fits⟩ := exists_mem_of_forall₂ (forall₂_of_mapM_eq_some found) listed
        rcases Constant.shape?_cases fits with rfl | ⟨kind, value, -, rfl⟩
        · exact ⟨rfl, rfl⟩
        · exact ⟨rfl, rfl⟩
      by_cases single : ∃ s, shapes = [s]
      · obtain ⟨s', rfl⟩ := single
        have same := h
        simp only [ChoiceShape, found] at same
        subst same
        obtain ⟨links, closed⟩ := plain s (List.mem_singleton_self s)
        refine ⟨[], restsOn_nil (fun u linked => ?_) closed fun d' => ?_⟩
        · rw [links] at linked
          cases linked
        · simp only [ShapeOf, ChoiceShape, found]
      · have several (d : Description) : ChoiceShape d constants s ↔ ∃ members, s = .union members ∧
            (∀ u ∈ members, u < d.types.size) ∧ members.map d.types.shape = shapes := by
          rw [ChoiceShape, found]
          split
          · next missing => cases missing
          · next same =>
              cases same
              exact absurd ⟨_, rfl⟩ single
          · next same =>
              cases same
              exact Iff.rfl
        obtain ⟨members, rfl, known, same⟩ := (several d).1 h
        refine ⟨members, fun u listed => ?_, fun u linked => .inr linked, rfl, fun d' stays => ?_⟩
        · obtain ⟨links, closed⟩ := plain _ (same ▸ List.mem_map_of_mem listed)
          exact ⟨known u listed, links, closed⟩
        · refine (several d').2 ⟨members, rfl, fun u listed => (stays u listed).1, ?_⟩
          rw [← same]
          exact List.map_congr_left fun u listed => (stays u listed).2

/-- **Every shape of a term rests on leaves.** -/
theorem ShapeOf.exists_restsOn (h : ShapeOf m d term us s) :
    ∃ leaves, RestsOn m d term us s leaves := by
  cases term with
  | nothing | quoted | reference | dots | demanded =>
      cases h
      exact ⟨[], restsOn_nil nofun rfl fun _ => rfl⟩
  | union =>
      cases h
      exact ⟨[], restsOn_nil (fun u linked => linked) rfl fun _ => rfl⟩
  | remarked => exact h.elim
  | general name => exact exists_restsOn_general h
  | applied name arguments => exact exists_restsOn_applied h
  | choice constants => exact exists_restsOn_choice h
  | declared c =>
      have plain : s.links = [] ∧ isOpen s = false := by
        simp only [ShapeOf, ClassShape] at h
        split at h
        · exact h ▸ ⟨rfl, rfl⟩
        · split at h
          · exact h ▸ ⟨rfl, rfl⟩
          · exact h ▸ ⟨rfl, rfl⟩
          · exact h ▸ ⟨rfl, rfl⟩
          · exact h.elim
      refine ⟨[], restsOn_nil (fun u linked => ?_) plain.2 fun _ => h⟩
      rw [plain.1] at linked
      cases linked

end RestsOn

/-! ## Depictions stay -/

/-- **What is depicted stays depicted.** -/
theorem Depicts.mono (grows : Grows d d') {term : Term} {t : TypeId} (h : Depicts m d term t) :
    Depicts m d' term t := by
  induction h with
  | record known object => exact .record known (grows.object _ _ object)
  | remarked _ ih => exact .remarked ih
  | made known count _ shape ih =>
      obtain ⟨leaves, rests⟩ := shape.exists_restsOn
      refine .made (Nat.lt_of_lt_of_le known grows.size) count ih ?_
      rw [grows.shape _ known rests.closed]
      refine rests.stays d' fun u listed => ?_
      have leaf := rests.leaf u listed
      exact ⟨Nat.lt_of_lt_of_le leaf.known grows.size, grows.shape u leaf.known leaf.closed⟩

theorem Depicts.record_iff {c : ClassId} {definition : Class} {t : TypeId}
    (known : m.record? c = some definition) :
    Depicts m d (.declared c) t ↔ d.object? c = some t := by
  constructor
  · intro h
    cases h with
    | record _ object => exact object
    | made _ _ _ shape =>
        obtain ⟨found, isRecord⟩ := record?_eq_some_iff.1 known
        simp only [ShapeOf, ClassShape, found] at shape
        split at shape
        · next form => rw [form] at isRecord; cases isRecord
        · next form => rw [form] at isRecord; cases isRecord
        · next form => rw [form] at isRecord; cases isRecord
        · exact shape.elim
  · exact fun object => .record known object

end RouteContract.Sources
