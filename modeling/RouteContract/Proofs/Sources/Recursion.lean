import RouteContract.Proofs.Sources.Fields
import RouteContract.Proofs.Sources.Steps

/-!
# Recursive classes

Classes may refer to each other in any way. Whatever is described of them one after the other, as long
as nothing fails, ends in a graph in which each class has one object type with a property for each of
its fields, and in which every cycle passes through one of these object types. Such a graph can be
compiled: every type in it has a schema, or leads to one that no rule makes a schema of.
-/

set_option autoImplicit false

namespace RouteContract.Sources

open RouteContract Shape

variable {m : Module} {d : Description}

/-! ## Several terms -/

/-- Describing several terms one after the other. -/
theorem describes_all (sound : Sound m d) (terms : List Term) :
    Describes m (AnyMentions (terms.map Term.withoutDemand))
      (fun d' ts => List.Forall₂ (fun term t => Depicts m d' term.withoutDemand t) terms ts) d
      (terms.mapM m.describe d) := by
  induction terms generalizing d with
  | nil =>
      rw [List.mapM_nil]
      exact describes_value sound .nil
  | cons term rest ih =>
      rw [List.mapM_cons]
      refine Describes.cons (R := fun d (term : Term) t => Depicts m d term.withoutDemand t)
        (fun _ _ _ _ keeps h => h.mono keeps.grows) ?_ fun d' _ sound' => ?_
      · exact (describes sound term).blaming fun c mentions => ⟨_, List.mem_cons_self .., mentions⟩
      · exact (ih sound').blaming fun _ mentions => mentions.tail _

theorem mapM_describe_eq_of_le {steps : Nat} (enough : m.classes.length + 2 ≤ steps)
    (sound : Sound m d) (terms : List Term) :
    terms.mapM m.describe d = terms.mapM (describeTerm (describeClass m steps)) d := by
  induction terms generalizing d with
  | nil => rfl
  | cons term rest ih =>
      rw [List.mapM_cons, List.mapM_cons]
      exact bind_congr (describes sound term) (describe_eq_of_le enough sound term)
        fun t d' _ sound' _ => bind_congr_left (ih sound') _

/-! ## Cycles -/

/-- Whether a type is the object type of a class. -/
def IsClassObject (d : Description) (t : TypeId) : Prop := ∃ c, d.object? c = some t

theorem Sound.isObject (sound : Sound m d) {t : TypeId} (object : IsClassObject d t) :
    d.types.isObject t = true := by
  obtain ⟨c, object⟩ := object
  obtain ⟨definition, properties, begun⟩ := sound.begun c t object
  rw [Graph.isObject, begun.shape]

/-- **Every cycle passes through the object type of a class.** -/
theorem Sound.not_transGen (sound : Sound m d) (t : TypeId) :
    ¬ Relation.TransGen (fun t u => ¬ IsClassObject d t ∧ u ∈ (d.types.shape t).links) t t :=
  Graph.not_transGen_of_falling
    (fun t other => sound.falls t fun c object => other ⟨c, object⟩) t

theorem Sound.guarded (sound : Sound m d) (root : TypeId) : d.types.Guarded root :=
  Graph.guarded_of_links (fun _ => sound.isObject) sound.not_transGen root

/-! ## What is shown -/

/-- What a description shows of a module when terms have been described one after the other. -/
structure Shows (m : Module) (terms : List Term) (ts : List TypeId) (d : Description) : Prop where
  terms : List.Forall₂ (fun term t => Depicts m d term.withoutDemand t) terms ts
  /-- All occurrences of a class have one type. -/
  one : ∀ c definition, m.record? c = some definition →
    ∀ t, Depicts m d (.declared c) t ↔ d.object? c = some t
  /-- Different classes have different types. -/
  distinct : ∀ c c' t, d.object? c = some t → d.object? c' = some t → c = c'
  /-- The object type of a class has the fields of the class in order. -/
  fields : ∀ c t, d.object? c = some t → ∃ definition properties, m.record? c = some definition ∧
    d.types.shape t = .object properties none definition.name ∧
    List.Forall₂ (Portrays m d definition) (m.fieldsOf definition) properties
  cycles : ∀ t,
    ¬ Relation.TransGen (fun t u => ¬ IsClassObject d t ∧ u ∈ (d.types.shape t).links) t t
  /-- Compiling ends. -/
  ends : ∀ t path visited, Acc (fun inner outer => d.types.Calls outer inner) ⟨visited, path, t⟩
  outcome : ∀ t path visited, (∃ s, d.types.compile t path visited = .ok s) ∨
    ∃ u, d.types.Reaches t u ∧ d.types.IsUnruled u ∧
      d.types.compile t path visited = .error (d.types.inconvertible u)

theorem shows_of_eq_ok {terms : List Term} {ts : List TypeId}
    (described : terms.mapM m.describe .empty = (.ok ts, d)) : Shows m terms ts d := by
  have run := describes_all (sound_empty m) terms
  rw [described] at run
  have sound := run.sound
  have kinds (t : TypeId) : d.types.WellKinded t := fun u _ => sound.fits u
  refine ⟨run.ok ts rfl, fun c definition found t => Depicts.record_iff found, sound.distinct,
    fun c t object => ?_, sound.not_transGen,
    fun t path visited => ((sound.guarded t).compilation_ends path visited).1,
    fun t path visited => (sound.guarded t).compile_cases (kinds t) .refl path visited⟩
  rcases run.news c t rfl object with ⟨t', definition, properties, begun, all⟩ | ⟨⟨_, failed⟩, -⟩
  · obtain rfl : t' = t := Option.some.inj (begun.object.symm.trans object)
    exact ⟨definition, properties, begun.found, begun.shape, begun.forall₂ all⟩
  · cases failed

/-- **Recursive classes are described by graphs that can be compiled.** Describing comes to the same
with any greater number of steps; and where it fails nowhere, the description shows all terms, with one
object type for each class that has a property for each field, each field being one that the class
knows by a name of its own. -/
theorem ofDocument_shows {name : String} {document : ModuleDocument}
    (made : Module.ofDocument name document = .ok m) (terms : List Term) :
    (∀ steps, m.classes.length + 2 ≤ steps →
      terms.mapM (describeTerm (describeClass m steps)) .empty = terms.mapM m.describe .empty) ∧
    (∀ ts d, terms.mapM m.describe .empty = (.ok ts, d) → Shows m terms ts d) ∧
    ∀ definition ∈ m.classes, definition.attributes.Nodup ∧
      (m.fieldsOf definition).length = definition.attributes.length ∧
      (definition.form.isModel = false →
        (m.fieldsOf definition).map (·.name) = definition.attributes) := by
  refine ⟨fun steps enough => (mapM_describe_eq_of_le enough (sound_empty m) terms).symm,
    fun ts d described => shows_of_eq_ok described, fun definition listed => ?_⟩
  have named := ofDocument_isNamed made definition listed
  exact ⟨nodup_attributes named, length_fieldsOf m definition, map_name_fieldsOf named⟩

/-- A computation of what a document comes to tells what is described of it. -/
theorem exists_described (name : String) (document : ModuleDocument) (terms : List Term)
    (check : Module → List TypeId → Description → Bool)
    (computed : ((Module.ofDocument name document).toOption.any fun m =>
      (terms.mapM m.describe .empty).1.toOption.any fun ts =>
        check m ts (terms.mapM m.describe .empty).2) = true) :
    ∃ m ts d, Module.ofDocument name document = .ok m ∧
      terms.mapM m.describe .empty = (.ok ts, d) ∧ check m ts d = true := by
  cases made : Module.ofDocument name document with
  | error e =>
      rw [made] at computed
      cases computed
  | ok m =>
      rw [made] at computed
      simp only [Except.toOption, Option.any_some] at computed
      cases run : terms.mapM m.describe .empty with
      | mk answer d =>
        rw [run] at computed
        cases answer with
        | error e => cases computed
        | ok ts => exact ⟨m, ts, d, rfl, run, computed⟩

/-- Persons with parents and friends, and houses with the persons in them. -/
def familyDocument : ModuleDocument :=
  let field (name : String) (hint : Hint) : FieldStatement :=
    ⟨name, hint, none, none, false, false, [], "", ""⟩
  ⟨[⟨"Person", none, .fielded [field "name" (.named "str"),
      field "parent" (.optional (.quoted "Person")),
      field "friends" (.applied "list" [.remarked (.quoted "Person") [.null]]),
      field "home" (.quoted "House")]⟩,
    ⟨"House", none, .keyed true true [field "owner" (.union [.named "Person", .named "str"]),
      field "rooms" (.applied "dict" [.named "str", .applied "tuple" [.quoted "House"]])]⟩,
    ⟨"Castle", some ["House"], .keyed false true [field "guests" (.applied "list" [.quoted "Castle"])]⟩],
    []⟩

/-- Castles, houses and persons, each described again after what leads to it. -/
def familyTerms : List Term :=
  [.applied "list" [.declared 2], .declared 1, .union true [.declared 0, .nothing], .declared 2]

/-- **Castles, houses and persons** are described with one object type for each. -/
theorem familyDocument_shows :
    ∃ m ts d, Module.ofDocument "family" familyDocument = .ok m ∧
      familyTerms.mapM m.describe .empty = (.ok ts, d) ∧ Shows m familyTerms ts d ∧
      (List.range 3).map d.object? = [some 1, some 4, some 0] := by
  obtain ⟨m, ts, d, made, run, objects⟩ := exists_described "family" familyDocument familyTerms
    (fun _ _ d => (List.range 3).map d.object? == [some 1, some 4, some 0]) (by decide +kernel)
  exact ⟨m, ts, d, made, run, (ofDocument_shows made familyTerms).2.1 ts d run, eq_of_beq objects⟩

end RouteContract.Sources
