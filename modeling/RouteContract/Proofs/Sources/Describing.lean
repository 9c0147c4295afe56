import RouteContract.Proofs.Sources.Record

/-!
# What describing does

Describing goes on from a sound description to a sound description, keeps what is there, and makes a
type that depicts its term. It fails only where a record stalls. Each record that is begun on the way
is complete at the end, or stalled when describing has failed.
-/

set_option autoImplicit false

namespace RouteContract.Sources

open RouteContract Shape

/-- What holds after a computation that describes: `post` of its answer where it has one, and
otherwise that a record is stalled which is to `blame`. -/
structure Describes (m : Module) {α : Type} (blame : ClassId → Prop)
    (post : Description → α → Prop) (d : Description)
    (answer : Except SourceError α × Description) : Prop where
  keeps : Keeps d answer.2
  sound : Sound m answer.2
  news : ∀ c t, d.object? c = none → answer.2.object? c = some t →
    Complete m answer.2 c ∨ (∃ e, answer.1 = .error e) ∧ Stalled m answer.2 c
  ok : ∀ a, answer.1 = .ok a → post answer.2 a
  error : ∀ e, answer.1 = .error e → ∃ c, blame c ∧ Stalled m answer.2 c

variable {m : Module} {d d' : Description} {α β : Type} {blame blame' : ClassId → Prop}
  {post : Description → α → Prop} {post' : Description → β → Prop}

/-- Whether a shape is a constant. -/
def isConstant : TypeShape → Bool
  | .literal _ _ => true
  | _ => false

theorem fits_of_not_constant {s : TypeShape} (other : isConstant s = false) (kind : ScalarKind)
    (value : Json) (same : s = .literal kind value) : kind.admits value = true := by
  subst same
  cases other

/-! ## Putting computations together -/

theorem describes_value {a : α} (sound : Sound m d) (shown : post d a) :
    Describes m blame post d (.ok a, d) where
  keeps := .refl d
  sound := sound
  news := by
    intro c t new object
    rw [new] at object
    cases object
  ok := by
    rintro _ ⟨⟩
    exact shown
  error := nofun

theorem describes_addType {post : Description → TypeId → Prop} {s : TypeShape} (sound : Sound m d)
    (links : ∀ u ∈ s.links, u < d.types.size)
    (fits : ∀ kind value, s = .literal kind value → kind.admits value = true)
    (shown : post (d.push s) d.types.size) : Describes m blame post d (addType s d) where
  keeps := keeps_push d s
  sound := sound.push links fits
  news := by
    intro c t new object
    rw [addType, object?_push, new] at object
    cases object
  ok := by
    rintro _ ⟨⟩
    exact shown
  error := nofun

theorem Describes.imp {answer : Except SourceError α × Description}
    {post' : Description → α → Prop} (h : Describes m blame post d answer)
    (worse : ∀ c, blame c → blame' c) (weaker : ∀ a, post answer.2 a → post' answer.2 a) :
    Describes m blame' post' d answer where
  keeps := h.keeps
  sound := h.sound
  news := h.news
  ok := fun a done => weaker a (h.ok a done)
  error := by
    intro e failed
    obtain ⟨c, blamed, stalled⟩ := h.error e failed
    exact ⟨c, worse c blamed, stalled⟩

theorem Describes.blaming {answer : Except SourceError α × Description}
    (h : Describes m blame post d answer) (worse : ∀ c, blame c → blame' c) :
    Describes m blame' post d answer :=
  h.imp worse fun _ shown => shown

/-- What follows an answer is described from where the answer leaves off. -/
theorem Describes.bind {x : Describing α} {f : α → Describing β}
    (first : Describes m blame post d (x d))
    (second : ∀ a d', Keeps d d' → Sound m d' → post d' a → Describes m blame post' d' (f a d')) :
    Describes m blame post' d ((x >>= f) d) := by
  cases run : x d with
  | mk answer d' =>
    rw [run] at first
    cases answer with
    | error e =>
        rw [run_bind_error run]
        exact ⟨first.keeps, first.sound,
          fun c t new object => (first.news c t new object).imp_right fun h => ⟨⟨e, rfl⟩, h.2⟩,
          nofun, fun _ _ => first.error e rfl⟩
    | ok a =>
        rw [run_bind_ok run]
        have after := second a d' first.keeps first.sound (first.ok a rfl)
        refine ⟨first.keeps.trans after.keeps, after.sound, fun c t new object => ?_, after.ok,
          after.error⟩
        cases between : d'.object? c with
        | none => exact after.news c t between object
        | some t' =>
            rcases first.news c t' new between with complete | ⟨⟨e, failed⟩, -⟩
            · exact .inl (complete.keep after.keeps)
            · cases failed

/-- Describing one thing after the other: what holds of an answer has to stay while the others are
described. -/
theorem Describes.cons {κ : Type} {R : Description → κ → TypeId → Prop}
    (stays : ∀ d d' k u, Keeps d d' → R d k u → R d' k u) {x : Describing TypeId}
    {y : Describing (List TypeId)} {k : κ} {ks : List κ}
    (first : Describes m blame (fun d' u => R d' k u) d (x d))
    (rest : ∀ d', Keeps d d' → Sound m d' →
      Describes m blame (fun d' us => List.Forall₂ (R d') ks us) d' (y d')) :
    Describes m blame (fun d' us => List.Forall₂ (R d') (k :: ks) us) d
      ((do let u ← x; return u :: (← y)) d) := by
  refine first.bind fun u d₁ keeps sound head => ?_
  refine (rest d₁ keeps sound).bind fun us d₂ keeps' sound' tail => ?_
  exact describes_value sound' (.cons (stays d₁ d₂ k u keeps' head) tail)

/-! ## Types made of the types of parts -/

/-- One of several terms mentions a class. -/
def AnyMentions (terms : List Term) (c : ClassId) : Prop := ∃ term ∈ terms, term.Mentions c

theorem AnyMentions.tail {terms : List Term} {c : ClassId} (h : AnyMentions terms c) (term : Term) :
    AnyMentions (term :: terms) c := by
  obtain ⟨other, listed, mentions⟩ := h
  exact ⟨other, List.mem_cons_of_mem _ listed, mentions⟩

theorem AnyMentions.outer {term : Term} {c : ClassId} (h : AnyMentions term.parts c) :
    term.Mentions c := by
  obtain ⟨part, listed, mentions⟩ := h
  exact .of_part listed mentions

/-- The type of many values of which one part tells the type, if any does. -/
def DepictsElement (m : Module) (d : Description) (parts : List Term) (e : TypeId) : Prop :=
  ∃ us, List.Forall₂ (Depicts m d) parts us ∧ Element d us e

theorem Depicts.of_parts {term : Term} {us : List TypeId} {t : TypeId} (known : t < d.types.size)
    (parts : List.Forall₂ (Depicts m d) term.parts us)
    (shape : ShapeOf m d term us (d.types.shape t)) : Depicts m d term t := by
  obtain ⟨count, each⟩ := List.forall₂_iff_get.1 parts
  refine .made known count.symm (fun i part u listed typed => ?_) shape
  obtain ⟨inside, rfl⟩ := List.getElem?_eq_some_iff.1 listed
  obtain ⟨inside', rfl⟩ := List.getElem?_eq_some_iff.1 typed
  exact each i inside inside'

theorem Depicts.of_bare {term : Term} {t : TypeId} (known : t < d.types.size)
    (bare : term.parts = []) (shape : ShapeOf m d term [] (d.types.shape t)) : Depicts m d term t := by
  refine .of_parts known ?_ shape
  rw [bare]
  exact .nil

theorem depictsAll_mono (grows : Grows d d') {terms : List Term} {us : List TypeId}
    (h : List.Forall₂ (Depicts m d) terms us) : List.Forall₂ (Depicts m d') terms us :=
  h.imp fun _ _ depicts => depicts.mono grows

theorem Element.mono (grows : Grows d d') {us : List TypeId} {e : TypeId} (h : Element d us e) :
    Element d' us e := by
  rcases h with told | ⟨none, known, any⟩
  · exact .inl told
  · refine .inr ⟨none, Nat.lt_of_lt_of_le known grows.size, ?_⟩
    rw [grows.shape e known (by rw [any]; rfl), any]

theorem DepictsElement.known {parts : List Term} {e : TypeId} (sound : Sound m d)
    (h : DepictsElement m d parts e) : e < d.types.size := by
  obtain ⟨us, depicted, rfl | ⟨-, known, -⟩⟩ := h
  · cases depicted with
    | cons first _ => exact sound.depicted first
  · exact known

theorem depictsElement_singleton {part : Term} {e : TypeId} (h : Depicts m d part e) :
    DepictsElement m d [part] e := ⟨[e], .cons h .nil, .inl rfl⟩

/-- Where nothing tells the type of many values, it is any. -/
theorem describes_any (sound : Sound m d) :
    Describes m blame (fun d' e => DepictsElement m d' [] e) d (addType .any d) := by
  refine describes_addType sound (List.forall_mem_nil _) (fits_of_not_constant rfl)
    ⟨[], .nil, .inr ⟨rfl, ?_, shape_push_self d .any⟩⟩
  rw [size_push]
  exact Nat.lt_succ_self _

/-- A type that is made around the type of many values. -/
theorem Describes.wrap {x : Describing TypeId} {term : Term} {parts : List Term}
    (same : term.parts = parts) (wrap : TypeId → TypeShape)
    (element : Describes m (AnyMentions parts) (fun d' e => DepictsElement m d' parts e) d (x d))
    (links : ∀ e, (wrap e).links = [e]) (other : ∀ e, isConstant (wrap e) = false)
    (shape : ∀ (d' : Description) us e, us.length = parts.length → Element d' us e →
      ShapeOf m d' term us (wrap e)) :
    Describes m term.Mentions (fun d' t => Depicts m d' term t) d
      ((x >>= fun e => addType (wrap e)) d) := by
  subst same
  refine (element.blaming fun _ => AnyMentions.outer).bind
    fun e d' _ sound shown => ?_
  have grows := (keeps_push d' (wrap e)).grows
  have known := shown.known sound
  obtain ⟨us, parts, told⟩ := shown
  refine describes_addType sound (fun u linked => ?_)
    (fits_of_not_constant (other e)) ?_
  · rw [links, List.mem_singleton] at linked
    exact linked ▸ known
  · refine .of_parts ?_ (depictsAll_mono grows parts) ?_
    · rw [size_push]
      exact Nat.lt_succ_self _
    · rw [shape_push_self]
      exact shape _ us e parts.length_eq.symm (told.mono grows)

/-- A type that is made of the types of all parts. -/
theorem Describes.gather {x : Describing (List TypeId)} {term : Term} {parts : List Term}
    (same : term.parts = parts) (make : List TypeId → TypeShape)
    (each : Describes m (AnyMentions parts) (fun d' us => List.Forall₂ (Depicts m d') parts us) d (x d))
    (links : ∀ us, (make us).links = us) (other : ∀ us, isConstant (make us) = false)
    (shape : ∀ (d' : Description) us, ShapeOf m d' term us (make us)) :
    Describes m term.Mentions (fun d' t => Depicts m d' term t) d
      ((x >>= fun us => addType (make us)) d) := by
  subst same
  refine (each.blaming fun _ => AnyMentions.outer).bind
    fun us d' _ sound shown => ?_
  refine describes_addType sound (fun u linked => ?_)
    (fits_of_not_constant (other us)) (.of_parts ?_
      (depictsAll_mono (keeps_push d' (make us)).grows shown) ?_)
  · rw [links] at linked
    obtain ⟨i, inside, rfl⟩ := List.mem_iff_getElem.1 linked
    obtain ⟨count, each⟩ := List.forall₂_iff_get.1 shown
    exact sound.depicted (each i (count ▸ inside) inside)
  · rw [size_push]
    exact Nat.lt_succ_self _
  · rw [shape_push_self]
    exact shape _ us

/-- A type that is made of nothing else. -/
theorem describes_plain {term : Term} {s : TypeShape} (sound : Sound m d) (links : s.links = [])
    (fits : ∀ kind value, s = .literal kind value → kind.admits value = true)
    (bare : term.parts = []) (shape : ∀ d' : Description, ShapeOf m d' term [] s) :
    Describes m blame (fun d' t => Depicts m d' term t) d (addType s d) := by
  refine describes_addType sound (fun u linked => ?_) fits (.of_bare ?_ bare ?_)
  · rw [links] at linked
    cases linked
  · rw [size_push]
    exact Nat.lt_succ_self _
  · rw [shape_push_self]
    exact shape _

/-! ## General names -/

theorem describes_general (sound : Sound m d) (name : String) :
    Describes m (Term.general name).Mentions (fun d' t => Depicts m d' (.general name) t) d
      (describeGeneral name d) := by
  have untold (wrap : TypeId → TypeShape) (links : ∀ e, (wrap e).links = [e])
      (other : ∀ e, isConstant (wrap e) = false)
      (shape : ∀ (d' : Description) e, Element d' [] e → GeneralShape d' name (wrap e)) :
      Describes m (Term.general name).Mentions (fun d' t => Depicts m d' (.general name) t) d
        ((addType .any >>= fun e => addType (wrap e)) d) := by
    refine (describes_any sound).wrap rfl wrap links other fun d' us e count told => ?_
    rw [List.length_eq_zero_iff.1 count] at told
    exact shape d' e told
  unfold describeGeneral
  cases known : standing name with
  | scalar | any | undescribed =>
      exact describes_plain sound rfl (fits_of_not_constant rfl) rfl
        fun d' => by simp only [ShapeOf, GeneralShape, known]
  | collection =>
      refine untold .array (fun _ => rfl) (fun _ => rfl) fun d' e told => ?_
      simp only [GeneralShape, known]
      exact ⟨e, told, rfl⟩
  | mapping =>
      refine untold (fun e => .object [] (some e) "") (fun _ => rfl) (fun _ => rfl) fun d' e told => ?_
      simp only [GeneralShape, known]
      exact ⟨e, told, rfl⟩
  | tuple =>
      simp only
      split
      · next block =>
          exact describes_plain sound rfl (fits_of_not_constant rfl) rfl fun d' => by
            simp only [ShapeOf, GeneralShape, known, block, if_true]
      · next block =>
          refine untold .array (fun _ => rfl) (fun _ => rfl) fun d' e told => ?_
          simp only [GeneralShape, known, if_neg block]
          exact ⟨e, told, rfl⟩

/-! ## Choices -/

theorem kinded_admits {v value : Json} {kind : ScalarKind}
    (h : Constant.scalar?.kinded v = some (kind, value)) : kind.admits value = true := by
  cases v <;> cases h <;> rfl

theorem Constant.shape?_fits {c : Constant} {s : TypeShape} (h : c.shape? = some s) (kind : ScalarKind)
    (value : Json) (same : s = .literal kind value) : kind.admits value = true := by
  rcases Constant.shape?_cases h with rfl | ⟨kind', value', scalar, rfl⟩
  · cases same
  · cases same
    cases c with
    | value v => exact kinded_admits scalar
    | bytes => cases scalar
    | member owner shown plain =>
        obtain ⟨v, -, scalar⟩ := Option.bind_eq_some_iff.1 scalar
        exact kinded_admits scalar

/-- A type has a shape. -/
def HasShape (d : Description) (s : TypeShape) (u : TypeId) : Prop :=
  u < d.types.size ∧ d.types.shape u = s

theorem HasShape.keep {s : TypeShape} {u : TypeId} (keeps : Keeps d d') (h : HasShape d s u) :
    HasShape d' s u :=
  ⟨Nat.lt_of_lt_of_le h.1 keeps.size, (keeps.shape u h.1).trans h.2⟩

theorem hasShape_push (d : Description) (s : TypeShape) : HasShape (d.push s) s d.types.size := by
  refine ⟨?_, shape_push_self d s⟩
  rw [size_push]
  exact Nat.lt_succ_self _

theorem haveShapes {shapes : List TypeShape} {us : List TypeId}
    (h : List.Forall₂ (HasShape d) shapes us) :
    (∀ u ∈ us, u < d.types.size) ∧ us.map d.types.shape = shapes := by
  induction h with
  | nil => exact ⟨nofun, rfl⟩
  | cons first _ ih =>
      refine ⟨fun u listed => ?_, congrArg₂ List.cons first.2 ih.2⟩
      rcases List.mem_cons.1 listed with rfl | listed
      · exact first.1
      · exact ih.1 u listed

theorem describes_shapes (sound : Sound m d) (shapes : List TypeShape)
    (plain : ∀ s ∈ shapes, s.links = [] ∧
      ∀ kind value, s = .literal kind value → kind.admits value = true) :
    Describes m blame (fun d' us => List.Forall₂ (HasShape d') shapes us) d
      (shapes.mapM addType d) := by
  induction shapes generalizing d with
  | nil =>
      rw [List.mapM_nil]
      exact describes_value sound .nil
  | cons s rest ih =>
      rw [List.mapM_cons]
      obtain ⟨links, fits⟩ := plain s (List.mem_cons_self ..)
      refine Describes.cons (fun _ _ _ _ keeps h => h.keep keeps) ?_ fun d' _ sound' => ?_
      · refine describes_addType sound (fun u linked => ?_) fits (hasShape_push d s)
        rw [links] at linked
        cases linked
      · exact ih sound' fun s listed => plain s (List.mem_cons_of_mem _ listed)

/-- A union of types of given shapes. -/
theorem describes_union_of_shapes {term : Term} (sound : Sound m d) (bare : term.parts = [])
    {shapes : List TypeShape}
    (plain : ∀ s ∈ shapes, s.links = [] ∧
      ∀ kind value, s = .literal kind value → kind.admits value = true)
    (shape : ∀ (d' : Description) us, (∀ u ∈ us, u < d'.types.size) → us.map d'.types.shape = shapes →
      ShapeOf m d' term [] (.union us)) :
    Describes m blame (fun d' t => Depicts m d' term t) d
      ((do addType (.union (← shapes.mapM addType))) d) := by
  refine (describes_shapes sound shapes plain).bind fun us d' _ sound' shown => ?_
  refine describes_addType sound' (haveShapes shown).1 (fits_of_not_constant rfl) (.of_bare ?_ bare ?_)
  · rw [size_push]
    exact Nat.lt_succ_self _
  · have kept := haveShapes (shown.imp fun _ _ h => h.keep (keeps_push d' (.union us)))
    rw [shape_push_self]
    exact shape _ us kept.1 kept.2

theorem describes_choice (sound : Sound m d) (constants : List Constant) :
    Describes m blame (fun d' t => Depicts m d' (.choice constants) t) d
      (describeChoice constants d) := by
  unfold describeChoice
  cases found : constants.mapM Constant.shape? with
  | none =>
      exact describes_plain sound rfl (fits_of_not_constant rfl) rfl
        fun d' => by simp only [ShapeOf, ChoiceShape, found]
  | some shapes =>
      have plain (s : TypeShape) (listed : s ∈ shapes) :
          s.links = [] ∧ ∀ kind value, s = .literal kind value → kind.admits value = true := by
        obtain ⟨c, -, shape⟩ := exists_mem_of_forall₂ (forall₂_of_mapM_eq_some found) listed
        refine ⟨?_, Constant.shape?_fits shape⟩
        rcases Constant.shape?_cases shape with rfl | ⟨_, _, _, rfl⟩
        · rfl
        · rfl
      rcases shapes with _ | ⟨s, _ | ⟨s', more⟩⟩
      case cons.nil =>
        obtain ⟨links, fits⟩ := plain s (List.mem_singleton_self s)
        exact describes_plain sound links fits rfl fun d' => by
          simp only [ShapeOf, ChoiceShape, found]
      all_goals
        refine describes_union_of_shapes sound rfl plain fun d' us known same => ?_
        simp only [ShapeOf, ChoiceShape, found]
        exact ⟨us, rfl, known, same⟩

/-! ## Terms -/

section Terms

variable {onClass : ClassId → Describing TypeId} {n : Nat}

theorem describeEach_cons (term : Term) (rest : List Term) :
    describeEach onClass (term :: rest) =
      (do
        let t ← describeBare onClass term.withoutDemand
        return t :: (← describeEach onClass rest)) := by
  cases term <;> simp only [describeEach, Term.withoutDemand]

theorem describeFirst_cons (term : Term) (rest : List Term) :
    describeFirst onClass (term :: rest) = describeBare onClass term.withoutDemand := by
  cases term <;> simp only [describeFirst, Term.withoutDemand]

theorem describeSecond_pair (first second : Term) :
    describeSecond onClass [first, second] = describeBare onClass second.withoutDemand := by
  cases second <;> simp only [describeSecond, Term.withoutDemand]

theorem describeSecond_of_ne {terms : List Term} (other : terms.length ≠ 2) :
    describeSecond onClass terms = addType .any := by
  match terms with
  | [] | [_] => rw [describeSecond] <;> nofun
  | [_, _] => exact absurd rfl other
  | _ :: _ :: _ :: _ => rw [describeSecond] <;> nofun

/-- Classes are described as they should be, while there are less than a number of records that are
not begun. -/
def DescribesClasses (m : Module) (n : Nat) (onClass : ClassId → Describing TypeId) : Prop :=
  ∀ (c : ClassId) (d : Description), Sound m d → pending m d < n →
    Describes m (Term.declared c).Mentions (fun d' t => Depicts m d' (.declared c) t) d (onClass c d)

theorem pending_lt_of_keeps (keeps : Keeps d d') (few : pending m d < n) : pending m d' < n :=
  Nat.lt_of_le_of_lt (pending_le_of_object m keeps.object) few

theorem sizeOf_withoutDemand_le (term : Term) : sizeOf term.withoutDemand ≤ sizeOf term := by
  cases term with
  | demanded isRequired base => simp only [Term.withoutDemand, Term.demanded.sizeOf_spec]; omega
  | _ => exact Nat.le_refl _

mutual
theorem describes_bare (classes : DescribesClasses m n onClass) (term : Term) (d : Description)
    (sound : Sound m d) (few : pending m d < n) :
    Describes m term.Mentions (fun d' t => Depicts m d' term t) d (describeBare onClass term d) := by
  cases term with
  | nothing | quoted | reference | dots =>
      rw [describeBare]
      exact describes_plain sound rfl (fits_of_not_constant rfl) rfl fun _ => rfl
  | demanded isRequired base =>
      rw [describeBare]
      refine describes_plain sound rfl (fits_of_not_constant rfl) rfl fun _ => ?_
      cases isRequired
      · rfl
      · rfl
  | general name =>
      rw [describeBare]
      exact describes_general sound name
  | choice constants =>
      rw [describeBare]
      exact describes_choice sound constants
  | declared c =>
      rw [describeBare]
      exact classes c d sound few
  | remarked base remarks =>
      rw [describeBare]
      exact (describes_bare classes base d sound few).imp
        (fun c mentions => .of_part (List.mem_singleton_self base) mentions) fun _ shown => .remarked shown
  | union isPlain members =>
      rw [describeBare]
      exact (describes_each classes members d sound few).gather rfl .union (fun _ => rfl)
        (fun _ => rfl) fun _ _ => rfl
  | applied name arguments =>
      rw [describeBare]
      cases known : standing name with
      | scalar | any | undescribed =>
          refine describes_plain sound rfl (fits_of_not_constant rfl) ?_ fun _ => ?_
          · simp only [Term.parts, known]
          · simp only [ShapeOf, AppliedShape, known]
      | collection =>
          refine (describes_first classes arguments d sound few).wrap ?_ .array (fun _ => rfl) (fun _ => rfl)
            fun d' us e _ told => ?_
          · simp only [Term.parts, known]
          · simp only [ShapeOf, AppliedShape, known]
            exact ⟨e, told, rfl⟩
      | mapping =>
          refine (describes_second classes arguments d sound few).wrap ?_ (fun e => .object [] (some e) "")
            (fun _ => rfl) (fun _ => rfl) fun d' us e _ told => ?_
          · simp only [Term.parts, known]
          · simp only [ShapeOf, AppliedShape, known]
            exact ⟨e, told, rfl⟩
      | tuple =>
          simp only
          split
          · next repeated =>
              refine (describes_first classes arguments d sound few).wrap ?_ .array (fun _ => rfl) (fun _ => rfl)
                fun d' us e _ told => ?_
              · simp only [Term.parts, known, repeated, if_true]
              · simp only [ShapeOf, AppliedShape, known, repeated, if_true]
                exact ⟨e, told, rfl⟩
          · next repeated =>
              refine (describes_each classes arguments d sound few).gather ?_ .tuple (fun _ => rfl) (fun _ => rfl)
                fun d' us => ?_
              · simp only [Term.parts, known, if_neg repeated]
              · simp only [ShapeOf, AppliedShape, known, if_neg repeated]
termination_by sizeOf term

theorem describes_each (classes : DescribesClasses m n onClass) (terms : List Term)
    (d : Description) (sound : Sound m d) (few : pending m d < n) :
    Describes m (AnyMentions (terms.map Term.withoutDemand))
      (fun d' us => List.Forall₂ (Depicts m d') (terms.map Term.withoutDemand) us) d
      (describeEach onClass terms d) := by
  cases terms with
  | nil =>
      rw [describeEach]
      exact describes_value sound .nil
  | cons term rest =>
      rw [describeEach_cons]
      have smaller := sizeOf_withoutDemand_le term
      refine Describes.cons (fun _ _ _ _ keeps h => h.mono keeps.grows) ?_ fun d' keeps sound' => ?_
      · exact (describes_bare classes term.withoutDemand d sound few).blaming
          fun c mentions => ⟨_, List.mem_cons_self .., mentions⟩
      · exact (describes_each classes rest d' sound' (pending_lt_of_keeps keeps few)).blaming
          fun _ mentions => mentions.tail _
termination_by sizeOf terms
decreasing_by all_goals simp only [List.cons.sizeOf_spec]; omega

theorem describes_first (classes : DescribesClasses m n onClass) (terms : List Term)
    (d : Description) (sound : Sound m d) (few : pending m d < n) :
    Describes m (AnyMentions ((terms.take 1).map Term.withoutDemand))
      (fun d' e => DepictsElement m d' ((terms.take 1).map Term.withoutDemand) e) d
      (describeFirst onClass terms d) := by
  cases terms with
  | nil =>
      rw [describeFirst]
      exact describes_any sound
  | cons term rest =>
      rw [describeFirst_cons]
      have smaller := sizeOf_withoutDemand_le term
      exact (describes_bare classes term.withoutDemand d sound few).imp
        (fun c mentions => ⟨_, List.mem_singleton_self _, mentions⟩)
        fun _ shown => depictsElement_singleton shown
termination_by sizeOf terms
decreasing_by all_goals simp only [List.cons.sizeOf_spec]; omega

theorem describes_second (classes : DescribesClasses m n onClass) (terms : List Term)
    (d : Description) (sound : Sound m d) (few : pending m d < n) :
    Describes m
      (AnyMentions ((if terms.length = 2 then terms.drop 1 else []).map Term.withoutDemand))
      (fun d' e => DepictsElement m d'
        ((if terms.length = 2 then terms.drop 1 else []).map Term.withoutDemand) e) d
      (describeSecond onClass terms d) := by
  by_cases two : terms.length = 2
  · obtain ⟨first, second, rfl⟩ := List.length_eq_two.1 two
    rw [describeSecond_pair]
    have smaller := sizeOf_withoutDemand_le second
    exact (describes_bare classes second.withoutDemand d sound few).imp
      (fun c mentions => ⟨_, List.mem_singleton_self _, mentions⟩)
      fun _ shown => depictsElement_singleton shown
  · rw [describeSecond_of_ne two, if_neg two]
    exact describes_any sound
termination_by sizeOf terms
decreasing_by all_goals subst terms; simp only [List.cons.sizeOf_spec]; omega
end

end Terms

end RouteContract.Sources
