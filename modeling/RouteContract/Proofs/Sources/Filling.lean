import RouteContract.Proofs.Sources.Describing

/-!
# Filling records

A record is begun, and then its fields are walked in order. Each step of the walk either adds the
property of the next field, or fails and leaves the record stalled there. A whole walk therefore leaves
the record complete or stalled, and so does the description of a class, however deep it goes
(`describes_class`).
-/

set_option autoImplicit false

namespace RouteContract.Sources

open RouteContract Shape

variable {m : Module} {d d' d'' : Description} {c : ClassId} {t : TypeId} {definition : Class}
  {properties : List Property} {f : Module.Field} {p : Property}

/-! ## Steps of a walk -/

/-- A record that has just got its object type is begun. -/
theorem Sound.register (sound : Sound m d) (found : m.record? c = some definition)
    (new : d.object? c = none) :
    Sound m (d.register c definition.name) ∧
      Begun m (d.register c definition.name) c d.types.size definition [] := by
  have keeps := keeps_register new definition.name
  have begun : Begun m (d.register c definition.name) c d.types.size definition [] :=
    ⟨found, object?_register_self .., by rw [size_register]; exact Nat.lt_succ_self _,
      shape_register_self .., .nil⟩
  have pushed : Sound m (d.push (.object [] none definition.name)) := sound.push nofun nofun
  refine ⟨⟨fun c' t object => ?_, fun c₁ c₂ t one two => ?_, fun t other => ?_, pushed.inside,
    pushed.fits⟩, begun⟩
  · by_cases same : c' = c
    · subst same
      rw [object?_register_self] at object
      cases object
      exact ⟨_, _, begun⟩
    · rw [object?_register_of_ne same] at object
      obtain ⟨definition', properties, earlier⟩ := sound.begun c' t object
      exact ⟨definition', properties, earlier.keep keeps⟩
  · have before {c' : ClassId} (other : c' ≠ c)
        (object : (d.register c definition.name).object? c' = some t) : d.object? c' = some t :=
      (object?_register_of_ne other d definition.name).symm.trans object
    have fresh {c' : ClassId} (other : c' ≠ c)
        (object : (d.register c definition.name).object? c' = some t)
        (object' : (d.register c definition.name).object? c = some t) : False := by
      rw [object?_register_self] at object'
      cases object'
      exact Nat.lt_irrefl _ (sound.known (before other object))
    by_cases first : c₁ = c
    · subst first
      by_cases second : c₂ = c₁
      · exact second.symm
      · exact (fresh second two one).elim
    · by_cases second : c₂ = c
      · subst second
        exact (fresh first one two).elim
      · exact sound.distinct c₁ c₂ t (before first one) (before second two)
  · exact pushed.falls t fun c' object => other c' (keeps.object c' t object)

/-- A record that is begun goes on with the property of the next field. -/
theorem Begun.addProperty (begun : Begun m d c t definition properties)
    (next : (m.fieldsOf definition)[properties.length]? = some f)
    (portrays : Portrays m d definition f p) :
    Begun m (d.addProperty t p) c t definition (properties ++ [p]) where
  found := begun.found
  object := (object?_addProperty ..).trans begun.object
  known := by
    rw [size_addProperty]
    exact begun.known
  shape := shape_addProperty_self begun.known begun.shape p
  drawn := by
    have grows := grows_addProperty begun.shape p
    rw [List.length_append, List.length_singleton, List.take_add_one, next]
    have drawn := begun.drawn.imp fun _ _ portrays => portrays.mono grows
    exact List.rel_append drawn (.cons (portrays.mono grows) .nil)

theorem Sound.addProperty (sound : Sound m d) (begun : Begun m d c t definition properties)
    (next : (m.fieldsOf definition)[properties.length]? = some f)
    (portrays : Portrays m d definition f p) : Sound m (d.addProperty t p) := by
  have grows := grows_addProperty begun.shape p
  have more := begun.addProperty next portrays
  refine ⟨fun c' t' object => ?_, fun c₁ c₂ t' one two => ?_, fun t' other u linked => ?_,
    fun t' u linked => ?_, fun t' kind value shape => ?_⟩
  · rw [object?_addProperty] at object
    by_cases same : c' = c
    · subst same
      cases begun.object.symm.trans object
      exact ⟨_, _, more⟩
    · obtain ⟨definition', properties', begun'⟩ := sound.begun c' t' object
      refine ⟨definition', properties', begun'.mono grows (shape_addProperty_of_ne ?_ d p)⟩
      rintro rfl
      exact same (sound.distinct c' c t' object begun.object)
  · rw [object?_addProperty] at one two
    exact sound.distinct c₁ c₂ t' one two
  · have apart : t' ≠ t := by
      rintro rfl
      exact other c more.object
    rw [shape_addProperty_of_ne apart] at linked
    exact sound.falls t' (fun c' object => other c' ((object?_addProperty ..).trans object)) u linked
  · rw [size_addProperty]
    by_cases same : t' = t
    · subst same
      rw [more.shape, TypeShape.links, List.map_append, List.append_assoc, List.mem_append] at linked
      rcases linked with linked | linked
      · refine sound.inside t' u ?_
        rw [begun.shape]
        exact List.mem_append_left _ linked
      · obtain rfl : u = p.type := by simpa using linked
        exact sound.depicted portrays.type
    · rw [shape_addProperty_of_ne same] at linked
      exact sound.inside t' u linked
  · by_cases same : t' = t
    · subst same
      rw [more.shape] at shape
      cases shape
    · rw [shape_addProperty_of_ne same] at shape
      exact sound.fits t' kind value shape

/-! ## Walks -/

/-- What holds after the fields of a record have been walked from some point on: other types are
kept, and the record is complete, or stalled when the walk has failed. -/
structure Fills (m : Module) (c : ClassId) (t : TypeId) (d : Description)
    (answer : Except SourceError PUnit × Description) : Prop where
  size : d.types.size ≤ answer.2.types.size
  shape : ∀ u < d.types.size, u ≠ t → answer.2.types.shape u = d.types.shape u
  object : ∀ c' u, d.object? c' = some u → answer.2.object? c' = some u
  sound : Sound m answer.2
  news : ∀ c' u, d.object? c' = none → answer.2.object? c' = some u →
    Complete m answer.2 c' ∨ (∃ e, answer.1 = .error e) ∧ Stalled m answer.2 c'
  ok : answer.1 = .ok ⟨⟩ → Complete m answer.2 c
  error : ∀ e, answer.1 = .error e → Stalled m answer.2 c

theorem Fills.grows {answer : Except SourceError PUnit × Description} (fills : Fills m c t d answer)
    (begun : Begun m d c t definition properties) : Grows d answer.2 where
  size := fills.size
  shape := by
    intro u known closed
    refine fills.shape u known ?_
    rintro rfl
    rw [begun.shape] at closed
    cases closed
  object := fills.object

section Walk

variable {onClass : ClassId → Describing TypeId} {n : Nat}

/-- The annotations of a property are looked at after its type is described. -/
theorem run_describeField (doc : Option String) :
    describeField onClass doc t f d =
      match describeBare onClass f.core d with
      | (.error e, d₁) => (.error e, d₁)
      | (.ok u, d₁) =>
          match annotationsFor doc f.keywords f.remarks with
          | .error e => (.error e, d₁)
          | .ok annotations =>
              (.ok ⟨⟩, d₁.addProperty t ⟨f.name, u, f.isOptional || f.isNullable, annotations⟩) := by
  have steps : describeField onClass doc t f = (do
      let u ← describeBare onClass f.core
      let annotations ← liftResult (annotationsFor doc f.keywords f.remarks)
      modify fun d => d.addProperty t ⟨f.name, u, f.isOptional || f.isNullable, annotations⟩) := rfl
  rw [steps, run_bind]
  rcases describeBare onClass f.core d with ⟨_ | u, d₁⟩
  · rfl
  · simp only [run_bind, liftResult]
    cases annotationsFor doc f.keywords f.remarks with
    | error e => rfl
    | ok annotations => rfl

/-- What one step of a walk can do. -/
theorem describeField_cases (classes : DescribesClasses m n onClass) (sound : Sound m d)
    (few : pending m d < n) (begun : Begun m d c t definition properties)
    (next : (m.fieldsOf definition)[properties.length]? = some f) :
    (∃ e d₁, describeField onClass (m.docOf? definition f.name) t f d = (.error e, d₁) ∧
      Keeps d d₁ ∧ Sound m d₁ ∧ Stalled m d₁ c ∧
      ∀ c' u, d.object? c' = none → d₁.object? c' = some u → Complete m d₁ c' ∨ Stalled m d₁ c') ∨
    (∃ d₁ p, describeField onClass (m.docOf? definition f.name) t f d =
        (.ok ⟨⟩, d₁.addProperty t p) ∧
      Keeps d d₁ ∧ Sound m d₁ ∧ Portrays m d₁ definition f p ∧
      ∀ c' u, d.object? c' = none → d₁.object? c' = some u → Complete m d₁ c') := by
  have first := describes_bare classes f.core d sound few
  rw [run_describeField]
  cases run : describeBare onClass f.core d with
  | mk answer d₁ =>
    rw [run] at first
    have begun' := begun.keep first.keeps
    cases answer with
    | error e =>
        obtain ⟨c', mentions, stalled⟩ := first.error e rfl
        exact .inl ⟨e, d₁, rfl, first.keeps, first.sound, .type begun' next mentions stalled,
          fun c' u new object => (first.news c' u new object).imp_right And.right⟩
    | ok u =>
        have complete (c' : ClassId) (u' : TypeId) (new : d.object? c' = none)
            (object : d₁.object? c' = some u') : Complete m d₁ c' := by
          rcases first.news c' u' new object with complete | ⟨⟨_, failed⟩, -⟩
          · exact complete
          · cases failed
        simp only
        cases said : annotationsFor (m.docOf? definition f.name) f.keywords f.remarks with
        | error e =>
            exact .inl ⟨e, d₁, rfl, first.keeps, first.sound, .text begun' next said,
              fun c' u new object => .inl (complete c' u new object)⟩
        | ok annotations =>
            exact .inr ⟨d₁, _, rfl, first.keeps, first.sound, ⟨rfl, first.ok u rfl, rfl, said⟩,
              complete⟩

/-- **A walk over the fields completes the record or leaves it stalled**, from whichever field it
starts. -/
theorem fills_forM (classes : DescribesClasses m n onClass) {rest : List Module.Field}
    (sound : Sound m d) (few : pending m d < n) (begun : Begun m d c t definition properties)
    (left : rest = (m.fieldsOf definition).drop properties.length) :
    Fills m c t d
      ((forM rest fun f => describeField onClass (m.docOf? definition f.name) t f) d) := by
  induction rest generalizing d properties with
  | nil =>
      rw [List.forM_nil]
      show Fills m c t d (.ok ⟨⟩, d)
      have all := List.drop_eq_nil_iff.1 left.symm
      refine ⟨Nat.le_refl _, fun _ _ _ => rfl, fun _ _ object => object, sound,
        fun c' u new object => ?_, fun _ => ?_, nofun⟩
      · rw [new] at object
        cases object
      · exact ⟨t, definition, properties, begun, Nat.le_antisymm begun.length_le all⟩
  | cons f rest ih =>
      rw [List.forM_cons]
      have next : (m.fieldsOf definition)[properties.length]? = some f := by
        rw [← List.head?_drop, ← left]
        rfl
      rcases describeField_cases classes sound few begun next with
        ⟨e, d₁, run, keeps, sound₁, stalled, news⟩ | ⟨d₁, p, run, keeps, sound₁, portrays, news⟩
      · rw [run_bind_error run]
        exact ⟨keeps.size, fun u known _ => keeps.shape u known, keeps.object, sound₁,
          fun c' u new object => (news c' u new object).imp_right fun h => ⟨⟨e, rfl⟩, h⟩, nofun,
          fun _ _ => stalled⟩
      · rw [run_bind_ok run]
        have begun₁ := begun.keep keeps
        have grows := grows_addProperty begun₁.shape p
        have begun₂ := begun₁.addProperty next portrays
        have after := ih (sound₁.addProperty begun₁ next portrays)
          (Nat.lt_of_le_of_lt (pending_le_of_object m fun c' u object =>
            grows.object c' u (keeps.object c' u object)) few) begun₂
          (by rw [List.length_append, List.length_singleton, ← List.drop_drop, ← left]; rfl)
        refine ⟨?_, fun u known other => ?_, fun c' u object => ?_, after.sound,
          fun c' u new object => ?_, after.ok, after.error⟩
        · exact Nat.le_trans keeps.size (Nat.le_trans grows.size after.size)
        · have known₁ := Nat.lt_of_lt_of_le known keeps.size
          rw [after.shape u (Nat.lt_of_lt_of_le known₁ grows.size) other,
            shape_addProperty_of_ne other, keeps.shape u known]
        · exact after.object c' u (grows.object c' u (keeps.object c' u object))
        · cases between : (d₁.addProperty t p).object? c' with
          | none => exact after.news c' u between object
          | some u' =>
              rw [object?_addProperty] at between
              -- The record is another one, so that it keeps its shape while this one is walked on.
              have apart (u' : TypeId) (object' : d₁.object? c' = some u') : u' ≠ t := by
                rintro rfl
                obtain rfl := sound₁.distinct c' c u' object' begun₁.object
                cases new.symm.trans begun.object
              refine .inl ((news c' u' new between).mono (grows.trans (after.grows begun₂))
                fun u' object' => ?_)
              have known := sound₁.known object'
              rw [after.shape u' (Nat.lt_of_lt_of_le known grows.size) (apart u' object'),
                shape_addProperty_of_ne (apart u' object')]

/-! ## Classes -/

theorem run_describeRecord (d : Description) :
    describeRecord m onClass c definition d =
      match d.object? c with
      | some t => (.ok t, d)
      | none =>
          ((forM (m.fieldsOf definition) fun f =>
              describeField onClass (m.docOf? definition f.name) d.types.size f) >>=
            fun _ => pure d.types.size) (d.register c definition.name) := by
  have got (d : Description) : (get : Describing Description) d = (.ok d, d) := rfl
  have modified (g : Description → Description) (d : Description) :
      (modify g : Describing PUnit) d = (.ok ⟨⟩, g d) := rfl
  unfold describeRecord
  rw [run_bind_ok (got d)]
  cases d.object? c with
  | some t => rfl
  | none =>
      simp only
      rw [run_bind_ok (got d), run_bind_ok (modified _ d)]
      rfl

/-- The walk over a new record as it looks from before the record was begun. -/
theorem Fills.from_register {answer : Except SourceError PUnit × Description} (new : d.object? c = none)
    (fills : Fills m c d.types.size (d.register c definition.name) answer) :
    Keeps d answer.2 ∧ ∀ c' u, d.object? c' = none → answer.2.object? c' = some u →
      Complete m answer.2 c' ∨ (∃ e, answer.1 = .error e) ∧ Stalled m answer.2 c' := by
  have keeps := keeps_register new definition.name
  refine ⟨⟨Nat.le_trans keeps.size fills.size, fun u known => ?_, fun c' u object =>
    fills.object c' u (keeps.object c' u object)⟩, fun c' u free object => ?_⟩
  · rw [fills.shape u (Nat.lt_of_lt_of_le known keeps.size) (Nat.ne_of_lt known),
      keeps.shape u known]
  · by_cases same : c' = c
    · subst same
      cases finished : answer.1 with
      | error e => exact .inr ⟨⟨e, rfl⟩, fills.error e finished⟩
      | ok => exact .inl (fills.ok finished)
    · exact fills.news c' u ((object?_register_of_ne same d _).trans free) object

/-- **A record is described whole**, or it stalls and describing fails. -/
theorem describes_record (classes : DescribesClasses m n onClass)
    (found : m.record? c = some definition) (d : Description) (sound : Sound m d)
    (few : pending m d < n + 1) :
    Describes m (Term.declared c).Mentions (fun d' t => Depicts m d' (.declared c) t) d
      (describeRecord m onClass c definition d) := by
  rw [run_describeRecord]
  cases object : d.object? c with
  | some t => exact describes_value sound (.record found object)
  | none =>
      have fewer := pending_register_lt (record?_eq_some_iff.1 found).1 object definition.name
      have keeps := keeps_register object definition.name
      obtain ⟨sound', begun⟩ := sound.register found object
      have fills := fills_forM classes sound' (by omega) begun (List.drop_zero).symm
      obtain ⟨keeps, news⟩ := fills.from_register object
      have registered := fills.object c _ (object?_register_self d c definition.name)
      simp only
      cases run : (forM (m.fieldsOf definition) fun f =>
          describeField onClass (m.docOf? definition f.name) d.types.size f)
        (d.register c definition.name) with
      | mk answer d' =>
        rw [run] at fills keeps news registered
        cases answer with
        | error e =>
            rw [run_bind_error run]
            exact ⟨keeps, fills.sound,
              fun c' u free object => (news c' u free object).imp_right fun h => ⟨⟨e, rfl⟩, h.2⟩,
              nofun, fun _ _ => ⟨c, .refl, fills.error e rfl⟩⟩
        | ok =>
            rw [run_bind_ok run]
            refine ⟨keeps, fills.sound, fun c' u free object => ?_, ?_, nofun⟩
            · exact .inl ((news c' u free object).resolve_right fun ⟨⟨_, failed⟩, _⟩ => nomatch failed)
            · rintro _ ⟨⟩
              exact .record found registered

/-- **Every class is described soundly** when there are more steps than records that are not begun. -/
theorem describes_class (m : Module) (n : Nat) : DescribesClasses m n (describeClass m n) := by
  induction n with
  | zero => exact fun _ _ _ none => absurd none (Nat.not_lt_zero _)
  | succ n ih =>
      intro c d sound few
      rw [describeClass]
      have single (s : TypeShape) (links : s.links = []) (other : isConstant s = false)
          (shape : ClassShape m c s) :
          Describes m (Term.declared c).Mentions (fun d' t => Depicts m d' (.declared c) t) d
            (addType s d) :=
        describes_plain sound links (fits_of_not_constant other) rfl fun _ => shape
      cases known : m.class? c with
      | none => exact single .bare rfl rfl (by rw [ClassShape, known])
      | some definition =>
          cases form : definition.form with
          | enumeration values =>
              simp only [form]
              exact single (.enumeration values definition.name) rfl rfl
                (by simp only [ClassShape, known, form])
          | plain | controller =>
              simp only [form]
              exact single (.undescribed definition.name) rfl rfl
                (by simp only [ClassShape, known, form])
          | keyed | fielded | model =>
              have found : m.record? c = some definition :=
                record?_eq_some_iff.2 ⟨known, by rw [form]; rfl⟩
              simp only [form]
              exact describes_record ih found d sound few

end Walk

end RouteContract.Sources
