import RouteContract.Proofs.Sources.Union

/-!
# Layers of hints

A hint may be written around another one: with remarks on it, with a demand, or as optional. `Wraps`
tells in which layers a hint is written around its base, and `Wrapped` in which layers a term lies
around the meaning of the base. Both go together: what a hint means lies in the layers in which the
hint is written (`Wraps.wrapped`), and its layers stay when names are resolved (`Wrapped.resolveBy`).

In a union the layers below cannot be told from each other any more where one of them is optional as
well. A term that is optional is therefore any union with the type of null whose other members are
those of the term below.
-/

set_option autoImplicit false

namespace RouteContract.Sources

open RouteContract

/-- What a hint may add to the hint that it is written around. -/
inductive Layer where
  | remarks (values : List Json)
  | optional
  | demand (isRequired : Bool)

/-! ## Hints -/

/-- The ways to write that a hint is optional. -/
inductive OptionalOf (h : Hint) : Hint → Prop
  | marked : OptionalOf h (.optional h)
  | union : OptionalOf h (.union [h, .nothing])
  | unionFirst : OptionalOf h (.union [.nothing, h])
  | either : OptionalOf h (.either [h, .nothing])
  | eitherFirst : OptionalOf h (.either [.nothing, h])

/-- A hint is written around a base in layers, the outermost being the first. -/
inductive Wraps (base : Hint) : List Layer → Hint → Prop
  | bare : Wraps base [] base
  | remarked {layers : List Layer} {h : Hint} (inner : Wraps base layers h) (values : List Json) :
      Wraps base (.remarks values :: layers) (.remarked h values)
  | optional {layers : List Layer} {h outer : Hint} (inner : Wraps base layers h)
      (written : OptionalOf h outer) : Wraps base (.optional :: layers) outer
  | demanded {layers : List Layer} {h : Hint} (inner : Wraps base layers h) (isRequired : Bool) :
      Wraps base (.demand isRequired :: layers) (.demanded isRequired h)

/-! ## Terms -/

namespace Term

/-- Terms that differ only in where a name is to be looked up, or in whether a union is one of types
of values. -/
inductive Alike : Term → Term → Prop
  | refl (t : Term) : Alike t t
  | placed (name : String) (place : Option String) : Alike (.quoted name) (.reference name place)
  | union (p q : Bool) (ms : List Term) : Alike (.union p ms) (.union q ms)

/-- Whether a term has no layer around it. -/
def isBare : Term → Bool
  | .remarked _ _ => false
  | .demanded _ _ => false
  | t => !t.admitsNothing

end Term

open Term

/-- A term lies in layers around a core, the outermost being the first. -/
def Wrapped (core : Term) : List Layer → Term → Prop
  | [], t => core.Alike t
  | .remarks values :: layers, t => ∃ u, Wrapped core layers u ∧ t = u.remark values
  | .optional :: layers, t => ∃ u, Wrapped core layers u ∧ t.IsProper ∧ t.isUnion = true ∧
      t.admitsNothing = true ∧ t.solid = u.solid
  | .demand isRequired :: layers, t => ∃ u, Wrapped core layers u ∧ t = .demanded isRequired u

section Terms

variable {t u core : Term} {layers : List Layer}

theorem solid_of_single (single : t.isUnion = false) (other : t.isNothing = false) :
    t.solid = [t] := by
  rw [solid, members_of_not_isUnion single, List.filter_cons_of_pos (by rw [other]; rfl),
    List.filter_nil]

theorem Term.IsProper.solid_ne_nil (proper : t.IsProper) (bare : t.admitsNothing = false) :
    t.solid ≠ [] := by
  obtain ⟨u, more, listed⟩ := List.exists_cons_of_ne_nil proper.members_ne_nil
  intro none
  have other := List.filter_eq_nil_iff.1 none u (listed ▸ List.mem_cons_self ..)
  rw [admitsNothing, listed, List.any_cons] at bare
  rw [(Bool.or_eq_false_iff.1 bare).1] at other
  exact other rfl

theorem admitsNothing_of_isBare (bare : t.isBare = true) : t.admitsNothing = false := by
  cases t with
  | remarked | demanded => cases bare
  | _ => exact (Bool.not_eq_true' _).mp bare

/-- A well-formed term with the type of null and something else is a union. -/
theorem isUnion_of_admitsNothing (null : t.admitsNothing = true) (more : t.solid ≠ []) :
    t.isUnion = true := by
  cases union : t.isUnion with
  | true => rfl
  | false =>
      rw [admitsNothing, members_of_not_isUnion union, List.any_cons, List.any_nil,
        Bool.or_false] at null
      rw [solid, members_of_not_isUnion union, List.filter_cons_of_neg (by rw [null]; decide)] at more
      exact absurd List.filter_nil more

/-! ## Likeness -/

theorem Term.Alike.isBare_eq (alike : core.Alike t) : t.isBare = core.isBare := by
  cases alike <;> rfl

theorem Term.Alike.converted (alike : core.Alike t) (place : Option String) :
    core.Alike (t.converted place) := by
  cases alike with
  | refl =>
      cases t with
      | quoted n => exact .placed n place
      | _ => exact .refl _
  | placed n place' => exact .placed n place'
  | union p q ms => exact .union p q ms

theorem Term.Alike.isProper (alike : core.Alike t) (proper : core.IsProper) : t.IsProper := by
  cases alike with
  | refl => exact proper
  | placed => exact isProper_of_not_isUnion rfl
  | union p q ms =>
      exact ⟨proper.flat, proper.distinct, fun _ => proper.several rfl, fun _ => proper.looked rfl⟩

theorem Term.Alike.solid_ne_nil (alike : core.Alike t) (more : core.solid ≠ []) : t.solid ≠ [] := by
  cases alike with
  | refl => exact more
  | placed => exact List.cons_ne_nil _ _
  | union => exact more

/-- The same members are put together to like terms. -/
theorem joined_alike {p q : Bool} {ts : List Term} (first : joined p ts = .ok t)
    (second : joined q ts = .ok u) : t.Alike u := by
  rw [joined] at first second
  generalize distinct (ts.flatMap members) = ms at first second
  rcases ms with _ | ⟨m, _ | ⟨m', more⟩⟩
  · cases first
  · cases first
    cases second
    exact .refl _
  · cases first
    cases second
    exact .union p q _

/-! ## Layers around a term -/

theorem remark_eq_remarked (t : Term) (values : List Json) :
    ∃ base remarks, t.remark values = .remarked base remarks := by
  cases t <;> exact ⟨_, _, rfl⟩

/-- A term in layers has other members than the type of null if its core has. -/
theorem Wrapped.solid_ne_nil (wrapped : Wrapped core layers t) (more : core.solid ≠ []) :
    t.solid ≠ [] := by
  induction layers generalizing t with
  | nil => exact Term.Alike.solid_ne_nil wrapped more
  | cons layer layers ih =>
      cases layer with
      | remarks values =>
          obtain ⟨u, -, rfl⟩ := wrapped
          obtain ⟨base, remarks, same⟩ := remark_eq_remarked u values
          rw [same, solid_of_single rfl rfl]
          exact List.cons_ne_nil _ _
      | optional =>
          obtain ⟨u, inner, -, -, -, same⟩ := wrapped
          rw [same]
          exact ih inner
      | demand isRequired =>
          obtain ⟨u, -, rfl⟩ := wrapped
          exact List.cons_ne_nil _ _

theorem Wrapped.isProper (wrapped : Wrapped core layers t) (proper : core.IsProper) :
    t.IsProper := by
  cases layers with
  | nil => exact Term.Alike.isProper wrapped proper
  | cons layer layers =>
      cases layer with
      | remarks values =>
          obtain ⟨u, -, rfl⟩ := wrapped
          exact isProper_of_not_isUnion (isUnion_remark u values)
      | optional =>
          obtain ⟨-, -, proper, -⟩ := wrapped
          exact proper
      | demand isRequired =>
          obtain ⟨u, -, rfl⟩ := wrapped
          exact isProper_of_not_isUnion rfl

/-- A term stays in its layers where a name in quotation marks is to be looked up. -/
theorem Wrapped.converted (wrapped : Wrapped core layers t) (place : Option String) :
    Wrapped core layers (t.converted place) := by
  cases layers with
  | nil => exact Term.Alike.converted wrapped place
  | cons layer layers =>
      have same : t.converted place = t := by
        refine converted_of_not_isQuoted ?_ place
        cases layer with
        | remarks values =>
            obtain ⟨u, -, rfl⟩ := wrapped
            exact isQuoted_remark u values
        | optional =>
            obtain ⟨-, -, -, union, -⟩ := wrapped
            cases t with
            | union => rfl
            | _ => cases union
        | demand isRequired =>
            obtain ⟨u, -, rfl⟩ := wrapped
            rfl
      rw [same]
      exact wrapped

/-- An optional layer around another one adds nothing. -/
theorem Wrapped.of_twice (wrapped : Wrapped core (.optional :: .optional :: layers) t) :
    Wrapped core (.optional :: layers) t := by
  obtain ⟨u, ⟨v, inner, -, -, -, same⟩, proper, union, null, above⟩ := wrapped
  exact ⟨v, inner, proper, union, null, above.trans same⟩

/-- What lies below an optional layer is a union, and has the type of null among its members, only
where the next layer is optional too or the core is a union. -/
theorem Wrapped.solid_of_cons {layer : Layer} (wrapped : Wrapped core (layer :: layers) t)
    (other : layer ≠ .optional) : t.solid = [t] ∧ t.isUnion = false := by
  cases layer with
  | remarks values =>
      obtain ⟨u, -, rfl⟩ := wrapped
      obtain ⟨base, remarks, same⟩ := remark_eq_remarked u values
      rw [same]
      exact ⟨rfl, rfl⟩
  | optional => exact absurd rfl other
  | demand isRequired =>
      obtain ⟨u, -, rfl⟩ := wrapped
      exact ⟨rfl, rfl⟩

end Terms

/-! ## Meaning -/

section Meaning

variable {s : Scope} {h outer base : Hint} {t core : Term} {layers : List Layer}

/-- The union of a term and the type of null has the members of the term. -/
theorem joined_nothing {p : Bool} {u : Term} (proper : u.IsProper) (looked : u.isQuoted = false)
    (h : joined p [u, .nothing] = .ok t ∨ joined p [.nothing, u] = .ok t) :
    t.IsProper ∧ t.admitsNothing = true ∧ t.solid = u.solid := by
  have good : ∀ w, w = u ∨ w = .nothing → w.IsProper ∧ w.isQuoted = false := by
    rintro w (rfl | rfl)
    · exact ⟨proper, looked⟩
    · exact ⟨isProper_of_not_isUnion rfl, rfl⟩
  rcases h with joins | joins
  · have each := fun w listed => (good w (List.mem_pair.1 listed)).1
    have seen := fun w listed => (good w (List.mem_pair.1 listed)).2
    obtain ⟨same, null⟩ := solid_joined each seen joins
    refine ⟨(joined_eq_ok each seen joins).2.1, null.trans (Bool.or_true _), ?_⟩
    rw [same, List.flatMap_cons, List.flatMap_singleton]
    exact (congrArg distinct (List.append_nil _)).trans proper.distinct_solid
  · have each := fun w listed => (good w (List.mem_pair.1 listed).symm).1
    have seen := fun w listed => (good w (List.mem_pair.1 listed).symm).2
    obtain ⟨same, null⟩ := solid_joined each seen joins
    refine ⟨(joined_eq_ok each seen joins).2.1, null, ?_⟩
    rw [same, List.flatMap_cons, List.flatMap_singleton]
    exact proper.distinct_solid

theorem evaluateAll_pair {first second : Hint} {ts : List Term}
    (meant : Hint.evaluateAll s [first, second] = .ok ts) :
    ∃ t u, first.evaluate s = .ok t ∧ second.evaluate s = .ok u ∧ ts = [t, u] := by
  simp only [Hint.evaluateAll] at meant
  obtain ⟨t, one, meant⟩ := bind_eq_ok_iff.1 meant
  obtain ⟨us, rest, meant⟩ := bind_eq_ok_iff.1 meant
  obtain ⟨u, two, rest⟩ := bind_eq_ok_iff.1 rest
  obtain ⟨none, last, rest⟩ := bind_eq_ok_iff.1 rest
  cases last
  cases rest
  cases meant
  exact ⟨t, u, one, two, rfl⟩

theorem evaluate_nothing {t : Term} (meant : Hint.nothing.evaluate s = .ok t) : t = .nothing := by
  rw [Hint.evaluate] at meant
  cases meant
  rfl

/-- Whichever way it is written that a hint is optional, it means the union of what the hint means and
the type of null. -/
theorem OptionalOf.evaluate_eq_ok (written : OptionalOf h outer) (meant : outer.evaluate s = .ok t) :
    ∃ u p, h.evaluate s = .ok u ∧ (joined p [u.converted none, .nothing] = .ok t ∨
      joined p [.nothing, u.converted none] = .ok t) := by
  cases written with
  | marked =>
      rw [Hint.evaluate] at meant
      obtain ⟨u, inner, meant⟩ := bind_eq_ok_iff.1 meant
      exact ⟨u, false, inner, .inl (unionOf_eq_ok meant)⟩
  | union =>
      rw [Hint.evaluate] at meant
      obtain ⟨ts, each, meant⟩ := bind_eq_ok_iff.1 meant
      obtain ⟨u, null, inner, second, rfl⟩ := evaluateAll_pair each
      obtain rfl := evaluate_nothing second
      exact ⟨u, false, inner, .inl (unionOf_eq_ok meant)⟩
  | unionFirst =>
      rw [Hint.evaluate] at meant
      obtain ⟨ts, each, meant⟩ := bind_eq_ok_iff.1 meant
      obtain ⟨null, u, first, inner, rfl⟩ := evaluateAll_pair each
      obtain rfl := evaluate_nothing first
      exact ⟨u, false, inner, .inr (unionOf_eq_ok meant)⟩
  | either =>
      rw [Hint.evaluate] at meant
      obtain ⟨ts, each, meant⟩ := bind_eq_ok_iff.1 meant
      obtain ⟨u, null, inner, second, rfl⟩ := evaluateAll_pair each
      obtain rfl := evaluate_nothing second
      obtain ⟨v, both, meant⟩ := bind_eq_ok_iff.1 meant
      cases meant
      obtain ⟨p, joins⟩ := bar_eq_ok both
      exact ⟨u, p, inner, .inl joins⟩
  | eitherFirst =>
      rw [Hint.evaluate] at meant
      obtain ⟨ts, each, meant⟩ := bind_eq_ok_iff.1 meant
      obtain ⟨null, u, first, inner, rfl⟩ := evaluateAll_pair each
      obtain rfl := evaluate_nothing first
      obtain ⟨v, both, meant⟩ := bind_eq_ok_iff.1 meant
      cases meant
      obtain ⟨p, joins⟩ := bar_eq_ok both
      exact ⟨u, p, inner, .inr joins⟩

/-- **What a hint means lies in the layers in which the hint is written.** -/
theorem Wraps.wrapped (proper : s.IsProper) (wraps : Wraps base layers h)
    (meant : h.evaluate s = .ok t) :
    ∃ core, base.evaluate s = .ok core ∧ (core.solid ≠ [] → Wrapped core layers t) := by
  induction wraps generalizing t with
  | bare => exact ⟨t, meant, fun _ => .refl t⟩
  | remarked inner values ih =>
      rw [Hint.evaluate] at meant
      obtain ⟨u, below, meant⟩ := bind_eq_ok_iff.1 meant
      obtain ⟨v, fit, meant⟩ := bind_eq_ok_iff.1 meant
      obtain rfl := argument_eq_ok fit
      obtain ⟨core, known, wrapped⟩ := ih below
      refine ⟨core, known, fun more => ⟨u.converted none, (wrapped more).converted none, ?_⟩⟩
      split at meant
      · cases meant
      · cases meant
        rfl
  | optional inner written ih =>
      obtain ⟨u, p, below, joins⟩ := written.evaluate_eq_ok meant
      obtain ⟨core, known, wrapped⟩ := ih below
      refine ⟨core, known, fun more => ?_⟩
      have inside := (wrapped more).converted none
      obtain ⟨whole, null, same⟩ := joined_nothing
        ((Hint.evaluate_isProper proper _ below).converted none) (isQuoted_converted u none) joins
      refine ⟨u.converted none, inside, whole, isUnion_of_admitsNothing null ?_, null, same⟩
      rw [same]
      exact inside.solid_ne_nil more
  | demanded inner isRequired ih =>
      rw [Hint.evaluate] at meant
      obtain ⟨u, below, meant⟩ := bind_eq_ok_iff.1 meant
      obtain ⟨v, fit, meant⟩ := bind_eq_ok_iff.1 meant
      obtain rfl := argument_eq_ok fit
      cases meant
      obtain ⟨core, known, wrapped⟩ := ih below
      exact ⟨core, known, fun more => ⟨u.converted none, (wrapped more).converted none, rfl⟩⟩

end Meaning

/-! ## Resolution -/

section Resolution

variable {look : Term → String → Except SourceError Term} {t t' u core core' : Term}
  {layers : List Layer}

/-- What the members of a union other than the type of null are resolved to has all members of what
the union is resolved to, other than the type of null. -/
theorem flatMap_solid_of_forall₂ {ms us : List Term}
    (each : List.Forall₂ (fun m u => m.resolveBy look = .ok u) ms us) :
    (∃ vs, List.Forall₂ (fun m u => m.resolveBy look = .ok u) (ms.filter fun m => !m.isNothing) vs ∧
      vs.flatMap solid = us.flatMap solid) ∧
    (ms.any isNothing = true → us.any admitsNothing = true) := by
  induction each with
  | nil => exact ⟨⟨[], .nil, rfl⟩, fun null => null⟩
  | @cons m u ms us first _ ih =>
      obtain ⟨⟨vs, rest, same⟩, null⟩ := ih
      cases other : m.isNothing with
      | true =>
          obtain rfl := eq_nothing other
          rw [Term.resolveBy] at first
          cases first
          exact ⟨⟨vs, rest, same⟩, fun _ => rfl⟩
      | false =>
          refine ⟨⟨u :: vs, ?_, ?_⟩, ?_⟩
          · rw [List.filter_cons_of_pos (by rw [other]; rfl)]
            exact .cons first rest
          · rw [List.flatMap_cons, List.flatMap_cons, same]
          · intro found
            rw [List.any_cons, other, Bool.false_or] at found
            rw [List.any_cons, null found, Bool.or_true]

theorem resolveBy_rightUnique (look : Term → String → Except SourceError Term) :
    Relator.RightUnique fun m u : Term => m.resolveBy look = .ok u := by
  intro m u v one two
  rw [one] at two
  cases two
  rfl

theorem resolveBy_remark {values : List Json}
    (h : (t.remark values).resolveBy look = .ok t') :
    ∃ u', t.resolveBy look = .ok u' ∧ t' = u'.remark values := by
  cases t with
  | remarked base remarks =>
      rw [Term.remark, Term.resolveBy] at h
      obtain ⟨v, inner, h⟩ := bind_eq_ok_iff.1 h
      cases h
      refine ⟨v.remark remarks, ?_, ?_⟩
      · rw [Term.resolveBy, inner]
        rfl
      · cases v with
        | remarked b earlier => exact congrArg (Term.remarked b) (List.append_assoc ..).symm
        | _ => rfl
  | _ =>
      rw [Term.remark, Term.resolveBy] at h
      · obtain ⟨v, inner, h⟩ := bind_eq_ok_iff.1 h
        cases h
        exact ⟨v, inner, rfl⟩
      · intro base earlier same
        cases same

variable (names : ResolvesNames look)

include names

/-- What a term is resolved to has the members that its members other than the type of null are
resolved to, and the type of null if the term has it. -/
theorem resolveBy_solid (proper : t.IsProper) (h : t.resolveBy look = .ok t') :
    (∃ us, List.Forall₂ (fun m u => m.resolveBy look = .ok u) t.solid us ∧
      t'.solid = distinct (us.flatMap solid)) ∧
    (t.admitsNothing = true → t'.admitsNothing = true) := by
  cases union : t.isUnion with
  | true =>
      cases t with
      | union isPlain ms =>
          obtain ⟨us, p, each, resolved, joins⟩ := resolveBy_union names proper h
          obtain ⟨same, null⟩ := solid_joined (fun u listed => (resolved u listed).proper)
            (fun u listed => (resolved u listed).looked) joins
          obtain ⟨⟨vs, others, gathered⟩, nulls⟩ := flatMap_solid_of_forall₂ each
          refine ⟨⟨vs, others, ?_⟩, fun found => null.trans (nulls found)⟩
          rw [same, gathered]
      | _ => cases union
  | false =>
      cases other : t.isNothing with
      | true =>
          obtain rfl := eq_nothing other
          rw [Term.resolveBy] at h
          cases h
          exact ⟨⟨[], .nil, rfl⟩, fun null => null⟩
      | false =>
          refine ⟨⟨[t'], ?_, ?_⟩, ?_⟩
          · rw [solid_of_single union other]
            exact .cons h .nil
          · rw [List.flatMap_singleton]
            exact (resolveBy_isResolved names proper h).proper.distinct_solid.symm
          · intro null
            rw [admitsNothing, members_of_not_isUnion union, List.any_cons, other] at null
            cases null

/-- A term without layers comes from one without layers. -/
theorem isBare_of_resolveBy (proper : core.IsProper) (found : core.resolveBy look = .ok core')
    (bare : core'.isBare = true) : core.isBare = true := by
  have null := mt (resolveBy_solid names proper found).2
    (by rw [admitsNothing_of_isBare bare]; decide)
  have none : core.admitsNothing = false := Bool.eq_false_iff.2 null
  cases core with
  | remarked base values =>
      rw [Term.resolveBy] at found
      obtain ⟨v, -, found⟩ := bind_eq_ok_iff.1 found
      cases found
      obtain ⟨inner, remarks, same⟩ := remark_eq_remarked v values
      rw [same] at bare
      cases bare
  | demanded isRequired base =>
      rw [Term.resolveBy] at found
      obtain ⟨v, -, found⟩ := bind_eq_ok_iff.1 found
      cases found
      cases bare
  | _ => exact (Bool.not_eq_true' _).mpr none

variable (placeless : ∀ name place place',
  look (.reference name place) name = look (.reference name place') name)

include placeless

theorem Term.Alike.resolveBy (alike : core.Alike t) (proper : core.IsProper)
    (found : core.resolveBy look = .ok core') (h : t.resolveBy look = .ok t') : core'.Alike t' := by
  cases alike with
  | refl =>
      rw [found] at h
      cases h
      exact .refl _
  | placed name place =>
      rw [Term.resolveBy] at found
      rw [Term.resolveBy] at h
      rw [placeless name none place, h] at found
      cases found
      exact .refl _
  | union p q ms =>
      have whole : (Term.union q ms).IsProper := (Alike.union p q ms).isProper proper
      obtain ⟨us, p', each, -, joins⟩ := resolveBy_union names proper found
      obtain ⟨vs, q', each', -, joins'⟩ := resolveBy_union names whole h
      obtain rfl := List.right_unique_forall₂' (resolveBy_rightUnique look) each each'
      exact joined_alike joins joins'

omit names in
theorem Term.Alike.forall₂_solid (alike : core.Alike u) {us : List Term}
    (each : List.Forall₂ (fun m v => m.resolveBy look = .ok v) u.solid us) :
    List.Forall₂ (fun m v => m.resolveBy look = .ok v) core.solid us := by
  cases alike with
  | refl => exact each
  | placed name place =>
      obtain ⟨v, rest, resolved, last, rfl⟩ := List.forall₂_cons_left_iff.1 each
      refine .cons ?_ last
      rw [Term.resolveBy] at resolved
      rw [Term.resolveBy]
      exact (placeless name none place).trans resolved
  | union => exact each

/-- **Layers stay when names are resolved.** -/
theorem Wrapped.resolveBy (proper : core.IsProper) (found : core.resolveBy look = .ok core')
    (more : core'.solid ≠ []) (wrapped : Wrapped core layers t) (h : t.resolveBy look = .ok t') :
    Wrapped core' layers t' := by
  induction layers generalizing t t' with
  | nil => exact Term.Alike.resolveBy names placeless wrapped proper found h
  | cons layer layers ih =>
      cases layer with
      | remarks values =>
          obtain ⟨u, inner, rfl⟩ := wrapped
          obtain ⟨u', resolved, rfl⟩ := resolveBy_remark h
          exact ⟨u', ih inner resolved, rfl⟩
      | demand isRequired =>
          obtain ⟨u, inner, rfl⟩ := wrapped
          rw [Term.resolveBy] at h
          obtain ⟨u', resolved, h⟩ := bind_eq_ok_iff.1 h
          cases h
          exact ⟨u', ih inner resolved, rfl⟩
      | optional =>
          have whole := wrapped.isProper proper
          have proper' := (resolveBy_isResolved names whole h).proper
          obtain ⟨⟨us, each, same⟩, keeps⟩ := resolveBy_solid names whole h
          -- It is enough to find what the layer below is resolved to, with the same members.
          have around : ∀ u', Wrapped core' layers u' → t'.solid = u'.solid →
              Wrapped core' (.optional :: layers) t' := by
            intro u' inner same
            obtain ⟨-, -, -, -, null, -⟩ := wrapped
            have some : t'.solid ≠ [] := same ▸ inner.solid_ne_nil more
            exact ⟨u', inner, proper', isUnion_of_admitsNothing (keeps null) some, keeps null, same⟩
          cases layers with
          | nil =>
              obtain ⟨u, inner, -, -, -, listed⟩ := wrapped
              obtain ⟨⟨vs, others, same'⟩, -⟩ := resolveBy_solid names proper found
              rw [listed] at each
              have each := Term.Alike.forall₂_solid placeless inner each
              obtain rfl := List.right_unique_forall₂' (resolveBy_rightUnique look) each others
              exact around core' (.refl core') (same.trans same'.symm)
          | cons below layers =>
              by_cases twice : below = .optional
              · subst twice
                exact around t' (ih wrapped.of_twice h) rfl
              · obtain ⟨u, inner, -, -, -, listed⟩ := wrapped
                obtain ⟨single, -⟩ := inner.solid_of_cons twice
                rw [listed, single] at each
                obtain ⟨u', rest, resolved, last, rfl⟩ := List.forall₂_cons_left_iff.1 each
                cases last
                have below' := ih inner resolved
                refine around u' below' ?_
                rw [same, List.flatMap_singleton]
                exact (below'.isProper (resolveBy_isResolved names proper found).proper).distinct_solid

end Resolution

end RouteContract.Sources
