import RouteContract.Proofs.Sources.Layers
import RouteContract.Proofs.Sources.Record

/-!
# Taking layers off

A field is described from its hint without a demand, then without remarks, then without the type of
null, each taken off once and in this order. `Layer.left` tells which layers stay below, and
`Wrapped.hint` that a field is described from a term in these layers. Where the layers are in this
order to begin with, nothing is left and every remark is read (`Layer.InOrder.read`).
-/

set_option autoImplicit false

namespace RouteContract.Sources

open RouteContract Term

/-! ## Layers -/

namespace Layer

/-- Layers without a demand outside. -/
def withoutDemand : List Layer → List Layer
  | .demand _ :: layers => layers
  | layers => layers

/-- Layers without remarks outside, and these remarks, the inner ones first. -/
def splitRemarks : List Layer → List Layer × List Json
  | .remarks values :: layers => ((splitRemarks layers).1, (splitRemarks layers).2 ++ values)
  | layers => (layers, [])

/-- Layers without optional ones outside, and whether there are any. -/
def splitOptional : List Layer → List Layer × Bool
  | .optional :: layers => ((splitOptional layers).1, true)
  | layers => (layers, false)

/-- The layers that stay around the core when a field is described. -/
def left (layers : List Layer) : List Layer :=
  (splitOptional (splitRemarks (withoutDemand layers)).1).1

/-- Whether a field is described as optional for its layers. -/
def isNullable (layers : List Layer) : Bool :=
  (splitOptional (splitRemarks (withoutDemand layers)).1).2

/-- The remarks that are read when a field is described. -/
def remarksRead (layers : List Layer) : List Json := (splitRemarks (withoutDemand layers)).2

/-- The demand that layers make, behind remarks only. -/
def demand? : List Layer → Option Bool
  | .demand isRequired :: _ => some isRequired
  | .remarks _ :: layers => demand? layers
  | _ => none

/-- The remarks in all layers, the inner ones first. -/
def allRemarks : List Layer → List Json
  | [] => []
  | .remarks values :: layers => allRemarks layers ++ values
  | _ :: layers => allRemarks layers

/-- Whether a layer is an optional one. -/
def isOptional : Layer → Bool
  | .optional => true
  | _ => false

/-- Layers in the order in which they are taken off: a demand at most, then remarks, then optional
ones. -/
def InOrder (layers : List Layer) : Prop :=
  ∃ (isRequired : Option Bool) (remarks : List (List Json)) (count : Nat),
    layers = isRequired.toList.map .demand ++ remarks.map .remarks ++ List.replicate count .optional

theorem splitOptional_replicate (count : Nat) :
    splitOptional (List.replicate count .optional) = ([], decide (0 < count)) := by
  induction count with
  | zero => rfl
  | succ count ih =>
      rw [List.replicate_succ, splitOptional, ih, decide_eq_true (Nat.succ_pos count)]

theorem splitRemarks_append (remarks : List (List Json)) {layers : List Layer}
    (none : splitRemarks layers = (layers, [])) (silent : allRemarks layers = []) :
    splitRemarks (remarks.map .remarks ++ layers) =
      (layers, allRemarks (remarks.map .remarks ++ layers)) := by
  induction remarks with
  | nil => rw [List.map_nil, List.nil_append, none, silent]
  | cons values remarks ih => rw [List.map_cons, List.cons_append, splitRemarks, allRemarks, ih]

/-- **Layers in order are taken off completely.** -/
theorem InOrder.read {layers : List Layer} (h : InOrder layers) :
    left layers = [] ∧ remarksRead layers = allRemarks layers ∧
      isNullable layers = layers.any isOptional := by
  obtain ⟨isRequired, remarks, count, rfl⟩ := h
  have silent : allRemarks (List.replicate count Layer.optional) = [] := by
    induction count with
    | zero => rfl
    | succ count ih =>
        rw [List.replicate_succ]
        exact ih
  have plain : splitRemarks (List.replicate count .optional) =
      (List.replicate count Layer.optional, []) := by
    cases count <;> rfl
  have demanded : withoutDemand (isRequired.toList.map .demand ++ remarks.map .remarks ++
      List.replicate count .optional) = remarks.map .remarks ++ List.replicate count .optional := by
    cases isRequired with
    | some => rfl
    | none =>
        cases remarks with
        | cons => rfl
        | nil => cases count <;> rfl
  have split := splitRemarks_append remarks plain silent
  refine ⟨?_, ?_, ?_⟩
  · rw [left, demanded, split, splitOptional_replicate]
  · rw [remarksRead, demanded, split]
    cases isRequired <;> rfl
  · rw [isNullable, demanded, split, splitOptional_replicate, List.any_append, List.any_append]
    have outer : (isRequired.toList.map Layer.demand).any isOptional = false := by
      cases isRequired <;> rfl
    have middle : (remarks.map Layer.remarks).any isOptional = false := by
      rw [List.any_map]
      exact List.any_eq_false.2 fun _ _ => Bool.false_ne_true
    rw [outer, middle, List.any_replicate]
    cases count <;> rfl

theorem splitRemarks_fst (layers : List Layer) :
    splitRemarks (splitRemarks layers).1 = ((splitRemarks layers).1, []) := by
  induction layers with
  | nil => rfl
  | cons layer layers ih =>
      cases layer with
      | remarks => exact ih
      | optional | demand => rfl

/-- No remarks are read of layers without remarks and without a demand outside. -/
theorem remarksRead_of_demand?_eq_none {layers : List Layer} (silent : demand? layers = none) :
    remarksRead (splitRemarks layers).1 = [] := by
  induction layers with
  | nil => rfl
  | cons layer layers ih =>
      cases layer with
      | remarks => exact ih silent
      | optional => rfl
      | demand => cases silent

end Layer

/-! ## Terms -/

variable {core t : Term} {layers : List Layer}

theorem withoutDemand_of_isBare (bare : t.isBare = true) : t.withoutDemand = t := by
  cases t with
  | demanded => cases bare
  | _ => rfl

theorem splitRemarks_of_isBare (bare : t.isBare = true) : t.splitRemarks = (t, []) := by
  cases t with
  | remarked => cases bare
  | _ => rfl

theorem splitRemarks_remark (t : Term) (values : List Json) :
    (t.remark values).splitRemarks = (t.splitRemarks.1, t.splitRemarks.2 ++ values) := by
  cases t <;> rfl

theorem splitOptional_of_not_admitsNothing (other : t.admitsNothing = false) :
    t.splitOptional = (t, false) := by
  cases t with
  | union isPlain ms =>
      have absent : ms.any isNothing = false := other
      rw [Term.splitOptional, if_neg]
      rw [absent]
      exact Bool.false_ne_true
  | _ => rfl

theorem splitOptional_of_single {u : Term} (union : t.isUnion = true) (null : t.admitsNothing = true)
    (only : t.solid = [u]) : t.splitOptional = (u, true) := by
  cases t with
  | union isPlain ms =>
      have found : ms.any isNothing = true := null
      have listed : ms.filter (fun m => !m.isNothing) = [u] := only
      rw [Term.splitOptional, if_pos found, listed]
  | _ => cases union

theorem splitOptional_of_several (union : t.isUnion = true) (null : t.admitsNothing = true)
    (several : 2 ≤ t.solid.length) : t.splitOptional = (.union false t.solid, true) := by
  cases t with
  | union isPlain ms =>
      have found : ms.any isNothing = true := null
      have many : 2 ≤ (ms.filter fun m => !m.isNothing).length := several
      rw [Term.splitOptional, if_pos found]
      split
      · next only =>
          rw [only] at many
          exact absurd many (Nat.not_succ_le_self 1)
      · rfl
  | _ => cases union

theorem solid_of_not_admitsNothing (other : t.admitsNothing = false) : t.solid = t.members := by
  refine List.filter_eq_self.2 fun u listed => ?_
  rw [List.any_eq_false.1 other u listed |> Bool.eq_false_iff.2]
  rfl

/-- What a term in layers is without a demand. -/
theorem Wrapped.withoutDemand (wrapped : Wrapped core layers t) (bare : core.isBare = true) :
    Wrapped core (Layer.withoutDemand layers) t.withoutDemand := by
  cases layers with
  | nil =>
      have same := (Term.Alike.isBare_eq wrapped).trans bare
      rw [withoutDemand_of_isBare same]
      exact wrapped
  | cons layer layers =>
      cases layer with
      | demand isRequired =>
          obtain ⟨u, inner, rfl⟩ := wrapped
          exact inner
      | remarks values =>
          have same : t.withoutDemand = t := by
            obtain ⟨u, -, rfl⟩ := wrapped
            cases u <;> rfl
          rw [same]
          exact wrapped
      | optional =>
          have same : t.withoutDemand = t := by
            obtain ⟨-, -, -, union, -⟩ := wrapped
            cases t with
            | union => rfl
            | _ => cases union
          rw [same]
          exact wrapped

/-- What a term in layers is without remarks, and which remarks these are. -/
theorem Wrapped.splitRemarks (wrapped : Wrapped core layers t) (bare : core.isBare = true) :
    Wrapped core (Layer.splitRemarks layers).1 t.splitRemarks.1 ∧
      t.splitRemarks.2 = (Layer.splitRemarks layers).2 := by
  induction layers generalizing t with
  | nil =>
      rw [splitRemarks_of_isBare ((Term.Alike.isBare_eq wrapped).trans bare)]
      exact ⟨wrapped, rfl⟩
  | cons layer layers ih =>
      cases layer with
      | remarks values =>
          obtain ⟨u, inner, rfl⟩ := wrapped
          obtain ⟨below, read⟩ := ih inner
          rw [splitRemarks_remark, read]
          exact ⟨below, rfl⟩
      | demand isRequired =>
          obtain ⟨u, inner, rfl⟩ := wrapped
          exact ⟨⟨u, inner, rfl⟩, rfl⟩
      | optional =>
          have same : t.splitRemarks = (t, []) := by
            obtain ⟨-, -, -, union, -⟩ := wrapped
            cases t with
            | union => rfl
            | _ => cases union
          rw [same]
          exact ⟨wrapped, rfl⟩

/-- What a term in layers is without the type of null, and whether it was there. -/
theorem Wrapped.splitOptional (wrapped : Wrapped core layers t) (proper : core.IsProper)
    (bare : core.isBare = true) :
    Wrapped core (Layer.splitOptional layers).1 t.splitOptional.1 ∧
      t.splitOptional.2 = (Layer.splitOptional layers).2 := by
  induction layers generalizing t with
  | nil =>
      have same := (Term.Alike.isBare_eq wrapped).trans bare
      rw [splitOptional_of_not_admitsNothing (admitsNothing_of_isBare same)]
      exact ⟨wrapped, rfl⟩
  | cons layer layers ih =>
      by_cases outer : layer = .optional
      · subst outer
        cases layers with
        | nil =>
            obtain ⟨u, inner, -, union, null, listed⟩ := wrapped
            have none := admitsNothing_of_isBare ((Term.Alike.isBare_eq inner).trans bare)
            have whole := Term.Alike.isProper inner proper
            cases single : u.isUnion with
            | false =>
                rw [solid_of_not_admitsNothing none, members_of_not_isUnion single] at listed
                rw [splitOptional_of_single union null listed]
                exact ⟨inner, rfl⟩
            | true =>
                rw [solid_of_not_admitsNothing none] at listed
                rw [splitOptional_of_several union null (listed ▸ whole.several single), listed]
                refine ⟨?_, rfl⟩
                cases u with
                | union isPlain ms =>
                    cases inner with
                    | refl => exact .union _ _ ms
                    | union => exact .union _ _ ms
                | _ => cases single
        | cons below layers =>
            by_cases twice : below = .optional
            · subst twice
              exact ih wrapped.of_twice
            · obtain ⟨u, inner, -, union, null, listed⟩ := wrapped
              rw [(inner.solid_of_cons twice).1] at listed
              rw [splitOptional_of_single union null listed]
              cases below with
              | optional => exact absurd rfl twice
              | remarks | demand => exact ⟨inner, rfl⟩
      · obtain ⟨single, alone⟩ := wrapped.solid_of_cons outer
        have none : t.admitsNothing = false := by
          cases null : t.isNothing with
          | true =>
              rw [eq_nothing null] at single
              cases single
          | false =>
              rw [admitsNothing, members_of_not_isUnion alone, List.any_cons, null]
              rfl
        rw [splitOptional_of_not_admitsNothing none]
        cases layer with
        | optional => exact absurd rfl outer
        | remarks | demand => exact ⟨wrapped, rfl⟩

/-- The demand that a term in layers makes. -/
theorem Wrapped.demand?_eq (wrapped : Wrapped core layers t) (bare : core.isBare = true) :
    Sources.demand? t = Layer.demand? layers := by
  induction layers generalizing t with
  | nil =>
      have same := (Term.Alike.isBare_eq wrapped).trans bare
      cases t with
      | remarked | demanded => cases same
      | _ => rfl
  | cons layer layers ih =>
      cases layer with
      | remarks values =>
          obtain ⟨u, inner, rfl⟩ := wrapped
          rw [Layer.demand?, ← ih inner]
          cases u with
          | remarked base remarks => cases base <;> rfl
          | _ => rfl
      | demand isRequired =>
          obtain ⟨u, inner, rfl⟩ := wrapped
          rfl
      | optional =>
          obtain ⟨-, -, -, union, -⟩ := wrapped
          cases t with
          | union => rfl
          | _ => cases union

/-- **A field is described from what is left of the layers around its hint.** -/
theorem Wrapped.hint {f : Module.Field} (wrapped : Wrapped core layers f.hint)
    (proper : core.IsProper) (bare : core.isBare = true) :
    Wrapped core (Layer.left layers) f.core ∧ f.isNullable = Layer.isNullable layers ∧
      f.remarks = Layer.remarksRead layers := by
  obtain ⟨inner, read⟩ := (wrapped.withoutDemand bare).splitRemarks bare
  obtain ⟨left, nullable⟩ := inner.splitOptional proper bare
  exact ⟨left, nullable, read⟩

end RouteContract.Sources
