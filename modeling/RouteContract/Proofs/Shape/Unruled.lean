import Mathlib.Data.List.Lex
import RouteContract.Proofs.Shape.Guarded

/-!
# The first type without a rule

Compilation searches the parts of a type depth first and fails at the first type that it has no rule
for. The search is described without compilation: where it arrives is written down as the indices
of the parts that lead there (`Meets`), and the first place among several is the one whose indices
are lexicographically least (`FirstUnruled`). An object type that is being expanded is not entered
again. That hides nothing, because a way to a type can be cut short wherever it comes back to a
type that it has left (`meets_of_leaving`).

Main result: compilation of a guarded type fails exactly with the error about the first type without
a rule, and from outside of all object types there is one exactly when one can be reached
(`Graph.Guarded.fails_at_first_unruled`).
-/

set_option autoImplicit false

namespace RouteContract.Shape

open RouteContract

variable {g : Graph} {busy : List TypeId} {t u : TypeId} {position : List Nat}

/-! ## Searching -/

/-- Searching the parts of a type depth first arrives at a type, at a position. The position is the
list of the indices of the parts on the way. -/
inductive Meets (g : Graph) : List TypeId → TypeId → List Nat → TypeId → Prop
  | here (busy : List TypeId) (t : TypeId) : Meets g busy t [] t
  | part {busy : List TypeId} {t : TypeId} {i : Nat} {next : TypeId} {position : List Nat}
      {u : TypeId} (new : ¬ (g.isObject t = true ∧ t ∈ busy))
      (found : (g.followed t)[i]? = some next)
      (rest : Meets g (g.inside busy t) next position u) : Meets g busy t (i :: position) u

/-- The search arrives at a type without a rule, and at no other one before. -/
def FirstUnruled (g : Graph) (busy : List TypeId) (t u : TypeId) : Prop :=
  ∃ position, Meets g busy t position u ∧ g.IsUnruled u ∧
    ∀ position' u', Meets g busy t position' u' → g.IsUnruled u' → position ≤ position'

/-- The search arrives at no type without a rule. -/
def AllRuled (g : Graph) (busy : List TypeId) (t : TypeId) : Prop :=
  ∀ position u, Meets g busy t position u → ¬ g.IsUnruled u

theorem Meets.unique {u' : TypeId} (h : Meets g busy t position u)
    (h' : Meets g busy t position u') : u' = u := by
  induction h with
  | here busy t =>
      cases h'
      rfl
  | part _ found _ ih =>
      cases h' with
      | part _ found' rest' =>
          rw [found, Option.some.injEq] at found'
          subst found'
          exact ih rest'

/-- There is one first type without a rule at most. -/
theorem FirstUnruled.unique {u' : TypeId} (h : FirstUnruled g busy t u)
    (h' : FirstUnruled g busy t u') : u' = u := by
  obtain ⟨position, met, unruled, least⟩ := h
  obtain ⟨position', met', unruled', least'⟩ := h'
  have same : position' = position :=
    le_antisymm (least' position u met unruled) (least position' u' met' unruled')
  subst same
  exact met.unique met'

/-- A type that has no rule itself is the first one. -/
theorem firstUnruled_self (unruled : g.IsUnruled t) : FirstUnruled g busy t t :=
  ⟨[], .here busy t, unruled, fun position' _ _ _ => not_lt.1 (List.not_lt_nil position')⟩

/-- The first type without a rule below a part is the first one when there is none below the parts
before it. -/
theorem FirstUnruled.of_part {i : Nat} {next : TypeId} (ruled : ¬ g.IsUnruled t)
    (new : ¬ (g.isObject t = true ∧ t ∈ busy)) (found : (g.followed t)[i]? = some next)
    (first : FirstUnruled g (g.inside busy t) next u)
    (before : ∀ j w, j < i → (g.followed t)[j]? = some w → AllRuled g (g.inside busy t) w) :
    FirstUnruled g busy t u := by
  obtain ⟨position, met, unruled, least⟩ := first
  refine ⟨i :: position, .part new found met, unruled, fun position' u' met' unruled' => ?_⟩
  cases met' with
  | here => exact absurd unruled' ruled
  | @part _ _ j w rest _ _ found' below =>
      -- Parts before this one have none, and parts after it come later; below this part itself
      -- the position is the least.
      rcases Nat.lt_trichotomy j i with lt | rfl | gt
      · exact absurd unruled' (before j w lt found' rest u' below)
      · rw [found, Option.some.injEq] at found'
        subst found'
        exact List.cons_le_cons j (least rest u' below unruled')
      · exact le_of_lt (List.Lex.rel gt)

/-- No type without a rule is below a type when none is below its parts. -/
theorem allRuled_of_parts (ruled : ¬ g.IsUnruled t)
    (parts : ¬ (g.isObject t = true ∧ t ∈ busy) →
      ∀ w ∈ g.followed t, AllRuled g (g.inside busy t) w) : AllRuled g busy t := by
  intro position u met
  cases met with
  | here => exact ruled
  | part new found rest => exact parts new _ (List.mem_of_getElem? found) _ _ rest

theorem not_isUnruled_of_literal {kind : ScalarKind} {value : Json}
    (shape : g.shape t = .literal kind value) : ¬ g.IsUnruled t := by
  rw [Graph.IsUnruled, shape]
  exact id

/-- A literal has no parts. -/
theorem allRuled_of_literal {kind : ScalarKind} {value : Json}
    (shape : g.shape t = .literal kind value) : AllRuled g busy t := by
  refine allRuled_of_parts (not_isUnruled_of_literal shape) fun _ w member => ?_
  have part := mem_parts_of_mem_followed member
  rw [parts_of_literal shape] at part
  exact absurd part List.not_mem_nil

/-! ## Calls search -/

/-- What an answer says about the types that the search arrives at: a schema that all of them have
rules, and an error which is the first one that has none. -/
def Reports (g : Graph) (busy : List TypeId) (t : TypeId) : Option CompileError → Prop
  | none => AllRuled g busy t
  | some e => ∃ u, FirstUnruled g busy t u ∧ e = g.inconvertible u

/-- Where none of the calls fails, the search arrives at no type without a rule. -/
theorem allRuled_of_calls {c : Call} (ruled : ¬ g.IsUnruled c.type)
    (below : ∀ inner, g.Calls c inner → AllRuled g inner.entered inner.type) :
    AllRuled g c.entered c.type := by
  refine allRuled_of_parts ruled fun new w member => ?_
  rw [← isMetAgain_iff, Bool.not_eq_true] at new
  rcases exists_call_of_mem_parts new (mem_parts_of_mem_followed member) with
    ⟨inner, called, rfl⟩ | ⟨kind, value, shape⟩
  · rw [← entered_of_calls called]
    exact below inner called
  · exact allRuled_of_literal shape

/-- One step of compilation reports what the search finds first. -/
theorem reports_step {c : Call} {answers : Call → Option CompileError}
    (refuses : ∀ e, g.refusal? c.type = some e ↔ g.IsUnruled c.type ∧ e = g.inconvertible c.type)
    (below : ∀ inner, g.Calls c inner → Reports g inner.entered inner.type (answers inner)) :
    Reports g c.entered c.type ((g.refusal? c.type).or ((g.calls c).findSome? answers)) := by
  cases refused : g.refusal? c.type with
  | some e =>
      obtain ⟨unruled, same⟩ := (refuses e).1 refused
      exact ⟨c.type, firstUnruled_self unruled, same⟩
  | none =>
      have ruled : ¬ g.IsUnruled c.type := fun unruled => by
        rw [(refuses _).2 ⟨unruled, rfl⟩] at refused
        cases refused
      rw [Option.none_or]
      cases found : (g.calls c).findSome? answers with
      | none =>
          refine allRuled_of_calls ruled fun inner called => ?_
          have reported := below inner called
          rwa [List.findSome?_eq_none_iff.1 found inner called] at reported
      | some e =>
          obtain ⟨earlier, inner, later, split, failed, fine⟩ :=
            List.findSome?_eq_some_iff.1 found
          have here : (g.calls c)[earlier.length]? = some inner := by
            rw [split]
            exact List.getElem?_append_right (Nat.le_refl _) |>.trans (by simp)
          have called : g.Calls c inner := List.mem_of_getElem? here
          obtain ⟨new, followed⟩ := followed_of_calls called
          have reported := below inner called
          rw [failed, entered_of_calls called] at reported
          obtain ⟨u, first, same⟩ := reported
          have place : (g.followed c.type)[earlier.length]? = some inner.type := by
            rw [followed, List.getElem?_map, here]
            rfl
          refine ⟨u, first.of_part ruled new place ?_, same⟩
          -- The parts before are those of the calls before, which do not fail.
          intro j w lt found
          rw [followed, List.getElem?_map, split, List.getElem?_append_left lt] at found
          obtain ⟨before, member, rfl⟩ := Option.map_eq_some_iff.1 found
          have member := List.mem_of_getElem? member
          have called : g.Calls c before := by
            rw [Graph.Calls, split]
            exact List.mem_append_left _ member
          have reported := below before called
          rwa [fine before member, entered_of_calls called] at reported

/-- **Compilation reports the first type without a rule** that the search arrives at. -/
theorem Graph.Guarded.reports {root : TypeId} (guarded : g.Guarded root)
    (kinds : g.WellKinded root) (path : List String) (visited : Visited) :
    Reports g (visited.map (·.type)) root (failure? (g.compile root path visited)) := by
  refine guarded.acyclic.induction
    (motive := fun hops c => Reports g c.entered c.type (failure? (g.answer hops c)))
    (fun hops c reached below => ?_) (c := ⟨visited, path, root⟩) .refl (passed_nil root) rfl
  rw [failure?_answer_succ]
  exact reports_step (fun e => kinds.refusal?_iff reached) below

/-! ## Cutting ways short -/

/-- A step to a part from a type that is not to be left any more. -/
def Leaves (g : Graph) (left : List TypeId) (t u : TypeId) : Prop := t ∉ left ∧ u ∈ g.parts t

/-- A way that may leave a type can be cut short to start where it leaves the type for the last
time. -/
theorem leaves_last {left : List TypeId} {a : TypeId} (t : TypeId)
    (way : Relation.ReflTransGen (Leaves g left) a u) :
    Relation.ReflTransGen (Leaves g (t :: left)) a u ∨
      t ∉ left ∧ ∃ next ∈ g.parts t, Relation.ReflTransGen (Leaves g (t :: left)) next u := by
  induction way using Relation.ReflTransGen.head_induction_on with
  | refl => exact .inl .refl
  | @head a b step _ ih =>
      rcases ih with rest | last
      · by_cases same : a = t
        · subst same
          exact .inr ⟨step.1, b, step.2, rest⟩
        · exact .inl (.head ⟨fun again => (List.mem_cons.1 again).elim same step.1, step.2⟩ rest)
      · exact .inr last

/-- The search arrives where a way leads, when the way does not leave any of the object types that
are being expanded. -/
theorem meets_of_leaving {busy left : List TypeId} {t : TypeId} (unruled : g.IsUnruled u)
    (distinct : left.Nodup) (known : ∀ w ∈ left, w < g.size) (within : busy ⊆ left)
    (way : Relation.ReflTransGen (Leaves g left) t u) :
    ∃ position, Meets g busy t position u := by
  -- The way goes on from where it leaves `t` for the last time, so that nothing is hidden by not
  -- entering `t` again. The types that it does not leave any more become more with every step.
  rcases leaves_last t way with avoiding | ⟨fresh, next, part, rest⟩
  · rcases Relation.ReflTransGen.cases_head avoiding with rfl | ⟨next, step, -⟩
    · exact ⟨[], .here busy t⟩
    · exact absurd (List.mem_cons_self ..) step.1
  · have distinct' : (t :: left).Nodup := List.nodup_cons.2 ⟨fresh, distinct⟩
    have known' : ∀ w ∈ t :: left, w < g.size := by
      intro w member
      rcases List.mem_cons.1 member with rfl | member
      · exact lt_size_of_mem_parts part
      · exact known w member
    have few := length_le_size distinct' known'
    have within' : g.inside busy t ⊆ t :: left := by
      rw [Graph.inside]
      split
      · exact List.append_subset.2 ⟨List.subset_cons_of_subset t within, by simp⟩
      · exact List.subset_cons_of_subset t within
    obtain ⟨position, met⟩ := meets_of_leaving unruled distinct' known' within' rest
    rcases mem_followed_of_mem_parts part with followed | boolean
    · obtain ⟨i, found⟩ := List.mem_iff_getElem?.1 followed
      exact ⟨i :: position, .part (fun again => fresh (within again.2)) found met⟩
    · obtain ⟨value, shape⟩ := isLiteral_iff.1 boolean
      exact absurd unruled (allRuled_of_literal shape position u met)
termination_by g.size - left.length
decreasing_by
  rw [List.length_cons] at few ⊢
  omega

theorem Meets.reaches (h : Meets g busy t position u) : g.Reaches t u := by
  induction h with
  | here => exact .refl
  | part _ found _ ih =>
      exact .head (mem_parts_of_mem_followed (List.mem_of_getElem? found)) ih

/-- **What can be reached is searched**: a type without a rule can be reached exactly when the search
arrives at one. -/
theorem exists_meets_iff (unruled : g.IsUnruled u) :
    (∃ position, Meets g [] t position u) ↔ g.Reaches t u := by
  refine ⟨fun ⟨position, met⟩ => met.reaches, fun reached => ?_⟩
  have way : Relation.ReflTransGen (Leaves g []) t u :=
    Relation.ReflTransGen.mono (fun a b part => ⟨List.not_mem_nil, part⟩) _ _ reached
  exact meets_of_leaving unruled List.nodup_nil (fun w h => absurd h List.not_mem_nil)
    (List.Subset.refl _) way

/-! ## Failing -/

/-- **Compilation fails exactly on types without a rule.** Where every cycle passes through an object
type and literals have values of their kinds, compilation fails at every path and inside every list
of object types exactly with the error about the first type without a rule that a depth-first search
arrives at, carrying that type and its source. Outside of all object types it fails exactly when
such a type can be reached. -/
theorem Graph.Guarded.fails_at_first_unruled {root : TypeId} (guarded : g.Guarded root)
    (kinds : g.WellKinded root) (path : List String) :
    (∀ visited e, g.compile root path visited = .error e ↔
      ∃ u, FirstUnruled g (visited.map (·.type)) root u ∧
        e = .inconvertible u (g.label u) (g.node u).source) ∧
      ((∃ u, g.compile root path [] = .error (.inconvertible u (g.label u) (g.node u).source)) ↔
        ∃ u, g.Reaches root u ∧ g.IsUnruled u) := by
  have fails (visited : Visited) (e : CompileError) : g.compile root path visited = .error e ↔
      ∃ u, FirstUnruled g (visited.map (·.type)) root u ∧ e = g.inconvertible u := by
    have reported := guarded.reports kinds path visited
    constructor
    · intro failed
      rwa [failure?_eq_some_iff.2 failed] at reported
    · rintro ⟨u, first, rfl⟩
      cases answered : failure? (g.compile root path visited) with
      | none =>
          rw [answered] at reported
          obtain ⟨position, met, unruled, -⟩ := first
          exact absurd unruled (reported position u met)
      | some e =>
          rw [answered] at reported
          obtain ⟨u', first', rfl⟩ := reported
          rw [← first.unique first']
          exact failure?_eq_some_iff.1 answered
  refine ⟨fails, ?_⟩
  constructor
  · rintro ⟨u, failed⟩
    obtain ⟨u', ⟨position, met, unruled, -⟩, -⟩ := (fails [] _).1 failed
    exact ⟨u', met.reaches, unruled⟩
  · rintro ⟨u, reached, unruled⟩
    obtain ⟨position, met⟩ := (exists_meets_iff unruled).2 reached
    have reported := guarded.reports kinds path []
    cases answered : failure? (g.compile root path []) with
    | none =>
        rw [answered] at reported
        exact absurd unruled (reported position u met)
    | some e =>
        rw [answered] at reported
        obtain ⟨u', -, rfl⟩ := reported
        exact ⟨u', failure?_eq_some_iff.1 answered⟩

/-- Orders with a secret that is not shown, a date that is given a type, and a status that is a flag,
another order or some buffers; what else an order has is not known. -/
def orderGraph : Graph :=
  ⟨#[⟨.object [⟨"secret", 1, false, [("ignore", .bool true)]⟩,
      ⟨"date", 1, false, [("type", .str "string")]⟩, ⟨"parent", 0, false, []⟩,
      ⟨"status", 2, false, []⟩] (some 5) "Order", none⟩,
    ⟨.undescribed "Opaque", none⟩, ⟨.union [3, 0, 4], none⟩, ⟨.literal .boolean (.bool true), none⟩,
    ⟨.array 6, none⟩, ⟨.bare, none⟩, ⟨.undescribed "Buffer", some ⟨"order.ts", 3, 7⟩⟩]⟩

theorem orderGraph_guarded : orderGraph.Guarded 0 :=
  Graph.guarded_of_rank (fun t => if t = 2 then 2 else if t = 4 then 1 else 0) (by decide)

theorem orderGraph_wellKinded : orderGraph.WellKinded 0 := Graph.wellKinded_of_forall (by decide)

/-- **The buffers are what an order fails at**, and not what is not followed or comes later. -/
theorem orderGraph_fails_at_buffer :
    orderGraph.Guarded 0 ∧ orderGraph.WellKinded 0 ∧ FirstUnruled orderGraph [] 0 6 ∧
      orderGraph.compile 0 [] [] =
        .error (.inconvertible 6 "Buffer" (some ⟨"order.ts", 3, 7⟩)) := by
  have failed : orderGraph.compile 0 [] [] =
      .error (.inconvertible 6 "Buffer" (some ⟨"order.ts", 3, 7⟩)) := by cbv
  obtain ⟨u, first, same⟩ :=
    ((orderGraph_guarded.fails_at_first_unruled orderGraph_wellKinded []).1 [] _).1 failed
  rw [CompileError.inconvertible.injEq] at same
  exact ⟨orderGraph_guarded, orderGraph_wellKinded, same.1 ▸ first, failed⟩

end RouteContract.Shape
