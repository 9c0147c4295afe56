import Mathlib.Data.List.Perm.Subperm
import Mathlib.Data.List.Permutation
import RouteContract.Proofs.Shape.Call
import RouteContract.Proofs.Shape.Meaning

/-!
# Compilation ends

Compilation gives up when it has passed more types than there are without entering an object type.
Where every cycle passes through an object type it never does: the types that are passed between
two object types are different ones, because a type that came back would close a cycle without an
object type on it, and an object type is entered only where it is not being expanded. What is
proved about calls by going down into the calls they make is therefore proved of all of them
(`Graph.Acyclic.induction`).

Main results: compilation ends on every guarded graph, at every path and inside every list of
object types (`Graph.Guarded.compilation_ends`), and it is its own expansion, the bound on the hops
showing nowhere (`compile_iff_expands`).
-/

set_option autoImplicit false

namespace RouteContract.Shape

open RouteContract

variable {g : Graph} {root : TypeId}

/-! ## Guarded graphs -/

/-- Every cycle below a type passes through an object type. -/
def Graph.Guarded (g : Graph) (root : TypeId) : Prop :=
  ∀ t, g.Reaches root t → ¬ Relation.TransGen g.BareStep t t

/-- The literals below a type have values of the kinds that they are declared with. -/
def Graph.WellKinded (g : Graph) (root : TypeId) : Prop :=
  ∀ t, g.Reaches root t → g.FitsKind t

/-- A type without a rule that makes a schema of it. -/
def Graph.IsUnruled (g : Graph) (t : TypeId) : Prop :=
  match g.shape t with
  | .undescribed _ | .bare => True
  | _ => False

/-- A type that has parts has a node. -/
theorem lt_size_of_mem_parts {t u : TypeId} (h : u ∈ g.parts t) : t < g.size := by
  rw [Graph.parts, Graph.shape, Graph.node] at h
  rw [Graph.size]
  by_contra beyond
  rw [Array.getElem?_eq_none (Nat.le_of_not_lt beyond)] at h
  cases h

/-- Where ranks fall along every step that does not start at an object type, the graph is guarded. -/
theorem Graph.guarded_of_rank (rank : TypeId → Nat)
    (falls : ∀ t < g.size, g.isObject t = false → ∀ u ∈ g.parts t, rank u < rank t) :
    g.Guarded root :=
  fun _ _ => Graph.not_transGen_of_rank (fun _ => True) rank (fun _ _ _ _ => trivial)
    (fun t u _ step => falls t (lt_size_of_mem_parts step.2) step.1 u step.2) trivial

/-- Where all literals have values of their kinds, those below a type have. -/
theorem Graph.wellKinded_of_forall (fits : ∀ t < g.size, g.FitsKind t) : g.WellKinded root := by
  intro t _ kind value shape
  refine fits t ?_ kind value shape
  rw [Graph.shape, Graph.node] at shape
  rw [Graph.size]
  by_contra beyond
  rw [Array.getElem?_eq_none (Nat.le_of_not_lt beyond)] at shape
  cases shape

/-- Different types that are all in the graph are at most as many as the graph has. -/
theorem length_le_size {seen : List TypeId} (distinct : seen.Nodup)
    (known : ∀ u ∈ seen, u < g.size) : seen.length ≤ g.size := by
  have subset : seen ⊆ List.range g.size := fun u hu => List.mem_range.2 (known u hu)
  simpa using (List.Nodup.subperm distinct subset).length_le

/-! ## Induction on calls -/

/-- The types that have been passed since the last object type: different ones, from each of which
the type at hand is reached without entering an object type. -/
structure Passed (g : Graph) (t : TypeId) (seen : List TypeId) : Prop where
  distinct : seen.Nodup
  known : ∀ u ∈ seen, u < g.size
  behind : ∀ u ∈ seen, Relation.TransGen g.BareStep u t

theorem passed_nil (t : TypeId) : Passed g t [] :=
  ⟨List.nodup_nil, fun _ h => absurd h List.not_mem_nil, fun _ h => absurd h List.not_mem_nil⟩

theorem passed_singleton {t u : TypeId} (step : g.BareStep t u) : Passed g u [t] := by
  refine ⟨List.nodup_singleton t, fun w member => ?_, fun w member => ?_⟩
  · rw [List.mem_singleton.1 member]
    exact lt_size_of_mem_parts step.2
  · rw [List.mem_singleton.1 member]
    exact .single step

theorem Passed.step {t u : TypeId} {seen : List TypeId} (passed : Passed g t seen)
    (acyclic : ¬ Relation.TransGen g.BareStep t t) (step : g.BareStep t u) :
    Passed g u (t :: seen) := by
  refine ⟨List.nodup_cons.2 ⟨fun again => acyclic (passed.behind t again), passed.distinct⟩,
    ?_, ?_⟩
  · intro w member
    rcases List.mem_cons.1 member with rfl | member
    · exact lt_size_of_mem_parts step.2
    · exact passed.known w member
  · intro w member
    rcases List.mem_cons.1 member with rfl | member
    · exact .single step
    · exact (passed.behind w member).tail step

/-- Calls that are closed under the calls they make, none of them for a type on a cycle without an
object type. -/
structure Graph.Acyclic (g : Graph) (known : Call → Prop) : Prop where
  closed : ∀ outer inner, known outer → g.Calls outer inner → known inner
  acyclic : ∀ c, known c → ¬ Relation.TransGen g.BareStep c.type c.type

theorem Graph.Guarded.acyclic (guarded : g.Guarded root) :
    g.Acyclic fun c => g.Reaches root c.type :=
  ⟨fun _ _ reached called => reached.part (calls_cases called).1, fun c => guarded c.type⟩

namespace Graph.Acyclic

variable {known : Call → Prop}

/-- **Induction on calls**, with the number of types that may still be passed before the next object
type: it is never used up. -/
theorem induction (acyclic : g.Acyclic known) {motive : Nat → Call → Prop}
    (step : ∀ hops c, known c →
      (∀ inner, g.Calls c inner → motive (g.hopsInside hops c.visited inner.visited) inner) →
      motive (hops + 1) c)
    {hops : Nat} {c : Call} {seen : List TypeId} (start : known c) (passed : Passed g c.type seen)
    (enough : hops + seen.length = g.size + 1) : motive hops c := by
  cases hops with
  | zero =>
      -- More types have been passed than the graph has.
      have few := length_le_size passed.distinct passed.known
      omega
  | succ hops =>
      refine step hops c start fun inner called => ?_
      have next := acyclic.closed c inner start called
      obtain ⟨part, ⟨bare, same⟩ | ⟨fresh, entered⟩⟩ := calls_cases called
      · -- One more type has been passed, and it is a new one: a way back to it would be a cycle.
        rw [same, g.hopsInside_self]
        exact acyclic.induction step next (passed.step (acyclic.acyclic c start) ⟨bare, part⟩)
          (by rw [List.length_cons]; omega)
      · -- Inside an object type the count starts again, with one object type less to enter.
        rw [entered, g.hopsInside_enter]
        have fewer : g.freshCount inner.visited < g.freshCount c.visited := by
          rw [entered]
          rw [Graph.isFresh, Bool.and_eq_true, Bool.not_eq_true'] at fresh
          exact Graph.freshCount_lt c.path fresh.1 fresh.2
        exact acyclic.induction step next (passed_nil inner.type) rfl
termination_by (g.freshCount c.visited, hops)
decreasing_by
  · simp only [Prod.lex_def, same, true_and]
    omega
  · simp only [Prod.lex_def]
    omega

/-- Every chain of calls ends. -/
theorem acc (acyclic : g.Acyclic known) {c : Call} (start : known c) :
    Acc (fun inner outer => g.Calls outer inner) c :=
  acyclic.induction (motive := fun _ c => Acc (fun inner outer => g.Calls outer inner) c)
    (fun _ c _ below => Acc.intro c below) start (passed_nil c.type) rfl

end Graph.Acyclic

/-! ## Errors -/

theorem eq_unordered_of_orderedValues {values : List Json} {e : CompileError}
    (h : orderedValues values = .error e) : e = .unordered := by
  unfold orderedValues at h
  split at h
  · exact (Except.error.inj h).symm
  · split at h
    · cases h
    · split at h
      · cases h
      · split at h
        · split at h
          · cases h
          · exact (Except.error.inj h).symm
        · cases h

/-- A type that fails by itself has no rule, or is a union of literals that have no order. -/
theorem refusal?_cases {t : TypeId} {e : CompileError} (h : g.refusal? t = some e) :
    g.IsUnruled t ∧ e = g.inconvertible t ∨
      e = .unordered ∧ ∃ members kind, g.shape t = .union members ∧
        g.collapsed? members = some kind ∧
        orderedValues (members.map g.literalValue) = .error e := by
  rw [Graph.refusal?] at h
  rw [Graph.IsUnruled]
  cases shape : g.shape t with
  | undescribed name | bare =>
      simp only [shape] at h
      exact .inl ⟨trivial, (Option.some.inj h).symm⟩
  | union members =>
      simp only [shape] at h
      obtain ⟨kind, collapsed, failed⟩ := Option.bind_eq_some_iff.1 h
      have failed := failure?_eq_some_iff.1 failed
      exact .inr ⟨eq_unordered_of_orderedValues failed, members, kind, rfl, collapsed, failed⟩
  | scalar | literal | array | tuple | object | intersection | enumeration | null | any =>
      simp only [shape] at h
      cases h

/-- Where literals have values of their kinds, a type fails by itself only when it has no rule. -/
theorem refusal?_iff {t : TypeId} (fits : ∀ u ∈ g.parts t, g.FitsKind u) {e : CompileError} :
    g.refusal? t = some e ↔ g.IsUnruled t ∧ e = g.inconvertible t := by
  constructor
  · intro h
    rcases refusal?_cases h with unruled | ⟨-, members, kind, shape, collapsed, failed⟩
    · exact unruled
    · rw [Graph.parts, shape] at fits
      obtain ⟨ordered, success, -⟩ :=
        orderedValues_homogeneous (homogeneous_of_collapsed fits collapsed)
      rw [success] at failed
      cases failed
  · rintro ⟨unruled, rfl⟩
    rw [Graph.IsUnruled] at unruled
    rw [Graph.refusal?]
    split at unruled
    · next shape => simp only [shape]
    · next shape => simp only [shape]
    · exact unruled.elim

theorem Graph.WellKinded.refusal?_iff (kinds : g.WellKinded root) {t : TypeId}
    (reached : g.Reaches root t) {e : CompileError} :
    g.refusal? t = some e ↔ g.IsUnruled t ∧ e = g.inconvertible t :=
  Shape.refusal?_iff fun u part => kinds u (reached.part part)

/-- How a step of compilation fails. -/
theorem answer_succ_eq_error {hops : Nat} {c : Call} {e : CompileError}
    (h : g.answer (hops + 1) c = .error e) :
    g.refusal? c.type = some e ∨ ∃ inner, g.Calls c inner ∧
      g.answer (g.hopsInside hops c.visited inner.visited) inner = .error e := by
  rw [← failure?_eq_some_iff, failure?_answer_succ, Option.or_eq_some_iff] at h
  rcases h with refused | ⟨-, found⟩
  · exact .inl refused
  · obtain ⟨inner, called, failed⟩ := List.exists_of_findSome?_eq_some found
    exact .inr ⟨inner, called, failure?_eq_some_iff.1 failed⟩

/-! ## The bound on the hops -/

namespace Graph.Acyclic

variable {known : Call → Prop}

/-- The bound on the hops is not reached. -/
theorem answer_ne_endless (acyclic : g.Acyclic known) {hops : Nat} {c : Call} {seen : List TypeId}
    (start : known c) (passed : Passed g c.type seen) (enough : hops + seen.length = g.size + 1) :
    g.answer hops c ≠ .error .endless := by
  refine acyclic.induction (motive := fun hops c => g.answer hops c ≠ .error .endless)
    (fun hops c known below failed => ?_) start passed enough
  rcases answer_succ_eq_error failed with refused | ⟨inner, called, failed⟩
  · rcases refusal?_cases refused with ⟨-, impossible⟩ | ⟨impossible, -⟩
    · exact nomatch impossible
    · exact nomatch impossible
  · exact below inner called failed

/-- A call answers to the call that makes it what it answers by itself. -/
theorem answer_inner (acyclic : g.Acyclic known) {outer inner : Call} (start : known outer)
    (called : g.Calls outer inner) :
    g.answer (g.hopsInside g.size outer.visited inner.visited) inner =
      g.answer (g.size + 1) inner := by
  obtain ⟨part, ⟨bare, same⟩ | ⟨-, entered⟩⟩ := calls_cases called
  · rw [same, g.hopsInside_self]
    exact (answer_stable (Nat.le_succ _) (acyclic.answer_ne_endless
      (acyclic.closed outer inner start called) (passed_singleton ⟨bare, part⟩) rfl)).symm
  · rw [entered, g.hopsInside_enter]

/-- **A call fails by itself, or as the first of its calls that fails.** -/
theorem failure?_answer (acyclic : g.Acyclic known) {c : Call} (start : known c) :
    failure? (g.answer (g.size + 1) c) =
      (g.refusal? c.type).or ((g.calls c).findSome? fun inner =>
        failure? (g.answer (g.size + 1) inner)) := by
  rw [failure?_answer_succ]
  congr 1
  exact findSome?_congr fun inner called => by rw [acyclic.answer_inner start called]

end Graph.Acyclic

/-! ## Compilation ends -/

/-- What compilation fails with on a guarded graph. -/
theorem Graph.Guarded.compile_cases (guarded : g.Guarded root) (kinds : g.WellKinded root)
    {t : TypeId} (reached : g.Reaches root t) (path : List String) (visited : Visited) :
    (∃ s, g.compile t path visited = .ok s) ∨
      ∃ u, g.Reaches root u ∧ g.IsUnruled u ∧
        g.compile t path visited = .error (g.inconvertible u) := by
  have fails : ∀ e, g.answer (g.size + 1) ⟨visited, path, t⟩ = .error e →
      ∃ u, g.Reaches root u ∧ g.IsUnruled u ∧ e = g.inconvertible u := by
    refine guarded.acyclic.induction (motive := fun hops c => ∀ e, g.answer hops c = .error e →
      ∃ u, g.Reaches root u ∧ g.IsUnruled u ∧ e = g.inconvertible u)
      (fun hops c reached below e failed => ?_) reached (passed_nil t) rfl
    rcases answer_succ_eq_error failed with refused | ⟨inner, called, failed⟩
    · exact ⟨c.type, reached, (kinds.refusal?_iff reached).1 refused⟩
    · exact below inner called e failed
  cases answered : g.compile t path visited with
  | ok s => exact .inl ⟨s, rfl⟩
  | error e =>
      obtain ⟨u, reached, unruled, rfl⟩ := fails e answered
      exact .inr ⟨u, reached, unruled, rfl⟩

/-- Calls are made inside the object types that are being expanded. -/
theorem prefix_of_calls {outer inner : Call} (h : Relation.ReflTransGen g.Calls outer inner) :
    outer.visited <+: inner.visited := by
  induction h with
  | refl => exact List.prefix_rfl
  | tail _ called ih =>
      obtain ⟨-, ⟨-, same⟩ | ⟨-, entered⟩⟩ := calls_cases called
      · rwa [same]
      · rw [entered]
        exact ih.trans (List.prefix_append _ _)

/-- **No object type is expanded inside its own expansion.** -/
theorem type_ne_of_transGen_calls {outer inner : Call}
    (h : Relation.TransGen g.Calls outer inner)
    (fresh : g.isFresh outer.visited outer.type = true)
    (freshInside : g.isFresh inner.visited inner.type = true) : inner.type ≠ outer.type := by
  intro same
  obtain ⟨first, called, further⟩ := Relation.TransGen.head'_iff.1 h
  obtain ⟨-, ⟨bare, -⟩ | ⟨-, entered⟩⟩ := calls_cases called
  · rw [Graph.isFresh, bare] at fresh
    cases fresh
  · have listed : ⟨outer.type, outer.path⟩ ∈ inner.visited := by
      refine (prefix_of_calls further).subset ?_
      rw [entered]
      exact List.mem_append_right _ (List.mem_singleton_self _)
    rw [Graph.isFresh, Bool.and_eq_true, Bool.not_eq_true', List.any_eq_false] at freshInside
    exact freshInside.2 _ listed (by simp [same])

/-- **Compilation ends on guarded graphs**, at every path and inside every list of object types.
Every chain of calls ends; each call that is made on the way fails by itself or as the first of its
calls that fails, whatever the bound on the hops, which is not reached; where literals have values of
their kinds, the outcome is a schema or the error about a type without a rule; and no object type is
expanded inside its own expansion. -/
theorem Graph.Guarded.compilation_ends (guarded : g.Guarded root) (path : List String)
    (visited : Visited) :
    Acc (fun inner outer => g.Calls outer inner) ⟨visited, path, root⟩ ∧
      (∀ c, Relation.ReflTransGen g.Calls ⟨visited, path, root⟩ c →
        g.compile c.type c.path c.visited ≠ .error .endless ∧
        (∀ hops, g.size < hops →
          g.compileFrom hops c.visited c.path c.type = g.compile c.type c.path c.visited) ∧
        failure? (g.compile c.type c.path c.visited) =
          (g.refusal? c.type).or ((g.calls c).findSome? fun inner =>
            failure? (g.compile inner.type inner.path inner.visited))) ∧
      (g.WellKinded root →
        (∃ s, g.compile root path visited = .ok s) ∨
          ∃ u, g.compile root path visited = .error (g.inconvertible u)) ∧
      ∀ outer inner, Relation.ReflTransGen g.Calls ⟨visited, path, root⟩ outer →
        Relation.TransGen g.Calls outer inner → g.isFresh outer.visited outer.type = true →
        g.isFresh inner.visited inner.type = true → inner.type ≠ outer.type := by
  refine ⟨guarded.acyclic.acc .refl, fun c made => ?_, fun kinds => ?_,
    fun outer inner _ => type_ne_of_transGen_calls⟩
  · have reached : g.Reaches root c.type := by
      induction made with
      | refl => exact .refl
      | tail _ called ih => exact ih.part (calls_cases called).1
    have finite := guarded.acyclic.answer_ne_endless reached (passed_nil c.type) rfl
    exact ⟨finite, fun hops lt => answer_stable lt finite, guarded.acyclic.failure?_answer reached⟩
  · rcases guarded.compile_cases kinds .refl path visited with success | ⟨u, -, -, failed⟩
    · exact .inl success
    · exact .inr ⟨u, failed⟩

/-- Trees whose nodes are given as lists of what some type has in common with extras. -/
def forestGraph : Graph :=
  ⟨#[⟨.object [⟨"left", 1, false, []⟩, ⟨"rest", 3, false, []⟩] none "Tree", none⟩,
    ⟨.union [0, 2, 7], none⟩, ⟨.null, none⟩, ⟨.array 4, none⟩, ⟨.intersection [0, 5], none⟩,
    ⟨.object [⟨"pair", 6, false, []⟩] (some 0) "Extra", none⟩, ⟨.tuple [5, 2], none⟩,
    ⟨.literal .string (.str "leaf"), none⟩]⟩

theorem forestGraph_guarded : forestGraph.Guarded 0 :=
  Graph.guarded_of_rank (fun t => if t = 3 then 2 else if t = 1 ∨ t = 4 ∨ t = 6 then 1 else 0)
    (by decide)

theorem forestGraph_wellKinded : forestGraph.WellKinded 0 :=
  Graph.wellKinded_of_forall (by decide)

/-- **A tree is compiled** inside the expansion of what it is joined with. -/
theorem forestGraph_compilation_ends :
    forestGraph.Guarded 0 ∧ forestGraph.WellKinded 0 ∧
      Acc (fun inner outer => forestGraph.Calls outer inner) ⟨[⟨5, []⟩], ["items"], 0⟩ ∧
      ∃ s, forestGraph.compile 0 ["items"] [⟨5, []⟩] = .ok s := by
  obtain ⟨ends, -, outcome, -⟩ := forestGraph_guarded.compilation_ends ["items"] [⟨5, []⟩]
  refine ⟨forestGraph_guarded, forestGraph_wellKinded, ends,
    (outcome forestGraph_wellKinded).resolve_right ?_⟩
  rintro ⟨u, failed⟩
  have compiled : (forestGraph.compile 0 ["items"] [⟨5, []⟩]).isOk = true := by cbv
  rw [failed] at compiled
  cases compiled

/-! ## The recursion of compilation -/

theorem parts_of_literal {t : TypeId} {kind : ScalarKind} {value : Json}
    (shape : g.shape t = .literal kind value) : g.parts t = [] := by
  rw [Graph.parts, shape]

/-- Every part of a type that is not met again is called for, or is a literal. -/
theorem exists_call_of_mem_parts {c : Call} {u : TypeId} (new : g.isMetAgain c = false)
    (part : u ∈ g.parts c.type) :
    (∃ inner, g.Calls c inner ∧ inner.type = u) ∨
      ∃ kind value, g.shape u = .literal kind value := by
  by_cases mixed : ∀ members, g.shape c.type = .union members → g.collapsed? members = none
  · rcases mem_followed_of_mem_parts part with followed | boolean
    · rw [← map_type_calls new mixed] at followed
      obtain ⟨inner, called, same⟩ := List.mem_map.1 followed
      exact .inl ⟨inner, called, same⟩
    · exact .inr ⟨_, isLiteral_iff.1 boolean⟩
  · simp only [not_forall] at mixed
    obtain ⟨members, shape, collapsed⟩ := mixed
    obtain ⟨kind, collapsed⟩ := Option.ne_none_iff_exists'.1 collapsed
    rw [Graph.parts, shape] at part
    exact .inr ⟨kind, isLiteral_iff.1 ((collapsed?_eq_some collapsed).2.2 u part)⟩

/-- The calls of a call that succeeds succeed. -/
theorem exists_answer_of_calls {hops : Nat} {outer inner : Call} {s : Json}
    (h : g.answer (hops + 1) outer = .ok s) (called : g.Calls outer inner) :
    ∃ s, g.answer (g.hopsInside hops outer.visited inner.visited) inner = .ok s := by
  have none := failure?_eq_none_iff.2 ⟨s, h⟩
  rw [failure?_answer_succ, Option.or_eq_none_iff] at none
  exact failure?_eq_none_iff.1 (List.findSome?_eq_none_iff.1 none.2 inner called)

/-- From a type that is compiled, object types or types without parts are reached in finitely many
steps. -/
theorem acc_bareStep_of_answer {hops : Nat} {c : Call} {s : Json} (h : g.answer hops c = .ok s) :
    Acc (fun u t => g.BareStep t u) c.type := by
  induction hops generalizing c s with
  | zero => simp [Graph.answer, Graph.compileFrom] at h
  | succ hops ih =>
      refine Acc.intro c.type fun u step => ?_
      have new : g.isMetAgain c = false := by rw [Graph.isMetAgain, step.1, Bool.false_and]
      rcases exists_call_of_mem_parts new step.2 with ⟨inner, called, rfl⟩ | ⟨kind, value, shape⟩
      · obtain ⟨-, ⟨-, same⟩ | ⟨fresh, -⟩⟩ := calls_cases called
        · obtain ⟨s', h'⟩ := exists_answer_of_calls h called
          rw [same, g.hopsInside_self] at h'
          exact ih h'
        · rw [Graph.isFresh, step.1] at fresh
          cases fresh
      · refine Acc.intro u fun w step => ?_
        rw [Graph.BareStep, parts_of_literal shape] at step
        exact absurd step.2 List.not_mem_nil

theorem not_transGen_of_acc {α : Type} {r : α → α → Prop} {a : α}
    (h : Acc (fun b a => r a b) a) : ¬ Relation.TransGen r a a := by
  induction h with
  | intro a _ ih =>
      intro cycle
      obtain ⟨b, step, rest⟩ := Relation.TransGen.head'_iff.1 cycle
      exact ih b step (Relation.TransGen.tail' rest step)

/-- The calls that succeed make calls that do, none of them for a type on a cycle. -/
theorem acyclic_of_answer : g.Acyclic fun c => ∃ s, g.answer (g.size + 1) c = .ok s := by
  refine ⟨fun outer inner => ?_, fun c => ?_⟩
  · rintro ⟨s, h⟩ called
    obtain ⟨s', h'⟩ := exists_answer_of_calls h called
    refine ⟨s', compileFrom_mono ?_ h'⟩
    rw [Graph.hopsInside]
    split
    · exact Nat.le_succ _
    · exact Nat.le_refl _
  · rintro ⟨s, h⟩
    exact not_transGen_of_acc (acc_bareStep_of_answer h)

/-- A call that succeeds by itself answers the same to the call that makes it. -/
theorem answer_inside {outer : Call} (inner : Call) {s : Json}
    (h : g.answer (g.size + 1) inner = .ok s) (called : g.Calls outer inner) :
    g.answer (g.hopsInside g.size outer.visited inner.visited) inner = .ok s := by
  obtain ⟨part, ⟨bare, same⟩ | ⟨-, entered⟩⟩ := calls_cases called
  · rw [same, g.hopsInside_self, ← h]
    exact (answer_stable (Nat.le_succ _) (acyclic_of_answer.answer_ne_endless ⟨s, h⟩
      (passed_singleton ⟨bare, part⟩) rfl)).symm
  · rw [entered, g.hopsInside_enter]
    exact h

/-- **Compilation is its own expansion**: a type has a schema exactly when its parts have the schemas
that it is put together from. The bound on the hops shows nowhere. -/
theorem compile_iff_expands {visited : Visited} {path : List String} {t : TypeId} {s : Json} :
    g.compile t path visited = .ok s ↔
      Expands g (fun visited path u s => g.compile u path visited = .ok s) visited path t s := by
  refine ⟨expands_of_compile, fun expands => compileFrom_succ_iff.2 ?_⟩
  exact expands.restrict.imp
    (fun path u _ part => answer_inside ⟨visited, path, u⟩ part.1 part.2)
    fun _ _ path' u _ part =>
      answer_inside ⟨enter visited t path, path', u⟩ part.1 part.2

/-! ## What can be compiled -/

/-- A call succeeds when the type does not fail by itself and all the calls for its parts succeed. -/
theorem exists_answer_iff {c : Call} :
    (∃ s, g.answer (g.size + 1) c = .ok s) ↔
      g.refusal? c.type = none ∧ ∀ inner, g.Calls c inner →
        ∃ s, g.answer (g.size + 1) inner = .ok s := by
  constructor
  · intro h
    refine ⟨?_, fun inner called => acyclic_of_answer.closed c inner h called⟩
    obtain ⟨s, h⟩ := h
    have none := failure?_eq_none_iff.2 ⟨s, h⟩
    rw [failure?_answer_succ, Option.or_eq_none_iff] at none
    exact none.1
  · rintro ⟨fine, parts⟩
    rw [← failure?_eq_none_iff, failure?_answer_succ, fine, Option.none_or,
      List.findSome?_eq_none_iff]
    intro inner called
    obtain ⟨s, h⟩ := parts inner called
    exact failure?_eq_none_iff.2 ⟨s, answer_inside inner h called⟩

/-- A type can be compiled inside a list of object types. -/
def Graph.Converts (g : Graph) (visited : Visited) (t : TypeId) : Prop :=
  ∃ path s, g.compile t path visited = .ok s

/-- **What can be compiled can be compiled everywhere**: the path makes no difference, and more object
types around a type leave fewer parts to look at. -/
theorem Graph.Converts.everywhere {visited visited' : Visited} {t : TypeId}
    (converts : g.Converts visited t) (path : List String)
    (within : visited.map (·.type) ⊆ visited'.map (·.type)) :
    ∃ s, g.compile t path visited' = .ok s := by
  have general : ∀ c : Call, (∃ s, g.answer (g.size + 1) c = .ok s) → ∀ c' : Call,
      c'.type = c.type → c.entered ⊆ c'.entered → ∃ s, g.answer (g.size + 1) c' = .ok s := by
    intro c h
    induction acyclic_of_answer.acc h with
    | intro c _ ih =>
        intro c' same within
        obtain ⟨fine, parts⟩ := exists_answer_iff.1 h
        refine exists_answer_iff.2 ⟨same ▸ fine, fun inner' called' => ?_⟩
        obtain ⟨new', followed'⟩ := followed_of_calls called'
        have part : inner'.type ∈ g.followed c.type := by
          rw [← same, followed']
          exact List.mem_map_of_mem called'
        have new : g.isMetAgain c = false := by
          rw [← Bool.not_eq_true, isMetAgain_iff, ← same]
          exact fun again => new' ⟨again.1, within again.2⟩
        rcases exists_call_of_mem_parts new (mem_parts_of_mem_followed part) with
          ⟨inner, called, alike⟩ | ⟨kind, value, shape⟩
        · refine ih inner called (parts inner called) inner' alike.symm ?_
          rw [entered_of_calls called, entered_of_calls called', same, Graph.inside, Graph.inside]
          split
          · exact List.append_subset.2 ⟨List.subset_append_of_subset_left _ within,
              List.subset_append_right _ _⟩
          · exact within
        · exact ⟨_, compile_iff_expands.2 (by rw [Expands, shape])⟩
  obtain ⟨path', s, h⟩ := converts
  exact general ⟨visited, path', t⟩ ⟨s, h⟩ ⟨visited', path, t⟩ rfl within

/-- A type that is no object type can be compiled when its parts can. -/
theorem compile_ok_of_parts {visited : Visited} {t : TypeId} (bare : g.isObject t = false)
    (fine : g.refusal? t = none) (converts : ∀ u ∈ g.parts t, g.Converts visited u)
    (path : List String) : ∃ s, g.compile t path visited = .ok s := by
  refine (exists_answer_iff (c := ⟨visited, path, t⟩)).2 ⟨fine, fun inner called => ?_⟩
  obtain ⟨part, ⟨-, same⟩ | ⟨fresh, -⟩⟩ := calls_cases called
  · rw [Graph.answer, same]
    exact (converts inner.type part).everywhere inner.path (List.Subset.refl _)
  · rw [Graph.isFresh, bare, Bool.false_and] at fresh
    cases fresh

/-! ## Plain graphs -/

theorem Graph.Plain.wellKinded (plain : g.Plain root) : g.WellKinded root :=
  fun _ reached _ _ => plain.literal reached

/-- **Every plain type can be compiled**, wherever it stands. -/
theorem Graph.Plain.compile_ok (plain : g.Plain root) {t : TypeId} (reached : g.Reaches root t)
    (path : List String) (visited : Visited) : ∃ s, g.compile t path visited = .ok s := by
  have guarded : g.Guarded root := plain.guarded
  rcases guarded.compile_cases plain.wellKinded reached path visited with
    success | ⟨u, reached, unruled, -⟩
  · exact success
  · have known := plain.plainAt u reached
    rw [Graph.IsUnruled] at unruled
    rw [Graph.PlainAt] at known
    split at unruled
    · next shape => simp only [shape] at known
    · next shape => simp only [shape] at known
    · exact unruled.elim

end RouteContract.Shape
