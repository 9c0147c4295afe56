import RouteContract.Proofs.Shape.Guarded

/-!
# Types that a type names

The node of a type names other types: all of them are its links, also those that compilation passes
over. A cycle of types is a cycle of links. Where every such cycle passes through one of a class of
object types, the graph is guarded below every type.
-/

set_option autoImplicit false

namespace RouteContract.Shape

open RouteContract

/-! ## Nodes that are added or replaced -/

section Nodes

variable (g : Graph) (t : TypeId) (n : Node)

@[simp] theorem Graph.size_push : (g.push n).size = g.size + 1 := Array.size_push ..

@[simp] theorem Graph.size_set : (g.set t n).size = g.size := Array.size_setIfInBounds ..

@[simp] theorem Graph.shape_push_size : (g.push n).shape g.size = n.shape := by
  rw [Graph.shape, Graph.node, Graph.push, Graph.size, Array.getElem?_push_size]
  rfl

variable {t}

theorem Graph.shape_push_of_lt (known : t < g.size) : (g.push n).shape t = g.shape t := by
  rw [Graph.shape, Graph.node, Graph.push, Array.getElem?_push_lt known, Graph.shape, Graph.node,
    Array.getElem?_eq_getElem known]

theorem Graph.shape_set_self (known : t < g.size) : (g.set t n).shape t = n.shape := by
  rw [Graph.shape, Graph.node, Graph.set, Array.getElem?_setIfInBounds_self_of_lt known]
  rfl

theorem Graph.shape_set_of_ne {u : TypeId} (other : u ≠ t) : (g.set t n).shape u = g.shape u := by
  rw [Graph.shape, Graph.node, Graph.set, Array.getElem?_setIfInBounds_ne (Ne.symm other)]
  rfl

end Nodes

/-! ## Links -/

/-- The types that a node names. -/
def TypeShape.links : TypeShape → List TypeId
  | .array element => [element]
  | .tuple elements => elements
  | .object properties index _ => properties.map (·.type) ++ index.toList
  | .union members => members
  | .intersection members => members
  | .scalar _ | .literal _ _ | .enumeration _ _ | .null | .any | .undescribed _ | .bare => []

/-- A type leads to the types that its node names, and on to those that they name. -/
def Graph.Leads (g : Graph) : TypeId → TypeId → Prop :=
  Relation.ReflTransGen fun t u => u ∈ (g.shape t).links

variable {g : Graph}

theorem mem_links_of_mem_parts {t u : TypeId} (part : u ∈ g.parts t) : u ∈ (g.shape t).links := by
  rw [Graph.parts] at part
  cases shape : g.shape t with
  | object properties index name =>
      simp only [shape, participating, List.mem_append, List.mem_map, List.mem_filter] at part
      rw [TypeShape.links, List.mem_append, List.mem_map]
      rcases part with ⟨p, ⟨⟨declared, -⟩, -⟩, typed⟩ | listed
      · exact .inl ⟨p, declared, typed⟩
      · exact .inr listed
  | array | tuple | union | intersection =>
      simp only [shape] at part
      exact part
  | scalar | literal | enumeration | null | any | undescribed | bare =>
      simp only [shape] at part
      exact absurd part List.not_mem_nil

/-- Where no cycle of links avoids the object types of a class, the graph is guarded. -/
theorem Graph.guarded_of_links {known : TypeId → Prop}
    (objects : ∀ t, known t → g.isObject t = true)
    (acyclic : ∀ t, ¬ Relation.TransGen (fun t u => ¬ known t ∧ u ∈ (g.shape t).links) t t)
    (root : TypeId) : g.Guarded root := by
  intro t _ cycle
  refine acyclic t (Relation.TransGen.mono
    (fun t u step => ⟨fun object => ?_, mem_links_of_mem_parts step.2⟩) _ _ cycle)
  have bare := step.1
  rw [objects t object] at bare
  cases bare

/-- Numbers that fall along links outside of a class of types leave no cycle there. -/
theorem Graph.not_transGen_of_falling {known : TypeId → Prop}
    (falls : ∀ t, ¬ known t → ∀ u ∈ (g.shape t).links, u < t) (t : TypeId) :
    ¬ Relation.TransGen (fun t u => ¬ known t ∧ u ∈ (g.shape t).links) t t := by
  intro cycle
  have descends {u : TypeId}
      (path : Relation.TransGen (fun t u => ¬ known t ∧ u ∈ (g.shape t).links) t u) : u < t := by
    induction path with
    | single step => exact falls t step.1 _ step.2
    | tail _ step ih => exact Nat.lt_trans (falls _ step.1 _ step.2) ih
  exact Nat.lt_irrefl t (descends cycle)

end RouteContract.Shape
