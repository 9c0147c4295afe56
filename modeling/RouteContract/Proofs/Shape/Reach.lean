import Mathlib.Logic.Relation
import RouteContract.Proofs.Shape.Site

/-!
# Types that a type is made of

The types that compilation meets below a type are its parts, their parts, and so on (`Reaches`). A
condition on a type that is to be compiled is a condition on those, wherever they stand in the
graph.
-/

set_option autoImplicit false

namespace RouteContract.Shape

open RouteContract

/-- The types that a type is made of. The type of an ignored property is none of them, and neither
is that of a property whose annotations are its schema. -/
def Graph.parts (g : Graph) (t : TypeId) : List TypeId :=
  match g.shape t with
  | .array element => [element]
  | .tuple elements => elements
  | .object properties index _ =>
      ((participating properties).filter fun p => !p.isSelfTyped).map (·.type) ++ index.toList
  | .union members => members
  | .intersection members => members
  | _ => []

/-- A type reaches the types that it is made of, at any depth. -/
def Graph.Reaches (g : Graph) : TypeId → TypeId → Prop :=
  Relation.ReflTransGen fun t u => u ∈ g.parts t

variable {g : Graph} {root : TypeId}

theorem Graph.Reaches.part {t u : TypeId} (h : g.Reaches root t) (part : u ∈ g.parts t) :
    g.Reaches root u :=
  Relation.ReflTransGen.tail h part

theorem mem_parts_of_property {t : TypeId} {properties : List Property} {index : Option TypeId}
    {name : String} {p : Property} (shape : g.shape t = .object properties index name)
    (declared : p ∈ participating properties) (typed : p.isSelfTyped = false) :
    p.type ∈ g.parts t := by
  rw [Graph.parts, shape]
  refine List.mem_append_left _ (List.mem_map.2 ⟨p, List.mem_filter.2 ⟨declared, ?_⟩, rfl⟩)
  rw [typed]
  rfl

theorem mem_parts_of_index {t u : TypeId} {properties : List Property} {name : String}
    (shape : g.shape t = .object properties (some u) name) : u ∈ g.parts t := by
  rw [Graph.parts, shape]
  exact List.mem_append_right _ (List.mem_singleton_self u)

theorem Prevails.mem {properties : List Property} {p : Property} (h : Prevails properties p) :
    p ∈ participating properties := by
  obtain ⟨i, found, -⟩ := h
  exact List.mem_of_getElem? found

/-- Only types that the root is made of are compiled. -/
theorem Site.reaches {frames : List Frame} {way : Way} {notes : Table Json} {t : TypeId}
    (site : Site g root frames way notes t) : g.Reaches root t := by
  induction site with
  | root => exact .refl
  | items _ shape ih =>
      exact ih.part (by rw [Graph.parts, shape]; exact List.mem_singleton_self _)
  | item _ shape found ih =>
      exact ih.part (by rw [Graph.parts, shape]; exact List.mem_of_getElem? found)
  | property _ shape _ prevails typed ih =>
      exact ih.part (mem_parts_of_property shape prevails.mem typed)
  | additional _ shape _ ih => exact ih.part (mem_parts_of_index shape)
  | branch _ shape _ found ih =>
      have member := (List.mem_filter.1 (List.mem_of_getElem? found)).1
      exact ih.part (by rw [Graph.parts, shape]; exact member)

end RouteContract.Shape
