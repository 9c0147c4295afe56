import Mathlib
import RouteContract.Data.Identity

/-!
# What a memory by identity keeps

Remarks about a thing are made over whatever stands at its place, and are forgotten only about the
thing itself. So what happens to one thing leaves the things at other places (`Touches`), and
forgetting a thing that is gone leaves the one that took its place (`get?_forget_of_ne`).
-/

set_option autoImplicit false

namespace RouteContract.IdentityMemory

variable {α : Type} {m : IdentityMemory α} {who other : Identity} {x : α}

/-- There is at most one remark for each place. -/
def DistinctPlaces (m : IdentityMemory α) : Prop := (m.remarks.map fun r => r.1.place).Nodup

/-- No remark is about a thing. -/
def Lacks (m : IdentityMemory α) (who : Identity) : Prop := ∀ x, (who, x) ∉ m.remarks

/-! ## Reading -/

theorem get?_eq_some_iff :
    m.get? who = some x ↔ m.atPlace? who.place = some (who, x) := by
  rw [get?]
  cases m.atPlace? who.place with
  | none => simp
  | some r =>
      obtain ⟨other, y⟩ := r
      by_cases same : other = who
      · simp [same]
      · simp [same]

theorem mem_of_get? (known : m.get? who = some x) : (who, x) ∈ m.remarks :=
  List.mem_of_find?_eq_some (get?_eq_some_iff.1 known)

theorem get?_of_mem (distinct : m.DistinctPlaces) (listed : (who, x) ∈ m.remarks) :
    m.get? who = some x := by
  rw [get?_eq_some_iff, atPlace?]
  obtain ⟨before, after, split⟩ := List.append_of_mem listed
  rw [DistinctPlaces, split, List.map_append, List.nodup_append] at distinct
  rw [split, List.find?_append, List.find?_eq_none.2, Option.none_or]
  · exact List.find?_cons_of_pos (beq_self_eq_true _)
  · intro r earlier same
    exact distinct.2.2 _ (List.mem_map_of_mem earlier) _ (List.mem_cons_self ..) (beq_iff_eq.1 same)

theorem get?_eq_none_iff (distinct : m.DistinctPlaces) : m.get? who = none ↔ m.Lacks who := by
  constructor
  · intro unknown x listed
    rw [get?_of_mem distinct listed] at unknown
    cases unknown
  · intro lacks
    rw [Option.eq_none_iff_forall_not_mem]
    exact fun x known => lacks x (mem_of_get? known)

/-- What is left when a place is cleared. -/
theorem atPlace?_filter (m : IdentityMemory α) (place other : Nat) :
    atPlace? ⟨m.remarks.filter fun r => r.1.place != place⟩ other =
      if other = place then none else m.atPlace? other := by
  rw [atPlace?, List.find?_filter]
  by_cases same : other = place
  · rw [if_pos same, List.find?_eq_none]
    simp [same]
  · rw [if_neg same, atPlace?]
    congr 1
    funext r
    by_cases here : r.1.place = other
    · simp [here, same]
    · simp [here]

/-! ## Forgetting -/

theorem get?_forget_self (m : IdentityMemory α) (who : Identity) :
    (m.forget who).get? who = none := by
  rw [forget]
  split
  · rw [get?, atPlace?_filter, if_pos rfl]
  · next unknown => exact Option.not_isSome_iff_eq_none.1 unknown

/-- Forgetting a thing leaves what is known about any other, also about one at the same place. -/
theorem get?_forget_of_ne (m : IdentityMemory α) (ne : other ≠ who) :
    (m.forget who).get? other = m.get? other := by
  rw [forget]
  split
  · next known =>
      rw [get?, get?, atPlace?_filter]
      by_cases same : other.place = who.place
      · obtain ⟨x, known⟩ := Option.isSome_iff_exists.1 known
        rw [same, get?_eq_some_iff.1 known, if_pos rfl]
        exact (if_neg ne.symm).symm
      · rw [if_neg same]
  · rfl

theorem mem_forget (listed : (other, x) ∈ (m.forget who).remarks) : (other, x) ∈ m.remarks := by
  rw [forget] at listed
  split at listed
  · exact List.mem_of_mem_filter listed
  · exact listed

/-! ## What concerns one thing only -/

/-- A memory that came from another one by remarks about a thing and by forgetting it. -/
structure Touches (who : Identity) (m m' : IdentityMemory α) : Prop where
  others : ∀ other, other.place ≠ who.place → m'.get? other = m.get? other
  old : ∀ r ∈ m'.remarks, r ∈ m.remarks ∨ r.1 = who
  distinct : m.DistinctPlaces → m'.DistinctPlaces

namespace Touches

variable {m' m'' : IdentityMemory α}

theorem refl (who : Identity) (m : IdentityMemory α) : Touches who m m :=
  ⟨fun _ _ => rfl, fun _ listed => .inl listed, id⟩

theorem trans (first : Touches who m m') (second : Touches who m' m'') : Touches who m m'' where
  others other ne := (second.others other ne).trans (first.others other ne)
  old r listed := (second.old r listed).elim (first.old r) .inr
  distinct := second.distinct ∘ first.distinct

theorem put (m : IdentityMemory α) (who : Identity) (x : α) : Touches who m (m.put who x) where
  others other ne := get?_put_of_place_ne m ne x
  old r listed := by
    rcases List.mem_cons.1 listed with rfl | listed
    · exact .inr rfl
    · exact .inl (List.mem_of_mem_filter listed)
  distinct distinct := by
    rw [DistinctPlaces, IdentityMemory.put, List.map_cons, List.nodup_cons]
    refine ⟨?_, distinct.sublist (List.filter_sublist.map _)⟩
    simp

theorem forget (m : IdentityMemory α) (who : Identity) : Touches who m (m.forget who) where
  others other ne := get?_forget_of_ne m fun same => ne (congrArg Identity.place same)
  old r listed := .inl (mem_forget listed)
  distinct distinct := by
    rw [IdentityMemory.forget]
    split
    · exact distinct.sublist (List.filter_sublist.map _)
    · exact distinct

end Touches

end RouteContract.IdentityMemory
