import Mathlib.Data.List.Forall2
import RouteContract.Proofs.Data.Result

/-!
# Going through lists

When every member of a list has a result, the results stand beside the members one by one.
-/

set_option autoImplicit false

namespace RouteContract

variable {ε α β : Type}

/-- The members of a list of results are the results of the members of the list. -/
theorem forall₂_of_mapM_eq_ok {f : α → Except ε β} {xs : List α} {ys : List β}
    (h : xs.mapM f = .ok ys) : List.Forall₂ (fun x y => f x = .ok y) xs ys := by
  induction xs generalizing ys with
  | nil =>
      rw [List.mapM_nil] at h
      cases h
      exact .nil
  | cons x rest ih =>
      rw [List.mapM_cons] at h
      obtain ⟨first, found, h⟩ := bind_eq_ok_iff.1 h
      obtain ⟨others, more, h⟩ := bind_eq_ok_iff.1 h
      cases h
      exact .cons found (ih more)

theorem forall₂_of_mapM_eq_some {f : α → Option β} {xs : List α} {ys : List β}
    (h : xs.mapM f = some ys) : List.Forall₂ (fun x y => f x = some y) xs ys := by
  induction xs generalizing ys with
  | nil =>
      rw [List.mapM_nil] at h
      cases h
      exact .nil
  | cons x rest ih =>
      rw [List.mapM_cons] at h
      obtain ⟨first, found, h⟩ := Option.bind_eq_some_iff.1 h
      obtain ⟨others, more, h⟩ := Option.bind_eq_some_iff.1 h
      cases h
      exact .cons found (ih more)

/-! ## Lists whose members are related one by one -/

theorem map_eq_map_of_forall₂ {γ : Type} {R : α → β → Prop} {f : α → γ} {g : β → γ} {xs : List α}
    {ys : List β} (h : List.Forall₂ R xs ys) (same : ∀ x y, R x y → g y = f x) :
    ys.map g = xs.map f := by
  induction h with
  | nil => rfl
  | cons first _ ih => rw [List.map_cons, List.map_cons, same _ _ first, ih]

theorem exists_mem_of_forall₂ {R : α → β → Prop} {xs : List α} {ys : List β}
    (h : List.Forall₂ R xs ys) {y : β} (listed : y ∈ ys) : ∃ x ∈ xs, R x y := by
  induction h with
  | nil => cases listed
  | cons first _ ih =>
      rcases List.mem_cons.1 listed with rfl | listed
      · exact ⟨_, List.mem_cons_self .., first⟩
      · obtain ⟨x, member, found⟩ := ih listed
        exact ⟨x, List.mem_cons_of_mem _ member, found⟩

end RouteContract
