import Mathlib.Data.List.Basic
import RouteContract.Proofs.Data.Table

/-!
# Grouping

Elements that are put one after the other at the end of the list under their name are grouped: the
names stand in the order of first use, and under each name its elements in their order
(`foldl_append_eq_grouped`).
-/

namespace RouteContract.Table

set_option autoImplicit false

variable {α β : Type}

/-- Elements by name: the names in the order of first use, and the values of the elements under each
name in the order of the elements. -/
def grouped (name : β → String) (value : β → α) (xs : List β) : Table (List α) :=
  (xs.map name).eraseDups.map fun key => (key, (xs.filter fun x => name x == key).map value)

/-! ## Names in the order of first use -/

theorem eraseDups_concat (keys : List String) (key : String) :
    (keys ++ [key]).eraseDups = if key ∈ keys then keys.eraseDups else keys.eraseDups ++ [key] := by
  rw [List.eraseDups_append]
  by_cases there : key ∈ keys
  · simp [List.removeAll, there]
  · simp [List.removeAll, there, List.eraseDups_cons]

theorem mem_eraseDups {keys : List String} {key : String} :
    key ∈ keys.eraseDups ↔ key ∈ keys := by
  induction keys using List.reverseRecOn with
  | nil => exact Iff.rfl
  | append_singleton init last ih =>
      rw [eraseDups_concat, List.mem_append, List.mem_singleton]
      split
      · next there =>
          rw [ih]
          exact ⟨.inl, fun h => h.elim id fun same => same ▸ there⟩
      · rw [List.mem_append, ih, List.mem_singleton]

theorem nodup_eraseDups (keys : List String) : keys.eraseDups.Nodup := by
  induction keys using List.reverseRecOn with
  | nil => exact List.nodup_nil
  | append_singleton init last ih =>
      rw [eraseDups_concat]
      split
      · exact ih
      · next new =>
          refine ih.append (List.nodup_singleton last) ?_
          rintro key there same
          rw [List.mem_singleton.1 same] at there
          exact new (mem_eraseDups.1 there)

/-! ## Tables with computed values -/

theorem get?_map_key (keys : List String) (f : String → α) (key : String) :
    get? (keys.map fun k => (k, f k)) key = if key ∈ keys then some (f key) else none := by
  induction keys with
  | nil => rfl
  | cons k rest ih =>
      rw [List.map_cons]
      by_cases same : k = key
      · subst same
        rw [get?_cons_self, if_pos (List.mem_cons_self ..)]
      · rw [get?_cons_of_ne same, ih]
        simp only [List.mem_cons, Ne.symm same, false_or]

theorem put_map_key {keys : List String} (distinct : keys.Nodup) (f : String → α) (key : String)
    (value : α) :
    put (keys.map fun k => (k, f k)) key value =
      (if key ∈ keys then keys else keys ++ [key]).map fun k =>
        (k, if k = key then value else f k) := by
  have others {ks : List String} (new : key ∉ ks) :
      ks.map (fun k => (k, f k)) = ks.map fun k => (k, if k = key then value else f k) := by
    refine List.map_congr_left fun k member => ?_
    rw [if_neg]
    rintro rfl
    exact new member
  induction keys with
  | nil => simp [put]
  | cons k rest ih =>
      rw [List.nodup_cons] at distinct
      rw [List.map_cons, put]
      by_cases same : k = key
      · subst same
        rw [if_pos rfl, if_pos (List.mem_cons_self ..), List.map_cons, if_pos rfl,
          others distinct.1]
      · rw [if_neg same, ih distinct.2]
        by_cases there : key ∈ rest
        · rw [if_pos there, if_pos (List.mem_cons_of_mem _ there), List.map_cons, if_neg same]
        · have new : key ∉ k :: rest := by
            rw [List.mem_cons, not_or]
            exact ⟨Ne.symm same, there⟩
          rw [if_neg there, if_neg new, List.cons_append, List.map_cons, if_neg same]

/-! ## Groups -/

theorem getD_get?_grouped (name : β → String) (value : β → α) (xs : List β) (key : String) :
    (get? (grouped name value xs) key).getD [] =
      (xs.filter fun x => name x == key).map value := by
  rw [grouped, get?_map_key]
  split
  · rfl
  · next absent =>
      rw [mem_eraseDups, List.mem_map, not_exists] at absent
      have none : xs.filter (fun x => name x == key) = [] := by
        rw [List.filter_eq_nil_iff]
        intro x member same
        exact absent x ⟨member, beq_iff_eq.1 same⟩
      rw [none]
      rfl

theorem grouped_concat (name : β → String) (value : β → α) (xs : List β) (x : β) :
    grouped name value (xs ++ [x]) = append (grouped name value xs) (name x) (value x) := by
  rw [append, getD_get?_grouped, grouped, grouped, put_map_key (nodup_eraseDups _), List.map_append,
    List.map_singleton, eraseDups_concat]
  simp only [mem_eraseDups]
  refine List.map_congr_left fun key _ => ?_
  rw [List.filter_append, List.map_append]
  by_cases same : key = name x
  · subst same
    simp
  · simp [same, Ne.symm same]

/-- **Elements that are put at the end of the list under their name are grouped.** -/
theorem foldl_append_eq_grouped (name : β → String) (value : β → α) (xs : List β) :
    xs.foldl (fun t x => append t (name x) (value x)) [] = grouped name value xs := by
  induction xs using List.reverseRecOn with
  | nil => rfl
  | append_singleton init last ih =>
      rw [List.foldl_append, ih, grouped_concat]
      rfl

end RouteContract.Table
