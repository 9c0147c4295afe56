import Mathlib.Data.List.Basic
import RouteContract.Text.Blank

/-!
# Texts between separators

A text is cut at each separator, so none of its parts has one, and all their characters are its own.
Two texts with a separator between them are cut one after the other (`splitAt_append_separator`).
-/

set_option autoImplicit false

namespace RouteContract.Text

/-! ## Parts -/

theorem splitAt_ne_nil (separator : Char) (s : List Char) : splitAt separator s ≠ [] := by
  cases s with
  | nil => exact List.cons_ne_nil _ _
  | cons c rest =>
      rw [splitAt_cons]
      split
      · exact List.cons_ne_nil _ _
      · split
        · exact List.cons_ne_nil _ _
        · exact List.cons_ne_nil _ _

theorem not_mem_of_mem_splitAt {separator : Char} {s part : List Char}
    (listed : part ∈ splitAt separator s) : separator ∉ part := by
  induction s generalizing part with
  | nil =>
      rw [List.mem_singleton.1 listed]
      exact List.not_mem_nil
  | cons c rest ih =>
      rw [splitAt_cons] at listed
      split at listed
      · rcases List.mem_cons.1 listed with rfl | listed
        · exact List.not_mem_nil
        · exact ih listed
      · next ne =>
          split at listed
          · rw [List.mem_singleton.1 listed, List.mem_singleton]
            exact fun same => ne same.symm
          · next part' more cut =>
              rw [cut] at ih
              rcases List.mem_cons.1 listed with rfl | listed
              · rw [List.mem_cons, not_or]
                exact ⟨fun same => ne same.symm, ih (List.mem_cons_self ..)⟩
              · exact ih (List.mem_cons_of_mem _ listed)

theorem mem_of_mem_splitAt {separator c : Char} {s part : List Char}
    (listed : part ∈ splitAt separator s) (member : c ∈ part) : c ∈ s := by
  induction s generalizing part with
  | nil =>
      rw [List.mem_singleton.1 listed] at member
      exact member
  | cons d rest ih =>
      rw [splitAt_cons] at listed
      split at listed
      · rcases List.mem_cons.1 listed with rfl | listed
        · cases member
        · exact List.mem_cons_of_mem _ (ih listed member)
      · split at listed
        · rw [List.mem_singleton.1 listed, List.mem_singleton] at member
          exact List.mem_cons.2 (.inl member)
        · next part' more cut =>
            rw [cut] at ih
            rcases List.mem_cons.1 listed with rfl | listed
            · exact List.mem_cons.2
                ((List.mem_cons.1 member).imp_right (ih (List.mem_cons_self ..)))
            · exact List.mem_cons_of_mem _ (ih (List.mem_cons_of_mem _ listed) member)

/-! ## Texts that follow each other -/

theorem splitAt_append {separator : Char} {front rest part : List Char} {more : List (List Char)}
    (absent : separator ∉ front) (h : splitAt separator rest = part :: more) :
    splitAt separator (front ++ rest) = (front ++ part) :: more := by
  induction front with
  | nil => exact h
  | cons c tail ih =>
      have ne : c ≠ separator := fun same => absent (same ▸ List.mem_cons_self ..)
      rw [List.cons_append, splitAt_cons, if_neg ne,
        ih fun member => absent (List.mem_cons_of_mem _ member)]
      rfl

theorem splitAt_append_separator (separator : Char) (front rest : List Char) :
    splitAt separator (front ++ separator :: rest) =
      splitAt separator front ++ splitAt separator rest := by
  induction front with
  | nil =>
      rw [List.nil_append, splitAt_cons, if_pos rfl]
      rfl
  | cons c tail ih =>
      rw [List.cons_append, splitAt_cons, splitAt_cons, ih]
      split
      · rfl
      · cases cut : splitAt separator tail with
        | nil => exact absurd cut (splitAt_ne_nil separator tail)
        | cons part more => rfl

theorem splitAt_of_not_mem {separator : Char} {s : List Char} (free : separator ∉ s) :
    splitAt separator s = [s] := by
  induction s with
  | nil => rfl
  | cons c rest ih =>
      rw [List.mem_cons, not_or] at free
      rw [splitAt_cons, if_neg (Ne.symm free.1), ih free.2]

/-- A text that is cut into one part has no separator. -/
theorem eq_of_splitAt_eq_singleton {separator : Char} {s part : List Char}
    (cut : splitAt separator s = [part]) : part = s := by
  by_cases free : separator ∈ s
  · obtain ⟨front, rest, rfl⟩ := List.append_of_mem free
    rw [splitAt_append_separator] at cut
    have both := congrArg List.length cut
    have first := List.length_pos_of_ne_nil (splitAt_ne_nil separator front)
    have second := List.length_pos_of_ne_nil (splitAt_ne_nil separator rest)
    rw [List.length_append, List.length_singleton] at both
    omega
  · rw [splitAt_of_not_mem free] at cut
    exact (List.singleton_inj.1 cut).symm

end RouteContract.Text
