import Mathlib
import RouteContract.Proofs.Text.Split
import RouteContract.Route.Template

/-!
# The segments of a template

The texts between the slashes of a template have neither slashes in them nor characters that the
template lacks. Such a text is a parameter when it is a name behind a colon, in braces or in angle
brackets, and a literal segment otherwise (`spells_ofText`).
-/

set_option autoImplicit false

namespace RouteContract.Route

/-! ## Texts between slashes -/

theorem mem_of_mem_trim {c : Char} {s : List Char} (member : c ∈ Text.trim s) : c ∈ s := by
  rw [Text.trim, Text.dropAround, Text.dropRightWhile, List.mem_reverse] at member
  exact List.dropWhile_subset _ (List.mem_reverse.1 (List.dropWhile_subset _ member))

theorem mem_of_mem_collapse {c : Char} {path : List Char} (member : c ∈ collapse path) :
    c ∈ path := by
  induction path using collapse.induct with
  | case1 => exact member
  | case2 d => exact member
  | case3 rest ih =>
      rw [collapse] at member
      exact List.mem_cons_of_mem _ (ih member)
  | case4 d e rest other ih =>
      rw [collapse] at member
      · exact List.mem_cons.2 ((List.mem_cons.1 member).imp_right ih)
      · exact other

theorem mem_of_mem_normalizeChars {path : List Char} {c : Char} (member : c ∈ normalizeChars path) :
    c = '/' ∨ c ∈ path := by
  have closed : ∀ {single : List Char}, c ∈ (if single != ['/'] && single.getLast? == some '/' then
      single.dropLast else single) → c ∈ single := by
    intro single member
    split at member
    · exact List.mem_of_mem_dropLast member
    · exact member
  have rooted := mem_of_mem_collapse (closed member)
  split at rooted
  · exact .inr (mem_of_mem_trim rooted)
  · exact (List.mem_cons.1 rooted).imp_right mem_of_mem_trim

/-! ## Segments of a template -/

/-- What the texts between the slashes of a template stand for. -/
inductive Spells : List Char → Segment → Prop where
  | colon {name : List Char} (proper : isName name = true) : Spells (':' :: name) (.parameter name)
  | braces {name : List Char} (proper : isName name = true) :
      Spells ('{' :: (name ++ ['}'])) (.parameter name)
  | angles {name : List Char} (proper : isName name = true) :
      Spells ('<' :: (name ++ ['>'])) (.parameter name)
  | literal {text : List Char} (other : ∀ name, isName name = true →
      text ≠ ':' :: name ∧ text ≠ '{' :: (name ++ ['}']) ∧ text ≠ '<' :: (name ++ ['>'])) :
      Spells text (.literal text)

/-- The non-empty texts between the slashes of a template. -/
def partsOf (template : String) : List (List Char) :=
  (Text.splitAt '/' (normalizeChars template.toList)).filter fun text => !text.isEmpty

/-- A text that ends in a certain character is closed by it. -/
theorem closed_eq_some_iff {close : Char} {rest name : List Char} :
    (if rest.getLast? == some close then some rest.dropLast else none) = some name ↔
      rest = name ++ [close] := by
  constructor
  · intro closed
    split at closed
    · next last =>
        cases closed
        exact (List.dropLast_append_getLast? close (beq_iff_eq.1 last)).symm
    · cases closed
  · rintro rfl
    simp

theorem parameterName?_eq_some_iff {text name : List Char} (unbroken : '\n' ∉ text) :
    parameterName? text = some name ↔ isName name = true ∧
      (text = ':' :: name ∨ text = '{' :: (name ++ ['}']) ∨ text = '<' :: (name ++ ['>'])) := by
  have whole : dropLineFeed text = text := by
    rw [dropLineFeed, if_neg]
    exact fun last => unbroken (List.mem_of_getLast? (beq_iff_eq.1 last))
  rw [parameterName?, whole]
  rw [Option.filter_eq_some_iff, and_comm]
  refine and_congr_right fun _ => ?_
  split
  · simp
  · rw [closed_eq_some_iff]
    simp
  · rw [closed_eq_some_iff]
    simp
  · next colon braces angles =>
      constructor
      · nofun
      · rintro (rfl | rfl | rfl)
        · exact absurd rfl (colon name)
        · exact absurd rfl (braces _)
        · exact absurd rfl (angles _)

theorem spells_ofText {text : List Char} (unbroken : '\n' ∉ text) :
    Spells text (Segment.ofText text) := by
  rw [Segment.ofText]
  cases found : parameterName? text with
  | some name =>
      obtain ⟨proper, rfl | rfl | rfl⟩ := (parameterName?_eq_some_iff unbroken).1 found
      · exact .colon proper
      · exact .braces proper
      · exact .angles proper
  | none =>
      refine .literal fun name proper => ?_
      have other : ¬ (_ ∨ _ ∨ _) := fun spelled =>
        nomatch found.symm.trans ((parameterName?_eq_some_iff unbroken).2 ⟨proper, spelled⟩)
      exact ⟨fun h => other (.inl h), fun h => other (.inr (.inl h)),
        fun h => other (.inr (.inr h))⟩

/-- A text that may stand between slashes. -/
def IsPart (x : List Char) : Prop := x ≠ [] ∧ '/' ∉ x

theorem isPart_of_mem_partsOf {template : String} {text : List Char}
    (listed : text ∈ partsOf template) : IsPart text := by
  obtain ⟨cut, some⟩ := List.mem_filter.1 listed
  refine ⟨?_, Text.not_mem_of_mem_splitAt cut⟩
  rintro rfl
  cases some

/-- The texts between the slashes have no line breaks if the template has none. -/
theorem unbroken_of_mem_partsOf {template : String} (unbroken : '\n' ∉ template.toList)
    {text : List Char} (listed : text ∈ partsOf template) : '\n' ∉ text := by
  intro member
  have inside := Text.mem_of_mem_splitAt (List.mem_of_mem_filter listed) member
  rcases mem_of_mem_normalizeChars inside with isSlash | there
  · exact absurd isSlash (by decide)
  · exact unbroken there

theorem forall₂_spells {template : String} (unbroken : '\n' ∉ template.toList) :
    List.Forall₂ Spells (partsOf template) (segments template) := by
  rw [segments, ← partsOf, List.forall₂_map_right_iff, List.forall₂_same]
  exact fun text listed => spells_ofText (unbroken_of_mem_partsOf unbroken listed)

theorem isPart_of_mem_segments {template : String} {text : List Char}
    (listed : .literal text ∈ segments template) : IsPart text := by
  rw [segments, ← partsOf, List.mem_map] at listed
  obtain ⟨part, listed, same⟩ := listed
  rw [Segment.ofText] at same
  split at same
  · cases same
  · cases same
    exact isPart_of_mem_partsOf listed

end RouteContract.Route

