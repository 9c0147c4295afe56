import RouteContract.Proofs.Json.Reading
import RouteContract.Proofs.Text.Lines

/-!
# JSON texts over several lines

A JSON text may be broken into lines between its tokens. Put together again without the blanks around
its breaks it spells the same value (`read_stripped`): no token has a break in it, and of the blanks
between two tokens it does not matter how many are left. Two words or numbers never come together this
way, since a comma or a bracket stands behind each of them.
-/

set_option autoImplicit false

namespace RouteContract.Json.Reader

open Text

variable {c : Char} {s rest : List Char}

/-! ## Blanks between tokens -/

theorem isBlank_of_isSpace (h : isSpace c = true) : isBlank c = true := by
  simp only [isSpace, Bool.or_eq_true, beq_iff_eq] at h
  rcases h with ((rfl | rfl) | rfl) | rfl <;> decide

theorem skip_cons_of_isSpace (h : isSpace c = true) (s : List Char) : skip (c :: s) = skip s :=
  List.dropWhile_cons_of_pos h

/-- A text whose first character behind its spaces is no blank of another kind. -/
def StartsVisible (s : List Char) : Prop := ∀ c ∈ (skip s).head?, isBlank c = false

theorem StartsVisible.of_skip_eq (h : skip s = c :: rest) (visible : isBlank c = false) :
    StartsVisible s := by
  intro d first
  rw [h] at first
  cases first
  exact visible

theorem StartsVisible.of_cons (h : StartsVisible (c :: s)) (space : isSpace c = true) :
    StartsVisible s := by
  rw [StartsVisible, skip_cons_of_isSpace space] at h
  exact h

theorem dropWhile_isBlank_eq_skip (h : StartsVisible s) : s.dropWhile isBlank = skip s := by
  induction s with
  | nil => rfl
  | cons c s ih =>
      cases space : isSpace c with
      | true =>
          rw [List.dropWhile_cons_of_pos (isBlank_of_isSpace space), skip_cons_of_isSpace space]
          exact ih (h.of_cons space)
      | false =>
          rw [StartsVisible, skip_of_head space] at h
          rw [skip_of_head space, List.dropWhile_cons_of_neg (by rw [h c rfl]; nofun)]

/-- What stands in front of something visible keeps to it. -/
theorem stripped_eq_unbroken_skip (h : StartsVisible s) : stripped s = unbroken (skip s) := by
  rw [stripped_eq_unbroken, dropWhile_isBlank_eq_skip h]

theorem skip_unbroken_skip (h : StartsVisible s) : skip (unbroken (skip s)) = unbroken (skip s) := by
  cases first : skip s with
  | nil => rfl
  | cons c rest =>
      have visible := h c (by rw [first]; rfl)
      have noSpace : isSpace c = false := by
        cases space : isSpace c with
        | false => rfl
        | true => rw [isBlank_of_isSpace space] at visible; cases visible
      rw [unbroken_cons_of_visible visible, skip_of_head noSpace]

/-- **Spaces are skipped before or after a text is put together.** -/
theorem skip_unbroken (h : StartsVisible s) : skip (unbroken s) = unbroken (skip s) := by
  induction s with
  | nil => rfl
  | cons c s ih =>
      cases space : isSpace c with
      | true =>
          have starts := h.of_cons space
          rw [skip_cons_of_isSpace space]
          rcases unbroken_cons_of_blank (isBlank_of_isSpace space) s with same | same | same
          · rw [same]
            exact ih starts
          · rw [same, skip_cons_of_isSpace space]
            exact ih starts
          · rw [same, stripped_eq_unbroken_skip starts]
            exact skip_unbroken_skip starts
      | false =>
          have same : skip (c :: s) = c :: s := skip_of_head space
          have again := skip_unbroken_skip h
          rw [same] at again ⊢
          exact again

theorem skip_unbroken_of_skip_eq (h : skip s = c :: rest) (visible : isBlank c = false) :
    skip (unbroken s) = c :: unbroken rest := by
  rw [skip_unbroken (.of_skip_eq h visible), h, unbroken_cons_of_visible visible]

/-! ## Tokens -/

/-- A text with no other breaks than those that may stand between tokens. -/
def HasPlainBreaks (s : List Char) : Prop := ∀ c ∈ s, isLineBreak c = true → c = '\n' ∨ c = '\r'

theorem HasPlainBreaks.of_suffix (h : HasPlainBreaks s) (tail : rest <:+ s) : HasPlainBreaks rest :=
  fun c listed => h c (tail.subset listed)

theorem IsVisible.unbroken_append {p : List Char} (visible : IsVisible p) (s : List Char) :
    unbroken (p ++ s) = p ++ unbroken s := by
  induction p with
  | nil => rfl
  | cons c p ih =>
      have first := visible c (List.mem_cons_self ..)
      rw [List.cons_append, unbroken_cons_of_visible first,
        ih fun d listed => visible d (List.mem_cons_of_mem _ listed), List.cons_append]

theorem text_unbroken {t : String} (plain : HasPlainBreaks s) (h : text s = .ok (t, rest)) :
    text (unbroken s) = .ok (t, unbroken rest) := by
  obtain ⟨p, rfl, textual, reads⟩ := text_split h
  have whole (c : Char) (listed : c ∈ p) : isLineBreak c = false := by
    cases broken : isLineBreak c with
    | false => rfl
    | true =>
        have low := textual c listed
        rcases plain c (List.mem_append_left _ listed) broken with rfl | rfl
        · exact absurd low (by decide)
        · exact absurd low (by decide)
  rw [unbroken_append whole (by decide)]
  exact reads _

/-- What closes a value: nothing, a comma or a bracket. -/
def IsClosed (s : List Char) : Prop := ∀ c ∈ (skip s).head?, c = ',' ∨ c = ']' ∨ c = '}'

theorem IsClosed.of_skip_eq (h : skip s = c :: rest) (closes : c = ',' ∨ c = ']' ∨ c = '}') :
    IsClosed s := by
  intro d first
  rw [h] at first
  cases first
  exact closes

theorem IsClosed.startsVisible (h : IsClosed s) : StartsVisible s := by
  intro c first
  rcases h c first with rfl | rfl | rfl <;> decide

theorem isBoundary_of_skip (h : IsBoundary (skip s)) : IsBoundary s := by
  intro c first
  cases s with
  | nil => cases first
  | cons d s =>
      cases first
      cases space : isSpace c with
      | false =>
          rw [skip_of_head space] at h
          exact h c rfl
      | true =>
          simp only [isSpace, Bool.or_eq_true, beq_iff_eq] at space
          rcases space with ((rfl | rfl) | rfl) | rfl <;> decide

theorem IsClosed.isBoundary_unbroken (h : IsClosed s) : IsBoundary (unbroken s) := by
  apply isBoundary_of_skip
  rw [skip_unbroken h.startsVisible]
  intro c first
  cases behind : skip s with
  | nil =>
      rw [behind] at first
      cases first
  | cons d more =>
      have closes := h d (by rw [behind]; rfl)
      have visible := h.startsVisible d (by rw [behind]; rfl)
      rw [behind, unbroken_cons_of_visible visible] at first
      cases first
      rcases closes with rfl | rfl | rfl <;> decide

/-! ## Values -/

/-- Everything that is read begins with something visible. -/
theorem Reads.exists_cons {goal : Goal} (h : Reads goal s rest) :
    ∃ c more, s = c :: more ∧ isBlank c = false := by
  induction h with
  | text | lastMember | member => exact ⟨'"', _, rfl, by decide⟩
  | noItems | array => exact ⟨'[', _, rfl, by decide⟩
  | noMembers | object => exact ⟨'\x7b', _, rfl, by decide⟩
  | scalar _ _ _ token =>
      obtain ⟨p, rfl, some, visible, -⟩ := scalar_split token
      obtain ⟨c, more, rfl⟩ := List.exists_cons_of_ne_nil some
      exact ⟨c, _, rfl, visible c (List.mem_cons_self ..)⟩
  | lastItem _ _ ih | item _ _ _ ih => exact ih

theorem Reads.startsVisible {goal : Goal} (h : Reads goal (skip s) rest) : StartsVisible s := by
  obtain ⟨c, more, same, visible⟩ := h.exists_cons
  exact .of_skip_eq same visible

theorem Reads.head?_unbroken {goal : Goal} (h : Reads goal s rest) :
    (unbroken s).head? = s.head? := by
  obtain ⟨c, more, rfl, visible⟩ := h.exists_cons
  rw [unbroken_cons_of_visible visible]
  rfl

/-- A value is to be closed by what follows; a list of items or members closes itself. -/
def Goal.Closed (rest : List Char) : Goal → Prop
  | .value _ => IsClosed rest
  | .items _ | .members _ _ => True

/-- **What is read of a text is read of it when it is put together.** -/
theorem Reads.unbroken {goal : Goal} (h : Reads goal s rest) (plain : HasPlainBreaks s)
    (closed : goal.Closed rest) : Reads goal (unbroken s) (unbroken rest) := by
  induction h with
  | text token =>
      rw [unbroken_cons_of_visible (by decide)]
      exact .text (text_unbroken (plain.of_suffix (List.suffix_cons ..)) token)
  | @scalar s rest v noText noArray noObject token =>
      have reads := Reads.scalar noText noArray noObject token
      have same := reads.head?_unbroken
      obtain ⟨p, rfl, -, visible, again⟩ := scalar_split token
      refine .scalar (same ▸ noText) (same ▸ noArray) (same ▸ noObject) ?_
      rw [visible.unbroken_append]
      exact again _ closed.isBoundary_unbroken
  | noItems closes =>
      rw [unbroken_cons_of_visible (by decide)]
      exact .noItems (skip_unbroken_of_skip_eq closes (by decide))
  | noMembers closes =>
      rw [unbroken_cons_of_visible (by decide)]
      exact .noMembers (skip_unbroken_of_skip_eq closes (by decide))
  | @array s _ _ filled items ih =>
      have same := skip_unbroken items.startsVisible
      rw [unbroken_cons_of_visible (by decide)]
      refine .array ?_ ?_
      · rw [same, items.head?_unbroken]
        exact filled
      · rw [same]
        exact ih (plain.of_suffix ((skip_suffix s).trans (List.suffix_cons ..))) trivial
  | @object s _ _ filled members ih =>
      have same := skip_unbroken members.startsVisible
      rw [unbroken_cons_of_visible (by decide)]
      refine .object ?_ ?_
      · rw [same, members.head?_unbroken]
        exact filled
      · rw [same]
        exact ih (plain.of_suffix ((skip_suffix s).trans (List.suffix_cons ..))) trivial
  | lastItem _ closes ih =>
      exact .lastItem (ih plain (.of_skip_eq closes (.inr (.inl rfl))))
        (skip_unbroken_of_skip_eq closes (by decide))
  | @item s after more _ _ _ first goesOn others ih ihOthers =>
      refine .item (ih plain (.of_skip_eq goesOn (.inl rfl)))
        (skip_unbroken_of_skip_eq goesOn (by decide)) ?_
      rw [skip_unbroken others.startsVisible]
      exact ihOthers (plain.of_suffix
        (((skip_suffix more).trans (suffix_of_skip_eq goesOn)).trans first.suffix.1)) trivial
  | @lastMember s afterName afterColon _ _ _ _ _ named colon value closes ih =>
      have inner := plain.of_suffix (List.suffix_cons '"' s)
      have front := (suffix_of_skip_eq colon).trans (suffix_of_text named)
      rw [unbroken_cons_of_visible (by decide)]
      refine .lastMember (text_unbroken inner named) (skip_unbroken_of_skip_eq colon (by decide)) ?_
        (skip_unbroken_of_skip_eq closes (by decide))
      rw [skip_unbroken value.startsVisible]
      exact ih (inner.of_suffix ((skip_suffix afterColon).trans front))
        (.of_skip_eq closes (.inr (.inr rfl)))
  | @member s afterName afterColon _ more _ _ _ _ v named colon value goesOn others ih ihOthers =>
      have inner := plain.of_suffix (List.suffix_cons '"' s)
      have front := (suffix_of_skip_eq colon).trans (suffix_of_text named)
      have behind := inner.of_suffix ((skip_suffix afterColon).trans front)
      rw [unbroken_cons_of_visible (by decide)]
      refine Reads.member (v := v) (text_unbroken inner named)
        (skip_unbroken_of_skip_eq colon (by decide)) ?_
        (skip_unbroken_of_skip_eq goesOn (by decide)) ?_
      · rw [skip_unbroken value.startsVisible]
        exact ih behind (.of_skip_eq goesOn (.inl rfl))
      · rw [skip_unbroken others.startsVisible]
        exact ihOthers (behind.of_suffix
          (((skip_suffix more).trans (suffix_of_skip_eq goesOn)).trans value.suffix.1)) trivial

/-- **A value is spelled by its text put together from several lines.** -/
theorem read_stripped {v : Json} (plain : HasPlainBreaks s) (h : Json.read s = .ok v) :
    Json.read (stripped s) = .ok v := by
  obtain ⟨rest, reads, blank⟩ := read_eq_ok_iff.1 h
  have starts := reads.startsVisible
  have closed : IsClosed rest := by
    intro c first
    rw [blank] at first
    cases first
  refine read_eq_ok_iff.2 ⟨Text.unbroken rest, ?_, ?_⟩
  · rw [stripped_eq_unbroken_skip starts, skip_unbroken_skip starts]
    exact reads.unbroken (plain.of_suffix (skip_suffix s)) closed
  · rw [skip_unbroken closed.startsVisible, blank]
    rfl

end RouteContract.Json.Reader
