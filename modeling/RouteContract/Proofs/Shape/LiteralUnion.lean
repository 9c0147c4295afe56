import RouteContract.Proofs.Json.Equality
import RouteContract.Proofs.Shape.Expansion

/-!
# Unions of literals

A union of texts or of numbers becomes one enumeration of its values in ascending order. Ordering
the values makes up none (`mem_of_mem_orderedValues`) and takes none away but for those that equal
another one, so the enumeration admits what the values admit (`orderedValues_homogeneous`).
-/

set_option autoImplicit false

namespace RouteContract.Shape

open RouteContract

/-! ## Values of a kind -/

/-- Whether a value is of a scalar kind. A boolean is no number. -/
def ScalarKind.admits : ScalarKind → Json → Bool
  | .number, .int _ => true
  | .number, .float _ => true
  | .string, .str _ => true
  | .boolean, .bool _ => true
  | _, _ => false

theorem admits_string_iff {v : Json} : ScalarKind.string.admits v = true ↔ ∃ s, v = .str s := by
  cases v <;> simp [ScalarKind.admits]

theorem admits_boolean_iff {v : Json} : ScalarKind.boolean.admits v = true ↔ ∃ b, v = .bool b := by
  cases v <;> simp [ScalarKind.admits]

theorem admits_number_iff {v : Json} : ScalarKind.number.admits v = true ↔ v.IsNumber := by
  cases v <;> simp [ScalarKind.admits, Json.IsNumber, Json.quantity?]

/-- What equals a value of a kind is of that kind. -/
theorem ScalarKind.admits_of_equal {kind : ScalarKind} {value v : Json}
    (h : kind.admits value = true) (same : Json.equal value v = true) : kind.admits v = true := by
  cases kind with
  | string =>
      obtain ⟨s, rfl⟩ := admits_string_iff.1 h
      exact admits_string_iff.2 ⟨s, Json.equal_str_iff.1 same⟩
  | number => exact admits_number_iff.2 (Json.isNumber_of_equal (admits_number_iff.1 h) same)
  | boolean =>
      obtain ⟨b, rfl⟩ := admits_boolean_iff.1 h
      exact admits_boolean_iff.2 ⟨b, Json.equal_bool_iff.1 same⟩

/-! ## Putting values into order -/

variable {before : Json → Json → Bool} {v w : Json}

theorem mem_of_mem_insertOrdered {ws : List Json} (h : w ∈ insertOrdered before v ws) :
    w = v ∨ w ∈ ws := by
  induction ws with
  | nil => exact .inl (List.mem_singleton.1 h)
  | cons u rest ih =>
      rw [insertOrdered] at h
      split at h
      · exact .inr h
      · split at h
        · exact List.mem_cons.1 h
        · rcases List.mem_cons.1 h with rfl | h
          · exact .inr (List.mem_cons_self ..)
          · exact (ih h).imp_right (List.mem_cons_of_mem _)

theorem mem_of_mem_foldl_insertOrdered {values done : List Json}
    (h : w ∈ values.foldl (fun done v => insertOrdered before v done) done) :
    w ∈ done ∨ w ∈ values := by
  induction values generalizing done with
  | nil => exact .inl h
  | cons v rest ih =>
      rcases ih h with inserted | later
      · rcases mem_of_mem_insertOrdered inserted with rfl | earlier
        · exact .inr (List.mem_cons_self ..)
        · exact .inl earlier
      · exact .inr (List.mem_cons_of_mem _ later)

theorem mem_insertOrdered_of_mem {ws : List Json} (h : w ∈ ws) : w ∈ insertOrdered before v ws := by
  induction ws with
  | nil => exact absurd h List.not_mem_nil
  | cons u rest ih =>
      rw [insertOrdered]
      split
      · exact h
      · split
        · exact List.mem_cons_of_mem _ h
        · rcases List.mem_cons.1 h with rfl | later
          · exact List.mem_cons_self ..
          · exact List.mem_cons_of_mem _ (ih later)

/-- The value that is inserted stands in the list, or one that it equals does. -/
theorem exists_mem_insertOrdered (before : Json → Json → Bool) (v : Json) (ws : List Json) :
    ∃ w ∈ insertOrdered before v ws, w = v ∨ w ∈ ws ∧ Json.numericallyEqual v w = true := by
  induction ws with
  | nil => exact ⟨v, List.mem_singleton_self v, .inl rfl⟩
  | cons u rest ih =>
      rw [insertOrdered]
      split
      · next same => exact ⟨u, List.mem_cons_self .., .inr ⟨List.mem_cons_self .., same⟩⟩
      · split
        · exact ⟨v, List.mem_cons_self .., .inl rfl⟩
        · obtain ⟨w, member, found⟩ := ih
          exact ⟨w, List.mem_cons_of_mem _ member,
            found.imp_right fun h => ⟨List.mem_cons_of_mem _ h.1, h.2⟩⟩

/-- Ordering values takes none away from a class of values of which equal ones mean the same. -/
theorem exists_mem_foldl_insertOrdered (means : Json → Prop) {values done : List Json}
    (respects : ∀ v ∈ values, ∀ w ∈ done ++ values, Json.numericallyEqual v w = true →
      means v → means w)
    (h : ∃ v ∈ done ++ values, means v) :
    ∃ w ∈ values.foldl (fun done v => insertOrdered before v done) done, means w := by
  induction values generalizing done with
  | nil => simpa using h
  | cons v rest ih =>
      refine ih (fun u hu w hw => respects u (List.mem_cons_of_mem _ hu) w ?_) ?_
      · rcases List.mem_append.1 hw with inserted | later
        · rcases mem_of_mem_insertOrdered inserted with rfl | earlier
          · exact List.mem_append_right _ (List.mem_cons_self ..)
          · exact List.mem_append_left _ earlier
        · exact List.mem_append_right _ (List.mem_cons_of_mem _ later)
      · obtain ⟨u, member, meaning⟩ := h
        rcases List.mem_append.1 member with earlier | later
        · exact ⟨u, List.mem_append_left _ (mem_insertOrdered_of_mem earlier), meaning⟩
        · rcases List.mem_cons.1 later with rfl | later
          · obtain ⟨w, inserted, rfl | ⟨earlier, same⟩⟩ :=
              exists_mem_insertOrdered before u done
            · exact ⟨w, List.mem_append_left _ inserted, meaning⟩
            · exact ⟨w, List.mem_append_left _ inserted, respects u (List.mem_cons_self ..) w
                (List.mem_append_left _ earlier) same meaning⟩
          · exact ⟨u, List.mem_append_right _ later, meaning⟩

/-- An ordered value is one of the values that were put into order. -/
theorem mem_of_mem_orderedValues {values ordered : List Json}
    (h : orderedValues values = .ok ordered) (member : w ∈ ordered) : w ∈ values := by
  unfold orderedValues at h
  split at h
  · cases h
  · split at h
    · cases h
      exact (mem_of_mem_foldl_insertOrdered member).resolve_left List.not_mem_nil
    · split at h
      · cases h
        exact (mem_of_mem_foldl_insertOrdered member).resolve_left List.not_mem_nil
      · split at h
        · split at h
          · cases h
            rw [List.mem_singleton.1 member]
            exact List.mem_cons_self ..
          · cases h
        · cases h
          exact member

/-- Ordered values are not made of others. -/
theorem isAtom_of_mem_orderedValues {values ordered : List Json}
    (h : orderedValues values = .ok ordered) (member : w ∈ ordered) : isAtom w = true := by
  have among := mem_of_mem_orderedValues h member
  unfold orderedValues at h
  split at h
  · cases h
  · next atoms =>
      simp only [Bool.not_eq_true', Bool.not_eq_false, List.all_eq_true] at atoms
      exact atoms w among

/-- Values that are all texts, or all numbers. -/
def Homogeneous (values : List Json) : Prop :=
  (∀ v ∈ values, ScalarKind.string.admits v = true) ∨
    ∀ v ∈ values, ScalarKind.number.admits v = true

theorem Homogeneous.isAtom {values : List Json} (h : Homogeneous values) :
    values.all isAtom = true := by
  refine List.all_eq_true.2 fun v member => ?_
  rcases h with texts | numbers
  · obtain ⟨s, rfl⟩ := admits_string_iff.1 (texts v member)
    rfl
  · have number := numbers v member
    cases v <;> simp_all [ScalarKind.admits, Shape.isAtom]

/-- Numerically equal values of one kind equal the same values. -/
theorem Homogeneous.equal_congr {values : List Json} (h : Homogeneous values) {v w : Json}
    (hv : v ∈ values) (hw : w ∈ values) (same : Json.numericallyEqual v w = true) (x : Json) :
    Json.equal v x = Json.equal w x := by
  rcases h with texts | numbers
  · obtain ⟨s, rfl⟩ := admits_string_iff.1 (texts v hv)
    obtain ⟨s', rfl⟩ := admits_string_iff.1 (texts w hw)
    rw [Json.eq_of_numericallyEqual_str same]
  · exact Json.equal_congr_of_numericallyEqual (admits_number_iff.1 (numbers v hv))
      (admits_number_iff.1 (numbers w hw)) same x

/-- The order of the literal values of a kind. -/
def ScalarKind.precedes : ScalarKind → Json → Json → Bool
  | .string => textBefore
  | .number | .boolean => numberBefore

/-- Texts are put into their order, and numbers into theirs. -/
theorem orderedValues_eq_fold {values : List Json} {kind : ScalarKind}
    (scalar : kind = .string ∨ kind = .number) (admitted : ∀ v ∈ values, kind.admits v = true) :
    orderedValues values =
      .ok (values.foldl (fun done v => insertOrdered kind.precedes v done) []) := by
  have homogeneous : Homogeneous values := by
    rcases scalar with rfl | rfl
    · exact .inl admitted
    · exact .inr admitted
  unfold orderedValues
  rw [if_neg (by simp [homogeneous.isAtom])]
  rcases scalar with rfl | rfl
  · rw [if_pos]
    · rfl
    · refine List.all_eq_true.2 fun v member => ?_
      obtain ⟨s, rfl⟩ := admits_string_iff.1 (admitted v member)
      rfl
  · cases values with
    | nil => rfl
    | cons v rest =>
        have number (w : Json) (member : w ∈ v :: rest) : w.IsNumber :=
          admits_number_iff.1 (admitted w member)
        have someNumber : ¬ ((v :: rest).all fun w => w.text?.isSome) = true := by
          intro texts
          have text := List.all_eq_true.1 texts v (List.mem_cons_self ..)
          have isNumber := number v (List.mem_cons_self ..)
          cases v <;> simp_all [Json.text?, Json.IsNumber, Json.quantity?]
        rw [if_neg someNumber, if_pos]
        · rfl
        · refine List.all_eq_true.2 fun w member => ?_
          rw [Json.count?_of_isNumber (number w member)]
          exact number w member

theorem Homogeneous.exists_fold {values : List Json} (h : Homogeneous values) :
    ∃ before, orderedValues values =
      .ok (values.foldl (fun done v => insertOrdered before v done) []) := by
  rcases h with texts | numbers
  · exact ⟨_, orderedValues_eq_fold (.inl rfl) texts⟩
  · exact ⟨_, orderedValues_eq_fold (.inr rfl) numbers⟩

/-- **Texts, and numbers, can be put into order**, and then admit what they admitted before. -/
theorem orderedValues_homogeneous {values : List Json} (h : Homogeneous values) :
    ∃ ordered, orderedValues values = .ok ordered ∧
      ∀ x, (∃ w ∈ ordered, Json.equal w x = true) ↔ ∃ v ∈ values, Json.equal v x = true := by
  obtain ⟨before, ordered⟩ := h.exists_fold
  refine ⟨_, ordered, fun x => ⟨?_, ?_⟩⟩
  · rintro ⟨w, member, same⟩
    exact ⟨w, mem_of_mem_orderedValues ordered member, same⟩
  · intro found
    refine exists_mem_foldl_insertOrdered (fun v => Json.equal v x = true) ?_
      (by simpa using found)
    intro v hv w hw same admitted
    rw [List.nil_append] at hw
    rwa [← h.equal_congr hv hw same x]

/-! ## Collapsed unions -/

section Collapsed

variable {g : Graph} {members : List TypeId} {kind : ScalarKind}

theorem isLiteral_iff {t : TypeId} :
    g.isLiteral kind t = true ↔ ∃ value, g.shape t = .literal kind value := by
  rw [Graph.isLiteral]
  cases g.shape t with
  | literal kind' value => simp
  | scalar | array | tuple | object | union | intersection | enumeration | null | any
  | undescribed | bare => simp

theorem literalValue_eq {t : TypeId} {value : Json} (shape : g.shape t = .literal kind value) :
    g.literalValue t = value := by
  rw [Graph.literalValue, shape]

/-- A union that becomes one enumeration is made of literals of one kind, and that kind has an
order. -/
theorem collapsed?_eq_some (h : g.collapsed? members = some kind) :
    (kind = .string ∨ kind = .number) ∧ members ≠ [] ∧
      ∀ m ∈ members, g.isLiteral kind m = true := by
  rw [Graph.collapsed?] at h
  split at h
  · next texts =>
      cases h
      simp only [Bool.and_eq_true, Bool.not_eq_true', List.all_eq_true, List.isEmpty_eq_false_iff]
        at texts
      exact ⟨.inl rfl, texts⟩
  · split at h
    · next numbers =>
        cases h
        simp only [Bool.and_eq_true, Bool.not_eq_true', List.all_eq_true,
          List.isEmpty_eq_false_iff] at numbers
        exact ⟨.inr rfl, numbers⟩
    · cases h

/-- A literal type has a value of the kind that it is declared with. -/
def Graph.FitsKind (g : Graph) (t : TypeId) : Prop :=
  ∀ kind value, g.shape t = .literal kind value → kind.admits value = true

instance (t : TypeId) : Decidable (g.FitsKind t) :=
  match shape : g.shape t with
  | .literal kind value =>
      decidable_of_iff (kind.admits value = true) ⟨fun admitted kind' value' shape' => by
        rw [shape, TypeShape.literal.injEq] at shape'
        exact shape'.1 ▸ shape'.2 ▸ admitted, fun fits => fits kind value shape⟩
  | .scalar _ | .array _ | .tuple _ | .object _ _ _ | .union _ | .intersection _
  | .enumeration _ _ | .null | .any | .undescribed _ | .bare =>
      .isTrue fun kind value shape' => by rw [shape] at shape'; cases shape'

theorem Graph.FitsKind.admits_literalValue {t : TypeId} (fits : g.FitsKind t)
    (literal : g.isLiteral kind t = true) : kind.admits (g.literalValue t) = true := by
  obtain ⟨value, shape⟩ := isLiteral_iff.1 literal
  rw [literalValue_eq shape]
  exact fits kind value shape

/-- The values of a collapsed union are all of one kind. -/
theorem admits_collapsed (fits : ∀ m ∈ members, g.FitsKind m)
    (collapsed : g.collapsed? members = some kind) :
    ∀ v ∈ members.map g.literalValue, kind.admits v = true := by
  intro v listed
  obtain ⟨m, member, rfl⟩ := List.mem_map.1 listed
  exact (fits m member).admits_literalValue ((collapsed?_eq_some collapsed).2.2 m member)

theorem homogeneous_of_collapsed (fits : ∀ m ∈ members, g.FitsKind m)
    (collapsed : g.collapsed? members = some kind) : Homogeneous (members.map g.literalValue) := by
  have admitted := admits_collapsed fits collapsed
  rcases (collapsed?_eq_some collapsed).1 with rfl | rfl
  · exact .inl admitted
  · exact .inr admitted

end Collapsed

end RouteContract.Shape
