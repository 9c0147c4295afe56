import Mathlib.Algebra.Order.Ring.Unbundled.Rat
import Mathlib.Data.Char
import Mathlib.Data.List.Lex
import Mathlib.Data.List.Sort
import Mathlib.Order.WithBot
import RouteContract.Proofs.Shape.LiteralUnion

/-!
# Literal values in order

The enumeration that a union of texts or of numbers becomes has its values in strictly ascending
order (`orderedValues_ascending`). Such a list is determined by its values, so the enumeration does
not depend on how often and in which order the literals are given (`orderedValues_canonical`). Both
follow from keys: texts are ordered by their characters and numbers by their places on the line,
infinities included. The float that is not a number has no place; it does not even equal itself.
-/

set_option autoImplicit false

/-! ## Places -/

namespace RouteContract.Number.Quantity

/-- The place of a quantity on the line of numbers. -/
def place : Quantity → WithBot (WithTop ℚ)
  | .finite value => ((value : WithTop ℚ) : WithBot (WithTop ℚ))
  | .infinite true => ⊥
  | .infinite false => ⊤
  | .undefined => ⊤

theorem less_iff {p q : Quantity} (hp : p ≠ .undefined) (hq : q ≠ .undefined) :
    p.less q = true ↔ p.place < q.place := by
  cases p with
  | undefined => exact absurd rfl hp
  | finite a =>
      cases q with
      | undefined => exact absurd rfl hq
      | finite b => simp [less, place]
      | infinite negative =>
          have below : ((a : WithTop ℚ) : WithBot (WithTop ℚ)) < ⊤ :=
            WithBot.coe_lt_coe.2 (WithTop.coe_lt_top a)
          cases negative <;> simp [less, place, below]
  | infinite negative =>
      cases q with
      | undefined => exact absurd rfl hq
      | finite b => cases negative <;> simp [less, place]
      | infinite negative' => cases negative <;> cases negative' <;> simp [less, place]

theorem equal_iff {p q : Quantity} (hp : p ≠ .undefined) (hq : q ≠ .undefined) :
    p.equal q = true ↔ p.place = q.place := by
  cases p with
  | undefined => exact absurd rfl hp
  | finite a =>
      cases q with
      | undefined => exact absurd rfl hq
      | finite b => simp [equal, place]
      | infinite negative => cases negative <;> simp [equal, place]
  | infinite negative =>
      cases q with
      | undefined => exact absurd rfl hq
      | finite b => cases negative <;> simp [equal, place]
      | infinite negative' => cases negative <;> cases negative' <;> simp [equal, place]

end RouteContract.Number.Quantity

namespace RouteContract.Shape

open RouteContract Number

/-! ## Keys -/

/-- The values of a class are ordered by their keys, and have one key when they are equal. -/
structure Keyed {K : Type} [LinearOrder K] (key : Json → K) (before : Json → Json → Bool)
    (known : Json → Prop) : Prop where
  before_iff : ∀ {v w}, known v → known w → (before v w = true ↔ key v < key w)
  equal_iff : ∀ {v w}, known v → known w → (Json.numericallyEqual v w = true ↔ key v = key w)

/-- The values of a kind that equal themselves. All do, but for the float that is not a number: no
list has that one up to equality, and it has no place in an order. -/
def ScalarKind.Orders (kind : ScalarKind) (v : Json) : Prop :=
  kind.admits v = true ∧ Json.numericallyEqual v v = true

instance (kind : ScalarKind) (v : Json) : Decidable (kind.Orders v) :=
  inferInstanceAs (Decidable (_ ∧ _))

theorem keyed_texts :
    Keyed (fun v => (v.text?.getD "").toList) ScalarKind.string.precedes
      ScalarKind.string.Orders where
  before_iff {v w} hv hw := by
    obtain ⟨s, rfl⟩ := admits_string_iff.1 hv.1
    obtain ⟨s', rfl⟩ := admits_string_iff.1 hw.1
    simp only [ScalarKind.precedes, textBefore, decide_eq_true_eq, String.lt_iff]
    rfl
  equal_iff {v w} hv hw := by
    obtain ⟨s, rfl⟩ := admits_string_iff.1 hv.1
    obtain ⟨s', rfl⟩ := admits_string_iff.1 hw.1
    constructor
    · exact fun same => congrArg String.toList (Json.eq_of_numericallyEqual_str same)
    · intro same
      obtain rfl := String.toList_inj.1 same
      exact hv.2

/-- A number that equals itself has a place. -/
theorem exists_count {v : Json} (h : ScalarKind.number.Orders v) :
    ∃ p, v.count? = some p ∧ p ≠ .undefined := by
  have number := admits_number_iff.1 h.1
  obtain ⟨p, hp⟩ := Option.isSome_iff_exists.1 number
  have counted := (Json.count?_of_isNumber number).trans hp
  have self := h.2
  rw [Json.numericallyEqual, Json.equalBy_number number, counted] at self
  refine ⟨p, counted, ?_⟩
  rintro rfl
  cases self

theorem keyed_numbers :
    Keyed (fun v => (v.count?.getD .undefined).place) ScalarKind.number.precedes
      ScalarKind.number.Orders where
  before_iff {v w} hv hw := by
    obtain ⟨p, hp, definite⟩ := exists_count hv
    obtain ⟨q, hq, definite'⟩ := exists_count hw
    simp only [ScalarKind.precedes, numberBefore, hp, hq, Option.getD_some]
    exact Quantity.less_iff definite definite'
  equal_iff {v w} hv hw := by
    obtain ⟨p, hp, definite⟩ := exists_count hv
    obtain ⟨q, hq, definite'⟩ := exists_count hw
    rw [Json.numericallyEqual, Json.equalBy_number (admits_number_iff.1 hv.1), hp, hq]
    exact Quantity.equal_iff definite definite'

/-- Texts have keys, and numbers have. -/
theorem exists_keyed {kind : ScalarKind} (scalar : kind = .string ∨ kind = .number) :
    ∃ (K : Type) (_ : LinearOrder K) (key : Json → K), Keyed key kind.precedes kind.Orders := by
  rcases scalar with rfl | rfl
  · exact ⟨_, _, _, keyed_texts⟩
  · exact ⟨_, _, _, keyed_numbers⟩

/-! ## Putting values into order -/

section Keys

variable {K : Type} [LinearOrder K] {key : Json → K} {before : Json → Json → Bool}
  {known : Json → Prop}

/-- Values with ascending keys. -/
def Ascending (key : Json → K) (values : List Json) : Prop :=
  values.Pairwise fun v w => key v < key w

theorem Keyed.ascending_insertOrdered (keyed : Keyed key before known) {v : Json} (hv : known v)
    {ws : List Json} (hws : ∀ w ∈ ws, known w) (ascending : Ascending key ws) :
    Ascending key (insertOrdered before v ws) := by
  induction ws with
  | nil => exact List.pairwise_singleton _ _
  | cons u rest ih =>
      have hu := hws u (List.mem_cons_self ..)
      obtain ⟨first, later⟩ := List.pairwise_cons.1 ascending
      rw [insertOrdered]
      split
      · exact ascending
      · next differs =>
          split
          · next smaller =>
              have below := (keyed.before_iff hv hu).1 smaller
              refine List.pairwise_cons.2 ⟨fun w member => ?_, ascending⟩
              rcases List.mem_cons.1 member with rfl | member
              · exact below
              · exact below.trans (first w member)
          · next notSmaller =>
              have above : key u < key v := by
                rw [keyed.before_iff hv hu] at notSmaller
                rw [keyed.equal_iff hv hu] at differs
                exact lt_of_le_of_ne (not_lt.1 notSmaller) fun same => differs same.symm
              refine List.pairwise_cons.2 ⟨fun w member => ?_,
                ih (fun w member => hws w (List.mem_cons_of_mem _ member)) later⟩
              rcases mem_of_mem_insertOrdered member with rfl | member
              · exact above
              · exact first w member

theorem Keyed.ascending_foldl (keyed : Keyed key before known) {values done : List Json}
    (hv : ∀ v ∈ values, known v) (hd : ∀ w ∈ done, known w) (ascending : Ascending key done) :
    Ascending key (values.foldl (fun done v => insertOrdered before v done) done) := by
  induction values generalizing done with
  | nil => exact ascending
  | cons v rest ih =>
      have hfirst := hv v (List.mem_cons_self ..)
      refine ih (fun w member => hv w (List.mem_cons_of_mem _ member)) (fun w member => ?_)
        (keyed.ascending_insertOrdered hfirst hd ascending)
      rcases mem_of_mem_insertOrdered member with rfl | member
      · exact hfirst
      · exact hd w member

/-- The keys of values in order are those of the values. -/
theorem Keyed.mem_keys_foldl (keyed : Keyed key before known) {values : List Json}
    (hv : ∀ v ∈ values, known v) (k : K) :
    k ∈ (values.foldl (fun done v => insertOrdered before v done) []).map key ↔
      k ∈ values.map key := by
  simp only [List.mem_map]
  constructor
  · rintro ⟨w, member, rfl⟩
    exact ⟨w, (mem_of_mem_foldl_insertOrdered member).resolve_left List.not_mem_nil, rfl⟩
  · intro found
    refine exists_mem_foldl_insertOrdered (fun v => key v = k) ?_ (by simpa using found)
    intro v member w member' same means
    rw [List.nil_append] at member'
    rw [← means]
    exact ((keyed.equal_iff (hv v member) (hv w member')).1 same).symm

end Keys

/-- Two lists have the same values, up to numerical equality. -/
def SameValues (values values' : List Json) : Prop :=
  (∀ v ∈ values, ∃ w ∈ values', Json.numericallyEqual v w = true) ∧
    ∀ w ∈ values', ∃ v ∈ values, Json.numericallyEqual v w = true

instance (values values' : List Json) : Decidable (SameValues values values') :=
  inferInstanceAs (Decidable (_ ∧ _))

section Kinds

variable {kind : ScalarKind} {values values' ordered ordered' : List Json}

theorem orders_of_mem_orderedValues (orders : ∀ v ∈ values, kind.Orders v)
    (h : orderedValues values = .ok ordered) : ∀ w ∈ ordered, kind.Orders w :=
  fun w member => orders w (mem_of_mem_orderedValues h member)

/-- What the keys of values in order are. -/
theorem Keyed.orderedValues {K : Type} [LinearOrder K] {key : Json → K}
    (keyed : Keyed key kind.precedes kind.Orders) (scalar : kind = .string ∨ kind = .number)
    (orders : ∀ v ∈ values, kind.Orders v) (h : orderedValues values = .ok ordered) :
    Ascending key ordered ∧ ∀ k, k ∈ ordered.map key ↔ k ∈ values.map key := by
  rw [orderedValues_eq_fold scalar fun v member => (orders v member).1, Except.ok.injEq] at h
  rw [← h]
  exact ⟨keyed.ascending_foldl orders (fun w member => absurd member List.not_mem_nil)
    List.Pairwise.nil, keyed.mem_keys_foldl orders⟩

/-- Lists have the same values when those have the same keys. -/
theorem Keyed.sameValues_iff {K : Type} [LinearOrder K] {key : Json → K}
    (keyed : Keyed key kind.precedes kind.Orders) (orders : ∀ v ∈ values, kind.Orders v)
    (orders' : ∀ v ∈ values', kind.Orders v) :
    SameValues values values' ↔ ∀ k, k ∈ values.map key ↔ k ∈ values'.map key := by
  simp only [List.mem_map]
  constructor
  · intro same k
    constructor
    · rintro ⟨v, member, rfl⟩
      obtain ⟨w, member', alike⟩ := same.1 v member
      exact ⟨w, member', ((keyed.equal_iff (orders v member) (orders' w member')).1 alike).symm⟩
    · rintro ⟨w, member', rfl⟩
      obtain ⟨v, member, alike⟩ := same.2 w member'
      exact ⟨v, member, (keyed.equal_iff (orders v member) (orders' w member')).1 alike⟩
  · intro keys
    constructor
    · intro v member
      obtain ⟨w, member', alike⟩ := (keys (key v)).1 ⟨v, member, rfl⟩
      exact ⟨w, member', (keyed.equal_iff (orders v member) (orders' w member')).2 alike.symm⟩
    · intro w member'
      obtain ⟨v, member, alike⟩ := (keys (key w)).2 ⟨w, member', rfl⟩
      exact ⟨v, member, (keyed.equal_iff (orders v member) (orders' w member')).2 alike⟩

/-- **Values in order are strictly ascending**, and are the values that were put into order. -/
theorem orderedValues_ascending (scalar : kind = .string ∨ kind = .number)
    (orders : ∀ v ∈ values, kind.Orders v) (h : orderedValues values = .ok ordered) :
    (ordered.Pairwise fun v w => kind.precedes v w = true) ∧ SameValues values ordered := by
  obtain ⟨K, _, key, keyed⟩ := exists_keyed scalar
  have among := orders_of_mem_orderedValues orders h
  obtain ⟨ascending, keys⟩ := keyed.orderedValues scalar orders h
  exact ⟨ascending.imp_of_mem fun hv hw => (keyed.before_iff (among _ hv) (among _ hw)).2,
    (keyed.sameValues_iff orders among).2 fun k => (keys k).symm⟩

/-- **Values in order are determined by which values there are**, and not by how often and in which
order they were given. -/
theorem orderedValues_canonical (scalar : kind = .string ∨ kind = .number)
    (orders : ∀ v ∈ values, kind.Orders v) (orders' : ∀ v ∈ values', kind.Orders v)
    (same : SameValues values values') (h : orderedValues values = .ok ordered)
    (h' : orderedValues values' = .ok ordered') :
    List.Forall₂ (fun v w => Json.numericallyEqual v w = true) ordered ordered' := by
  obtain ⟨K, _, key, keyed⟩ := exists_keyed scalar
  obtain ⟨ascending, keys⟩ := keyed.orderedValues scalar orders h
  obtain ⟨ascending', keys'⟩ := keyed.orderedValues scalar orders' h'
  -- Strictly ascending lists with the same members are the same list.
  have sameKeys : ordered.map key = ordered'.map key := by
    refine List.Pairwise.eq_of_mem_iff (r := (· < ·)) (List.pairwise_map.2 ascending)
      (List.pairwise_map.2 ascending') fun k => ?_
    rw [keys, keys', (keyed.sameValues_iff orders orders').1 same]
  have paired : List.Forall₂ (fun v w => key v = key w) ordered ordered' := by
    have together : List.Forall₂ (· = ·) (ordered.map key) (ordered'.map key) := by
      rw [sameKeys]
      exact List.forall₂_refl _
    exact List.forall₂_map_right_iff.1 (List.forall₂_map_left_iff.1 together)
  refine List.forall₂_iff_zip.2 ⟨paired.length_eq, fun {v w} together => ?_⟩
  obtain ⟨member, member'⟩ := List.of_mem_zip together
  exact (keyed.equal_iff (orders_of_mem_orderedValues orders h v member)
    (orders_of_mem_orderedValues orders' h' w member')).2
      ((List.forall₂_iff_zip.1 paired).2 together)

end Kinds

end RouteContract.Shape
