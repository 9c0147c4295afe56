import Mathlib.Algebra.Order.Field.Power
import Mathlib.Algebra.Order.Floor.Semifield
import Mathlib.Data.Int.Log
import Mathlib.Data.Rat.Floor
import Mathlib.Tactic.Positivity
import Mathlib.Tactic.FieldSimp
import Mathlib.Tactic.Linarith
import RouteContract.Number.Binary64

/-!
# Rounding

Rounding works on numerators and denominators, but the magnitude that is nearest to a fraction
depends on its value alone (`nearest?_congr`). A magnitude is nearest to itself
(`nearest?_fraction`), and a fraction that is rounded to a magnitude is neither too large nor, if
the magnitude is positive, too small.
-/

set_option autoImplicit false

namespace RouteContract.Number

variable {num den num' den' : Nat}

/-! ## Scaling -/

theorem scaled_snd_pos (positive : 0 < den) (exponent : Int) : 0 < (scaled num den exponent).2 := by
  rw [scaled]
  split
  · exact Nat.mul_pos positive (Nat.two_pow_pos _)
  · exact positive

/-- A fraction is scaled by a power of two. -/
theorem scaled_value (num den : Nat) (exponent : Int) :
    ((scaled num den exponent).1 : ℚ) / (scaled num den exponent).2 =
      (num : ℚ) / den / (2 : ℚ) ^ exponent := by
  rw [scaled]
  split
  · next nonneg =>
      obtain ⟨k, rfl⟩ := Int.eq_ofNat_of_zero_le nonneg
      simp only [Int.toNat_natCast, Nat.pow_eq, Nat.cast_mul, Nat.cast_pow, Nat.cast_ofNat,
        zpow_natCast]
      rw [div_div]
  · next negative =>
      obtain ⟨k, same⟩ := Int.eq_ofNat_of_zero_le (by omega : 0 ≤ -exponent)
      obtain rfl : exponent = -(k : Int) := by omega
      simp only [neg_neg, Int.toNat_natCast, Nat.pow_eq, Nat.cast_mul, Nat.cast_pow,
        Nat.cast_ofNat, zpow_neg, zpow_natCast]
      rw [div_inv_eq_mul, mul_div_right_comm]

/-! ## Exponents -/

theorem value_pos (hnum : 0 < num) (hden : 0 < den) : (0 : ℚ) < (num : ℚ) / den := by
  have := Nat.cast_pos (α := ℚ).2 hnum
  have := Nat.cast_pos (α := ℚ).2 hden
  positivity

/-- A positive fraction lies within a factor of two of the quotient of two powers. -/
theorem value_bounds (hnum : 0 < num) (hden : 0 < den) :
    (2 : ℚ) ^ ((num.log2 : Int) - den.log2 - 1) ≤ (num : ℚ) / den ∧
      (num : ℚ) / den < (2 : ℚ) ^ ((num.log2 : Int) - den.log2 + 1) := by
  have two : (2 : ℚ) ≠ 0 := two_ne_zero
  have positive : (0 : ℚ) < den := Nat.cast_pos.2 hden
  have numLow : (2 : ℚ) ^ num.log2 ≤ num := by exact_mod_cast Nat.log2_self_le hnum.ne'
  have numHigh : (num : ℚ) < 2 ^ (num.log2 + 1) := by exact_mod_cast Nat.lt_log2_self
  have denLow : (2 : ℚ) ^ den.log2 ≤ den := by exact_mod_cast Nat.log2_self_le hden.ne'
  have denHigh : (den : ℚ) < 2 ^ (den.log2 + 1) := by exact_mod_cast Nat.lt_log2_self
  constructor
  · rw [le_div_iff₀ positive]
    calc (2 : ℚ) ^ ((num.log2 : Int) - den.log2 - 1) * den
        ≤ (2 : ℚ) ^ ((num.log2 : Int) - den.log2 - 1) * 2 ^ (den.log2 + 1) := by gcongr
      _ = 2 ^ num.log2 := by
          rw [← zpow_natCast, ← zpow_add₀ two, ← zpow_natCast]
          congr 1
          push_cast
          ring
      _ ≤ num := numLow
  · rw [div_lt_iff₀ positive]
    calc (num : ℚ) < 2 ^ (num.log2 + 1) := numHigh
      _ = (2 : ℚ) ^ ((num.log2 : Int) - den.log2 + 1) * 2 ^ den.log2 := by
          rw [← zpow_natCast (2 : ℚ) den.log2, ← zpow_add₀ two, ← zpow_natCast]
          congr 1
          push_cast
          ring
      _ ≤ (2 : ℚ) ^ ((num.log2 : Int) - den.log2 + 1) * den := by gcongr

/-- The exponent of a fraction is read off its binary order. -/
theorem exponentOf_eq (hnum : 0 < num) (hden : 0 < den) :
    exponentOf num den = max (Int.log 2 ((num : ℚ) / den) - 52) minExponent := by
  have positive := value_pos hnum hden
  obtain ⟨low, high⟩ := value_bounds hnum hden
  generalize guess : (num.log2 : Int) - den.log2 - 52 = g
  have two : (2 : ℚ) ≠ 0 := two_ne_zero
  have small : (scaled num den g).1 < Nat.pow 2 52 * (scaled num den g).2 ↔
      (num : ℚ) / den < (2 : ℚ) ^ (g + 52) := by
    have hs : (0 : ℚ) < (scaled num den g).2 := Nat.cast_pos.2 (scaled_snd_pos hden g)
    have scale : (0 : ℚ) < (2 : ℚ) ^ g := by positivity
    rw [zpow_add₀ two, ← div_lt_iff₀' scale, ← scaled_value, div_lt_iff₀ hs]
    exact_mod_cast Iff.rfl
  rw [← Nat.cast_ofNat (R := ℚ), Int.lt_zpow_iff_log_lt one_lt_two positive] at high small
  rw [← Nat.cast_ofNat (R := ℚ), Int.zpow_le_iff_le_log one_lt_two positive] at low
  rw [exponentOf, guess]
  simp only [small]
  congr 1
  split <;> omega

/-! ## Quotients -/

/-- A rational number rounded to a natural one, a tie going to the even one. -/
def roundRat (x : ℚ) : Nat :=
  if 2 * (x - ⌊x⌋₊) < 1 then ⌊x⌋₊
  else if 1 < 2 * (x - ⌊x⌋₊) then ⌊x⌋₊ + 1
  else if ⌊x⌋₊ % 2 = 0 then ⌊x⌋₊ else ⌊x⌋₊ + 1

theorem roundDivision_eq (hden : 0 < den) : roundDivision num den = roundRat ((num : ℚ) / den) := by
  have whole : ⌊(num : ℚ) / den⌋₊ = num / den := Nat.floor_div_eq_div num den
  have positive : (0 : ℚ) < den := Nat.cast_pos.2 hden
  have rest : (num : ℚ) / den - (num / den : ℕ) = (num % den : ℕ) / den := by
    have division := congrArg (Nat.cast (R := ℚ)) (Nat.div_add_mod num den)
    push_cast at division
    rw [eq_div_iff positive.ne', sub_mul, div_mul_cancel₀ _ positive.ne']
    linarith
  have below : 2 * (((num % den : ℕ) : ℚ) / den) < 1 ↔ 2 * (num % den) < den := by
    rw [← mul_div_assoc, div_lt_one positive]
    exact_mod_cast Iff.rfl
  have above : 1 < 2 * (((num % den : ℕ) : ℚ) / den) ↔ den < 2 * (num % den) := by
    rw [← mul_div_assoc, one_lt_div positive]
    exact_mod_cast Iff.rfl
  simp only [roundDivision, roundRat, whole, rest, below, above]

theorem roundRat_natCast (n : Nat) : roundRat n = n := by
  rw [roundRat, Nat.floor_natCast, sub_self, mul_zero, if_pos one_pos]

/-- What is rounded up to something is at least one half. -/
theorem half_le_of_roundRat_ne_zero {x : ℚ} (h : roundRat x ≠ 0) : 1 / 2 ≤ x := by
  by_contra small
  rw [not_le] at small
  refine h ?_
  have floor : ⌊x⌋₊ = 0 := Nat.floor_eq_zero.2 (small.trans (by norm_num))
  rw [roundRat, floor, if_pos]
  push_cast
  linarith

/-! ## The nearest magnitude -/

/-- The exponent of the magnitude nearest to a positive number, before it is rounded. -/
def orderOf (x : ℚ) : Int := max (Int.log 2 x - 52) minExponent

/-- A rounded mantissa as a magnitude; one that has become too long is halved. -/
def ofRounded (mantissa : Nat) (exponent : Int) : Option Magnitude :=
  let (m, e) := if mantissa = Nat.pow 2 53 then (Nat.pow 2 52, exponent + 1)
    else (mantissa, exponent)
  if h : IsCanonical m e then some ⟨m, e, h⟩ else none

theorem nearest?_eq (hnum : 0 < num) (hden : 0 < den) :
    Magnitude.nearest? num den =
      ofRounded (roundRat ((num : ℚ) / den / 2 ^ orderOf ((num : ℚ) / den)))
        (orderOf ((num : ℚ) / den)) := by
  rw [Magnitude.nearest?, if_neg hnum.ne', exponentOf_eq hnum hden]
  simp only [roundDivision_eq (scaled_snd_pos hden _), scaled_value]
  rfl

/-- **The nearest magnitude depends on the value of a fraction alone.** -/
theorem nearest?_congr (hden : 0 < den) (hden' : 0 < den')
    (same : (num : ℚ) / den = (num' : ℚ) / den') :
    Magnitude.nearest? num den = Magnitude.nearest? num' den' := by
  have positive : (0 : ℚ) < den := Nat.cast_pos.2 hden
  have positive' : (0 : ℚ) < den' := Nat.cast_pos.2 hden'
  rcases Nat.eq_zero_or_pos num with rfl | hnum
  · have nothing : num' = 0 := by
      rw [Nat.cast_zero, zero_div, eq_comm, div_eq_zero_iff] at same
      exact_mod_cast same.resolve_right positive'.ne'
    rw [nothing, Magnitude.nearest?, Magnitude.nearest?, if_pos rfl, if_pos rfl]
  · have hnum' : 0 < num' := by
      refine Nat.pos_of_ne_zero fun nothing => ?_
      rw [nothing, Nat.cast_zero, zero_div] at same
      exact (value_pos hnum hden).ne' same
    rw [nearest?_eq hnum hden, nearest?_eq hnum' hden', same]

theorem ofRounded_eq_some {mantissa : Nat} {exponent : Int} {m : Magnitude}
    (h : ofRounded mantissa exponent = some m) :
    exponent ≤ m.exponent ∧ (m.mantissa ≠ 0 → mantissa ≠ 0) := by
  simp only [ofRounded] at h
  split at h
  · next full =>
      split at h
      · cases h
        exact ⟨by simp, fun _ => by rw [full]; decide⟩
      · exact nomatch h
  · split at h
    · cases h
      exact ⟨le_refl _, id⟩
    · exact nomatch h

/-- What is rounded to a magnitude is smaller than every number beyond the magnitudes. -/
theorem value_lt_of_nearest? (hden : 0 < den) {m : Magnitude}
    (h : Magnitude.nearest? num den = some m) : (num : ℚ) / den < 2 ^ (1024 : Int) := by
  rcases Nat.eq_zero_or_pos num with rfl | hnum
  · rw [Nat.cast_zero, zero_div]
    exact zpow_pos two_pos _
  · rw [nearest?_eq hnum hden] at h
    have bound := (ofRounded_eq_some h).1
    have most : m.exponent ≤ 971 := m.canonical.2.2.1
    have order : Int.log 2 ((num : ℚ) / den) < 1024 := by
      rw [orderOf] at bound
      omega
    rwa [← Int.lt_zpow_iff_log_lt one_lt_two (value_pos hnum hden), Nat.cast_ofNat] at order

/-- What is rounded to a positive magnitude is not smaller than half of the smallest one. -/
theorem le_value_of_nearest? (hden : 0 < den) {m : Magnitude}
    (h : Magnitude.nearest? num den = some m) (positive : m.mantissa ≠ 0) :
    (2 : ℚ) ^ (-1075 : Int) ≤ (num : ℚ) / den := by
  rcases Nat.eq_zero_or_pos num with rfl | hnum
  · rw [Magnitude.nearest?, if_pos rfl, Option.some.injEq] at h
    exact absurd (by rw [← h]; rfl) positive
  · rw [nearest?_eq hnum hden] at h
    have half := half_le_of_roundRat_ne_zero ((ofRounded_eq_some h).2 positive)
    have least : (-1074 : Int) ≤ orderOf ((num : ℚ) / den) := le_max_right _ _
    have scale : (0 : ℚ) < 2 ^ orderOf ((num : ℚ) / den) := by positivity
    rw [le_div_iff₀ scale] at half
    calc (2 : ℚ) ^ (-1075 : Int) = 1 / 2 * 2 ^ (-1074 : Int) := by
          rw [show (-1075 : Int) = -1074 - 1 from rfl, zpow_sub_one₀ two_ne_zero, one_div, mul_comm]
      _ ≤ 1 / 2 * 2 ^ orderOf ((num : ℚ) / den) := by
          gcongr
          exact one_le_two
      _ ≤ (num : ℚ) / den := half

/-- A positive integer is not rounded to zero. -/
theorem mantissa_pos_of_nearest? {n : Nat} (positive : 0 < n) {m : Magnitude}
    (h : Magnitude.nearest? n 1 = some m) : 0 < m.mantissa := by
  rw [nearest?_eq positive one_pos] at h
  have order : -52 ≤ orderOf ((n : ℚ) / (1 : ℕ)) := by
    refine le_max_of_le_left ?_
    rw [Nat.cast_one, div_one, Int.log_natCast]
    omega
  have bound := (ofRounded_eq_some h).1
  have least : minExponent = -1074 := rfl
  rcases m.canonical.2.2.2 with long | smallest
  · exact Nat.lt_of_lt_of_le (Nat.two_pow_pos 52) long
  · omega

/-! ## Magnitudes are nearest to themselves -/

theorem fraction_value (m : Magnitude) :
    (m.fraction.1 : ℚ) / m.fraction.2 = m.mantissa * 2 ^ m.exponent := by
  rw [Magnitude.fraction]
  split
  · next nonneg =>
      obtain ⟨k, same⟩ := Int.eq_ofNat_of_zero_le nonneg
      rw [same, Int.toNat_natCast, Nat.pow_eq, zpow_natCast]
      push_cast
      rw [div_one]
  · next negative =>
      obtain ⟨k, same⟩ := Int.eq_ofNat_of_zero_le (by omega : 0 ≤ -m.exponent)
      obtain negated : m.exponent = -(k : Int) := by omega
      rw [negated, neg_neg, Int.toNat_natCast, Nat.pow_eq, zpow_neg, zpow_natCast]
      push_cast
      rw [div_eq_mul_inv]

/-- The number nearest to an integer other than zero is no zero. -/
theorem toRat?_ofInt_ne_zero {i : Int} (nonzero : i ≠ 0) {b : ℚ}
    (h : (Binary64.ofInt i).toRat? = some b) : b ≠ 0 := by
  rw [Binary64.ofInt, Binary64.nearest] at h
  split at h
  · next m found =>
      have positive := mantissa_pos_of_nearest? (Int.natAbs_pos.2 nonzero) found
      have mantissa : (0 : ℚ) < m.mantissa := Nat.cast_pos.2 positive
      have value : (0 : ℚ) < m.toRat := by
        rw [Magnitude.toRat, fraction_value]
        positivity
      rw [Binary64.toRat?, Option.some.injEq] at h
      subst h
      split
      · exact (neg_neg_of_pos value).ne
      · exact value.ne'
  · cases h

theorem orderOf_value {m : Magnitude} (positive : 0 < m.mantissa) :
    orderOf (m.mantissa * 2 ^ m.exponent) = m.exponent := by
  obtain ⟨short, least, -, long⟩ := m.canonical
  have hm : (0 : ℚ) < m.mantissa := Nat.cast_pos.2 positive
  have two : (2 : ℚ) ≠ 0 := two_ne_zero
  have value : (0 : ℚ) < m.mantissa * 2 ^ m.exponent := by positivity
  have high : Int.log 2 ((m.mantissa : ℚ) * 2 ^ m.exponent) < 53 + m.exponent := by
    rw [← Int.lt_zpow_iff_log_lt one_lt_two value, Nat.cast_ofNat, zpow_add₀ two]
    have bound : (m.mantissa : ℚ) < 2 ^ (53 : Int) := by exact_mod_cast short
    gcongr
  rw [orderOf]
  rcases long with normal | smallest
  · have low : 52 + m.exponent ≤ Int.log 2 ((m.mantissa : ℚ) * 2 ^ m.exponent) := by
      rw [← Int.zpow_le_iff_le_log one_lt_two value, Nat.cast_ofNat, zpow_add₀ two]
      have bound : (2 : ℚ) ^ (52 : Int) ≤ m.mantissa := by exact_mod_cast normal
      gcongr
    omega
  · omega

/-- **A magnitude is nearest to itself.** -/
theorem nearest?_fraction (m : Magnitude) :
    Magnitude.nearest? m.fraction.1 m.fraction.2 = some m := by
  have hden := m.fraction_snd_pos
  have value := fraction_value m
  have positiveDen : (0 : ℚ) < m.fraction.2 := Nat.cast_pos.2 hden
  have scale : (2 : ℚ) ^ m.exponent ≠ 0 := by positivity
  rcases Nat.eq_zero_or_pos m.mantissa with nothing | positive
  · have noNumerator : m.fraction.1 = 0 := by
      rw [nothing, Nat.cast_zero, zero_mul, div_eq_zero_iff] at value
      exact_mod_cast value.resolve_right positiveDen.ne'
    rw [Magnitude.nearest?, if_pos noNumerator, Option.some.injEq]
    obtain ⟨mantissa, exponent, canonical⟩ := m
    obtain rfl : mantissa = 0 := nothing
    obtain rfl : exponent = minExponent :=
      canonical.2.2.2.resolve_left (by decide)
    rfl
  · have hnum : 0 < m.fraction.1 := by
      refine Nat.pos_of_ne_zero fun nothing => ?_
      rw [nothing, Nat.cast_zero, zero_div, eq_comm, mul_eq_zero] at value
      exact positive.ne' (by exact_mod_cast value.resolve_right scale)
    rw [nearest?_eq hnum hden, value, orderOf_value positive, mul_div_cancel_right₀ _ scale,
      roundRat_natCast, ofRounded, if_neg m.canonical.1.ne]
    exact dif_pos m.canonical

end RouteContract.Number
