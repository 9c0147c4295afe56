import RouteContract.Number.Shortest
import RouteContract.Proofs.Number.Rounding

/-!
# Shortest decimals read back

The decimal that a magnitude is written with is one whose nearest magnitude is the one that was
written (`readsAs_shortestDecimal`). Reading decimal digits has two shortcuts, for numbers that are
far too large and for numbers that are far too small; digits that stand for the same number as a
decimal that reads back take neither of them (`ofDecimal_eq_finite`).
-/

set_option autoImplicit false

namespace RouteContract.Number

namespace Decimal

/-- The number a decimal denotes. -/
def value (d : Decimal) : ℚ := d.digits * 10 ^ d.exponent

theorem fraction_snd_pos (d : Decimal) : 0 < d.fraction.2 := by
  rw [fraction]
  split
  · exact Nat.one_pos
  · exact Nat.pow_pos (by decide)

theorem fraction_value (d : Decimal) : (d.fraction.1 : ℚ) / d.fraction.2 = d.value := by
  rw [fraction, value]
  split
  · next nonneg =>
      obtain ⟨k, same⟩ := Int.eq_ofNat_of_zero_le nonneg
      rw [same, Int.toNat_natCast, Nat.pow_eq, zpow_natCast]
      push_cast
      rw [div_one]
  · next negative =>
      obtain ⟨k, same⟩ := Int.eq_ofNat_of_zero_le (by omega : 0 ≤ -d.exponent)
      obtain negated : d.exponent = -(k : Int) := by omega
      rw [negated, neg_neg, Int.toNat_natCast, Nat.pow_eq, zpow_neg, zpow_natCast]
      push_cast
      rw [div_eq_mul_inv]

theorem readsAs_iff {d : Decimal} {m : Magnitude} :
    d.readsAs m = true ↔ Magnitude.nearest? d.fraction.1 d.fraction.2 = some m := by
  rw [readsAs, decide_eq_true_eq]

/-- Whether a decimal reads back depends on its value alone. -/
theorem readsAs_of_value_eq {d d' : Decimal} {m : Magnitude} (h : d.readsAs m = true)
    (same : d.value = d'.value) : d'.readsAs m = true := by
  rw [readsAs_iff] at h ⊢
  rw [← h]
  refine nearest?_congr d'.fraction_snd_pos d.fraction_snd_pos ?_
  rw [fraction_value, fraction_value, same]

end Decimal

/-! ## The decimal of a magnitude -/

theorem readsAs_of_gridDecimal? {m : Magnitude} {exponent : Int} {d : Decimal}
    (h : gridDecimal? m exponent = some d) : d.readsAs m = true := by
  simp only [gridDecimal?] at h
  split at h
  · next below above =>
      rw [Bool.and_eq_true] at above
      split at h
      · cases h
        exact below
      · split at h
        · cases h
          exact above.2
        · split at h
          · cases h
            exact below
          · cases h
            exact above.2
  · next below _ =>
      cases h
      exact below
  · next _ above =>
      cases h
      rw [Bool.and_eq_true] at above
      exact above.2
  · exact nomatch h

/-- The digits of a magnitude denote it exactly. -/
theorem readsAs_of_value {d : Decimal} {m : Magnitude}
    (same : d.value = m.mantissa * 2 ^ m.exponent) : d.readsAs m = true := by
  rw [Decimal.readsAs_iff, ← nearest?_fraction m]
  refine nearest?_congr d.fraction_snd_pos m.fraction_snd_pos ?_
  rw [Decimal.fraction_value, fraction_value, same]

/-- **The decimal of a magnitude reads back as it.** -/
theorem readsAs_shortestDecimal (m : Magnitude) : (shortestDecimal m).readsAs m = true := by
  rw [shortestDecimal]
  split
  · next d found =>
      obtain ⟨exponent, -, onGrid⟩ := List.exists_of_findSome?_eq_some found
      exact readsAs_of_gridDecimal? onGrid
  · split
    · next nonneg =>
        refine readsAs_of_value ?_
        obtain ⟨k, same⟩ := Int.eq_ofNat_of_zero_le nonneg
        rw [Decimal.value, same, Int.toNat_natCast, Nat.pow_eq, zpow_natCast]
        push_cast
        rw [mul_one]
    · next negative =>
        refine readsAs_of_value ?_
        obtain ⟨k, same⟩ := Int.eq_ofNat_of_zero_le (by omega : 0 ≤ -m.exponent)
        obtain negated : m.exponent = -(k : Int) := by omega
        rw [Decimal.value, negated, neg_neg, Int.toNat_natCast, Nat.pow_eq, zpow_neg, zpow_neg,
          zpow_natCast, zpow_natCast]
        push_cast
        rw [show (10 : ℚ) = 5 * 2 by norm_num, mul_pow, mul_inv]
        field_simp

/-! ## Reading digits -/

/-- A positive magnitude is not what zero reads as. -/
theorem digits_ne_zero {d : Decimal} {m : Magnitude} (positive : m.mantissa ≠ 0)
    (reads : d.readsAs m = true) : d.digits ≠ 0 := by
  intro nothing
  rw [Decimal.readsAs_iff] at reads
  have noNumerator : d.fraction.1 = 0 := by
    rw [Decimal.fraction, nothing]
    split
    · exact Nat.zero_mul _
    · rfl
  rw [Magnitude.nearest?, if_pos noNumerator, Option.some.injEq] at reads
  exact positive (by rw [← reads]; rfl)

theorem two_pow_le : (2 : ℚ) ^ (1024 : Int) ≤ 10 ^ (311 : Int) := by
  have bound : 2 ^ 1024 ≤ 10 ^ 311 := by decide +kernel
  exact_mod_cast bound

theorem ten_pow_le : (10 : ℚ) ^ (-331 : Int) ≤ 2 ^ (-1075 : Int) := by
  have bound : 2 ^ 1075 ≤ 10 ^ 331 := by decide +kernel
  rw [zpow_neg, zpow_neg]
  refine inv_anti₀ (zpow_pos two_pos _) ?_
  exact_mod_cast bound

/-- Four binary digits are more than one decimal digit. -/
theorem ten_pow_log2_le {n : Nat} (positive : n ≠ 0) :
    (10 : ℚ) ^ ((Nat.log2 n : Int) / 4) ≤ n := by
  have bound : 10 ^ (Nat.log2 n / 4) ≤ n := by
    calc 10 ^ (Nat.log2 n / 4) ≤ (2 ^ 4) ^ (Nat.log2 n / 4) :=
          Nat.pow_le_pow_left (by decide) _
      _ = 2 ^ (4 * (Nat.log2 n / 4)) := (Nat.pow_mul 2 4 _).symm
      _ ≤ 2 ^ Nat.log2 n := Nat.pow_le_pow_right (by decide) (Nat.mul_div_le _ 4)
      _ ≤ n := Nat.log2_self_le positive
  have exponent : (Nat.log2 n : Int) / 4 = ((Nat.log2 n / 4 : ℕ) : Int) := by omega
  rw [exponent, zpow_natCast]
  exact_mod_cast bound

/-- Digits that read back do not lie beyond the largest order. -/
theorem order_le_of_readsAs {d : Decimal} {m : Magnitude} (positive : m.mantissa ≠ 0)
    (reads : d.readsAs m = true) :
    ¬ (Nat.log2 d.digits : Int) / 4 + d.exponent > Binary64.hugeOrder := by
  intro large
  rw [Binary64.hugeOrder] at large
  have below := value_lt_of_nearest? d.fraction_snd_pos (Decimal.readsAs_iff.1 reads)
  rw [Decimal.fraction_value] at below
  have above : (10 : ℚ) ^ (311 : Int) ≤ d.value := by
    calc (10 : ℚ) ^ (311 : Int) ≤ 10 ^ ((Nat.log2 d.digits : Int) / 4 + d.exponent) :=
          zpow_le_zpow_right₀ (by norm_num) (by omega)
      _ = 10 ^ ((Nat.log2 d.digits : Int) / 4) * 10 ^ d.exponent := zpow_add₀ (by norm_num) _ _
      _ ≤ d.digits * 10 ^ d.exponent := by
          gcongr
          exact ten_pow_log2_le (digits_ne_zero positive reads)
  exact absurd (two_pow_le.trans above) (not_le.2 below)

/-- Digits that read back as a positive magnitude do not lie below the smallest order. -/
theorem le_order_of_readsAs {d : Decimal} {m : Magnitude} (positive : m.mantissa ≠ 0)
    (reads : d.readsAs m = true) {count : Nat} (short : d.digits < 10 ^ count) :
    ¬ (count : Int) + d.exponent < Binary64.tinyOrder := by
  intro small
  rw [Binary64.tinyOrder] at small
  have above := le_value_of_nearest? d.fraction_snd_pos (Decimal.readsAs_iff.1 reads) positive
  rw [Decimal.fraction_value] at above
  have digits : (d.digits : ℚ) < 10 ^ (count : Int) := by
    rw [zpow_natCast]
    exact_mod_cast short
  have below : d.value < (10 : ℚ) ^ (-331 : Int) := by
    calc d.value = d.digits * 10 ^ d.exponent := rfl
      _ < 10 ^ (count : Int) * 10 ^ d.exponent := by gcongr
      _ = 10 ^ ((count : Int) + d.exponent) := (zpow_add₀ (by norm_num) _ _).symm
      _ ≤ 10 ^ (-331 : Int) := zpow_le_zpow_right₀ (by norm_num) (by omega)
  exact absurd (above.trans_lt below) (not_lt.2 ten_pow_le)

/-- **Digits that read back are read as the magnitude.** -/
theorem ofDecimal_eq_finite {d : Decimal} {m : Magnitude} (positive : m.mantissa ≠ 0)
    (reads : d.readsAs m = true) {count : Nat} (short : d.digits < 10 ^ count) (negative : Bool) :
    Binary64.ofDecimal negative d.digits count d.exponent = .finite negative m := by
  have large := order_le_of_readsAs positive reads
  have small := le_order_of_readsAs positive reads short
  have found := Decimal.readsAs_iff.1 reads
  rw [Decimal.fraction] at found
  rw [Binary64.ofDecimal, if_neg (digits_ne_zero positive reads), if_neg large, if_neg small]
  split
  · next nonneg =>
      rw [if_pos nonneg] at found
      rw [Binary64.nearest, found]
  · next negativeExponent =>
      rw [if_neg negativeExponent] at found
      rw [Binary64.nearest, found]

end RouteContract.Number
