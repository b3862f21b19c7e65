/-
FilterQuery.Proofs.Rounding — a rounded number is its value.

A pair of significand and exponent is one way among many to write a
number: 1 is 1 · 2^0 as well as 2 · 2^-1. Rounding settles on one. Its
significand fills all 53 bits, or the number is zero with exponent zero
(`IsNormal`), and of such pairs no two denote one number
(`IsNormal.eq_of_toRat_eq`): the value lies in one binade only, and the
exponent says which (`IsFilled.abs_toRat_bounds`).

That the significand is filled is a matter of the exponent alone. The
binary logarithms of numerator and denominator give it but for one
(`pow_guess_bounds`), and one comparison settles which of the two it is.
-/
import FilterQuery.Decimal.Approximation
import Mathlib.Algebra.Field.Rat
import Mathlib.Algebra.Order.Field.Power
import Mathlib.Algebra.Order.Ring.Rat
import Mathlib.Tactic.Linarith

namespace FilterQuery

namespace Binary64

/-! ## 1. One pair for a number -/

/-- A number whose significand has just 53 bits. -/
structure IsFilled (x : Binary64) : Prop where
  least : leastSignificand ≤ |x.significand|
  most : |x.significand| < 2 * leastSignificand

/-- Zero, written in one way, or a number whose significand has just 53 bits. -/
inductive IsNormal : Binary64 → Prop
  | zero : IsNormal ⟨0, 0⟩
  | filled {x : Binary64} (filled : x.IsFilled) : IsNormal x

theorem two_pow_pos (e : Int) : (0 : Rat) < 2 ^ e := zpow_pos (by norm_num) e

theorem two_pow_succ (e : Int) : (2 : Rat) ^ (e + 1) = 2 * 2 ^ e := by
  rw [zpow_add_one₀ (by norm_num), mul_comm]

theorem abs_toRat (x : Binary64) :
    |x.toRat| = (|x.significand| : Int) * (2 : Rat) ^ x.exponent := by
  rw [toRat, abs_mul, abs_of_pos (two_pow_pos x.exponent), Int.cast_abs]

theorem leastSignificand_pos : (0 : Rat) < leastSignificand := by
  norm_num [leastSignificand]

namespace IsFilled

/-- The exponent of a filled significand tells the binade of the number. -/
theorem abs_toRat_bounds {x : Binary64} (h : x.IsFilled) :
    (leastSignificand : Rat) * 2 ^ x.exponent ≤ |x.toRat| ∧
      |x.toRat| < leastSignificand * 2 ^ (x.exponent + 1) := by
  have hleast : (leastSignificand : Rat) ≤ (|x.significand| : Int) := Int.cast_le.mpr h.least
  have hmost : ((|x.significand| : Int) : Rat) < leastSignificand * 2 := by
    rw [mul_comm]
    exact_mod_cast h.most
  rw [abs_toRat, two_pow_succ, ← mul_assoc]
  exact ⟨mul_le_mul_of_nonneg_right hleast (two_pow_pos _).le,
    mul_lt_mul_of_pos_right hmost (two_pow_pos _)⟩

theorem toRat_ne_zero {x : Binary64} (h : x.IsFilled) : x.toRat ≠ 0 := by
  rw [← abs_pos]
  exact lt_of_lt_of_le (mul_pos leastSignificand_pos (two_pow_pos _)) h.abs_toRat_bounds.1

/-- Of two filled significands for one number, neither has the greater exponent. -/
theorem exponent_le_of_toRat_eq {x y : Binary64} (hx : x.IsFilled) (hy : y.IsFilled)
    (h : x.toRat = y.toRat) : x.exponent ≤ y.exponent := by
  have hlow := hx.abs_toRat_bounds.1
  have hhigh := hy.abs_toRat_bounds.2
  rw [h] at hlow
  have hpow := lt_of_mul_lt_mul_left (lt_of_le_of_lt hlow hhigh) leastSignificand_pos.le
  exact Int.lt_add_one_iff.mp ((zpow_lt_zpow_iff_right₀ (by norm_num)).mp hpow)

/-- Two filled significands for one number are the same, exponents and all. -/
theorem eq_of_toRat_eq {x y : Binary64} (hx : x.IsFilled) (hy : y.IsFilled)
    (h : x.toRat = y.toRat) : x = y := by
  have hexponent : x.exponent = y.exponent :=
    le_antisymm (hx.exponent_le_of_toRat_eq hy h) (hy.exponent_le_of_toRat_eq hx h.symm)
  have hsignificand : (x.significand : Rat) = y.significand := by
    unfold toRat at h
    rw [hexponent] at h
    exact mul_right_cancel₀ (two_pow_pos _).ne' h
  obtain ⟨_, _⟩ := x
  obtain ⟨_, _⟩ := y
  simp only [mk.injEq]
  exact ⟨by exact_mod_cast hsignificand, hexponent⟩

end IsFilled

/-- **Two normal pairs that denote one number are the same pair.** -/
theorem IsNormal.eq_of_toRat_eq {x y : Binary64} (hx : x.IsNormal) (hy : y.IsNormal)
    (h : x.toRat = y.toRat) : x = y := by
  have hzero : (⟨0, 0⟩ : Binary64).toRat = 0 := by simp [toRat]
  cases hx with
  | zero =>
    cases hy with
    | zero => rfl
    | filled hy => exact absurd (h.symm.trans hzero) hy.toRat_ne_zero
  | filled hx =>
    cases hy with
    | zero => exact absurd (h.trans hzero) hx.toRat_ne_zero
    | filled hy => exact hx.eq_of_toRat_eq hy h

/-! ## 2. The exponent -/

/-- The logarithms of numerator and denominator place a number between two
powers of two. -/
theorem pow_guess_bounds {q : Rat} (hq : 0 < q) :
    (2 : Rat) ^ ((q.num.natAbs.log2 : Int) - q.den.log2 - 1) < q ∧
      q < (2 : Rat) ^ ((q.num.natAbs.log2 : Int) - q.den.log2 + 1) := by
  have hnum : 0 < q.num := Rat.num_pos.mpr hq
  have hden : (0 : Rat) < q.den := by exact_mod_cast q.den_pos
  have hvalue : q = (q.num.natAbs : Rat) / q.den := by
    rw [Nat.cast_natAbs, abs_of_pos hnum, Rat.num_div_den]
  have hn : q.num.natAbs ≠ 0 := by omega
  have hnlow : (2 : Rat) ^ (q.num.natAbs.log2 : Int) ≤ q.num.natAbs := by
    exact_mod_cast Nat.log2_self_le hn
  have hnhigh : (q.num.natAbs : Rat) < 2 ^ ((q.num.natAbs.log2 : Int) + 1) := by
    exact_mod_cast (Nat.lt_log2_self : q.num.natAbs < _)
  have hdlow : (2 : Rat) ^ (q.den.log2 : Int) ≤ q.den := by
    exact_mod_cast Nat.log2_self_le q.den_nz
  have hdhigh : (q.den : Rat) < 2 ^ ((q.den.log2 : Int) + 1) := by
    exact_mod_cast (Nat.lt_log2_self : q.den < _)
  generalize (q.num.natAbs.log2 : Int) = a at hnlow hnhigh ⊢
  generalize (q.den.log2 : Int) = b at hdlow hdhigh ⊢
  constructor
  · conv_rhs => rw [hvalue]
    rw [lt_div_iff₀ hden]
    calc (2 : Rat) ^ (a - b - 1) * q.den
        < 2 ^ (a - b - 1) * 2 ^ (b + 1) := mul_lt_mul_of_pos_left hdhigh (two_pow_pos _)
      _ = 2 ^ a := by rw [← zpow_add₀ (by norm_num)]; congr 1; omega
      _ ≤ q.num.natAbs := hnlow
  · conv_lhs => rw [hvalue]
    rw [div_lt_iff₀ hden]
    calc (q.num.natAbs : Rat)
        < 2 ^ (a + 1) := hnhigh
      _ = 2 ^ (a - b + 1) * 2 ^ b := by rw [← zpow_add₀ (by norm_num)]; congr 1; omega
      _ ≤ 2 ^ (a - b + 1) * q.den := mul_le_mul_of_nonneg_left hdlow (two_pow_pos _).le

theorem leastSignificand_eq : (leastSignificand : Rat) = 2 ^ (52 : Int) := by
  norm_num [leastSignificand]

/-- At its exponent, a positive number has a significand of 53 bits. -/
theorem scaled_bounds {q : Rat} (hq : 0 < q) :
    (leastSignificand : Rat) ≤ q / 2 ^ exponentOf q ∧
      q / 2 ^ exponentOf q < 2 * leastSignificand := by
  obtain ⟨hlow, hhigh⟩ := pow_guess_bounds hq
  unfold exponentOf
  generalize (q.num.natAbs.log2 : Int) - q.den.log2 = g at hlow hhigh ⊢
  dsimp only
  rw [Int.cast_mul, Int.cast_ofNat]
  split
  · next hlt =>
    refine ⟨le_of_lt ?_, hlt⟩
    rw [lt_div_iff₀ (two_pow_pos _), leastSignificand_eq, ← zpow_add₀ (by norm_num),
      show (52 : Int) + (g - 53) = g - 1 by omega]
    exact hlow
  · next hge =>
    rw [two_pow_succ, mul_comm 2, ← div_div]
    have hle := not_lt.mp hge
    constructor
    · rw [le_div_iff₀ (by norm_num)]
      linarith
    · rw [div_lt_iff₀ (by norm_num), div_lt_iff₀ (two_pow_pos _), leastSignificand_eq,
        ← zpow_one_add₀ (by norm_num), ← zpow_add_one₀ (by norm_num), ← zpow_add₀ (by norm_num),
        show (1 + 52 + 1 : Int) + (g - 53) = g + 1 by omega]
      exact hhigh

/-! ## 3. Rounding -/

/-- Between whole numbers, rounding stays between them. -/
theorem roundEven_bounds {q : Rat} {m n : Int} (hm : (m : Rat) ≤ q) (hn : q < n) :
    m ≤ roundEven q ∧ roundEven q ≤ n := by
  have hlow : m ≤ q.floor := Rat.le_floor_iff.mpr hm
  have hhigh : q.floor < n := Rat.floor_lt_iff.mpr hn
  have hround : roundEven q = q.floor ∨ roundEven q = q.floor + 1 := by
    unfold roundEven
    dsimp only
    split
    · exact .inl rfl
    · split
      · exact .inr rfl
      · split
        · exact .inl rfl
        · exact .inr rfl
  omega

/-- A significand between the two bounds is positive, so it is filled. -/
theorem IsNormal.of_bounds {m e : Int} (least : leastSignificand ≤ m)
    (most : m < 2 * leastSignificand) : IsNormal ⟨m, e⟩ := by
  have hm : |m| = m := abs_of_nonneg (le_trans (by decide) least)
  exact .filled ⟨by rwa [hm], by rwa [hm]⟩

/-- A significand that is rounded up to 2^53 is written as 2^52. -/
theorem isNormal_nearestPositive {q : Rat} (hq : 0 < q) : (nearestPositive q).IsNormal := by
  obtain ⟨hlow, hhigh⟩ := scaled_bounds hq
  obtain ⟨hleast, hmost⟩ := @roundEven_bounds _ _ (2 * leastSignificand) hlow
    (by exact_mod_cast hhigh)
  unfold nearestPositive
  dsimp only
  split
  · exact .of_bounds le_rfl (by decide)
  · next hne => exact .of_bounds hleast (lt_of_le_of_ne hmost hne)

theorem IsNormal.neg {x : Binary64} (h : x.IsNormal) : x.neg.IsNormal := by
  cases h with
  | zero => exact .zero
  | filled h => exact .filled ⟨by rw [Binary64.neg, abs_neg]; exact h.least,
      by rw [Binary64.neg, abs_neg]; exact h.most⟩

/-- What rounding gives is normal. -/
theorem isNormal_nearest (q : Rat) : (nearest q).IsNormal := by
  unfold nearest
  split
  · exact .zero
  · next hne =>
    split
    · next hpos => exact isNormal_nearestPositive hpos
    · next hnonpos =>
      have hneg : q < 0 := lt_of_le_of_ne (not_lt.mp hnonpos) hne
      exact (isNormal_nearestPositive (neg_pos.mpr hneg)).neg

end Binary64

open Binary64

/-- The binary number that stands for a decimal is normal, whichever way it
was computed: every way ends with a rounding. -/
theorem Decimal.isNormal_approximate (d : Decimal) : d.approximate.IsNormal := by
  have hparts : (approximateParts d.coefficient.natAbs d.scale).IsNormal := by
    unfold approximateParts
    dsimp only
    split
    · exact isNormal_nearest _
    · split
      · exact isNormal_nearest _
      · exact isNormal_nearest _
  unfold approximate
  dsimp only
  split
  · exact hparts.neg
  · exact hparts

end FilterQuery
