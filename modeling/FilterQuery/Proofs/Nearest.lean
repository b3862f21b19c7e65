/-
FilterQuery.Proofs.Nearest — how far a rounded number is from what was rounded.

A number is divided by a power of two, so that the quotient lies between 2^52
and 2^53, and the quotient is rounded to a whole number. That moves it by a half
at most, and by a half only to an even number (`abs_roundEven_sub_le`,
`roundEven_even`). Everything else is that said at the scale of the number:

* rounding moves a number by no more than its 2^53rd part (`nearest_bounds`), and
  a row of roundings by no more than that taken as often (`Within`);
* whole numbers below 2^53 are kept (`toRat_ofInt`);
* a number lies in the interval of what it is rounded to
  (`inInterval_nearestPositive`), and the interval is no longer than the last
  binary place (`abs_sub_le_of_inInterval`).
-/
import FilterQuery.Proofs.Rounding
import Mathlib.Data.Rat.Floor
import Mathlib.Tactic.Ring

namespace FilterQuery

namespace Binary64

/-! ## 1. The nearest whole number -/

theorem abs_roundEven_sub_le (q : Rat) : |(roundEven q : Rat) - q| ≤ 1 / 2 := by
  have hlow := Rat.floor_le q
  have hhigh := Rat.lt_floor_add_one q
  push_cast at hhigh
  rw [abs_le]
  unfold roundEven
  dsimp only
  split
  · constructor <;> linarith
  · split
    · push_cast
      constructor <;> linarith
    · split
      · constructor <;> linarith
      · push_cast
        constructor <;> linarith

/-- A half is rounded to an even number. -/
theorem roundEven_even {q : Rat} (h : |(roundEven q : Rat) - q| = 1 / 2) :
    roundEven q % 2 = 0 := by
  have hlow := Rat.floor_le q
  have hhigh := Rat.lt_floor_add_one q
  push_cast at hhigh
  unfold roundEven at h ⊢
  dsimp only at h ⊢
  split
  · next hless =>
    rw [if_pos hless, abs_of_nonpos (by linarith)] at h
    linarith
  · next hge =>
    rw [if_neg hge] at h
    split
    · next hmore =>
      rw [if_pos hmore, Int.cast_add, Int.cast_one, abs_of_nonneg (by linarith)] at h
      linarith
    · split
      · next heven => exact heven
      · next hodd => omega

theorem roundEven_intCast (n : Int) : roundEven n = n := by
  unfold roundEven
  simp

/-! ## 2. The distance to the nearest number -/

/-- A significand that is rounded up to 2^53 is the same number at the next exponent. -/
theorem toRat_nearestPositive (q : Rat) :
    (nearestPositive q).toRat = roundEven (q / 2 ^ exponentOf q) * 2 ^ exponentOf q := by
  unfold nearestPositive toRat
  dsimp only
  split
  · next hmost =>
    rw [hmost, two_pow_succ, Int.cast_mul]
    ring
  · rfl

/-- Rounding moves a number by no more than its 2^53rd part. -/
theorem nearest_bounds {q : Rat} (hq : 0 ≤ q) :
    q * (1 - 1 / 2 ^ 53) ≤ (nearest q).toRat ∧ (nearest q).toRat ≤ q * (1 + 1 / 2 ^ 53) := by
  rcases hq.eq_or_lt with rfl | hpos
  · simp [nearest, toRat]
  · have hne : nearest q = nearestPositive q := by
      unfold nearest
      rw [if_neg hpos.ne', if_pos hpos]
    rw [hne, toRat_nearestPositive]
    obtain ⟨hleast, _⟩ := scaled_bounds hpos
    have hunit := two_pow_pos (exponentOf q)
    have hq : q = q / 2 ^ exponentOf q * 2 ^ exponentOf q := (div_mul_cancel₀ q hunit.ne').symm
    generalize (2 : Rat) ^ exponentOf q = unit at *
    obtain ⟨hlow, hhigh⟩ := abs_le.mp (abs_roundEven_sub_le (q / unit))
    generalize (roundEven (q / unit) : Rat) = m at *
    -- half a place is the 2^53rd part of 2^52 places
    have hhalf : 1 / 2 ≤ q / unit * (1 / 2 ^ 53) := by
      norm_num [leastSignificand] at hleast ⊢
      linarith
    generalize q / unit = t at *
    subst hq
    have hm : t * (1 - 1 / 2 ^ 53) ≤ m ∧ m ≤ t * (1 + 1 / 2 ^ 53) := by
      constructor <;> linarith
    rw [mul_right_comm t unit, mul_right_comm t unit]
    exact ⟨mul_le_mul_of_nonneg_right hm.1 hunit.le, mul_le_mul_of_nonneg_right hm.2 hunit.le⟩

theorem significand_nearest_pos {q : Rat} (hq : 0 < q) : 0 < (nearest q).significand := by
  have hpos : 0 < (nearest q).toRat :=
    lt_of_lt_of_le (mul_pos hq (by norm_num)) (nearest_bounds hq.le).1
  exact Int.cast_pos.mp ((mul_pos_iff_of_pos_right (two_pow_pos _)).mp hpos)

/-- Whole numbers of 53 bits are kept. -/
theorem toRat_ofInt {n : Nat} (hn : n < 2 ^ 53) : (ofInt n).toRat = n := by
  rcases Nat.eq_zero_or_pos n with rfl | hpos
  · simp [ofInt, nearest, toRat]
  · have hcast : (0 : Rat) < ((n : Int) : Rat) := by exact_mod_cast hpos
    have hne : ofInt n = nearestPositive (n : Int) := by
      unfold ofInt nearest
      rw [if_neg hcast.ne', if_pos hcast]
    obtain ⟨hleast, _⟩ := scaled_bounds hcast
    rw [hne, toRat_nearestPositive]
    generalize exponentOf ((n : Int) : Rat) = e at *
    have hexponent : e ≤ 0 := by
      rw [le_div_iff₀ (two_pow_pos e)] at hleast
      have hmost : ((n : Int) : Rat) < leastSignificand * 2 ^ (1 : Int) := by
        norm_num [leastSignificand]
        exact_mod_cast hn
      have hpow := lt_of_mul_lt_mul_left (hleast.trans_lt hmost) leastSignificand_pos.le
      have := (zpow_lt_zpow_iff_right₀ (by norm_num : (1 : Rat) < 2)).mp hpow
      omega
    obtain ⟨k, rfl⟩ : ∃ k : Nat, e = -k := ⟨(-e).toNat, by omega⟩
    have hwhole : ((n : Int) : Rat) / 2 ^ (-k : Int) = ((n * 2 ^ k : Int) : Rat) := by
      rw [zpow_neg, div_inv_eq_mul, zpow_natCast]
      push_cast
      rfl
    rw [hwhole, roundEven_intCast, ← hwhole, div_mul_cancel₀ _ (two_pow_pos _).ne', Int.cast_natCast]

/-- Whether a number comes from another by so many roundings. -/
structure Within (k : Nat) (q r : Rat) : Prop where
  low : q * (1 - 1 / 2 ^ 53) ^ k ≤ r
  high : r ≤ q * (1 + 1 / 2 ^ 53) ^ k

namespace Within

variable {k : Nat} {q r : Rat}

theorem refl (q : Rat) : Within 0 q q := ⟨by rw [pow_zero, mul_one], by rw [pow_zero, mul_one]⟩

/-- One more rounding. -/
theorem nearest (h : Within k q r) (hq : 0 ≤ q) : Within (k + 1) q (Binary64.nearest r).toRat := by
  have hr : 0 ≤ r := le_trans (mul_nonneg hq (pow_nonneg (by norm_num) k)) h.low
  obtain ⟨hlow, hhigh⟩ := nearest_bounds hr
  constructor
  · rw [pow_succ, ← mul_assoc]
    exact le_trans (mul_le_mul_of_nonneg_right h.low (by norm_num)) hlow
  · rw [pow_succ, ← mul_assoc]
    exact le_trans hhigh (mul_le_mul_of_nonneg_right h.high (by norm_num))

/-- What is added exactly is rounded as well in the end, so it does no harm. -/
theorem add_left (h : Within k q r) {w : Rat} (hw : 0 ≤ w) : Within k (w + q) (w + r) := by
  have hlow : w * (1 - 1 / 2 ^ 53) ^ k ≤ w :=
    mul_le_of_le_one_right hw (pow_le_one₀ (by norm_num) (by norm_num))
  have hhigh : w ≤ w * (1 + 1 / 2 ^ 53) ^ k :=
    le_mul_of_one_le_right hw (one_le_pow₀ (by norm_num))
  have := h.low
  have := h.high
  constructor
  · rw [add_mul]
    linarith
  · rw [add_mul]
    linarith

theorem mul_right (h : Within k q r) {unit : Rat} (hunit : 0 ≤ unit) :
    Within k (q * unit) (r * unit) := by
  constructor
  · rw [mul_right_comm]
    exact mul_le_mul_of_nonneg_right h.low hunit
  · rw [mul_right_comm]
    exact mul_le_mul_of_nonneg_right h.high hunit

/-- Three roundings move a number of fifteen digits by less than a half. -/
theorem abs_sub_lt (h : Within 3 q r) (hless : q < 10 ^ 15) : |r - q| < 1 / 2 := by
  have hlow := h.low
  have hhigh := h.high
  rw [abs_lt]
  norm_num at hlow hhigh hless ⊢
  constructor <;> linarith

end Within

/-! ## 3. The interval of a number -/

/-- How far the interval of a number reaches down. -/
def reachBelow (x : Binary64) : Rat :=
  if x.significand = leastSignificand then 2 ^ x.exponent / 4 else 2 ^ x.exponent / 2

/-- The ends of an interval belong to it where the significand is even. -/
theorem inInterval_iff {x : Binary64} {q : Rat} : inInterval x q = true ↔
    if x.significand % 2 = 0 then
      x.toRat - x.reachBelow ≤ q ∧ q ≤ x.toRat + 2 ^ x.exponent / 2
    else x.toRat - x.reachBelow < q ∧ q < x.toRat + 2 ^ x.exponent / 2 := by
  unfold inInterval reachBelow
  dsimp only
  split <;> simp

/-- An interval reaches half a binary place up, and no further down. -/
theorem abs_sub_le_of_inInterval {x : Binary64} {q : Rat} (h : inInterval x q = true) :
    |q - x.toRat| ≤ 2 ^ x.exponent / 2 := by
  have hbelow : x.reachBelow ≤ 2 ^ x.exponent / 2 := by
    have hunit := two_pow_pos x.exponent
    unfold reachBelow
    split <;> linarith
  rw [inInterval_iff] at h
  rw [abs_le]
  split at h
  · constructor <;> linarith
  · constructor <;> linarith

/-- A rounded significand, at the scale of the significand. -/
theorem inInterval_of_scaled {m e : Int} {t : Rat} (hleast : (leastSignificand : Rat) ≤ t)
    (herror : |(m : Rat) - t| ≤ 1 / 2) (htie : |(m : Rat) - t| = 1 / 2 → m % 2 = 0) :
    inInterval ⟨m, e⟩ (t * 2 ^ e) = true := by
  have hunit := two_pow_pos e
  rw [inInterval_iff]
  simp only [toRat, reachBelow]
  split
  · obtain ⟨hlow, hhigh⟩ := abs_le.mp herror
    have hbelow := mul_le_mul_of_nonneg_right (show (m : Rat) - 1 / 2 ≤ t by linarith) hunit.le
    have habove := mul_le_mul_of_nonneg_right (show t ≤ (m : Rat) + 1 / 2 by linarith) hunit.le
    refine ⟨?_, by linarith⟩
    split
    · next hbottom =>
      -- nothing below 2^52 is rounded to it
      have hsame := mul_le_mul_of_nonneg_right hleast hunit.le
      rw [hbottom]
      linarith
    · linarith
  · next hodd =>
    have hstrict : |(m : Rat) - t| < 1 / 2 := lt_of_le_of_ne herror fun h => hodd (htie h)
    obtain ⟨hlow, hhigh⟩ := abs_lt.mp hstrict
    have hbelow := mul_lt_mul_of_pos_right (show (m : Rat) - 1 / 2 < t by linarith) hunit
    have habove := mul_lt_mul_of_pos_right (show t < (m : Rat) + 1 / 2 by linarith) hunit
    have hbottom : m ≠ leastSignificand := by
      rintro rfl
      exact hodd (by decide)
    rw [if_neg hbottom]
    constructor <;> linarith

/-- A number lies in the interval of what it is rounded to. -/
theorem inInterval_nearestPositive {q : Rat} (hq : 0 < q) :
    inInterval (nearestPositive q) q = true := by
  obtain ⟨hleast, hmost⟩ := scaled_bounds hq
  have herror := abs_roundEven_sub_le (q / 2 ^ exponentOf q)
  have hunit := two_pow_pos (exponentOf q)
  have hscaled : q / 2 ^ exponentOf q * 2 ^ exponentOf q = q := div_mul_cancel₀ q hunit.ne'
  unfold nearestPositive
  dsimp only
  split
  · next htop =>
    -- the places below 2^53 are half as long, and so is the interval on that side
    rw [htop] at herror
    obtain ⟨_, hhigh⟩ := abs_le.mp herror
    push_cast at hhigh
    have hbelow := mul_le_mul_of_nonneg_right
      (show (2 * leastSignificand : Rat) - 1 / 2 ≤ q / 2 ^ exponentOf q by linarith) hunit.le
    have habove := mul_lt_mul_of_pos_right hmost hunit
    rw [inInterval_iff, if_pos (show leastSignificand % 2 = 0 by decide), reachBelow, if_pos rfl, toRat, two_pow_succ]
    constructor <;> linarith
  · have h := @inInterval_of_scaled _ (exponentOf q) _ hleast herror roundEven_even
    rwa [hscaled] at h

end Binary64

end FilterQuery
