/-
FilterQuery.Proofs.Approximation — decimals of up to fifteen digits.

A decimal is approximated in several rounded steps, and in general what comes
out of them is not the binary number nearest to the decimal. It is for
decimals of up to fifteen digits with no more than 22 behind the point. Powers of
ten are exact up to 10^22 (`exact_powers_of_ten`), and the three roundings in
between move the coefficient by less than a half (`Within.abs_sub_lt`), so the
correction at the end recovers it and only the last division rounds
(`approximateParts_eq_nearest`).

Of the nearest number it is known that its fewest digits are those of the
decimal, whichever way ties are broken; what is left is the sign
(`toRat_shortest_approximate`).
-/
import FilterQuery.Proofs.NumberText

namespace FilterQuery

open Binary64

namespace Decimal

/-! ## 1. The approximation is the nearest number -/

/-- Powers of ten are exact as far as 5^22 has 53 bits, in both ways they are computed. -/
theorem exact_powers_of_ten {s : Nat} (hs : s ≤ 22) :
    (tenTo s).toRat = (pow10 s : Nat) ∧ (ofInt (pow10 s : Nat)).toRat = (pow10 s : Nat) := by
  have h : ∀ s < 23, (tenTo s).toRat = (pow10 s : Nat) ∧
      (ofInt (pow10 s : Nat)).toRat = (pow10 s : Nat) := by decide +kernel
  exact h s (Nat.lt_succ_of_le hs)

/-- What the correction is made from is nearer to the coefficient than to any other number. -/
theorem roundUp_eq {q : Rat} {c : Nat} (h : |q - c| < 1 / 2) : roundUp q = c := by
  obtain ⟨hlow, hhigh⟩ := abs_lt.mp h
  have hle : (c : Int) ≤ (q + 1 / 2).floor := by
    rw [Rat.le_floor_iff]
    push_cast
    linarith
  have hlt : (q + 1 / 2).floor < (c : Int) + 1 := by
    rw [Rat.floor_lt_iff]
    push_cast
    linarith
  unfold roundUp
  omega

/-- With up to fifteen digits, the approximation is the nearest number after all. -/
theorem approximateParts_eq_nearest {c s : Nat} (hc : c < 10 ^ 15) (hs : s ≤ 22) :
    approximateParts c s = nearest (c / (pow10 s : Nat)) := by
  obtain ⟨hpower, hunit⟩ := exact_powers_of_ten hs
  have hpos : (0 : Rat) < (pow10 s : Nat) := Nat.cast_pos.mpr (pow10_pos s)
  have hexact {n : Nat} (hn : n ≤ c) : (ofInt n).toRat = n :=
    toRat_ofInt (lt_of_le_of_lt hn (hc.trans (by decide)))
  have hnumber : (0 : Rat) ≤ c / (pow10 s : Nat) := div_nonneg (Nat.cast_nonneg c) hpos.le
  have hfraction : (0 : Rat) ≤ (c % pow10 s : Nat) / (pow10 s : Nat) :=
    div_nonneg (Nat.cast_nonneg _) hpos.le
  have hwhole := hexact (Nat.div_le_self c (pow10 s))
  have hrest := hexact (Nat.mod_le c (pow10 s))
  have hparts : (c : Rat) / (pow10 s : Nat) =
      (c / pow10 s : Nat) + (c % pow10 s : Nat) / (pow10 s : Nat) := by
    rw [div_eq_iff hpos.ne', add_mul, div_mul_cancel₀ _ hpos.ne']
    exact_mod_cast (Nat.div_add_mod' c (pow10 s)).symm
  unfold approximateParts
  split
  · next hzero =>
    subst hzero
    unfold ofInt
    congr 1
    rw [show pow10 0 = 1 from rfl, Nat.cast_one, div_one, Int.cast_natCast]
  · dsimp only
    rw [div, hrest, hunit]
    split
    · next hzero =>
      -- only zero is rounded to zero, so there is no fraction
      have hnone : ((c % pow10 s : Nat) : Rat) / (pow10 s : Nat) = 0 := by
        obtain ⟨hlow, _⟩ := nearest_bounds hfraction
        rw [Binary64.toRat, hzero, Int.cast_zero, zero_mul] at hlow
        norm_num at hlow
        linarith
      rw [hparts, hnone, add_zero]
      rfl
    · have hsum := (((Within.refl _).nearest hfraction).add_left
        (Nat.cast_nonneg (c / pow10 s))).nearest (hparts ▸ hnumber)
      have hproduct := (hsum.mul_right hpos.le).nearest
        (by rw [← hparts, div_mul_cancel₀ _ hpos.ne']; exact Nat.cast_nonneg c)
      rw [← hparts, div_mul_cancel₀ _ hpos.ne'] at hproduct
      have hcorrected := roundUp_eq (hproduct.abs_sub_lt (by exact_mod_cast hc))
      rw [add, mul, hwhole, hpower, hcorrected, div, hexact le_rfl, hpower]

/-! ## 2. The fewest digits are those of the decimal -/

/-- Whichever way ties are broken, the fewest digits of the approximation denote the number that
was approximated. -/
theorem toRat_shortest_approximateParts (tie : Tie) {c s : Nat} (hc : c < 10 ^ 15) (hs : s ≤ 22) :
    (shortest tie (approximateParts c s)).toRat = c / (pow10 s : Nat) := by
  have hdigits : (c : Rat) / (pow10 s : Nat) = Digits.toRat ⟨c, -s⟩ := by
    rw [Digits.toRat, cast_pow10, zpow_neg, div_eq_mul_inv]
  rw [approximateParts_eq_nearest hc hs]
  rcases Nat.eq_zero_or_pos c with rfl | hpos
  · rw [Nat.cast_zero, zero_div]
    exact zero_mul _
  · rw [hdigits, toRat_shortest_nearest tie hpos hc]

/-- **The fewest digits of the approximation denote the decimal**, if it has up to fifteen digits
and no more than 22 of them behind the point. -/
theorem toRat_shortest_approximate (tie : Tie) {d : Decimal} (hc : d.coefficient.natAbs < 10 ^ 15)
    (hs : d.scale ≤ 22) :
    (if d.approximate.significand < 0 then -1 else 1) * (shortest tie d.approximate).toRat =
      d.toRat := by
  have hnearest := approximateParts_eq_nearest hc hs
  have hunit : (0 : Rat) < (pow10 d.scale : Nat) := Nat.cast_pos.mpr (pow10_pos d.scale)
  have hparts := toRat_shortest_approximateParts tie hc hs
  unfold approximate
  dsimp only
  split
  · next hneg =>
    have hpos : 0 < (approximateParts d.coefficient.natAbs d.scale).significand := by
      rw [hnearest]
      exact significand_nearest_pos (div_pos (by exact_mod_cast (by omega)) hunit)
    have hsign : (approximateParts d.coefficient.natAbs d.scale).neg.significand < 0 :=
      Int.neg_neg_of_pos hpos
    rw [if_pos hsign, shortest_neg, hparts, toRat, neg_one_mul, ← neg_div, ← Int.cast_natCast,
      ← Int.cast_neg, show -(d.coefficient.natAbs : Int) = d.coefficient by omega]
  · next hnonneg =>
    have hsign : ¬(approximateParts d.coefficient.natAbs d.scale).significand < 0 := by
      rw [hnearest]
      rcases Nat.eq_zero_or_pos d.coefficient.natAbs with hzero | hpos
      · rw [hzero, Nat.cast_zero, zero_div]
        exact lt_irrefl 0
      · exact (significand_nearest_pos (div_pos (Nat.cast_pos.mpr hpos) hunit)).not_gt
    rw [if_neg hsign, hparts, toRat, one_mul, ← Int.cast_natCast,
      show (d.coefficient.natAbs : Int) = d.coefficient by omega]

end Decimal

end FilterQuery
