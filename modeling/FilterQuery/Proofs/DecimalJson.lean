/-
FilterQuery.Proofs.DecimalJson — which decimals are written exactly.

A decimal is written as a JSON number if its approximation, written with the
fewest digits and read as a decimal again, leads back to it. That is meant to keep
inexact numbers out, and it does but for two gaps. The digits that are compared are
not quite the digits that denote the approximation, since reading them rounds
behind 28 places. And they are not quite the digits that are written, since ties
are broken in another way there.

Where neither gap is met, the digits read, the digits written and the decimal denote
one number. Where one is met they do not: digits with no zero at the end that go on
behind 28 places denote no decimal at all (`exponent_of_toRat_eq`), and two
neighbours do not denote the same. So the two gaps are the whole difference
(`writtenExactly_iff`).

Digits are only lost where the decimal has more than 22 places. The digits lost
begin behind the 28th place and there are at most 18 of them, so the number is below
10^-10 (`abs_toRat_le_of_toNumeral`). With 22 places or fewer the decimal would then
have few digits, and of such a decimal nothing is lost (`exactBinary?_of_short`).
-/
import FilterQuery.Proofs.Approximation

namespace FilterQuery

open Binary64

/-! ## 1. Digits read as a decimal -/

namespace Decimal

/-- A decimal without its sign. -/
theorem abs_toRat (d : Decimal) : |d.toRat| = d.coefficient.natAbs * 10 ^ (-(d.scale : Int)) := by
  rw [toRat, abs_div, ← Int.cast_abs, Int.abs_eq_natAbs, Int.cast_natCast, cast_pow10,
    abs_of_pos (ten_pow_pos _), zpow_neg, div_eq_mul_inv]

theorem of_make? {c : Int} {s : Nat} {d : Decimal} (h : make? c s = some d) :
    d.coefficient = c ∧ d.scale = s := by
  unfold make? at h
  split at h
  · obtain rfl := Option.some.inj h
    exact ⟨rfl, rfl⟩
  · cases h

/-- What is read is what the digits of the fraction are taken to. -/
theorem of_ofNumeral? {n : Numeral} {d : Decimal} (h : ofNumeral? n = some d) :
    natOfDigits n.whole ≤ maxCoefficient ∧
      takeFraction (natOfDigits n.whole) 0 n.fraction = some (d.coefficient.natAbs, d.scale) := by
  unfold ofNumeral? at h
  dsimp only at h
  split at h
  · next hle =>
    split at h
    · next c s htake =>
      obtain ⟨hcoefficient, hscale⟩ := of_make? h
      rw [hcoefficient, hscale, htake]
      refine ⟨hle, ?_⟩
      split
      · rw [Int.natAbs_neg, Int.natAbs_natCast]
      · rw [Int.natAbs_natCast]
    · cases h
  · cases h

theorem fits_toNumeral {digits : Digits} (htrimmed : digits.IsTrimmed)
    (hplaces : -28 ≤ digits.exponent)
    (hwhole : 0 < digits.exponent → digits.digits * pow10 digits.exponent.toNat ≤ maxCoefficient)
    (negative : Bool) : (digits.toNumeral negative).Fits := by
  have hlength := digits.length_fraction_toNumeral negative
  refine ⟨digits.isWritten_toNumeral negative, by omega, ?_⟩
  rw [digits.natOfDigits_toNumeral]
  rcases le_or_gt digits.exponent 0 with hfraction | hpos
  · rw [show digits.exponent.toNat = 0 by omega, show pow10 0 = 1 from rfl, Nat.mul_one]
    exact Nat.le_trans htrimmed.digits_le (by decide)
  · exact hwhole hpos

/-- Digits that reach no further than 28 places are read as they are. -/
theorem toRat_of_toNumeral {digits : Digits} (htrimmed : digits.IsTrimmed)
    (hplaces : -28 ≤ digits.exponent) {negative : Bool} {back : Decimal}
    (h : ofNumeral? (digits.toNumeral negative) = some back) :
    back.toRat = (if negative then -1 else 1) * digits.toRat := by
  have hwhole : 0 < digits.exponent →
      digits.digits * pow10 digits.exponent.toNat ≤ maxCoefficient := by
    -- a whole number that is too large is not read at all
    intro hpos
    have hnil : (digits.toNumeral negative).fraction = [] := by
      refine List.length_eq_zero_iff.mp ?_
      rw [digits.length_fraction_toNumeral]
      omega
    have hdigits := digits.natOfDigits_toNumeral negative
    rw [hnil, List.append_nil] at hdigits
    rw [← hdigits]
    exact (of_ofNumeral? h).1
  obtain ⟨d, hd, hnumber⟩ := (fits_toNumeral htrimmed hplaces hwhole negative).ofNumeral?
  obtain rfl := Option.some.inj (hd.symm.trans h)
  rw [hnumber, digits.toRat_toNumeral]

theorem toRat_eq_abs {d : Decimal} {digits : Digits} {negative : Bool}
    (h : (if negative then -1 else 1) * digits.toRat = d.toRat) : digits.toRat = |d.toRat| := by
  rw [← h, abs_mul, abs_of_nonneg digits.toRat_nonneg]
  split
  · rw [abs_neg, abs_one, one_mul]
  · rw [abs_one, one_mul]

/-- Digits with no zero at the end that denote a decimal reach no further than it does. -/
theorem exponent_of_toRat_eq {d : Decimal} {digits : Digits} (htrimmed : digits.IsTrimmed)
    {negative : Bool} (h : (if negative then -1 else 1) * digits.toRat = d.toRat) :
    -28 ≤ digits.exponent := by
  by_contra hlt
  have hscale : d.scale ≤ 28 := d.scale_le
  obtain ⟨k, hk⟩ : ∃ k : Nat, -digits.exponent - d.scale = (k + 1 : Nat) :=
    ⟨(-digits.exponent - d.scale).toNat - 1, by omega⟩
  have hnumber : digits.toRat = d.coefficient.natAbs * 10 ^ (-(d.scale : Int)) := by
    rw [toRat_eq_abs h, abs_toRat]
  have hdigits : digits.digits = d.coefficient.natAbs * 10 ^ k * 10 := by
    have hcast : (digits.digits : Rat) = d.coefficient.natAbs * 10 ^ ((k + 1 : Nat) : Int) := by
      calc (digits.digits : Rat)
          = digits.toRat * 10 ^ (-digits.exponent) := by
            rw [Digits.toRat, mul_assoc, ← zpow_add₀ (by norm_num), add_neg_cancel, zpow_zero,
              mul_one]
        _ = d.coefficient.natAbs * 10 ^ (-(d.scale : Int) + -digits.exponent) := by
            rw [hnumber, mul_assoc, ← zpow_add₀ (by norm_num)]
        _ = d.coefficient.natAbs * 10 ^ ((k + 1 : Nat) : Int) := by rw [← hk]; congr 2; omega
    rw [zpow_natCast, pow_succ, ← mul_assoc] at hcast
    exact_mod_cast hcast
  have hzero := htrimmed.eq_zero (by rw [hdigits, Nat.mul_mod_left])
  rw [hzero] at hlt
  exact hlt (by decide)

/-- Reading a fraction to its end moves what has been read by five units at most. -/
theorem le_of_takeFraction {cs : List Char} (hcs : ∀ ch ∈ cs, ch.isDigit = true) {c s c' s' : Nat}
    (h : takeFraction c s cs = some (c', s')) : c' * pow10 s ≤ (c + 5) * pow10 s' := by
  induction cs generalizing c s with
  | nil =>
    obtain ⟨rfl, rfl⟩ := Prod.mk.inj (Option.some.inj h)
    exact Nat.mul_le_mul_right _ (Nat.le_add_right _ _)
  | cons ch cs ih =>
    obtain ⟨hch, hcs⟩ := List.forall_mem_cons.mp hcs
    unfold takeFraction at h
    dsimp only at h
    split at h
    · have hnext := ih hcs h
      have hvalue : digitValue ch ≤ 9 :=
        Nat.sub_le_sub_right (Char.isDigit_iff_toNat.mp hch).2 '0'.toNat
      rw [pow10_succ, ← Nat.mul_assoc] at hnext
      refine Nat.le_of_mul_le_mul_right (Nat.le_trans hnext ?_) (by decide : 0 < 10)
      rw [Nat.mul_right_comm]
      exact Nat.mul_le_mul_right _ (by omega)
    · unfold roundOff at h
      split at h
      · obtain ⟨rfl, rfl⟩ := Prod.mk.inj (Option.some.inj h)
        exact Nat.mul_le_mul_right _ (Nat.le_add_right _ _)
      · split at h
        · obtain ⟨rfl, rfl⟩ := Prod.mk.inj (Option.some.inj h)
          exact Nat.mul_le_mul_right _ (by omega)
        · split at h
          · cases h
          · next hscale =>
            obtain ⟨rfl, rfl⟩ := Prod.mk.inj (Option.some.inj h)
            obtain ⟨k, rfl⟩ := Nat.exists_eq_succ_of_ne_zero hscale
            rw [pow10_succ, Nat.mul_comm (pow10 k), ← Nat.mul_assoc]
            exact Nat.mul_le_mul_right _ (Nat.div_mul_le_self _ _)

/-- Zeros in front of a fraction only count for the scale. -/
theorem takeFraction_zeros (cs : List Char) {s : Nat} (k : Nat) (h : s + k ≤ maxScale) :
    takeFraction 0 s (List.replicate k '0' ++ cs) = takeFraction 0 (s + k) cs := by
  induction k generalizing s with
  | zero => rfl
  | succ k ih =>
    have htaken : s < maxScale ∧ 0 * 10 + digitValue '0' ≤ maxCoefficient := ⟨by omega, by decide⟩
    rw [List.replicate_succ, List.cons_append, takeFraction, if_pos htaken]
    rw [show 0 * 10 + digitValue '0' = 0 from rfl, ih (by omega), Nat.add_right_comm, Nat.add_assoc]

/-- Digits that reach further than 28 places are read as a number below 10^-10. -/
theorem abs_toRat_le_of_toNumeral {digits : Digits} (htrimmed : digits.IsTrimmed)
    (hplaces : digits.exponent < -28) {negative : Bool} {back : Decimal}
    (h : ofNumeral? (digits.toNumeral negative) = some back) : |back.toRat| ≤ 5 / 10 ^ 11 := by
  have hlength : (digitsOf digits.digits).length ≤ 18 :=
    (Nat.length_toDigits_le_iff (by decide) (by decide)).mpr
      (Nat.lt_of_le_of_lt htrimmed.digits_le (by decide))
  obtain ⟨k, hk⟩ : ∃ k, (-digits.exponent).toNat - (digitsOf digits.digits).length = 11 + k :=
    ⟨_, (Nat.add_sub_of_le (by omega)).symm⟩
  have hnumeral : digits.toNumeral negative =
      ⟨negative, ['0'], List.replicate 11 '0' ++ (List.replicate k '0' ++ digitsOf digits.digits)⟩ := by
    unfold Digits.toNumeral
    dsimp only
    rw [if_neg (by omega), if_neg (by omega), hk, List.replicate_add, List.append_assoc]
  have hwritten := digits.isWritten_toNumeral negative
  rw [hnumeral] at h hwritten
  have htake := (of_ofNumeral? h).2
  have hzeros := takeFraction_zeros (List.replicate k '0' ++ digitsOf digits.digits) 11
    (show 0 + 11 ≤ maxScale by decide)
  rw [show natOfDigits ['0'] = 0 from rfl, hzeros] at htake
  have hle := le_of_takeFraction
    (fun ch hch => hwritten.isDigit_fraction ch (List.mem_append_right _ hch)) htake
  rw [Nat.zero_add, Nat.zero_add] at hle
  have hcast : (back.coefficient.natAbs : Rat) * 10 ^ (11 : Int) ≤ 5 * 10 ^ (back.scale : Int) := by
    have h := Nat.cast_le (α := Rat).mpr hle
    rwa [Nat.cast_mul, Nat.cast_mul, cast_pow10, cast_pow10, Nat.cast_ofNat, Nat.cast_ofNat] at h
  rw [abs_toRat, zpow_neg, ← div_eq_mul_inv, div_le_div_iff₀ (ten_pow_pos _) (by norm_num)]
  exact_mod_cast hcast

/-! ## 2. Which decimals are written exactly -/

/-- Whether a decimal is written as its text, or as a JSON number that denotes just the number
of the decimal. -/
def WrittenExactly (d : Decimal) : Prop :=
  (Value.decimal d).toJson = .string d.text ∨
    Json.numberOf? (Value.decimal d).toJson.compact = some d.toRat

theorem numberOf?_real (x : Binary64) : Json.numberOf? (Json.real x).compact =
    some ((if x.significand < 0 then -1 else 1) * (shortest .even x).toRat) := by
  rw [← Json.numberOf?_realText]
  simp [Json.compact, Json.compactOnto, Json.atomText]

/-- A JSON number is exact if its digits reach no further than a decimal can, and are the
digits that the decimal was compared with. -/
theorem numberOf?_real_iff {d : Decimal} {x : Binary64} (hx : d.exactBinary? = some x) :
    Json.numberOf? (Json.real x).compact = some d.toRat ↔
      -28 ≤ (shortest .away x).exponent ∧ shortest .even x = shortest .away x := by
  obtain ⟨_, back, hback, hnumber⟩ := of_exactBinary? hx
  have hread (hplaces : -28 ≤ (shortest .away x).exponent) :
      (if x.significand < 0 then -1 else 1) * (shortest .away x).toRat = d.toRat := by
    have h := toRat_of_toNumeral (isTrimmed_shortest .away x) hplaces hback
    simp only [decide_eq_true_eq] at h
    rw [← h, hnumber]
  rw [numberOf?_real, Option.some_inj]
  constructor
  · intro h
    have hsigned : (if decide (x.significand < 0) then -1 else 1) * (shortest .even x).toRat =
        d.toRat := by simpa only [decide_eq_true_eq] using h
    have hplaces := exponent_of_toRat_eq (isTrimmed_shortest .even x) hsigned
    rcases shortest_even_cases x with heq | ⟨low, e, heven, haway⟩
    · exact ⟨heq ▸ hplaces, heq⟩
    · -- two neighbours do not denote one number
      rw [heven] at hplaces
      have hboth := hread (by rwa [haway])
      have hsign : (if x.significand < 0 then (-1 : Rat) else 1) ≠ 0 := by split <;> norm_num
      have hsame := mul_left_cancel₀ hsign (hboth.trans h.symm)
      rw [haway, heven] at hsame
      have hdigits : low + 1 = low := by
        exact_mod_cast mul_right_cancel₀ (ten_pow_pos e).ne' hsame
      omega
  · rintro ⟨hplaces, heq⟩
    rw [heq, hread hplaces]

/-- **A decimal is written exactly unless a digit is lost or a tie is broken differently.** -/
theorem writtenExactly_iff (d : Decimal) : d.WrittenExactly ↔
    ∀ x, d.exactBinary? = some x →
      -28 ≤ (shortest .away x).exponent ∧ shortest .even x = shortest .away x := by
  unfold WrittenExactly
  rcases Value.toJson_decimal_cases d with ⟨x, hx, hjson⟩ | hjson
  · rw [hjson, numberOf?_real_iff hx]
    constructor
    · rintro (h | h) y hy
      · cases h
      · obtain rfl := Option.some.inj (hx.symm.trans hy)
        exact h
    · exact fun h => .inr (h x hx)
  · refine ⟨fun _ x hx => ?_, fun _ => .inl hjson⟩
    simp only [Value.toJson, hx] at hjson
    cases hjson

/-! ## 3. Short decimals -/

section Short

variable {d : Decimal} (hcoefficient : d.coefficient.natAbs < 10 ^ 15) (hscale : d.scale ≤ 22)

include hcoefficient hscale

theorem toRat_shortest_of_short (tie : Tie) :
    (if decide (d.approximate.significand < 0) then -1 else 1) *
      (shortest tie d.approximate).toRat = d.toRat := by
  simpa only [decide_eq_true_eq] using toRat_shortest_approximate tie hcoefficient hscale

/-- The approximation of a short decimal leads back to it. -/
theorem exactBinary?_of_short : d.exactBinary? = some d.approximate := by
  have hnumber := toRat_shortest_of_short hcoefficient hscale .away
  have htrimmed := isTrimmed_shortest .away d.approximate
  have hplaces := exponent_of_toRat_eq htrimmed hnumber
  have hwhole : 0 < (shortest .away d.approximate).exponent →
      (shortest .away d.approximate).digits *
        pow10 (shortest .away d.approximate).exponent.toNat ≤ maxCoefficient := by
    intro hpos
    have habs := (toRat_eq_abs hnumber).trans d.abs_toRat
    have hle : (d.coefficient.natAbs : Rat) * 10 ^ (-(d.scale : Int)) ≤ d.coefficient.natAbs :=
      mul_le_of_le_one_right (Nat.cast_nonneg _) (zpow_le_one_of_nonpos₀ (by norm_num) (by omega))
    rw [← habs, Digits.toRat, ← Int.toNat_of_nonneg hpos.le, ← cast_pow10] at hle
    exact Nat.le_trans (by exact_mod_cast hle) d.coefficient_le
  obtain ⟨back, hback, hvalue⟩ := (fits_toNumeral htrimmed hplaces hwhole
    (decide (d.approximate.significand < 0))).ofNumeral?
  have hsame : back.sameNumber d = true := by
    rw [sameNumber_iff, hvalue, Digits.toRat_toNumeral, hnumber]
  simp only [exactBinary?, Binary64.toNumeral, hback, hsame, if_true]

end Short

/-- With up to 22 digits behind the point no digit is lost. -/
theorem exponent_of_scale_le {d : Decimal} (hscale : d.scale ≤ 22) {x : Binary64}
    (hx : d.exactBinary? = some x) : -28 ≤ (shortest .away x).exponent := by
  by_contra hlt
  -- the number would be so small that the decimal has few digits
  obtain ⟨_, back, hback, hnumber⟩ := of_exactBinary? hx
  have hsmall := abs_toRat_le_of_toNumeral (isTrimmed_shortest .away x) (not_le.mp hlt) hback
  rw [hnumber, abs_toRat] at hsmall
  have hcoefficient : d.coefficient.natAbs < 10 ^ 15 := by
    have hunit : (10 : Rat) ^ (d.scale : Int) ≤ 10 ^ (22 : Int) :=
      zpow_le_zpow_right₀ (by norm_num) (by omega)
    rw [zpow_neg, ← div_eq_mul_inv, div_le_iff₀ (ten_pow_pos _)] at hsmall
    norm_num at hsmall hunit
    have hless : (d.coefficient.natAbs : Rat) < 10 ^ 15 := by
      norm_num
      linarith
    exact_mod_cast hless
  obtain rfl := Option.some.inj ((exactBinary?_of_short hcoefficient hscale).symm.trans hx)
  exact hlt (exponent_of_toRat_eq (isTrimmed_shortest .away _)
    (toRat_shortest_of_short hcoefficient hscale .away))

/-! ## 4. How exact the JSON is -/

/-- **When a decimal is written exactly.**

* A decimal is written as its text, or as a JSON number that denotes just the decimal, unless
  one of two things happens. The fewest digits of the approximation may reach further than 28
  places, so that digits were lost when it was compared with the decimal. Or the approximation
  lies halfway between two ways to write it, and the JSON takes the one that was not compared.
* No digit is lost if the decimal has up to 22 digits behind the point.
* With up to fifteen digits in all and up to 22 behind the point, it is a JSON number, and
  exact. -/
theorem exactness_of_json (d : Decimal) :
    (d.WrittenExactly ↔ ∀ x, d.exactBinary? = some x →
      -28 ≤ (shortest .away x).exponent ∧ shortest .even x = shortest .away x) ∧
    (d.scale ≤ 22 → ∀ x, d.exactBinary? = some x → -28 ≤ (shortest .away x).exponent) ∧
    (d.coefficient.natAbs < 10 ^ 15 → d.scale ≤ 22 →
      Json.numberOf? (Value.decimal d).toJson.compact = some d.toRat) := by
  refine ⟨writtenExactly_iff d, fun hscale _ hx => exponent_of_scale_le hscale hx, ?_⟩
  intro hcoefficient hscale
  have hx := exactBinary?_of_short hcoefficient hscale
  have hjson : (Value.decimal d).toJson = .real d.approximate := by simp only [Value.toJson, hx]
  rw [hjson, numberOf?_real, toRat_shortest_approximate .even hcoefficient hscale]

/-- A tenth is short, so its JSON is a number and denotes a tenth. -/
theorem exactness_of_json_tenth :
    let tenth : Decimal := ⟨1, 1, by decide, by decide⟩
    tenth.coefficient.natAbs < 10 ^ 15 ∧ tenth.scale ≤ 22 ∧
      Json.numberOf? (Value.decimal tenth).toJson.compact = some tenth.toRat := by
  intro tenth
  have hcoefficient : tenth.coefficient.natAbs < 10 ^ 15 := by decide
  have hscale : tenth.scale ≤ 22 := by decide
  exact ⟨hcoefficient, hscale, (exactness_of_json tenth).2.2 hcoefficient hscale⟩

/-- Both things happen. The approximation of 10^-28 is written with 44 digits behind the point,
and they are rounded off where it is read. That of 2^50 + 3 / 10 is 2^50 + 1 / 4, for which one
digit behind the point may be 2 as well as 3. -/
theorem not_writtenExactly :
    (∃ d : Decimal, d.text = "0.0000000000000000000000000001" ∧
      (Value.decimal d).toJson.compact = "1.0000000000000001e-28" ∧ ¬d.WrittenExactly) ∧
    ∃ d : Decimal, d.text = "1125899906842624.3" ∧
      (Value.decimal d).toJson.compact = "1125899906842624.2" ∧ ¬d.WrittenExactly := by
  let tiny : Decimal := ⟨1, 28, by decide, by decide⟩
  let halfway : Decimal := ⟨11258999068426243, 1, by decide, by decide⟩
  have htiny : tiny.exactBinary? = some tiny.approximate := by decide +kernel
  have hhalfway : halfway.exactBinary? = some halfway.approximate := by decide +kernel
  refine ⟨⟨tiny, by decide +kernel, by decide +kernel, fun h => ?_⟩,
    ⟨halfway, by decide +kernel, by decide +kernel, fun h => ?_⟩⟩
  · exact absurd ((writtenExactly_iff tiny).mp h _ htiny) (by decide +kernel)
  · exact absurd ((writtenExactly_iff halfway).mp h _ hhalfway) (by decide +kernel)

end Decimal

end FilterQuery
