/-
FilterQuery.Proofs.ShortestDigits — which digits the fewest digits are.

The search goes from the place of the first digit to finer places and stops at the
first that is hit, which means that one of the two decimals next to the number
rounds to it. Three things follow.

* A hit with a zero at the end would have been a hit one place earlier, because
  the decimals of a coarser place are among those of a finer one
  (`hit?_succ_ne_none`). So the digits found end with no zero
  (`isTrimmed_shortest`).
* The two ways to break a tie are hit at the same places. They give the same
  digits, or two neighbours at one place (`shortest_even_cases`).
* On a grid that is coarser than the last binary place, only one number can lie in
  the interval that rounds to a binary number. If there is one, it is found
  (`toRat_shortestPositive_of_grid`). That is so for up to fifteen digits, whatever
  their place is (`toRat_shortest_nearest`).
-/
import FilterQuery.Proofs.Digits
import FilterQuery.Proofs.Nearest

namespace FilterQuery

/-! ## 1. The place of the first digit -/

theorem ten_pow_pos (e : Int) : (0 : Rat) < 10 ^ e := zpow_pos (by norm_num) e

theorem ten_pow_succ (e : Int) : (10 : Rat) ^ (e + 1) = 10 * 10 ^ e := by
  rw [zpow_add_one₀ (by norm_num), mul_comm]

/-- A number lies between the powers of ten that its count of digits gives. -/
theorem length_digitsOf_bounds {n : Nat} (hn : 0 < n) :
    (10 : Rat) ^ (((digitsOf n).length : Int) - 1) ≤ n ∧
      (n : Rat) + 1 ≤ 10 ^ ((digitsOf n).length : Int) := by
  obtain ⟨k, hk⟩ : ∃ k, (digitsOf n).length = k + 1 :=
    Nat.exists_eq_add_one.mpr (List.length_pos_iff.mpr (digitsOf_ne_nil n))
  have hlow : 10 ^ k ≤ n := by
    rcases Nat.eq_zero_or_pos k with rfl | hpos
    · exact hn
    · refine Nat.not_lt.mp fun hlt => ?_
      have hle : (digitsOf n).length ≤ k := (Nat.length_toDigits_le_iff (by decide) hpos).mpr hlt
      omega
  have hhigh : n < 10 ^ (k + 1) :=
    (Nat.length_toDigits_le_iff (by decide) (Nat.succ_pos k)).mp (Nat.le_of_eq hk)
  rw [hk, Nat.cast_add_one, add_sub_cancel_right, zpow_natCast]
  exact ⟨by exact_mod_cast hlow, by exact_mod_cast hhigh⟩

namespace Binary64

/-- The magnitude of a number is the power of ten of its first digit. -/
theorem magnitudeOf_bounds {q : Rat} (hq : 0 < q) :
    (10 : Rat) ^ magnitudeOf q ≤ q ∧ q < 10 ^ (magnitudeOf q + 1) := by
  unfold magnitudeOf
  split
  · next hone =>
    have hfloor : 1 ≤ q.floor := Rat.le_floor_iff.mpr (by exact_mod_cast hone)
    have hcast : ((q.floor.toNat : Nat) : Rat) = q.floor := by
      exact_mod_cast congrArg (Int.cast (R := Rat)) (Int.toNat_of_nonneg (by omega : 0 ≤ q.floor))
    obtain ⟨hlow, hhigh⟩ := @length_digitsOf_bounds q.floor.toNat (by omega)
    have hle := Rat.floor_le q
    have hlt := Rat.lt_floor_add_one q
    push_cast at hlt
    rw [sub_add_cancel]
    constructor
    · linarith
    · linarith
  · next hone =>
    have hinv : 1 < 1 / q := by rwa [lt_div_iff₀ hq, one_mul, ← not_le]
    have hceil : 1 < (1 / q).ceil := Rat.lt_ceil_iff.mpr (by exact_mod_cast hinv)
    have hcast : (((1 / q).ceil.toNat - 1 : Nat) : Rat) = (1 / q).ceil - 1 := by
      have h : (((1 / q).ceil.toNat - 1 : Nat) : Int) = (1 / q).ceil - 1 := by omega
      exact_mod_cast congrArg (Int.cast (R := Rat)) h
    obtain ⟨hlow, hhigh⟩ := @length_digitsOf_bounds ((1 / q).ceil.toNat - 1) (by omega)
    have hle := @Rat.le_ceil (1 / q)
    have hlt := @Rat.ceil_lt (1 / q)
    generalize ((digitsOf ((1 / q).ceil.toNat - 1)).length : Int) = l at hlow hhigh
    constructor
    · rw [zpow_neg, inv_le_comm₀ (ten_pow_pos _) hq, ← one_div]
      linarith
    · rw [show -l + 1 = -(l - 1) by omega, zpow_neg, lt_inv_comm₀ hq (ten_pow_pos _), ← one_div]
      linarith

/-! ## 2. Hits -/

/-- The digits up to a place of the greatest decimal that is no greater than a number. -/
def digitsBelow (x : Binary64) (e : Int) : Nat := (x.toRat / (10 : Rat) ^ e).floor.toNat

/-- Whether some digits, with the last of them at a place, name a number. -/
def Names (x : Binary64) (e : Int) (n : Nat) : Prop :=
  inInterval x (Digits.toRat ⟨n, e⟩) = true

/-- What the answer at a place is. None of the two decimals next to the number names it, or one
of them is hit whichever way ties are broken, or both are equally near and the lower one is
even. -/
theorem hit?_cases (x : Binary64) (e : Int) :
    ((∀ tie, hit? tie x e = none) ∧
      ¬Names x e (digitsBelow x e) ∧ ¬Names x e (digitsBelow x e + 1)) ∨
    ((∀ tie, hit? tie x e = some ⟨digitsBelow x e, e⟩) ∧ Names x e (digitsBelow x e)) ∨
    ((∀ tie, hit? tie x e = some ⟨digitsBelow x e + 1, e⟩) ∧ Names x e (digitsBelow x e + 1)) ∨
    Names x e (digitsBelow x e) ∧ Names x e (digitsBelow x e + 1) ∧ digitsBelow x e % 2 = 0 ∧
      hit? .even x e = some ⟨digitsBelow x e, e⟩ ∧
      hit? .away x e = some ⟨digitsBelow x e + 1, e⟩ := by
  unfold hit? Names digitsBelow
  dsimp only
  generalize (x.toRat / (10 : Rat) ^ e).floor.toNat = low
  cases hlow : inInterval x (Digits.toRat ⟨low, e⟩) with
  | false =>
    cases hnext : inInterval x (Digits.toRat ⟨low + 1, e⟩) with
    | false => exact .inl ⟨fun _ => rfl, Bool.false_ne_true, Bool.false_ne_true⟩
    | true => exact .inr (.inr (.inl ⟨fun _ => rfl, rfl⟩))
  | true =>
    cases hnext : inInterval x (Digits.toRat ⟨low + 1, e⟩) with
    | false => exact .inr (.inl ⟨fun _ => rfl, rfl⟩)
    | true =>
      dsimp only
      split
      · exact .inr (.inl ⟨fun _ => rfl, rfl⟩)
      · split
        · exact .inr (.inr (.inl ⟨fun _ => rfl, rfl⟩))
        · split
          · next heven => exact .inr (.inr (.inr ⟨rfl, rfl, heven, rfl, rfl⟩))
          · refine .inr (.inr (.inl ⟨fun tie => ?_, rfl⟩))
            cases tie with
            | away => rfl
            | even => rfl

/-- What is hit is one of the two neighbours, and names the number. -/
theorem of_hit?_eq_some {tie : Tie} {x : Binary64} {e : Int} {d : Digits}
    (h : hit? tie x e = some d) : d.exponent = e ∧ Names x e d.digits ∧
      (d.digits = digitsBelow x e ∨ d.digits = digitsBelow x e + 1) := by
  rcases hit?_cases x e with ⟨hnone, _⟩ | ⟨hbelow, hname⟩ | ⟨habove, hname⟩ |
    ⟨hlow, hnext, _, heven, haway⟩
  · rw [hnone tie] at h
    cases h
  · rw [hbelow tie] at h
    cases h
    exact ⟨rfl, hname, .inl rfl⟩
  · rw [habove tie] at h
    cases h
    exact ⟨rfl, hname, .inr rfl⟩
  · cases tie with
    | away =>
      rw [haway] at h
      cases h
      exact ⟨rfl, hnext, .inr rfl⟩
    | even =>
      rw [heven] at h
      cases h
      exact ⟨rfl, hlow, .inl rfl⟩

/-- Whether a place is hit does not depend on how ties are broken. -/
theorem hit?_eq_none_iff {tie : Tie} {x : Binary64} {e : Int} : hit? tie x e = none ↔
    ¬Names x e (digitsBelow x e) ∧ ¬Names x e (digitsBelow x e + 1) := by
  rcases hit?_cases x e with ⟨hnone, hnames⟩ | ⟨hbelow, hname⟩ | ⟨habove, hname⟩ |
    ⟨hlow, _, _, heven, haway⟩
  · exact iff_of_true (hnone tie) hnames
  · exact iff_of_false (hbelow tie ▸ Option.some_ne_none _) fun h => h.1 hname
  · exact iff_of_false (habove tie ▸ Option.some_ne_none _) fun h => h.2 hname
  · refine iff_of_false ?_ fun h => h.1 hlow
    cases tie with
    | away => exact haway ▸ Option.some_ne_none _
    | even => exact heven ▸ Option.some_ne_none _

theorem hit?_ne_none {tie : Tie} {x : Binary64} {e : Int} {n : Nat} (hn : Names x e n)
    (hnext : n = digitsBelow x e ∨ n = digitsBelow x e + 1) : hit? tie x e ≠ none := by
  rw [Ne, hit?_eq_none_iff]
  rintro ⟨hlow, hhigh⟩
  rcases hnext with rfl | rfl
  · exact hlow hn
  · exact hhigh hn

/-- At the next coarser place, the last digit is left out. -/
theorem digitsBelow_succ (x : Binary64) (e : Int) :
    digitsBelow x (e + 1) = digitsBelow x e / 10 := by
  have hnest : (x.toRat / (10 : Rat) ^ (e + 1)).floor = (x.toRat / (10 : Rat) ^ e).floor / 10 := by
    have h := Int.floor_div_natCast (x.toRat / (10 : Rat) ^ e) 10
    rw [div_div, mul_comm] at h
    rw [ten_pow_succ]
    exact_mod_cast h
  unfold digitsBelow
  rw [hnest]
  omega

/-- A zero at the end may be left out. -/
theorem Digits.toRat_div_ten {e : Int} {n : Nat} (hzero : n % 10 = 0) :
    Digits.toRat ⟨n / 10, e + 1⟩ = Digits.toRat ⟨n, e⟩ := by
  have hdigits : (n : Rat) = (n / 10 : Nat) * 10 := by
    exact_mod_cast (Nat.div_mul_cancel (Nat.dvd_of_mod_eq_zero hzero)).symm
  simp only [Digits.toRat]
  rw [hdigits, ten_pow_succ, mul_assoc]

/-- Where a place is hit by a number with a zero at the end, so is the next coarser one. -/
theorem hit?_succ_ne_none {tie : Tie} {x : Binary64} {e : Int} {n : Nat} (hn : Names x e n)
    (hnext : n = digitsBelow x e ∨ n = digitsBelow x e + 1) (hzero : n % 10 = 0) :
    hit? tie x (e + 1) ≠ none := by
  have hname : Names x (e + 1) (n / 10) := by
    unfold Names
    rwa [Digits.toRat_div_ten hzero]
  refine hit?_ne_none hname ?_
  rw [digitsBelow_succ]
  omega

/-! ## 3. The first hit -/

/-- The first answer of a search over the first few numbers. -/
theorem findSome?_range_eq_some {α : Type} {f : Nat → Option α} {k : Nat} {a : α} :
    (List.range k).findSome? f = some a ↔ ∃ n < k, f n = some a ∧ ∀ m < n, f m = none := by
  induction k with
  | zero => simp
  | succ k ih =>
    rw [List.range_succ, List.findSome?_append, List.findSome?_singleton]
    constructor
    · intro h
      cases hfirst : (List.range k).findSome? f with
      | some b =>
        rw [hfirst, Option.some_or] at h
        obtain ⟨n, hn, hf, hnone⟩ := ih.mp (hfirst.trans h)
        exact ⟨n, Nat.lt_succ_of_lt hn, hf, hnone⟩
      | none =>
        rw [hfirst, Option.none_or] at h
        exact ⟨k, Nat.lt_succ_self k, h, fun m hm =>
          List.findSome?_eq_none_iff.mp hfirst m (List.mem_range.mpr hm)⟩
    · rintro ⟨n, hn, hf, hnone⟩
      rcases Nat.lt_succ_iff_lt_or_eq.mp hn with hlt | rfl
      · rw [ih.mpr ⟨n, hlt, hf, hnone⟩, Option.some_or]
      · have hfirst : (List.range n).findSome? f = none :=
          List.findSome?_eq_none_iff.mpr fun m hm => hnone m (List.mem_range.mp hm)
        rw [hfirst, Option.none_or, hf]

variable {x : Binary64}

theorem toRat_pos (hx : 0 < x.significand) : 0 < x.toRat :=
  mul_pos (Int.cast_pos.mpr hx) (two_pow_pos _)

/-- So many places behind the first one, a number has just one digit more than that. -/
theorem digitsBelow_bounds (hx : 0 < x.significand) (n : Nat) :
    10 ^ n ≤ digitsBelow x (magnitudeOf x.toRat - n) ∧
      digitsBelow x (magnitudeOf x.toRat - n) < 10 ^ (n + 1) := by
  obtain ⟨hlow, hhigh⟩ := magnitudeOf_bounds (toRat_pos hx)
  unfold digitsBelow
  generalize magnitudeOf x.toRat = top at hlow hhigh ⊢
  have hpos := ten_pow_pos (top - n)
  have hcast (k : Nat) : (((10 ^ k : Nat) : Int) : Rat) * 10 ^ (top - n) = 10 ^ (k + (top - n)) := by
    rw [zpow_add₀ (by norm_num), zpow_natCast]
    norm_num
  have hleast : ((10 ^ n : Nat) : Int) ≤ (x.toRat / (10 : Rat) ^ (top - n)).floor := by
    rwa [Rat.le_floor_iff, le_div_iff₀ hpos, hcast, add_sub_cancel]
  have hmost : (x.toRat / (10 : Rat) ^ (top - n)).floor < ((10 ^ (n + 1) : Nat) : Int) := by
    rw [Rat.floor_lt_iff, div_lt_iff₀ hpos, hcast]
    rwa [show ((n + 1 : Nat) : Int) + (top - n) = top + 1 by omega]
  omega

/-- The digits of the first hit end with no zero, unless one digit was asked for and ten was
hit. -/
theorem digits_of_firstHit {tie : Tie} (hx : 0 < x.significand) {n : Nat} (hn : n < 17)
    (hfirst : ∀ m < n, hit? tie x (magnitudeOf x.toRat - m) = none) {m : Nat}
    (hm : Names x (magnitudeOf x.toRat - n) m)
    (hnext : m = digitsBelow x (magnitudeOf x.toRat - n) ∨
      m = digitsBelow x (magnitudeOf x.toRat - n) + 1) :
    m ≤ 10 ^ 17 ∧ (m % 10 = 0 → n = 0 ∧ m = 10) := by
  obtain ⟨hleast, hmost⟩ := digitsBelow_bounds hx n
  have hpow : 10 ^ (n + 1) ≤ 10 ^ 17 := Nat.pow_le_pow_right (by decide) hn
  refine ⟨by omega, fun hzero => ?_⟩
  cases n with
  | zero => omega
  | succ n =>
    have hcoarser := @hit?_succ_ne_none tie _ _ _ hm hnext hzero
    rw [show magnitudeOf x.toRat - (n + 1 : Nat) + 1 = magnitudeOf x.toRat - n by omega] at hcoarser
    exact absurd (hfirst n (Nat.lt_succ_self n)) hcoarser

/-! ## 4. The fewest digits -/

/-- Whether digits are few, with no zero at the end. -/
structure Digits.IsTrimmed (d : Digits) : Prop where
  digits_le : d.digits ≤ 10 ^ 17
  eq_zero : d.digits % 10 = 0 → d = ⟨0, 0⟩

theorem Digits.toRat_nonneg (d : Digits) : 0 ≤ d.toRat :=
  mul_nonneg (Nat.cast_nonneg _) (ten_pow_pos _).le

theorem Digits.isTrimmed_zero : IsTrimmed ⟨0, 0⟩ := ⟨by decide, fun _ => rfl⟩

theorem isTrimmed_shortestPositive (tie : Tie) (hx : 0 < x.significand) :
    (shortestPositive tie x).IsTrimmed := by
  unfold shortestPositive
  dsimp only
  split
  · next d hd =>
    obtain ⟨n, hn, hhit, hfirst⟩ := findSome?_range_eq_some.mp hd
    obtain ⟨_, hname, hnext⟩ := of_hit?_eq_some hhit
    have hdigits := digits_of_firstHit hx hn hfirst hname hnext
    split
    · next hzero =>
      -- the ten of one digit is written as a one
      rw [(hdigits.2 hzero).2]
      exact ⟨(by decide : 10 / 10 ≤ 10 ^ 17), fun h => absurd h (by decide : ¬10 / 10 % 10 = 0)⟩
    · next hlast => exact ⟨hdigits.1, fun hzero => absurd hzero hlast⟩
  · exact Digits.isTrimmed_zero

/-- The two ways of breaking ties give the same digits, or two neighbours. -/
theorem shortestPositive_even_cases (hx : 0 < x.significand) :
    shortestPositive .even x = shortestPositive .away x ∨
      ∃ low e, shortestPositive .even x = ⟨low, e⟩ ∧ shortestPositive .away x = ⟨low + 1, e⟩ := by
  have hnone (e : Int) : hit? .away x e = none ↔ hit? .even x e = none :=
    hit?_eq_none_iff.trans hit?_eq_none_iff.symm
  unfold shortestPositive
  dsimp only
  generalize htop : magnitudeOf x.toRat = top
  cases heven : (List.range 17).findSome? fun (n : Nat) => hit? .even x (top - n) with
  | none =>
    have haway : (List.range 17).findSome? (fun (n : Nat) => hit? .away x (top - n)) = none :=
      List.findSome?_eq_none_iff.mpr fun n hn =>
        (hnone _).mpr (List.findSome?_eq_none_iff.mp heven n hn)
    rw [haway]
    exact .inl rfl
  | some d =>
    obtain ⟨n, hn, hhit, hfirst⟩ := findSome?_range_eq_some.mp heven
    have haway {d' : Digits} (h : hit? .away x (top - n) = some d') :
        (List.range 17).findSome? (fun (n : Nat) => hit? .away x (top - n)) = some d' :=
      findSome?_range_eq_some.mpr ⟨n, hn, h, fun m hm => (hnone _).mpr (hfirst m hm)⟩
    have hsame {d' : Digits} (h : ∀ tie, hit? tie x (top - n) = some d') :
        (List.range 17).findSome? (fun (n : Nat) => hit? .away x (top - n)) = some d := by
      rw [haway (h .away), ← h .even, hhit]
    rcases hit?_cases x (top - n) with ⟨h, _⟩ | ⟨h, _⟩ | ⟨h, _⟩ | ⟨_, _, hpar, hlow, hhigh⟩
    · rw [h .even] at hhit
      cases hhit
    · rw [hsame h]
      exact .inl rfl
    · rw [hsame h]
      exact .inl rfl
    · -- the lower neighbour is even, so neither of the two ends with a zero
      obtain rfl := Option.some.inj (hhit.symm.trans hlow)
      have hlast : digitsBelow x (top - n) % 10 ≠ 0 := by
        intro hzero
        subst htop
        obtain ⟨_, hname, hnext⟩ := of_hit?_eq_some hhit
        obtain ⟨rfl, hten⟩ := (digits_of_firstHit hx hn hfirst hname hnext).2 hzero
        exact absurd (digitsBelow_bounds hx 0).2 (Nat.not_lt.mpr hten.ge)
      rw [haway hhigh]
      refine .inr ⟨digitsBelow x (top - n), top - n, if_neg hlast, if_neg ?_⟩
      show ¬(digitsBelow x (top - n) + 1) % 10 = 0
      omega

/-- Without its sign, a number other than zero is positive. -/
theorem significand_pos (h : x.significand ≠ 0) :
    0 < (if x.significand < 0 then x.neg else x).significand := by
  split
  · next hneg => exact Int.neg_pos.mpr hneg
  · next hnonneg => omega

/-- The fewest digits of a number have no zero at the end. -/
theorem isTrimmed_shortest (tie : Tie) (x : Binary64) : (shortest tie x).IsTrimmed := by
  unfold shortest
  split
  · exact Digits.isTrimmed_zero
  · next hzero => exact isTrimmed_shortestPositive tie (significand_pos hzero)

/-- So do the fewest digits of any number. -/
theorem shortest_even_cases (x : Binary64) :
    shortest .even x = shortest .away x ∨
      ∃ low e, shortest .even x = ⟨low, e⟩ ∧ shortest .away x = ⟨low + 1, e⟩ := by
  unfold shortest
  split
  · exact .inl rfl
  · next hzero => exact shortestPositive_even_cases (significand_pos hzero)

theorem shortest_neg (tie : Tie) (x : Binary64) : shortest tie x.neg = shortest tie x := by
  have hneg : x.neg.neg = x := by
    unfold neg
    rw [Int.neg_neg]
  have hsignificand : x.neg.significand = -x.significand := rfl
  unfold shortest
  rw [hneg, hsignificand]
  split
  · next hzero => rw [if_pos (Int.neg_eq_zero.mp hzero)]
  · next hzero =>
    rw [if_neg (mt Int.neg_eq_zero.mpr hzero)]
    split
    · next hpos => rw [if_neg (by omega)]
    · next hneg => rw [if_pos (by omega)]

/-! ## 5. Numbers on a coarse grid -/

/-- A number on a grid is on every finer one as well. -/
theorem Digits.toRat_finer (n : Nat) {e e' : Int} (h : e ≤ e') :
    Digits.toRat ⟨n, e'⟩ = Digits.toRat ⟨n * 10 ^ (e' - e).toNat, e⟩ := by
  simp only [Digits.toRat]
  rw [Nat.cast_mul, Nat.cast_pow, ← zpow_natCast, mul_assoc, Nat.cast_ofNat,
    ← zpow_add₀ (by norm_num), Int.toNat_of_nonneg (by omega), sub_add_cancel]

/-- A number in the interval that lies on a grid coarser than the last binary place is found:
no other number of the grid lies in the interval. -/
theorem toRat_shortestPositive_of_grid (tie : Tie) (hx : 0 < x.significand) {c : Nat} {e : Int}
    (hname : Names x e c) (hcoarse : (2 : Rat) ^ x.exponent < 10 ^ e)
    (hle : e ≤ magnitudeOf x.toRat) (hnear : magnitudeOf x.toRat - e < 17) :
    (shortestPositive tie x).toRat = Digits.toRat ⟨c, e⟩ := by
  have hunit := ten_pow_pos e
  obtain ⟨hlow, hhigh⟩ := abs_le.mp (abs_sub_le_of_inInterval hname)
  have hwidth := two_pow_pos x.exponent
  simp only [Digits.toRat] at hlow hhigh
  -- every name at this place or a coarser one is the same number
  have hunique {n : Nat} {e' : Int} (he : e ≤ e') (hn : Names x e' n) :
      Digits.toRat ⟨n, e'⟩ = Digits.toRat ⟨c, e⟩ := by
    obtain ⟨hlow', hhigh'⟩ := abs_le.mp (abs_sub_le_of_inInterval hn)
    rw [Digits.toRat_finer n he] at hlow' hhigh' ⊢
    generalize n * 10 ^ (e' - e).toNat = k at hlow' hhigh' ⊢
    simp only [Digits.toRat] at hlow' hhigh'
    have hless : (k : Rat) < c + 1 := lt_of_mul_lt_mul_right (by linarith) hunit.le
    have hmore : (c : Rat) < k + 1 := lt_of_mul_lt_mul_right (by linarith) hunit.le
    have hsame : k = c := by
      have hless : k < c + 1 := by exact_mod_cast hless
      have hmore : c < k + 1 := by exact_mod_cast hmore
      omega
    rw [hsame]
  -- and the place itself is hit
  have hhit : hit? tie x e ≠ none := by
    refine hit?_ne_none hname ?_
    have hpos : 0 ≤ x.toRat / 10 ^ e := (div_pos (toRat_pos hx) hunit).le
    have hfloor : 0 ≤ (x.toRat / (10 : Rat) ^ e).floor :=
      Rat.le_floor_iff.mpr (by exact_mod_cast hpos)
    have hless : (x.toRat / (10 : Rat) ^ e).floor < (c : Int) + 1 := by
      rw [Rat.floor_lt_iff, div_lt_iff₀ hunit]
      push_cast
      linarith
    have hmore : (c : Int) - 1 ≤ (x.toRat / (10 : Rat) ^ e).floor := by
      rw [Rat.le_floor_iff, le_div_iff₀ hunit]
      push_cast
      linarith
    unfold digitsBelow
    omega
  unfold shortestPositive
  dsimp only
  cases hfind : (List.range 17).findSome? fun (n : Nat) => hit? tie x (magnitudeOf x.toRat - n) with
  | none =>
    have hnone := List.findSome?_eq_none_iff.mp hfind (magnitudeOf x.toRat - e).toNat
      (List.mem_range.mpr (by omega))
    rw [Int.toNat_of_nonneg (by omega), sub_sub_cancel] at hnone
    exact absurd hnone hhit
  | some d =>
    obtain ⟨n, _, hd, hfirst⟩ := findSome?_range_eq_some.mp hfind
    obtain ⟨hexponent, hdname, _⟩ := of_hit?_eq_some hd
    have hplace : e ≤ magnitudeOf x.toRat - n := by
      by_contra hfar
      have hnone := hfirst (magnitudeOf x.toRat - e).toNat (by omega)
      rw [Int.toNat_of_nonneg (by omega), sub_sub_cancel] at hnone
      exact hhit hnone
    rw [← hunique hplace hdname, ← hexponent]
    dsimp only
    split
    · next hzero => exact Digits.toRat_div_ten hzero
    · rfl

/-- **Up to fifteen digits come back from the nearest number.** -/
theorem toRat_shortest_nearest (tie : Tie) {c : Nat} (hpos : 0 < c) (hless : c < 10 ^ 15) (e : Int) :
    (shortest tie (nearest (Digits.toRat ⟨c, e⟩))).toRat = Digits.toRat ⟨c, e⟩ := by
  have hq : 0 < Digits.toRat ⟨c, e⟩ := mul_pos (Nat.cast_pos.mpr hpos) (ten_pow_pos e)
  have hnearest : nearest (Digits.toRat ⟨c, e⟩) = nearestPositive (Digits.toRat ⟨c, e⟩) := by
    unfold nearest
    rw [if_neg hq.ne', if_pos hq]
  have hhigh := (nearest_bounds hq.le).2
  have hx := significand_nearest_pos hq
  rw [hnearest] at hhigh hx ⊢
  have hnormal := isNormal_nearestPositive hq
  have hname := inInterval_nearestPositive hq
  generalize nearestPositive (Digits.toRat ⟨c, e⟩) = x at hhigh hx hnormal hname ⊢
  have hfilled : x.IsFilled := by
    cases hnormal with
    | zero => exact absurd hx (lt_irrefl 0)
    | filled h => exact h
  have hleast := hfilled.abs_toRat_bounds.1
  rw [abs_of_pos (toRat_pos hx)] at hleast
  obtain ⟨hfirst, hnext⟩ := magnitudeOf_bounds (toRat_pos hx)
  have hbound : Digits.toRat ⟨c, e⟩ < 10 ^ 15 * 10 ^ e :=
    mul_lt_mul_of_pos_right (by exact_mod_cast hless) (ten_pow_pos e)
  have hshortest : shortest tie x = shortestPositive tie x := by
    unfold shortest
    rw [if_neg hx.ne', if_neg hx.not_gt]
  rw [hshortest]
  norm_num [leastSignificand] at hleast hhigh hbound
  rcases le_total e (magnitudeOf x.toRat) with hle | hle
  · refine toRat_shortestPositive_of_grid tie hx hname (by linarith) hle ?_
    have hpow : (10 : Rat) ^ magnitudeOf x.toRat < 10 ^ (16 + e) := by
      rw [zpow_add₀ (by norm_num)]
      norm_num
      linarith
    have := (zpow_lt_zpow_iff_right₀ (by norm_num : (1 : Rat) < 10)).mp hpow
    omega
  · -- the number is below the place it ends at by a rounding, so the first digit is taken
    rw [Digits.toRat_finer c hle] at hname ⊢
    rw [ten_pow_succ] at hnext
    exact toRat_shortestPositive_of_grid tie hx hname (by linarith) le_rfl (by omega)

end Binary64

end FilterQuery
