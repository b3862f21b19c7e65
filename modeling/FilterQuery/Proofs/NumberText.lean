/-
FilterQuery.Proofs.NumberText — a JSON number denotes the digits it is written with.

A JSON number is read here by its grammar and not rounded at all: its digits
without the point are a whole number, and the point and the exponent say by
which power of ten it is to be multiplied (`Json.numberOf?`).

There are two written forms of a real number, one with an exponent and one
without. Both are cases of one: parts that are written one after the other
(`NumberParts.source`) and read back as they were, if no zero stands in front of
the digits (`readNumberParts_source`). So it does not matter to the number
denoted which of the two is chosen (`numberOf?_realText`).
-/
import FilterQuery.Proofs.ExactNumbers
import FilterQuery.Proofs.JsonText
import FilterQuery.Proofs.ShortestDigits

namespace FilterQuery

/-! ## 1. Digits with a point among them -/

theorem cast_pow10 (n : Nat) : ((pow10 n : Nat) : Rat) = 10 ^ (n : Int) := by
  rw [zpow_natCast]
  exact Nat.cast_pow 10 n

theorem natOfDigits_replicate_zero (n : Nat) : natOfDigits (List.replicate n '0') = 0 := by
  rw [natOfDigits_eq, Nat.ofDigitChars_replicate_zero, Nat.mul_zero]

theorem natOfDigits_replicate_zero_append (n : Nat) (ds : List Char) :
    natOfDigits (List.replicate n '0' ++ ds) = natOfDigits ds := by
  rw [natOfDigits_append, natOfDigits_replicate_zero, Nat.zero_mul, Nat.zero_add]

/-- No zero stands in front of a number. -/
theorem head?_digitsOf_ne_zero {n : Nat} (hn : 0 < n) : (digitsOf n).head? ≠ some '0' := by
  induction n using Nat.strongRecOn with
  | ind n ih =>
    unfold digitsOf at ih ⊢
    rw [Nat.toDigits_eq_if (by decide)]
    split
    · next hlt =>
      exact (by decide : ∀ n < 10, 0 < n → [n.digitChar].head? ≠ some '0') n hlt hn
    · next hge =>
      have hfirst := ih (n / 10) (by omega) (by omega)
      obtain ⟨c, cs, hcs⟩ := List.exists_cons_of_ne_nil (digitsOf_ne_nil (n / 10))
      unfold digitsOf at hcs
      rw [hcs] at hfirst ⊢
      exact hfirst

namespace Binary64.Digits

variable (d : Digits) (negative : Bool)

theorem length_fraction_toNumeral : (d.toNumeral negative).fraction.length = (-d.exponent).toNat := by
  unfold toNumeral
  dsimp only
  split
  · rw [List.length_nil]
    omega
  · split
    · rw [List.length_drop]
      omega
    · rw [List.length_append, List.length_replicate]
      omega

/-- The digits of a numeral, without its point. -/
theorem natOfDigits_toNumeral :
    natOfDigits ((d.toNumeral negative).whole ++ (d.toNumeral negative).fraction) =
      d.digits * pow10 d.exponent.toNat := by
  unfold toNumeral
  dsimp only
  split
  · rw [List.append_nil, natOfDigits_append, natOfDigits_digitsOf, natOfDigits_replicate_zero,
      List.length_replicate, Nat.add_zero]
  · next hneg =>
    rw [show d.exponent.toNat = 0 by omega, show pow10 0 = 1 from rfl, Nat.mul_one]
    split
    · rw [List.take_append_drop, natOfDigits_digitsOf]
    · rw [← List.append_assoc, show ['0'] = List.replicate 1 '0' from rfl,
        ← List.replicate_add, natOfDigits_replicate_zero_append, natOfDigits_digitsOf]

theorem negative_toNumeral : (d.toNumeral negative).negative = negative := by
  unfold toNumeral
  dsimp only
  split
  · rfl
  · split
    · rfl
    · rfl

/-- Placing the point does not change the number. -/
theorem toRat_toNumeral :
    (d.toNumeral negative).toRat = (if negative then -1 else 1) * d.toRat := by
  rw [Numeral.toRat_eq_div, negative_toNumeral, natOfDigits_toNumeral, length_fraction_toNumeral,
    toRat, Nat.cast_mul, cast_pow10, cast_pow10, mul_div_assoc, ← zpow_sub₀ (by norm_num)]
  congr 3
  omega

theorem isWritten_toNumeral : (d.toNumeral negative).IsWritten := by
  have hdigits : ∀ c ∈ digitsOf d.digits, c.isDigit = true := fun _ => isDigit_of_mem_digitsOf
  have hzeros (n : Nat) : ∀ c ∈ List.replicate n '0', c.isDigit = true := by
    intro c hc
    rw [List.eq_of_mem_replicate hc]
    rfl
  unfold toNumeral
  dsimp only
  split
  · refine ⟨?_, ?_, ?_⟩
    · simp [digitsOf_ne_nil]
    · exact List.forall_mem_append.mpr ⟨hdigits, hzeros _⟩
    · simp
  · split
    · next hlt =>
      refine ⟨?_, ?_, ?_⟩
      · exact List.ne_nil_of_length_pos (by rw [List.length_take]; omega)
      · exact fun c hc => hdigits c (List.mem_of_mem_take hc)
      · exact fun c hc => hdigits c (List.mem_of_mem_drop hc)
    · refine ⟨?_, ?_, ?_⟩
      · simp
      · simp
      · exact List.forall_mem_append.mpr ⟨hzeros _, hdigits⟩

end Binary64.Digits

/-! ## 2. The number of a JSON text -/

namespace Json

/-- The number that the parts of a JSON number denote. -/
def NumberParts.toRat (p : NumberParts) : Rat :=
  natOfDigits (p.whole ++ p.fraction) * (10 : Rat) ^ (p.exponent.getD 0 - p.fraction.length)

/-- The number that a text without a sign denotes, if the whole text is a JSON number. -/
def unsignedNumberOf? (cs : List Char) : Option Rat :=
  match readNumberParts cs with
  | .ok (p, []) => some p.toRat
  | _ => none

/-- The number that a text denotes, if the whole text is a JSON number. No digit is rounded
off. -/
def numberOf? (s : String) : Option Rat :=
  match s.toList with
  | '-' :: cs => (unsignedNumberOf? cs).map (-·)
  | cs => unsignedNumberOf? cs

namespace NumberParts

/-- Whether there are digits where they belong, with no zero in front. -/
structure IsWritten (p : NumberParts) : Prop where
  whole_ne_nil : p.whole ≠ []
  isDigit_whole : ∀ c ∈ p.whole, c.isDigit = true
  zero_alone : p.whole.head? = some '0' → p.whole.length = 1
  isDigit_fraction : ∀ c ∈ p.fraction, c.isDigit = true

/-- The text of an exponent. Its sign is always written. -/
def exponentSource : Option Int → List Char
  | none => []
  | some e => 'e' :: (if e < 0 then '-' else '+') :: digitsOf e.natAbs

/-- The text of a JSON number without a sign. -/
def source (p : NumberParts) : List Char :=
  p.whole ++ ((if p.fraction.isEmpty then [] else '.' :: p.fraction) ++ exponentSource p.exponent)

end NumberParts

theorem readDigits_append {ds rest : List Char} (hds : ∀ c ∈ ds, c.isDigit = true) (hne : ds ≠ [])
    (hrest : ∀ c ∈ rest.head?, c.isDigit = false) : readDigits (ds ++ rest) = .ok (ds, rest) := by
  obtain ⟨htake, hdrop⟩ := takeWhile_append_stop hds hrest
  obtain ⟨c, cs, rfl⟩ := List.exists_cons_of_ne_nil hne
  rw [List.cons_append] at htake hdrop ⊢
  simp only [readDigits, hds c List.mem_cons_self, if_true, htake, hdrop]

theorem readExponent_source (e : Option Int) :
    readExponent (NumberParts.exponentSource e) = .ok (e, []) := by
  cases e with
  | none => rfl
  | some e =>
    have hdigits : readDigits (digitsOf e.natAbs) = .ok (digitsOf e.natAbs, []) := by
      have h := @readDigits_append _ [] (fun _ => isDigit_of_mem_digitsOf)
        (digitsOf_ne_nil e.natAbs) (by rintro c ⟨⟩)
      rwa [List.append_nil] at h
    by_cases hneg : e < 0
    · simp only [NumberParts.exponentSource, readExponent, hneg, true_or, if_true, hdigits,
        natOfDigits_digitsOf]
      rw [show -(e.natAbs : Int) = e by omega]
    · simp only [NumberParts.exponentSource, readExponent, hneg, true_or, if_true, if_false,
        hdigits, natOfDigits_digitsOf, Bool.false_eq_true]
      rw [show (e.natAbs : Int) = e by omega]

/-- An exponent is neither a digit nor a point. -/
theorem head?_exponentSource (e : Option Int) :
    ∀ c ∈ (NumberParts.exponentSource e).head?, c = 'e' := by
  cases e with
  | none => rintro c ⟨⟩
  | some e =>
    rintro c ⟨⟩
    rfl

theorem readFraction_source {ds : List Char} (hds : ∀ c ∈ ds, c.isDigit = true) (e : Option Int) :
    readFraction ((if ds.isEmpty then [] else '.' :: ds) ++ NumberParts.exponentSource e) =
      .ok (ds, NumberParts.exponentSource e) := by
  cases ds with
  | nil =>
    have hhead := head?_exponentSource e
    generalize NumberParts.exponentSource e = rest at hhead ⊢
    unfold readFraction
    split
    · next rest' heq =>
      rw [show rest = '.' :: rest' from heq] at hhead
      exact absurd (hhead '.' rfl) (by decide)
    · rfl
  | cons d ds =>
    refine readDigits_append hds (List.cons_ne_nil d ds) fun c hc => ?_
    rw [head?_exponentSource e c hc]
    rfl

/-- **Parts of a number that are written one after the other are read back.** -/
theorem readNumberParts_source {p : NumberParts} (hp : p.IsWritten) :
    readNumberParts p.source = .ok (p, []) := by
  have hstop : ∀ c ∈ ((if p.fraction.isEmpty then [] else '.' :: p.fraction) ++
      NumberParts.exponentSource p.exponent).head?, c.isDigit = false := by
    intro c hc
    split at hc
    · rw [head?_exponentSource p.exponent c hc]
      rfl
    · obtain rfl : '.' = c := Option.some.inj hc
      rfl
  have hwhole : readWhole p.source = .ok (p.whole,
      (if p.fraction.isEmpty then [] else '.' :: p.fraction) ++
        NumberParts.exponentSource p.exponent) := by
    have hzero : ¬(p.whole.head? = some '0' ∧ 1 < p.whole.length) :=
      fun h => absurd (hp.zero_alone h.1) h.2.ne'
    unfold readWhole NumberParts.source
    simp only [readDigits_append hp.isDigit_whole hp.whole_ne_nil hstop, hzero, if_false]
  simp only [readNumberParts, hwhole, readFraction_source hp.isDigit_fraction, readExponent_source]

/-- A written number denotes the number of its parts, with its sign. -/
theorem numberOf?_source {p : NumberParts} (hp : p.IsWritten) (negative : Bool) :
    numberOf? (String.ofList ((if negative then ['-'] else []) ++ p.source)) =
      some ((if negative then -1 else 1) * p.toRat) := by
  have hunsigned : unsignedNumberOf? p.source = some p.toRat := by
    simp only [unsignedNumberOf?, readNumberParts_source hp]
  obtain ⟨c, cs, hcs⟩ := List.exists_cons_of_ne_nil hp.whole_ne_nil
  have hminus : c ≠ '-' := by
    rintro rfl
    exact absurd (hp.isDigit_whole '-' (by rw [hcs]; exact List.mem_cons_self)) (by decide)
  unfold numberOf?
  rw [String.toList_ofList]
  cases negative with
  | true =>
    simp only [if_true, List.singleton_append, hunsigned, Option.map_some, neg_one_mul]
  | false =>
    simp only [Bool.false_eq_true, if_false, List.nil_append, one_mul]
    rw [← hunsigned, NumberParts.source, hcs, List.cons_append]
    split
    · next heq => exact absurd (List.cons.inj heq).1 hminus
    · rfl

/-! ## 3. The text of a real number -/

open Binary64

/-- The parts of a number written with no exponent: something always stands behind the point. -/
def plainParts (d : Digits) : NumberParts :=
  ⟨(d.toNumeral false).whole,
    if (d.toNumeral false).fraction.isEmpty then ['0'] else (d.toNumeral false).fraction, none⟩

/-- The parts of a number written with one digit in front of the point and an exponent. -/
def scientificParts (d : Digits) : NumberParts :=
  ⟨(digitsOf d.digits).take 1, (digitsOf d.digits).drop 1, some d.magnitude⟩

variable {d : Digits}

theorem isWritten_plainParts (hd : 0 < d.digits) : (plainParts d).IsWritten where
  whole_ne_nil := (d.isWritten_toNumeral false).whole_ne_nil
  isDigit_whole := (d.isWritten_toNumeral false).isDigit_whole
  zero_alone := by
    have hfirst := head?_digitsOf_ne_zero hd
    obtain ⟨c, cs, hcs⟩ := List.exists_cons_of_ne_nil (digitsOf_ne_nil d.digits)
    rw [hcs] at hfirst
    unfold plainParts Digits.toNumeral
    dsimp only
    rw [hcs]
    split
    · exact fun hzero => absurd hzero hfirst
    · split
      · next hlt =>
        obtain ⟨k, hk⟩ := Nat.exists_eq_add_one.mpr (Nat.sub_pos_of_lt hlt)
        rw [hk]
        exact fun hzero => absurd hzero hfirst
      · exact fun _ => rfl
  isDigit_fraction := by
    unfold plainParts
    dsimp only
    split
    · intro c hc
      rw [List.mem_singleton.mp hc]
      rfl
    · exact (d.isWritten_toNumeral false).isDigit_fraction

theorem toRat_plainParts (d : Digits) : (plainParts d).toRat = d.toRat := by
  have hnumeral := d.toRat_toNumeral false
  rw [Numeral.toRat_eq_div, d.negative_toNumeral, cast_pow10, div_eq_mul_inv, ← zpow_neg] at hnumeral
  simp only [Bool.false_eq_true, if_false, one_mul] at hnumeral
  rw [← hnumeral]
  unfold plainParts NumberParts.toRat
  generalize (d.toNumeral false).whole = whole
  cases (d.toNumeral false).fraction with
  | nil =>
    have hzero : natOfDigits (whole ++ ['0']) = natOfDigits whole * 10 := by
      rw [natOfDigits_append]
      rfl
    simp only [List.isEmpty_nil, if_true, hzero, List.append_nil, Nat.cast_mul]
    rw [mul_assoc]
    norm_num
  | cons c cs =>
    simp only [List.isEmpty_cons, Bool.false_eq_true, if_false, Option.getD_none, zero_sub]

theorem isWritten_scientificParts (d : Digits) : (scientificParts d).IsWritten := by
  have hlength : (scientificParts d).whole.length = 1 := by
    have hpos := List.length_pos_iff.mpr (digitsOf_ne_nil d.digits)
    rw [scientificParts, List.length_take]
    omega
  exact {
    whole_ne_nil := List.ne_nil_of_length_pos (hlength ▸ Nat.one_pos)
    isDigit_whole := fun _ hc => isDigit_of_mem_digitsOf (List.mem_of_mem_take hc)
    zero_alone := fun _ => hlength
    isDigit_fraction := fun _ hc => isDigit_of_mem_digitsOf (List.mem_of_mem_drop hc) }

theorem toRat_scientificParts (d : Digits) : (scientificParts d).toRat = d.toRat := by
  have hpos := List.length_pos_iff.mpr (digitsOf_ne_nil d.digits)
  have hexponent : d.magnitude - ((digitsOf d.digits).length - 1 : Nat) = d.exponent := by
    rw [Digits.magnitude]
    omega
  rw [scientificParts, NumberParts.toRat, List.take_append_drop, natOfDigits_digitsOf,
    List.length_drop, Option.getD_some, hexponent, Digits.toRat]

theorem source_plainParts (d : Digits) : (plainParts d).source = (d.toNumeral false).whole ++
    '.' :: (if (d.toNumeral false).fraction.isEmpty then ['0'] else (d.toNumeral false).fraction) := by
  unfold plainParts NumberParts.source NumberParts.exponentSource
  cases (d.toNumeral false).fraction with
  | nil => rfl
  | cons c cs => simp

theorem source_scientificParts (d : Digits) : (scientificParts d).source = scientific d := by
  have hempty : ((digitsOf d.digits).drop 1).isEmpty = true ↔ (digitsOf d.digits).length ≤ 1 := by
    rw [List.isEmpty_iff, List.drop_eq_nil_iff]
  unfold scientificParts NumberParts.source NumberParts.exponentSource scientific
  simp only [hempty, List.append_assoc]

/-- **The text of a real number denotes the number of its digits.** -/
theorem numberOf?_realText (x : Binary64) : numberOf? (realText x) =
    some ((if x.significand < 0 then -1 else 1) * (shortest .even x).toRat) := by
  unfold realText
  dsimp only
  generalize shortest .even x = d
  by_cases hzero : d.digits = 0
  · have hnumber : d.toRat = 0 := by rw [Digits.toRat, hzero, Nat.cast_zero, zero_mul]
    rw [if_pos hzero, hnumber, mul_zero]
    decide +kernel
  · have hsource (p : NumberParts) (hp : p.IsWritten) (hnumber : p.toRat = d.toRat) :
        numberOf? (String.ofList ((if x.significand < 0 then ['-'] else []) ++ p.source)) =
          some ((if x.significand < 0 then -1 else 1) * d.toRat) := by
      have h := numberOf?_source hp (decide (x.significand < 0))
      simp only [decide_eq_true_eq] at h
      rw [h, hnumber]
    rw [if_neg hzero]
    split
    · rw [List.append_assoc, ← source_plainParts]
      exact hsource _ (isWritten_plainParts (Nat.pos_of_ne_zero hzero)) (toRat_plainParts d)
    · rw [← source_scientificParts]
      exact hsource _ (isWritten_scientificParts d) (toRat_scientificParts d)

end Json

end FilterQuery
