/-
FilterQuery.Proofs.Decimals — decimals in normal form, and their text.

Everything about normal forms comes from one equation: stripping zeros
divides coefficient and power by the same number (`strip_eq`). So the
normal form denotes the number it started from, and it is one of the two
kinds a number field may hold (`IsNormal`).

The text of a decimal is a numeral with just as many digits behind the
point as the scale says. Reading takes these digits one by one, and as
what has been read so far is never more than the whole coefficient, no
digit is rounded off (`takeFraction_eq`): the same decimal is read back,
with the same scale (`ofNumeral?_toNumeral`).
-/
import FilterQuery.Proofs.Digits
import FilterQuery.Value

namespace FilterQuery

namespace Decimal

/-! ## 1. Whole numbers -/

theorem whole?_eq_some {d : Decimal} {n : Int} :
    d.whole? = some n ↔ d.coefficient = n * (pow10 d.scale : Nat) := by
  have hpos : (pow10 d.scale : Int) ≠ 0 := by
    have := pow10_pos d.scale
    omega
  unfold whole?
  constructor
  · intro h
    split at h
    · next hmod =>
      rw [← Option.some.inj h, Int.ediv_mul_cancel (Int.dvd_of_emod_eq_zero hmod)]
    · exact absurd h (by simp)
  · intro h
    rw [h, if_pos (Int.mul_emod_left _ _), Int.mul_ediv_cancel _ hpos]

/-- A decimal denotes a whole 64-bit number exactly if it is that whole number. -/
theorem sameNumber_ofInt64 {d : Decimal} {n : Int64} :
    d.sameNumber (.ofInt64 n) = true ↔ d.whole? = some n.toInt := by
  rw [whole?_eq_some]
  unfold sameNumber ofInt64
  simp [pow10]

/-! ## 2. Normal form -/

/-- A number that is no whole 64-bit number, with no zero at the end of its
fraction. -/
structure IsNormal (d : Decimal) : Prop where
  scale_least : d.scale = 0 ∨ d.coefficient % 10 ≠ 0
  not_int64 : ∀ n : Int64, d.sameNumber (.ofInt64 n) = false

/-- Stripping divides the coefficient and the power by the same number. -/
theorem strip_eq (c : Int) (s : Nat) :
    c * (pow10 (strip c s).2 : Nat) = (strip c s).1 * (pow10 s : Nat) := by
  induction s generalizing c with
  | zero => rfl
  | succ s ih =>
    unfold strip
    split
    · next hmod =>
      have hc : c = c / 10 * 10 := (Int.ediv_mul_cancel (Int.dvd_of_emod_eq_zero hmod)).symm
      have := ih (c / 10)
      rw [pow10_succ, Int.natCast_mul, ← Int.mul_assoc, ← this, Int.mul_right_comm]
      exact congrArg (· * _) hc
    · rfl

theorem strip_least (c : Int) (s : Nat) : (strip c s).2 = 0 ∨ (strip c s).1 % 10 ≠ 0 := by
  induction s generalizing c with
  | zero => exact .inl rfl
  | succ s ih =>
    unfold strip
    split
    · exact ih (c / 10)
    · next hmod => exact .inr hmod

/-- Nothing is left to strip where there is no zero at the end. -/
theorem normalize_eq_self {d : Decimal} (h : d.scale = 0 ∨ d.coefficient % 10 ≠ 0) :
    d.normalize = d := by
  obtain ⟨c, s, hc, hs⟩ := d
  have hstrip : strip c s = (c, s) := by
    cases s with
    | zero => rfl
    | succ s => exact if_neg (h.resolve_left (Nat.succ_ne_zero s))
  unfold normalize
  simp only [hstrip]

/-- The normal form is the same whole number, if it is one. -/
theorem whole?_normalize {d : Decimal} {n : Int} (h : d.normalize.whole? = some n) :
    d.whole? = some n := by
  rw [whole?_eq_some] at h ⊢
  have hstrip := strip_eq d.coefficient d.scale
  have hpos : (pow10 (strip d.coefficient d.scale).2 : Int) ≠ 0 := by
    have := pow10_pos (strip d.coefficient d.scale).2
    omega
  have hwhole : (strip d.coefficient d.scale).1 =
      n * (pow10 (strip d.coefficient d.scale).2 : Nat) := h
  rw [hwhole, Int.mul_right_comm] at hstrip
  exact Int.eq_of_mul_eq_mul_right hpos hstrip

/-- Whether a whole number fits 64 bits. -/
theorem int64_range (n : Int64) :
    -9223372036854775808 ≤ n.toInt ∧ n.toInt ≤ 9223372036854775807 := by
  have h1 := n.le_toInt
  have h2 := n.toInt_lt
  omega

/-- A decimal that is no whole 64-bit number has a normal form of the same kind. -/
theorem isNormal_normalize {d : Decimal} (h : ∀ n : Int64, d.whole? ≠ some n.toInt) :
    d.normalize.IsNormal where
  scale_least := strip_least _ _
  not_int64 := by
    intro n
    rw [← Bool.not_eq_true, sameNumber_ofInt64]
    intro hn
    exact h n (whole?_normalize hn)

/-! ## 3. The numeral of a decimal -/

/-- Digits that fit are taken as they are. -/
theorem takeFraction_eq (cs : List Char) (c s : Nat) (hs : s + cs.length ≤ maxScale)
    (hc : c * pow10 cs.length + natOfDigits cs ≤ maxCoefficient) :
    takeFraction c s cs = some (c * pow10 cs.length + natOfDigits cs, s + cs.length) := by
  induction cs generalizing c s with
  | nil => simp [takeFraction, pow10, natOfDigits]
  | cons d ds ih =>
    have hnext : c * pow10 (d :: ds).length + natOfDigits (d :: ds) =
        (c * 10 + digitValue d) * pow10 ds.length + natOfDigits ds := by
      rw [natOfDigits_cons, List.length_cons, pow10_succ, Nat.add_mul, ← Nat.add_assoc,
        Nat.mul_comm (pow10 ds.length) 10, Nat.mul_assoc]
    rw [hnext] at hc ⊢
    rw [List.length_cons] at hs ⊢
    have hle : c * 10 + digitValue d ≤ maxCoefficient :=
      Nat.le_trans (Nat.le_mul_of_pos_right _ (pow10_pos ds.length))
        (Nat.le_trans (Nat.le_add_right _ _) hc)
    have hlt : s < maxScale := by omega
    unfold takeFraction
    simp only [hlt, hle, and_self, if_true]
    rw [ih _ _ (by omega) hc, Nat.add_right_comm, Nat.add_assoc]

theorem fraction_toNumeral (d : Decimal) :
    d.toNumeral.fraction.length = d.scale ∧
      natOfDigits d.toNumeral.fraction = d.coefficient.natAbs % pow10 d.scale := by
  unfold toNumeral
  dsimp only
  split
  · next hscale =>
    rw [hscale]
    exact ⟨rfl, (Nat.mod_one _).symm⟩
  · next hscale =>
    exact ⟨length_paddedDigits (Nat.pos_of_ne_zero hscale) (Nat.mod_lt _ (pow10_pos _)),
      natOfDigits_paddedDigits _ _⟩

/-- A decimal is read back from its numeral as it was, scale included. -/
theorem ofNumeral?_toNumeral (d : Decimal) : ofNumeral? d.toNumeral = some d := by
  have hwhole : natOfDigits d.toNumeral.whole = d.coefficient.natAbs / pow10 d.scale :=
    natOfDigits_digitsOf _
  obtain ⟨hlength, hfraction⟩ := fraction_toNumeral d
  have hle : d.coefficient.natAbs / pow10 d.scale ≤ maxCoefficient :=
    Nat.le_trans (Nat.div_le_self _ _) d.coefficient_le
  have hsum : d.coefficient.natAbs / pow10 d.scale * pow10 d.scale +
      d.coefficient.natAbs % pow10 d.scale = d.coefficient.natAbs := Nat.div_add_mod' _ _
  have htake := takeFraction_eq d.toNumeral.fraction (d.coefficient.natAbs / pow10 d.scale) 0
    (by rw [hlength, Nat.zero_add]; exact d.scale_le)
    (by rw [hlength, hfraction, hsum]; exact d.coefficient_le)
  rw [hlength, hfraction, hsum, Nat.zero_add] at htake
  have hsign : (if d.toNumeral.negative then -(d.coefficient.natAbs : Int)
      else (d.coefficient.natAbs : Int)) = d.coefficient := by
    have hnegative : d.toNumeral.negative = decide (d.coefficient < 0) := rfl
    rw [hnegative]
    by_cases h : d.coefficient < 0
    · simp only [h, decide_true, if_true]
      omega
    · simp only [h, decide_false, Bool.false_eq_true, if_false]
      omega
  unfold ofNumeral?
  simp only [hwhole, hle, if_true, htake, hsign]
  exact dif_pos ⟨d.coefficient_le, d.scale_le⟩

/-- The text of a whole number is that of the decimal. -/
theorem text_ofInt64 (n : Int64) : (ofInt64 n).text = toString n.toInt := by
  have hwhole : n.toInt.natAbs / pow10 0 = n.toInt.natAbs := Nat.div_one _
  have htext : (ofInt64 n).text = String.ofList
      ((if decide (n.toInt < 0) then ['-'] else []) ++ digitsOf n.toInt.natAbs) := by
    unfold text Numeral.source toNumeral ofInt64
    simp [hwhole]
  rw [htext]
  cases n.toInt with
  | ofNat m =>
    have hsign : ¬(Int.ofNat m < 0) := Int.not_lt.mpr (Int.natCast_nonneg m)
    simp only [hsign, decide_false, Bool.false_eq_true, if_false, List.nil_append]
    rfl
  | negSucc m =>
    simp only [Int.negSucc_lt_zero, decide_true, if_true, List.singleton_append,
      Int.natAbs_negSucc, String.ofList_cons]
    rfl

end Decimal

/-! ## 4. Numerals in a text -/

/-- A numeral with digits where digits belong, and at least one of them. -/
structure Numeral.IsWritten (n : Numeral) : Prop where
  whole_ne_nil : n.whole ≠ []
  isDigit_whole : ∀ c ∈ n.whole, c.isDigit = true
  isDigit_fraction : ∀ c ∈ n.fraction, c.isDigit = true

theorem Decimal.isWritten_toNumeral (d : Decimal) : d.toNumeral.IsWritten where
  whole_ne_nil := digitsOf_ne_nil _
  isDigit_whole := fun _ h => isDigit_of_mem_digitsOf h
  isDigit_fraction := by
    intro c h
    unfold toNumeral at h
    dsimp only at h
    split at h
    · exact absurd h List.not_mem_nil
    · exact isDigit_of_mem_paddedDigits h

/-- Whether a text may stand behind a numeral: it does not go on with a digit
or a point. -/
def Numeral.EndsBefore (rest : List Char) : Prop :=
  ∀ c ∈ rest.head?, c.isDigit = false ∧ c ≠ '.'

theorem Numeral.scanFraction_append {ds rest : List Char} (hds : ∀ c ∈ ds, c.isDigit = true)
    (hrest : EndsBefore rest) :
    scanFraction ((if ds.isEmpty then [] else '.' :: ds) ++ rest) = (ds, rest) := by
  cases ds with
  | nil =>
    cases rest with
    | nil => rfl
    | cons c cs =>
      have hpoint : c ≠ '.' := (hrest c rfl).2
      unfold scanFraction
      split
      · next heq => exact absurd (List.cons.inj heq).1 hpoint
      · rfl
  | cons d ds =>
    obtain ⟨htake, hdrop⟩ := takeWhile_append_stop hds fun c hc => (hrest c hc).1
    rw [List.cons_append] at htake hdrop
    simp [scanFraction, htake, hdrop]

theorem Numeral.scanUnsigned_append {n : Numeral} {rest : List Char} (hn : n.IsWritten)
    (hrest : EndsBefore rest) :
    scanUnsigned n.negative
      (n.whole ++ ((if n.fraction.isEmpty then [] else '.' :: n.fraction) ++ rest)) =
        some (n, rest) := by
  have hstop : ∀ c ∈ ((if n.fraction.isEmpty then [] else '.' :: n.fraction) ++ rest).head?,
      c.isDigit = false := by
    intro c hc
    split at hc
    · exact (hrest c hc).1
    · obtain rfl : '.' = c := Option.some.inj hc
      rfl
  have htail := scanFraction_append hn.isDigit_fraction hrest
  generalize (if n.fraction.isEmpty then [] else '.' :: n.fraction) ++ rest = tail at hstop htail ⊢
  obtain ⟨htake, hdrop⟩ := takeWhile_append_stop hn.isDigit_whole hstop
  unfold scanUnsigned
  simp [htake, hdrop, hn.whole_ne_nil, htail]

/-- In front of a digit, a minus sign belongs to the numeral. -/
theorem Numeral.scan_of_sign (negative : Bool) {c : Char} (hc : c.isDigit = true)
    (cs : List Char) :
    scan ((if negative then ['-'] else []) ++ c :: cs) = scanUnsigned negative (c :: cs) := by
  cases negative with
  | true => rfl
  | false =>
    have hminus : c ≠ '-' := by
      rintro rfl
      exact absurd hc (by decide)
    simp only [Bool.false_eq_true, if_false, List.nil_append]
    unfold scan
    split
    · next heq => exact absurd (List.cons.inj heq).1 hminus
    · rfl

/-- A numeral in front of a text is scanned as its digits are, behind the sign. -/
theorem Numeral.scan_of_isWritten {n : Numeral} (hn : n.IsWritten) (rest : List Char) :
    scan (n.source ++ rest) = scanUnsigned n.negative
      (n.whole ++ ((if n.fraction.isEmpty then [] else '.' :: n.fraction) ++ rest)) := by
  obtain ⟨c, cs, hwhole⟩ := List.exists_cons_of_ne_nil hn.whole_ne_nil
  have hc := hn.isDigit_whole c (by simp [hwhole])
  rw [source, List.append_assoc, List.append_assoc, hwhole, List.cons_append, scan_of_sign _ hc]

/-- A numeral is scanned as it was written. -/
theorem Numeral.scan_source_append {n : Numeral} {rest : List Char} (hn : n.IsWritten)
    (hrest : EndsBefore rest) : scan (n.source ++ rest) = some (n, rest) := by
  rw [scan_of_isWritten hn, scanUnsigned_append hn hrest]

/-- The value of a number is a whole number, or in normal form. -/
theorem Value.ofDecimal_cases (d : Decimal) :
    (∃ n, Value.ofDecimal d = .integer n) ∨
      ∃ d', Value.ofDecimal d = .decimal d' ∧ d'.IsNormal := by
  unfold Value.ofDecimal
  split
  · next n hwhole =>
    split
    · exact .inl ⟨_, rfl⟩
    · next hrange =>
      refine .inr ⟨_, rfl, Decimal.isNormal_normalize fun m hm => hrange ?_⟩
      rw [Option.some.inj (hwhole.symm.trans hm)]
      exact Decimal.int64_range m
  · next hwhole =>
    exact .inr ⟨_, rfl, Decimal.isNormal_normalize fun m hm => by simp [hwhole] at hm⟩

/-- A whole number is its own value. -/
theorem Value.ofDecimal_ofInt64 (n : Int64) : Value.ofDecimal (.ofInt64 n) = .integer n := by
  have hwhole : (Decimal.ofInt64 n).whole? = some n.toInt :=
    Decimal.whole?_eq_some.mpr (by simp [Decimal.ofInt64, pow10])
  rw [Value.ofDecimal, hwhole]
  simp only [Decimal.int64_range n, and_self, if_true, Int64.ofInt_toInt]

/-- A decimal in normal form is its own value. -/
theorem Value.ofDecimal_of_isNormal {d : Decimal} (h : d.IsNormal) :
    Value.ofDecimal d = .decimal d := by
  have hnone : ∀ n : Int64, d.whole? ≠ some n.toInt := by
    intro n hn
    have hsame := Decimal.sameNumber_ofInt64.mpr hn
    rw [h.not_int64 n] at hsame
    exact absurd hsame Bool.false_ne_true
  unfold Value.ofDecimal
  split
  · next n hwhole =>
    split
    · next hrange =>
      refine absurd ?_ (hnone (Int64.ofInt n))
      rw [hwhole, Int64.toInt_ofInt_of_le (by omega) (by omega)]
    · rw [Decimal.normalize_eq_self h.scale_least]
  · rw [Decimal.normalize_eq_self h.scale_least]

end FilterQuery
