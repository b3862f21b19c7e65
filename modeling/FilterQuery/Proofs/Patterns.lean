/-
FilterQuery.Proofs.Patterns — names and numerals as patterns.

Two things are checked against a pattern rather than read: the name of a
field, against `[A-Za-z_][A-Za-z0-9_]*`, and a string in a number field,
against `-?\d+(\.\d+)?`. In both cases the whole text has to match. Here the
two patterns are the languages they denote, put together by union,
concatenation and repetition as they are written, with no word about how a
text is scanned.

A text matches the first exactly if the scanner of names accepts it
(`isName_iff`), and the second exactly if it is a sign, digits, and perhaps a
point with digits behind it (`Pattern.mem_numeral`). Which characters are
digits is left open in the second; the scanner of numerals takes a text in
whole if they are all ASCII digits (`Numeral.ofText?_eq_some`).
-/
import FilterQuery.Proofs.Lexicon
import Mathlib.Computability.Language

namespace FilterQuery

open scoped Computability

/-! ## 1. Patterns -/

namespace Pattern

/-- One character of a class. -/
def one (p : Char → Prop) : Language Char := {w | ∃ c, w = [c] ∧ p c}

/-- `[A-Za-z_][A-Za-z0-9_]*` -/
def name : Language Char :=
  one (fun c => 'A' ≤ c ∧ c ≤ 'Z' ∨ 'a' ≤ c ∧ c ≤ 'z' ∨ c = '_') *
    (one fun c => 'A' ≤ c ∧ c ≤ 'Z' ∨ 'a' ≤ c ∧ c ≤ 'z' ∨ '0' ≤ c ∧ c ≤ '9' ∨ c = '_')∗

/-- `-?\d+(\.\d+)?`, where `\d` is a class of characters. -/
def numeral (digit : Char → Prop) : Language Char :=
  (1 + {['-']}) * (one digit * (one digit)∗ * (1 + {['.']} * (one digit * (one digit)∗)))

variable {p : Char → Prop} {w : List Char}

/-- Repetition is of any number of characters of the class. -/
theorem mem_star : w ∈ (one p)∗ ↔ ∀ c ∈ w, p c := by
  rw [Language.mem_kstar]
  constructor
  · rintro ⟨parts, rfl, hparts⟩ c hc
    obtain ⟨part, hpart, hc⟩ := List.mem_flatten.mp hc
    obtain ⟨d, rfl, hd⟩ := hparts part hpart
    rwa [List.mem_singleton.mp hc]
  · intro h
    refine ⟨w.map fun c => [c], by rw [← List.flatMap_def, List.flatMap_singleton'], ?_⟩
    intro part hpart
    obtain ⟨c, hc, rfl⟩ := List.mem_map.mp hpart
    exact ⟨c, rfl, h c hc⟩

/-- A first character of one class, and any number of another behind it. -/
theorem mem_one_star {q : Char → Prop} :
    w ∈ one p * (one q)∗ ↔ ∃ c cs, w = c :: cs ∧ p c ∧ ∀ d ∈ cs, q d := by
  rw [Language.mem_mul]
  constructor
  · rintro ⟨_, ⟨c, rfl, hc⟩, cs, hcs, rfl⟩
    exact ⟨c, cs, rfl, hc, mem_star.mp hcs⟩
  · rintro ⟨c, cs, rfl, hc, hcs⟩
    exact ⟨[c], ⟨c, rfl, hc⟩, cs, mem_star.mpr hcs, rfl⟩

/-- At least one character of a class. -/
theorem mem_plus : w ∈ one p * (one p)∗ ↔ w ≠ [] ∧ ∀ c ∈ w, p c := by
  rw [mem_one_star]
  constructor
  · rintro ⟨c, cs, rfl, hc, hcs⟩
    exact ⟨List.cons_ne_nil c cs, List.forall_mem_cons.mpr ⟨hc, hcs⟩⟩
  · rintro ⟨hne, h⟩
    obtain ⟨c, cs, rfl⟩ := List.exists_cons_of_ne_nil hne
    exact ⟨c, cs, rfl, List.forall_mem_cons.mp h⟩

end Pattern

/-! ## 2. Names -/

theorem isNameStart_iff {c : Char} :
    isNameStart c = true ↔ 'A' ≤ c ∧ c ≤ 'Z' ∨ 'a' ≤ c ∧ c ≤ 'z' ∨ c = '_' := by
  have hstart : isNameStart c = (decide ('A'.val ≤ c.val ∧ c.val ≤ 'Z'.val) ||
      decide ('a'.val ≤ c.val) && decide (c.val ≤ 'z'.val) || c == '_') := rfl
  simp only [hstart, Bool.or_eq_true, Bool.and_eq_true, decide_eq_true_eq, beq_iff_eq, or_assoc,
    Char.le_def]

theorem isNameRest_iff {c : Char} :
    isNameRest c = true ↔
      'A' ≤ c ∧ c ≤ 'Z' ∨ 'a' ≤ c ∧ c ≤ 'z' ∨ '0' ≤ c ∧ c ≤ '9' ∨ c = '_' := by
  have hdigit : c.isDigit = true ↔ '0' ≤ c ∧ c ≤ '9' := Char.isDigit_iff_toNat
  rw [isNameRest_eq, Bool.or_eq_true, isNameStart_iff, hdigit]
  tauto

/-- The scanner of names accepts just what matches the pattern. -/
theorem isName_iff {s : String} : isName s = true ↔ s.toList ∈ Pattern.name := by
  unfold isName Pattern.name
  rw [Pattern.mem_one_star]
  cases s.toList with
  | nil => simp
  | cons c cs =>
    simp only [Bool.and_eq_true, List.all_eq_true, isNameStart_iff, isNameRest_iff,
      List.cons.injEq]
    constructor
    · rintro ⟨hc, hcs⟩
      exact ⟨c, cs, ⟨rfl, rfl⟩, hc, hcs⟩
    · rintro ⟨_, _, ⟨rfl, rfl⟩, hc, hcs⟩
      exact ⟨hc, hcs⟩

/-! ## 3. Numerals -/

/-- Whether a numeral is written with digits of a class, at least one of them in front of
the point. -/
structure Numeral.WrittenWith (digit : Char → Prop) (n : Numeral) : Prop where
  whole_ne_nil : n.whole ≠ []
  digit_whole : ∀ c ∈ n.whole, digit c
  digit_fraction : ∀ c ∈ n.fraction, digit c

namespace Pattern

variable {digit : Char → Prop} {w : List Char}

theorem mem_sign : w ∈ (1 + {['-']} : Language Char) ↔
    ∃ negative : Bool, w = if negative then ['-'] else [] := by
  rw [Language.mem_add, Language.mem_one]
  constructor
  · rintro (rfl | h)
    · exact ⟨false, rfl⟩
    · exact ⟨true, h⟩
  · rintro ⟨negative, rfl⟩
    cases negative with
    | false => exact .inl rfl
    | true => exact .inr rfl

theorem mem_fraction : w ∈ (1 + {['.']} * (one digit * (one digit)∗) : Language Char) ↔
    ∃ ds : List Char, (∀ c ∈ ds, digit c) ∧ w = if ds.isEmpty then [] else '.' :: ds := by
  rw [Language.mem_add, Language.mem_one, Language.mem_mul]
  constructor
  · rintro (rfl | ⟨_, rfl, ds, hds, rfl⟩)
    · exact ⟨[], List.forall_mem_nil _, rfl⟩
    · obtain ⟨hne, hdigits⟩ := mem_plus.mp hds
      refine ⟨ds, hdigits, ?_⟩
      rw [if_neg (by rwa [List.isEmpty_iff])]
      rfl
  · rintro ⟨ds, hdigits, rfl⟩
    cases ds with
    | nil => exact .inl rfl
    | cons d ds =>
      have hplus : d :: ds ∈ one digit * (one digit)∗ :=
        mem_plus.mpr ⟨List.cons_ne_nil d ds, hdigits⟩
      exact .inr ⟨['.'], rfl, d :: ds, hplus, rfl⟩

/-- What matches the pattern of numerals is the text of one. -/
theorem mem_numeral : w ∈ numeral digit ↔ ∃ n : Numeral, n.WrittenWith digit ∧ w = n.source := by
  unfold numeral
  rw [Language.mem_mul]
  constructor
  · rintro ⟨sign, hsign, _, hrest, rfl⟩
    obtain ⟨whole, hwhole, fraction, hfraction, rfl⟩ := Language.mem_mul.mp hrest
    obtain ⟨negative, rfl⟩ := mem_sign.mp hsign
    obtain ⟨hne, hdigits⟩ := mem_plus.mp hwhole
    obtain ⟨ds, hds, rfl⟩ := mem_fraction.mp hfraction
    exact ⟨⟨negative, whole, ds⟩, ⟨hne, hdigits, hds⟩, (List.append_assoc _ _ _).symm⟩
  · rintro ⟨n, hn, rfl⟩
    exact ⟨_, mem_sign.mpr ⟨n.negative, rfl⟩, _, Language.mem_mul.mpr
      ⟨_, mem_plus.mpr ⟨hn.whole_ne_nil, hn.digit_whole⟩, _,
        mem_fraction.mpr ⟨n.fraction, hn.digit_fraction, rfl⟩, rfl⟩, (List.append_assoc _ _ _).symm⟩

end Pattern

namespace Numeral

/-- A text is a numeral exactly if it is the text of one written in ASCII digits. -/
theorem ofText?_eq_some {s : String} {n : Numeral} :
    ofText? s = some n ↔ n.IsWritten ∧ s.toList = n.source := by
  unfold ofText?
  constructor
  · intro h
    split at h
    · next m hscan =>
      obtain rfl := Option.some.inj h
      have hsource := scan_source hscan
      rw [List.append_nil] at hsource
      exact ⟨isWritten_of_scan hscan, hsource.symm⟩
    · cases h
  · rintro ⟨hn, hs⟩
    have hends : EndsBefore [] := by rintro c ⟨⟩
    have hscan := scan_source_append hn hends
    rw [List.append_nil, ← hs] at hscan
    rw [hscan]

theorem mem_source {n : Numeral} {c : Char} (h : c ∈ n.whole ∨ c ∈ n.fraction) :
    c ∈ n.source := by
  unfold source
  rcases h with h | h
  · exact List.mem_append_left _ (List.mem_append_right _ h)
  · have hsome : ¬n.fraction.isEmpty = true := fun hnone =>
      List.ne_nil_of_mem h (List.isEmpty_iff.mp hnone)
    rw [if_neg hsome]
    exact List.mem_append_right _ (List.mem_cons_of_mem _ h)

/-- A numeral is made of digits, and perhaps of a sign and a point. -/
theorem IsWritten.cases_of_mem {n : Numeral} (hn : n.IsWritten) {c : Char} (hc : c ∈ n.source) :
    c.isDigit = true ∨ c = '-' ∨ c = '.' := by
  unfold source at hc
  rcases List.mem_append.mp hc with hc | hc
  · rcases List.mem_append.mp hc with hc | hc
    · split at hc
      · exact .inr (.inl (List.mem_singleton.mp hc))
      · cases hc
    · exact .inl (hn.isDigit_whole c hc)
  · split at hc
    · cases hc
    · rcases List.mem_cons.mp hc with rfl | hc
      · exact .inr (.inr rfl)
      · exact .inl (hn.isDigit_fraction c hc)

end Numeral

end FilterQuery
