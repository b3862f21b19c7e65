/-
FilterQuery.Proofs.Digits — numbers and the digits that write them.

The number that digits write is the core library's (`natOfDigits_eq`), so
its facts carry over. A run of digits is read up to the first character
that is none, so what has been written is read back exactly if no digit
stands behind it (`takeWhile_append_stop`), or if no more digits are asked
for than were written (`digitRun_append`).
-/
import FilterQuery.Calendar.Reader

namespace FilterQuery

/-! ## 1. The number of some digits -/

theorem natOfDigits_eq (cs : List Char) : natOfDigits cs = Nat.ofDigitChars 10 cs 0 := by
  unfold natOfDigits digitValue
  rw [Nat.ofDigitChars_eq_foldl]
  simp only [Nat.mul_comm]

theorem natOfDigits_append (xs ys : List Char) :
    natOfDigits (xs ++ ys) = natOfDigits xs * pow10 ys.length + natOfDigits ys := by
  rw [natOfDigits_eq, Nat.ofDigitChars_append, Nat.ofDigitChars_eq_ofDigitChars_zero,
    ← natOfDigits_eq, ← natOfDigits_eq, Nat.mul_comm]
  rfl

theorem natOfDigits_cons (c : Char) (cs : List Char) :
    natOfDigits (c :: cs) = digitValue c * pow10 cs.length + natOfDigits cs := by
  have h := natOfDigits_append [c] cs
  rwa [show natOfDigits [c] = digitValue c from Nat.zero_add _] at h

/-! ## 2. The digits of a number -/

theorem natOfDigits_digitsOf (n : Nat) : natOfDigits (digitsOf n) = n := by
  rw [natOfDigits_eq]
  exact Nat.ofDigitChars_ten_toDigits

theorem digitsOf_ne_nil (n : Nat) : digitsOf n ≠ [] := Nat.toDigits_ne_nil

theorem isDigit_of_mem_digitsOf {n : Nat} {c : Char} (h : c ∈ digitsOf n) : c.isDigit = true :=
  Nat.isDigit_of_mem_toDigits (by decide) (by decide) h

/-- Zeros in front change nothing. -/
theorem natOfDigits_paddedDigits (width n : Nat) : natOfDigits (paddedDigits width n) = n := by
  unfold paddedDigits
  dsimp only
  rw [natOfDigits_append, natOfDigits_digitsOf, natOfDigits_eq, Nat.ofDigitChars_replicate_zero]
  simp

theorem isDigit_of_mem_paddedDigits {width n : Nat} {c : Char} (h : c ∈ paddedDigits width n) :
    c.isDigit = true := by
  unfold paddedDigits at h
  dsimp only at h
  rcases List.mem_append.mp h with h | h
  · rw [List.eq_of_mem_replicate h]
    rfl
  · exact isDigit_of_mem_digitsOf h

theorem paddedDigits_ne_nil (width n : Nat) : paddedDigits width n ≠ [] := by
  unfold paddedDigits
  simp [digitsOf_ne_nil]

/-- A number below the power of the width is written with just as many digits. -/
theorem length_paddedDigits {width n : Nat} (hwidth : 0 < width) (h : n < pow10 width) :
    (paddedDigits width n).length = width := by
  have hlength : (digitsOf n).length ≤ width :=
    (Nat.length_toDigits_le_iff (by decide) hwidth).mpr h
  unfold paddedDigits
  dsimp only
  rw [List.length_append, List.length_replicate]
  omega

/-! ## 3. Reading digits back -/

/-- What is behind a stop has no influence on the run in front of it. -/
theorem takeWhile_append_of_stop {p : Char → Bool} (xs : List Char) {rest : List Char}
    (hrest : ∀ c ∈ rest.head?, p c = false) :
    (xs ++ rest).takeWhile p = xs.takeWhile p ∧
      (xs ++ rest).dropWhile p = xs.dropWhile p ++ rest := by
  induction xs with
  | nil =>
    cases rest with
    | nil => exact ⟨rfl, rfl⟩
    | cons c cs =>
      have hc : p c = false := hrest c rfl
      simp [hc]
  | cons x xs ih =>
    cases hx : p x with
    | true => simp [hx, ih]
    | false => simp [hx]

/-- A run ends where it was meant to end. -/
theorem takeWhile_append_stop {p : Char → Bool} {xs rest : List Char}
    (hxs : ∀ c ∈ xs, p c = true) (hrest : ∀ c ∈ rest.head?, p c = false) :
    (xs ++ rest).takeWhile p = xs ∧ (xs ++ rest).dropWhile p = rest := by
  obtain ⟨htake, hdrop⟩ := takeWhile_append_of_stop [] hrest
  rw [List.takeWhile_append_of_pos hxs, List.dropWhile_append_of_pos hxs]
  exact ⟨by simpa using htake, hdrop⟩

namespace Calendar

/-- Of digits with others behind them, no more are read than asked for. -/
theorem digitRun_append {ds : List Char} (rest : List Char) (hds : ∀ c ∈ ds, c.isDigit = true) :
    digitRun (some ds.length) (ds ++ rest) = ds := by
  unfold digitRun
  dsimp only
  rw [List.take_left]
  have h := (@takeWhile_append_stop Char.isDigit ds [] hds (by simp)).1
  rwa [List.append_nil] at h

end Calendar

end FilterQuery
