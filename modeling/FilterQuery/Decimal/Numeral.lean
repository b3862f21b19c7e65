/-
FilterQuery.Decimal.Numeral — the written form of a number.

A numeral is an optional minus sign, at least one ASCII digit, and then,
if a point follows with a digit behind it, that point and all the digits
behind it. A point with no digit behind it does not belong to the
numeral. `scan` cuts the longest numeral off the front of a text.
-/
import FilterQuery.Text.Character

namespace FilterQuery

/-- A numeral by its parts. An empty `fraction` means that no point is
written. -/
structure Numeral where
  negative : Bool
  whole : List Char
  fraction : List Char
deriving DecidableEq, Repr

namespace Numeral

/-- The text of a numeral. -/
def source (n : Numeral) : List Char :=
  (if n.negative then ['-'] else []) ++ n.whole ++
    (if n.fraction.isEmpty then [] else '.' :: n.fraction)

/-- Cut the fraction off the front of a text: a point and the digits
behind it, if there is at least one. -/
def scanFraction (cs : List Char) : List Char × List Char :=
  match cs with
  | '.' :: rest =>
    if (rest.takeWhile Char.isDigit).isEmpty then ([], cs)
    else (rest.takeWhile Char.isDigit, rest.dropWhile Char.isDigit)
  | _ => ([], cs)

/-- Cut an unsigned numeral off the front of a text. -/
def scanUnsigned (negative : Bool) (cs : List Char) : Option (Numeral × List Char) :=
  let whole := cs.takeWhile Char.isDigit
  if whole.isEmpty then none
  else
    let (fraction, rest) := scanFraction (cs.dropWhile Char.isDigit)
    some (⟨negative, whole, fraction⟩, rest)

/-- Cut the longest numeral off the front of a text, if it begins with one. -/
def scan (cs : List Char) : Option (Numeral × List Char) :=
  match cs with
  | '-' :: rest => scanUnsigned true rest
  | _ => scanUnsigned false cs

/-- The numeral that a whole text writes, if it writes one. -/
def ofText? (s : String) : Option Numeral :=
  match scan s.toList with
  | some (n, []) => some n
  | _ => none

theorem scanFraction_source (cs : List Char) :
    (if (scanFraction cs).1.isEmpty then [] else '.' :: (scanFraction cs).1) ++
      (scanFraction cs).2 = cs := by
  unfold scanFraction
  split
  · next rest =>
    split
    · simp
    · simp only [List.cons_append, List.takeWhile_append_dropWhile]
  · simp

theorem scanUnsigned_source {neg : Bool} {cs rest : List Char} {n : Numeral}
    (h : scanUnsigned neg cs = some (n, rest)) :
    n.source ++ rest = (if neg then ['-'] else []) ++ cs := by
  unfold scanUnsigned at h
  dsimp only at h
  split at h
  · simp at h
  · simp only [Option.some.injEq, Prod.mk.injEq] at h
    obtain ⟨rfl, rfl⟩ := h
    simp only [source, List.append_assoc]
    rw [scanFraction_source, List.takeWhile_append_dropWhile]

/-- A numeral and the text after it make up the text that was scanned. -/
theorem scan_source {cs rest : List Char} {n : Numeral} (h : scan cs = some (n, rest)) :
    n.source ++ rest = cs := by
  unfold scan at h
  split at h
  · simpa using scanUnsigned_source h
  · simpa using scanUnsigned_source h

theorem scanUnsigned_whole_ne_nil {neg : Bool} {cs rest : List Char} {n : Numeral}
    (h : scanUnsigned neg cs = some (n, rest)) : n.whole ≠ [] := by
  unfold scanUnsigned at h
  dsimp only at h
  split at h
  · simp at h
  · next hw =>
    simp only [Option.some.injEq, Prod.mk.injEq] at h
    obtain ⟨rfl, rfl⟩ := h
    simpa using hw

/-- A scanned numeral has a digit. -/
theorem scan_whole_ne_nil {cs rest : List Char} {n : Numeral}
    (h : scan cs = some (n, rest)) : n.whole ≠ [] := by
  unfold scan at h
  split at h <;> exact scanUnsigned_whole_ne_nil h

/-- What is left after a numeral is shorter than what was scanned. -/
theorem scan_length_lt {cs rest : List Char} {n : Numeral} (h : scan cs = some (n, rest)) :
    rest.length < cs.length := by
  have hs := scan_source h
  have hw : 0 < n.whole.length := List.length_pos_iff.mpr (scan_whole_ne_nil h)
  have hl := congrArg List.length hs
  simp only [source, List.length_append] at hl
  omega

end Numeral

end FilterQuery
