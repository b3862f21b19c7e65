/-
FilterQuery.Proofs.Concatenation — two texts with a blank between them.

A blank ends whatever stands in front of it, except for a literal that is
not closed. So if the text `a` leaves no literal open, a text `a`, a blank
and a text `b` are read as `a` is read and then as `b` is read, right or
wrong, up to where `b` stands: everything in `b` is moved behind the blank
(`Lexed.ofText_append`).

Two facts are put together. What is in front of a blank is read as if it
stood alone, and what is behind it is read from there (`readFrom_append`).
And reading from another position gives the same, moved: a map of positions
that keeps pace with counting on from a position keeps pace with reading on
from there (`readFrom_relocate`). To be moved behind a text is such a map,
although it treats the first line differently from the others
(`Position.keepsPace_behind`).
-/
import FilterQuery.Proofs.Lexicon
import FilterQuery.Proofs.Positions
import FilterQuery.Proofs.Relocation

namespace FilterQuery

/-! ## 1. Positions moved behind a text -/

namespace Position

/-- A position in a text, moved behind another text: the bytes and the line feeds of
that text are added, and on the first line, which goes on where that text ends, the
characters of its last line. -/
def behind (before : String) (p : Position) : Position where
  offset := before.utf8ByteSize + p.offset
  line := before.toList.count '\n' + p.line
  column :=
    if p.line = 1 then (before.toList.reverse.takeWhile (· != '\n')).length + p.column
    else p.column

theorem behind_start (before : String) : behind before start = start.after before.toList := by
  rw [after_start, String.ofList_toList]
  unfold behind past start
  rw [if_pos rfl, Nat.add_zero, Nat.add_comm 1, Nat.add_comm 1]

/-- A line feed leaves the first line for good, because lines count from one. -/
theorem behind_advance (before : String) {p : Position} (hp : p.line ≠ 0) (c : Char) :
    behind before (p.advance c) = (behind before p).advance c := by
  unfold behind advance
  by_cases hc : c = '\n'
  · have hline : p.line + 1 ≠ 1 := by omega
    simp only [hc, if_true, if_neg hline, Nat.add_assoc]
  · simp only [hc, if_false, mk.injEq]
    refine ⟨(Nat.add_assoc ..).symm, trivial, ?_⟩
    split <;> rfl

theorem line_advance_ne_zero {p : Position} (hp : p.line ≠ 0) (c : Char) :
    (p.advance c).line ≠ 0 := by
  unfold advance
  split
  · exact Nat.succ_ne_zero _
  · exact hp

/-- Whether a map of positions keeps pace with counting on from a position. -/
def KeepsPace (f : Position → Position) (p : Position) : Prop :=
  ∀ cs, f (p.after cs) = (f p).after cs

theorem keepsPace_behind (before : String) {p : Position} (hp : p.line ≠ 0) :
    KeepsPace (behind before) p := by
  intro cs
  induction cs generalizing p with
  | nil => rfl
  | cons c cs ih =>
    rw [after_cons, after_cons, ih (line_advance_ne_zero hp c), behind_advance before hp]

variable {f : Position → Position} {p : Position}

/-- What keeps pace from a position on keeps pace from every later one. -/
theorem KeepsPace.after (hf : KeepsPace f p) (cs : List Char) : KeepsPace f (p.after cs) := by
  intro ds
  rw [← after_append, hf, hf, after_append]

theorem KeepsPace.advance (hf : KeepsPace f p) (c : Char) : KeepsPace f (p.advance c) :=
  hf.after [c]

theorem KeepsPace.map_advance (hf : KeepsPace f p) (c : Char) :
    f (p.advance c) = (f p).advance c :=
  hf [c]

end Position

/-! ## 2. Reading from another position -/

namespace Lexicon

variable {f : Position → Position} {p : Position}

/-- The same body of a literal at another position. -/
theorem Body.relocate {q : Char} {cs value : List Char} {es : List LexError}
    (h : Body q p cs value es) (hf : Position.KeepsPace f p) :
    Body q (f p) cs value (es.map (LexError.relocate f)) := by
  induction h with
  | nil => exact .nil
  | plain hquote hbackslash _ ih =>
    have hbehind := ih (hf.advance _)
    rw [hf.map_advance] at hbehind
    exact .plain hquote hbackslash hbehind
  | escape known _ ih =>
    have hbehind := ih (hf.after _)
    rw [hf] at hbehind
    exact .escape known hbehind
  | wrong unknown _ ih =>
    have hbehind := ih (hf.after _)
    rw [hf] at hbehind
    exact .wrong unknown hbehind

/-- The same token at another position. -/
theorem Word.relocate {lexeme rest : List Char} {kind : Token.Kind} {es : List LexError}
    (h : Word p lexeme rest kind es) (hf : Position.KeepsPace f p) :
    Word (f p) lexeme rest kind (es.map (LexError.relocate f)) := by
  cases h with
  | mark mark => exact .mark mark
  | name starts goes stops => exact .name starts goes stops
  | numeral longest inRange => exact .numeral longest inRange
  | literal quote body =>
    have hbody := body.relocate (hf.advance _)
    rw [hf.map_advance] at hbody
    exact .literal quote hbody

/-- The same text at another position. -/
theorem Lexes.relocate {text : List Char} {ts : List Token} {es : List LexError}
    (h : Lexes p text ts es) (hf : Position.KeepsPace f p) :
    Lexes (f p) text (ts.map (Token.relocate f)) (es.map (LexError.relocate f)) := by
  induction h with
  | done => exact .done
  | blanks some all stops _ ih =>
    have hbehind := ih (hf.after _)
    rw [hf] at hbehind
    exact .blanks some all stops hbehind
  | token word _ ih =>
    have hbehind := ih (hf.after _)
    rw [hf] at hbehind
    rw [List.map_append]
    exact .token (word.relocate hf) hbehind
  | illegal nothing _ ih =>
    have hbehind := ih (hf.advance _)
    rw [hf.map_advance] at hbehind
    exact .illegal nothing hbehind
  | outOfRange longest outOfRange _ ih =>
    have hbehind := ih (hf.after _)
    rw [hf] at hbehind
    exact .outOfRange longest outOfRange hbehind
  | unclosed quote body ends =>
    have hbody := body.relocate (hf.advance _)
    rw [hf.map_advance] at hbody
    rw [List.map_append]
    exact .unclosed quote hbody ends

end Lexicon

/-- A text is read alike from every position, up to positions. -/
theorem readFrom_relocate {f : Position → Position} {p : Position} (hf : p.KeepsPace f)
    (cs : List Char) :
    readFrom (f p) cs =
      ((readFrom p cs).1.map (Token.relocate f), (readFrom p cs).2.map (LexError.relocate f)) :=
  Lexicon.lexes_iff.mp ((Lexicon.lexes_readFrom p cs).relocate hf)

/-! ## 3. A blank between two texts -/

/-- **Reading is compositional at blanks.** Let a text `a` leave no literal open, and let
`w` be a blank. Then `a`, `w` and any text `b` together have the tokens of `a` and then
those of `b`, and the errors of `a` and then those of `b`. Everything in `b` is moved
behind `a` and `w`, and so is the end of the text. -/
theorem Lexed.ofText_append (a b : String) {w : Char} (hw : isBlank w = true)
    (hclosed : ∀ e ∈ (Lexed.ofText a).errors, e.isUnterminatedString = false) :
    Lexed.ofText (a ++ String.singleton w ++ b) =
      { tokens := (Lexed.ofText a).tokens ++
          (Lexed.ofText b).tokens.map (Token.relocate (.behind (a ++ String.singleton w)))
        errors := (Lexed.ofText a).errors ++
          (Lexed.ofText b).errors.map (LexError.relocate (.behind (a ++ String.singleton w)))
        stop := (Lexed.ofText b).stop.behind (a ++ String.singleton w) } := by
  have hstart : Position.start.line ≠ 0 := by decide
  have hpace := Position.keepsPace_behind (a ++ String.singleton w) hstart
  have hbefore : (a ++ String.singleton w).toList = a.toList ++ [w] := by
    rw [String.toList_append, String.toList_singleton]
  have htext : (a ++ String.singleton w ++ b).toList = a.toList ++ w :: b.toList := by
    rw [String.toList_append, hbefore, List.append_assoc, List.singleton_append]
  have hread : readFrom .start (a ++ String.singleton w ++ b).toList =
      ((readFrom .start a.toList).1 ++ (readFrom .start b.toList).1.map
          (Token.relocate (.behind (a ++ String.singleton w))),
        (readFrom .start a.toList).2 ++ (readFrom .start b.toList).2.map
          (LexError.relocate (.behind (a ++ String.singleton w)))) := by
    rw [htext, readFrom_append hw b.toList .start a.toList hclosed, ← hbefore,
      ← Position.behind_start, readFrom_relocate hpace]
  have hstop : Position.start.after (a ++ String.singleton w ++ b).toList =
      (Position.start.after b.toList).behind (a ++ String.singleton w) := by
    rw [hpace, Position.behind_start, ← Position.after_append, ← String.toList_append]
  obtain ⟨htokens, herrors⟩ := Prod.mk.inj hread
  exact (Lexed.mk.injEq ..).mpr ⟨htokens, herrors, hstop⟩

/-- Both texts have errors in them. The em space between them has three bytes, the
accented letters two, so what is on the first line of the second text is moved by fourteen
bytes, two lines and four columns, and what is on its second line by bytes and lines. -/
theorem Lexed.ofText_append_of_em_space :
    let a := "'\\qü'\n\n~ -"
    let b := "'é' -\n7ü '\\"
    isBlank '\u2003' = true ∧
    (∀ e ∈ (Lexed.ofText a).errors, e.isUnterminatedString = false) ∧
    (Lexed.ofText (a ++ String.singleton '\u2003' ++ b)).tokens.map Token.position =
      [⟨0, 1, 1⟩, ⟨14, 3, 5⟩, ⟨21, 4, 1⟩] ∧
    (Lexed.ofText (a ++ String.singleton '\u2003' ++ b)).errors =
      [.invalidEscape 'q' ⟨1, 1, 2⟩, .illegalCharacter '~' ⟨8, 3, 1⟩,
        .illegalCharacter '-' ⟨10, 3, 3⟩, .illegalCharacter '-' ⟨19, 3, 9⟩,
        .illegalCharacter 'ü' ⟨22, 4, 2⟩, .unterminatedString ⟨25, 4, 4⟩] ∧
    (Lexed.ofText (a ++ String.singleton '\u2003' ++ b)).stop = ⟨27, 4, 6⟩ := by
  intro a b
  have hclosed : ∀ e ∈ (Lexed.ofText a).errors, e.isUnterminatedString = false := by
    decide +kernel
  refine ⟨by decide, hclosed, ?_⟩
  rw [Lexed.ofText_append a b (by decide) hclosed]
  decide +kernel

end FilterQuery
