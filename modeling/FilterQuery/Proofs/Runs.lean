/-
FilterQuery.Proofs.Runs — how a text is cut into runs, case by case.

What a run is depends on its first character, and for a character that is
neither a blank nor a mark nor a quote (`IsBare`) on whether a numeral or
a name begins there. There is one lemma for each of the six forms of a
run, and one that goes through all of them (`readRun_cases`), so that
nothing below unfolds the reader of runs again.

`readFrom` is what is read off the runs of a text: its tokens and its
errors. Run by run, a text is read by `readFrom_cons`; blanks are passed
one character at a time (`readFrom_blank`), although all that stand
together are one run.
-/
import FilterQuery.Token.Run

namespace FilterQuery

/-! ## 1. The first character of a run -/

/-- Whether a character is neither a blank nor a mark nor a quote. -/
structure IsBare (c : Char) : Prop where
  blank : isBlank c = false
  openParen : c ≠ '('
  closeParen : c ≠ ')'
  comma : c ≠ ','
  quote : ¬(c = '"' ∨ c = '\'')

/-- The kind of a mark. -/
def markKind? (c : Char) : Option Token.Kind :=
  if c = '(' then some .openParen
  else if c = ')' then some .closeParen
  else if c = ',' then some .comma
  else none

theorem markKind?_cases {c : Char} {kind : Token.Kind} (h : markKind? c = some kind) :
    (c = '(' ∧ kind = .openParen) ∨ (c = ')' ∧ kind = .closeParen) ∨
      (c = ',' ∧ kind = .comma) := by
  unfold markKind? at h
  split at h
  · next hc => exact .inl ⟨hc, (Option.some.inj h).symm⟩
  split at h
  · next hc => exact .inr (.inl ⟨hc, (Option.some.inj h).symm⟩)
  split at h
  · next hc => exact .inr (.inr ⟨hc, (Option.some.inj h).symm⟩)
  · cases h

theorem isBare_of_range {c : Char} (hlow : 44 < c.toNat) (hhigh : c.toNat ≤ 122) : IsBare c := by
  have hblank : isBlank c = false := by
    simp only [isBlank, Bool.or_eq_false_iff, Bool.and_eq_false_iff, decide_eq_false_iff_not,
      beq_eq_false_iff_ne]
    omega
  have hne : ∀ d : Char, d.toNat ≤ 44 → c ≠ d := by
    rintro d hd rfl
    omega
  exact ⟨hblank, hne _ (by decide), hne _ (by decide), hne _ (by decide),
    not_or.mpr ⟨hne _ (by decide), hne _ (by decide)⟩⟩

theorem isNameStart_cases {c : Char} (h : isNameStart c = true) :
    (65 ≤ c.toNat ∧ c.toNat ≤ 90) ∨ (97 ≤ c.toNat ∧ c.toNat ≤ 122) ∨ c.toNat = 95 := by
  have hstart : isNameStart c = (decide ('A'.val ≤ c.val ∧ c.val ≤ 'Z'.val) ||
      decide ('a'.val ≤ c.val) && decide (c.val ≤ 'z'.val) || c == '_') := rfl
  simp only [hstart, Bool.or_eq_true, Bool.and_eq_true, decide_eq_true_eq,
    UInt32.le_iff_toNat_le, beq_iff_eq] at h
  rcases h with (h | h) | rfl
  · exact .inl h
  · exact .inr (.inl h)
  · exact .inr (.inr rfl)

theorem isBare_of_isNameStart {c : Char} (h : isNameStart c = true) : IsBare c := by
  have hcases := isNameStart_cases h
  exact isBare_of_range (by omega) (by omega)

/-- No numeral begins like a name. -/
theorem scan_of_isNameStart {c : Char} (h : isNameStart c = true) (cs : List Char) :
    Numeral.scan (c :: cs) = none := by
  have hcases := isNameStart_cases h
  have hdigit : c.isDigit = false := by
    rw [← Bool.not_eq_true, Char.isDigit_iff_toNat]
    show ¬(48 ≤ c.toNat ∧ c.toNat ≤ 57)
    omega
  unfold Numeral.scan
  split
  · next heq =>
    obtain rfl : c = '-' := (List.cons.inj heq).1
    exact absurd h (by decide)
  · simp [Numeral.scanUnsigned, hdigit]

/-! ## 2. One run -/

theorem readRun_of_isBlank {c : Char} (h : isBlank c = true) (p : Position) (cs : List Char) :
    readRun p c cs = (.blank (c :: cs.takeWhile isBlank), cs.dropWhile isBlank) := if_pos h

/-- A mark is read whatever stands behind it. -/
theorem readRun_of_mark {c : Char} {kind : Token.Kind} (h : markKind? c = some kind) (p : Position)
    (cs : List Char) : readRun p c cs = (.token ⟨kind, String.singleton c, p⟩ [], cs) := by
  rcases markKind?_cases h with ⟨rfl, rfl⟩ | ⟨rfl, rfl⟩ | ⟨rfl, rfl⟩ <;> rfl

theorem readRun_of_quote {c : Char} (h : c = '"' ∨ c = '\'') (p : Position) (cs : List Char) :
    readRun p c cs = readString p c cs := by
  rcases h with rfl | rfl <;> rfl

/-- Where a numeral begins, it is the run. -/
theorem readRun_of_scan {c : Char} {cs rest : List Char} {n : Numeral} (hc : IsBare c)
    (hscan : Numeral.scan (c :: cs) = some (n, rest)) (p : Position) :
    readRun p c cs = (numeralRun p n, rest) := by
  unfold readRun
  simp only [hc.blank, hc.openParen, hc.closeParen, hc.comma, hc.quote, hscan, Bool.false_eq_true,
    if_false]

/-- Where a name begins, a word is the run. -/
theorem readRun_of_isNameStart {c : Char} (h : isNameStart c = true) (p : Position)
    (cs : List Char) : readRun p c cs = readWord p c cs := by
  have hc := isBare_of_isNameStart h
  unfold readRun
  simp only [hc.blank, hc.openParen, hc.closeParen, hc.comma, hc.quote, scan_of_isNameStart h, h,
    Bool.false_eq_true, if_false, if_true]

/-- Where nothing begins, the character is a run of its own. -/
theorem readRun_of_illegal {c : Char} {cs : List Char} (hc : IsBare c)
    (hscan : Numeral.scan (c :: cs) = none) (hname : isNameStart c = false) (p : Position) :
    readRun p c cs = (.illegal c p, cs) := by
  unfold readRun
  simp only [hc.blank, hc.openParen, hc.closeParen, hc.comma, hc.quote, hscan, hname,
    Bool.false_eq_true, if_false]

/-- What is true of a run whatever the text is: it is true of each of the six forms
a run may have. -/
theorem readRun_cases {P : Run × List Char → Prop} (p : Position) (c : Char) (cs : List Char)
    (blank : isBlank c = true → P (.blank (c :: cs.takeWhile isBlank), cs.dropWhile isBlank))
    (mark : ∀ kind, markKind? c = some kind → P (.token ⟨kind, String.singleton c, p⟩ [], cs))
    (quoted : c = '"' ∨ c = '\'' → P (readString p c cs))
    (numeral : ∀ n rest, IsBare c → Numeral.scan (c :: cs) = some (n, rest) →
      P (numeralRun p n, rest))
    (word : isNameStart c = true → P (readWord p c cs))
    (illegal : IsBare c → Numeral.scan (c :: cs) = none → isNameStart c = false →
      P (.illegal c p, cs)) : P (readRun p c cs) := by
  by_cases hblank : isBlank c = true
  · rw [readRun_of_isBlank hblank]
    exact blank hblank
  by_cases hmark : c = '(' ∨ c = ')' ∨ c = ','
  · obtain ⟨kind, hkind⟩ : ∃ kind, markKind? c = some kind := by
      rcases hmark with rfl | rfl | rfl <;> exact ⟨_, rfl⟩
    rw [readRun_of_mark hkind]
    exact mark kind hkind
  by_cases hquote : c = '"' ∨ c = '\''
  · rw [readRun_of_quote hquote]
    exact quoted hquote
  have hbare : IsBare c := ⟨Bool.eq_false_iff.mpr hblank, fun h => hmark (.inl h),
    fun h => hmark (.inr (.inl h)), fun h => hmark (.inr (.inr h)), hquote⟩
  cases hscan : Numeral.scan (c :: cs) with
  | some read =>
    obtain ⟨n, rest⟩ := read
    rw [readRun_of_scan hbare hscan]
    exact numeral n rest hbare hscan
  | none =>
    cases hname : isNameStart c with
    | true =>
      rw [readRun_of_isNameStart hname]
      exact word hname
    | false =>
      rw [readRun_of_illegal hbare hscan hname]
      exact illegal hbare hscan hname

/-! ## 3. All runs -/

/-- Induction along the runs of a text: what is behind a run is shorter than the
text that begins with it. -/
@[elab_as_elim]
theorem runs_induction {C : Position → List Char → Prop} (nil : ∀ p, C p [])
    (run : ∀ p c cs, C (p.after (readRun p c cs).1.source) (readRun p c cs).2 → C p (c :: cs))
    (p : Position) (text : List Char) : C p text := by
  cases text with
  | nil => exact nil p
  | cons c cs => exact run p c cs (runs_induction nil run _ (readRun p c cs).2)
termination_by text.length
decreasing_by exact readRun_length p c cs

/-- What holds of every run that can be read holds of all runs of a text. -/
theorem forall_runsFrom {P : Run → Prop} (h : ∀ p c cs, P (readRun p c cs).1) (p : Position)
    (text : List Char) : ∀ r ∈ runsFrom [] p text, P r := by
  induction p, text using runs_induction with
  | nil p =>
    rw [runsFrom_nil]
    exact List.forall_mem_nil P
  | run p c cs ih =>
    rw [runsFrom_cons]
    exact List.forall_mem_cons.mpr ⟨h p c cs, ih⟩

/-- The tokens and the errors of a text that begins at `p`. -/
def readFrom (p : Position) (cs : List Char) : List Token × List LexError :=
  ((runsFrom [] p cs).filterMap Run.token?, (runsFrom [] p cs).flatMap Run.errors)

theorem readFrom_nil (p : Position) : readFrom p [] = ([], []) := by
  rw [readFrom, runsFrom_nil]
  rfl

/-- A text is read run by run. -/
theorem readFrom_cons {p : Position} {c : Char} {cs rest : List Char} {r : Run}
    (h : readRun p c cs = (r, rest)) :
    readFrom p (c :: cs) =
      (r.token?.toList ++ (readFrom (p.after r.source) rest).1,
        r.errors ++ (readFrom (p.after r.source) rest).2) := by
  unfold readFrom
  rw [runsFrom_cons, h, List.flatMap_cons]
  cases hr : r.token? with
  | none => rw [List.filterMap_cons_none hr]; rfl
  | some t => rw [List.filterMap_cons_some hr]; rfl

theorem readFrom_token {p : Position} {c : Char} {cs rest : List Char} {t : Token}
    (h : readRun p c cs = (.token t [], rest)) :
    readFrom p (c :: cs) =
      (t :: (readFrom (p.after t.lexeme.toList) rest).1,
        (readFrom (p.after t.lexeme.toList) rest).2) := readFrom_cons h

/-- A blank changes nothing but the position, also in front of other blanks. -/
theorem readFrom_blank {c : Char} (h : isBlank c = true) (p : Position) (cs : List Char) :
    readFrom p (c :: cs) = readFrom (p.advance c) cs := by
  rw [readFrom_cons (readRun_of_isBlank h p cs)]
  cases cs with
  | nil => rfl
  | cons d cs =>
    by_cases hd : isBlank d = true
    · rw [readFrom_cons (readRun_of_isBlank hd _ cs), List.takeWhile_cons_of_pos hd,
        List.dropWhile_cons_of_pos hd]
      rfl
    · rw [List.takeWhile_cons_of_neg hd, List.dropWhile_cons_of_neg hd]
      rfl

/-- Blanks are passed. -/
theorem readFrom_blanks {gap : List Char} (hgap : gap.all isBlank = true) (p : Position)
    (cs : List Char) : readFrom p (gap ++ cs) = readFrom (p.after gap) cs := by
  induction gap generalizing p with
  | nil => rfl
  | cons c gap ih =>
    rw [List.all_cons, Bool.and_eq_true] at hgap
    obtain ⟨hc, hgap⟩ := hgap
    rw [List.cons_append, readFrom_blank hc, ih hgap]
    rfl

end FilterQuery
