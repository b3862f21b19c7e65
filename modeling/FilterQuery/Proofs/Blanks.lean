/-
FilterQuery.Proofs.Blanks — what stands in front of a blank is read as if
nothing came behind it.

A blank ends every run but one: a string literal that is not closed takes
the blank and all that follows into itself. Where no such literal is
reported, a text with a blank and more behind it is read as the text
alone, and then as what is behind the blank (`readFrom_append`).
-/
import FilterQuery.Proofs.Decimals
import FilterQuery.Proofs.Runs

namespace FilterQuery

/-! ## 1. Blanks end words and numerals -/

theorem toNat_of_isBlank {c : Char} (h : isBlank c = true) : c.toNat ≤ 32 ∨ 133 ≤ c.toNat := by
  simp only [isBlank, Bool.or_eq_true, Bool.and_eq_true, decide_eq_true_eq, beq_iff_eq] at h
  omega

theorem isDigit_of_isBlank {c : Char} (h : isBlank c = true) : c.isDigit = false := by
  have hrange := toNat_of_isBlank h
  rw [← Bool.not_eq_true, Char.isDigit_iff_toNat]
  show ¬(48 ≤ c.toNat ∧ c.toNat ≤ 57)
  omega

/-- A name goes on with what it can begin with, and with digits. -/
theorem isNameRest_eq (c : Char) : isNameRest c = (isNameStart c || c.isDigit) := by
  show (c.isAlpha || c.isDigit || c == '_') = (c.isAlpha || c == '_' || c.isDigit)
  rw [Bool.or_right_comm]

theorem isNameRest_of_isBlank {c : Char} (h : isBlank c = true) : isNameRest c = false := by
  have hrange := toNat_of_isBlank h
  have hstart : isNameStart c = false := by
    rw [← Bool.not_eq_true]
    intro hname
    have hcases := isNameStart_cases hname
    omega
  rw [isNameRest_eq, hstart, isDigit_of_isBlank h]
  rfl

theorem endsBefore_of_isBlank {w : Char} (h : isBlank w = true) (b : List Char) :
    Numeral.EndsBefore (w :: b) := by
  intro c hc
  obtain rfl : w = c := Option.some.inj hc
  refine ⟨isDigit_of_isBlank h, ?_⟩
  rintro rfl
  exact absurd h (by decide)

/-! ## 2. Numerals -/

namespace Numeral

theorem scanFraction_append_of_ends (cs : List Char) {x : List Char} (hx : EndsBefore x) :
    scanFraction (cs ++ x) = ((scanFraction cs).1, (scanFraction cs).2 ++ x) := by
  cases cs with
  | nil => exact @scanFraction_append [] x (fun c hc => absurd hc List.not_mem_nil) hx
  | cons c cs =>
    obtain ⟨htake, hdrop⟩ :=
      takeWhile_append_of_stop (p := Char.isDigit) cs fun c hc => (hx c hc).1
    by_cases hc : c = '.'
    · subst hc
      simp only [List.cons_append, scanFraction, htake, hdrop]
      split <;> rfl
    · have hnone : ∀ ds, scanFraction (c :: ds) = ([], c :: ds) := by
        intro ds
        unfold scanFraction
        split
        · next heq => exact absurd (List.cons.inj heq).1 hc
        · rfl
      rw [List.cons_append, hnone, hnone]
      rfl

theorem scanUnsigned_append_of_ends (negative : Bool) (cs : List Char) {x : List Char}
    (hx : EndsBefore x) :
    scanUnsigned negative (cs ++ x) =
      (scanUnsigned negative cs).map fun r => (r.1, r.2 ++ x) := by
  obtain ⟨htake, hdrop⟩ :=
    takeWhile_append_of_stop (p := Char.isDigit) cs fun c hc => (hx c hc).1
  unfold scanUnsigned
  dsimp only
  rw [htake, hdrop, scanFraction_append_of_ends _ hx]
  split <;> rfl

/-- What is behind a numeral has no influence on it, if it does not go on with
a digit or a point; and where there is none, there is still none. -/
theorem scan_append (c : Char) (cs : List Char) {x : List Char} (hx : EndsBefore x) :
    scan (c :: (cs ++ x)) = (scan (c :: cs)).map fun r => (r.1, r.2 ++ x) := by
  by_cases hc : c = '-'
  · subst hc
    exact scanUnsigned_append_of_ends true cs hx
  · have hscan : ∀ ds, scan (c :: ds) = scanUnsigned false (c :: ds) := by
      intro ds
      unfold scan
      split
      · next heq => exact absurd (List.cons.inj heq).1 hc
      · rfl
    rw [hscan, hscan, ← List.cons_append, scanUnsigned_append_of_ends false _ hx]

/-- A numeral begins with a minus sign or a digit. -/
theorem source_cases {n : Numeral} (hn : n.IsWritten) :
    ∃ c cs, n.source = c :: cs ∧ (c = '-' ∨ c.isDigit = true) := by
  obtain ⟨d, ds, hwhole⟩ := List.exists_cons_of_ne_nil hn.whole_ne_nil
  have hd : d.isDigit = true := hn.isDigit_whole d (by simp [hwhole])
  unfold source
  cases n.negative with
  | true => exact ⟨_, _, rfl, .inl rfl⟩
  | false => exact ⟨d, _, by rw [hwhole]; rfl, .inr hd⟩

/-- What is scanned as a numeral is written as one. -/
theorem isWritten_of_scan {cs rest : List Char} {n : Numeral} (h : scan cs = some (n, rest)) :
    n.IsWritten := by
  have hunsigned : ∀ {negative : Bool} {ds : List Char},
      scanUnsigned negative ds = some (n, rest) → n.IsWritten := by
    intro negative ds h
    have hwhole := scanUnsigned_whole_ne_nil h
    unfold scanUnsigned at h
    dsimp only at h
    split at h
    · cases h
    · cases h
      refine ⟨hwhole, List.all_eq_true.mp List.all_takeWhile, ?_⟩
      unfold scanFraction
      split
      · split
        · exact fun c hc => absurd hc List.not_mem_nil
        · exact List.all_eq_true.mp List.all_takeWhile
      · exact fun c hc => absurd hc List.not_mem_nil
  unfold scan at h
  split at h <;> exact hunsigned h

end Numeral

/-! ## 3. Quoted strings -/

namespace Quoted

theorem scan_quote (q : Char) (done : List Piece) (cs : List Char) :
    scan q done (q :: cs) = .closed done.reverse cs := by
  rw [scan.eq_def]
  exact if_pos rfl

theorem scan_plain {q c : Char} (hquote : c ≠ q) (hbackslash : c ≠ '\\') (done : List Piece)
    (cs : List Char) : scan q done (c :: cs) = scan q (.plain c :: done) cs := by
  rw [scan.eq_def]
  simp only [hquote, hbackslash, if_false]

/-- A literal ends at its closing quote, whatever stands behind it. -/
theorem scan_split {q : Char} {done ps : List Piece} {cs rest : List Char}
    (h : scan q done cs = .closed ps rest) :
    ∃ body, cs = body ++ q :: rest ∧ ∀ x, scan q done (body ++ q :: x) = .closed ps x := by
  fun_induction scan q done cs with
  | case1 => cases h
  | case2 done cs =>
    cases h
    exact ⟨[], rfl, fun x => scan_quote q done x⟩
  | case3 => cases h
  | case4 done e cs hquote ih =>
    obtain ⟨body, hbody, hscan⟩ := ih h
    refine ⟨'\\' :: e :: body, by rw [hbody]; rfl, ?_⟩
    intro x
    rw [← hscan x, List.cons_append, scan.eq_def]
    simp only [hquote, if_false, if_true, List.cons_append]
  | case5 done c cs hquote hbackslash ih =>
    obtain ⟨body, hbody, hscan⟩ := ih h
    refine ⟨c :: body, by rw [hbody]; rfl, ?_⟩
    intro x
    rw [← hscan x, List.cons_append, scan_plain hquote hbackslash]

/-- One step of collecting the pairs that are no escapes. -/
def collect (s : List (Char × Position) × Position) (x : Piece) :
    List (Char × Position) × Position :=
  (match x.badEscape? with
    | some c => (c, s.2) :: s.1
    | none => s.1, s.2.after x.source)

theorem badEscapes_eq_foldl (origin : Position) (ps : List Piece) :
    badEscapes origin ps = (ps.foldl collect ([], origin)).1.reverse := rfl

/-- The pairs that are collected are just those that are no escapes. -/
theorem foldl_collect_fst (ps : List Piece) (s : List (Char × Position) × Position) :
    (ps.foldl collect s).1.map Prod.fst =
      (ps.filterMap Piece.badEscape?).reverse ++ s.1.map Prod.fst := by
  induction ps generalizing s with
  | nil => rfl
  | cons x ps ih =>
    rw [List.foldl_cons, ih]
    unfold collect
    cases hx : x.badEscape? with
    | none => rw [List.filterMap_cons_none hx]
    | some c => simp [List.filterMap_cons_some hx]

/-- Whether there are bad escapes is no matter of where the literal stands. -/
theorem badEscapes_eq_nil_iff {origin : Position} {ps : List Piece} :
    badEscapes origin ps = [] ↔ ∀ x ∈ ps, x.badEscape? = none := by
  rw [badEscapes_eq_foldl, List.reverse_eq_nil_iff, ← List.map_eq_nil_iff (f := Prod.fst),
    foldl_collect_fst, List.map_nil, List.append_nil, List.reverse_eq_nil_iff,
    List.filterMap_eq_nil_iff]

theorem foldl_collect_append (found : List (Char × Position)) (origin : Position)
    (ps : List Piece) :
    (ps.foldl collect (found, origin)).1.reverse = found.reverse ++ badEscapes origin ps := by
  induction ps generalizing found origin with
  | nil => simp [badEscapes_eq_foldl]
  | cons x ps ih =>
    rw [badEscapes_eq_foldl, List.foldl_cons, List.foldl_cons, collect, collect, ih, ih]
    split <;> simp

/-- What is wrong with the first piece of a literal is found first. -/
theorem badEscapes_cons (origin : Position) (x : Piece) (ps : List Piece) :
    badEscapes origin (x :: ps) =
      (x.badEscape?.map (·, origin)).toList ++ badEscapes (origin.after x.source) ps := by
  rw [badEscapes_eq_foldl, List.foldl_cons, collect, foldl_collect_append]
  cases x.badEscape? <;> rfl

/-- The body of a literal is the text of its pieces, and nothing behind the closing
quote matters to it. -/
theorem scan_source {q : Char} {ps : List Piece} {cs rest : List Char}
    (h : scan q [] cs = .closed ps rest) (x : List Char) :
    scan q [] (source ps ++ q :: x) = .closed ps x := by
  obtain ⟨body, hbody, hscan⟩ := scan_split h
  have hsource : cs = source ps ++ q :: rest := scan_closed h
  rw [← List.append_cancel_right (hbody.symm.trans hsource)]
  exact hscan x

end Quoted

theorem readString_of_closed {q : Char} {ps : List Quoted.Piece} {cs rest : List Char}
    (h : Quoted.scan q [] cs = .closed ps rest) (p : Position) :
    readString p q cs =
      (.token ⟨.string (Quoted.value ps), String.ofList (q :: Quoted.source ps ++ [q]), p⟩
        (Quoted.badEscapes (p.advance q) ps), rest) := by
  unfold readString
  rw [h]

/-! ## 4. A blank behind a run -/

/-- Whether an error is the report that a string literal is not closed. -/
def LexError.isUnterminatedString : LexError → Bool
  | unterminatedString _ => true
  | _ => false

/-- What begins with a blank has no influence on the run in front of it, unless that
is a literal that is not closed. -/
theorem readRun_append {p : Position} {c w : Char} {cs : List Char} (hblank : isBlank c = false)
    (hw : isBlank w = true)
    (hclosed : ∀ e ∈ (readRun p c cs).1.errors, e.isUnterminatedString = false) (b : List Char) :
    readRun p c (cs ++ w :: b) = ((readRun p c cs).1, (readRun p c cs).2 ++ w :: b) := by
  have hends := endsBefore_of_isBlank hw b
  revert hclosed
  apply readRun_cases (P := fun r => (∀ e ∈ r.1.errors, e.isUnterminatedString = false) →
    readRun p c (cs ++ w :: b) = (r.1, r.2 ++ w :: b)) p c cs
  case blank =>
    intro h _
    exact absurd (hblank.symm.trans h) Bool.false_ne_true
  case mark => exact fun kind hkind _ => readRun_of_mark hkind p _
  case quoted =>
    intro hquote hclosed
    rw [readRun_of_quote hquote]
    cases hscan : Quoted.scan c [] cs with
    | closed ps rest =>
      have hsource : cs = Quoted.source ps ++ c :: rest := Quoted.scan_closed hscan
      rw [readString_of_closed hscan, hsource, List.append_assoc, List.cons_append,
        readString_of_closed (Quoted.scan_source hscan (rest ++ w :: b))]
    | unclosed ps left =>
      unfold readString at hclosed
      rw [hscan] at hclosed
      exact absurd (hclosed (.unterminatedString p) (by simp [Run.errors])) Bool.noConfusion
  case numeral =>
    intro n rest hbare hscan _
    exact readRun_of_scan hbare (by rw [Numeral.scan_append c cs hends, hscan]; rfl) p
  case word =>
    intro hname _
    have hstop : ∀ d ∈ (w :: b).head?, isNameRest d = false := by
      intro d hd
      obtain rfl : w = d := Option.some.inj hd
      exact isNameRest_of_isBlank hw
    obtain ⟨htake, hdrop⟩ := takeWhile_append_of_stop cs hstop
    rw [readRun_of_isNameStart hname, readWord, readWord, htake, hdrop]
  case illegal =>
    intro hbare hscan hname _
    exact readRun_of_illegal hbare (by rw [Numeral.scan_append c cs hends, hscan]; rfl) hname p

/-- **A blank cuts a text in two**: what is in front of it is read as if it stood
alone, and then what is behind it. -/
theorem readFrom_append {w : Char} (hw : isBlank w = true) (b : List Char) (p : Position)
    (a : List Char) (hclosed : ∀ e ∈ (readFrom p a).2, e.isUnterminatedString = false) :
    readFrom p (a ++ w :: b) =
      ((readFrom p a).1 ++ (readFrom (p.after (a ++ [w])) b).1,
        (readFrom p a).2 ++ (readFrom (p.after (a ++ [w])) b).2) := by
  match a with
  | [] =>
    rw [readFrom_nil, List.nil_append, readFrom_blank hw]
    rfl
  | c :: cs =>
    cases hblank : isBlank c with
    | true =>
      rw [readFrom_blank hblank] at hclosed ⊢
      rw [List.cons_append, readFrom_blank hblank]
      exact readFrom_append hw b (p.advance c) cs hclosed
    | false =>
      have hread := readFrom_cons (Eq.refl ((readRun p c cs).1, (readRun p c cs).2))
      rw [hread] at hclosed ⊢
      have hrun : readRun p c (cs ++ w :: b) =
          ((readRun p c cs).1, (readRun p c cs).2 ++ w :: b) :=
        readRun_append hblank hw (fun e he => hclosed e (List.mem_append_left _ he)) b
      have hrest := readFrom_append hw b (p.after (readRun p c cs).1.source) (readRun p c cs).2
        (fun e he => hclosed e (List.mem_append_right _ he))
      rw [← Position.after_append, ← List.append_assoc, readRun_source] at hrest
      rw [List.cons_append, readFrom_cons hrun, hrest, List.append_assoc, List.append_assoc]
termination_by a.length
decreasing_by
  · exact readRun_length p c cs
  · exact Nat.lt_succ_self _

end FilterQuery
