/-
FilterQuery.Proofs.Cursor — how far the cursor moves.

`rest_eq` says that a call goes on where skipping its group goes on. This
module says where that is, by counting parentheses and nothing else: behind
the closing parenthesis that has just as many opening as closing ones between
it and the one behind the head, and at the end of the tokens if there is none.
In the same way a search after a mistake ends at the first separator with
balanced tokens in front of it.

Both are one notion, a token of some sort at an index with tokens in front of
it that close just what was open (`FoundAt`), so both are proved by one
induction along the tokens, with one step lemma (`foundAt_succ_iff`).

## Two loops

The library searches with a natural number as its count and takes the
separator behind a search at once. The loops that do this round by round are
written down beside it: `Search`, whose count is an integer and could fall
below zero, and `Separates`, which may search as often as it likes. They come
to the same: the count never does fall below zero, and no second search is
ever made, because a search ends in front of a separator or at the end.
-/
import FilterQuery.Proofs.Recovery
import Mathlib.Logic.Relation

namespace FilterQuery

namespace Parse

/-! ## 1. Tokens that close what is open -/

/-- Whether tokens close just the groups that are open in front of them: no part of
them from the start on closes more than there is to close, and all of them close it.
With nothing open in front, they hold equally many opening and closing parentheses. -/
structure Levels (depth : Nat) (ts : List Token) : Prop where
  closes_le : ∀ i ≤ ts.length, closes (ts.take i) ≤ opens (ts.take i) + depth
  total : closes ts = opens ts + depth

instance (depth : Nat) (ts : List Token) : Decidable (Levels depth ts) :=
  decidable_of_iff
    ((∀ i ≤ ts.length, closes (ts.take i) ≤ opens (ts.take i) + depth) ∧
      closes ts = opens ts + depth)
    ⟨fun h => ⟨h.1, h.2⟩, fun h => ⟨h.closes_le, h.total⟩⟩

theorem levels_nil_iff {depth : Nat} : Levels depth [] ↔ depth = 0 := by
  constructor
  · intro h
    simpa [opens, closes] using h.total.symm
  · rintro rfl
    exact ⟨by simp [opens, closes], by simp [opens, closes]⟩

/-- The first token changes how many groups are open, and the others close these. -/
theorem levels_cons_iff {depth : Nat} {t : Token} {ts : List Token} :
    Levels depth (t :: ts) ↔
      ∃ depth', depth' + closes [t] = depth + opens [t] ∧ Levels depth' ts := by
  constructor
  · intro h
    have hfirst : closes [t] ≤ opens [t] + depth := h.closes_le 1 (by simp)
    refine ⟨depth + opens [t] - closes [t], by omega, ?_, ?_⟩
    · intro i hi
      have hle := h.closes_le (i + 1) (Nat.succ_le_succ hi)
      rw [List.take_succ_cons, closes_cons_eq_add, opens_cons_eq_add] at hle
      omega
    · have htotal := h.total
      rw [closes_cons_eq_add, opens_cons_eq_add] at htotal
      omega
  · rintro ⟨depth', hdepth, h⟩
    refine ⟨?_, ?_⟩
    · rintro (_ | i) hi
      · simp [closes, opens]
      · have hle := h.closes_le i (Nat.le_of_succ_le_succ hi)
        rw [List.take_succ_cons, closes_cons_eq_add, opens_cons_eq_add]
        omega
    · rw [closes_cons_eq_add, opens_cons_eq_add, h.total]
      omega

/-- Whether a token of some sort stands at an index, and the tokens in front of it
close just the groups that are open in front of them all. -/
structure FoundAt (p : Token → Bool) (depth : Nat) (ts : List Token) (j : Nat) : Prop where
  token : ts[j]?.any p = true
  levels : Levels depth (ts.take j)

instance (p : Token → Bool) (depth : Nat) (ts : List Token) (j : Nat) :
    Decidable (FoundAt p depth ts j) :=
  decidable_of_iff (ts[j]?.any p = true ∧ Levels depth (ts.take j))
    ⟨fun h => ⟨h.1, h.2⟩, fun h => ⟨h.token, h.levels⟩⟩

theorem not_foundAt_nil {p : Token → Bool} {depth j : Nat} : ¬FoundAt p depth [] j := by
  intro h
  simpa using h.token

theorem foundAt_zero_iff {p : Token → Bool} {depth : Nat} {t : Token} {ts : List Token} :
    FoundAt p depth (t :: ts) 0 ↔ p t = true ∧ depth = 0 := by
  constructor
  · intro h
    exact ⟨by simpa using h.token, levels_nil_iff.mp h.levels⟩
  · rintro ⟨ht, hdepth⟩
    exact ⟨by simpa using ht, levels_nil_iff.mpr hdepth⟩

/-- Behind the first token, the same is found with as many groups open as this token
leaves open. -/
theorem foundAt_succ_iff {p : Token → Bool} {depth j : Nat} {t : Token} {ts : List Token}
    {depth' : Nat} (hdepth : depth' + closes [t] = depth + opens [t]) :
    FoundAt p depth (t :: ts) (j + 1) ↔ FoundAt p depth' ts j := by
  constructor
  · rintro ⟨htoken, hlevels⟩
    obtain ⟨depth'', hdepth', hlevels⟩ := levels_cons_iff.mp hlevels
    obtain rfl : depth'' = depth' := by omega
    exact ⟨by simpa using htoken, hlevels⟩
  · rintro ⟨htoken, hlevels⟩
    exact ⟨by simpa using htoken, levels_cons_iff.mpr ⟨depth', hdepth, hlevels⟩⟩

/-- Nothing is found behind a closing parenthesis for which nothing is open. -/
theorem not_foundAt_succ {p : Token → Bool} {j : Nat} {t : Token} {ts : List Token}
    (ht : t.kind = .closeParen) : ¬FoundAt p 0 (t :: ts) (j + 1) := by
  intro h
  obtain ⟨depth', hdepth, _⟩ := levels_cons_iff.mp h.levels
  simp [closes, opens, ht] at hdepth

/-- Whether tokens are what is left behind the first place where something is found,
with as many more tokens passed over as are to be: nothing, if it is found nowhere. -/
def LeftBehind (p : Token → Bool) (past depth : Nat) (ts rest : List Token) : Prop :=
  (∃ j, FoundAt p depth ts j ∧ (∀ i < j, ¬FoundAt p depth ts i) ∧ rest = ts.drop (j + past)) ∨
    (∀ j, ¬FoundAt p depth ts j) ∧ rest = []

theorem leftBehind_nil (p : Token → Bool) (past depth : Nat) : LeftBehind p past depth [] [] :=
  .inr ⟨fun _ => not_foundAt_nil, rfl⟩

/-- It may be found at the first token. -/
theorem LeftBehind.here {p : Token → Bool} {t : Token} (ht : p t = true) (past : Nat)
    (ts : List Token) : LeftBehind p past 0 (t :: ts) ((t :: ts).drop past) :=
  .inl ⟨0, foundAt_zero_iff.mpr ⟨ht, rfl⟩, fun _ hi => absurd hi (Nat.not_lt_zero _),
    by rw [Nat.zero_add]⟩

/-- Otherwise it is looked for behind the first token, which changes how many groups
are open. -/
theorem LeftBehind.cons {p : Token → Bool} {past depth depth' : Nat} {t : Token}
    {ts rest : List Token} (hfirst : ¬(p t = true ∧ depth = 0))
    (hdepth : depth' + closes [t] = depth + opens [t]) (h : LeftBehind p past depth' ts rest) :
    LeftBehind p past depth (t :: ts) rest := by
  have hzero : ¬FoundAt p depth (t :: ts) 0 := fun h0 => hfirst (foundAt_zero_iff.mp h0)
  rcases h with ⟨j, hj, hbefore, hrest⟩ | ⟨hnone, hrest⟩
  · refine .inl ⟨j + 1, (foundAt_succ_iff hdepth).mpr hj, ?_, ?_⟩
    · rintro (_ | i) hi
      · exact hzero
      · exact fun hfound => hbefore i (Nat.lt_of_succ_lt_succ hi) ((foundAt_succ_iff hdepth).mp hfound)
    · rw [hrest, Nat.add_right_comm, List.drop_succ_cons]
  · refine .inr ⟨?_, hrest⟩
    rintro (_ | j)
    · exact hzero
    · exact fun hfound => hnone j ((foundAt_succ_iff hdepth).mp hfound)

theorem LeftBehind.eq_drop {p : Token → Bool} {past depth j : Nat} {ts rest : List Token}
    (h : LeftBehind p past depth ts rest) (hj : FoundAt p depth ts j)
    (hfirst : ∀ i < j, ¬FoundAt p depth ts i) : rest = ts.drop (j + past) := by
  rcases h with ⟨i, hi, hbefore, hrest⟩ | ⟨hnone, _⟩
  · obtain rfl : i = j :=
      Nat.le_antisymm (Nat.not_lt.mp fun hlt => hbefore j hlt hj)
        (Nat.not_lt.mp fun hlt => hfirst i hlt hi)
    exact hrest
  · exact absurd hj (hnone j)

theorem LeftBehind.eq_nil {p : Token → Bool} {past depth : Nat} {ts rest : List Token}
    (h : LeftBehind p past depth ts rest) (hnone : ∀ j, ¬FoundAt p depth ts j) : rest = [] := by
  rcases h with ⟨i, hi, _, _⟩ | ⟨_, hrest⟩
  · exact absurd hi (hnone i)
  · exact hrest

/-! ## 2. Skipping and searching -/

/-- Whether a token is a closing parenthesis. -/
def isClosing (t : Token) : Bool := t.kind == .closeParen

/-- **Skipping ends behind the parenthesis that closes the group**, and all the groups in
it, or at the end of the tokens. -/
theorem leftBehind_skipBalanced (depth : Nat) (ts : List Token) :
    LeftBehind isClosing 1 depth ts (skipBalanced (depth + 1) ts) := by
  induction ts generalizing depth with
  | nil => exact leftBehind_nil _ _ _
  | cons t ts ih =>
    obtain ⟨kind, lexeme, p⟩ := t
    cases kind with
    | openParen => exact .cons (by simp [isClosing]) rfl (ih (depth + 1))
    | closeParen =>
      cases depth with
      | zero => simpa [skipBalanced] using LeftBehind.here (p := isClosing) rfl 1 ts
      | succ depth =>
        have hskip : skipBalanced (depth + 1 + 1) (⟨.closeParen, lexeme, p⟩ :: ts) =
            skipBalanced (depth + 1) ts := by simp [skipBalanced]
        rw [hskip]
        exact .cons (by simp) rfl (ih depth)
    | _ => exact .cons (by simp [isClosing]) rfl (ih depth)

/-- **A search ends at the first separator** with tokens in front of it that close just
what was open, or at the end of the tokens. -/
theorem leftBehind_synchronize (depth : Nat) (ts : List Token) :
    LeftBehind isSeparator 0 depth ts (synchronize depth ts) := by
  induction ts generalizing depth with
  | nil => exact leftBehind_nil _ _ _
  | cons t ts ih =>
    obtain ⟨kind, lexeme, p⟩ := t
    cases kind with
    | openParen => exact .cons (by simp [isSeparator]) rfl (ih (depth + 1))
    | closeParen =>
      cases depth with
      | zero => exact .here rfl 0 ts
      | succ depth => exact .cons (by simp) rfl (ih depth)
    | comma =>
      cases depth with
      | zero => exact .here rfl 0 ts
      | succ depth => exact .cons (by simp) rfl (ih (depth + 1))
    | _ => exact .cons (by simp [isSeparator]) rfl (ih depth)

/-- The partner of a parenthesis is one token only. -/
theorem FoundAt.closing_unique {depth i j : Nat} {ts : List Token}
    (hi : FoundAt isClosing depth ts i) (hj : FoundAt isClosing depth ts j) : i = j := by
  induction ts generalizing depth i j with
  | nil => exact absurd hi not_foundAt_nil
  | cons t ts ih =>
    have hnot_both : ∀ {i}, FoundAt isClosing depth (t :: ts) 0 →
        ¬FoundAt isClosing depth (t :: ts) (i + 1) := by
      intro i h
      obtain ⟨hclosing, rfl⟩ := foundAt_zero_iff.mp h
      exact not_foundAt_succ (by simpa [isClosing] using hclosing)
    cases i with
    | zero =>
      cases j with
      | zero => rfl
      | succ j => exact absurd hj (hnot_both hi)
    | succ i =>
      cases j with
      | zero => exact absurd hi (hnot_both hj)
      | succ j =>
        obtain ⟨depth', hdepth, _⟩ := levels_cons_iff.mp hi.levels
        rw [ih ((foundAt_succ_iff hdepth).mp hi) ((foundAt_succ_iff hdepth).mp hj)]

/-! ## 3. The count of a search -/

/-- A search under way: how many groups it counts as open, and the tokens ahead. The
count is an integer, so that taking one from zero would show. -/
structure Search where
  depth : Int
  rest : List Token

namespace Search

/-- One round of a search, unless it is over: it stops in front of a separator that it
meets with nothing counted as open, and counts any other token. -/
def next? (c : Search) : Option Search :=
  match c.rest with
  | [] => none
  | t :: ts =>
    if isSeparator t ∧ c.depth = 0 then none
    else
      match t.kind with
      | .openParen => some ⟨c.depth + 1, ts⟩
      | .closeParen => some ⟨c.depth - 1, ts⟩
      | _ => some ⟨c.depth, ts⟩

/-- Whether a search comes by another one in some number of rounds. -/
def Reaches : Search → Search → Prop := Relation.ReflTransGen fun c c' => c.next? = some c'

/-- What a round does: it passes one token, which it counts if it is a parenthesis, and
which is no separator with nothing open. -/
theorem next?_eq_some {c c' : Search} (h : c.next? = some c') :
    ∃ t, c.rest = t :: c'.rest ∧ c'.depth + closes [t] = c.depth + opens [t] ∧
      ¬(isSeparator t = true ∧ c.depth = 0) := by
  obtain ⟨depth, rest⟩ := c
  unfold next? at h
  split at h
  · cases h
  · next t ts hrest =>
    obtain rfl : rest = t :: ts := hrest
    split at h
    · cases h
    · next hsep =>
      refine ⟨t, ?_⟩
      split at h
      · next hkind =>
        cases h
        exact ⟨rfl, by simp [opens, closes, hkind], hsep⟩
      · next hkind =>
        cases h
        exact ⟨rfl, by simp [opens, closes, hkind], hsep⟩
      · next hopen hclose =>
        cases h
        have hopens : opens [t] = 0 := by simpa [opens] using hopen
        have hcloses : closes [t] = 0 := by simpa [closes] using hclose
        exact ⟨rfl, by simp [hopens, hcloses], hsep⟩

/-- Where a search is over, it stands in front of a separator with nothing counted as
open, or no tokens are left. -/
theorem next?_eq_none {c : Search} (h : c.next? = none) :
    c.rest = [] ∨ ∃ t ts, c.rest = t :: ts ∧ isSeparator t = true ∧ c.depth = 0 := by
  obtain ⟨depth, rest⟩ := c
  unfold next? at h
  split at h
  · next hrest => exact .inl hrest
  · next t ts hrest =>
    split at h
    · next hsep => exact .inr ⟨t, ts, hrest, hsep⟩
    · split at h <;> cases h

/-- What a search keeps from round to round: its count is that of the tokens it has
passed and not below zero, and the end is where it was from the start on. -/
structure Counts (ts : List Token) (c : Search) : Prop where
  depth_nonneg : 0 ≤ c.depth
  passed : ∃ us, ts = us ++ c.rest ∧ c.depth = opens us - closes us
  synchronize : synchronize c.depth.toNat c.rest = synchronize 0 ts

theorem Counts.start (ts : List Token) : Counts ts ⟨0, ts⟩ :=
  ⟨Int.le_refl 0, ⟨[], rfl, rfl⟩, rfl⟩

/-- A token that a search passes changes how many groups are open behind it. -/
theorem synchronize_cons {t : Token} {ts : List Token} {depth depth' : Nat}
    (hdepth : depth' + closes [t] = depth + opens [t])
    (hsep : ¬(isSeparator t = true ∧ depth = 0)) :
    Parse.synchronize depth (t :: ts) = Parse.synchronize depth' ts := by
  obtain ⟨kind, lexeme, p⟩ := t
  cases kind with
  | openParen =>
    obtain rfl : depth' = depth + 1 := hdepth
    rfl
  | closeParen =>
    obtain rfl : depth' + 1 = depth := hdepth
    rfl
  | comma =>
    obtain rfl : depth' = depth := hdepth
    cases depth' with
    | zero => exact absurd ⟨rfl, rfl⟩ hsep
    | succ depth => rfl
  | _ =>
    obtain rfl : depth' = depth := hdepth
    rfl

/-- One round: what is counted off has been counted before. -/
theorem Counts.next {ts : List Token} {c c' : Search} (h : Counts ts c)
    (hnext : c.next? = some c') : Counts ts c' := by
  obtain ⟨t, hrest, hdepth, hsep⟩ := next?_eq_some hnext
  obtain ⟨us, hts, hcount⟩ := h.passed
  have hnonneg := h.depth_nonneg
  have hle : (closes [t] : Int) ≤ c.depth + opens [t] := by
    by_cases hkind : t.kind = .closeParen
    · have hcloses : closes [t] = 1 := by simp [closes, hkind]
      have hopen : c.depth ≠ 0 := fun hzero => hsep ⟨by simp [isSeparator, hkind], hzero⟩
      omega
    · have hcloses : closes [t] = 0 := by simp [closes, hkind]
      omega
  refine ⟨by omega, ⟨us ++ [t], ?_, ?_⟩, ?_⟩
  · rw [hts, hrest, List.append_assoc, List.singleton_append]
  · rw [opens, closes, List.countP_append, List.countP_append, ← opens, ← opens, ← closes,
      ← closes]
    omega
  · rw [← h.synchronize, hrest]
    refine (synchronize_cons (by omega) ?_).symm
    exact fun hstop => hsep ⟨hstop.1, by omega⟩

/-- All rounds. -/
theorem Counts.of_reaches {ts : List Token} {c : Search} (h : Reaches ⟨0, ts⟩ c) :
    Counts ts c := by
  induction h with
  | refl => exact .start ts
  | tail _ hnext ih => exact ih.next hnext

/-- Where a search is over, it has found the end. -/
theorem Counts.rest_eq {ts : List Token} {c : Search} (h : Counts ts c) (hover : c.next? = none) :
    c.rest = Parse.synchronize 0 ts := by
  rw [← h.synchronize]
  rcases next?_eq_none hover with hrest | ⟨t, us, hrest, ht, hdepth⟩
  · rw [hrest]
    rfl
  · rw [hrest, hdepth]
    exact (synchronize_of_isSeparator ht).symm

/-- Every search is over after some rounds, each of which passes a token. -/
theorem exists_over (c : Search) : ∃ c', Reaches c c' ∧ c'.next? = none := by
  generalize hn : c.rest.length = n
  induction n generalizing c with
  | zero =>
    refine ⟨c, .refl, ?_⟩
    rw [next?, List.eq_nil_of_length_eq_zero hn]
  | succ n ih =>
    cases hnext : c.next? with
    | none => exact ⟨c, .refl, hnext⟩
    | some c' =>
      obtain ⟨t, hrest, _⟩ := next?_eq_some hnext
      rw [hrest, List.length_cons] at hn
      obtain ⟨last, hreaches, hover⟩ := ih c' (Nat.succ.inj hn)
      exact ⟨last, .head hnext hreaches, hover⟩

end Search

/-! ## 4. Searches for one separator -/

/-- The loop that takes what stands behind an argument, with the number of searches it
makes: a comma or a closing parenthesis ends it, and so does the end of the tokens;
anything else is reported, searched over, and looked at again. -/
inductive Separates (b : Bounds) : State → Nat → Bool × State → Prop
  | comma {s : State} {t : Token} {ts : List Token} (rest : s.rest = t :: ts)
      (kind : t.kind = .comma) : Separates b s 0 (true, { s with rest := ts })
  | closed {s : State} {t : Token} {ts : List Token} (rest : s.rest = t :: ts)
      (kind : t.kind = .closeParen) : Separates b s 0 (false, { s with rest := ts })
  | ended {s : State} (rest : s.rest = []) :
      Separates b s 0 (false, s.unexpected b .closeParen)
  | searched {s : State} {t : Token} {ts : List Token} {n : Nat} {r : Bool × State}
      (rest : s.rest = t :: ts) (kind : isSeparator t = false)
      (again : Separates b { s.unexpected b .separator with rest := synchronize 0 s.rest } n r) :
      Separates b s (n + 1) r

/-- Whether a separator or nothing stands ahead. -/
def atSeparator (ts : List Token) : Bool := ts.head?.all isSeparator

/-- A search leaves a separator ahead, or nothing. -/
theorem atSeparator_synchronize (depth : Nat) (ts : List Token) :
    atSeparator (synchronize depth ts) = true := by
  cases h : synchronize depth ts with
  | nil => rfl
  | cons t us => exact isSeparator_of_synchronize h

theorem expectSeparator_of_atSeparator {s : State} (b : Bounds)
    (h : atSeparator s.rest = true) : s.expectSeparator b = s := by
  obtain ⟨rest, errors, cut⟩ := s
  cases rest with
  | nil => rfl
  | cons t ts =>
    have ht : isSeparator t = true := h
    simp [State.expectSeparator, ht]

/-- In front of a separator, or of nothing, no search is made. -/
theorem separates_of_atSeparator {b : Bounds} {s : State} {n : Nat} {r : Bool × State}
    (h : atSeparator s.rest = true) : Separates b s n r ↔ n = 0 ∧ r = separator b s := by
  obtain ⟨rest, errors, cut⟩ := s
  cases rest with
  | nil =>
    rw [separator_of_nil rfl]
    constructor
    · rintro (⟨⟨⟩, _⟩ | ⟨⟨⟩, _⟩ | _ | ⟨⟨⟩, _, _⟩)
      exact ⟨rfl, rfl⟩
    · rintro ⟨rfl, rfl⟩
      exact .ended rfl
  | cons t ts =>
    have ht : isSeparator t = true := h
    rw [separator_of_isSeparator b ts errors cut ht]
    constructor
    · intro hloop
      cases hloop with
      | comma hrest kind =>
        cases hrest
        exact ⟨rfl, by simp [kind]⟩
      | closed hrest kind =>
        cases hrest
        exact ⟨rfl, by simp [kind]⟩
      | ended hrest => cases hrest
      | searched hrest kind _ =>
        cases hrest
        rw [ht] at kind
        cases kind
    · rintro ⟨rfl, rfl⟩
      obtain ⟨kind, lexeme, p⟩ := t
      cases kind with
      | comma => exact .comma rfl rfl
      | closeParen => exact .closed rfl rfl
      | _ => cases ht

/-- The state behind the report and the search, from which the loop goes on. -/
theorem separator_searched {b : Bounds} {s : State} {t : Token} {ts : List Token}
    (hs : s.rest = t :: ts) (ht : isSeparator t = false) :
    separator b { s.unexpected b .separator with rest := synchronize 0 s.rest } = separator b s := by
  have hexpect : s.expectSeparator b = s.unexpected b .separator := by
    simp [State.expectSeparator, hs, ht]
  unfold separator
  rw [expectSeparator_of_atSeparator b (atSeparator_synchronize 0 s.rest), hexpect]
  simp only [synchronize_synchronize, State.unexpected_rest]

/-- **The loop makes one search if it needs any**, and ends as `separator` does. -/
theorem separates_iff {b : Bounds} {s : State} {n : Nat} {r : Bool × State} :
    Separates b s n r ↔ n = (if atSeparator s.rest then 0 else 1) ∧ r = separator b s := by
  cases h : atSeparator s.rest with
  | true => simpa using separates_of_atSeparator h
  | false =>
    obtain ⟨t, ts, hs, ht⟩ : ∃ t ts, s.rest = t :: ts ∧ isSeparator t = false := by
      cases hs : s.rest with
      | nil => simp [atSeparator, hs] at h
      | cons t ts => exact ⟨t, ts, rfl, by simpa [atSeparator, hs] using h⟩
    have hafter := atSeparator_synchronize 0 s.rest
    constructor
    · intro hloop
      cases hloop with
      | comma hrest kind => simp [atSeparator, hrest, isSeparator, kind] at h
      | closed hrest kind => simp [atSeparator, hrest, isSeparator, kind] at h
      | ended hrest => simp [atSeparator, hrest] at h
      | searched _ _ again =>
        obtain ⟨rfl, hr⟩ := (separates_of_atSeparator hafter).mp again
        exact ⟨rfl, hr.trans (separator_searched hs ht)⟩
    · rintro ⟨rfl, rfl⟩
      refine .searched hs ht ((separates_of_atSeparator hafter).mpr ⟨rfl, ?_⟩)
      exact (separator_searched hs ht).symm

/-! ## 5. Every move -/

/-- Whether a closing parenthesis at an index of some tokens belongs to an opening one
right in front of them: between the two stand equally many of both sorts, and no part of
what stands there closes more than it opens. -/
def IsPartner (ts : List Token) (j : Nat) : Prop := FoundAt isClosing 0 ts j

/-- Whether a separator stands at an index of some tokens, with equally many opening and
closing parentheses in front of it, no part of which closes more than it opens. -/
def IsStop (ts : List Token) (j : Nat) : Prop := FoundAt isSeparator 0 ts j

/-- **How far the cursor moves is a matter of counting parentheses.** Whatever the tokens
and the limit are:

* A call whose head is followed by an opening parenthesis goes on right behind the closing
  one that belongs to it, and at the end of the tokens if there is none. This is where
  skipping the group goes on.
* A search goes on at the first separator with balanced tokens in front of it, and at the
  end of the tokens if there is none.
* The rounds of a search come to an end, and they end there. Nothing is ever taken from a
  count of zero.
* Behind an argument one search is made at most, and none in front of a separator. -/
theorem cursor_moves (b : Bounds) :
    (∀ depth head (s : State), opensParen s.rest = true →
      (call b depth head s).2.rest = skipBalanced 0 s.rest ∧
      (∀ j, IsPartner s.rest.tail j → (call b depth head s).2.rest = s.rest.tail.drop (j + 1)) ∧
      ((∀ j, ¬IsPartner s.rest.tail j) → (call b depth head s).2.rest = [])) ∧
    (∀ ts : List Token,
      (∀ j, IsStop ts j → (∀ i < j, ¬IsStop ts i) → synchronize 0 ts = ts.drop j) ∧
      ((∀ j, ¬IsStop ts j) → synchronize 0 ts = [])) ∧
    (∀ ts : List Token,
      (∃ c, Search.Reaches ⟨0, ts⟩ c ∧ c.next? = none) ∧
      ∀ c, Search.Reaches ⟨0, ts⟩ c → 0 ≤ c.depth ∧
        (c.next? = none → c.rest = synchronize 0 ts) ∧
        ∀ c', c.next? = some c' → c'.depth < c.depth → 0 < c.depth) ∧
    ∀ (s : State) (n : Nat) (r : Bool × State),
      Separates b s n r ↔ n = (if atSeparator s.rest then 0 else 1) ∧ r = separator b s := by
  refine ⟨?_, ?_, ?_, fun s n r => separates_iff⟩
  · intro depth head s hopen
    have hrest : (call b depth head s).2.rest = skipBalanced 0 s.rest := by
      rw [(rest_eq b).1, if_pos hopen]
    have hbehind := leftBehind_skipBalanced 0 s.rest.tail
    rw [Nat.zero_add, ← skipBalanced_of_opensParen hopen, ← hrest] at hbehind
    refine ⟨hrest, ?_, hbehind.eq_nil⟩
    intro j hj
    refine hbehind.eq_drop hj fun i hlt hi => ?_
    exact absurd (FoundAt.closing_unique hi hj) (Nat.ne_of_lt hlt)
  · intro ts
    have hsearch := leftBehind_synchronize 0 ts
    exact ⟨fun j hj hfirst => hsearch.eq_drop hj hfirst, hsearch.eq_nil⟩
  · intro ts
    refine ⟨Search.exists_over ⟨0, ts⟩, ?_⟩
    intro c hreaches
    have hcounts := Search.Counts.of_reaches hreaches
    refine ⟨hcounts.depth_nonneg, hcounts.rest_eq, ?_⟩
    intro c' hnext hless
    exact Int.lt_of_le_of_lt (hcounts.next hnext).depth_nonneg hless

/-- Behind the head of `f((,) b)c)` the group ends in front of `c`, whether it is read as
arguments or skipped. A search from inside the group ends in front of the parenthesis that
closes it. -/
theorem cursor_moves_of_group :
    let token (kind : Token.Kind) : Token := ⟨kind, "", .start⟩
    let name (s : String) : Token := token (.identifier s)
    let rest := [token .openParen, token .openParen, token .comma, token .closeParen, name "b",
      token .closeParen, name "c", token .closeParen]
    let behind (limit : Nat) : List Token :=
      (call ⟨limit, .start⟩ 0 (name "f") ⟨rest, [], false⟩).2.rest
    opensParen rest = true ∧ IsPartner rest.tail 4 ∧ IsStop rest.tail 4 ∧
      behind 0 = [name "c", token .closeParen] ∧ behind 1 = [name "c", token .closeParen] ∧
      synchronize 0 rest.tail = [token .closeParen, name "c", token .closeParen] := by
  intro token name rest behind
  have hopen : opensParen rest = true := by decide
  have hpartner : FoundAt isClosing 0 rest.tail 4 := by decide
  have hstop : FoundAt isSeparator 0 rest.tail 4 := by decide
  have hfirst : ∀ i < 4, ¬FoundAt isSeparator 0 rest.tail i := by decide
  have hcall : ∀ limit, behind limit = rest.tail.drop 5 := fun limit =>
    ((cursor_moves ⟨limit, .start⟩).1 0 (name "f") ⟨rest, [], false⟩ hopen).2.1 4 hpartner
  exact ⟨hopen, hpartner, hstop, hcall 0, hcall 1,
    ((cursor_moves ⟨0, .start⟩).2.1 rest.tail).1 4 hstop hfirst⟩

end Parse

end FilterQuery
