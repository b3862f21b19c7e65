/-
FilterQuery.Json.Reading — JSON text read as far as it goes.

A schema file may be wrong in two ways: it may not be JSON, or it may be
JSON of the wrong shape. The mistake that stands first in the text is the
one to report, so a reader of schemas has to see what stood before a
mistake as well. `read` therefore never fails. It gives a `Reading`, the
tree of everything up to the first mistake, with the mistake as a leaf;
there is at most one, and nothing is read behind it.

Numbers are read for their form. A whole number that fits 64 bits keeps
its value, any other number is just a `fraction`; one beyond the range of
binary64 is a mistake, which its first digits and its exponent decide.
Brackets may be nested up to a given depth.
-/
import FilterQuery.Binary64.Basic
import FilterQuery.Text.Character

namespace FilterQuery

namespace Json

/-- Why a text is not JSON. -/
inductive Fault where
  /-- The text ends too early. -/
  | truncated
  /-- Something stands where it may not. -/
  | malformed
deriving DecidableEq, Repr

/-- A JSON text up to the first mistake. -/
inductive Reading where
  | null
  | boolean (b : Bool)
  | integer (n : Int)
  | fraction
  | string (s : String)
  | array (items : List Reading)
  /-- A mistake that stands between members is in `broken`. -/
  | object (members : List (String × Reading)) (broken : Option Fault)
  | fault (f : Fault)
deriving Repr

/-- A text of fewer than `n` characters. What is left behind something that
begins with a text of `n` characters is of this type, which is why reading
ends. -/
abbrev Left (n : Nat) := { rest : List Char // rest.length < n }

/-- White space between the parts of a JSON text. -/
def isSpace (c : Char) : Bool := c == ' ' || c == '\n' || c == '\t' || c == '\r'

/-- A text without the white space it begins with. -/
def skipSpace (cs : List Char) : List Char := cs.dropWhile isSpace

theorem skipSpace_length (cs : List Char) : (skipSpace cs).length ≤ cs.length :=
  (List.dropWhile_sublist isSpace).length_le

/-! ## Strings -/

/-- The value of a digit in base sixteen. -/
def hexValue? (c : Char) : Option Nat :=
  if c.isDigit then some (digitValue c)
  else if 'a' ≤ c ∧ c ≤ 'f' then some (c.toNat - 'a'.toNat + 10)
  else if 'A' ≤ c ∧ c ≤ 'F' then some (c.toNat - 'A'.toNat + 10)
  else none

/-- Whether a text has fewer than four bytes. -/
def isShort (cs : List Char) : Bool :=
  (cs.take 4).foldl (fun n c => n + c.utf8Size) 0 < 4

/-- Read four digits in base sixteen. -/
def readHex (cs : List Char) : Except Fault (Nat × List Char) :=
  let fail := Except.error (if isShort cs then Fault.truncated else .malformed)
  match cs with
  | a :: b :: c :: d :: rest =>
    match hexValue? a, hexValue? b, hexValue? c, hexValue? d with
    | some a, some b, some c, some d => .ok (((a * 16 + b) * 16 + c) * 16 + d, rest)
    | _, _, _, _ => fail
  | _ => fail

/-- Read the second half of a surrogate pair whose first half is `high`. -/
def readLowSurrogate (high : Nat) (cs : List Char) : Except Fault (Char × List Char) :=
  match cs with
  | [] => .error .truncated
  | '\\' :: [] => .error .truncated
  | '\\' :: 'u' :: rest =>
    match readHex rest with
    | .error f => .error f
    | .ok (low, rest) =>
      if 0xDC00 ≤ low ∧ low ≤ 0xDFFF then
        .ok (Char.ofNat ((high - 0xD800) * 0x400 + (low - 0xDC00) + 0x10000), rest)
      else .error .malformed
  | _ => .error .malformed

/-- Read what stands behind a backslash. -/
def readEscape (cs : List Char) : Except Fault (Char × List Char) :=
  match cs with
  | [] => .error .truncated
  | '"' :: rest => .ok ('"', rest)
  | '\\' :: rest => .ok ('\\', rest)
  | '/' :: rest => .ok ('/', rest)
  | 'b' :: rest => .ok ('\x08', rest)
  | 'f' :: rest => .ok ('\x0c', rest)
  | 'n' :: rest => .ok ('\n', rest)
  | 'r' :: rest => .ok ('\r', rest)
  | 't' :: rest => .ok ('\t', rest)
  | 'u' :: rest =>
    match readHex rest with
    | .error f => .error f
    | .ok (n, rest) =>
      if n < 0xD800 ∨ 0xDFFF < n then .ok (Char.ofNat n, rest)
      else if 0xDC00 ≤ n then .error .malformed
      else readLowSurrogate n rest
  | _ :: _ => .error .malformed

theorem readHex_length {cs rest : List Char} {n : Nat} (h : readHex cs = .ok (n, rest)) :
    rest.length < cs.length := by
  unfold readHex at h
  dsimp only at h
  split at h
  · split at h
    · simp only [Except.ok.injEq, Prod.mk.injEq] at h
      obtain ⟨_, rfl⟩ := h
      simp only [List.length_cons]
      omega
    · simp at h
  · simp at h

theorem readLowSurrogate_length {high : Nat} {cs rest : List Char} {c : Char}
    (h : readLowSurrogate high cs = .ok (c, rest)) : rest.length < cs.length := by
  unfold readLowSurrogate at h
  split at h <;> try simp at h
  split at h
  · simp at h
  · next hx =>
    split at h
    · simp only [Except.ok.injEq, Prod.mk.injEq] at h
      obtain ⟨_, rfl⟩ := h
      have := readHex_length hx
      simp only [List.length_cons]
      omega
    · simp at h

theorem readEscape_length {cs rest : List Char} {c : Char}
    (h : readEscape cs = .ok (c, rest)) : rest.length < cs.length := by
  unfold readEscape at h
  split at h
  case h_1 => simp at h
  case h_10 =>
    split at h
    · simp at h
    · next hx =>
      have := readHex_length hx
      split at h
      · simp only [Except.ok.injEq, Prod.mk.injEq] at h
        obtain ⟨_, rfl⟩ := h
        simp only [List.length_cons]
        omega
      · split at h
        · simp at h
        · have := readLowSurrogate_length h
          simp only [List.length_cons]
          omega
  case h_11 => simp at h
  all_goals
    simp only [Except.ok.injEq, Prod.mk.injEq] at h
    obtain ⟨_, rfl⟩ := h
    simp

/-- Read a string behind its opening quote. `done` holds the characters
already read, latest first. -/
def readStringBelow (n : Nat) (done : List Char) (cs : List Char) (hn : cs.length ≤ n) :
    Except Fault (String × Left n) :=
  match cs with
  | [] => .error .truncated
  | c :: rest =>
    have hn : rest.length < n := hn
    if c = '"' then .ok (String.ofList done.reverse, ⟨rest, hn⟩)
    else if c = '\\' then
      match h : readEscape rest with
      | .error f => .error f
      | .ok (e, behind) =>
        have hlt := readEscape_length h
        readStringBelow n (e :: done) behind (by omega)
    else if c.toNat < 0x20 then .error .malformed
    else readStringBelow n (c :: done) rest (by omega)
termination_by cs.length

/-- Read a string behind its opening quote. -/
def readString (cs : List Char) : Except Fault (String × Left (cs.length + 1)) :=
  readStringBelow (cs.length + 1) [] cs (Nat.le_succ _)

/-! ## Numbers -/

/-- The largest number that the leading digits of a number make up,
2^64 - 1. -/
def maxLeading : Nat := 18446744073709551615

/-- The leading digits of a number with the power of ten that belongs to
them. -/
structure Leading where
  digits : Nat
  exponent : Int
deriving DecidableEq, Repr

/-- Take the digits before the point onto a number as long as it fits. The
digits left out count as powers of ten. -/
def takeWhole (n : Nat) : List Char → Leading
  | [] => ⟨n, 0⟩
  | c :: cs =>
    let next := n * 10 + digitValue c
    if next ≤ maxLeading then takeWhole next cs else ⟨n, cs.length + 1⟩

/-- Take the digits behind the point onto a number as long as it fits. The
digits left out do not count. -/
def Leading.takeFraction (l : Leading) : List Char → Leading
  | [] => l
  | c :: cs =>
    let next := l.digits * 10 + digitValue c
    if next ≤ maxLeading then takeFraction ⟨next, l.exponent - 1⟩ cs else l

/-- 2^1024, which is beyond the range of binary64. -/
def binary64Bound : Nat := Nat.shiftLeft 1 1024

/-- Whether the number that leading digits stand for is beyond the range of
binary64. It is a product of two rounded numbers and itself rounded. -/
def Leading.overflows (l : Leading) : Bool :=
  if l.digits = 0 ∨ l.exponent < 0 then false
  else if 308 < l.exponent then true
  else
    (binary64Bound : Rat) ≤
      ((Binary64.ofInt l.digits).mul (.ofInt (pow10 l.exponent.toNat : Nat))).toRat

/-- The parts of a JSON number behind its sign: the digits before the
point, those behind it, and the exponent if one is written. -/
structure NumberParts where
  whole : List Char
  fraction : List Char
  exponent : Option Int
deriving Repr

/-- Digits that have to be there. -/
def readDigits (cs : List Char) : Except Fault (List Char × List Char) :=
  match cs with
  | [] => .error .truncated
  | c :: _ =>
    if c.isDigit then .ok (cs.takeWhile Char.isDigit, cs.dropWhile Char.isDigit)
    else .error .malformed

/-- The digits before the point. A zero stands alone. -/
def readWhole (cs : List Char) : Except Fault (List Char × List Char) :=
  match readDigits cs with
  | .error f => .error f
  | .ok (ds, rest) =>
    if ds.head? = some '0' ∧ 1 < ds.length then .error .malformed else .ok (ds, rest)

/-- The point and the digits behind it, if there is a point. -/
def readFraction (cs : List Char) : Except Fault (List Char × List Char) :=
  match cs with
  | '.' :: rest => readDigits rest
  | _ => .ok ([], cs)

/-- The exponent, if there is one. -/
def readExponent (cs : List Char) : Except Fault (Option Int × List Char) :=
  match cs with
  | [] => .ok (none, [])
  | e :: rest =>
    if e = 'e' ∨ e = 'E' then
      let (negative, digits) :=
        match rest with
        | '-' :: r => (true, r)
        | '+' :: r => (false, r)
        | r => (false, r)
      match readDigits digits with
      | .error f => .error f
      | .ok (ds, behind) =>
        let n : Int := natOfDigits ds
        .ok (some (if negative then -n else n), behind)
    else .ok (none, cs)

/-- The parts of a number and the text behind it. -/
def readNumberParts (cs : List Char) : Except Fault (NumberParts × List Char) :=
  match readWhole cs with
  | .error f => .error f
  | .ok (whole, cs) =>
    match readFraction cs with
    | .error f => .error f
    | .ok (fraction, cs) =>
      match readExponent cs with
      | .error f => .error f
      | .ok (exponent, rest) => .ok (⟨whole, fraction, exponent⟩, rest)

/-- The leading digits of a number, with its exponent. -/
def NumberParts.leading (p : NumberParts) : Leading :=
  let l := (takeWhole 0 p.whole).takeFraction p.fraction
  { l with exponent := l.exponent + p.exponent.getD 0 }

/-- What a number is read as. Negative zero is no whole number here. -/
def NumberParts.reading (negative : Bool) (p : NumberParts) : Except Fault Reading :=
  let n := natOfDigits p.whole
  let isWhole := p.fraction.isEmpty && p.exponent.isNone
  if isWhole && !negative && n ≤ maxLeading then .ok (.integer n)
  else if isWhole && negative && 0 < n && n ≤ 9223372036854775808 then .ok (.integer (-n))
  else if p.leading.overflows then .error .malformed
  else .ok .fraction

theorem readDigits_length {cs ds rest : List Char} (h : readDigits cs = .ok (ds, rest)) :
    rest.length < cs.length := by
  unfold readDigits at h
  split at h
  · simp at h
  · next c r =>
    split at h
    · next hd =>
      simp only [Except.ok.injEq, Prod.mk.injEq] at h
      obtain ⟨_, rfl⟩ := h
      have := (List.dropWhile_sublist (l := r) Char.isDigit).length_le
      simp only [List.dropWhile_cons, hd, if_true, List.length_cons]
      omega
    · simp at h

theorem readWhole_length {cs ds rest : List Char} (h : readWhole cs = .ok (ds, rest)) :
    rest.length < cs.length := by
  unfold readWhole at h
  split at h
  · simp at h
  · next hx =>
    split at h
    · simp at h
    · simp only [Except.ok.injEq, Prod.mk.injEq] at h
      obtain ⟨_, rfl⟩ := h
      exact readDigits_length hx

theorem readFraction_length {cs ds rest : List Char} (h : readFraction cs = .ok (ds, rest)) :
    rest.length ≤ cs.length := by
  unfold readFraction at h
  split at h
  · have := readDigits_length h
    simp only [List.length_cons]
    omega
  · simp only [Except.ok.injEq, Prod.mk.injEq] at h
    obtain ⟨_, rfl⟩ := h
    exact Nat.le_refl _

theorem readExponent_length {cs rest : List Char} {e : Option Int}
    (h : readExponent cs = .ok (e, rest)) : rest.length ≤ cs.length := by
  unfold readExponent at h
  split at h
  · simp only [Except.ok.injEq, Prod.mk.injEq] at h
    obtain ⟨_, rfl⟩ := h
    exact Nat.le_refl _
  · next c r =>
    split at h
    · dsimp only at h
      split at h
      · simp at h
      · next ds behind hx =>
        simp only [Except.ok.injEq, Prod.mk.injEq] at h
        obtain ⟨_, rfl⟩ := h
        have := readDigits_length hx
        split at this <;> simp only [List.length_cons] at this ⊢ <;> omega
    · simp only [Except.ok.injEq, Prod.mk.injEq] at h
      obtain ⟨_, rfl⟩ := h
      exact Nat.le_refl _

theorem readNumberParts_length {cs rest : List Char} {p : NumberParts}
    (h : readNumberParts cs = .ok (p, rest)) : rest.length < cs.length := by
  unfold readNumberParts at h
  split at h
  · simp at h
  · next h1 =>
    split at h
    · simp at h
    · next h2 =>
      split at h
      · simp at h
      · next h3 =>
        simp only [Except.ok.injEq, Prod.mk.injEq] at h
        obtain ⟨_, rfl⟩ := h
        have := readWhole_length h1
        have := readFraction_length h2
        have := readExponent_length h3
        omega

/-! ## Values -/

/-- Read the letters of a word. -/
def readWord (word : List Char) (cs : List Char) : Except Fault (List Char) :=
  match word, cs with
  | [], cs => .ok cs
  | _ :: _, [] => .error .truncated
  | w :: ws, c :: cs => if w = c then readWord ws cs else .error .malformed

theorem readWord_length {word cs rest : List Char} (h : readWord word cs = .ok rest) :
    rest.length ≤ cs.length := by
  fun_induction readWord word cs with
  | case1 => simp_all
  | case2 => simp at h
  | case3 _ _ _ ih => have := ih h; simp only [List.length_cons]; omega
  | case4 => simp at h

/-- Where reading stands behind a bracket or a value inside one. -/
inductive Place (n : Nat) where
  /-- Behind the closing bracket. -/
  | closed (rest : Left n)
  /-- Before the first character of an item or a member. -/
  | item (first : Char) (rest : Left n)
  | fault (f : Fault)

/-- Find the next item inside a bracket that `close` closes. Between two
items there is exactly one comma. -/
def nextPlace (n : Nat) (close : Char) (first : Bool) (cs : List Char) (hn : cs.length ≤ n) :
    Place n :=
  have hs := skipSpace_length cs
  match h : skipSpace cs with
  | [] => .fault .truncated
  | c :: rest =>
    have hr : rest.length < n := by simp only [h, List.length_cons] at hs; omega
    if c = close then .closed ⟨rest, hr⟩
    else if first then .item c ⟨rest, hr⟩
    else if c = ',' then
      have hs' := skipSpace_length rest
      match h' : skipSpace rest with
      | [] => .fault .truncated
      | d :: behind =>
        if d = close then .fault .malformed
        else .item d ⟨behind, by simp only [h', List.length_cons] at hs'; omega⟩
    else .fault .malformed

/-- The first character of the value behind a key, and the text behind that
character. -/
def valueStart (cs : List Char) : Except Fault (Char × List Char) :=
  match skipSpace cs with
  | [] => .error .truncated
  | c :: rest =>
    if c = ':' then
      match skipSpace rest with
      | [] => .error .truncated
      | v :: behind => .ok (v, behind)
    else .error .malformed

theorem valueStart_length {cs rest : List Char} {v : Char} (h : valueStart cs = .ok (v, rest)) :
    rest.length < cs.length := by
  have hs := skipSpace_length cs
  unfold valueStart at h
  split at h
  · simp at h
  · next c r heq =>
    have hs' := skipSpace_length r
    split at h
    · split at h
      · simp at h
      · next heq' =>
        simp only [Except.ok.injEq, Prod.mk.injEq] at h
        obtain ⟨_, rfl⟩ := h
        simp only [heq, heq', List.length_cons] at hs hs'
        omega
    · simp at h

/-- A word whose first letter has been read. -/
def wordBelow (n : Nat) (value : Reading) (letters cs : List Char) (hn : cs.length < n) :
    Reading × Option (Left n) :=
  match h : readWord letters cs with
  | .error f => (.fault f, none)
  | .ok rest => (value, some ⟨rest, Nat.lt_of_le_of_lt (readWord_length h) hn⟩)

/-- A number behind its sign. -/
def numberBelow (n : Nat) (negative : Bool) (cs : List Char) (hn : cs.length ≤ n) :
    Reading × Option (Left n) :=
  match h : readNumberParts cs with
  | .error f => (.fault f, none)
  | .ok (parts, rest) =>
    match parts.reading negative with
    | .error f => (.fault f, none)
    | .ok v => (v, some ⟨rest, Nat.lt_of_lt_of_le (readNumberParts_length h) hn⟩)

mutual

/-- Read the value whose first character is `c`, with `rest` behind it.
`depth` brackets may still be opened. -/
def valueBelow (n : Nat) (depth : Nat) (c : Char) (rest : List Char) (hn : rest.length < n) :
    Reading × Option (Left n) :=
  if c = '"' then
    match readStringBelow n [] rest (Nat.le_of_lt hn) with
    | .error f => (.fault f, none)
    | .ok (s, r) => (.string s, some r)
  else if c = '[' then
    match depth with
    | 0 => (.fault .malformed, none)
    | depth + 1 => itemsBelow n depth [] rest (Nat.le_of_lt hn)
  else if c = '\x7b' then
    match depth with
    | 0 => (.fault .malformed, none)
    | depth + 1 => membersBelow n depth [] rest (Nat.le_of_lt hn)
  else if c = 'n' then wordBelow n .null ['u', 'l', 'l'] rest hn
  else if c = 't' then wordBelow n (.boolean true) ['r', 'u', 'e'] rest hn
  else if c = 'f' then wordBelow n (.boolean false) ['a', 'l', 's', 'e'] rest hn
  else if c = '-' then numberBelow n true rest (Nat.le_of_lt hn)
  else if c.isDigit then numberBelow n false (c :: rest) hn
  else (.fault .malformed, none)
termination_by (depth, rest.length)

/-- Read the items of an array up to its closing bracket. `done` holds the
items already read, latest first. -/
def itemsBelow (n : Nat) (depth : Nat) (done : List Reading) (cs : List Char)
    (hn : cs.length ≤ n) : Reading × Option (Left n) :=
  match nextPlace cs.length ']' done.isEmpty cs (Nat.le_refl _) with
  | .fault f => (.array (.fault f :: done).reverse, none)
  | .closed rest => (.array done.reverse, some ⟨rest.1, Nat.lt_of_lt_of_le rest.2 hn⟩)
  | .item c rest =>
    match valueBelow cs.length depth c rest.1 rest.2 with
    | (v, none) => (.array (v :: done).reverse, none)
    | (v, some behind) =>
      itemsBelow n depth (v :: done) behind.1 (Nat.le_of_lt (Nat.lt_of_lt_of_le behind.2 hn))
termination_by (depth, cs.length)

/-- Read the members of an object up to its closing brace. `done` holds the
members already read, latest first. -/
def membersBelow (n : Nat) (depth : Nat) (done : List (String × Reading)) (cs : List Char)
    (hn : cs.length ≤ n) : Reading × Option (Left n) :=
  match nextPlace cs.length '\x7d' done.isEmpty cs (Nat.le_refl _) with
  | .fault f => (.object done.reverse (some f), none)
  | .closed rest => (.object done.reverse none, some ⟨rest.1, Nat.lt_of_lt_of_le rest.2 hn⟩)
  | .item c rest =>
    if c ≠ '"' then (.object done.reverse (some .malformed), none)
    else
      match readStringBelow cs.length [] rest.1 (Nat.le_of_lt rest.2) with
      | .error f => (.object done.reverse (some f), none)
      | .ok (key, behindKey) =>
        match hv : valueStart behindKey.1 with
        | .error f => (.object ((key, .fault f) :: done).reverse none, none)
        | .ok (v, rest) =>
          have hr := Nat.lt_trans (valueStart_length hv) behindKey.2
          match valueBelow cs.length depth v rest hr with
          | (value, none) => (.object ((key, value) :: done).reverse none, none)
          | (value, some behind) =>
            membersBelow n depth ((key, value) :: done) behind.1
              (Nat.le_of_lt (Nat.lt_of_lt_of_le behind.2 hn))
termination_by (depth, cs.length)

end

/-- A JSON text: its value up to the first mistake, and whether something
other than white space stands behind the value. -/
structure Document where
  value : Reading
  trailing : Bool
deriving Repr

/-- Read a JSON text in which at most `depth` brackets are nested. -/
def read (depth : Nat) (text : String) : Document :=
  match skipSpace text.toList with
  | [] => ⟨.fault .truncated, false⟩
  | c :: rest =>
    match valueBelow (rest.length + 1) depth c rest (Nat.lt_succ_self _) with
    | (v, none) => ⟨v, false⟩
    | (v, some behind) => ⟨v, !(skipSpace behind.1).isEmpty⟩

/-! ## Mistakes inside a reading -/

mutual

/-- The mistake inside a value, if there is one. -/
def Reading.fault? : Reading → Option Fault
  | .fault f => some f
  | .array items => faultOfItems items
  | .object members broken => faultOfMembers broken members
  | _ => none

/-- The first mistake inside some items. -/
def faultOfItems : List Reading → Option Fault
  | [] => none
  | r :: rs =>
    match r.fault? with
    | some f => some f
    | none => faultOfItems rs

/-- The first mistake inside some members, or the one behind them. -/
def faultOfMembers (broken : Option Fault) : List (String × Reading) → Option Fault
  | [] => broken
  | (_, r) :: ms =>
    match r.fault? with
    | some f => some f
    | none => faultOfMembers broken ms

end

end Json

end FilterQuery
