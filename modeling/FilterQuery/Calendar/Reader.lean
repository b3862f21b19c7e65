/-
FilterQuery.Calendar.Reader — written dates read with a pattern.

The items of a pattern take their parts off the front of the text one
after the other, without ever going back, and the text has to be used up
at the end. Three forms are known without a pattern: the ISO date, the
ISO date and time with a `T` or white space in between, and a timestamp
with its distance from UTC, which is moved to UTC.
-/
import FilterQuery.Calendar.Fields

namespace FilterQuery

namespace Calendar

/-- The parts found so far, and the text still to be read. -/
abbrev Found := Fields × List Char

/-- A text without the white space it begins with. -/
def skipBlank (cs : List Char) : List Char := cs.dropWhile isBlank

/-! ## Numbers -/

/-- The largest number that a part may write, 2^63 - 1. -/
def maxNumber : Nat := 9223372036854775807

/-- The digits at the front of a text, no more than `most` of them. -/
def digitRun (most : Option Nat) (cs : List Char) : List Char :=
  match most with
  | none => cs.takeWhile Char.isDigit
  | some n => (cs.take n).takeWhile Char.isDigit

/-- Read a number of at least one digit and no more than `most`. -/
def readNumber (most : Option Nat) (cs : List Char) : Option (Nat × List Char) :=
  let ds := digitRun most cs
  let n := natOfDigits ds
  if ds.isEmpty ∨ maxNumber < n then none else some (n, cs.drop ds.length)

/-- Read a number of exactly `count` digits. -/
def readDigits (count : Nat) (cs : List Char) : Option (Nat × List Char) :=
  let ds := digitRun (some count) cs
  if ds.length = count then some (natOfDigits ds, cs.drop count) else none

/-- Read the number of a part. A sign lifts the bound on its digits. -/
def readPart (part : NumericPart) (cs : List Char) : Option (Int × List Char) :=
  match part.isSigned, skipBlank cs with
  | true, '-' :: rest => (readNumber none rest).map fun (n, rest) => (-(n : Int), rest)
  | true, '+' :: rest => (readNumber none rest).map fun (n, rest) => ((n : Int), rest)
  | _, rest => (readNumber part.width? rest).map fun (n, rest) => ((n : Int), rest)

/-- Read the digits of a fraction of a second as nanoseconds. Digits behind
the ninth are dropped. -/
def readFraction (cs : List Char) : Option (Nat × List Char) :=
  let ds := digitRun (some 9) cs
  if ds.isEmpty then none
  else some (natOfDigits ds * pow10 (9 - ds.length), cs.dropWhile Char.isDigit)

/-- Read exactly `count` digits of a fraction of a second as nanoseconds. -/
def readFixedFraction (count : Nat) (cs : List Char) : Option (Nat × List Char) :=
  (readDigits count cs).map fun (n, rest) => (n * pow10 (9 - count), rest)

/-! ## Names -/

/-- Read a word, upper and lower case alike. -/
def readWord (word cs : List Char) : Option (List Char) :=
  match word, cs with
  | [], cs => some cs
  | w :: ws, c :: cs => if w = c.toLower then readWord ws cs else none
  | _ :: _, [] => none

/-- The names of the months: three letters and the letters behind them. -/
def monthNames : List (String × String) :=
  [("jan", "uary"), ("feb", "ruary"), ("mar", "ch"), ("apr", "il"), ("may", ""), ("jun", "e"),
   ("jul", "y"), ("aug", "ust"), ("sep", "tember"), ("oct", "ober"), ("nov", "ember"),
   ("dec", "ember")]

/-- The names of the weekdays: three letters and the letters behind them. -/
def weekdayNames : List (String × String) :=
  [("mon", "day"), ("tue", "sday"), ("wed", "nesday"), ("thu", "rsday"), ("fri", "day"),
   ("sat", "urday"), ("sun", "day")]

/-- Read the first three letters of one of some names: its place in the
list, the letters behind them, and the text after the three letters. -/
def readAbbreviation (names : List (String × String)) (cs : List Char) :
    Option (Nat × String × List Char) :=
  names.zipIdx.findSome? fun ((short, long), i) =>
    (readWord short.toList cs).map fun rest => (i, long, rest)

/-- Read one of some names, or its first three letters. -/
def readName (names : List (String × String)) (cs : List Char) : Option (Nat × List Char) :=
  (readAbbreviation names cs).map fun (i, long, rest) =>
    (i, (readWord long.toList rest).getD rest)

/-- Read which half of the day is meant. -/
def readHalfDay (cs : List Char) : Option (Bool × List Char) :=
  match readWord ['a', 'm'] cs with
  | some rest => some (false, rest)
  | none => (readWord ['p', 'm'] cs).map fun rest => (true, rest)

/-! ## Distances from UTC -/

/-- Read a sign; there are two characters for minus. -/
def readSign (cs : List Char) : Option (Bool × List Char) :=
  match cs with
  | '+' :: rest => some (false, rest)
  | '-' :: rest => some (true, rest)
  | '\u2212' :: rest => some (true, rest)
  | _ => none

/-- The text behind `Z`. -/
def readZulu (cs : List Char) : Option (List Char) :=
  match cs with
  | 'Z' :: rest => some rest
  | 'z' :: rest => some rest
  | _ => none

/-- Read the minutes of a distance: two digits up to 59. -/
def readOffsetMinutes (cs : List Char) : Option (Nat × List Char) :=
  match readDigits 2 cs with
  | some (m, rest) => if m < 60 then some (m, rest) else none
  | none => none

/-- Read a distance in minutes: a sign, two digits for the hours, what
stands between, and the minutes, which may be missing at the end of the
text if `loose` is set. -/
def readOffset (between : List Char → Option (List Char)) (loose : Bool) (cs : List Char) :
    Option (Int × List Char) := do
  let (negative, cs) ← readSign cs
  let (hours, cs) ← readDigits 2 cs
  let cs ← between cs
  let (minutes, cs) ← if loose ∧ cs.isEmpty then some (0, cs) else readOffsetMinutes cs
  let total : Int := hours * 60 + minutes
  return (if negative then -total else total, cs)

/-- Colons and white space between the hours and the minutes. -/
def skipColons (cs : List Char) : Option (List Char) :=
  some (cs.dropWhile fun c => c == ':' || isBlank c)

/-- One colon between the hours and the minutes. -/
def skipColon (cs : List Char) : Option (List Char) :=
  match cs with
  | ':' :: rest => some rest
  | _ => none

/-- Read a distance that may be written `Z`. -/
def readOffsetOrZulu (loose : Bool) (cs : List Char) : Option (Int × List Char) :=
  match readZulu cs with
  | some rest => some (0, rest)
  | none => readOffset skipColons loose cs

/-! ## Patterns -/

/-- Read one character. -/
def readChar (c : Char) (cs : List Char) : Option (List Char) :=
  match cs with
  | d :: rest => if d = c then some rest else none
  | [] => none

/-- Read a number and note its part. -/
def takePart (part : NumericPart) (found : Found) : Option Found := do
  let (v, rest) ← readPart part found.2
  return (← found.1.set part v, rest)

/-- Read a fraction of a second behind a point, if there is a point. -/
def takeFraction (read : List Char → Option (Nat × List Char)) (found : Found) : Option Found :=
  match found.2 with
  | '.' :: rest => do
    let (v, rest) ← read rest
    return (← found.1.setNanosecond v, rest)
  | _ => some found

/-- Read white space and a certain character behind it. -/
def takeMark (c : Char) (found : Found) : Option Found :=
  (readChar c (skipBlank found.2)).map fun rest => (found.1, rest)

/-- Read a zone: `UTC`, `Z` or a distance. -/
def takeZone (found : Found) : Option Found :=
  let cs := skipBlank found.2
  match readWord ['u', 't', 'c'] cs with
  | some rest => do return (← found.1.setOffset 0, rest)
  | none => do
    let (minutes, rest) ← readOffsetOrZulu false cs
    return (← found.1.setOffset minutes, rest)

/-- Read the mark between a date and a time. -/
def readTimeMark (cs : List Char) : Option (List Char) :=
  match cs with
  | 'T' :: rest => some rest
  | 't' :: rest => some rest
  | ' ' :: rest => some rest
  | _ => none

/-- Read a date, a time and a zone. White space may stand before the marks
inside the date and the time. -/
def takeIsoTimestamp (found : Found) : Option Found := do
  let found ← takePart .year found
  let found ← takePart .month (← takeMark '-' found)
  let found ← takePart .day (← takeMark '-' found)
  let rest ← readTimeMark found.2
  let found ← takePart .hour (found.1, rest)
  let found ← takePart .minute (← takeMark ':' found)
  let found ← takePart .second (← takeMark ':' found)
  let found ← takeFraction readFraction found
  takeZone found

/-- Read one item of a pattern. -/
def takeItem (found : Found) (item : PatternItem) : Option Found :=
  match item with
  | .literal c => (readChar c found.2).map fun rest => (found.1, rest)
  | .space => some (found.1, skipBlank found.2)
  | .numeric part => takePart part found
  | .monthAbbreviation => do
    let (i, _, rest) ← readAbbreviation monthNames found.2
    return (← found.1.setMonth (i + 1 : Nat), rest)
  | .monthName => do
    let (i, rest) ← readName monthNames found.2
    return (← found.1.setMonth (i + 1 : Nat), rest)
  | .weekdayAbbreviation => do
    let (i, _, rest) ← readAbbreviation weekdayNames found.2
    return (← found.1.setWeekday i, rest)
  | .weekdayName => do
    let (i, rest) ← readName weekdayNames found.2
    return (← found.1.setWeekday i, rest)
  | .halfDay => do
    let (afternoon, rest) ← readHalfDay found.2
    return (← found.1.setAfternoon afternoon, rest)
  | .fraction => takeFraction readFraction found
  | .fixedFraction n => takeFraction (readFixedFraction n) found
  | .bareFraction n => do
    let (v, rest) ← readFixedFraction n found.2
    return (← found.1.setNanosecond v, rest)
  | .offset => do
    let (minutes, rest) ← readOffset skipColons false (skipBlank found.2)
    return (← found.1.setOffset minutes, rest)
  | .looseOffset => do
    let (minutes, rest) ← readOffsetOrZulu true (skipBlank found.2)
    return (← found.1.setOffset minutes, rest)
  | .zoneName => some (found.1, found.2.dropWhile fun c => !isBlank c)
  | .isoTimestamp => takeIsoTimestamp found

/-- The parts that a whole text has according to a pattern. -/
def Pattern.read? (pattern : Pattern) (text : List Char) : Option Fields :=
  match pattern.foldlM takeItem (({} : Fields), text) with
  | some (fields, []) => some fields
  | _ => none

/-! ## The forms known without a pattern -/

/-- The ISO date and time with a certain mark in between. -/
def isoDateTime (mark : PatternItem) : Pattern :=
  Pattern.isoDate ++ mark :: Pattern.clock ++ [.fraction]

/-- Read a number of exactly so many digits and note its part. -/
def takeExact (part : NumericPart) (count : Nat) (found : Found) : Option Found := do
  let (v, rest) ← readDigits count found.2
  return (← found.1.set part v, rest)

/-- Read one character that has to be there. -/
def takeChar (c : Char) (found : Found) : Option Found :=
  (readChar c found.2).map fun rest => (found.1, rest)

/-- Read the distance of a strict timestamp, which is less than a day. -/
def readStrictOffset (cs : List Char) : Option (Int × List Char) :=
  match readZulu cs with
  | some rest => some (0, rest)
  | none =>
    match readOffset skipColon false cs with
    | some (minutes, rest) =>
      if minutes.natAbs < 1440 then some (minutes, rest) else none
    | none => none

/-- Read a timestamp whose parts have their full width and stand close
together, and move it to UTC. -/
def readTimestamp? (text : List Char) : Option DateTime := do
  let found ← takeExact .year 4 ({}, text)
  let found ← takeExact .month 2 (← takeChar '-' found)
  let found ← takeExact .day 2 (← takeChar '-' found)
  let rest ← readTimeMark found.2
  let found ← takeExact .hour 2 (found.1, rest)
  let found ← takeExact .minute 2 (← takeChar ':' found)
  let found ← takeExact .second 2 (← takeChar ':' found)
  let (fields, rest) ← takeFraction readFraction found
  let (minutes, rest) ← readStrictOffset rest
  if rest.isEmpty then (← fields.dateTime?).earlier? minutes else none

end Calendar

/-- A date, or a date with a time. -/
inductive Moment where
  | date (d : Date)
  | dateTime (dt : DateTime)
deriving DecidableEq, Repr

namespace Moment

open Calendar

/-- A date and time of a pattern. -/
def dateTime? (pattern : Pattern) (text : List Char) : Option Moment :=
  ((pattern.read? text).bind Fields.dateTime?).map .dateTime

/-- A date of a pattern. -/
def date? (pattern : Pattern) (text : List Char) : Option Moment :=
  match pattern.read? text with
  | some fields =>
    match fields.date with
    | .ok d => some (.date d)
    | .error _ => none
  | none => none

/-- What a text means in the ISO forms, the first that fits. -/
def ofIso? (text : List Char) : Option Moment :=
  date? Pattern.isoDate text <|> dateTime? (isoDateTime (.literal 'T')) text <|>
    dateTime? (isoDateTime .space) text <|> (readTimestamp? text).map .dateTime

/-- What a text means in a format, as a date with a time if it determines a
time, else as a date. -/
def ofFormat? (format : String) (text : List Char) : Option Moment :=
  match Pattern.ofText? format with
  | some pattern => dateTime? pattern text <|> date? pattern text
  | none => none

/-- What a text means to a date field. The field's own format goes first,
and the ISO forms are always understood. -/
def ofText? (format : Option String) (text : String) : Option Moment :=
  match format with
  | some f => ofFormat? f text.toList <|> ofIso? text.toList
  | none => ofIso? text.toList

end Moment

end FilterQuery
