/-
FilterQuery.Proofs.Dates — the ISO forms of dates are read back.

A written date is read part by part, and each part in turn is read as
what was written and leaves what stands behind it: a padded number
because its width is the bound on its digits (`readPart_padded`), a year
with a sign because no digit stands behind it (`readPart_year`). What is
known in the end is just what was written (`Fields.ofDate`,
`Fields.withTime`), and it determines the date and the time it was
written from.

Dates and dates with a time are told apart by what is left over: the
pattern of a date leaves the time unread.
-/
import FilterQuery.Proofs.Digits

namespace FilterQuery

namespace Calendar

/-! ## 1. Parts -/

theorem not_isBlank_of_isDigit {c : Char} (h : c.isDigit = true) : isBlank c = false := by
  obtain ⟨hlow, hhigh⟩ : 48 ≤ c.toNat ∧ c.toNat ≤ 57 := Char.isDigit_iff_toNat.mp h
  unfold isBlank
  simp only [Bool.or_eq_false_iff, Bool.and_eq_false_iff, decide_eq_false_iff_not,
    beq_eq_false_iff_ne]
  omega

/-- Digits are not skipped. -/
theorem skipBlank_digits {ds rest : List Char} (hne : ds ≠ [])
    (hds : ∀ c ∈ ds, c.isDigit = true) : skipBlank (ds ++ rest) = ds ++ rest := by
  obtain ⟨d, ds, rfl⟩ := List.exists_cons_of_ne_nil hne
  have hd : isBlank d = false := not_isBlank_of_isDigit (hds d List.mem_cons_self)
  simp [skipBlank, hd]

/-- A number is read from digits of the greatest width. -/
theorem readNumber_padded {width n : Nat} (rest : List Char) (hwidth : 0 < width)
    (hn : n < pow10 width) (hmax : n ≤ maxNumber) :
    readNumber (some width) (paddedDigits width n ++ rest) = some (n, rest) := by
  have hlength := length_paddedDigits hwidth hn
  have hdigits : ∀ c ∈ paddedDigits width n, c.isDigit = true :=
    fun c => isDigit_of_mem_paddedDigits
  have hrun := digitRun_append rest hdigits
  rw [hlength] at hrun
  unfold readNumber
  simp only [hrun, natOfDigits_paddedDigits, List.isEmpty_iff, paddedDigits_ne_nil, false_or,
    Nat.not_lt.mpr hmax, if_false, List.drop_left]

theorem readPart_of_digits {part : NumericPart} {ds rest : List Char} (hne : ds ≠ [])
    (hds : ∀ c ∈ ds, c.isDigit = true) :
    readPart part (ds ++ rest) =
      (readNumber part.width? (ds ++ rest)).map fun (n, rest) => ((n : Int), rest) := by
  obtain ⟨d, ds, rfl⟩ := List.exists_cons_of_ne_nil hne
  have hd := hds d List.mem_cons_self
  unfold readPart
  rw [skipBlank_digits hne hds]
  split
  · next heq =>
    obtain rfl : d = '-' := (List.cons.inj heq).1
    exact absurd hd (by decide)
  · next heq =>
    obtain rfl : d = '+' := (List.cons.inj heq).1
    exact absurd hd (by decide)
  · rfl

/-- A part is read from digits of its greatest width. -/
theorem readPart_padded {part : NumericPart} {width n : Nat} (rest : List Char)
    (hpart : part.width? = some width) (hwidth : 0 < width) (hn : n < pow10 width)
    (hmax : n ≤ maxNumber) :
    readPart part (paddedDigits width n ++ rest) = some ((n : Int), rest) := by
  rw [readPart_of_digits (paddedDigits_ne_nil width n) fun c => isDigit_of_mem_paddedDigits, hpart,
    readNumber_padded rest hwidth hn hmax]
  rfl

/-- A number with no bound on its digits ends where the digits end. -/
theorem readNumber_unbounded {width n : Nat} {rest : List Char} (hmax : n ≤ maxNumber)
    (hrest : ∀ c ∈ rest.head?, c.isDigit = false) :
    readNumber none (paddedDigits width n ++ rest) = some (n, rest) := by
  have hdigits : ∀ c ∈ paddedDigits width n, c.isDigit = true :=
    fun c => isDigit_of_mem_paddedDigits
  obtain ⟨htake, _⟩ := takeWhile_append_stop hdigits hrest
  unfold readNumber digitRun
  simp only [htake, natOfDigits_paddedDigits, List.isEmpty_iff, paddedDigits_ne_nil, false_or,
    Nat.not_lt.mpr hmax, if_false, List.drop_left]

/-- A year is read as it is written, with a sign where it has one. -/
theorem readPart_year {year : Int} {rest : List Char} (hlow : minYear ≤ year)
    (hhigh : year ≤ maxYear) (hrest : ∀ c ∈ rest.head?, c.isDigit = false) :
    readPart .year (Date.yearText year ++ rest) = some (year, rest) := by
  unfold minYear at hlow
  unfold maxYear at hhigh
  unfold Date.yearText
  split
  · next hplain =>
    have hnat : year.toNat < 10000 := by omega
    have hyear : (year.toNat : Int) = year := Int.toNat_of_nonneg hplain.1
    rw [readPart_padded rest rfl (by decide) hnat (by unfold maxNumber; omega), hyear]
  · have hmax : year.natAbs ≤ maxNumber := by
      unfold maxNumber
      omega
    have hread : readNumber none (paddedDigits 4 year.natAbs ++ rest) =
        some (year.natAbs, rest) := readNumber_unbounded hmax hrest
    split
    · next hneg =>
      have hyear : -(year.natAbs : Int) = year := by omega
      have hskip : skipBlank ('-' :: (paddedDigits 4 year.natAbs ++ rest)) =
          '-' :: (paddedDigits 4 year.natAbs ++ rest) := rfl
      simp only [readPart, List.cons_append, NumericPart.isSigned, hskip, hread,
        Option.map_some, hyear]
    · next hpos =>
      have hyear : (year.natAbs : Int) = year := by omega
      have hskip : skipBlank ('+' :: (paddedDigits 4 year.natAbs ++ rest)) =
          '+' :: (paddedDigits 4 year.natAbs ++ rest) := rfl
      simp only [readPart, List.cons_append, NumericPart.isSigned, hskip, hread,
        Option.map_some, hyear]

/-! ## 2. Patterns -/

theorem takeItem_numeric {part : NumericPart} {f g : Fields} {cs rest : List Char} {v : Int}
    (hread : readPart part cs = some (v, rest)) (hset : f.set part v = some g) :
    takeItem (f, cs) (.numeric part) = some (g, rest) := by
  simp [takeItem, takePart, hread, hset]

/-- A part of two digits is noted as it was written. -/
theorem takeItem_padded {part : NumericPart} {f g : Fields} {n : Nat} (rest : List Char)
    (hpart : part.width? = some 2) (hn : n < 100) (hset : f.set part n = some g) :
    takeItem (f, paddedDigits 2 n ++ rest) (.numeric part) = some (g, rest) := by
  have hmax : n ≤ maxNumber := by
    unfold maxNumber
    omega
  exact takeItem_numeric (readPart_padded rest hpart (by decide) hn hmax) hset

theorem takeItem_literal (f : Fields) (c : Char) (rest : List Char) :
    takeItem (f, c :: rest) (.literal c) = some (f, rest) := by
  simp [takeItem, readChar]

/-- What is known of a date when it has been read. -/
def Fields.ofDate (d : Date) : Fields :=
  { year := some d.year, month := some d.month, day := some d.day }

theorem le_of_mem_monthLengths {year : Int} {n : Nat} (h : n ∈ monthLengths year) : n ≤ 31 := by
  unfold monthLengths at h
  simp only [List.mem_cons, List.not_mem_nil, or_false] at h
  have hfebruary : (if isLeap year then 29 else 28) ≤ 31 := by split <;> decide
  omega

/-- A month that has days is one of twelve, and has at most 31. -/
theorem daysInMonth_bounds {year : Int} {month : Nat} (h : 1 ≤ daysInMonth year month) :
    1 ≤ month ∧ month ≤ 12 ∧ daysInMonth year month ≤ 31 := by
  cases month with
  | zero => exact absurd h (Nat.not_succ_le_zero 0)
  | succ m =>
    unfold daysInMonth at h ⊢
    simp only [List.getD_eq_getElem?_getD] at h ⊢
    by_cases hm : m < (monthLengths year).length
    · rw [List.getElem?_eq_getElem hm, Option.getD_some]
      have hlength : m < 12 := hm
      exact ⟨by omega, by omega, le_of_mem_monthLengths (List.getElem_mem hm)⟩
    · rw [List.getElem?_eq_none (Nat.not_lt.mp hm)] at h
      exact absurd h (Nat.not_succ_le_zero 0)

theorem bounds_of_date (d : Date) : minYear ≤ d.year ∧ d.year ≤ maxYear ∧ 1 ≤ d.month ∧
    d.month ≤ 12 ∧ 1 ≤ d.day ∧ d.day ≤ 31 := by
  have hvalid := d.valid
  unfold isDate at hvalid
  simp only [Bool.and_eq_true, decide_eq_true_eq] at hvalid
  obtain ⟨⟨⟨hlow, hhigh⟩, hday⟩, hmonth⟩ := hvalid
  obtain ⟨hfirst, hlast, hdays⟩ := daysInMonth_bounds (Nat.le_trans hday hmonth)
  exact ⟨hlow, hhigh, hfirst, hlast, hday, Nat.le_trans hmonth hdays⟩

/-- The pattern of a date takes a date off the front of a text. -/
theorem read_isoDate (d : Date) (rest : List Char) :
    Pattern.isoDate.foldlM takeItem (({} : Fields), d.chars ++ rest) =
      some (Fields.ofDate d, rest) := by
  obtain ⟨hlow, hhigh, hfirst, hlast, hday, hdays⟩ := bounds_of_date d
  have hyear : takeItem ({}, Date.yearText d.year ++ ('-' :: (paddedDigits 2 d.month ++
      '-' :: (paddedDigits 2 d.day ++ rest)))) (.numeric .year) =
      some ({ year := some d.year }, '-' :: (paddedDigits 2 d.month ++
        '-' :: (paddedDigits 2 d.day ++ rest))) := by
    refine takeItem_numeric (readPart_year hlow hhigh ?_) ?_
    · intro c hc
      obtain rfl : '-' = c := Option.some.inj hc
      rfl
    · unfold minYear at hlow
      unfold maxYear at hhigh
      have hrange : -2147483648 ≤ d.year ∧ d.year ≤ 2147483647 := by omega
      simp [Fields.set, inYearRange, agree, hrange]
  have hmonth : takeItem ({ year := some d.year }, paddedDigits 2 d.month ++
      '-' :: (paddedDigits 2 d.day ++ rest)) (.numeric .month) =
      some ({ year := some d.year, month := some d.month },
        '-' :: (paddedDigits 2 d.day ++ rest)) := by
    refine takeItem_padded _ rfl (by omega) ?_
    have hrange : (1 : Int) ≤ d.month ∧ (d.month : Int) ≤ 12 := by omega
    simp [Fields.set, Fields.setMonth, inRange, agree, hrange]
  have hdate : takeItem ({ year := some d.year, month := some d.month },
      paddedDigits 2 d.day ++ rest) (.numeric .day) = some (Fields.ofDate d, rest) := by
    refine takeItem_padded _ rfl (by omega) ?_
    have hrange : (1 : Int) ≤ d.day ∧ (d.day : Int) ≤ 31 := by omega
    simp [Fields.set, inRange, agree, hrange, Fields.ofDate]
  have hchars : d.chars ++ rest = Date.yearText d.year ++ ('-' :: (paddedDigits 2 d.month ++
      '-' :: (paddedDigits 2 d.day ++ rest))) := by
    simp [Date.chars]
  rw [hchars, Pattern.isoDate]
  simp [hyear, hmonth, hdate, takeItem_literal]

/-! ## 3. Times -/

/-- What is known of a time when it has been read after a date. -/
def Fields.withTime (f : Fields) (t : TimeOfDay) : Fields :=
  { f with
    afternoon := some (12 ≤ t.hour)
    hour12 := some (t.hour % 12)
    minute := some t.minute
    second := some t.second
    nanosecond := if t.nano = 0 then none else some t.nano }

theorem bounds_of_time (t : TimeOfDay) :
    t.hour < 24 ∧ t.minute < 60 ∧ t.second ≤ 60 ∧ t.nano < 1000000000 := by
  have hvalid := t.valid
  unfold isTime at hvalid
  simp only [Bool.and_eq_true, decide_eq_true_eq] at hvalid
  exact ⟨hvalid.1.1.1, hvalid.1.1.2, hvalid.1.2, hvalid.2⟩

/-- A fraction is read back in full from the digits it takes. -/
theorem readFraction_padded {width n : Nat} (hwidth : 0 < width) (hle : width ≤ 9)
    (hn : n < pow10 width) :
    readFraction (paddedDigits width n) = some (n * pow10 (9 - width), []) := by
  have hlength := length_paddedDigits hwidth hn
  have hdigits : ∀ c ∈ paddedDigits width n, c.isDigit = true :=
    fun c => isDigit_of_mem_paddedDigits
  obtain ⟨htake, hdrop⟩ := @takeWhile_append_stop Char.isDigit (paddedDigits width n) [] hdigits
    (by simp)
  rw [List.append_nil] at htake hdrop
  have hall : (paddedDigits width n).take 9 = paddedDigits width n :=
    List.take_of_length_le (by omega)
  unfold readFraction digitRun
  simp only [hall, htake, hdrop, List.isEmpty_iff, paddedDigits_ne_nil, if_false, hlength,
    natOfDigits_paddedDigits]

theorem takeFraction_point {f : Fields} {width n : Nat} (hnone : f.nanosecond = none)
    (hwidth : 0 < width) (hle : width ≤ 9) (hn : n < pow10 width)
    (hrange : n * pow10 (9 - width) < 1000000000) :
    takeFraction readFraction (f, '.' :: paddedDigits width n) =
      some ({ f with nanosecond := some (n * pow10 (9 - width)) }, []) := by
  have hbounds : (0 : Int) ≤ (n * pow10 (9 - width) : Nat) ∧
      ((n * pow10 (9 - width) : Nat) : Int) ≤ 999999999 := by omega
  simp only [takeFraction, readFraction_padded hwidth hle hn, Option.bind_eq_bind,
    Option.bind_some, Fields.setNanosecond, inRange, hbounds, and_self, if_true, hnone, agree,
    Int.toNat_natCast]
  rfl

/-- The fraction of a second is read back, whichever of its forms it has. -/
theorem takeFraction_fraction {f : Fields} (t : TimeOfDay) (hnone : f.nanosecond = none) :
    takeFraction readFraction (f, t.fraction) =
      some ({ f with nanosecond := if t.nano = 0 then none else some t.nano }, []) := by
  obtain ⟨_, _, _, hnano⟩ := bounds_of_time t
  unfold TimeOfDay.fraction
  split
  · simp [takeFraction, ← hnone]
  · split
    · next hmilli =>
      have hexact : t.nano / 1000000 * pow10 (9 - 3) = t.nano :=
        Nat.div_mul_cancel (Nat.dvd_of_mod_eq_zero hmilli)
      rw [takeFraction_point hnone (by decide) (by decide)
        (by rw [show pow10 3 = 1000 from rfl]; omega) (by rw [hexact]; exact hnano), hexact]
    · split
      · next hmicro =>
        have hexact : t.nano / 1000 * pow10 (9 - 6) = t.nano :=
          Nat.div_mul_cancel (Nat.dvd_of_mod_eq_zero hmicro)
        rw [takeFraction_point hnone (by decide) (by decide)
          (by rw [show pow10 6 = 1000000 from rfl]; omega) (by rw [hexact]; exact hnano), hexact]
      · have hexact : t.nano * pow10 (9 - 9) = t.nano := Nat.mul_one _
        rw [takeFraction_point hnone (by decide) (by decide) hnano (by rw [hexact]; exact hnano),
          hexact]

/-- The pattern of a time takes a time to the end of a text. -/
theorem read_clock (d : Date) (t : TimeOfDay) :
    (Pattern.clock ++ [PatternItem.fraction]).foldlM takeItem (Fields.ofDate d, t.chars) =
      some ((Fields.ofDate d).withTime t, []) := by
  obtain ⟨hhour, hminute, hsecond, _⟩ := bounds_of_time t
  have htakeHour : takeItem (Fields.ofDate d, paddedDigits 2 t.hour ++ ':' ::
      (paddedDigits 2 t.minute ++ ':' :: (paddedDigits 2 t.second ++ t.fraction)))
      (.numeric .hour) =
      some ({ Fields.ofDate d with
        afternoon := some (12 ≤ t.hour), hour12 := some (t.hour % 12) },
        ':' :: (paddedDigits 2 t.minute ++ ':' :: (paddedDigits 2 t.second ++ t.fraction))) := by
    refine takeItem_padded _ rfl (by omega) ?_
    have hrange : (0 : Int) ≤ t.hour ∧ (t.hour : Int) ≤ 23 := by omega
    simp [Fields.set, Fields.setHour, inRange, agree, hrange, Fields.ofDate]
  have htakeMinute : takeItem ({ Fields.ofDate d with
      afternoon := some (12 ≤ t.hour), hour12 := some (t.hour % 12) },
      paddedDigits 2 t.minute ++ ':' :: (paddedDigits 2 t.second ++ t.fraction))
      (.numeric .minute) =
      some ({ Fields.ofDate d with
        afternoon := some (12 ≤ t.hour), hour12 := some (t.hour % 12), minute := some t.minute },
        ':' :: (paddedDigits 2 t.second ++ t.fraction)) := by
    refine takeItem_padded _ rfl (by omega) ?_
    have hrange : (0 : Int) ≤ t.minute ∧ (t.minute : Int) ≤ 59 := by omega
    simp [Fields.set, inRange, agree, hrange, Fields.ofDate]
  have htakeSecond : takeItem ({ Fields.ofDate d with
      afternoon := some (12 ≤ t.hour), hour12 := some (t.hour % 12), minute := some t.minute },
      paddedDigits 2 t.second ++ t.fraction) (.numeric .second) =
      some ({ Fields.ofDate d with
        afternoon := some (12 ≤ t.hour), hour12 := some (t.hour % 12), minute := some t.minute,
        second := some t.second }, t.fraction) := by
    refine takeItem_padded _ rfl (by omega) ?_
    have hrange : (0 : Int) ≤ t.second ∧ (t.second : Int) ≤ 60 := by omega
    simp [Fields.set, inRange, agree, hrange, Fields.ofDate]
  have htakeFraction := takeFraction_fraction (f := { Fields.ofDate d with
    afternoon := some (12 ≤ t.hour), hour12 := some (t.hour % 12), minute := some t.minute,
    second := some t.second }) t rfl
  have hchars : t.chars = paddedDigits 2 t.hour ++ ':' :: (paddedDigits 2 t.minute ++
      ':' :: (paddedDigits 2 t.second ++ t.fraction)) := by
    simp [TimeOfDay.chars]
  rw [hchars]
  simp only [Pattern.clock, Pattern.hourMinute, List.cons_append, List.nil_append,
    List.foldlM_cons, List.foldlM_nil, htakeHour, htakeMinute, htakeSecond, takeItem_literal,
    Option.bind_eq_bind, Option.bind_some]
  exact congrArg (Option.bind · some) htakeFraction

/-! ## 4. What the parts determine -/

theorem date_ofDate (d : Date) : (Fields.ofDate d).date = .ok d := by
  have hof : Date.of? d.year d.month d.day = some d := dif_pos d.valid
  have hcandidate : (Fields.ofDate d).candidate (some d.year) none = .ok d := by
    simp only [Fields.candidate, Fields.ofDate, hof, orConflict]
  have hagrees : (Fields.ofDate d).agreesWith d = true := by
    simp [Fields.ofDate, Fields.agreesWith, fits, fitsInCentury]
  show (do
    let e ← (Fields.ofDate d).candidate (some d.year) none
    if (Fields.ofDate d).agreesWith e then Except.ok e else Except.error .conflict) = _
  rw [hcandidate]
  exact if_pos hagrees

theorem time_withTime (f : Fields) (t : TimeOfDay) : (f.withTime t).time = .ok t := by
  have hof : TimeOfDay.of? t.hour t.minute t.second t.nano = some t := dif_pos t.valid
  obtain ⟨hhour, _⟩ := bounds_of_time t
  have hhalf : (if 12 ≤ t.hour then t.hour % 12 + 12 else t.hour % 12) = t.hour := by
    split <;> omega
  have hnano : (if t.nano = 0 then none else some t.nano).getD 0 = t.nano := by
    split <;> simp_all
  simp only [Fields.time, Fields.withTime, decide_eq_true_eq, hhalf, Option.getD_some, hnano, hof,
    orConflict]

/-- A time read after a date leaves the date as it is. -/
theorem dateTime?_withTime (d : Date) (t : TimeOfDay) :
    ((Fields.ofDate d).withTime t).dateTime? = some ⟨d, t⟩ := by
  have hdate : ((Fields.ofDate d).withTime t).date = .ok d := date_ofDate d
  have htimestamp : ((Fields.ofDate d).withTime t).timestamp = none := rfl
  simp only [Fields.dateTime?, hdate, time_withTime, htimestamp]

end Calendar

open Calendar

namespace Moment

/-- A date is read back from its ISO form. -/
theorem ofIso?_date (d : Date) : ofIso? d.chars = some (.date d) := by
  have hread : Pattern.isoDate.read? d.chars = some (Fields.ofDate d) := by
    have h := read_isoDate d []
    rw [List.append_nil] at h
    rw [Pattern.read?, h]
  have hdate : date? Pattern.isoDate d.chars = some (.date d) := by
    simp only [date?, hread, date_ofDate]
  rw [ofIso?, hdate]
  rfl

/-- A date with a time is read back from its ISO form, and is no date without
one: the time is left over. -/
theorem ofIso?_dateTime (dt : DateTime) :
    ofIso? (dt.date.chars ++ 'T' :: dt.time.chars) = some (.dateTime dt) := by
  have hleft : Pattern.isoDate.read? (dt.date.chars ++ 'T' :: dt.time.chars) = none := by
    rw [Pattern.read?, read_isoDate dt.date ('T' :: dt.time.chars)]
  have hread : (isoDateTime (.literal 'T')).read? (dt.date.chars ++ 'T' :: dt.time.chars) =
      some ((Fields.ofDate dt.date).withTime dt.time) := by
    rw [Pattern.read?, isoDateTime, List.append_assoc, List.foldlM_append, read_isoDate]
    simp only [Option.bind_eq_bind, Option.bind_some, List.cons_append, List.foldlM_cons,
      takeItem_literal, read_clock]
  have hdate : date? Pattern.isoDate (dt.date.chars ++ 'T' :: dt.time.chars) = none := by
    simp only [date?, hleft]
  have hdateTime : dateTime? (isoDateTime (.literal 'T'))
      (dt.date.chars ++ 'T' :: dt.time.chars) = some (.dateTime dt) := by
    simp only [dateTime?, hread, Option.bind_some, dateTime?_withTime, Option.map_some]
  rw [ofIso?, hdate, hdateTime]
  rfl

end Moment

end FilterQuery
