import Mathlib.Data.List.Basic
import Mathlib.Tactic.Ring
import Mathlib.Algebra.Order.Ring.Int

/-!
# Dates and times as text

The proleptic Gregorian calendar and the texts of `datetime.isoformat`, which
`datetime.fromisoformat` reads back.
-/

namespace AegisForge.Core

/-! ## The calendar -/

def isLeapYear (year : ℕ) : Bool := year % 4 = 0 && (year % 100 ≠ 0 || year % 400 = 0)

def daysInMonth (year month : ℕ) : ℕ :=
  if month = 2 then if isLeapYear year then 29 else 28
  else if month ∈ [4, 6, 9, 11] then 30
  else 31

def daysBeforeYear (year : ℕ) : ℕ :=
  (year - 1) * 365 + (year - 1) / 4 - (year - 1) / 100 + (year - 1) / 400

def daysBeforeMonth (year month : ℕ) : ℕ :=
  ((List.range' 1 (month - 1)).map (daysInMonth year)).sum

/-- `datetime.date`. -/
structure Date where
  year : ℕ
  month : ℕ
  day : ℕ
  year_range : 1 ≤ year ∧ year ≤ 9999
  month_range : 1 ≤ month ∧ month ≤ 12
  day_range : 1 ≤ day ∧ day ≤ daysInMonth year month
  deriving DecidableEq

namespace Date

theorem year_range_2026 : 1 ≤ 2026 ∧ 2026 ≤ 9999 := by decide

/-- `date(year, month, day)`, which raises `ValueError` on `none`. -/
def of? (year month day : ℕ) : Option Date :=
  if hrange : (1 ≤ year ∧ year ≤ 9999) ∧ (1 ≤ month ∧ month ≤ 12) ∧
      (1 ≤ day ∧ day ≤ daysInMonth year month) then
    some ⟨year, month, day, hrange.1, hrange.2.1, hrange.2.2⟩
  else none

@[simp]
theorem of?_self (date : Date) : of? date.year date.month date.day = some date :=
  dif_pos ⟨date.year_range, date.month_range, date.day_range⟩

theorem of?_eq_some {year month day : ℕ} {date : Date} (hdate : of? year month day = some date) :
    date.year = year ∧ date.month = month ∧ date.day = day := by
  rw [of?] at hdate
  split at hdate
  case isTrue =>
    obtain rfl := Option.some.inj hdate
    exact ⟨rfl, rfl, rfl⟩
  case isFalse => cases hdate

/-- `date.toordinal()`: the first day of year 1 is day 1. -/
def ordinal (date : Date) : ℕ :=
  daysBeforeYear date.year + daysBeforeMonth date.year date.month + date.day

end Date

/-- The year of an ordinal, and the days since its first of January. -/
def yearOfOrdinal (ordinal : ℕ) : ℕ × ℕ :=
  let days := ordinal - 1
  let centuries := days % 146097 / 36524
  let cycles := days % 146097 % 36524 / 1461
  let years := days % 146097 % 36524 % 1461 / 365
  let year := days / 146097 * 400 + centuries * 100 + cycles * 4 + years + 1
  -- the last day of a cycle of four or of four hundred years
  if years = 4 ∨ centuries = 4 then (year - 1, 365)
  else (year, days % 146097 % 36524 % 1461 % 365)

/-- The days before a year that is given by its place in the cycles. -/
theorem daysBeforeYear_cycles {cycle centuries fours years : ℕ} (hcenturies : centuries ≤ 3)
    (hfours : fours ≤ 24) (hyears : years ≤ 3) :
    daysBeforeYear (cycle * 400 + centuries * 100 + fours * 4 + years + 1) =
      cycle * 146097 + centuries * 36524 + fours * 1461 + years * 365 := by
  rw [daysBeforeYear, Nat.add_sub_cancel]
  have hquarters : (cycle * 400 + centuries * 100 + fours * 4 + years) / 4 =
      cycle * 100 + centuries * 25 + fours := by omega
  have hhundreds : (cycle * 400 + centuries * 100 + fours * 4 + years) / 100 =
      cycle * 4 + centuries := by omega
  have hcycles : (cycle * 400 + centuries * 100 + fours * 4 + years) / 400 = cycle := by omega
  rw [hquarters, hhundreds, hcycles]
  omega

theorem yearOfOrdinal_spec {ordinal : ℕ} (hordinal : 1 ≤ ordinal) :
    daysBeforeYear (yearOfOrdinal ordinal).1 + (yearOfOrdinal ordinal).2 + 1 = ordinal := by
  obtain ⟨days, rfl⟩ : ∃ days, ordinal = days + 1 := ⟨ordinal - 1, by omega⟩
  simp only [yearOfOrdinal, Nat.add_sub_cancel]
  have hcenturies : days % 146097 / 36524 ≤ 4 := by omega
  have hfours : days % 146097 % 36524 / 1461 ≤ 24 := by omega
  have hyears : days % 146097 % 36524 % 1461 / 365 ≤ 4 := by omega
  split
  case isTrue hlast =>
    by_cases hcentury : days % 146097 / 36524 = 4
    · -- the last day of four hundred years
      have hzero : days % 146097 % 36524 = 0 := by omega
      have hyear : days / 146097 * 400 + 4 * 100 + 0 * 4 + 0 =
          days / 146097 * 400 + 3 * 100 + 24 * 4 + 3 + 1 := by omega
      simp only [hcentury, hzero, Nat.zero_div, Nat.zero_mod]
      rw [hyear]
      have hbefore := @daysBeforeYear_cycles (days / 146097) 3 24 3 le_rfl le_rfl le_rfl
      omega
    · have hfour : days % 146097 % 36524 % 1461 / 365 = 4 := by omega
      rw [hfour, ← Nat.add_assoc _ 3 1, daysBeforeYear_cycles (by omega) hfours (by omega)]
      omega
  case isFalse hlast =>
    rw [daysBeforeYear_cycles (by omega) hfours (by omega)]
    omega

/-- The last month that begins at most `days` days after the first of January. -/
def monthOfDays (year days : ℕ) : ℕ :=
  (((List.range' 1 12).filter fun month => daysBeforeMonth year month ≤ days).getLast?).getD 1

theorem daysBeforeMonth_monthOfDays (year days : ℕ) :
    daysBeforeMonth year (monthOfDays year days) ≤ days := by
  rw [monthOfDays]
  cases hlast : ((List.range' 1 12).filter fun month =>
      daysBeforeMonth year month ≤ days).getLast? with
  | none => exact Nat.zero_le days
  | some month =>
      have hmember := List.mem_of_getLast? hlast
      rw [List.mem_filter, decide_eq_true_eq] at hmember
      exact hmember.2

/-- `date.fromordinal(ordinal)`, which raises on `none`. -/
def Date.ofOrdinal? (ordinal : ℕ) : Option Date :=
  let (year, days) := yearOfOrdinal ordinal
  let month := monthOfDays year days
  Date.of? year month (days - daysBeforeMonth year month + 1)

theorem Date.ordinal_ofOrdinal? {ordinal : ℕ} (hordinal : 1 ≤ ordinal) {date : Date}
    (hdate : ofOrdinal? ordinal = some date) : date.ordinal = ordinal := by
  have hyears := yearOfOrdinal_spec hordinal
  rcases hresult : yearOfOrdinal ordinal with ⟨year, days⟩
  simp only [hresult] at hyears
  simp only [ofOrdinal?, hresult] at hdate
  have hmonths := daysBeforeMonth_monthOfDays year days
  obtain ⟨hyear, hmonth, hday⟩ := of?_eq_some hdate
  rw [Date.ordinal, hyear, hmonth, hday]
  omega

/-! ## Times -/

def dayMicroseconds : ℕ := 86400000000

/-- Hours, minutes, seconds and microseconds. -/
structure Clock where
  hour : ℕ
  minute : ℕ
  second : ℕ
  microsecond : ℕ
  deriving DecidableEq

namespace Clock

def total (clock : Clock) : ℕ :=
  ((clock.hour * 60 + clock.minute) * 60 + clock.second) * 1000000 + clock.microsecond

def ofTotal (total : ℕ) : Clock where
  hour := total / 3600000000
  minute := total / 60000000 % 60
  second := total / 1000000 % 60
  microsecond := total % 1000000

/-- The ranges of a time of day. -/
def InRange (clock : Clock) : Prop :=
  clock.hour < 24 ∧ clock.minute < 60 ∧ clock.second < 60 ∧ clock.microsecond < 1000000

instance (clock : Clock) : Decidable clock.InRange :=
  inferInstanceAs (Decidable (_ ∧ _))

@[simp]
theorem total_ofTotal (total : ℕ) : (ofTotal total).total = total := by
  simp only [ofTotal, Clock.total]
  omega

theorem inRange_ofTotal {total : ℕ} (htotal : total < dayMicroseconds) :
    (ofTotal total).InRange := by
  simp only [dayMicroseconds] at htotal
  simp only [InRange, ofTotal]
  omega

end Clock

/-- The distance from UTC in microseconds. -/
structure Offset where
  microseconds : ℤ
  in_range : microseconds.natAbs < dayMicroseconds
  deriving DecidableEq

/-- `timezone(delta)`, which raises `ValueError` on `none`. -/
def Offset.of? (microseconds : ℤ) : Option Offset :=
  if hrange : microseconds.natAbs < dayMicroseconds then some ⟨microseconds, hrange⟩ else none

def Offset.utc : Offset := ⟨0, by decide⟩

/-- `datetime.datetime`; a naive one has no offset. -/
structure DateTime where
  date : Date
  clock : Clock
  offset : Option Offset
  in_range : clock.InRange
  deriving DecidableEq

namespace DateTime

/-- `value.replace(tzinfo=timezone.utc)` where `value.tzinfo is None`. -/
def orUtc (value : DateTime) : DateTime :=
  match value.offset with
  | some _ => value
  | none => { value with offset := some .utc }

/-- The microseconds of UTC since the year 0, a naive time taken as UTC. -/
def instant (value : DateTime) : ℤ :=
  value.date.ordinal * dayMicroseconds + value.clock.total -
    value.offset.elim 0 Offset.microseconds

/-- `value + timedelta(days=days)`, which raises `OverflowError` on `none`. -/
def addDays? (value : DateTime) (days : ℤ) : Option DateTime :=
  if 1 ≤ value.date.ordinal + days then
    (Date.ofOrdinal? (value.date.ordinal + days).toNat).map fun date => { value with date }
  else none

theorem instant_addDays? {value later : DateTime} {days : ℤ}
    (hlater : value.addDays? days = some later) :
    later.instant = value.instant + days * dayMicroseconds := by
  rw [addDays?] at hlater
  split at hlater
  case isFalse => cases hlater
  case isTrue hpositive =>
    obtain ⟨date, hdate, rfl⟩ := Option.map_eq_some_iff.mp hlater
    have hordinal := Date.ordinal_ofOrdinal? (by omega) hdate
    have hcast : (date.ordinal : ℤ) = value.date.ordinal + days := by omega
    simp only [instant, hcast]
    ring

@[simp]
theorem instant_orUtc (value : DateTime) : value.orUtc.instant = value.instant := by
  rw [orUtc]
  cases hoffset : value.offset with
  | some offset => rfl
  | none => simp [instant, hoffset, Offset.utc]

end DateTime

/-! ## Writing -/

/-- The last `width` decimal digits. -/
def padded : ℕ → ℕ → List Char
  | 0, _ => []
  | width + 1, value => Nat.digitChar (value / 10 ^ width % 10) :: padded width value

def Date.text (date : Date) : List Char :=
  padded 4 date.year ++ '-' :: padded 2 date.month ++ '-' :: padded 2 date.day

/-- The fraction of a second, unless it is zero. -/
def fractionText (microsecond : ℕ) : List Char :=
  if microsecond = 0 then [] else '.' :: padded 6 microsecond

def Clock.text (clock : Clock) : List Char :=
  padded 2 clock.hour ++ ':' :: padded 2 clock.minute ++ ':' :: padded 2 clock.second ++
    fractionText clock.microsecond

/-- The hours and minutes, and the seconds unless they are zero. -/
def Clock.shortText (clock : Clock) : List Char :=
  if clock.second = 0 ∧ clock.microsecond = 0 then
    padded 2 clock.hour ++ ':' :: padded 2 clock.minute
  else clock.text

def Offset.text (offset : Offset) : List Char :=
  (if offset.microseconds < 0 then '-' else '+') ::
    (Clock.ofTotal offset.microseconds.natAbs).shortText

/-- `value.isoformat()`. -/
def DateTime.isoformat (value : DateTime) : List Char :=
  value.date.text ++ 'T' :: value.clock.text ++ value.offset.elim [] Offset.text

def DateTime.isoText (value : DateTime) : String := String.ofList value.isoformat

/-! ## Reading -/

/-- A number of exactly `width` digits. -/
def readNumber : ℕ → ℕ → List Char → Option (ℕ × List Char)
  | 0, number, input => some (number, input)
  | _ + 1, _, [] => none
  | width + 1, number, digit :: rest =>
      if digit.isDigit then readNumber width (number * 10 + (digit.toNat - 48)) rest else none

/-- Another number after a mark. -/
def readAfter (mark : Char) (width : ℕ) : List Char → Option (ℕ × List Char)
  | [] => none
  | character :: rest => if character = mark then readNumber width 0 rest else none

/-- Three or six digits after a point, if there is one. -/
def readFraction (input : List Char) : Option (ℕ × List Char) :=
  if input.head? = some '.' then
    match readAfter '.' 6 input with
    | some found => some found
    | none => (readAfter '.' 3 input).map fun found => (found.1 * 1000, found.2)
  else some (0, input)

/-- `HH[:MM[:SS[.fff[fff]]]]`. -/
def readClock (input : List Char) : Option (Clock × List Char) := do
  let (hour, input) ← readNumber 2 0 input
  if input.head? = some ':' then
    let (minute, input) ← readAfter ':' 2 input
    if input.head? = some ':' then
      let (second, input) ← readAfter ':' 2 input
      let (microsecond, input) ← readFraction input
      some (⟨hour, minute, second, microsecond⟩, input)
    else some (⟨hour, minute, 0, 0⟩, input)
  else some (⟨hour, 0, 0, 0⟩, input)

def readDate (input : List Char) : Option (Date × List Char) := do
  let (year, input) ← readNumber 4 0 input
  let (month, input) ← readAfter '-' 2 input
  let (day, input) ← readAfter '-' 2 input
  let date ← Date.of? year month day
  some (date, input)

/-- `date.fromisoformat(text)`, which raises `ValueError` on `none`. -/
def Date.fromisoformat (input : List Char) : Option Date := do
  let (date, rest) ← readDate input
  if rest = [] then some date else none

/-- The offset after a time, if there is one. -/
def readOffset : List Char → Option (Option Offset)
  | [] => some none
  | sign :: input => do
      let (clock, rest) ← readClock input
      if rest ≠ [] then none
      else if sign = '+' then (Offset.of? clock.total).map some
      else if sign = '-' then (Offset.of? (-clock.total)).map some
      else none

def midnight : Clock := ⟨0, 0, 0, 0⟩

theorem inRange_midnight : midnight.InRange := by decide

/-- `datetime.fromisoformat(text)`, which raises `ValueError` on `none`. -/
def DateTime.fromisoformat (input : List Char) : Option DateTime := do
  let (date, rest) ← readDate input
  match rest with
  | [] => some ⟨date, midnight, none, by decide⟩
  | _ :: rest => do
      let (clock, rest) ← readClock rest
      let offset ← readOffset rest
      if hrange : clock.InRange then some ⟨date, clock, offset, hrange⟩ else none

/-! ## The round trip -/

theorem isDigit_digitChar_mod (value : ℕ) : (Nat.digitChar (value % 10)).isDigit = true := by
  have hdigits : ∀ digit < 10, (Nat.digitChar digit).isDigit = true := by decide
  exact hdigits _ (Nat.mod_lt value (by decide))

theorem toNat_digitChar_mod (value : ℕ) :
    (Nat.digitChar (value % 10)).toNat - 48 = value % 10 := by
  have hdigits : ∀ digit < 10, (Nat.digitChar digit).toNat - 48 = digit := by decide
  exact hdigits _ (Nat.mod_lt value (by decide))

theorem readNumber_padded (width number value : ℕ) (rest : List Char) :
    readNumber width number (padded width value ++ rest) =
      some (number * 10 ^ width + value % 10 ^ width, rest) := by
  induction width generalizing number with
  | zero => simp [readNumber, padded, Nat.mod_one]
  | succ width ih =>
      rw [padded, List.cons_append, readNumber, if_pos (isDigit_digitChar_mod _),
        toNat_digitChar_mod, ih, Nat.mod_pow_succ, pow_succ]
      congr 2
      ring

theorem readNumber_padded_of_lt {width value : ℕ} (hvalue : value < 10 ^ width)
    (rest : List Char) : readNumber width 0 (padded width value ++ rest) = some (value, rest) := by
  rw [readNumber_padded, Nat.mod_eq_of_lt hvalue, Nat.zero_mul, Nat.zero_add]

theorem readAfter_padded {mark : Char} {width value : ℕ} (hvalue : value < 10 ^ width)
    (rest : List Char) :
    readAfter mark width (mark :: (padded width value ++ rest)) = some (value, rest) := by
  rw [readAfter, if_pos rfl, readNumber_padded_of_lt hvalue]

theorem daysInMonth_le (year month : ℕ) : daysInMonth year month ≤ 31 := by
  rw [daysInMonth]
  split_ifs <;> decide

theorem readDate_text (date : Date) (rest : List Char) :
    readDate (date.text ++ rest) = some (date, rest) := by
  have hyear : date.year < 10 ^ 4 := by have hrange := date.year_range; omega
  have hmonth : date.month < 10 ^ 2 := by have hrange := date.month_range; omega
  have hday : date.day < 10 ^ 2 := by
    have hrange := date.day_range
    have hdays := daysInMonth_le date.year date.month
    omega
  simp only [readDate, Date.text, List.append_assoc, List.cons_append,
    readNumber_padded_of_lt hyear, readAfter_padded hmonth, readAfter_padded hday,
    Option.bind_eq_bind, Option.bind_some, Date.of?_self]

/-- What follows a time is neither a point nor a colon. -/
def EndsClock (rest : List Char) : Prop := rest.head? ≠ some '.' ∧ rest.head? ≠ some ':'

theorem readFraction_text {microsecond : ℕ} (hrange : microsecond < 1000000) {rest : List Char}
    (hrest : EndsClock rest) :
    readFraction (fractionText microsecond ++ rest) = some (microsecond, rest) := by
  rw [fractionText]
  split
  case isTrue hzero => rw [List.nil_append, readFraction, if_neg hrest.1, hzero]
  case isFalse =>
    have hfilled : microsecond < 10 ^ 6 := hrange
    simp only [List.cons_append, readFraction, List.head?_cons, if_true, readAfter_padded hfilled]

theorem readClock_text {clock : Clock} (hrange : clock.InRange) {rest : List Char}
    (hrest : EndsClock rest) : readClock (clock.text ++ rest) = some (clock, rest) := by
  obtain ⟨hhour, hminute, hsecond, hmicrosecond⟩ := hrange
  have hhour' : clock.hour < 10 ^ 2 := by omega
  have hminute' : clock.minute < 10 ^ 2 := by omega
  have hsecond' : clock.second < 10 ^ 2 := by omega
  simp only [readClock, Clock.text, List.append_assoc, List.cons_append,
    readNumber_padded_of_lt hhour', readAfter_padded hminute', readAfter_padded hsecond',
    readFraction_text hmicrosecond hrest, Option.bind_eq_bind, Option.bind_some, List.head?_cons,
    if_true]

theorem readClock_shortText {clock : Clock} (hrange : clock.InRange) :
    readClock clock.shortText = some (clock, []) := by
  have hnothing : EndsClock [] := by simp [EndsClock]
  rw [Clock.shortText]
  split
  case isTrue hwhole =>
    have hhour : clock.hour < 10 ^ 2 := by have hhour := hrange.1; omega
    have hminute : clock.minute < 10 ^ 2 := by have hminute := hrange.2.1; omega
    have hafter := @readAfter_padded ':' 2 clock.minute hminute []
    rw [List.append_nil] at hafter
    obtain ⟨hour, minute, second, microsecond⟩ := clock
    obtain ⟨rfl, rfl⟩ := hwhole
    simp only [readClock, readNumber_padded_of_lt hhour, hafter, Option.bind_eq_bind,
      Option.bind_some, List.head?_cons, List.head?_nil, if_true, reduceCtorEq, if_false]
  case isFalse =>
    have hread := readClock_text hrange hnothing
    rwa [List.append_nil] at hread

theorem readOffset_text (offset : Offset) : readOffset offset.text = some (some offset) := by
  have hclock := Clock.inRange_ofTotal offset.in_range
  have hof : Offset.of? offset.microseconds = some offset := dif_pos offset.in_range
  rw [Offset.text, readOffset, readClock_shortText hclock]
  simp only [Option.bind_eq_bind, Option.bind_some, ne_eq, not_true_eq_false, if_false,
    Clock.total_ofTotal]
  split
  case isTrue hnegative =>
    rw [if_neg (by decide), if_pos rfl]
    have hsame : -(offset.microseconds.natAbs : ℤ) = offset.microseconds := by omega
    rw [hsame, hof]
    rfl
  case isFalse hpositive =>
    rw [if_pos rfl]
    have hsame : (offset.microseconds.natAbs : ℤ) = offset.microseconds := by omega
    rw [hsame, hof]
    rfl

theorem endsClock_offset (offset : Option Offset) :
    EndsClock (offset.elim [] Offset.text) := by
  cases offset with
  | none => simp [EndsClock]
  | some offset =>
      simp only [EndsClock, Option.elim_some, Offset.text, List.head?_cons]
      split <;> decide

/-- `datetime.fromisoformat` is the inverse of `isoformat`. -/
theorem DateTime.fromisoformat_isoformat (value : DateTime) :
    fromisoformat value.isoformat = some value := by
  have hoffset : readOffset (value.offset.elim [] Offset.text) = some value.offset := by
    cases value.offset with
    | none => rfl
    | some offset => exact readOffset_text offset
  rw [fromisoformat, isoformat, List.append_assoc, List.cons_append, readDate_text]
  simp only [Option.bind_eq_bind, Option.bind_some,
    readClock_text value.in_range (endsClock_offset value.offset), hoffset]
  rw [dif_pos value.in_range]

/-! ## The characters of a text -/

theorem isDigit_of_mem_padded {width value : ℕ} {character : Char}
    (hcharacter : character ∈ padded width value) : character.isDigit = true := by
  induction width with
  | zero => cases hcharacter
  | succ width ih =>
      rcases List.mem_cons.mp hcharacter with rfl | hrest
      · exact isDigit_digitChar_mod _
      · exact ih hrest

def isTimeMark (character : Char) : Bool :=
  character.isDigit || character ∈ ['-', '+', ':', '.', 'T']

theorem all_isTimeMark_padded (width value : ℕ) : (padded width value).all isTimeMark = true := by
  rw [List.all_eq_true]
  intro character hcharacter
  simp [isTimeMark, isDigit_of_mem_padded hcharacter]

theorem Clock.all_isTimeMark_text (clock : Clock) : clock.text.all isTimeMark = true := by
  have hmarks : isTimeMark ':' = true ∧ isTimeMark '.' = true := by decide
  rw [Clock.text, fractionText]
  split <;> simp [all_isTimeMark_padded, hmarks, -List.all_eq_true]

theorem Offset.all_isTimeMark_text (offset : Offset) : offset.text.all isTimeMark = true := by
  have hmarks : isTimeMark ':' = true ∧ isTimeMark '+' = true ∧ isTimeMark '-' = true := by decide
  have hclock := Clock.all_isTimeMark_text (Clock.ofTotal offset.microseconds.natAbs)
  rw [Offset.text, Clock.shortText, List.all_cons, Bool.and_eq_true]
  constructor
  · split
    · exact hmarks.2.2
    · exact hmarks.2.1
  · split
    · simp [all_isTimeMark_padded, hmarks, -List.all_eq_true]
    · exact hclock

theorem DateTime.all_isTimeMark_isoformat (value : DateTime) :
    value.isoformat.all isTimeMark = true := by
  have hmarks : isTimeMark '-' = true ∧ isTimeMark 'T' = true := by decide
  have hoffset : (value.offset.elim [] Offset.text).all isTimeMark = true := by
    cases value.offset with
    | none => rfl
    | some offset => exact offset.all_isTimeMark_text
  simp [DateTime.isoformat, Date.text, all_isTimeMark_padded, Clock.all_isTimeMark_text, hoffset,
    hmarks, -List.all_eq_true]

end AegisForge.Core
