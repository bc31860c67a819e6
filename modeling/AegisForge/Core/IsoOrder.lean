import AegisForge.Core.IsoTime

/-!
# The order of times as texts

Texts of `datetime.isoformat` are ordered by the clock on the wall first and by
the offset after it.  That is the order of the instants as long as the clocks are
further apart than the offsets.
-/

namespace AegisForge.Core

/-! ## Digits -/

theorem digitChar_lt_iff : ∀ left < 10, ∀ right < 10,
    (Nat.digitChar left < Nat.digitChar right ↔ left < right) := by decide

theorem digitChar_inj : ∀ left < 10, ∀ right < 10,
    (Nat.digitChar left = Nat.digitChar right ↔ left = right) := by decide

/-- Numbers are compared by their quotients first and by their remainders after them. -/
theorem add_mul_lt_iff {base left right leftDigit rightDigit : ℕ} (hleft : left < base)
    (hright : right < base) : left + base * leftDigit < right + base * rightDigit ↔
      leftDigit < rightDigit ∨ leftDigit = rightDigit ∧ left < right := by
  rcases lt_trichotomy leftDigit rightDigit with hless | rfl | hgreater
  · have hstep : base * (leftDigit + 1) ≤ base * rightDigit := Nat.mul_le_mul_left base hless
    rw [Nat.mul_succ] at hstep
    omega
  · omega
  · have hstep : base * (rightDigit + 1) ≤ base * leftDigit := Nat.mul_le_mul_left base hgreater
    rw [Nat.mul_succ] at hstep
    omega

theorem add_mul_inj {base left right leftDigit rightDigit : ℕ} (hleft : left < base)
    (hright : right < base) : left + base * leftDigit = right + base * rightDigit ↔
      leftDigit = rightDigit ∧ left = right := by
  constructor
  · intro hsame
    have hless := (@add_mul_lt_iff base left right leftDigit rightDigit hleft hright).not.mp
      hsame.not_lt
    have hgreater := (@add_mul_lt_iff base right left rightDigit leftDigit hright hleft).not.mp
      hsame.not_gt
    omega
  · rintro ⟨rfl, rfl⟩
    rfl

/-- Numbers with as many digits are ordered as their texts. -/
theorem padded_append_lt_iff_mod (width left right : ℕ) (leftRest rightRest : List Char) :
    padded width left ++ leftRest < padded width right ++ rightRest ↔
      left % 10 ^ width < right % 10 ^ width ∨
        left % 10 ^ width = right % 10 ^ width ∧ leftRest < rightRest := by
  induction width with
  | zero => simp [padded, Nat.mod_one]
  | succ width ih =>
      have hbase : 0 < 10 ^ width := Nat.pow_pos (by decide)
      rw [padded, padded, List.cons_append, List.cons_append, List.cons_lt_cons_iff, ih,
        digitChar_lt_iff _ (Nat.mod_lt _ (by decide)) _ (Nat.mod_lt _ (by decide)),
        digitChar_inj _ (Nat.mod_lt _ (by decide)) _ (Nat.mod_lt _ (by decide)),
        Nat.mod_pow_succ, Nat.mod_pow_succ,
        add_mul_lt_iff (Nat.mod_lt left hbase) (Nat.mod_lt right hbase),
        add_mul_inj (Nat.mod_lt left hbase) (Nat.mod_lt right hbase)]
      tauto

theorem padded_append_lt_iff {width left right : ℕ} (hleft : left < 10 ^ width)
    (hright : right < 10 ^ width) {leftRest rightRest : List Char} :
    padded width left ++ leftRest < padded width right ++ rightRest ↔
      left < right ∨ left = right ∧ leftRest < rightRest := by
  rw [padded_append_lt_iff_mod, Nat.mod_eq_of_lt hleft, Nat.mod_eq_of_lt hright]

/-- The same after a mark that both have. -/
theorem mark_padded_append_lt_iff {width left right : ℕ} (hleft : left < 10 ^ width)
    (hright : right < 10 ^ width) {mark : Char} {leftRest rightRest : List Char} :
    mark :: (padded width left ++ leftRest) < mark :: (padded width right ++ rightRest) ↔
      left < right ∨ left = right ∧ leftRest < rightRest := by
  rw [List.cons_lt_cons_iff, padded_append_lt_iff hleft hright]
  simp

/-! ## Dates -/

theorem daysBeforeMonth_succ (year : ℕ) {month : ℕ} (hmonth : 1 ≤ month) :
    daysBeforeMonth year (month + 1) = daysBeforeMonth year month + daysInMonth year month := by
  rw [daysBeforeMonth, daysBeforeMonth, Nat.add_sub_cancel]
  have hrange : List.range' 1 month = List.range' 1 (month - 1) ++ [month] := by
    conv_lhs => rw [← Nat.sub_add_cancel hmonth, List.range'_concat]
    simp [Nat.add_sub_cancel' hmonth]
  rw [hrange, List.map_append, List.sum_append]
  simp

theorem daysBeforeMonth_lt {year month later : ℕ} (hmonth : 1 ≤ month) (hlater : month < later) :
    daysBeforeMonth year month + daysInMonth year month ≤ daysBeforeMonth year later := by
  induction later, hlater using Nat.le_induction with
  | base => exact (daysBeforeMonth_succ year hmonth).ge
  | succ later hle ih =>
      rw [daysBeforeMonth_succ year (by omega)]
      omega

/-- The days of a year that a date may come to. -/
theorem daysBeforeMonth_add_day_le (date : Date) :
    daysBeforeMonth date.year date.month + date.day ≤ daysBeforeMonth date.year 13 := by
  have hday := date.day_range.2
  have hmonth := date.month_range
  have hbefore := @daysBeforeMonth_lt date.year date.month 13 hmonth.1 (by omega)
  omega

theorem daysBeforeMonth_thirteen (year : ℕ) :
    daysBeforeMonth year 13 = if isLeapYear year = true then 366 else 365 := by
  cases hleap : isLeapYear year <;> simp [daysBeforeMonth, daysInMonth, hleap, List.range']

theorem succ_div_eq (value divisor : ℕ) :
    (value + 1) / divisor = value / divisor + if (value + 1) % divisor = 0 then 1 else 0 := by
  rw [Nat.succ_div]
  simp only [Nat.dvd_iff_mod_eq_zero]

theorem daysBeforeYear_succ {year : ℕ} (hyear : 1 ≤ year) :
    daysBeforeYear (year + 1) = daysBeforeYear year + daysBeforeMonth year 13 := by
  obtain ⟨before, rfl⟩ : ∃ before, year = before + 1 := ⟨year - 1, by omega⟩
  have hfours : (before + 1) % 100 = 0 → (before + 1) % 4 = 0 := by omega
  have hhundreds : (before + 1) % 400 = 0 → (before + 1) % 100 = 0 := by omega
  have hbelow : before / 100 ≤ before / 4 := by omega
  rw [daysBeforeMonth_thirteen, daysBeforeYear, daysBeforeYear, Nat.add_sub_cancel,
    Nat.add_sub_cancel, succ_div_eq before 4, succ_div_eq before 100, succ_div_eq before 400]
  simp only [isLeapYear, Bool.and_eq_true, Bool.or_eq_true, decide_eq_true_eq]
  generalize before / 4 = fours at hbelow ⊢
  generalize before / 100 = hundreds at hbelow ⊢
  generalize before / 400 = cycles
  split_ifs <;> omega

theorem daysBeforeYear_lt {year later : ℕ} (hyear : 1 ≤ year) (hlater : year < later) :
    daysBeforeYear year + daysBeforeMonth year 13 ≤ daysBeforeYear later := by
  induction later, hlater using Nat.le_induction with
  | base => exact (daysBeforeYear_succ hyear).ge
  | succ later hle ih =>
      rw [daysBeforeYear_succ (by omega)]
      omega

namespace Date

/-- Dates are ordered by year, month and day. -/
theorem ordinal_lt_of_lt {left right : Date}
    (hless : left.year < right.year ∨ left.year = right.year ∧
      (left.month < right.month ∨ left.month = right.month ∧ left.day < right.day)) :
    left.ordinal < right.ordinal := by
  have hleft := daysBeforeMonth_add_day_le left
  have hday := right.day_range.1
  rw [ordinal, ordinal]
  rcases hless with hyear | ⟨hyear, hmonth | ⟨hmonth, hday⟩⟩
  · have hyears := daysBeforeYear_lt left.year_range.1 hyear
    omega
  · have hmonths := @daysBeforeMonth_lt left.year _ _ left.month_range.1 hmonth
    have hinMonth := left.day_range.2
    rw [← hyear]
    omega
  · rw [← hyear, ← hmonth]
    omega

theorem ordinal_lt_iff {left right : Date} : left.ordinal < right.ordinal ↔
    left.year < right.year ∨ left.year = right.year ∧
      (left.month < right.month ∨ left.month = right.month ∧ left.day < right.day) := by
  constructor
  · intro hordinal
    by_contra hnot
    by_cases hsame : left.year = right.year ∧ left.month = right.month ∧ left.day = right.day
    · rw [ordinal, ordinal, hsame.1, hsame.2.1, hsame.2.2] at hordinal
      exact lt_irrefl _ hordinal
    · have hgreater := @ordinal_lt_of_lt right left (by omega)
      omega
  · exact ordinal_lt_of_lt

theorem ordinal_inj {left right : Date} : left.ordinal = right.ordinal ↔
    left.year = right.year ∧ left.month = right.month ∧ left.day = right.day := by
  have hless := @ordinal_lt_iff left right
  have hgreater := @ordinal_lt_iff right left
  omega

/-- The texts of dates, whatever comes after them, are ordered as the dates. -/
theorem text_append_lt_iff {left right : Date} {leftRest rightRest : List Char} :
    left.text ++ leftRest < right.text ++ rightRest ↔
      left.ordinal < right.ordinal ∨ left.ordinal = right.ordinal ∧ leftRest < rightRest := by
  have hyear : ∀ date : Date, date.year < 10 ^ 4 := fun date =>
    lt_of_le_of_lt date.year_range.2 (by decide)
  have hmonth : ∀ date : Date, date.month < 10 ^ 2 := fun date =>
    lt_of_le_of_lt date.month_range.2 (by decide)
  have hday : ∀ date : Date, date.day < 10 ^ 2 := fun date =>
    lt_of_le_of_lt (date.day_range.2.trans (daysInMonth_le _ _)) (by decide)
  rw [text, text]
  simp only [List.append_assoc, List.cons_append]
  rw [padded_append_lt_iff (hyear left) (hyear right),
    mark_padded_append_lt_iff (hmonth left) (hmonth right),
    mark_padded_append_lt_iff (hday left) (hday right), ordinal_lt_iff, ordinal_inj]
  tauto

end Date

/-! ## Times of day -/

/-- What comes after a fraction: nothing, or a sign. -/
def IsBelowPoint (rest : List Char) : Prop := ∀ mark ∈ rest.head?, mark < '.'

/-- A second without a fraction comes before those with one. -/
theorem fractionText_append_lt_iff {left right : ℕ} (hleft : left < 1000000)
    (hright : right < 1000000) {leftRest rightRest : List Char}
    (hleftRest : IsBelowPoint leftRest) (hrightRest : IsBelowPoint rightRest) :
    fractionText left ++ leftRest < fractionText right ++ rightRest ↔
      left < right ∨ left = right ∧ leftRest < rightRest := by
  rw [fractionText, fractionText]
  split_ifs with hzero hother hother
  · simp [hzero, hother]
  · have hfirst : [] ++ leftRest < '.' :: padded 6 right ++ rightRest := by
      cases leftRest with
      | nil => exact List.nil_lt_cons _ _
      | cons mark rest =>
          exact List.cons_lt_cons_iff.mpr (Or.inl (hleftRest mark rfl))
    exact iff_of_true hfirst (Or.inl (by omega))
  · have hlast : ¬ '.' :: padded 6 left ++ leftRest < [] ++ rightRest := by
      cases rightRest with
      | nil => exact List.not_lt_nil _
      | cons mark rest =>
          have hmark : mark < '.' := hrightRest mark rfl
          rw [List.nil_append, List.cons_append, List.cons_lt_cons_iff]
          rintro (hpoint | ⟨rfl, -⟩)
          · exact Char.lt_asymm hmark hpoint
          · exact Char.lt_irrefl _ hmark
    exact iff_of_false hlast (by omega)
  · exact mark_padded_append_lt_iff (by omega) (by omega)

namespace Clock

theorem total_lt_iff {left right : Clock} (hleft : left.InRange) (hright : right.InRange) :
    left.total < right.total ↔
      left.hour < right.hour ∨ left.hour = right.hour ∧
        (left.minute < right.minute ∨ left.minute = right.minute ∧
          (left.second < right.second ∨ left.second = right.second ∧
            left.microsecond < right.microsecond)) := by
  simp only [InRange] at hleft hright
  simp only [total]
  omega

theorem total_inj {left right : Clock} (hleft : left.InRange) (hright : right.InRange) :
    left.total = right.total ↔
      left.hour = right.hour ∧ left.minute = right.minute ∧ left.second = right.second ∧
        left.microsecond = right.microsecond := by
  simp only [InRange] at hleft hright
  simp only [total]
  omega

/-- The texts of times of day are ordered as the times. -/
theorem text_append_lt_iff {left right : Clock} (hleft : left.InRange) (hright : right.InRange)
    {leftRest rightRest : List Char} (hleftRest : IsBelowPoint leftRest)
    (hrightRest : IsBelowPoint rightRest) :
    left.text ++ leftRest < right.text ++ rightRest ↔
      left.total < right.total ∨ left.total = right.total ∧ leftRest < rightRest := by
  rw [total_lt_iff hleft hright, total_inj hleft hright, text, text]
  simp only [InRange] at hleft hright
  simp only [List.append_assoc, List.cons_append]
  rw [padded_append_lt_iff (by omega) (by omega), mark_padded_append_lt_iff (by omega) (by omega),
    mark_padded_append_lt_iff (by omega) (by omega),
    fractionText_append_lt_iff (by omega) (by omega) hleftRest hrightRest]
  tauto

/-- The seconds of a short text, which are left out where they are zero. -/
def secondsText (clock : Clock) : List Char :=
  if clock.second = 0 ∧ clock.microsecond = 0 then []
  else ':' :: padded 2 clock.second ++ fractionText clock.microsecond

theorem shortText_eq (clock : Clock) : clock.shortText =
    padded 2 clock.hour ++ ':' :: (padded 2 clock.minute ++ clock.secondsText) := by
  rw [shortText, secondsText, text]
  split <;> simp

theorem secondsText_lt_iff {left right : Clock} (hleft : left.InRange) (hright : right.InRange) :
    left.secondsText < right.secondsText ↔ left.second < right.second ∨
      left.second = right.second ∧ left.microsecond < right.microsecond := by
  simp only [InRange] at hleft hright
  rw [secondsText, secondsText]
  split_ifs with hzero hother hother
  · exact iff_of_false (List.not_lt_nil _) (by omega)
  · exact iff_of_true (List.nil_lt_cons _ _) (by omega)
  · exact iff_of_false (List.not_lt_nil _) (by omega)
  · have hfraction := @fractionText_append_lt_iff left.microsecond right.microsecond (by omega)
      (by omega) [] [] (by simp [IsBelowPoint]) (by simp [IsBelowPoint])
    rw [List.append_nil, List.append_nil] at hfraction
    rw [List.cons_append, List.cons_append,
      mark_padded_append_lt_iff (by omega) (by omega), hfraction]
    simp

theorem shortText_lt_iff {left right : Clock} (hleft : left.InRange) (hright : right.InRange) :
    left.shortText < right.shortText ↔ left.total < right.total := by
  rw [shortText_eq, shortText_eq, total_lt_iff hleft hright]
  have hseconds := secondsText_lt_iff hleft hright
  simp only [InRange] at hleft hright
  rw [padded_append_lt_iff (by omega) (by omega), mark_padded_append_lt_iff (by omega) (by omega),
    hseconds]

end Clock

/-! ## Offsets -/

namespace Offset

/-- The texts of offsets: those ahead of UTC come first, and then in the order of their
distances from UTC. -/
theorem text_lt_iff {left right : Offset} : left.text < right.text ↔
    (0 ≤ left.microseconds ∧ right.microseconds < 0) ∨
      (0 ≤ left.microseconds ∧ 0 ≤ right.microseconds ∧
        left.microseconds < right.microseconds) ∨
      (left.microseconds < 0 ∧ right.microseconds < 0 ∧
        right.microseconds < left.microseconds) := by
  have hshort := Clock.shortText_lt_iff (Clock.inRange_ofTotal left.in_range)
    (Clock.inRange_ofTotal right.in_range)
  rw [Clock.total_ofTotal, Clock.total_ofTotal] at hshort
  have hplus : '+' < '-' := by decide
  have hminus : ¬ '-' < '+' := by decide
  rw [text, text, List.cons_lt_cons_iff, hshort]
  split_ifs with hleft hright hright
  · simp
    omega
  · simp [hminus]
    omega
  · simp [hplus]
    omega
  · simp
    omega

theorem isBelowPoint_text (offset : Offset) : IsBelowPoint offset.text := by
  intro mark hmark
  rw [text, List.head?_cons, Option.mem_some_iff] at hmark
  subst hmark
  split <;> decide

end Offset

/-! ## Times with an offset -/

namespace DateTime

/-- The microseconds that the clock on the wall shows. -/
def wall (value : DateTime) : ℤ := value.date.ordinal * dayMicroseconds + value.clock.total

theorem instant_eq {value : DateTime} {offset : Offset} (hoffset : value.offset = some offset) :
    value.instant = value.wall - offset.microseconds := by
  rw [instant, hoffset]
  rfl

theorem total_lt_day (value : DateTime) : value.clock.total < dayMicroseconds := by
  have hrange := value.in_range
  simp only [Clock.InRange] at hrange
  simp only [Clock.total, dayMicroseconds]
  omega

/-- Texts are ordered by the clocks on the wall and then by the offsets. -/
theorem isoformat_lt_iff {left right : DateTime} {leftOffset rightOffset : Offset}
    (hleft : left.offset = some leftOffset) (hright : right.offset = some rightOffset) :
    left.isoformat < right.isoformat ↔
      left.wall < right.wall ∨ left.wall = right.wall ∧ leftOffset.text < rightOffset.text := by
  have hleftDay := left.total_lt_day
  have hrightDay := right.total_lt_day
  rw [isoformat, isoformat, hleft, hright]
  simp only [List.append_assoc, List.cons_append, Option.elim_some]
  rw [Date.text_append_lt_iff, List.cons_lt_cons_iff,
    Clock.text_append_lt_iff left.in_range right.in_range leftOffset.isBelowPoint_text
      rightOffset.isBelowPoint_text, wall, wall]
  simp only [Char.lt_irrefl, false_or, true_and]
  simp only [dayMicroseconds] at hleftDay hrightDay ⊢
  generalize left.date.ordinal = leftDays
  generalize right.date.ordinal = rightDays
  generalize left.clock.total = leftTotal at hleftDay ⊢
  generalize right.clock.total = rightTotal at hrightDay ⊢
  by_cases htext : leftOffset.text < rightOffset.text
  · simp only [htext, and_true]
    omega
  · simp only [htext, and_false, or_false]
    omega

/-- The clocks on the wall are as close together as the offsets allow the instants to be
the other way round. -/
def Misordered (left right : DateTime) : Prop :=
  let gap := left.wall - right.wall
  let drift := left.wall - right.wall - (left.instant - right.instant)
  (drift ≤ gap ∧ gap < 0) ∨ (0 < gap ∧ gap < drift) ∨
    (gap = 0 ∧ drift ≠ 0 ∧ left.instant ≤ left.wall ∧ right.instant ≤ right.wall)

instance (left right : DateTime) : Decidable (Misordered left right) :=
  inferInstanceAs (Decidable (_ ∨ _))

/-- The texts of two times with offsets are ordered as their instants exactly if the
times are not misordered. -/
theorem isoText_lt_iff_iff {left right : DateTime} (hleft : left.offset.isSome = true)
    (hright : right.offset.isSome = true) :
    (left.isoText < right.isoText ↔ left.instant < right.instant) ↔ ¬Misordered left right := by
  obtain ⟨leftOffset, hleft⟩ := Option.isSome_iff_exists.mp hleft
  obtain ⟨rightOffset, hright⟩ := Option.isSome_iff_exists.mp hright
  rw [isoText, isoText, String.lt_iff, String.toList_ofList, String.toList_ofList,
    isoformat_lt_iff hleft hright, Offset.text_lt_iff, Misordered, instant_eq hleft,
    instant_eq hright]
  omega

end DateTime

end AegisForge.Core
