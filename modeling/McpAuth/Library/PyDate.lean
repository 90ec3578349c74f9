/-
**Calendar dates — Python's `datetime.date`.**

A `Date` carries the proof that its fields are a day of the proleptic Gregorian calendar, so it exists only
where the constructor `date(year, month, day)` returns. Dates are ordered by their fields.

* `toOrdinal` — the number of the day, 1 for 0001-01-01;
* `ofOrdinal` / `fromIsoFormat` / `isoFormat` — `date.fromordinal`, `date.fromisoformat` and its inverse text.

`toOrdinal_strictMono`: the order of the fields is the order of the days, so `card_le_of_window` counts the
dates between two days.
-/

import Mathlib.Data.Prod.Lex
import Mathlib.Order.Interval.Finset.Nat
import McpAuth.Library.PyNumbers

namespace PyDate

open PyNumbers

/-! ### The calendar -/

/-- `_is_leap`. -/
def isLeap (year : ℕ) : Bool := year % 4 == 0 && (year % 100 != 0 || year % 400 == 0)

/-- `_days_in_month`. -/
def daysInMonth (year : ℕ) : ℕ → ℕ
  | 1 | 3 | 5 | 7 | 8 | 10 | 12 => 31
  | 4 | 6 | 9 | 11 => 30
  | 2 => if isLeap year then 29 else 28
  | _ => 0

/-- `_days_before_month`, the months of 1 to 12 before one. -/
def daysBeforeMonth (year : ℕ) : ℕ → ℕ
  | 0 => 0
  | month + 1 => daysBeforeMonth year month + daysInMonth year month

/-- `_days_before_year`. -/
def daysBeforeYear (year : ℕ) : ℕ :=
  (year - 1) * 365 + (year - 1) / 4 - (year - 1) / 100 + (year - 1) / 400

/-- A day of the calendar. -/
structure Date where
  year : ℕ
  month : ℕ
  day : ℕ
  isYear : 1 ≤ year ∧ year ≤ 9999
  isMonth : 1 ≤ month ∧ month ≤ 12
  isDay : 1 ≤ day ∧ day ≤ daysInMonth year month
  deriving DecidableEq

/-- `date(year, month, day)`, `none` where it raises `ValueError`. -/
def Date.of (year month day : ℕ) : Option Date :=
  if isDate : (1 ≤ year ∧ year ≤ 9999) ∧ (1 ≤ month ∧ month ≤ 12) ∧ 1 ≤ day ∧ day ≤ daysInMonth year month then
    some ⟨year, month, day, isDate.1, isDate.2.1, isDate.2.2⟩
  else none

namespace Date

/-- `date.toordinal()`. -/
def toOrdinal (date : Date) : ℕ :=
  daysBeforeYear date.year + daysBeforeMonth date.year date.month + date.day

/-- `date.fromordinal(ordinal)`, `none` where it raises. -/
def ofOrdinal (ordinal : ℕ) : Option Date :=
  if ordinal = 0 then none
  else
    let n := ordinal - 1
    let n400 := n / 146097
    let n := n % 146097
    let n100 := n / 36524
    let n := n % 36524
    let n4 := n / 1461
    let n := n % 1461
    let n1 := n / 365
    let n := n % 365
    let year := n400 * 400 + 1 + n100 * 100 + n4 * 4 + n1
    if n1 = 4 ∨ n100 = 4 then Date.of (year - 1) 12 31
    else
      let estimate := (n + 50) / 32
      let month := if daysBeforeMonth year estimate > n then estimate - 1 else estimate
      Date.of year month (n - daysBeforeMonth year month + 1)

/-! ### Text -/

/-- `f"{value:0{width}d}"`. -/
def padded (width value : ℕ) : String :=
  let digits := Nat.toDigits 10 value
  String.ofList (List.replicate (width - digits.length) '0' ++ digits)

/-- `date.isoformat()`. -/
def isoFormat (date : Date) : String :=
  padded 4 date.year ++ "-" ++ padded 2 date.month ++ "-" ++ padded 2 date.day

/-- `parse_digits`: a number of exactly `count` digits and the text after it. -/
def readDigits (value : ℕ) : ℕ → List Char → Option (ℕ × List Char)
  | 0, text => some (value, text)
  | _ + 1, [] => none
  | count + 1, char :: text =>
    if isDigit char then readDigits (value * 10 + (char.toNat - '0'.toNat)) count text else none

/-- The separator, where the text uses one. -/
def readSeparator (usesSeparator : Bool) (text : List Char) : Option (List Char) :=
  if usesSeparator then
    match text with
    | '-' :: rest => some rest
    | _ => none
  else some text

/-- `iso_week1_monday`: the ordinal of the Monday of the first ISO week. -/
def isoWeek1Monday (year : ℕ) : ℕ :=
  let firstDay := daysBeforeYear year + 1
  let firstWeekday := (firstDay + 6) % 7
  let monday := firstDay - firstWeekday
  if 3 < firstWeekday then monday + 7 else monday

/-- `iso_to_ymd`, with the constructor after it. -/
def ofIsoWeek (year week day : ℕ) : Option Date :=
  let firstWeekday := (daysBeforeYear year + 7) % 7
  let isLong := firstWeekday = 3 ∨ (firstWeekday = 2 ∧ isLeap year)
  if year = 0 ∨ 9999 < year then none
  else if week = 0 ∨ 53 < week ∨ (week = 53 ∧ ¬ isLong) then none
  else if day = 0 ∨ 7 < day then none
  else ofOrdinal (isoWeek1Monday year + (week - 1) * 7 + (day - 1))

/-- The part of an ISO week date after its `W`; `parsed` counts the bytes up to the week. -/
def readIsoWeek (length parsed year : ℕ) (usesSeparator : Bool) (text : List Char) : Option Date := do
  let (week, text) ← readDigits 0 2 text
  if parsed < length then
    let text ← readSeparator usesSeparator text
    let (day, _) ← readDigits 0 1 text
    ofIsoWeek year week day
  else ofIsoWeek year week 1

/-- `date.fromisoformat(text)`, `none` where it raises `ValueError`: the length in bytes decides, and
what follows a complete date is not read. -/
def fromIsoFormat (text : String) : Option Date :=
  let length := text.utf8ByteSize
  if length = 7 ∨ length = 8 ∨ length = 10 then do
    let (year, rest) ← readDigits 0 4 text.toList
    let usesSeparator := rest.head? == some '-'
    let rest := if usesSeparator then rest.drop 1 else rest
    match rest with
    | 'W' :: rest => readIsoWeek length (if usesSeparator then 8 else 7) year usesSeparator rest
    | rest => do
      let (month, rest) ← readDigits 0 2 rest
      let rest ← readSeparator usesSeparator rest
      let (day, _) ← readDigits 0 2 rest
      Date.of year month day
  else none

/-! ### Order -/

def fields (date : Date) : ℕ ×ₗ ℕ ×ₗ ℕ := toLex (date.year, toLex (date.month, date.day))

theorem fields_injective : Function.Injective fields := by
  intro first second same
  obtain ⟨year, month, day, _, _, _⟩ := first
  obtain ⟨year', month', day', _, _, _⟩ := second
  simp only [fields, EmbeddingLike.apply_eq_iff_eq, Prod.mk.injEq] at same
  obtain ⟨rfl, rfl, rfl⟩ := same
  rfl

/-- Dates compare by year, month and day. -/
instance : LinearOrder Date := LinearOrder.lift' fields fields_injective

theorem isLeap_iff {year : ℕ} : isLeap year = true ↔ 4 ∣ year ∧ (¬ 100 ∣ year ∨ 400 ∣ year) := by
  simp [isLeap, Nat.dvd_iff_mod_eq_zero]

theorem daysBeforeYear_succ {year : ℕ} (positive : 1 ≤ year) :
    daysBeforeYear (year + 1) = daysBeforeYear year + 365 + if isLeap year then 1 else 0 := by
  obtain ⟨before, rfl⟩ := Nat.exists_eq_add_of_le' positive
  have fewer : before / 100 ≤ before / 4 := Nat.div_le_div_left (by decide) (by decide)
  have four : 100 ∣ before + 1 → 4 ∣ before + 1 := Nat.dvd_trans (by decide)
  have hundred : 400 ∣ before + 1 → 100 ∣ before + 1 := Nat.dvd_trans (by decide)
  simp only [daysBeforeYear, Nat.add_sub_cancel, Nat.succ_div, isLeap_iff]
  by_cases by400 : 400 ∣ before + 1
  · simp only [by400, hundred by400, four (hundred by400), if_true, not_true, or_true, and_self]
    omega
  · by_cases by100 : 100 ∣ before + 1
    · simp only [by400, by100, four by100, if_true, if_false, not_true, or_false, and_false]
      omega
    · by_cases by4 : 4 ∣ before + 1
      · simp only [by400, by100, by4, if_true, if_false, not_false_iff, or_false, and_self]
        omega
      · simp only [by400, by100, by4, if_false, false_and]
        omega

theorem daysBeforeYear_mono {first second : ℕ} (positive : 1 ≤ first) (later : first ≤ second) :
    daysBeforeYear first ≤ daysBeforeYear second := by
  induction second, later using Nat.le_induction with
  | base => exact le_refl _
  | succ second later ih =>
    rw [daysBeforeYear_succ (positive.trans later)]
    omega

theorem daysBeforeMonth_mono (year : ℕ) : Monotone (daysBeforeMonth year) :=
  monotone_nat_of_le_succ fun _ => Nat.le_add_right _ _

/-- The months make up the year. -/
theorem daysBeforeMonth_thirteen (year : ℕ) :
    daysBeforeMonth year 13 = 365 + if isLeap year then 1 else 0 := by
  simp only [daysBeforeMonth, daysInMonth]
  split <;> rfl

theorem day_le_year (date : Date) :
    daysBeforeMonth date.year date.month + date.day ≤ 365 + if isLeap date.year then 1 else 0 := by
  rw [← daysBeforeMonth_thirteen]
  calc daysBeforeMonth date.year date.month + date.day
      ≤ daysBeforeMonth date.year (date.month + 1) := Nat.add_le_add_left date.isDay.2 _
    _ ≤ daysBeforeMonth date.year 13 := daysBeforeMonth_mono _ (Nat.succ_le_succ date.isMonth.2)

/-- **The order of the fields is the order of the days.** -/
theorem toOrdinal_strictMono : StrictMono toOrdinal := by
  intro first second less
  have firstDay := first.isDay
  have secondDay := second.isDay
  rcases Prod.Lex.lt_iff.mp (show first.fields < second.fields from less) with year | ⟨sameYear, later⟩
  · have year : first.year < second.year := year
    have bound := day_le_year first
    have next := daysBeforeYear_succ first.isYear.1
    have later := daysBeforeYear_mono (Nat.le_add_left 1 first.year) year
    simp only [toOrdinal]
    omega
  · have sameYear : first.year = second.year := sameYear
    rcases Prod.Lex.lt_iff.mp later with month | ⟨sameMonth, day⟩
    · have month : first.month < second.month := month
      have later : daysBeforeMonth first.year (first.month + 1) ≤ daysBeforeMonth first.year second.month :=
        daysBeforeMonth_mono first.year month
      have whole : daysBeforeMonth first.year (first.month + 1) =
          daysBeforeMonth first.year first.month + daysInMonth first.year first.month := rfl
      simp only [toOrdinal, ← sameYear]
      omega
    · have sameMonth : first.month = second.month := sameMonth
      have day : first.day < second.day := day
      simp only [toOrdinal, ← sameYear, ← sameMonth]
      omega

/-- **At most `length + 1` dates lie in a window of `length` days.** -/
theorem card_le_of_window {first last : Date} {length : ℕ} (window : last.toOrdinal ≤ first.toOrdinal + length)
    {dates : Finset Date} (inside : ∀ date ∈ dates, first ≤ date ∧ date ≤ last) : dates.card ≤ length + 1 := by
  have within : dates.map ⟨toOrdinal, toOrdinal_strictMono.injective⟩ ⊆
      Finset.Icc first.toOrdinal (first.toOrdinal + length) := by
    intro ordinal member
    obtain ⟨date, isDate, rfl⟩ := Finset.mem_map.mp member
    obtain ⟨after, before⟩ := inside date isDate
    have lower := toOrdinal_strictMono.monotone after
    have upper := toOrdinal_strictMono.monotone before
    rw [Finset.mem_Icc]
    exact ⟨lower, upper.trans window⟩
  have bound := Finset.card_le_card within
  rw [Finset.card_map, Nat.card_Icc] at bound
  omega

end Date

end PyDate
