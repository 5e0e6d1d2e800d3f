import AgenticOS.Data.Decimal
import Mathlib.Data.Int.ConditionallyCompleteOrder

/-!
# Clock readings

A time stamp is a rational number of seconds since 1970-01-01T00:00Z, a date the
number of days since 1970-01-01. The program reads two clocks: `datetime.now(UTC)`
and the local calendar date `date.today()`. They are separate inputs because the
local date need not be the UTC date of the same moment.
-/

namespace AgenticOS

/-- A time stamp in seconds since the epoch, UTC. -/
abbrev Timestamp := ℚ

/-- A calendar date in days since the epoch. -/
abbrev Day := ℤ

/-- One reading of the two clocks. -/
structure Clock where
  /-- `datetime.now(UTC)`. -/
  now : Timestamp
  /-- `date.today()`. -/
  today : Day

/-- One reading of the monotonic clock, in seconds, and of `datetime.now(UTC)`. -/
structure Instant where
  /-- `time.monotonic()`. -/
  mono : ℚ
  now : Timestamp

/-- `time.date()` of a UTC time stamp. -/
def Timestamp.date (time : Timestamp) : Day :=
  ⌊time / 86400⌋

/-- `time + timedelta(seconds=seconds)`. A `timedelta` counts whole microseconds, and the sum
overflows outside the years 1 to 9999. -/
def Timestamp.after? (time : Timestamp) (seconds : ℚ) : Option Timestamp :=
  let sum := time + Decimal.roundTo 6 seconds
  if -62135596800 ≤ sum ∧ sum < 253402300800 then some sum else none

/-- The year and the month of a date in the proleptic Gregorian calendar. Years are
counted from March here, so that the leap day is the last day of a year. -/
def Day.yearMonth (day : Day) : ℤ × ℤ :=
  let shifted := day + 719468
  let era := shifted / 146097
  let dayOfEra := shifted % 146097
  let yearOfEra :=
    (dayOfEra - dayOfEra / 1460 + dayOfEra / 36524 - dayOfEra / 146096) / 365
  let dayOfYear := dayOfEra - (365 * yearOfEra + yearOfEra / 4 - yearOfEra / 100)
  let marchMonth := (5 * dayOfYear + 2) / 153
  let month := if marchMonth < 10 then marchMonth + 3 else marchMonth - 9
  let year := yearOfEra + era * 400
  (if month ≤ 2 then year + 1 else year, month)

example : Day.yearMonth 0 = (1970, 1) := by decide

example : (Day.yearMonth 19782, Day.yearMonth 19783) = ((2024, 2), (2024, 3)) := by decide

end AgenticOS

/-!
## Months in order

The conversion of a day into a year and a month goes through a count of months, which never
decreases from one day to a later one. So a month is an interval of days: what lies between two
days of one month is of this month.
-/

namespace AgenticOS.Day

/-- The days of an era of 400 years, without the leap days before them. -/
def commonDays (day : ℤ) : ℤ :=
  day - day / 1460 + day / 36524 - day / 146096

def yearOfEra (day : ℤ) : ℤ :=
  commonDays day / 365

/-- The first day of a year. -/
def yearStart (year : ℤ) : ℤ :=
  365 * year + year / 4 - year / 100

def marchMonth (day : ℤ) : ℤ :=
  (5 * (day - yearStart (yearOfEra day)) + 2) / 153

theorem commonDays_succ (day : ℤ) : commonDays day ≤ commonDays (day + 1) := by
  have century : day / 36524 ≤ (day + 1) / 36524 := by omega
  have era : ∀ days : ℤ, days / 146096 = days / 36524 / 4 := by
    intro days
    rw [Int.ediv_ediv_of_nonneg (by decide)]
    rfl
  unfold commonDays
  rw [era, era]
  omega

theorem commonDays_mono : Monotone commonDays :=
  monotone_int_of_le_succ commonDays_succ

theorem yearOfEra_mono : Monotone yearOfEra :=
  fun _ _ le => Int.ediv_le_ediv (by decide) (commonDays_mono le)

theorem commonDays_yearStart : ∀ year : Fin 400,
    (0 < year.val → commonDays (yearStart year.val - 1) < 365 * year.val) ∧
      365 * (year.val + 1) ≤ commonDays (yearStart year.val + 367) := by
  decide +kernel

section

variable {day : ℤ} (nonneg : 0 ≤ day) (inEra : day < 146097)
include nonneg inEra

theorem yearOfEra_range : 0 ≤ yearOfEra day ∧ yearOfEra day < 400 := by
  have least := yearOfEra_mono nonneg
  have most := yearOfEra_mono (Int.le_sub_one_of_lt inEra)
  have first : yearOfEra 0 = 0 := by decide
  have last : yearOfEra (146097 - 1) = 399 := by decide
  omega

theorem dayOfYear_range :
    yearStart (yearOfEra day) ≤ day ∧ day < yearStart (yearOfEra day) + 367 := by
  obtain ⟨least, most⟩ := yearOfEra_range nonneg inEra
  have bounds := commonDays_yearStart ⟨(yearOfEra day).toNat, by omega⟩
  simp only [Int.toNat_of_nonneg least] at bounds
  have division : yearOfEra day = commonDays day / 365 := rfl
  constructor
  · by_contra before
    have positive : 0 < yearOfEra day := by
      rcases least.lt_or_eq with positive | zero
      · exact positive
      · rw [← zero] at before
        exact absurd nonneg before
    have earlier := commonDays_mono (Int.le_sub_one_of_lt (not_le.mp before))
    omega
  · by_contra after
    have later := commonDays_mono (not_lt.mp after)
    omega

theorem marchMonth_range : 0 ≤ marchMonth day ∧ marchMonth day ≤ 11 := by
  obtain ⟨from_start, to_end⟩ := dayOfYear_range nonneg inEra
  unfold marchMonth
  omega

end

def monthOfEra (day : ℤ) : ℤ :=
  12 * yearOfEra day + marchMonth day

def monthIndex (day : ℤ) : ℤ :=
  monthOfEra ((day + 719468) % 146097) + 4800 * ((day + 719468) / 146097)

theorem monthOfEra_le {earlier later : ℤ} (nonneg : 0 ≤ earlier) (inEra : later < 146097)
    (le : earlier ≤ later) : monthOfEra earlier ≤ monthOfEra later := by
  have earlierRange := marchMonth_range nonneg (le.trans_lt inEra)
  have laterRange := marchMonth_range (nonneg.trans le) inEra
  unfold monthOfEra
  rcases (yearOfEra_mono le).lt_or_eq with before | same
  · omega
  · have months : marchMonth earlier ≤ marchMonth later := by
      unfold marchMonth
      rw [same]
      omega
    omega

theorem monthOfEra_range {day : ℤ} (nonneg : 0 ≤ day) (inEra : day < 146097) :
    0 ≤ monthOfEra day ∧ monthOfEra day < 4800 := by
  have years := yearOfEra_range nonneg inEra
  have months := marchMonth_range nonneg inEra
  unfold monthOfEra
  omega

theorem monthIndex_mono : Monotone monthIndex := by
  intro earlier later le
  unfold monthIndex
  have range : ∀ day : ℤ, 0 ≤ (day + 719468) % 146097 ∧ (day + 719468) % 146097 < 146097 := by
    intro day
    omega
  have earlierRange := monthOfEra_range (range earlier).1 (range earlier).2
  have laterRange := monthOfEra_range (range later).1 (range later).2
  rcases lt_or_eq_of_le (show (earlier + 719468) / 146097 ≤ (later + 719468) / 146097 by omega)
    with before | same
  · omega
  · have inOrder : (earlier + 719468) % 146097 ≤ (later + 719468) % 146097 := by omega
    have months := monthOfEra_le (range earlier).1 (range later).2 inOrder
    omega

theorem yearMonth_eq (day : ℤ) :
    yearMonth day = ((monthIndex day + 2) / 12, (monthIndex day + 2) % 12 + 1) := by
  have nonneg : 0 ≤ (day + 719468) % 146097 := by omega
  have months := marchMonth_range nonneg (by omega)
  unfold monthIndex monthOfEra
  generalize eraEq : (day + 719468) / 146097 = era
  generalize yearEq : yearOfEra ((day + 719468) % 146097) = year
  generalize monthEq : marchMonth ((day + 719468) % 146097) = month at months
  have civil : yearMonth day =
      (if (if month < 10 then month + 3 else month - 9) ≤ 2 then year + era * 400 + 1
        else year + era * 400, if month < 10 then month + 3 else month - 9) := by
    rw [← eraEq, ← yearEq, ← monthEq]
    rfl
  rw [civil, Prod.mk.injEq]
  split
  · omega
  · omega

theorem yearMonth_eq_iff {first second : ℤ} :
    yearMonth first = yearMonth second ↔ monthIndex first = monthIndex second := by
  rw [yearMonth_eq, yearMonth_eq, Prod.mk.injEq]
  omega

theorem yearMonth_of_between {first between last : ℤ} (after : first ≤ between)
    (before : between ≤ last) (same : yearMonth first = yearMonth last) :
    yearMonth between = yearMonth last := by
  rw [yearMonth_eq_iff] at same ⊢
  have lower := monthIndex_mono after
  have upper := monthIndex_mono before
  omega

end AgenticOS.Day
