import Crewd.Dates
import Mathlib.Tactic.IntervalCases
import Mathlib.Tactic.Ring

/-! The Gregorian calendar, carried back before its adoption: the length of every month,
and how many days a date lies from the first of January 1970. The conversion of a day
count meets this count, which no two dates share, and no step of it leaves its type. -/
namespace Crewd

abbrev Date := Int × Nat × Nat

section Calendar

def isLeap (year : Int) : Bool := year % 4 = 0 ∧ (year % 100 ≠ 0 ∨ year % 400 = 0)

def daysInYear (year : Int) : Int := if isLeap year then 366 else 365

def daysInMonth (year : Int) : Nat → Nat
  | 1 | 3 | 5 | 7 | 8 | 10 | 12 => 31
  | 4 | 6 | 9 | 11 => 30
  | 2 => if isLeap year then 29 else 28
  | _ => 0

/-- A day of the calendar. -/
def ValidDate : Date → Prop
  | (year, month, day) => 1 ≤ month ∧ month ≤ 12 ∧ 1 ≤ day ∧ day ≤ daysInMonth year month

instance (date : Date) : Decidable (ValidDate date) := by
  unfold ValidDate
  infer_instance

/-- The days from the first of January of the year 1 to that of the year: 365 for each
year in between, and one more for each of them that is a leap year. -/
def daysBeforeYear (year : Int) : Int :=
  365 * (year - 1) + (year - 1) / 4 - (year - 1) / 100 + (year - 1) / 400

def daysBeforeMonth (year : Int) (month : Nat) : Nat :=
  ((List.range month).map (daysInMonth year)).sum

/-- The days from the first of January 1970 to the date. -/
def dayCount : Date → Int
  | (year, month, day) =>
    daysBeforeYear year - daysBeforeYear 1970 + daysBeforeMonth year month + day - 1

example : dayCount (1970, 1, 1) = 0 := by decide

example : dayCount (2026, 7, 5) = 20639 := by decide

variable {year year' : Int} {month month' day : Nat} {date date' : Date}

theorem isLeap_iff : isLeap year = true ↔ year % 4 = 0 ∧ (year % 100 ≠ 0 ∨ year % 400 = 0) :=
  decide_eq_true_iff

theorem daysInYear_leap (leap : year % 4 = 0 ∧ (year % 100 ≠ 0 ∨ year % 400 = 0)) :
    daysInYear year = 366 := if_pos (isLeap_iff.mpr leap)

theorem daysInYear_common (common : ¬ (year % 4 = 0 ∧ (year % 100 ≠ 0 ∨ year % 400 = 0))) :
    daysInYear year = 365 := if_neg (mt isLeap_iff.mp common)

theorem daysBeforeYear_succ (year : Int) :
    daysBeforeYear (year + 1) = daysBeforeYear year + daysInYear year := by
  by_cases leap : year % 4 = 0 ∧ (year % 100 ≠ 0 ∨ year % 400 = 0)
  · rw [daysInYear_leap leap]
    unfold daysBeforeYear
    omega
  · rw [daysInYear_common leap]
    unfold daysBeforeYear
    omega

theorem daysBeforeMonth_succ (year : Int) (month : Nat) :
    daysBeforeMonth year (month + 1) = daysBeforeMonth year month + daysInMonth year month := by
  simp [daysBeforeMonth, List.range_succ]

/-- The months of a year are the year. -/
theorem daysBeforeMonth_last (year : Int) : (daysBeforeMonth year 13 : Int) = daysInYear year := by
  unfold daysInYear daysBeforeMonth
  cases leap : isLeap year <;> simp [daysInMonth, leap, List.range_succ]

theorem daysBeforeMonth_mono (year : Int) : Monotone (daysBeforeMonth year) := by
  apply monotone_nat_of_le_succ
  intro month
  rw [daysBeforeMonth_succ]
  exact Nat.le_add_right _ _

theorem daysBeforeYear_mono {year year' : Int} (order : year ≤ year') :
    daysBeforeYear year ≤ daysBeforeYear year' := by
  have grows : Monotone daysBeforeYear := by
    apply monotone_int_of_le_succ
    intro year
    rw [daysBeforeYear_succ, daysInYear]
    split <;> omega
  exact grows order

/-- A date lies in its year, and in its month. -/
theorem dayCount_bounds (valid : ValidDate (year, month, day)) :
    daysBeforeMonth year month + day ≤ daysBeforeMonth year (month + 1) ∧
      (daysBeforeMonth year (month + 1) : Int) ≤ daysInYear year := by
  obtain ⟨_, december, _, last⟩ := valid
  constructor
  · rw [daysBeforeMonth_succ]
    exact Nat.add_le_add_left last _
  · rw [← daysBeforeMonth_last]
    exact_mod_cast daysBeforeMonth_mono year (Nat.succ_le_succ december)

/-- No two dates have one count. -/
theorem dayCount_injective (valid : ValidDate date) (valid' : ValidDate date')
    (same : dayCount date = dayCount date') : date = date' := by
  have earlier : ∀ {date date' : Date}, ValidDate date → ValidDate date' →
      dayCount date = dayCount date' → ¬ date.1 < date'.1 ∧
        (date.1 = date'.1 → ¬ date.2.1 < date'.2.1) := by
    rintro ⟨year, month, day⟩ ⟨year', month', day'⟩ valid valid' same
    have bounds := dayCount_bounds valid
    have first : 1 ≤ day' := valid'.2.2.1
    simp only [dayCount] at same
    constructor
    · intro years
      have later := daysBeforeYear_mono (show year + 1 ≤ year' from years)
      rw [daysBeforeYear_succ] at later
      omega
    · intro years months
      dsimp only at years months
      subst years
      have later := daysBeforeMonth_mono year (show month + 1 ≤ month' from months)
      omega
  have forth := earlier valid valid' same
  have back := earlier valid' valid same.symm
  obtain ⟨year, month, day⟩ := date
  obtain ⟨year', month', day'⟩ := date'
  obtain rfl : year = year' := by
    have := forth.1
    have := back.1
    dsimp only at *
    omega
  obtain rfl : month = month' := by
    have := forth.2 rfl
    have := back.2 rfl
    dsimp only at *
    omega
  simp only [dayCount] at same
  obtain rfl : day = day' := by omega
  rfl

end Calendar
section Conversion

/-- Four centuries repeat. -/
theorem daysBeforeYear_era (era : Nat) {inEra : Nat} (inside : inEra < 400) :
    daysBeforeYear ((inEra + era * 400 : Nat) + 1) = 146097 * era + yearStart inEra := by
  have years : ((inEra + era * 400 : Nat) + 1 - 1 : Int) = 400 * era + inEra := by
    push_cast
    ring
  have fours : ((400 * era + inEra : Nat) : Int) / 4 = 100 * era + (inEra / 4 : Nat) := by omega
  have centuries : ((400 * era + inEra : Nat) : Int) / 100 = 4 * era + (inEra / 100 : Nat) := by omega
  have eras : ((400 * era + inEra : Nat) : Int) / 400 = era := by omega
  unfold daysBeforeYear yearStart
  push_cast at fours centuries eras
  rw [years, fours, centuries, eras]
  omega

theorem yearStart_succ (era : Nat) {inEra : Nat} (inside : inEra + 1 < 400) :
    (yearStart (inEra + 1) : Int) =
      yearStart inEra + daysInYear ((inEra + era * 400 : Nat) + 1) := by
  have before := daysBeforeYear_era era (show inEra < 400 by omega)
  have after := daysBeforeYear_era era inside
  have next : ((inEra + 1 + era * 400 : Nat) : Int) = (inEra + era * 400 : Nat) + 1 := by
    push_cast
    ring
  rw [next, daysBeforeYear_succ, before] at after
  omega

/-- The years that begin in March are as long as the one that their February is in. -/
theorem dayOfYear_lt (z : Nat) : (dayOfYear z : Int) < daysInYear (marchYear z + 1) := by
  have inside : z % 146097 ≤ 146096 := by omega
  have year := yearOfEra_lt inside
  have bounds := yearOfEra_bounds inside
  by_cases final : yearOfEra (z % 146097) = 399
  · have leap : daysInYear (marchYear z + 1) = 366 := by
      apply daysInYear_leap
      unfold marchYear
      omega
    have start : yearStart 399 = 145731 := by decide
    rw [leap, dayOfYear, final, start]
    omega
  · have next : z % 146097 < yearStart (yearOfEra (z % 146097) + 1) := by
      by_contra late
      have after := (yearOfEra_start (yearOfEra (z % 146097) + 1) (by omega)).1
      have bound := yearOfEra_mono (Nat.le_of_not_lt late)
      omega
    have length := yearStart_succ (z / 146097)
      (show yearOfEra (z % 146097) + 1 < 400 by omega)
    unfold dayOfYear marchYear
    omega

/-- The days up to the March that begins the year, and those of the year. -/
theorem marchYear_days (z : Nat) : daysBeforeYear (marchYear z + 1) + dayOfYear z = z := by
  have inside : z % 146097 ≤ 146096 := by omega
  have bounds := yearOfEra_bounds inside
  have start := daysBeforeYear_era (z / 146097) (yearOfEra_lt inside)
  unfold dayOfYear marchYear
  omega

theorem daysBeforeMonth_march (year : Int) {month : Nat} (early : month < 10) :
    (daysBeforeMonth year (month + 3) : Int) + 306 =
      daysInYear year + ((153 * month + 2) / 5 : Nat) := by
  unfold daysBeforeMonth daysInYear
  cases leap : isLeap year <;> interval_cases month <;>
    simp [daysInMonth, leap, List.range_succ]

theorem daysBeforeMonth_january (year : Int) {month : Nat} (late : 10 ≤ month)
    (most : month ≤ 11) :
    daysBeforeMonth year (month - 9) + 306 = (153 * month + 2) / 5 := by
  unfold daysBeforeMonth
  interval_cases month <;> simp [daysInMonth, List.range_succ]

/-- The computed date is one of the calendar, and its count is the day. -/
theorem civilFromDays_counts (days : Nat) :
    ValidDate (civilFromDays days) ∧ dayCount (civilFromDays days) = days := by
  have length := dayOfYear_lt (days + 719468)
  have count := marchYear_days (days + 719468)
  have most := marchMonth_le (days + 719468)
  have epoch : daysBeforeYear 1970 = 719162 := by decide
  rw [civilFromDays_eq]
  unfold dayOfMonth marchMonth at *
  generalize dayOfYear (days + 719468) = day at *
  generalize marchYear (days + 719468) = year at *
  by_cases early : (5 * day + 2) / 153 < 10
  · have months := daysBeforeMonth_march year early
    rw [if_pos early, if_pos early]
    constructor
    · have long : day - (153 * ((5 * day + 2) / 153) + 2) / 5 + 1 ≤
          daysInMonth year ((5 * day + 2) / 153 + 3) := by
        generalize shown : (5 * day + 2) / 153 = month at *
        interval_cases month <;> simp only [daysInMonth] <;> omega
      exact ⟨by omega, by omega, by omega, long⟩
    · have year_days := daysBeforeYear_succ year
      simp only [dayCount, epoch]
      omega
  · have months := daysBeforeMonth_january (year + 1) (Nat.le_of_not_lt early) most
    rw [if_neg early, if_neg early]
    constructor
    · have long : day - (153 * ((5 * day + 2) / 153) + 2) / 5 + 1 ≤
          daysInMonth (year + 1) ((5 * day + 2) / 153 - 9) := by
        generalize shown : (5 * day + 2) / 153 = month at *
        have late : month = 10 ∨ month = 11 := by omega
        rcases late with rfl | rfl
        · simp only [daysInMonth]
          omega
        · simp only [daysInMonth]
          unfold daysInYear at length
          split at length
          · rename_i leap
            rw [if_pos leap]
            omega
          · rename_i common
            rw [if_neg common]
            omega
      exact ⟨by omega, by omega, by omega, long⟩
    · simp only [dayCount, epoch]
      omega

end Conversion

section Machine

/-- A result that the type holds; at any other the program would stop or wrap. -/
def inI64 (x : Int) : Option Int := if -2 ^ 63 ≤ x ∧ x < 2 ^ 63 then some x else none

def inU64 (x : Int) : Option Nat := if 0 ≤ x ∧ x < 2 ^ 64 then some x.toNat else none

def inU32 (x : Int) : Option Nat := if 0 ≤ x ∧ x < 2 ^ 32 then some x.toNat else none

/-- The conversion with every step of its arithmetic held to its type. -/
def civilFromDaysChecked (z : Int) : Option Date := do
  let z ← inI64 (z + 719468)
  let dividend ← if z ≥ 0 then some z else inI64 (z - 146096)
  let era ← inI64 (dividend.tdiv 146097)
  let eraDays ← inI64 (era * 146097)
  let inEra ← inI64 (z - eraDays)
  let doe ← inU64 inEra
  let short ← inU64 ((doe : Int) - (doe / 1460 : Nat))
  let long ← inU64 ((short : Int) + (doe / 36524 : Nat))
  let yearDays ← inU64 ((long : Int) - (doe / 146096 : Nat))
  let yoe := yearDays / 365
  let inEraYear ← inI64 yoe
  let eraYears ← inI64 (era * 400)
  let y ← inI64 (inEraYear + eraYears)
  let common ← inU64 (365 * (yoe : Int))
  let leap ← inU64 ((common : Int) + (yoe / 4 : Nat))
  let start ← inU64 ((leap : Int) - (yoe / 100 : Nat))
  let doy ← inU64 ((doe : Int) - start)
  let fiveDays ← inU64 (5 * (doy : Int))
  let monthDays ← inU64 ((fiveDays : Int) + 2)
  let mp := monthDays / 153
  let months ← inU64 (153 * (mp : Int))
  let monthStart ← inU64 ((months : Int) + 2)
  let elapsed ← inU64 ((doy : Int) - (monthStart / 5 : Nat))
  let dayOne ← inU64 ((elapsed : Int) + 1)
  let d ← inU32 dayOne
  let month ← if mp < 10 then inU64 ((mp : Int) + 3) else inU64 ((mp : Int) - 9)
  let m ← inU32 month
  let year ← if m ≤ 2 then inI64 (y + 1) else some y
  pure (year, m, d)

theorem inI64_bind {α : Type} {x y : Int} {next : Int → Option α} (same : x = y)
    (low : -2 ^ 63 ≤ y) (high : y < 2 ^ 63) : (inI64 x >>= next) = next y := by
  rw [inI64, same, if_pos ⟨low, high⟩]
  rfl

theorem inU64_bind {α : Type} {x : Int} {n : Nat} {next : Nat → Option α} (same : x = n)
    (high : n < 2 ^ 64) : (inU64 x >>= next) = next n := by
  rw [inU64, same, if_pos (by omega), Int.toNat_natCast]
  rfl

theorem inU32_bind {α : Type} {n : Nat} {next : Nat → Option α} (high : n < 2 ^ 32) :
    (inU32 n >>= next) = next n := by
  rw [inU32, if_pos (by omega), Int.toNat_natCast]
  rfl

/-- No step leaves its type. -/
theorem civilFromDaysChecked_eq {days : Nat} (most : days < 2 ^ 50) :
    civilFromDaysChecked days = some (civilFromDays days) := by
  have inside : (days + 719468) % 146097 ≤ 146096 := by omega
  have years := yearOfEra_lt inside
  have bounds := yearOfEra_bounds inside
  have month := marchMonth_le (days + 719468)
  have day := dayOfMonth_le (days + 719468)
  have within := dayOfYear_le (days + 719468)
  have split : days + 719468 = 146097 * ((days + 719468) / 146097) + (days + 719468) % 146097 := by
    omega
  have division : ((days : Int) + 719468).tdiv 146097 = ((days + 719468) / 146097 : Nat) := by
    rw [Int.tdiv_eq_ediv_of_nonneg (by omega)]
    omega
  rw [civilFromDays_eq]
  unfold marchYear dayOfMonth marchMonth at *
  have since : dayOfYear (days + 719468) = (days + 719468) % 146097 -
      yearStart (yearOfEra ((days + 719468) % 146097)) := rfl
  generalize dayOfYear (days + 719468) = doy at *
  generalize (days + 719468) % 146097 = doe at *
  generalize (days + 719468) / 146097 = era at *
  have quotient : (doe - doe / 1460 + doe / 36524 - doe / 146096) / 365 = yearOfEra doe := rfl
  unfold civilFromDaysChecked
  refine (inI64_bind rfl (by omega) (by omega)).trans ?_
  rw [if_pos (by omega), Option.bind_eq_bind, Option.bind_some]
  refine (inI64_bind division (by omega) (by omega)).trans ?_
  refine (inI64_bind rfl (by omega) (by omega)).trans ?_
  refine (inI64_bind (y := doe) (by omega) (by omega) (by omega)).trans ?_
  refine (inU64_bind rfl (by omega)).trans ?_
  refine (inU64_bind (n := doe - doe / 1460) (by omega) (by omega)).trans ?_
  refine (inU64_bind (n := doe - doe / 1460 + doe / 36524) (by omega) (by omega)).trans ?_
  refine (inU64_bind (n := doe - doe / 1460 + doe / 36524 - doe / 146096) (by omega)
    (by omega)).trans ?_
  dsimp only
  rw [quotient]
  unfold yearStart at *
  generalize yearOfEra doe = yoe at *
  refine (inI64_bind rfl (by omega) (by omega)).trans ?_
  refine (inI64_bind rfl (by omega) (by omega)).trans ?_
  refine (inI64_bind rfl (by omega) (by omega)).trans ?_
  refine (inU64_bind (n := 365 * yoe) (by omega) (by omega)).trans ?_
  refine (inU64_bind (n := 365 * yoe + yoe / 4) (by omega) (by omega)).trans ?_
  refine (inU64_bind (n := 365 * yoe + yoe / 4 - yoe / 100) (by omega) (by omega)).trans ?_
  refine (inU64_bind (n := doy) (by omega) (by omega)).trans ?_
  refine (inU64_bind (n := 5 * doy) (by omega) (by omega)).trans ?_
  refine (inU64_bind (n := 5 * doy + 2) (by omega) (by omega)).trans ?_
  generalize shown : (5 * doy + 2) / 153 = mp at *
  refine (inU64_bind (n := 153 * mp) (by omega) (by omega)).trans ?_
  refine (inU64_bind (n := 153 * mp + 2) (by omega) (by omega)).trans ?_
  refine (inU64_bind (n := doy - (153 * mp + 2) / 5) (by omega) (by omega)).trans ?_
  refine (inU64_bind (n := doy - (153 * mp + 2) / 5 + 1) (by omega) (by omega)).trans ?_
  refine (inU32_bind (by omega)).trans ?_
  have written : ((yoe + era * 400 : Nat) : Int) = yoe + era * 400 := by omega
  by_cases early : mp < 10
  · rw [if_pos early, if_pos early, if_pos early]
    refine (inU64_bind (n := mp + 3) (by omega) (by omega)).trans ?_
    refine (inU32_bind (by omega)).trans ?_
    rw [if_neg (by omega), Option.bind_some, written]
    rfl
  · rw [if_neg early, if_neg early, if_neg early]
    refine (inU64_bind (n := mp - 9) (by omega) (by omega)).trans ?_
    refine (inU32_bind (by omega)).trans ?_
    rw [if_pos (by omega)]
    refine (inI64_bind rfl (by omega) (by omega)).trans ?_
    rw [written]
    rfl

/-- For every day that a count of seconds reaches, the conversion gives the one date of
the calendar that many days after the first of January 1970, and no step of its
arithmetic leaves its type. -/
theorem civil_from_days_gregorian {secs : Nat} (u64 : secs < 2 ^ 64) :
    ValidDate (civilFromDays (secs / 86400 : Nat)) ∧
    dayCount (civilFromDays (secs / 86400 : Nat)) = (secs / 86400 : Nat) ∧
    (∀ date, ValidDate date → dayCount date = (secs / 86400 : Nat) →
      date = civilFromDays (secs / 86400 : Nat)) ∧
    civilFromDaysChecked (secs / 86400 : Nat) = some (civilFromDays (secs / 86400 : Nat)) := by
  obtain ⟨valid, counts⟩ := civilFromDays_counts (secs / 86400)
  refine ⟨valid, counts, fun date valid' same => ?_, civilFromDaysChecked_eq (by omega)⟩
  exact dayCount_injective valid' valid (same.trans counts.symm)

/-- A leap day in a year that ends a century. -/
theorem civil_from_days_gregorian_leap_day :
    civilFromDaysChecked 11016 = some (2000, 2, 29) ∧ dayCount (2000, 2, 29) = 11016 := by
  have u64 : 951782400 < 2 ^ 64 := by decide
  obtain ⟨-, counts, -, checked⟩ := civil_from_days_gregorian u64
  have shown : civilFromDays (951782400 / 86400 : Nat) = (2000, 2, 29) := by decide
  rw [shown] at counts checked
  exact ⟨checked, counts⟩

end Machine
end Crewd
