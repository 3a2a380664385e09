import Crewd.Types
import Mathlib.Data.String.Basic
import Mathlib.Order.Monotone.Basic

/-! The order of RFC 3339 texts. Two instants of one year compare as their texts
do; in different years the texts compare as the written years, which is the
order of the years when both have four digits. -/
namespace Crewd

section Texts

theorem append_lt_append_iff {a b s t : List Char} (length : a.length = b.length) :
    a ++ s < b ++ t ↔ a < b ∨ a = b ∧ s < t := by
  induction a generalizing b with
  | nil =>
    obtain rfl := List.length_eq_zero_iff.mp length.symm
    simp
  | cons c a ih =>
    cases b with
    | nil => simp at length
    | cons d b =>
      simp only [List.cons_append, List.cons_lt_cons_iff, ih (by simpa using length),
        List.cons.injEq]
      rw [and_or_left, or_assoc, and_assoc]

/-- A dash sorts before every digit, so a shorter year before its extensions. -/
theorem dash_lt_dash_iff {a b s t : List Char} (digits : ∀ c ∈ a, c.isDigit = true)
    (others : ∀ c ∈ b, c.isDigit = true) :
    a ++ '-' :: s < b ++ '-' :: t ↔ a < b ∨ a = b ∧ s < t := by
  have above : ∀ {c : Char}, c.isDigit = true → '-' < c := by
    intro c digit
    simp only [Char.isDigit, Bool.and_eq_true, decide_eq_true_eq] at digit
    exact UInt32.lt_of_lt_of_le (by decide) digit.1
  induction a generalizing b with
  | nil =>
    cases b with
    | nil => simp
    | cons d b =>
      have less := above (others d List.mem_cons_self)
      simp [List.cons_lt_cons_iff, less]
  | cons c a ih =>
    have less := above (digits c List.mem_cons_self)
    cases b with
    | nil => simp [List.cons_lt_cons_iff, less.asymm, less.ne']
    | cons d b =>
      simp only [List.cons_append, List.cons_lt_cons_iff, List.cons.injEq,
        ih (fun c inside => digits c (List.mem_cons_of_mem _ inside))
          (fun c inside => others c (List.mem_cons_of_mem _ inside))]
      rw [and_or_left, or_assoc, and_assoc]

theorem digits_value_lt {text : List Char} (digits : ∀ c ∈ text, c.isDigit = true) :
    Nat.ofDigitChars 10 text 0 < 10 ^ text.length := by
  induction text with
  | nil => simp
  | cons c text ih =>
    obtain ⟨digit, rest⟩ := List.forall_mem_cons.mp digits
    simp only [Char.isDigit, Bool.and_eq_true, decide_eq_true_eq] at digit
    have high : c.toNat ≤ 57 := UInt32.le_iff_toNat_le.mp digit.2
    have zero : '0'.toNat = 48 := rfl
    rw [Nat.ofDigitChars_cons, Nat.ofDigitChars_eq_ofDigitChars_zero, List.length_cons, Nat.pow_succ]
    have below := ih rest
    have head : 10 * 0 + (c.toNat - '0'.toNat) ≤ 9 := by omega
    have bound := Nat.mul_le_mul_left (10 ^ text.length) head
    omega

theorem scaled_lt_iff {p x y a b : Nat} (below : a < p) (below' : b < p) :
    p * x + a < p * y + b ↔ x < y ∨ x = y ∧ a < b := by
  rcases Nat.lt_trichotomy x y with less | rfl | more
  · have step := Nat.mul_le_mul_left p less
    rw [Nat.mul_succ] at step
    omega
  · omega
  · have step := Nat.mul_le_mul_left p more
    rw [Nat.mul_succ] at step
    omega

theorem digits_lt_iff {a b : List Char} (digits : ∀ c ∈ a, c.isDigit = true)
    (others : ∀ c ∈ b, c.isDigit = true) (length : a.length = b.length) :
    a < b ↔ Nat.ofDigitChars 10 a 0 < Nat.ofDigitChars 10 b 0 := by
  induction a generalizing b with
  | nil =>
    obtain rfl := List.length_eq_zero_iff.mp length.symm
    simp
  | cons c a ih =>
    cases b with
    | nil => simp at length
    | cons d b =>
      obtain ⟨digit, rest⟩ := List.forall_mem_cons.mp digits
      obtain ⟨digit', rest'⟩ := List.forall_mem_cons.mp others
      have size : a.length = b.length := by simpa using length
      have below := digits_value_lt rest
      have below' := digits_value_lt rest'
      have low : 48 ≤ c.toNat := by
        simp only [Char.isDigit, Bool.and_eq_true, decide_eq_true_eq] at digit
        exact UInt32.le_iff_toNat_le.mp digit.1
      have low' : 48 ≤ d.toNat := by
        simp only [Char.isDigit, Bool.and_eq_true, decide_eq_true_eq] at digit'
        exact UInt32.le_iff_toNat_le.mp digit'.1
      have order : c < d ↔ c.toNat < d.toNat := UInt32.lt_iff_toNat_lt
      have equal : c = d ↔ c.toNat = d.toNat := Char.toNat_inj.symm
      have zero : '0'.toNat = 48 := rfl
      have left := @Nat.ofDigitChars_eq_ofDigitChars_zero a (10 * 0 + (c.toNat - '0'.toNat))
      have right := @Nat.ofDigitChars_eq_ofDigitChars_zero b (10 * 0 + (d.toNat - '0'.toNat))
      rw [List.cons_lt_cons_iff, ih rest rest' size, order, equal, Nat.ofDigitChars_cons,
        Nat.ofDigitChars_cons, left, right, size, scaled_lt_iff (size ▸ below) below', zero]
      omega

theorem padded_toList (width n : Nat) : (padded width n).toList =
    List.replicate (width - (Nat.toDigits 10 n).length) '0' ++ Nat.toDigits 10 n := by
  simp [padded, Nat.repr]

theorem padded_digits (width n : Nat) : ∀ c ∈ (padded width n).toList, c.isDigit = true := by
  intro c member
  rw [padded_toList] at member
  rcases List.mem_append.mp member with zero | digit
  · rw [List.eq_of_mem_replicate zero]
    decide
  · exact Nat.isDigit_of_mem_toDigits (by decide) (by decide) digit

theorem padded_value (width n : Nat) : Nat.ofDigitChars 10 (padded width n).toList 0 = n := by
  rw [padded_toList, Nat.ofDigitChars_append, Nat.ofDigitChars_replicate_zero]
  simp

theorem padded_length {width n : Nat} (some : 0 < width) (small : n < 10 ^ width) :
    (padded width n).toList.length = width := by
  have bound := (Nat.length_toDigits_le_iff (b := 10) (by decide) some).mpr small
  rw [padded_toList, List.length_append, List.length_replicate]
  omega

/-- Numbers of one width sort as their texts. -/
theorem padded_lt_iff {width m n : Nat} (some : 0 < width) (small : m < 10 ^ width)
    (small' : n < 10 ^ width) : padded width m < padded width n ↔ m < n := by
  rw [String.lt_iff_toList_lt, digits_lt_iff (padded_digits width m) (padded_digits width n)
    ((padded_length some small).trans (padded_length some small').symm), padded_value, padded_value]

theorem two_digits_lt_iff {m n : Nat} {s t : List Char} (small : m < 100) (small' : n < 100) :
    (padded 2 m).toList ++ s < (padded 2 n).toList ++ t ↔ m < n ∨ m = n ∧ s < t := by
  have length : (padded 2 m).toList.length = (padded 2 n).toList.length :=
    (padded_length (by decide) small).trans (padded_length (by decide) small').symm
  rw [append_lt_append_iff length, ← String.lt_iff_toList_lt, padded_lt_iff (by decide) small small',
    String.toList_inj, (padded_injective 2).eq_iff]

end Texts

section Days

/-- Year and first day of the year in a cycle of 400 years that begin in March. -/
def yearOfEra (day : Nat) : Nat := (day - day / 1460 + day / 36524 - day / 146096) / 365

def yearStart (year : Nat) : Nat := 365 * year + year / 4 - year / 100

theorem yearOfEra_mono : Monotone yearOfEra := by
  apply monotone_nat_of_le_succ
  intro day
  unfold yearOfEra
  omega

theorem yearOfEra_start : ∀ year < 400, yearOfEra (yearStart year) = year ∧
    (0 < year → yearOfEra (yearStart year - 1) = year - 1) := by
  decide +kernel

theorem yearOfEra_lt {day : Nat} (inside : day ≤ 146096) : yearOfEra day < 400 := by
  have last : yearOfEra 146096 = 399 := by decide
  have bound := yearOfEra_mono inside
  omega

/-- A day lies in the year that is computed for it. -/
theorem yearOfEra_bounds {day : Nat} (inside : day ≤ 146096) :
    yearStart (yearOfEra day) ≤ day ∧ day ≤ yearStart (yearOfEra day) + 365 := by
  have year := yearOfEra_lt inside
  constructor
  · by_contra early
    have later : 0 < yearOfEra day := by
      by_contra first
      have zero : yearOfEra day = 0 := by omega
      rw [zero] at early
      exact early (Nat.zero_le day)
    have before := (yearOfEra_start _ year).2 later
    have bound := yearOfEra_mono (show day ≤ yearStart (yearOfEra day) - 1 by omega)
    omega
  · by_contra late
    have next : yearStart (yearOfEra day + 1) ≤ yearStart (yearOfEra day) + 366 := by
      unfold yearStart
      omega
    by_cases final : yearOfEra day = 399
    · have first : yearStart 399 = 145731 := by decide
      rw [final, first] at late
      omega
    · have after := (yearOfEra_start (yearOfEra day + 1) (by omega)).1
      have bound := yearOfEra_mono (show yearStart (yearOfEra day + 1) ≤ day by omega)
      omega

/-- Day of the year, counted from March, and the month it lies in. -/
def dayOfYear (z : Nat) : Nat := z % 146097 - yearStart (yearOfEra (z % 146097))

def marchMonth (z : Nat) : Nat := (5 * dayOfYear z + 2) / 153

def marchYear (z : Nat) : Nat := yearOfEra (z % 146097) + z / 146097 * 400

def dayOfMonth (z : Nat) : Nat := dayOfYear z - (153 * marchMonth z + 2) / 5 + 1

theorem dayOfYear_le (z : Nat) : dayOfYear z ≤ 365 := by
  have bounds := yearOfEra_bounds (show z % 146097 ≤ 146096 by omega)
  unfold dayOfYear
  omega

theorem marchMonth_le (z : Nat) : marchMonth z ≤ 11 := by
  have bound := dayOfYear_le z
  unfold marchMonth
  omega

theorem dayOfMonth_le (z : Nat) : 1 ≤ dayOfMonth z ∧ dayOfMonth z ≤ 31 := by
  unfold dayOfMonth marchMonth
  omega

/-- Years and months come before days. -/
def dayKey (z : Nat) : Nat := (12 * marchYear z + marchMonth z) * 32 + dayOfMonth z

theorem dayKey_step (z : Nat) : dayKey z < dayKey (z + 1) := by
  have month := marchMonth_le z
  have day := dayOfMonth_le z
  have day' := dayOfMonth_le (z + 1)
  by_cases turn : z % 146097 = 146096
  · have year := yearOfEra_lt (show z % 146097 ≤ 146096 by omega)
    have years : marchYear z < marchYear (z + 1) := by
      have era : (z + 1) / 146097 = z / 146097 + 1 := by omega
      unfold marchYear
      rw [era]
      omega
    unfold dayKey
    omega
  · have next : (z + 1) % 146097 = z % 146097 + 1 := by omega
    have era : (z + 1) / 146097 = z / 146097 := by omega
    have grows := yearOfEra_mono (show z % 146097 ≤ (z + 1) % 146097 by omega)
    by_cases same : yearOfEra (z % 146097) = yearOfEra ((z + 1) % 146097)
    · have bounds := yearOfEra_bounds (show z % 146097 ≤ 146096 by omega)
      have days : dayOfYear (z + 1) = dayOfYear z + 1 := by
        unfold dayOfYear
        rw [← same, next]
        omega
      have years : marchYear (z + 1) = marchYear z := by
        unfold marchYear
        rw [← same, era]
      have months : marchMonth z ≤ marchMonth (z + 1) := by
        unfold marchMonth
        omega
      by_cases still : marchMonth z = marchMonth (z + 1)
      · have later : dayOfMonth z < dayOfMonth (z + 1) := by
          have inMonth : (153 * marchMonth z + 2) / 5 ≤ dayOfYear z := by
            unfold marchMonth
            omega
          unfold dayOfMonth
          rw [← still, days]
          omega
        unfold dayKey
        rw [years, ← still]
        omega
      · unfold dayKey
        rw [years]
        omega
    · have years : marchYear z < marchYear (z + 1) := by
        unfold marchYear
        rw [era]
        omega
      unfold dayKey
      omega

theorem dayKey_strictMono : StrictMono dayKey := strictMono_nat_of_lt_succ dayKey_step

theorem civilFromDays_eq (days : Nat) : civilFromDays days =
    (if marchMonth (days + 719468) < 10 then (marchYear (days + 719468) : Int)
        else (marchYear (days + 719468) : Int) + 1,
      if marchMonth (days + 719468) < 10 then marchMonth (days + 719468) + 3
        else marchMonth (days + 719468) - 9,
      dayOfMonth (days + 719468)) := by
  have month := marchMonth_le (days + 719468)
  have era : ((days : Int) + 719468).tdiv 146097 = ((days + 719468) / 146097 : Nat) := by
    rw [Int.tdiv_eq_ediv_of_nonneg (by omega)]
    omega
  have inEra : ((days : Int) + 719468 - ((days + 719468) / 146097 : Nat) * 146097).toNat =
      (days + 719468) % 146097 := by
    omega
  have year : (marchYear (days + 719468) : Int) =
      yearOfEra ((days + 719468) % 146097) + ((days + 719468) / 146097 : Nat) * 400 := by
    unfold marchYear
    omega
  unfold civilFromDays
  dsimp only
  rw [if_pos (by omega : (days : Int) + 719468 ≥ 0), era, inEra]
  change (if (if marchMonth (days + 719468) < 10 then marchMonth (days + 719468) + 3
      else marchMonth (days + 719468) - 9) ≤ 2
    then ((yearOfEra ((days + 719468) % 146097) : Nat) : Int) +
      ((days + 719468) / 146097 : Nat) * 400 + 1
    else ((yearOfEra ((days + 719468) % 146097) : Nat) : Int) +
      ((days + 719468) / 146097 : Nat) * 400,
    if marchMonth (days + 719468) < 10 then marchMonth (days + 719468) + 3
      else marchMonth (days + 719468) - 9, dayOfMonth (days + 719468)) = _
  by_cases early : marchMonth (days + 719468) < 10
  · rw [if_pos early, if_pos early, if_neg (by omega), year]
  · rw [if_neg early, if_neg early, if_pos (by omega), year]

/-- The civil date of an instant. -/
def yearOf (secs : Nat) : Nat := (civilFromDays ((secs / 86400 : Nat) : Int)).1.toNat

def monthOf (secs : Nat) : Nat := (civilFromDays ((secs / 86400 : Nat) : Int)).2.1

def dayOf (secs : Nat) : Nat := (civilFromDays ((secs / 86400 : Nat) : Int)).2.2

theorem date_bounds (secs : Nat) : 1 ≤ monthOf secs ∧ monthOf secs ≤ 12 ∧ dayOf secs ≤ 31 := by
  have month := marchMonth_le (secs / 86400 + 719468)
  have day := dayOfMonth_le (secs / 86400 + 719468)
  unfold monthOf dayOf
  rw [civilFromDays_eq]
  dsimp only
  split <;> omega

theorem date_key (secs : Nat) : (12 * yearOf secs + monthOf secs) * 32 + dayOf secs =
    dayKey (secs / 86400 + 719468) + 96 := by
  have month := marchMonth_le (secs / 86400 + 719468)
  unfold yearOf monthOf dayOf dayKey
  rw [civilFromDays_eq]
  dsimp only
  split <;> omega

theorem date_lt_iff (a b : Nat) : a / 86400 < b / 86400 ↔
    (12 * yearOf a + monthOf a) * 32 + dayOf a < (12 * yearOf b + monthOf b) * 32 + dayOf b := by
  have order := dayKey_strictMono.lt_iff_lt (a := a / 86400 + 719468) (b := b / 86400 + 719468)
  rw [date_key, date_key]
  omega

theorem yearOf_mono {a b : Nat} (order : a ≤ b) : yearOf a ≤ yearOf b := by
  have days := date_lt_iff b a
  have bounds := date_bounds a
  have bounds' := date_bounds b
  have least : a / 86400 ≤ b / 86400 := Nat.div_le_div_right order
  omega

/-- Hours come before minutes and seconds. -/
theorem clock_lt_iff (r t : Nat) : (r / 3600 < t / 3600 ∨ r / 3600 = t / 3600 ∧
    (r % 3600 / 60 < t % 3600 / 60 ∨ r % 3600 / 60 = t % 3600 / 60 ∧ r % 60 < t % 60)) ↔ r < t := by
  have inHour : ∀ q s : Nat, (q / 60 < s / 60 ∨ q / 60 = s / 60 ∧ q % 60 < s % 60) ↔ q < s := by
    omega
  rw [← Nat.mod_mod_of_dvd r (show 60 ∣ 3600 by decide),
    ← Nat.mod_mod_of_dvd t (show 60 ∣ 3600 by decide), inHour]
  omega

end Days

theorem rfc3339_eq (secs : Nat) : rfc3339FromUnixSecs secs =
    padded 4 (yearOf secs) ++ "-" ++ padded 2 (monthOf secs) ++ "-" ++ padded 2 (dayOf secs) ++
      "T" ++ (padded 2 (secs % 86400 / 3600) ++ ":" ++ padded 2 (secs % 86400 % 3600 / 60) ++ ":" ++
        padded 2 (secs % 86400 % 60)) ++ "Z" := by
  unfold rfc3339FromUnixSecs yearOf monthOf dayOf
  dsimp only

theorem timestamp_toList (year month day hour minute second : String) :
    (year ++ "-" ++ month ++ "-" ++ day ++ "T" ++ (hour ++ ":" ++ minute ++ ":" ++ second) ++
      "Z").toList = year.toList ++ '-' :: (month.toList ++ '-' :: (day.toList ++ 'T' ::
        (hour.toList ++ ':' :: (minute.toList ++ ':' :: (second.toList ++ ['Z']))))) := by
  simp

theorem rfc3339_toList (secs : Nat) : (rfc3339FromUnixSecs secs).toList =
    (padded 4 (yearOf secs)).toList ++ '-' :: ((padded 2 (monthOf secs)).toList ++ '-' ::
      ((padded 2 (dayOf secs)).toList ++ 'T' :: ((padded 2 (secs % 86400 / 3600)).toList ++ ':' ::
        ((padded 2 (secs % 86400 % 3600 / 60)).toList ++ ':' ::
          ((padded 2 (secs % 86400 % 60)).toList ++ ['Z']))))) := by
  rw [rfc3339_eq]
  exact timestamp_toList _ _ _ _ _ _

/-- In one year the texts sort as the instants, in two as the written years. -/
theorem rfc3339_lt_iff (a b : Nat) : rfc3339FromUnixSecs a < rfc3339FromUnixSecs b ↔
    padded 4 (yearOf a) < padded 4 (yearOf b) ∨ yearOf a = yearOf b ∧ a < b := by
  have bounds := date_bounds a
  have bounds' := date_bounds b
  have days := date_lt_iff a b
  have days' := date_lt_iff b a
  have same_head : ∀ (c : Char) (s t : List Char), c :: s < c :: t ↔ s < t := by
    intro c s t
    simp
  have clock := clock_lt_iff (a % 86400) (b % 86400)
  rw [String.lt_iff_toList_lt, rfc3339_toList, rfc3339_toList,
    dash_lt_dash_iff (padded_digits 4 _) (padded_digits 4 _), ← String.lt_iff_toList_lt,
    String.toList_inj, (padded_injective 4).eq_iff]
  apply or_congr Iff.rfl
  apply and_congr_right
  intro year
  rw [two_digits_lt_iff (by omega) (by omega), same_head,
    two_digits_lt_iff (by omega) (by omega), same_head,
    two_digits_lt_iff (by omega) (by omega), same_head,
    two_digits_lt_iff (by omega) (by omega), same_head,
    two_digits_lt_iff (by omega) (by omega), iff_false_intro (List.lt_irrefl _), and_false, or_false,
    clock]
  omega

/-- The written years of two instants sort as the years do. -/
def YearsSort (a b : Nat) : Prop :=
  padded 4 (yearOf a) < padded 4 (yearOf b) ↔ yearOf a < yearOf b

instance (a b : Nat) : Decidable (YearsSort a b) :=
  inferInstanceAs (Decidable (_ ↔ _))

theorem years_sort {a b : Nat} (four : yearOf a < 10000) (four' : yearOf b < 10000) :
    YearsSort a b :=
  padded_lt_iff (by decide) four four'

theorem rfc3339_sorts_iff (a b : Nat) :
    (rfc3339FromUnixSecs a < rfc3339FromUnixSecs b ↔ a < b) ↔ YearsSort a b := by
  unfold YearsSort
  rw [rfc3339_lt_iff]
  rcases Nat.lt_trichotomy (yearOf a) (yearOf b) with less | same | more
  · have order : a < b := by
      by_contra late
      have years := yearOf_mono (Nat.le_of_not_lt late)
      omega
    simp [less, less.ne, order]
  · simp [same]
  · have order : ¬ a < b := by
      intro early
      have years := yearOf_mono early.le
      omega
    simp [more.asymm, more.ne', order]

/-- A text of six padded numbers with a mark behind each. -/
theorem timestamp_length {year month day hour minute second : List Char}
    (four : year.length = 4) (months : month.length = 2) (days : day.length = 2)
    (hours : hour.length = 2) (minutes : minute.length = 2) (seconds : second.length = 2) :
    (year ++ '-' :: (month ++ '-' :: (day ++ 'T' :: (hour ++ ':' :: (minute ++ ':' ::
      (second ++ ['Z'])))))).length = 20 := by
  simp [four, months, days, hours, minutes, seconds]

theorem rfc3339_length {secs : Nat} (four : yearOf secs ≤ 9999) :
    (rfc3339FromUnixSecs secs).length = 20 := by
  have bounds := date_bounds secs
  rw [← String.length_toList, rfc3339_toList]
  apply timestamp_length
  · exact padded_length (by decide) (Nat.lt_of_le_of_lt four (by decide))
  · exact padded_length (by decide) (by omega)
  · exact padded_length (by decide) (by omega)
  · exact padded_length (by decide) (by omega)
  · exact padded_length (by decide) (by omega)
  · exact padded_length (by decide) (by omega)

/-- Up to the year 9999 the texts have one length and sort as the instants do. -/
theorem timestamps_order_like_time {a b : Nat} (four : yearOf a ≤ 9999)
    (four' : yearOf b ≤ 9999) :
    (rfc3339FromUnixSecs a).length = 20 ∧ (rfc3339FromUnixSecs b).length = 20 ∧
      (a < b ↔ rfc3339FromUnixSecs a < rfc3339FromUnixSecs b) := by
  have sorted : YearsSort a b := years_sort (by omega) (by omega)
  exact ⟨rfc3339_length four, rfc3339_length four', ((rfc3339_sorts_iff a b).mpr sorted).symm⟩

/-- The last second of February 2000 and the last one of the year 9999. -/
theorem timestamps_order_like_time_last :
    rfc3339FromUnixSecs 951868799 < rfc3339FromUnixSecs 253402300799 :=
  (timestamps_order_like_time (by decide +kernel) (by decide +kernel)).2.2.mp (by omega)

end Crewd
