import TreeOptions.Foundations.Instant

/-!
# Dates

A date is a number of days since the epoch. An instant lies on the date of the day in UTC that it
falls in. The texts of a date are those of the proleptic Gregorian calendar.
-/

set_option autoImplicit false

namespace TreeOptions

/-- Microseconds in an hour. -/
def hours (count : ℤ) : ℤ :=
  count * 3600 * microseconds

/-- An hour of a date in UTC. -/
def hourOf (date hour : ℤ) : ℤ :=
  hours (24 * date + hour)

/-- The date of an instant in UTC. -/
def dateOf (instant : ℤ) : ℤ :=
  instant / hours 24

/-- The year, the month and the day of a date. The years begin in March here, so that the day of
a leap year comes last; a period of 400 years has 146097 days. -/
def civilDate (date : ℤ) : ℤ × ℤ × ℤ :=
  let shifted := date + 719468
  let period := shifted / 146097
  let dayOfPeriod := shifted % 146097
  let yearOfPeriod :=
    (dayOfPeriod - dayOfPeriod / 1460 + dayOfPeriod / 36524 - dayOfPeriod / 146096) / 365
  let dayOfYear := dayOfPeriod - (365 * yearOfPeriod + yearOfPeriod / 4 - yearOfPeriod / 100)
  let monthOfYear := (5 * dayOfYear + 2) / 153
  let day := dayOfYear - (153 * monthOfYear + 2) / 5 + 1
  let month := if monthOfYear < 10 then monthOfYear + 3 else monthOfYear - 9
  let year := yearOfPeriod + period * 400 + (if month ≤ 2 then 1 else 0)
  (year, month, day)

/-- A number in some digits at least. -/
def digits (width : ℕ) (number : ℕ) : String :=
  String.ofList ((Nat.toDigits 10 number).leftpad width '0')

theorem ofDigitChars_padding (count start : ℕ) (text : List Char) (zero : start = 0) :
    Nat.ofDigitChars 10 (List.replicate count '0' ++ text) start = Nat.ofDigitChars 10 text 0 := by
  induction count generalizing start with
  | zero => rw [zero, List.replicate_zero, List.nil_append]
  | succ count ih =>
    rw [List.replicate_succ, List.cons_append, Nat.ofDigitChars_cons]
    apply ih
    rw [zero]
    rfl

theorem digits_injective {width number number' : ℕ}
    (same : (digits width number).toList = (digits width number').toList) : number = number' := by
  have readBack : ∀ n : ℕ, Nat.ofDigitChars 10 (digits width n).toList 0 = n := by
    intro n
    rw [digits, String.toList_ofList, List.leftpad, ofDigitChars_padding _ _ _ rfl,
      Nat.ofDigitChars_ten_toDigits]
  rw [← readBack number, same, readBack]

/-- A date as `%Y%m%d`. -/
def longDate (date : ℤ) : String :=
  let (year, month, day) := civilDate date
  digits 4 year.toNat ++ digits 2 month.toNat ++ digits 2 day.toNat

/-- `date.isoformat`. -/
def isoDate (date : ℤ) : String :=
  let (year, month, day) := civilDate date
  digits 4 year.toNat ++ "-" ++ digits 2 month.toNat ++ "-" ++ digits 2 day.toNat

/-- A date as `%y%m%d`. -/
def shortDate (date : ℤ) : String :=
  let (year, month, day) := civilDate date
  digits 2 (year % 100).toNat ++ digits 2 month.toNat ++ digits 2 day.toNat

example : longDate 20513 = "20260301" := by
  decide +kernel

end TreeOptions
