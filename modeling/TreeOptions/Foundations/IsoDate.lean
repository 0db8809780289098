import TreeOptions.Foundations.Dates

/-!
# Dates in ISO 8601

The reader of ISO dates (`dateFromIso`) takes a year, a month and a day, or a year, a week and a day
of the week, each with dashes or without. A date may have several texts, so that texts that differ
do not tell dates apart, and their order is not the order of the dates.
-/

set_option autoImplicit false

namespace TreeOptions

/-- `YYYY-MM-DD` has ten bytes, and the other forms have eight or seven. -/
def isoLengths : List ℕ :=
  [7, 8, 10]

/-- Digits at the start of a text, just so many, as a number, and what follows them. -/
def parseDigits : ℕ → List Char → Option (ℕ × List Char)
  | 0, text => some (0, text)
  | _ + 1, [] => none
  | count + 1, char :: rest =>
    if char.isDigit then
      (parseDigits count rest).map fun (number, after) =>
        ((char.toNat - '0'.toNat) * 10 ^ count + number, after)
    else none

def isLeap (year : ℕ) : Bool :=
  year % 4 = 0 && (year % 100 ≠ 0 || year % 400 = 0)

def daysInMonth (year month : ℕ) : ℕ :=
  if month = 2 then if isLeap year then 29 else 28
  else if month ∈ [4, 6, 9, 11] then 30
  else 31

/-- The day of a date of the calendar. As in `civilDate`, the years begin in March. -/
def civilDays (year month day : ℕ) : ℤ :=
  let shifted : ℤ := if month ≤ 2 then (year : ℤ) - 1 else year
  let period := shifted / 400
  let yearOfPeriod := shifted % 400
  let monthOfYear : ℤ := if month ≤ 2 then (month : ℤ) + 9 else (month : ℤ) - 3
  let dayOfYear := (153 * monthOfYear + 2) / 5 + day - 1
  let dayOfPeriod := yearOfPeriod * 365 + yearOfPeriod / 4 - yearOfPeriod / 100 + dayOfYear
  period * 146097 + dayOfPeriod - 719468

/-- A date of the years 1 to 9999. -/
def civilOf (year month day : ℕ) : Option ℤ :=
  if 1 ≤ year ∧ 1 ≤ month ∧ month ≤ 12 ∧ 1 ≤ day ∧ day ≤ daysInMonth year month then
    some (civilDays year month day)
  else none

/-- The day of the week, from Monday. -/
def weekday (date : ℤ) : ℤ :=
  (date + 3) % 7

/-- The Monday of the first week of a year, the one that has its first Thursday. -/
def firstMonday (year : ℕ) : ℤ :=
  let first := civilDays year 1 1
  if 3 < weekday first then first - weekday first + 7 else first - weekday first

/-- A year has 53 weeks when it begins on a Thursday, or is a leap year that begins on a Wednesday. -/
def weeksOf (year : ℕ) : ℕ :=
  let first := weekday (civilDays year 1 1)
  if first = 3 ∨ first = 2 ∧ isLeap year then 53 else 52

def weekDateOf (year week day : ℕ) : Option ℤ :=
  let date := firstMonday year + ((week : ℤ) - 1) * 7 + day - 1
  if 1 ≤ year ∧ 1 ≤ week ∧ week ≤ weeksOf year ∧ 1 ≤ day ∧ day ≤ 7 ∧ date ≤ civilDays 9999 12 31 then
    some date
  else none

def takeDash (dashes : Bool) (text : List Char) : Option (List Char) :=
  if dashes then
    if text.head? = some '-' then some text.tail else none
  else some text

/-- What stands after the year. Behind a week there may be no day, and what follows a day is not
looked at. -/
def parseInYear (year : ℕ) (dashes : Bool) (text : List Char) : Option ℤ := do
  if text.head? = some 'W' then
    let (week, text) ← parseDigits 2 text.tail
    if text = [] then weekDateOf year week 1
    else
      let text ← takeDash dashes text
      let (day, _) ← parseDigits 1 text
      weekDateOf year week day
  else
    let (month, text) ← parseDigits 2 text
    let text ← takeDash dashes text
    let (day, _) ← parseDigits 2 text
    civilOf year month day

def dateFromIso (text : String) : Option ℤ := do
  if text.utf8ByteSize ∈ isoLengths then
    let (year, text) ← parseDigits 4 text.toList
    let dashes : Bool := text.head? = some '-'
    parseInYear year dashes (if dashes then text.tail else text)
  else none

example : dateFromIso "2026-01-05" = some 20458 ∧ dateFromIso "20260105" = some 20458 ∧
    dateFromIso "2026-W02-1" = some 20458 ∧ dateFromIso "2026-02-29" = none := by
  decide +kernel

end TreeOptions
