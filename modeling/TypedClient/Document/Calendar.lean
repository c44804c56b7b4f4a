import TypedClient.Number.Decimal

/-!
# Dates and moments

Documents hold calendar dates, and moments that add a time of day and possibly the distance from
universal time.
-/

namespace TypedClient

/-- A calendar date. -/
structure Date where
  year : Nat
  month : Nat
  day : Nat
  deriving DecidableEq, Repr, Inhabited

namespace Date

/-- Whether a year has a day more. -/
def isLeap (year : Nat) : Bool :=
  year % 4 == 0 && (year % 100 != 0 || year % 400 == 0)

/-- The number of days of a month. -/
def daysIn (year month : Nat) : Nat :=
  if month = 2 then (if isLeap year then 29 else 28)
  else if [4, 6, 9, 11].contains month then 30
  else 31

/-- The date with these parts, if the calendar has it. -/
def of? (year month day : Nat) : Option Date :=
  if 1 ≤ year && year ≤ 9999 && 1 ≤ month && month ≤ 12 && 1 ≤ day && day ≤ daysIn year month then
    some ⟨year, month, day⟩
  else none

/-- A number with zeros before it, up to a width. -/
def padded (width n : Nat) : String :=
  let digits := Decimal.digitString n
  Decimal.zeros (width - digits.length) ++ digits

/-- A date as year, month and day. -/
def text (d : Date) : String :=
  padded 4 d.year ++ "-" ++ padded 2 d.month ++ "-" ++ padded 2 d.day

/-- The parts of a date. -/
def parts (d : Date) : List Nat := [d.year, d.month, d.day]

/-- A date as messages quote it. -/
def quoted (d : Date) : String :=
  "datetime.date(" ++ ", ".intercalate (d.parts.map Decimal.digitString) ++ ")"

end Date

/-- A date with a time of day, and its distance from universal time in minutes if that is known. -/
structure Moment where
  date : Date
  hour : Nat
  minute : Nat
  second : Nat
  microsecond : Nat
  offset : Option Int
  deriving DecidableEq, Repr, Inhabited

namespace Moment

/-- The moment with these parts, if there is one. -/
def of? (date : Date) (hour minute second microsecond : Nat) (offset : Option Int) :
    Option Moment :=
  if hour < 24 && minute < 60 && second < 60 && offset.all fun m => m.natAbs < 24 * 60 then
    some ⟨date, hour, minute, second, microsecond, offset⟩
  else none

/-- The days before a date, counted from the year zero, whose calendar is continued backwards. -/
def dayNumber (d : Date) : Nat :=
  let months := (List.range (d.month - 1)).map fun m => Date.daysIn d.year (m + 1)
  let earlier := d.year - 1
  365 * d.year + earlier / 4 + earlier / 400 - earlier / 100 + months.foldl (· + ·) 0 + d.day

/-- The microseconds before a moment, by universal time if the offset is known. -/
def instant (m : Moment) : Int :=
  let minutes : Int := ((dayNumber m.date * 24 + m.hour) * 60 + m.minute : Nat)
  ((minutes - m.offset.getD 0) * 60 + m.second) * 1000000 + m.microsecond

/-- Whether two moments are one: the same point of time if both offsets are known, and the same date
and time if neither is. -/
def isSame (a b : Moment) : Bool :=
  a.offset.isSome == b.offset.isSome && a.instant == b.instant

/-- An offset as sign, hours and minutes. -/
def offsetText (minutes : Int) : String :=
  (if minutes < 0 then "-" else "+") ++ Date.padded 2 (minutes.natAbs / 60) ++ ":"
    ++ Date.padded 2 (minutes.natAbs % 60)

/-- A moment as date and time. -/
def text (m : Moment) : String :=
  let fraction := if m.microsecond = 0 then "" else "." ++ Date.padded 6 m.microsecond
  m.date.text ++ " " ++ Date.padded 2 m.hour ++ ":" ++ Date.padded 2 m.minute ++ ":"
    ++ Date.padded 2 m.second ++ fraction ++ (m.offset.map offsetText).getD ""

/-- An offset as messages quote it: universal time has a name, and any other distance is in whole
days and the seconds after them. -/
def offsetQuoted (minutes : Int) : String :=
  if minutes = 0 then "datetime.timezone.utc"
  else
    let days := Int.fdiv minutes (24 * 60)
    let seconds := (minutes - days * (24 * 60)) * 60
    let daysText := if days = 0 then "" else "days=" ++ Decimal.signedString days ++ ", "
    "datetime.timezone(datetime.timedelta(" ++ daysText ++ "seconds="
      ++ Decimal.signedString seconds ++ "))"

/-- A moment as messages quote it: parts of a second, and then seconds, are left out if zero. -/
def quoted (m : Moment) : String :=
  let small :=
    if m.microsecond != 0 then [m.second, m.microsecond]
    else if m.second != 0 then [m.second]
    else []
  let numbers := (m.date.parts ++ [m.hour, m.minute] ++ small).map Decimal.digitString
  let zone := m.offset.toList.map fun minutes => "tzinfo=" ++ offsetQuoted minutes
  "datetime.datetime(" ++ ", ".intercalate (numbers ++ zone) ++ ")"

end Moment

end TypedClient
