import ClassChart.Text.Quoted

/-!
Dates and times of day.  A day is one that the calendar has, and a moment is a day with a time and
perhaps the offset of its time zone, which is less than a day.
-/
namespace ClassChart.Calendar

/-- The first part of a date or time that is impossible. -/
inductive Mistake where
  | year (n : Nat)
  | month
  | day
  | hour
  | minute
  | second
  | offset (minutes : Int)
deriving Repr, DecidableEq, Inhabited

def isLeap (year : Nat) : Bool :=
  year % 4 = 0 && (year % 100 ≠ 0 || year % 400 = 0)

def daysIn (year month : Nat) : Nat :=
  if month = 2 then if isLeap year then 29 else 28
  else if [4, 6, 9, 11].contains month then 30
  else 31

structure Date where
  year : Nat
  month : Nat
  day : Nat
  year_mem : 1 ≤ year ∧ year ≤ 9999
  month_mem : 1 ≤ month ∧ month ≤ 12
  day_mem : 1 ≤ day ∧ day ≤ daysIn year month
deriving Repr, DecidableEq

/-- The difference of a time zone from universal time. -/
structure Offset where
  minutes : Int
  within : -1440 < minutes ∧ minutes < 1440
deriving Repr, DecidableEq

structure Moment where
  date : Date
  hour : Fin 24
  minute : Fin 60
  second : Fin 60
  microsecond : Fin 1000000
  offset : Option Offset
deriving Repr, DecidableEq

/-- A number that is less than a bound. -/
def below (bound n : Nat) (mistake : Mistake) : Except Mistake (Fin bound) :=
  if h : n < bound then .ok ⟨n, h⟩ else .error mistake

/-- Parts are checked from the year down. -/
def Date.ofParts (year month day : Nat) : Except Mistake Date :=
  if hyear : 1 ≤ year ∧ year ≤ 9999 then
    if hmonth : 1 ≤ month ∧ month ≤ 12 then
      if hday : 1 ≤ day ∧ day ≤ daysIn year month then
        .ok ⟨year, month, day, hyear, hmonth, hday⟩
      else .error .day
    else .error .month
  else .error (.year year)

def Offset.ofMinutes (minutes : Int) : Except Mistake Offset :=
  if h : -1440 < minutes ∧ minutes < 1440 then .ok ⟨minutes, h⟩ else .error (.offset minutes)

/-- A number with zeros in front. -/
def padded (width n : Nat) : String :=
  Text.digitsIn 10 width n

/-- A span of time as days and seconds, of which only the days may be negative. -/
def spanShown (minutes : Int) : String :=
  let days := minutes / 1440
  let seconds := minutes % 1440 * 60
  let parts :=
    (if days = 0 then [] else [s!"days={days}"]) ++
      (if seconds = 0 then [] else [s!"seconds={seconds}"])
  "datetime.timedelta(" ++ ", ".intercalate parts ++ ")"

def Mistake.message : Mistake → String
  | .year n => s!"year {n} is out of range"
  | .month => "month must be in 1..12"
  | .day => "day is out of range for month"
  | .hour => "hour must be in 0..23"
  | .minute => "minute must be in 0..59"
  | .second => "second must be in 0..59"
  | .offset minutes =>
      "offset must be a timedelta strictly between -timedelta(hours=24) and " ++
        s!"timedelta(hours=24), not {spanShown minutes}."

namespace Date

def text (d : Date) : String :=
  s!"{padded 4 d.year}-{padded 2 d.month}-{padded 2 d.day}"

def quoted (d : Date) : String :=
  s!"datetime.date({d.year}, {d.month}, {d.day})"

/-- The days from the first day of the calendar to this one, both counted. -/
def ordinal (d : Date) : Nat :=
  let years := d.year - 1
  let months := (List.range d.month).drop 1
  365 * years + years / 4 - years / 100 + years / 400 +
    (months.map (daysIn d.year)).foldl (· + ·) 0 + d.day

end Date

namespace Offset

def text (o : Offset) : String :=
  let sign := if o.minutes < 0 then "-" else "+"
  let minutes := o.minutes.natAbs
  s!"{sign}{padded 2 (minutes / 60)}:{padded 2 (minutes % 60)}"

def quoted (o : Offset) : String :=
  if o.minutes = 0 then "datetime.timezone.utc"
  else s!"datetime.timezone({spanShown o.minutes})"

end Offset

namespace Moment

/-- The day, the time and the offset.  A whole second has no fraction. -/
def text (m : Moment) : String :=
  let clock := s!"{padded 2 m.hour.val}:{padded 2 m.minute.val}:{padded 2 m.second.val}"
  let fraction := if m.microsecond = 0 then "" else "." ++ padded 6 m.microsecond.val
  s!"{m.date.text} {clock}{fraction}" ++ (m.offset.map Offset.text).getD ""

/-- The parts of a moment, without the seconds of a whole minute. -/
def quoted (m : Moment) : String :=
  let rest : List Nat :=
    if m.microsecond ≠ 0 then [m.second.val, m.microsecond.val]
    else if m.second ≠ 0 then [m.second.val]
    else []
  let parts := [m.date.year, m.date.month, m.date.day, m.hour.val, m.minute.val] ++ rest
  let zone := m.offset.toList.map fun o => "tzinfo=" ++ o.quoted
  "datetime.datetime(" ++ ", ".intercalate (parts.map toString ++ zone) ++ ")"

/-- The minute on the clock, or in universal time if there is an offset. -/
def minuteCount (m : Moment) : Int :=
  (1440 * m.date.ordinal + 60 * m.hour.val + m.minute.val : Nat) -
    (m.offset.map Offset.minutes).getD 0

/-- Whether two moments are one.  One with an offset is never one without. -/
def same (m n : Moment) : Bool :=
  m.offset.isSome = n.offset.isSome && m.minuteCount = n.minuteCount && m.second = n.second &&
    m.microsecond = n.microsecond

end Moment

end ClassChart.Calendar
