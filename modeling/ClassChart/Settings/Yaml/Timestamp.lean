import ClassChart.Decimal.Nearest
import ClassChart.Settings.Value

/-!
Words of a YAML document that are dates or moments.  A date alone has two digits for the month and
for the day; before a time one digit is enough.
-/
namespace ClassChart.Yaml

/-- A time of day as it is written, with the offset of its time zone in minutes. -/
structure Clock where
  hour : Nat
  minute : Nat
  second : Nat
  microsecond : Nat
  offset : Option Int
deriving Repr, DecidableEq, Inhabited

/-- A date as it is written, perhaps with a time. -/
structure Timestamp where
  year : Nat
  month : Nat
  day : Nat
  clock : Option Clock
deriving Repr, DecidableEq, Inhabited

/-- A reader of the characters that are left. -/
abbrev Chars := StateT (List Char) Option

namespace Chars

/-- The digits at the front, of which there are enough and no more than the most are taken. -/
def digits (least most : Nat) : Chars (List Char) := do
  let cs ← get
  let found := (cs.takeWhile Char.isDigit).take most
  if found.length < least then failure
  set (cs.drop found.length)
  return found

def number (least most : Nat) : Chars Nat := do
  return Decimal.ofDigits 10 (← digits least most)

def one (allowed : List Char) : Chars Char := do
  match ← get with
  | c :: rest =>
      if !allowed.contains c then failure
      set rest
      return c
  | [] => failure

/-- Whether there are blanks, which are passed over. -/
def blanks : Chars Bool := do
  let cs ← get
  let rest := cs.dropWhile fun c => c == ' ' || c == '\t'
  set rest
  return rest.length < cs.length

def atEnd : Chars Bool := do
  return (← get).isEmpty

/-- The offset at the end, if there is one. -/
def offset : Chars (Option Int) := do
  let afterBlanks ← blanks
  if ← atEnd then
    if afterBlanks then failure else return none
  else
    let mark ← one ['Z', '+', '-']
    if mark == 'Z' then return some 0
    else
      let hours ← number 1 2
      let minutes ←
        if ← atEnd then pure 0
        else do
          let _ ← one [':']
          number 2 2
      let n : Int := 60 * hours + minutes
      return some (if mark == '-' then -n else n)

/-- The millionths of a second after a point.  Further digits do not count. -/
def microsecond : Chars Nat := do
  if (← get).head? == some '.' then
    let _ ← one ['.']
    let found ← digits 0 (← get).length
    return Decimal.ofDigits 10 ((found ++ List.replicate 6 '0').take 6)
  else return 0

def clock : Chars Clock := do
  if !(← blanks) then
    let _ ← one ['T', 't']
  let hour ← number 1 2
  let _ ← one [':']
  let minute ← number 2 2
  let _ ← one [':']
  let second ← number 2 2
  let microsecond ← microsecond
  return { hour, minute, second, microsecond, offset := ← offset }

def timestamp : Chars Timestamp := do
  let year ← number 4 4
  let _ ← one ['-']
  let month ← digits 1 2
  let _ ← one ['-']
  let day ← digits 1 2
  let clock ←
    if !(← atEnd) then pure (some (← clock))
    else if month.length = 2 && day.length = 2 then pure none
    else failure
  return { year, month := Decimal.ofDigits 10 month, day := Decimal.ofDigits 10 day, clock }

end Chars

namespace Timestamp

/-- The date or moment that a word is written as. -/
def ofWord? (s : String) : Option Timestamp :=
  match Chars.timestamp.run s.toList with
  | some (t, []) => some t
  | _ => none

/-- The offset is checked before the date, and the date before the time. -/
def value (t : Timestamp) : Except Calendar.Mistake Value :=
  match t.clock with
  | none => return .date (← Calendar.Date.ofParts t.year t.month t.day)
  | some c => do
      let offset ← c.offset.mapM Calendar.Offset.ofMinutes
      let date ← Calendar.Date.ofParts t.year t.month t.day
      let hour ← Calendar.below 24 c.hour .hour
      let minute ← Calendar.below 60 c.minute .minute
      let second ← Calendar.below 60 c.second .second
      -- Six digits are read, so the remainder is the number.
      let microsecond : Fin 1000000 :=
        ⟨c.microsecond % 1000000, Nat.mod_lt c.microsecond (Nat.succ_pos 999999)⟩
      return .moment ⟨date, hour, minute, second, microsecond, offset⟩

end Timestamp

end ClassChart.Yaml
