import ClassChart.Decimal.Nearest
import ClassChart.Settings.Yaml.Timestamp
import ClassChart.Text.Split

/-!
What an unquoted word of a YAML document stands for: null, a truth value, a
number, a date, or else the text itself.
-/
namespace ClassChart.Yaml

open Decimal

def nullWords : List String := ["", "~", "null", "Null", "NULL"]

def trueWords : List String := ["yes", "Yes", "YES", "true", "True", "TRUE", "on", "On", "ON"]

def falseWords : List String :=
  ["no", "No", "NO", "false", "False", "FALSE", "off", "Off", "OFF"]

/-- Words with a meaning of their own that no setting can have. -/
def reservedWords : List String := ["=", "<<"]

/-- Split off a sign; `true` for minus. -/
def signed : List Char → Bool × List Char
  | '-' :: rest => (true, rest)
  | '+' :: rest => (false, rest)
  | cs => (false, cs)

/-- Whether a character may stand in a number of a base: a digit or an
underscore. -/
def isPlaceIn (base : Nat) (c : Char) : Bool :=
  c == '_' || ((c.isDigit || ('a' ≤ c && c ≤ 'f') || ('A' ≤ c && c ≤ 'F')) &&
    digitValue c < base)

/-- The digits without the underscores between them. -/
def digitsOf (cs : List Char) : List Char :=
  cs.filter (· != '_')

/-- Whether the text is a digit followed by digits and underscores. -/
def isDecimalRun : List Char → Bool
  | c :: rest => c.isDigit && rest.all (isPlaceIn 10)
  | [] => false

/-- Whether the text is one or two digits below sixty. -/
def isSixtieth : List Char → Bool
  | [c] => c.isDigit
  | [c, d] => '0' ≤ c && c ≤ '5' && d.isDigit
  | _ => false

/-- A whole number without its sign: decimal, binary after `0b`, octal after `0`,
hexadecimal after `0x`, or places of sixty between colons. -/
def natural? : List Char → Option Nat
  | ['0'] => some 0
  | '0' :: 'b' :: rest =>
      if !rest.isEmpty && rest.all (isPlaceIn 2) then some (ofDigits 2 (digitsOf rest)) else none
  | '0' :: 'x' :: rest =>
      if !rest.isEmpty && rest.all (isPlaceIn 16) then some (ofDigits 16 (digitsOf rest))
      else none
  | '0' :: rest =>
      if rest.all (isPlaceIn 8) then some (ofDigits 8 (digitsOf rest)) else none
  | cs =>
      match Text.splitChars ':' cs with
      | whole :: sixtieths =>
          if isDecimalRun whole && sixtieths.all isSixtieth then
            some (sixtieths.foldl (fun n part => 60 * n + ofDigits 10 part)
              (ofDigits 10 (digitsOf whole)))
          else none
      | [] => none

/-- A signed exponent after its mark, or nothing. -/
def exponent? : List Char → Option Int
  | [] => some 0
  | mark :: sign :: digits =>
      if (mark == 'e' || mark == 'E') && (sign == '+' || sign == '-') && !digits.isEmpty &&
          digits.all Char.isDigit then
        let n : Int := ofDigits 10 digits
        some (if sign == '-' then -n else n)
      else none
  | _ => none

/-- The number with places of sixty before the point. -/
def sixtiethsToFloat (places : List Float) : Float :=
  (places.reverse.foldl (fun (sum, base) place => (sum + place * base, base * 60.0))
    (0.0, 1.0)).1

/-- A number with a point, without its sign.  Only a number without a sign may
begin with the point. -/
def fraction? (hasSign : Bool) (cs : List Char) : Option Float :=
  let before := cs.takeWhile (· != '.')
  match cs.dropWhile (· != '.') with
  | [] => none
  | _ :: rest =>
      let places := rest.takeWhile (isPlaceIn 10)
      let tail := rest.dropWhile (isPlaceIn 10)
      match Text.splitChars ':' before with
      | [] => none
      | [whole] =>
          let wellFormed :=
            if whole.isEmpty then !hasSign && isDecimalRun places else isDecimalRun whole
          if wellFormed then
            (exponent? tail).map fun e =>
              (Scaled.ofParts (digitsOf whole) (digitsOf places) e).toFloat
          else none
      | whole :: sixtieths =>
          if isDecimalRun whole && sixtieths.all isSixtieth && tail.isEmpty then
            let parts := digitsOf whole :: sixtieths
            let firsts := parts.dropLast.map fun part => (Scaled.ofParts part [] 0).toFloat
            let last := (Scaled.ofParts (parts.getLast?.getD []) (digitsOf places) 0).toFloat
            some (sixtiethsToFloat (firsts ++ [last]))
          else none

/-- A number that is not finite, without its sign. -/
def unbounded? (hasSign : Bool) (s : String) : Option Float :=
  if [".inf", ".Inf", ".INF"].contains s then some (1.0 / 0.0)
  else if !hasSign && [".nan", ".NaN", ".NAN"].contains s then some (0.0 / 0.0)
  else none

/-- The number that a word stands for. -/
def number? (s : String) : Option Value :=
  let (negative, cs) := signed s.toList
  let hasSign := cs.length < s.toList.length
  match (fraction? hasSign cs).or (unbounded? hasSign (String.ofList cs)) with
  | some x => some (.float (if negative then -x else x))
  | none => (natural? cs).map fun n => .int (if negative then -(n : Int) else n)

/-- Why a document has no value. -/
inductive Refusal where
  | malformed
  | impossible (mistake : Calendar.Mistake)
deriving Repr, DecidableEq, Inhabited

/-- What an unquoted word stands for, if it has a meaning as a setting. -/
def plain (s : String) : Except Refusal Value :=
  if nullWords.contains s then .ok .null
  else if trueWords.contains s then .ok (.bool true)
  else if falseWords.contains s then .ok (.bool false)
  else if reservedWords.contains s then .error .malformed
  else if let some x := number? s then .ok x
  else if let some t := Timestamp.ofWord? s then t.value.mapError .impossible
  else .ok (.text s)

end ClassChart.Yaml
