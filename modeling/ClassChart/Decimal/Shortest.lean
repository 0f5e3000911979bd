/-!
The shortest decimal that reads back as a given binary floating-point number.

A positive number is given as `m * 2 ^ q`.  The reals that round to it form an
interval around it; for one, two, … seventeen digits the two neighbours of the
number on that decimal grid are tried, and the first grid with a neighbour
inside the interval wins.
-/
namespace ClassChart.Decimal

/-- The decimal `digits * 10 ^ exponent`. -/
structure Scaled where
  digits : Nat
  exponent : Int
deriving Repr, DecidableEq

/-- Compare `a * 10 ^ i` with `b * 2 ^ j`. -/
def compareScaled (a : Nat) (i : Int) (b : Nat) (j : Int) : Ordering :=
  compare (a * Nat.pow 10 i.toNat * Nat.pow 2 (-j).toNat)
    (b * Nat.pow 2 j.toNat * Nat.pow 10 (-i).toNat)

/-- The number of decimal digits of `n`; zero has none. -/
def digitCount (n : Nat) : Nat :=
  if n = 0 then 0 else (Nat.toDigits 10 n).length

/-- The least `e` with `m * 2 ^ q < 10 ^ e`, for positive `m`. -/
def magnitude (m : Nat) (q : Int) : Int :=
  let top := digitCount (m * Nat.pow 2 q.toNat)
  let bottom := digitCount (Nat.pow 2 (-q).toNat)
  let guess : Int := top - bottom
  if compareScaled 1 guess m q == .gt then guess else guess + 1

/-- Whether the decimal lies in the interval of reals that round to
`m * 2 ^ q`.  The lower half of the interval is narrower when `m` is the least
significand of its binade; the ends belong to it when `m` is even. -/
def roundsTo (m : Nat) (q : Int) (narrow : Bool) (d : Scaled) : Bool :=
  let low := compareScaled d.digits d.exponent (if narrow then 4 * m - 1 else 4 * m - 2) (q - 2)
  let high := compareScaled d.digits d.exponent (4 * m + 2) (q - 2)
  (low == .gt || (low == .eq && m % 2 == 0)) && (high == .lt || (high == .eq && m % 2 == 0))

/-- The nearest decimal with `n` digits that rounds to `m * 2 ^ q`, if any does. -/
def withDigits (m : Nat) (q : Int) (narrow : Bool) (n : Nat) : Option Scaled :=
  let exponent : Int := magnitude m q - n
  let below := (m * Nat.pow 2 q.toNat * Nat.pow 10 (-exponent).toNat) /
    (Nat.pow 2 (-q).toNat * Nat.pow 10 exponent.toNat)
  let low : Scaled := ⟨below, exponent⟩
  let high : Scaled := ⟨below + 1, exponent⟩
  match roundsTo m q narrow low, roundsTo m q narrow high with
  | true, true =>
      match compareScaled (2 * below + 1) exponent (8 * m) (q - 2) with
      | .gt => some low
      | .lt => some high
      | .eq => some (if below % 2 = 0 then low else high)
  | true, false => some low
  | false, true => some high
  | false, false => none

/-- The shortest decimal that reads back as `m * 2 ^ q`. -/
def shortest (m : Nat) (q : Int) (narrow : Bool) : Scaled :=
  ((List.range 17).findSome? fun k => withDigits m q narrow (k + 1)).getD ⟨m, q⟩

/-- Significand and exponent of the absolute value of a finite number. -/
def significand (x : Float) : Nat × Int :=
  let bits := x.toBits.toNat
  let field : Nat := bits / Nat.pow 2 52 % Nat.pow 2 11
  let fraction : Nat := bits % Nat.pow 2 52
  if field = 0 then (fraction, -1074) else (fraction + Nat.pow 2 52, (field : Int) - 1075)

/-- The shortest decimal of the absolute value of a finite number. -/
def ofFloat (x : Float) : Scaled :=
  let (m, q) := significand x
  if m = 0 then ⟨0, 0⟩ else shortest m q (m == Nat.pow 2 52 && q > -1074)

/-- The digits of a decimal without trailing zeros, and the place of its point:
the value is `0.digits * 10 ^ point`. -/
def Scaled.pointed (d : Scaled) : List Char × Int :=
  let digits := Nat.toDigits 10 d.digits
  let kept := (digits.reverse.dropWhile (· == '0')).reverse
  (kept, digits.length + d.exponent)

/-- How a number is written.  Points above `leastPoint` and up to `greatestPoint`
give positional text, all others an exponent of at least two digits. -/
structure Layout where
  leastPoint : Int
  greatestPoint : Int
  infinity : String
  notNumber : String

/-- Digits with a decimal point, at least one on either side. -/
def positional (digits : List Char) (point : Int) : String :=
  if point ≤ 0 then
    "0." ++ String.ofList (List.replicate (-point).toNat '0' ++ digits)
  else
    let whole := digits.take point.toNat
    let zeros := List.replicate (point.toNat - whole.length) '0'
    let fraction := digits.drop point.toNat
    String.ofList (whole ++ zeros) ++ "." ++
      (if fraction.isEmpty then "0" else String.ofList fraction)

/-- Digits with one of them before the point, and an exponent. -/
def scientific (digits : List Char) (point : Int) : String :=
  let exponent := point - 1
  let size := toString exponent.natAbs
  String.ofList (digits.take 1) ++
    (if digits.length ≤ 1 then "" else "." ++ String.ofList (digits.drop 1)) ++
    "e" ++ (if exponent < 0 then "-" else "+") ++ (if size.length < 2 then "0" else "") ++ size

/-- The text of a floating-point number in the given layout. -/
def Layout.write (layout : Layout) (x : Float) : String :=
  let sign := if x.toBits.toNat / Nat.pow 2 63 = 1 then "-" else ""
  if x.isNaN then layout.notNumber
  else if x.isInf then sign ++ layout.infinity
  else
    match (ofFloat x).pointed with
    | ([], _) => sign ++ "0.0"
    | (digits, point) =>
        sign ++
          if layout.leastPoint < point ∧ point ≤ layout.greatestPoint then
            positional digits point
          else scientific digits point

end ClassChart.Decimal
