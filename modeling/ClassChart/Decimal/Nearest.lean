import ClassChart.Decimal.Shortest

/-!
The binary floating-point number nearest to a decimal.
-/
namespace ClassChart.Decimal

/-- The nearest number to a decimal.  Decimals that are too large are infinite and
those that are too small are zero. -/
def Scaled.toFloat (d : Scaled) : Float :=
  let size : Int := digitCount d.digits + d.exponent
  if d.digits = 0 || size < -400 then 0.0
  else if 400 < size then 1.0 / 0.0
  else if d.exponent < 0 then Float.ofScientific d.digits true d.exponent.natAbs
  else Float.ofScientific d.digits false d.exponent.natAbs

/-- The number of a digit in any base up to sixteen. -/
def digitValue (c : Char) : Nat :=
  if '0' ≤ c && c ≤ '9' then c.toNat - '0'.toNat
  else if 'a' ≤ c && c ≤ 'f' then c.toNat - 'a'.toNat + 10
  else if 'A' ≤ c && c ≤ 'F' then c.toNat - 'A'.toNat + 10
  else 0

/-- The number that digits stand for in a base. -/
def ofDigits (base : Nat) (digits : List Char) : Nat :=
  digits.foldl (fun n c => base * n + digitValue c) 0

/-- The decimal with the given digits before and after its point. -/
def Scaled.ofParts (whole fraction : List Char) (exponent : Int) : Scaled :=
  ⟨ofDigits 10 (whole ++ fraction), exponent - fraction.length⟩

end ClassChart.Decimal
