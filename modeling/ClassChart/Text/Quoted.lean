import ClassChart.Text.Printable

/-!
Quoted texts, as they stand in messages.  Single quotes are used unless the text
has a single quote and no double one.  Backslashes, the quote in use and all
characters that are not printable are written as escapes, so a quoted text is
always one line.
-/
namespace ClassChart.Text

/-- The digits of `n` in a base, at least `width` of them. -/
def digitsIn (base width n : Nat) : String :=
  let digits := Nat.toDigits base n
  String.ofList (List.replicate (width - digits.length) '0' ++ digits)

/-- The quote that needs the fewest escapes. -/
def quoteFor (cs : List Char) : Char :=
  if cs.contains '\x27' && !cs.contains '\x22' then '\x22' else '\x27'

/-- One character inside quotes of the given kind. -/
def escape (quote c : Char) : String :=
  if c == '\\' then "\\\\"
  else if c == quote then String.ofList ['\\', quote]
  else if c == '\n' then "\\n"
  else if c == '\r' then "\\r"
  else if c == '\t' then "\\t"
  else if isPrintable c then c.toString
  else if c.toNat < 0x100 then "\\x" ++ digitsIn 16 2 c.toNat
  else if c.toNat < 0x10000 then "\\u" ++ digitsIn 16 4 c.toNat
  else "\\U" ++ digitsIn 16 8 c.toNat

def quoted (s : String) : String :=
  let quote := quoteFor s.toList
  quote.toString ++ String.join (s.toList.map (escape quote)) ++ quote.toString

example : quoted "it's" = "\"it's\"" ∧ quoted "a\"b\n" = "'a\"b\\n'" := by decide +kernel

example : quoted "it's \"q\"" = "'it\\'s \"q\"'" := by decide +kernel

end ClassChart.Text
