import ClassChart.Text.Quoted

/-!
Bytes that are written as text, four characters for three bytes.
-/
namespace ClassChart.Binary

/-- The six bits that a character stands for.  Other characters are passed over. -/
def sextet? (c : Char) : Option Nat :=
  if c.isUpper then some (c.toNat - 'A'.toNat)
  else if c.isLower then some (c.toNat - 'a'.toNat + 26)
  else if c.isDigit then some (c.toNat - '0'.toNat + 52)
  else if c == '+' then some 62
  else if c == '/' then some 63
  else none

/-- The whole bytes in the sextets of one group. -/
def bytesOf : List Nat → List UInt8
  | [a, b] => [.ofNat (a * 4 + b / 16)]
  | [a, b, c] => [.ofNat (a * 4 + b / 16), .ofNat (b % 16 * 16 + c / 4)]
  | [a, b, c, d] =>
      [.ofNat (a * 4 + b / 16), .ofNat (b % 16 * 16 + c / 4), .ofNat (c % 4 * 64 + d)]
  | _ => []

/-- The bytes from the middle of a group on, of which some sextets are read, and some of the signs
that fill it up.  When it is full of these the text ends, whatever follows. -/
def decodeFrom (group : List Nat) (fill : Nat) : List Char → Option (List UInt8)
  | [] => if group.isEmpty then some [] else none
  | c :: rest =>
      if c == '=' then
        if group.length < 2 then decodeFrom group fill rest
        else if 4 ≤ group.length + fill + 1 then some (bytesOf group)
        else decodeFrom group (fill + 1) rest
      else
        match sextet? c with
        | none => decodeFrom group fill rest
        | some s =>
            if group.length < 3 then decodeFrom (group ++ [s]) 0 rest
            else (decodeFrom [] 0 rest).map (bytesOf (group ++ [s]) ++ ·)

/-- The bytes of a text, if it is in ASCII and its last group is full. -/
def decode? (text : String) : Option (List UInt8) :=
  if text.toList.all (·.toNat < 0x80) then decodeFrom [] 0 text.toList else none

/-- Bytes in quotes, as a message shows them. -/
def quoted (bytes : List UInt8) : String :=
  let cs := bytes.map fun b => Char.ofNat b.toNat
  let quote := Text.quoteFor cs
  let shown := cs.map fun c =>
    if c.toNat < 0x80 then Text.escape quote c else "\\x" ++ Text.digitsIn 16 2 c.toNat
  "b" ++ quote.toString ++ String.join shown ++ quote.toString

end ClassChart.Binary
