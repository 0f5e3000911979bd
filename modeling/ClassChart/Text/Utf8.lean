/-!
Reading bytes as UTF-8.  Bytes that are no part of a character are found in
stretches: a stretch is as long as it could still have begun a character.
-/
namespace ClassChart.Text

/-- A character of which some bytes are still to come: the bits so far, how many
bytes are missing, and the bounds of the next one. -/
structure PartialChar where
  bits : Nat
  missing : Nat
  low : Nat := 0x80
  high : Nat := 0xBF
deriving Repr, DecidableEq, Inhabited

/-- What a byte is on its own. -/
inductive LeadByte where
  | whole (c : Char)
  | first (p : PartialChar)
  | stray
deriving Repr, DecidableEq, Inhabited

/-- What a byte is where a character is to begin.  The bounds of the second byte
rule out overlong forms, surrogates and values above the last character. -/
def LeadByte.of (b : Nat) : LeadByte :=
  if b < 0x80 then .whole (Char.ofNat b)
  else if b < 0xC2 then .stray
  else if b < 0xE0 then .first ⟨b - 0xC0, 1, 0x80, 0xBF⟩
  else if b = 0xE0 then .first ⟨0, 2, 0xA0, 0xBF⟩
  else if b = 0xED then .first ⟨0xD, 2, 0x80, 0x9F⟩
  else if b < 0xF0 then .first ⟨b - 0xE0, 2, 0x80, 0xBF⟩
  else if b = 0xF0 then .first ⟨0, 3, 0x90, 0xBF⟩
  else if b < 0xF4 then .first ⟨b - 0xF0, 3, 0x80, 0xBF⟩
  else if b = 0xF4 then .first ⟨4, 3, 0x80, 0x8F⟩
  else .stray

/-- The characters of bytes; `none` stands for a stretch that is no character. -/
def charsOf : Option PartialChar → List UInt8 → List (Option Char)
  | none, [] => []
  | some _, [] => [none]
  | state, byte :: rest =>
      let b := byte.toNat
      let fresh : List (Option Char) :=
        match LeadByte.of b with
        | .whole c => some c :: charsOf none rest
        | .first p => charsOf (some p) rest
        | .stray => none :: charsOf none rest
      match state with
      | none => fresh
      | some p =>
          if b < p.low || p.high < b then none :: fresh
          else
            let bits := p.bits * 64 + (b - 0x80)
            if p.missing = 1 then some (Char.ofNat bits) :: charsOf none rest
            else charsOf (some { bits, missing := p.missing - 1 }) rest

/-- The text of bytes that are all UTF-8. -/
def ofUtf8? (bytes : ByteArray) : Option String :=
  ((charsOf none bytes.toList).mapM id).map String.ofList

/-- The text of bytes, with a replacement character for every stretch that is no
character. -/
def ofUtf8 (bytes : ByteArray) : String :=
  String.ofList ((charsOf none bytes.toList).map fun c => c.getD '\ufffd')

example : charsOf none [0x61, 0xC3, 0xA4, 0xE2, 0x82, 0x41] =
    [some 'a', some 'ä', none, some 'A'] := by decide +kernel

example : charsOf none [0xED, 0xA0, 0x80, 0xF0, 0x9F] = [none, none, none, none] := by
  decide +kernel

end ClassChart.Text
