import ClassChart.Decimal.Nearest

/-!
The tokens of a YAML document.  Besides the marks that are written, there are
tokens for the structure that indentation gives: where a block mapping or block
sequence begins and where one ends.

A text is known to be a mapping's key only when the colon after it is found, so
the places where a key may have begun are remembered, one for each level of
brackets, and the key's token is put in there.  Of the tags those of values that
cannot be told from their form are read; other tags, anchors, aliases, directives
and block scalars are not.
-/
namespace ClassChart.Yaml

/-- What a value is said to be. -/
inductive Tag where
  | binary
  | set
deriving Repr, DecidableEq, Inhabited

def Tag.words : List (String × Tag) :=
  [("!!binary", .binary), ("!<tag:yaml.org,2002:binary>", .binary), ("!!set", .set),
    ("!<tag:yaml.org,2002:set>", .set)]

/-- A token. -/
inductive Token where
  | blockMapping
  | blockSequence
  | blockEnd
  | entry
  | key
  | value
  | openSequence
  | closeSequence
  | openMapping
  | closeMapping
  | comma
  | scalar (text : String) (plain : Bool)
  | tag (t : Tag)
  | documentStart
  | documentEnd
deriving Repr, DecidableEq, Inhabited

def isBreak (c : Char) : Bool :=
  c == '\n' || c == '\r' || c == '\x85' || c == '\u2028' || c == '\u2029'

/-- Whether a character is a blank or ends a line. -/
def isGap (c : Char) : Bool :=
  c == ' ' || c == '\t' || isBreak c

/-- Whether a word ends here: at a blank, a line end or the end of the text. -/
def atGap : List Char → Bool
  | [] => true
  | c :: _ => isGap c

/-- Whether a character may stand in a document at all. -/
def isAllowed (c : Char) : Bool :=
  let n := c.toNat
  n == 9 || n == 10 || n == 13 || (0x20 ≤ n && n ≤ 0x7E) || n == 0x85 ||
    (0xA0 ≤ n && n ≤ 0xD7FF) || (0xE000 ≤ n && n ≤ 0xFFFD) || 0x10000 ≤ n

/-- A place where a key may have begun.  It is required to be one if the block
mapping that stands there has no other way to go on. -/
structure Candidate where
  position : Nat
  required : Bool
  index : Nat
  line : Nat
  column : Nat
deriving Repr, DecidableEq, Inhabited

/-- How far a document has been read. -/
structure Scan where
  rest : List Char
  index : Nat := 0
  line : Nat := 0
  column : Nat := 0
  /-- The column of the innermost block, and those of the blocks around it. -/
  indent : Int := -1
  outer : List Int := []
  /-- The candidates by level of brackets, innermost first. -/
  candidates : List (Option Candidate) := [none]
  keyAllowed : Bool := true
  tokens : Array Token := #[]
deriving Repr, Inhabited

namespace Scan

def inFlow (s : Scan) : Bool :=
  1 < s.candidates.length

def next (s : Scan) : Scan :=
  match s.rest with
  | [] => s
  | c :: rest =>
      if isBreak c then
        { s with rest, index := s.index + 1, line := s.line + 1, column := 0 }
      else
        let column := if c == '\ufeff' then s.column else s.column + 1
        { s with rest, index := s.index + 1, column }

def skip (s : Scan) : Nat → Scan
  | 0 => s
  | n + 1 => s.next.skip n

def push (s : Scan) (t : Token) : Scan :=
  { s with tokens := s.tokens.push t }

def insert (s : Scan) (position : Nat) (ts : List Token) : Scan :=
  { s with
    tokens := s.tokens.extract 0 position ++ ts.toArray ++
      s.tokens.extract position s.tokens.size }

/-- Whether a document mark stands here. -/
def atMark (c : Char) (s : Scan) : Bool :=
  s.rest.take 3 == [c, c, c] && atGap (s.rest.drop 3)

/-- Pass over blanks, comments and line ends to the next token.  Outside brackets
a key may begin on each new line. -/
def toToken : Nat → Scan → Scan
  | 0, s => s
  | fuel + 1, s =>
      match s.rest with
      | ' ' :: _ => toToken fuel s.next
      | '#' :: rest => toToken fuel (s.skip (1 + (rest.takeWhile (!isBreak ·)).length))
      | c :: _ =>
          if isBreak c then
            let s := s.next
            toToken fuel (if s.inFlow then s else { s with keyAllowed := true })
          else s
      | [] => s

/-- Give up the candidate of the current level. -/
def dropCandidate (s : Scan) : Option Scan :=
  match s.candidates with
  | some c :: others => if c.required then none else some { s with candidates := none :: others }
  | _ => some s

/-- Whether a candidate is out of reach: on another line, or too far back. -/
def isStale (s : Scan) (c : Candidate) : Bool :=
  c.line != s.line || 1024 < s.index - c.index

def dropStale (s : Scan) : Option Scan := do
  let candidates ← s.candidates.mapM fun
    | some c => if s.isStale c then (if c.required then none else some none) else some (some c)
    | none => some none
  return { s with candidates }

/-- Remember that a key may begin here. -/
def remember (s : Scan) : Option Scan :=
  if !s.keyAllowed then some s
  else do
    let s ← s.dropCandidate
    let c : Candidate :=
      { position := s.tokens.size
        required := !s.inFlow && s.indent == (s.column : Int)
        index := s.index
        line := s.line
        column := s.column }
    return { s with candidates := some c :: s.candidates.drop 1 }

/-- Close the blocks that stand further right than a column. -/
def closeBlocks (column : Int) : List Int → Scan → Scan
  | [], s => s
  | around :: more, s =>
      if s.indent ≤ column then s
      else closeBlocks column more { s.push .blockEnd with indent := around, outer := more }

/-- Close the blocks that end before a column.  Brackets hold them open. -/
def unwind (s : Scan) (column : Int) : Scan :=
  if s.inFlow then s else closeBlocks column s.outer s

/-- Open a block at a column, if it is further right than the innermost one. -/
def openBlock (s : Scan) (column : Nat) : Option Scan :=
  if s.indent < (column : Int) then
    some { s with indent := column, outer := s.indent :: s.outer }
  else none

def mark (s : Scan) (t : Token) : Scan :=
  (s.push t).next

def openBracket (s : Scan) (t : Token) : Option Scan := do
  let s ← s.remember
  return { s with candidates := none :: s.candidates, keyAllowed := true }.mark t

def closeBracket (s : Scan) (t : Token) : Option Scan := do
  let s ← s.dropCandidate
  if !s.inFlow then none
  return { s with candidates := s.candidates.drop 1, keyAllowed := false }.mark t

def separator (s : Scan) : Option Scan := do
  let s ← s.dropCandidate
  return { s with keyAllowed := true }.mark .comma

/-- A mark that may open a block: a dash or a question mark. -/
def blockMark (s : Scan) (opening t : Token) (keyAllowed : Bool) : Option Scan := do
  let s ←
    if s.inFlow then some s
    else if !s.keyAllowed then none
    else
      match s.openBlock s.column with
      | some s => some (s.push opening)
      | none => some s
  let s ← s.dropCandidate
  return { s with keyAllowed }.mark t

/-- A colon: the text before it is a key, if there is a candidate. -/
def colon (s : Scan) : Option Scan :=
  match s.candidates with
  | some c :: others =>
      let s := { s with candidates := none :: others, keyAllowed := false }
      let s :=
        if s.inFlow then s.insert c.position [.key]
        else
          match s.openBlock c.column with
          | some s => s.insert c.position [.blockMapping, .key]
          | none => s.insert c.position [.key]
      some (s.mark .value)
  | _ => s.blockMark .blockMapping .value (!s.inFlow)

def documentMark (s : Scan) (t : Token) : Option Scan := do
  let s ← (s.unwind (-1)).dropCandidate
  return ({ s with keyAllowed := false }.push t).skip 3

/-- The characters of a plain text up to a blank, a colon that ends a key or,
inside brackets, a bracket or comma. -/
def plainWord (inFlow : Bool) : List Char → List Char
  | [] => []
  | c :: rest =>
      let ends :=
        isGap c ||
        (c == ':' &&
          (atGap rest || (inFlow && rest.head?.any [',', '[', ']', '\x7b', '\x7d'].contains))) ||
        (inFlow && [',', '?', '[', ']', '\x7b', '\x7d'].contains c)
      if ends then [] else c :: plainWord inFlow rest

/-- The text that a line end stands for. -/
def breakText (c : Char) : Char :=
  if c == '\u2028' || c == '\u2029' then c else '\n'

/-- What a line end and the empty lines after it stand for: one line end is a
space, and of several the first is dropped. -/
def folded (first : Char) (more : List Char) : List Char :=
  if breakText first != '\n' then breakText first :: more
  else if more.isEmpty then [' ']
  else more

/-- Pass over the empty lines and the indentation after a line end.  The answer is
empty if a document mark follows a line end. -/
def plainBreaks : Nat → List Char → Scan → Option (List Char) × Scan
  | 0, acc, s => (some acc.reverse, s)
  | fuel + 1, acc, s =>
      match s.rest with
      | ' ' :: _ => plainBreaks fuel acc s.next
      | c :: _ =>
          if isBreak c then
            let s := s.next
            if s.atMark '-' || s.atMark '.' then (none, s)
            else plainBreaks fuel (breakText c :: acc) s
          else (some acc.reverse, s)
      | [] => (some acc.reverse, s)

/-- Pass over the gap after a word of a plain text. -/
def plainGap (s : Scan) : List Char × Scan :=
  let spaces := s.rest.takeWhile (· == ' ')
  let s := s.skip spaces.length
  match s.rest with
  | c :: _ =>
      if isBreak c then
        let s := { s.next with keyAllowed := true }
        if s.atMark '-' || s.atMark '.' then ([], s)
        else
          match plainBreaks (s.rest.length + 1) [] s with
          | (some more, s) => (folded c more, s)
          | (none, s) => ([], s)
      else (spaces, s)
  | [] => (spaces, s)

/-- The words of a plain text with the gaps between them.  It goes on over line
ends as long as it stands further right than its block. -/
def plainText : Nat → List Char → List Char → Scan → List Char × Scan
  | 0, acc, _, s => (acc, s)
  | fuel + 1, acc, gap, s =>
      let word := plainWord s.inFlow s.rest
      if s.rest.head? == some '#' || word.isEmpty then (acc, s)
      else
        let acc := acc ++ gap ++ word
        let (gap, s) := { s.skip word.length with keyAllowed := false }.plainGap
        if gap.isEmpty || s.rest.head? == some '#' ||
            (!s.inFlow && (s.column : Int) < s.indent + 1) then (acc, s)
        else plainText fuel acc gap s

def plainScalar (s : Scan) : Option Scan := do
  let s ← s.remember
  let (text, s) := plainText (s.rest.length + 1) [] [] { s with keyAllowed := false }
  return s.push (.scalar (String.ofList text) true)

/-- The characters that stand for others after a backslash. -/
def escapes : List (Char × Char) :=
  [('0', '\x00'), ('a', '\x07'), ('b', '\x08'), ('t', '\t'), ('\t', '\t'), ('n', '\n'),
    ('v', '\x0b'), ('f', '\x0c'), ('r', '\r'), ('e', '\x1b'), (' ', ' '), ('\x22', '\x22'),
    ('\\', '\\'), ('/', '/'), ('N', '\x85'), ('_', '\xa0'), ('L', '\u2028'), ('P', '\u2029')]

/-- How many hexadecimal digits follow a letter after a backslash. -/
def codeLength? (c : Char) : Option Nat :=
  [('x', 2), ('u', 4), ('U', 8)].lookup c

def isHexDigit (c : Char) : Bool :=
  c.isDigit || ('a' ≤ c && c ≤ 'f') || ('A' ≤ c && c ≤ 'F')

/-- Pass over the line ends and blanks inside quotes.  A document mark may not
stand there. -/
def quotedBreaks : Nat → List Char → Scan → Option (List Char × Scan)
  | 0, _, _ => none
  | fuel + 1, acc, s =>
      if s.atMark '-' || s.atMark '.' then none
      else
        let blanks := s.rest.takeWhile fun c => c == ' ' || c == '\t'
        let s := s.skip blanks.length
        match s.rest with
        | c :: _ =>
            if isBreak c then quotedBreaks fuel (breakText c :: acc) s.next
            else some (acc.reverse, s)
        | [] => some (acc.reverse, s)

/-- The text inside quotes, up to the closing one and past it. -/
def quotedText (quote : Char) : Nat → List Char → Scan → Option (List Char × Scan)
  | 0, _, _ => none
  | fuel + 1, acc, s =>
      match s.rest with
      | [] => none
      | c :: rest =>
          if c == quote then
            if quote == '\x27' && rest.head? == some quote then
              quotedText quote fuel (quote :: acc) (s.skip 2)
            else some (acc.reverse, s.next)
          else if quote == '\x22' && c == '\\' then
            match rest with
            | [] => none
            | e :: digits =>
                if let some char := escapes.lookup e then
                  quotedText quote fuel (char :: acc) (s.skip 2)
                else if let some n := codeLength? e then
                  let code := digits.take n
                  let value := Decimal.ofDigits 16 code
                  if code.length == n && code.all isHexDigit && value.isValidChar then
                    quotedText quote fuel (Char.ofNat value :: acc) (s.skip (2 + n))
                  else none
                else if isBreak e then do
                  let (breaks, s) ← quotedBreaks (rest.length + 1) [] (s.skip 2)
                  quotedText quote fuel (breaks.reverse ++ acc) s
                else none
          else if isGap c then
            let blanks := s.rest.takeWhile fun c => c == ' ' || c == '\t'
            let s := s.skip blanks.length
            match s.rest with
            | [] => none
            | b :: more =>
                if isBreak b then do
                  let (breaks, s) ← quotedBreaks (more.length + 1) [] s.next
                  quotedText quote fuel ((folded b breaks).reverse ++ acc) s
                else quotedText quote fuel (blanks.reverse ++ acc) s
          else quotedText quote fuel (c :: acc) s.next

def quotedScalar (s : Scan) (quote : Char) : Option Scan := do
  let s ← s.remember
  let (text, s) ← quotedText quote (s.rest.length + 1) [] { s with keyAllowed := false }.next
  return s.push (.scalar (String.ofList text) false)

/-- A tag.  It stands before the value, and a key may begin with it. -/
def tag (s : Scan) : Option Scan := do
  let s ← s.remember
  let word := s.rest.takeWhile fun c => !(c == ' ' || isBreak c)
  let t ← Tag.words.lookup (String.ofList word)
  return ({ s with keyAllowed := false }.push (.tag t)).skip word.length

/-- Whether a plain text may begin with the character here. -/
def beginsPlain (s : Scan) : Bool :=
  match s.rest with
  | [] => false
  | c :: rest =>
      !(isGap c || "-?:,[]\x7b\x7d#&*!|>'\"%@`".toList.contains c) ||
        (!atGap rest && (c == '-' || (!s.inFlow && (c == '?' || c == ':'))))

/-- Read one token, with what indentation says before it. -/
def token (s : Scan) : Option Scan := do
  let s ← s.dropStale
  let s := s.unwind s.column
  match s.rest with
  | [] => none
  | c :: rest =>
      if s.column == 0 && s.atMark '-' then s.documentMark .documentStart
      else if s.column == 0 && s.atMark '.' then s.documentMark .documentEnd
      else if c == '[' then s.openBracket .openSequence
      else if c == '\x7b' then s.openBracket .openMapping
      else if c == ']' then s.closeBracket .closeSequence
      else if c == '\x7d' then s.closeBracket .closeMapping
      else if c == ',' then s.separator
      else if c == '-' && atGap rest then s.blockMark .blockSequence .entry true
      else if c == '?' && (s.inFlow || atGap rest) then
        s.blockMark .blockMapping .key (!s.inFlow)
      else if c == ':' && (s.inFlow || atGap rest) then s.colon
      else if c == '!' then s.tag
      else if c == '\x27' || c == '\x22' then s.quotedScalar c
      else if s.beginsPlain then s.plainScalar
      else none

/-- Read tokens to the end of the text, where all blocks close. -/
def tokensFrom : Nat → Scan → Option (Array Token)
  | 0, _ => none
  | fuel + 1, s =>
      let s := s.toToken (s.rest.length + 1)
      if s.rest.isEmpty then do
        let s ← s.dropStale
        let s ← (s.unwind (-1)).dropCandidate
        if s.inFlow then none else some s.tokens
      else do tokensFrom fuel (← s.token)

end Scan

/-- The tokens of a document, if it can be cut into them. -/
def tokens? (text : String) : Option (List Token) :=
  let cs := text.toList
  let cs := if cs.head? == some '\ufeff' then cs.drop 1 else cs
  if cs.all isAllowed then
    (Scan.tokensFrom (cs.length + 1) { rest := cs }).map Array.toList
  else none

end ClassChart.Yaml
