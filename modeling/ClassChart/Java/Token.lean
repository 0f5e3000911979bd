import ClassChart.Java.Letter

/-!
Tokens of a source text.  A token keeps the blanks before it, so the tokens of a
text determine it up to what follows the last one.
-/
namespace ClassChart.Java

/-- What a token is. -/
inductive TokenKind where
  | word
  | number
  | string
  | character
  | symbol
  | lineComment
  | blockComment
deriving Repr, DecidableEq, Inhabited

/-- A token with the blanks before it and the lines that it covers.  A word stands
on one line. -/
structure Token where
  kind : TokenKind
  gap : String
  text : String
  firstLine : Nat
  lastLine : Nat
  oneLine : kind = .word → '\n' ∉ text.toList
deriving Repr, DecidableEq

instance : Inhabited Token :=
  ⟨⟨.word, "", "", 0, 0, fun _ => by decide⟩⟩

def Token.isComment (t : Token) : Bool :=
  t.kind = .lineComment || t.kind = .blockComment

/-- Tokens with the blanks before each of them. -/
def Token.spread (ts : List Token) : String :=
  String.join (ts.map fun t => t.gap ++ t.text)

/-- The source text from the first of the tokens to the last. -/
def Token.sourceOf : List Token → String
  | [] => ""
  | first :: rest => first.text ++ spread rest

namespace Lexer

/-- The characters that may stand between tokens. -/
def isGap (c : Char) : Bool :=
  c == ' ' || c == '\t' || c == '\n' || c == '\r' || c == '\x0b' || c == '\x0c'

/-- The rest of a block comment, and what follows it. -/
def closeComment : List Char → Option (List Char × List Char)
  | [] => none
  | '*' :: '/' :: rest => some (['*', '/'], rest)
  | c :: rest => (closeComment rest).map fun (text, after) => (c :: text, after)

/-- The rest of a string, and what follows it.  A backslash takes the next
character with it. -/
def closeString : List Char → Option (List Char × List Char)
  | [] => none
  | '\\' :: c :: rest => (closeString rest).map fun (text, after) => ('\\' :: c :: text, after)
  | '\x22' :: rest => some (['\x22'], rest)
  | c :: rest => (closeString rest).map fun (text, after) => (c :: text, after)

/-- The rest of a text block, and what follows it. -/
def closeTextBlock : List Char → Option (List Char × List Char)
  | [] => none
  | '\\' :: c :: rest => (closeTextBlock rest).map fun (text, after) => ('\\' :: c :: text, after)
  | '\x22' :: '\x22' :: '\x22' :: rest => some (['\x22', '\x22', '\x22'], rest)
  | c :: rest => (closeTextBlock rest).map fun (text, after) => (c :: text, after)

/-- The rest of a character literal, and what follows it.  It ends on its line. -/
def closeCharacter : List Char → Option (List Char × List Char)
  | [] => none
  | '\\' :: c :: rest => (closeCharacter rest).map fun (text, after) => ('\\' :: c :: text, after)
  | '\x27' :: rest => some (['\x27'], rest)
  | '\n' :: _ => none
  | c :: rest => (closeCharacter rest).map fun (text, after) => (c :: text, after)

/-- The rest of a number, and what follows it.  A sign belongs to it directly
after an exponent mark, which in a hexadecimal number is `p`. -/
def closeNumber (hex : Bool) (previous : Char) : List Char → List Char × List Char
  | [] => ([], [])
  | c :: rest =>
      let mark := previous.toLower == 'p' || (previous.toLower == 'e' && !hex)
      if c.isAlphanum || c == '_' || c == '.' || ((c == '+' || c == '-') && mark) then
        let (text, after) := closeNumber hex c rest
        (c :: text, after)
      else ([], c :: rest)

def symbols : List Char := "()\x7b\x7d[];,.@=<>!~?:&|+-*/^%".toList

/-- Whether a text goes on with a letter or digit. -/
def continuesWord (cs : List Char) : Bool :=
  match cs with
  | c :: _ => isIdentPart c
  | [] => false

/-- The word that begins with a letter, and what follows it.  One word has a hyphen. -/
def takeWord (c : Char) (rest : List Char) : List Char × List Char :=
  let text := c :: rest.takeWhile isIdentPart
  let after := rest.dropWhile isIdentPart
  let hyphened := "-sealed".toList
  if text = "non".toList && hyphened.isPrefixOf after &&
      !continuesWord (after.drop hyphened.length) then
    (text ++ hyphened, after.drop hyphened.length)
  else (text, after)

/-- The first token of a text that does not begin with a blank, and what follows
it.  Nothing if no token begins there or the token does not end. -/
def scan : List Char → Option (TokenKind × List Char × List Char)
  | [] => none
  | '/' :: '/' :: rest =>
      some (.lineComment, '/' :: '/' :: rest.takeWhile (· != '\n'), rest.dropWhile (· != '\n'))
  | '/' :: '*' :: rest =>
      (closeComment rest).map fun (text, after) => (.blockComment, '/' :: '*' :: text, after)
  | '\x22' :: '\x22' :: '\x22' :: rest =>
      (closeTextBlock rest).map fun (text, after) =>
        (.string, '\x22' :: '\x22' :: '\x22' :: text, after)
  | '\x22' :: rest =>
      (closeString rest).map fun (text, after) => (.string, '\x22' :: text, after)
  | '\x27' :: '\x27' :: _ => none
  | '\x27' :: rest =>
      (closeCharacter rest).map fun (text, after) => (.character, '\x27' :: text, after)
  | '.' :: '.' :: '.' :: rest => some (.symbol, ['.', '.', '.'], rest)
  | '-' :: '>' :: rest => some (.symbol, ['-', '>'], rest)
  | ':' :: ':' :: rest => some (.symbol, [':', ':'], rest)
  | c :: rest =>
      if c.isDigit || (c == '.' && (rest.head?.map Char.isDigit).getD false) then
        let hex := c == '0' && (rest.head?.map (·.toLower == 'x')).getD false
        let (text, after) := closeNumber hex c rest
        some (.number, c :: text, after)
      else if isIdentStart c then some (.word, takeWord c rest)
      else if c == '@' && "interface".toList.isPrefixOf rest &&
          !continuesWord (rest.drop "interface".length) then
        some (.symbol, "@interface".toList, rest.drop "interface".length)
      else if symbols.contains c then some (.symbol, [c], rest)
      else none

theorem newline_not_mem_takeWord {c : Char} (hc : isIdentStart c = true) (rest : List Char) :
    '\n' ∉ (takeWord c rest).1 := by
  have hfirst : '\n' ≠ c := by
    rintro rfl
    exact absurd hc (by decide)
  have hrest : '\n' ∉ rest.takeWhile isIdentPart := fun hmem =>
    absurd (List.all_eq_true.mp List.all_takeWhile '\n' hmem) (by decide)
  have htext : '\n' ∉ c :: rest.takeWhile isIdentPart :=
    List.not_mem_cons_of_ne_of_not_mem hfirst hrest
  rw [takeWord]
  split
  · rw [List.mem_append, not_or]
    exact ⟨htext, by decide⟩
  · exact htext

/-- A word that is scanned has no line end. -/
theorem newline_not_mem_of_scan {cs : List Char} {kind : TokenKind} {text after : List Char}
    (hscan : scan cs = some (kind, text, after)) (hkind : kind = .word) : '\n' ∉ text := by
  subst hkind
  unfold scan at hscan
  split at hscan
  case h_11 c rest _ _ _ _ _ _ _ _ _ =>
    split at hscan
    · dsimp only at hscan
      cases hscan
    · split at hscan
      · rename_i hstart
        have hword : takeWord c rest = (text, after) := (Prod.mk.inj (Option.some.inj hscan)).2
        have htext := newline_not_mem_takeWord hstart rest
        rwa [hword] at htext
      · split at hscan
        · cases hscan
        · split at hscan <;> cases hscan
  -- What begins with a mark of its own is no word.
  all_goals
    first
    | cases hscan
    | obtain ⟨_, -, heq⟩ := Option.map_eq_some_iff.mp hscan
      cases heq

/-- The tokens of a text that begins on the given line, at most `fuel` of them. -/
def tokensFrom : Nat → Nat → List Char → Option (List Token)
  | 0, _, _ => none
  | fuel + 1, line, cs =>
      let gap := cs.takeWhile isGap
      let cs := cs.dropWhile isGap
      if cs.isEmpty then some []
      else
        match hscan : scan cs with
        | none => none
        | some (kind, text, after) => do
            let firstLine := line + gap.count '\n'
            let lastLine := firstLine + text.count '\n'
            let rest ← tokensFrom fuel lastLine after
            return ⟨kind, String.ofList gap, String.ofList text, firstLine, lastLine, fun hkind =>
              String.toList_ofList ▸ newline_not_mem_of_scan hscan hkind⟩ :: rest

/-- The tokens of a source text.  A byte order mark may stand at its beginning. -/
def tokens (source : String) : Option (List Token) :=
  let cs :=
    match source.toList with
    | '\ufeff' :: rest => rest
    | cs => cs
  tokensFrom (cs.length + 1) 1 cs

end Lexer

end ClassChart.Java
