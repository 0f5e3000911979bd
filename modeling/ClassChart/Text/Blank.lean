/-!
Blank characters and the operations that depend on them: cutting a text into
words, trimming its ends, and writing its words with single spaces between.

All of them are defined on lists of characters; the functions on `String` are
the same operations through `String.toList`.
-/
namespace ClassChart.Text

/-- The 29 characters that separate words: the ASCII controls from tab to
carriage return and from file separator to unit separator, the space, and the
Unicode spaces and line separators.  The zero-width space is not blank. -/
def isBlank (c : Char) : Bool :=
  let n := c.toNat
  (9 ≤ n && n ≤ 13) || (28 ≤ n && n ≤ 32) || n == 0x85 || n == 0xA0 ||
    n == 0x1680 || (0x2000 ≤ n && n ≤ 0x200A) || n == 0x2028 || n == 0x2029 ||
    n == 0x202F || n == 0x205F || n == 0x3000

/-- The maximal runs of characters that are not blank, from left to right. -/
def wordsOf : List Char → List (List Char)
  | [] => []
  | c :: rest =>
      if isBlank c then wordsOf rest
      else
        match rest with
        | [] => [[c]]
        | next :: _ =>
            if isBlank next then [c] :: wordsOf rest
            else
              match wordsOf rest with
              | [] => [[c]]
              | word :: more => (c :: word) :: more

/-- Drop the blank characters at the front. -/
def trimStartChars (cs : List Char) : List Char :=
  cs.dropWhile isBlank

/-- Drop the characters at the end that satisfy `p`. -/
def dropEndWhile (p : Char → Bool) (cs : List Char) : List Char :=
  (cs.reverse.dropWhile p).reverse

def trimChars (cs : List Char) : List Char :=
  dropEndWhile isBlank (trimStartChars cs)

def words (s : String) : List String :=
  (wordsOf s.toList).map String.ofList

/-- A text without the blank characters at its ends. -/
def trim (s : String) : String :=
  String.ofList (trimChars s.toList)

/-- A text without its trailing characters that satisfy `p`. -/
def trimEndWhile (p : Char → Bool) (s : String) : String :=
  String.ofList (dropEndWhile p s.toList)

/-- The words of a text with one space between neighbours. -/
def squeeze (s : String) : String :=
  " ".intercalate (words s)

example : words " a \t b\n" = ["a", "b"] := by decide +kernel

example : squeeze "  int   x\n" = "int x" := by decide +kernel

end ClassChart.Text
