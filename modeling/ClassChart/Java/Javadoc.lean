import ClassChart.Text.Blank
import ClassChart.Text.Split

/-!
Documentation comments: their text without the marks of the comment, and its
division into a description and block tags.
-/
namespace ClassChart.Java.Javadoc

/-- A line of a comment without the star at its beginning. -/
def lineText (line : String) : String :=
  let line := Text.trim line
  if Text.beginsWith "* " line then Text.dropFirst 2 line
  else if Text.beginsWith "*" line then Text.trim (Text.dropFirst 1 line)
  else line

/-- The text of a documentation comment; nothing if the comment is not one. -/
def content (comment : String) : Option String :=
  let comment := Text.trim comment
  if Text.beginsWith "/**" comment then
    let inner := Text.dropFirst 3 comment
    let inner := if Text.finishesWith "*/" inner then Text.dropLast 2 inner else inner
    some (Text.trim ("\n".intercalate ((Text.lines inner).map lineText)))
  else none

/-- A description and block tags with their texts. -/
structure Parts where
  description : Option String
  tags : List (String × String)
deriving Repr, DecidableEq, Inhabited

/-- Whether a line begins a tag: an at sign with something after it. -/
def isTagLine (line : String) : Bool :=
  let line := Text.trim line
  Text.beginsWith "@" line && 1 < line.length

/-- The tag that a line begins: its name, and the text after the first space. -/
def tagOf (line : String) : String × String :=
  let rest := Text.dropFirst 1 (Text.trim line)
  (Text.upTo ' ' rest, Text.trim (Text.beyond ' ' rest))

/-- Fold a line into the text of the last tag.  Empty lines and lines before the
first tag change nothing. -/
def extendLast (tags : List (String × String)) (line : String) : List (String × String) :=
  let line := Text.trim line
  match tags.getLast? with
  | some (name, text) =>
      if line.isEmpty then tags
      else tags.dropLast ++ [(name, Text.trim (text ++ " " ++ line))]
  | none => tags

/-- The tags after one more line. -/
def readLine (tags : List (String × String)) (line : String) : List (String × String) :=
  if isTagLine line then tags ++ [tagOf line] else extendLast tags line

/-- Divide the text of a documentation comment.  The description ends where the
first tag begins. -/
def parts : Option String → Parts
  | none => ⟨none, []⟩
  | some doc =>
      if doc.isEmpty then ⟨some doc, []⟩
      else
        let lines := Text.lines doc
        let description :=
          Text.trim ("\n".intercalate (lines.takeWhile fun line => !isTagLine line))
        ⟨if description.isEmpty then none else some description, lines.foldl readLine []⟩

end ClassChart.Java.Javadoc
