import ClassChart.Text.Blank
import ClassChart.Text.Split

/-!
Text that grows at its end, with indentation for nested blocks.  The indentation
of a line is written together with its first character, so empty lines stay
empty.
-/
namespace ClassChart

/-- The text written so far, the current nesting, and what is known about its
end: whether a line is about to begin, and the last character written. -/
structure Writer where
  indent : String := "  "
  level : Nat := 0
  text : String := ""
  atLineStart : Bool := true
  lastChar : Char := '\n'
deriving Repr, DecidableEq, Inhabited

namespace Writer

def copies (n : Nat) (s : String) : String :=
  String.join (List.replicate n s)

/-- Write a piece of one line.  An empty piece changes nothing. -/
def put (w : Writer) (piece : String) : Writer :=
  match piece.toList.getLast? with
  | none => w
  | some last =>
      { w with
        text := w.text ++ (if w.atLineStart then copies w.level w.indent else "") ++ piece
        atLineStart := false
        lastChar := last }

def newline (w : Writer) : Writer :=
  { w with text := w.text ++ "\n", atLineStart := true, lastChar := '\n' }

/-- Write a text, which may have several lines. -/
def append (w : Writer) (s : String) : Writer :=
  match Text.lines s with
  | [] => w
  | first :: rest => rest.foldl (fun w line => w.newline.put line) (w.put first)

/-- Write one space, unless the line is empty or already ends in a blank. -/
def whitespace (w : Writer) : Writer :=
  if w.atLineStart || Text.isBlank w.lastChar then w else w.append " "

def deeper (w : Writer) : Writer :=
  { w with level := w.level + 1 }

def shallower (w : Writer) : Writer :=
  { w with level := w.level - 1 }

/-- Write a block one level deeper. -/
def indented (w : Writer) (block : Writer → Writer) : Writer :=
  (block w.deeper).shallower

end Writer

end ClassChart
