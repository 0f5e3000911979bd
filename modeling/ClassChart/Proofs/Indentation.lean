import ClassChart.Proofs.LineEnd
import ClassChart.Proofs.Rows

/-!
The indentation of what is written.  Without indentation the same steps write the same lines;
with it, each line that is not empty has before it the indentation of the nesting at which its
first character was written.
-/
namespace ClassChart.Writer

/-- A character with the nesting at which it was written. -/
structure Mark where
  char : Char
  level : Nat
deriving Repr, DecidableEq, Inhabited

namespace Mark

def text (marks : List Mark) : String :=
  String.ofList (marks.map Mark.char)

/-- The lines on which marks stand, without the line ends. -/
def rows (marks : List Mark) : List (List Mark) :=
  marks.splitOnP (·.char == '\n')

/-- A line with the indentation of its first character.  An empty line has none. -/
def shown (indent : String) : List Mark → String
  | [] => ""
  | first :: rest => copies first.level indent ++ text (first :: rest)

/-- Whether a line is about to begin after marks. -/
def startsLine (marks : List Mark) : Bool :=
  marks.foldl (fun _ m => m.char == '\n') true

/-- What a mark adds to a text: itself, after the indentation if it begins a line. -/
def addition (indent : String) (start : Bool) (m : Mark) : String :=
  (if start && m.char != '\n' then copies m.level indent else "") ++ String.singleton m.char

/-- The text of marks with indentation where lines begin. -/
def layOut (indent : String) (start : Bool) : List Mark → String
  | [] => ""
  | m :: rest => m.addition indent start ++ layOut indent (m.char == '\n') rest

theorem text_append (marks more : List Mark) : text (marks ++ more) = text marks ++ text more := by
  simp [text]

theorem text_cons (m : Mark) (marks : List Mark) :
    text (m :: marks) = String.singleton m.char ++ text marks :=
  text_append [m] marks

theorem startsLine_concat (marks : List Mark) (m : Mark) :
    startsLine (marks ++ [m]) = (m.char == '\n') := by
  rw [startsLine, List.foldl_append]
  rfl

/-- One more mark adds its text at the end and changes nothing before it. -/
theorem layOut_concat (indent : String) (marks : List Mark) (m : Mark) :
    layOut indent true (marks ++ [m]) =
      layOut indent true marks ++ m.addition indent (startsLine marks) := by
  unfold startsLine
  generalize true = start
  induction marks generalizing start with
  | nil => simp [layOut]
  | cons first rest ih =>
      simp only [List.cons_append, layOut, ih, List.foldl_cons, String.append_assoc]

theorem copies_empty (n : Nat) : copies n "" = "" :=
  String.toList_inj.mp (by simp [copies, String.toList_join])

theorem layOut_empty (start : Bool) (marks : List Mark) : layOut "" start marks = text marks := by
  induction marks generalizing start with
  | nil => rfl
  | cons m rest ih =>
      rw [layOut, addition, copies_empty, ite_self, String.empty_append, ih, text_cons]

theorem shown_empty (row : List Mark) : shown "" row = text row := by
  cases row with
  | nil => rfl
  | cons first rest => rw [shown, copies_empty, String.empty_append]

/-- The first line only goes on if no line is about to begin. -/
theorem lines_layOut_of_rows {indent : String} (hindent : Text.Lacks '\n' indent) (start : Bool)
    {marks row : List Mark} {rest : List (List Mark)} (hrows : rows marks = row :: rest) :
    Text.lines (layOut indent start marks) =
      (if start then shown indent row else text row) :: rest.map (shown indent) := by
  -- Past its first mark a line is not indented any more, so both values of `start` are needed.
  induction marks generalizing start row rest with
  | nil =>
      obtain ⟨rfl, rfl⟩ := List.cons.inj hrows
      cases start <;> rfl
  | cons m more ih =>
      obtain ⟨next, later, hmore⟩ := List.exists_cons_of_ne_nil
        (List.splitOnP_ne_nil (fun m : Mark => m.char == '\n') more)
      rw [rows, List.splitOnP_cons_eq_if_modifyHead, hmore] at hrows
      by_cases hm : m.char = '\n'
      · rw [if_pos (by simpa using hm)] at hrows
        obtain ⟨rfl, rfl⟩ := List.cons.inj hrows
        have hadd : m.addition indent start = "" ++ "\n" := by simp [addition, hm]
        have hnext : (m.char == '\n') = true := by simpa using hm
        rw [layOut, hadd, hnext, Text.lines_append, ih true hmore]
        cases start <;> rfl
      · rw [if_neg (by simpa using hm)] at hrows
        obtain ⟨rfl, rfl⟩ := List.cons.inj hrows
        have hadd : Text.Lacks '\n' (m.addition indent start) := by
          rw [addition, Text.lacks_append]
          refine ⟨?_, by simpa [Text.Lacks] using Ne.symm hm⟩
          split
          · exact lacks_copies hindent m.level
          · exact List.not_mem_nil
        have hnext : (m.char == '\n') = false := by simpa using hm
        have hstart : (start && m.char != '\n') = start := by simp [hm]
        rw [layOut, hnext, Text.lines_append_of_lacks hadd (ih false hmore), addition, hstart,
          if_neg Bool.false_ne_true, String.append_assoc, ← text_cons]
        cases start with
        | false =>
            rw [if_neg Bool.false_ne_true, String.empty_append]
            rfl
        | true => rfl

/-- The lines of a laid out page are its rows, each with its indentation. -/
theorem lines_layOut {indent : String} (hindent : Text.Lacks '\n' indent) (marks : List Mark) :
    Text.lines (layOut indent true marks) = (rows marks).map (shown indent) := by
  obtain ⟨row, rest, hrows⟩ := List.exists_cons_of_ne_nil
    (List.splitOnP_ne_nil (fun m : Mark => m.char == '\n') marks)
  rw [lines_layOut_of_rows hindent true hrows, rows, hrows]
  rfl

end Mark

/-- A character is added with what indents it, and is all that is remembered. -/
theorem push_eq (w : Writer) (c : Char) :
    w.push c =
      { w with
        text := w.text ++ Mark.addition w.indent w.atLineStart ⟨c, w.level⟩
        atLineStart := c == '\n'
        lastChar := c } := by
  by_cases hc : c = '\n'
  · subst hc
    simp [push, newline, Mark.addition]
  · have hstart : (w.atLineStart && c != '\n') = w.atLineStart := by simp [hc]
    rw [push_eq_of_ne hc, Mark.addition, hstart, String.append_assoc]
    simp [hc]

/-- Two writers after the same steps, the second without indentation, and the marks that the
steps have made. -/
structure Shows (indent : String) (w plain : Writer) (marks : List Mark) : Prop where
  indented : w.indent = indent
  unindented : plain.indent = ""
  level : w.level = plain.level
  lastChar : w.lastChar = plain.lastChar
  atLineStart : w.atLineStart = Mark.startsLine marks
  plainAtLineStart : plain.atLineStart = Mark.startsLine marks
  text : w.text = Mark.layOut indent true marks
  plainText : plain.text = Mark.text marks

/-- What a step adds to the text, at the nesting at which it is made. -/
def added (w : Writer) (step : Writer → Writer) : List Mark :=
  ((step w).text.toList.drop w.text.length).map (⟨·, w.level⟩)

namespace Shows

theorem blank (indent : String) : Shows indent { indent } { indent := "" } [] := by
  constructor <;> rfl

variable {indent : String} {w plain : Writer} {marks : List Mark} (h : Shows indent w plain marks)

include h

theorem push (c : Char) :
    Shows indent (w.push c) (plain.push c) (marks ++ [⟨c, plain.level⟩]) := by
  rw [push_eq, push_eq]
  refine ⟨h.indented, h.unindented, h.level, rfl, ?_, ?_, ?_, ?_⟩
  · rw [Mark.startsLine_concat]
  · rw [Mark.startsLine_concat]
  · rw [Mark.layOut_concat, h.text, h.indented, h.atLineStart, h.level]
  · rw [Mark.text_append, h.plainText, h.unindented, Mark.addition, Mark.copies_empty, ite_self,
      String.empty_append]
    rfl

theorem foldl_push (cs : List Char) :
    Shows indent (cs.foldl Writer.push w) (cs.foldl Writer.push plain)
      (marks ++ cs.map (⟨·, plain.level⟩)) := by
  induction cs generalizing w plain marks with
  | nil => simpa using h
  | cons c rest ih =>
      have hlevel : (plain.push c).level = plain.level := by rw [push_eq]
      simpa [hlevel] using ih (h.push c)

/-- If a step makes marks at one nesting, they are what it adds. -/
theorem of_chars (step : Writer → Writer) (cs : List Char)
    (hstep : Shows indent (step w) (step plain) (marks ++ cs.map (⟨·, plain.level⟩))) :
    Shows indent (step w) (step plain) (marks ++ plain.added step) := by
  have hchars : (cs.map (Mark.mk · plain.level)).map Mark.char = cs := by
    simp [Function.comp_def]
  have hadded : plain.added step = cs.map (⟨·, plain.level⟩) := by
    rw [added, hstep.plainText, h.plainText, Mark.text_append, String.toList_append,
      List.drop_left' String.length_toList, Mark.text, String.toList_ofList, hchars]
  rwa [hadded]

theorem append (s : String) :
    Shows indent (w.append s) (plain.append s) (marks ++ plain.added (·.append s)) := by
  refine h.of_chars (·.append s) s.toList ?_
  rw [append_eq_foldl_push, append_eq_foldl_push]
  exact h.foldl_push s.toList

theorem newline : Shows indent w.newline plain.newline (marks ++ plain.added Writer.newline) :=
  h.of_chars Writer.newline ['\n'] (h.foldl_push ['\n'])

/-- Both writers see the same last character. -/
theorem whitespace :
    Shows indent w.whitespace plain.whitespace (marks ++ plain.added Writer.whitespace) := by
  have hends : (w.atLineStart || Text.isBlank w.lastChar) =
      (plain.atLineStart || Text.isBlank plain.lastChar) := by
    rw [h.atLineStart, h.plainAtLineStart, h.lastChar]
  by_cases hend : (plain.atLineStart || Text.isBlank plain.lastChar) = true
  · refine h.of_chars Writer.whitespace [] ?_
    rw [whitespace_eq, whitespace_eq, hends, if_pos hend, if_pos hend]
    exact h.foldl_push []
  · refine h.of_chars Writer.whitespace [' '] ?_
    rw [whitespace_eq, whitespace_eq, hends, if_neg hend, if_neg hend]
    exact h.foldl_push [' ']

theorem deeper : Shows indent w.deeper plain.deeper marks :=
  { h with level := congrArg (· + 1) h.level }

theorem shallower : Shows indent w.shallower plain.shallower marks :=
  { h with level := congrArg (· - 1) h.level }

end Shows

/-- Steps of writing, one after another.  A block is written one level deeper. -/
inductive Script where
  | done
  | append (s : String) (rest : Script)
  | whitespace (rest : Script)
  | newline (rest : Script)
  | indented (block rest : Script)
deriving Repr, DecidableEq, Inhabited

namespace Script

def run : Script → Writer → Writer
  | done, w => w
  | append s rest, w => rest.run (w.append s)
  | whitespace rest, w => rest.run w.whitespace
  | newline rest, w => rest.run w.newline
  | indented block rest, w => rest.run (w.indented block.run)

/-- What the steps add to the text, each character with its nesting. -/
def marks : Script → Writer → List Mark
  | done, _ => []
  | append s rest, w => w.added (·.append s) ++ rest.marks (w.append s)
  | whitespace rest, w => w.added Writer.whitespace ++ rest.marks w.whitespace
  | newline rest, w => w.added Writer.newline ++ rest.marks w.newline
  | indented block rest, w => block.marks w.deeper ++ rest.marks (w.indented block.run)

theorem appends_run (script : Script) : Appends script.run := by
  induction script with
  | done => exact .id
  | append s rest ih => exact .comp (g := rest.run) (.append s) ih
  | whitespace rest ih => exact .comp (g := rest.run) .whitespace ih
  | newline rest ih => exact .comp (g := rest.run) .newline ih
  | indented block rest ihblock ih => exact .comp (g := rest.run) (.indented ihblock) ih

/-- A writer that indents and one that does not stay in step over a whole script. -/
theorem shows_run {indent : String} (script : Script) {w plain : Writer} {before : List Mark}
    (h : Shows indent w plain before) :
    Shows indent (script.run w) (script.run plain) (before ++ script.marks plain) := by
  induction script generalizing w plain before with
  | done =>
      rw [marks, List.append_nil]
      exact h
  | append s rest ih =>
      rw [marks, ← List.append_assoc]
      exact ih (h.append s)
  | whitespace rest ih =>
      rw [marks, ← List.append_assoc]
      exact ih h.whitespace
  | newline rest ih =>
      rw [marks, ← List.append_assoc]
      exact ih h.newline
  | indented block rest ihblock ih =>
      rw [marks, ← List.append_assoc]
      exact ih (ihblock h.deeper).shallower

/-- The lines of a text are those that the same steps write without indentation, each with the
indentation of its first character if it is not empty.  A block ends at the nesting at which it
began. -/
theorem lines_run {indent : String} (hindent : Text.Lacks '\n' indent) (script : Script) :
    let rows := Mark.rows (script.marks { indent := "" })
    Text.lines (script.run { indent := "" }).text = rows.map Mark.text ∧
      Text.lines (script.run { indent }).text = rows.map (Mark.shown indent) ∧
      ∀ w : Writer, (w.indented script.run).level = w.level := by
  intro rows
  have hshows := script.shows_run (.blank indent)
  rw [List.nil_append] at hshows
  refine ⟨?_, ?_, fun w => ?_⟩
  · rw [hshows.plainText, ← Mark.layOut_empty true, Mark.lines_layOut (by simp [Text.Lacks])]
    exact List.map_congr_left fun row _ => Mark.shown_empty row
  · rw [hshows.text, Mark.lines_layOut hindent]
  · have hmargin := script.appends_run.indented.margin w
    exact (congrArg Writer.level hmargin :)

/-- A block begins in the middle of one line and ends in the middle of another. -/
theorem lines_run_within_lines :
    let script : Script :=
      .append "class A" <| .whitespace <| .append "\x7b" <|
        .indented (.append "x;\n\ny;" (.whitespace .done)) <|
        .whitespace <| .append "z;\n" <| .newline <| .append "\x7d" .done
    Text.Lacks '\n' "  " ∧
      Text.lines (script.run { indent := "" }).text = ["class A \x7bx;", "", "y; z;", "", "\x7d"] ∧
      Text.lines (script.run { indent := "  " }).text =
        ["class A \x7bx;", "", "  y; z;", "", "\x7d"] := by
  intro script
  have hindent : Text.Lacks '\n' "  " := by decide
  obtain ⟨hplain, hshown, -⟩ := lines_run hindent script
  refine ⟨hindent, ?_, ?_⟩
  · rw [hplain]
    decide +kernel
  · rw [hshown]
    decide +kernel

end Script

end ClassChart.Writer
