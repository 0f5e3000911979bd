import ClassChart.Java.Parser.File
import ClassChart.Java.Units
import ClassChart.Source.Language

/-!
Reading the text of a source file.
-/
namespace ClassChart

namespace SourceFile

/-- What is said of a file that is not well formed. -/
def malformed : String := "Tree-sitter reported parse errors in file"

/-- The units of a source text.  A text with a syntax error is not read in part: nothing is
recovered from around the error, so of such a file only the problem is known, and neither its
package, its imports nor the declarations that are well formed.  An editor or a parser that goes
on after an error would still list those. -/
def ofText (text filePath : String) : SourceFile :=
  let file : SourceFile :=
    { filePath, language := "java", lineCount := Text.lineCount text }
  match Java.CompilationUnit.ofSource? text with
  | some unit =>
      { file with
        package := unit.package
        imports := unit.imports
        units := unit.units filePath }
  | none => { file with problems := [⟨filePath, 0, malformed, "warning"⟩] }

/-- The units of a source text in a language, which is told from the name of the
file if it is not given. -/
def parse (text filePath : String) (language : Option String) : Except Fault SourceFile :=
  match language.or (languageOf? filePath) with
  | none => .error (.undetectedLanguage filePath)
  | some language => do
      let _ ← checkLanguage language
      return ofText text filePath

end SourceFile

end ClassChart
