import ClassChart.Fault
import ClassChart.Text.Split

/-!
Which files are sources, by their extension, and which directories are not
searched for them.
-/
namespace ClassChart

/-- The extension of a file name: what begins at its last dot, unless only dots
stand before that. -/
def extensionOf (path : String) : String :=
  let name := Text.afterLast '/' path
  let stem := Text.beforeLast '.' name
  if stem.toList.any (· != '.') then "." ++ Text.afterLast '.' name else ""

def supportedLanguages : List String := ["java"]

def languageOf? (path : String) : Option String :=
  if (extensionOf path).toLower = ".java" then some "java" else none

/-- A language that is read. -/
def checkLanguage (language : String) : Except Fault String :=
  if supportedLanguages.contains language then .ok language
  else .error (.unsupportedLanguage language supportedLanguages)

def isSourceFile (path : String) : Bool :=
  (languageOf? path).isSome

/-- The names of directories that hold no sources. -/
def skippedDirectories : List String :=
  ["__pycache__", ".git", "node_modules", "target", "build", "out", "bin", ".gradle", ".idea",
    ".mvn"]

def isSkippedDirectory (name : String) : Bool :=
  skippedDirectories.contains name || Text.beginsWith "." name

end ClassChart
