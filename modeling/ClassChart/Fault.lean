import ClassChart.Settings.Value
import ClassChart.Storage.OsError

/-!
The errors that end an operation, by cause, and their wording.
-/
namespace ClassChart

/-- The two ends of a relationship. -/
inductive End where
  | left
  | right
deriving Repr, DecidableEq, Inhabited

def End.word : End → String
  | .left => "from"
  | .right => "to"

/-- Why an operation failed. -/
inductive Fault where
  | endMissing (side : End)
  | endUnnamed (side : End)
  | arrowMissing
  | nothingToResolve
  | nothingToDraw
  | sceneWithoutSubject
  | linkWithoutScene
  | linkWithoutRelationship
  | unknownType (name : String)
  | unsupportedFile (path : String)
  | undetectedLanguage (path : String)
  | unsupportedLanguage (language : String) (supported : List String)
  | sectionNotMapping (section_ : String)
  | excludedNotList
  | badChoice (key : String) (value : Value) (allowed : List String)
  | impossibleDate (mistake : Calendar.Mistake)
  | notUtf8 (path : String)
  | artifactNotWritten (path : String) (cause : OsError)

def Fault.message : Fault → String
  | .endMissing side => s!"Reference '{side.word}' side is required."
  | .endUnnamed side => s!"Reference '{side.word}' side needs a qualified name."
  | .arrowMissing => "Reference notation is required."
  | .nothingToResolve => "Cannot resolve references without a type."
  | .nothingToDraw => "Cannot render a diagram without a type."
  | .sceneWithoutSubject => "A diagram context needs a subject type."
  | .linkWithoutScene => "A reference renderer needs a diagram context."
  | .linkWithoutRelationship => "A reference renderer needs a reference."
  | .unknownType name => s!"Unknown type: {name}"
  | .unsupportedFile path => s!"Unsupported source file: {path}"
  | .undetectedLanguage path => s!"Cannot detect language of {path}"
  | .unsupportedLanguage language supported =>
      s!"Unsupported language: {language}. " ++
        s!"Supported: {(Value.list (supported.map .text)).quoted}"
  | .sectionNotMapping name => s!"Config section '{name}' must be a mapping"
  | .excludedNotList => "diagrams.excluded_references must be a list of qualified names"
  | .badChoice key value allowed =>
      s!"Invalid value {value.quoted} for methods.{key}; expected one of: " ++
        ", ".intercalate allowed
  | .impossibleDate mistake => mistake.message
  | .notUtf8 path => s!"{path} is not UTF-8 text"
  | .artifactNotWritten path cause => s!"Failed to write diagram {path}: {cause.message}"

end ClassChart
