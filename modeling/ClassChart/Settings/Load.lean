import ClassChart.Settings.Basic
import ClassChart.Settings.Yaml.Document
import ClassChart.Storage.Procedure
import ClassChart.Text.Utf8

/-!
Loading settings from a file.  A file that is missing or cannot be read leaves the
defaults; one that can be read but has wrong values is an error.
-/
namespace ClassChart.Settings

/-- The name of the environment variable that names the settings file. -/
def fileVariable : String := "UMLLOOM_CONFIG"

/-- The name under which the built-in settings are reported. -/
def builtInFile : String := "config/umlloom.yaml"

/-- The settings file: the one asked for, else the one of the environment.  An
empty name is none. -/
def chosenFile (asked environment : Option String) : Option String :=
  (asked.filter (· ≠ "")).or (environment.filter (· ≠ ""))

/-- The settings of a document, with the defaults for one that is empty. -/
def ofDocument (file : String) (value : Value) : Attempt Settings := do
  match if value.truthy then value else .mapping [] with
  | .mapping entries =>
      let settings ← Attempt.ofExcept (ofData entries)
      Attempt.emit (.settingsLoaded file settings.describe)
      return settings
  | _ =>
      Attempt.emit (.settingsNotMapping file)
      return {}

def ofBytes (file : String) (bytes : ByteArray) : Attempt Settings := do
  match Text.ofUtf8? bytes with
  | none => throw (.notUtf8 file)
  | some text =>
      match Yaml.value (String.ofList (Text.unifyNewlines text.toList)) with
      | .ok value => ofDocument file value
      | .error (.impossible mistake) => throw (.impossibleDate mistake)
      | .error .malformed =>
          Attempt.emit (.settingsUnreadable file)
          return {}

def load (asked environment : Option String) : Procedure Settings :=
  match chosenFile asked environment with
  | none => Procedure.ofAttempt (ofDocument builtInFile .null)
  | some name => do
      let file := (Path.ofString name).text
      if !(← Procedure.hasEntry file) then
        Procedure.emit (.settingsMissing file)
        return {}
      .read file fun
        | .ok bytes => Procedure.ofAttempt (ofBytes file bytes)
        | .error _ => do
            Procedure.emit (.settingsUnreadable file)
            return {}

end ClassChart.Settings
