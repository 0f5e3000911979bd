import ClassChart.CommandLine.Options
import ClassChart.Diagram.Artifact
import ClassChart.Settings.Load
import ClassChart.Source.Directory
import ClassChart.Source.Documented

/-!
The command: read the sources of a directory and write the diagrams of their
types.
-/
namespace ClassChart

def Event.line (e : Event) : String :=
  s!"{e.origin} - {e.severity.word} - {e.message}"

namespace CommandLine

/-- How the command ends: its exit code and what it prints last. -/
structure Closing where
  exitCode : Nat
  lines : List String := []
deriving Repr, DecidableEq, Inhabited

/-- Draw the types of a directory. -/
def Options.draw (o : Options) (environment : Option String) : Procedure Closing := do
  let source := (Path.ofString o.sourceDirectory).text
  if !(← Procedure.isDirectory source) then
    Procedure.emit (.sourceMissing source)
    return { exitCode := 1 }
  let settings ← Settings.load o.settingsFile environment
  let files ← SourceFile.readAll source
  let catalog ← Procedure.ofLogged (Catalog.ofFiles files)
  Procedure.emit (.typesDiscovered catalog.size files.length)
  let diagram : Diagram := { catalog, settings }
  match ← (diagram.writeAll o.outputDirectory).outcome with
  | .ok written =>
      let count := written.length
      return { exitCode := 0, lines := [s!"Wrote {count} diagrams to {o.outputDirectory}"] }
  | .error (.artifactNotWritten path cause) =>
      Procedure.emit (.outputFailed (Fault.artifactNotWritten path cause).message)
      return { exitCode := 1 }
  | .error fault => Procedure.fail fault

def usage : List String :=
  ["usage: umlloom [-h] [-o OUTPUT_DIR] [--config CONFIG]",
    "               [--log-level \x7bDEBUG,INFO,WARNING,ERROR\x7d]",
    "               source_dir"]

def help : List String :=
  usage ++
    ["",
      "umlloom - PlantUML class diagrams from Java sources",
      "",
      "positional arguments:",
      "  source_dir            Root directory of the Java sources",
      "",
      "options:",
      "  -h, --help            show this help message and exit",
      "  -o OUTPUT_DIR, --output-dir OUTPUT_DIR",
      "                        Directory receiving the .puml files",
      "  --config CONFIG       Diagram configuration file (YAML)",
      "  --log-level \x7bDEBUG,INFO,WARNING,ERROR\x7d",
      "                        Logging level"]

/-- What is printed about wrong arguments. -/
def UsageError.report (e : UsageError) : List String :=
  usage ++ [s!"{commandName}: error: {e.message}"]

/-- What a run of the command shows: its exit code and what it prints. -/
structure Transcript where
  exitCode : Nat
  output : List String := []
  errors : List String := []
deriving Repr, DecidableEq, Inhabited

/-- The lines that a run prints: the events that are urgent enough, then the
closing ones. -/
def outputLines (least : Severity) (events : List Event) (closing : Closing) : List String :=
  let shown := events.filter fun e => least.rank ≤ e.severity.rank
  (shown.map Event.line ++ closing.lines).flatMap Text.lines

def run (arguments : List String) (environment : Option String) (fs : FileSystem) :
    Except Fault Transcript × FileSystem :=
  match Request.ofArguments arguments with
  | .error e => (.ok { exitCode := 2, errors := e.report }, fs)
  | .ok .help => (.ok { exitCode := 0, output := help }, fs)
  | .ok (.draw options) =>
      let outcome := (options.draw environment).run fs
      let transcript := outcome.result.map fun closing =>
        { exitCode := closing.exitCode
          output := outputLines options.leastSeverity outcome.events closing }
      (transcript, outcome.files)

end CommandLine

end ClassChart
