import ClassChart.Fault

/-!
The journal: what an operation reports besides its result.  Each event has a
severity, the part of the program it comes from, and a wording.

`Logged` carries the events of a computation in order; `Attempt` is a computation
that may also fail, in which case the events up to the failure remain.
-/
namespace ClassChart

/-- How urgent an event is. -/
inductive Severity where
  | debug
  | info
  | warning
  | error
deriving Repr, DecidableEq, Inhabited

namespace Severity

def word : Severity → String
  | .debug => "DEBUG"
  | .info => "INFO"
  | .warning => "WARNING"
  | .error => "ERROR"

/-- All severities, least urgent first. -/
def all : List Severity := [.debug, .info, .warning, .error]

def ofWord? (word : String) : Option Severity :=
  all.find? (·.word = word)

def rank : Severity → Nat
  | .debug => 10
  | .info => 20
  | .warning => 30
  | .error => 40

end Severity

/-- Something worth reporting. -/
inductive Event where
  | noSuperclass (type : String)
  | superclassExcluded (superclass type : String)
  | interfaceUnnamed (type : String)
  | interfaceExcluded (interface type : String)
  | relationshipsFound (count : Nat) (type : String)
  | tagIgnored (tag type text : String)
  | tagApplied (tag type relationship : String)
  | stubDeclared (type : String)
  | diagramDrawn (type : String) (relationships : Nat)
  | duplicateType (type : String)
  | catalogBuilt (types files : Nat)
  | fileUnreadable (path : String) (cause : OsError)
  | fileProblem (path : String) (line : Nat) (problem : String)
  | directoryRead (files : Nat) (root : String)
  | settingsMissing (path : String)
  | settingsUnreadable (path : String)
  | settingsNotMapping (path : String)
  | settingsLoaded (path settings : String)
  | artifactWritten (path : String)
  | artifactsWritten (count : Nat) (directory : String)
  | sourceMissing (path : String)
  | typesDiscovered (types files : Nat)
  | outputFailed (problem : String)
deriving Repr, DecidableEq, Inhabited

namespace Event

def severity : Event → Severity
  | noSuperclass .. | superclassExcluded .. | interfaceExcluded .. | relationshipsFound ..
  | tagApplied .. | stubDeclared .. | diagramDrawn .. | settingsLoaded ..
  | artifactWritten .. => .debug
  | interfaceUnnamed .. | catalogBuilt .. | directoryRead .. | artifactsWritten ..
  | typesDiscovered .. => .info
  | tagIgnored .. | duplicateType .. | fileUnreadable .. | fileProblem ..
  | settingsMissing .. => .warning
  | settingsUnreadable .. | settingsNotMapping .. | sourceMissing .. | outputFailed .. => .error

/-- The part of the program that reports an event. -/
def origin : Event → String
  | noSuperclass .. | superclassExcluded .. | interfaceUnnamed .. | interfaceExcluded ..
  | relationshipsFound .. => "umlloom.core.uml.resolver"
  | tagIgnored .. | tagApplied .. => "umlloom.core.uml.legacy_tags"
  | stubDeclared .. => "umlloom.core.uml.renderer"
  | diagramDrawn .. => "umlloom.core.uml.diagram"
  | duplicateType .. => "umlloom.core.model.in_memory"
  | catalogBuilt .. => "umlloom.core.model.parsed"
  | fileUnreadable .. => "umlloom.core.ast_parser.base"
  | fileProblem .. | directoryRead .. => "umlloom.core.ast_parser"
  | settingsMissing .. | settingsUnreadable .. | settingsNotMapping ..
  | settingsLoaded .. => "umlloom.core.config.config_loader"
  | artifactWritten .. | artifactsWritten .. => "umlloom.core.diagrams.service"
  | sourceMissing .. | typesDiscovered .. | outputFailed .. => "umlloom.__main__"

def message : Event → String
  | noSuperclass type => s!"{type} has no superclass"
  | superclassExcluded superclass type => s!"Superclass {superclass} of {type} is excluded"
  | interfaceUnnamed type => s!"Skipping unnamed interface of {type}"
  | interfaceExcluded interface type => s!"Interface {interface} of {type} is excluded"
  | relationshipsFound count type => s!"Resolved {count} references for {type}"
  | tagIgnored tag type text =>
      s!"Ignoring @{tag} tag on {type}: expected 1 or 4 words, got {Text.quoted text}"
  | tagApplied tag type relationship => s!"Legacy @{tag} tag on {type} adds {relationship}"
  | stubDeclared type => s!"Declaring unresolved type {type} as a stub"
  | diagramDrawn type count => s!"Rendered diagram for {type} with {count} relationships"
  | duplicateType type => s!"Duplicate type {type}; keeping the first declaration"
  | catalogBuilt types files => s!"Built type model with {types} types from {files} files"
  | fileUnreadable path cause => s!"Could not read {path}: {cause.message}"
  | fileProblem path line problem => s!"{path}:{line}: {problem}"
  | directoryRead files root => s!"Parsed {files} source files under {root}"
  | settingsMissing path => s!"{path} not found, using default diagram configuration"
  | settingsUnreadable path => s!"Error loading {path}:"
  | settingsNotMapping path => s!"Error loading {path}: top level must be a mapping"
  | settingsLoaded path settings => s!"Loaded diagram configuration from {path}: {settings}"
  | artifactWritten path => s!"Wrote {path}"
  | artifactsWritten count directory => s!"Wrote {count} diagrams to {directory}"
  | sourceMissing path => s!"Source directory not found: {path}"
  | typesDiscovered types files => s!"Discovered {types} types in {files} files"
  | outputFailed problem => problem

end Event

/-- A result together with the events on the way to it. -/
structure Logged (α : Type) where
  value : α
  events : List Event := []

namespace Logged

instance : Monad Logged where
  pure a := ⟨a, []⟩
  bind x f := ⟨(f x.value).value, x.events ++ (f x.value).events⟩

def emit (event : Event) : Logged Unit :=
  ⟨(), [event]⟩

@[simp]
theorem value_pure {α : Type} (a : α) : (pure a : Logged α).value = a := rfl

@[simp]
theorem events_pure {α : Type} (a : α) : (pure a : Logged α).events = [] := rfl

@[simp]
theorem value_bind {α β : Type} (x : Logged α) (f : α → Logged β) :
    (x >>= f).value = (f x.value).value := rfl

@[simp]
theorem events_bind {α β : Type} (x : Logged α) (f : α → Logged β) :
    (x >>= f).events = x.events ++ (f x.value).events := rfl

@[simp]
theorem value_foldlM {α β : Type} (f : β → α → Logged β) (as : List α) (start : β) :
    (as.foldlM f start).value = as.foldl (fun b a => (f b a).value) start := by
  induction as generalizing start with
  | nil => rfl
  | cons a rest ih =>
      rw [List.foldlM_cons, value_bind, ih]
      rfl

end Logged

/-- A computation that reports events and may fail. -/
abbrev Attempt := ExceptT Fault Logged

namespace Attempt

def emit (event : Event) : Attempt Unit :=
  ExceptT.lift (Logged.emit event)

/-- A result that may have failed, with no events. -/
def ofExcept {α : Type} (r : Except Fault α) : Attempt α :=
  ExceptT.mk (pure r)

/-- The result of an attempt without its events. -/
def result {α : Type} (x : Attempt α) : Except Fault α :=
  x.run.value

end Attempt

end ClassChart
