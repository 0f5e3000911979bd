import ClassChart.Fault
import ClassChart.Model.Parameters
import ClassChart.Text.Split

/-!
The settings of a diagram, and how they are read from configuration data.
-/
namespace ClassChart

/-- What is drawn, and how names and types are shown. -/
structure Settings where
  /-- Supertypes that are never drawn. -/
  excludedReferences : List String := ["java.lang.Object", "java.lang.Enum"]
  /-- Show the abstract methods of a related type in its box. -/
  showAbstractMethods : Bool := true
  /-- Never drop the package from a type's name. -/
  qualifiedNames : Bool := false
  /-- Draw the relationships that documentation tags state. -/
  relationTags : Bool := true
  paramNames : NamePlacement := .beforeType
  paramTypes : TypeDisplay := .simple
  returnTypes : TypeDisplay := .simple
  showPrivate : Bool := false
deriving Repr, DecidableEq, Inhabited

def NamePlacement.word : NamePlacement → String
  | .beforeType => "before_type"
  | .afterType => "after_type"
  | .hidden => "none"

/-- The placements in the order in which messages list them. -/
def NamePlacement.all : List NamePlacement := [.beforeType, .afterType, .hidden]

def TypeDisplay.word : TypeDisplay → String
  | .qualified => "qualified"
  | .simple => "simple"
  | .hidden => "none"

/-- The displays in the order in which messages list them. -/
def TypeDisplay.all : List TypeDisplay := [.qualified, .simple, .hidden]

namespace Settings

/-- A section of the configuration.  Whatever counts as false is an empty one. -/
def sectionOf (data : List (Value × Value)) (name : String) :
    Except Fault (List (Value × Value)) :=
  match Value.lookup data name with
  | none => .ok []
  | some value =>
      if !value.truthy then .ok []
      else
        match value with
        | .mapping entries => .ok entries
        | _ => .error (.sectionNotMapping name)

/-- A switch: any value counts as true or false. -/
def switch (entries : List (Value × Value)) (key : String) (default : Bool) : Bool :=
  match Value.lookup entries key with
  | none => default
  | some value => value.truthy

/-- One of several named choices, in any letter case.  Null takes the default. -/
def choice {α : Type} (all : List α) (word : α → String)
    (entries : List (Value × Value)) (key : String) (default : α) : Except Fault α :=
  match Value.lookup entries key with
  | none => .ok default
  | some value =>
      if value.isNull then .ok default
      else
        match all.find? (word · = value.display.toLower) with
        | some chosen => .ok chosen
        | none => .error (.badChoice key value (all.map word))

/-- The names of the supertypes that are never drawn. -/
def excluded (entries : List (Value × Value)) : Except Fault (List String) :=
  match Value.lookup entries "excluded_references" with
  | none => .ok ({} : Settings).excludedReferences
  | some .null => .ok []
  | some (.list items) => .ok (items.map Value.display)
  | some _ => .error .excludedNotList

/-- The settings that configuration data give.  Unknown keys are ignored. -/
def ofData (data : List (Value × Value)) : Except Fault Settings := do
  let defaults : Settings := {}
  let diagrams ← sectionOf data "diagrams"
  let methods ← sectionOf data "methods"
  let excludedReferences ← excluded diagrams
  let paramNames ←
    choice NamePlacement.all NamePlacement.word methods "param_names" defaults.paramNames
  let paramTypes ←
    choice TypeDisplay.all TypeDisplay.word methods "param_types" defaults.paramTypes
  let returnTypes ←
    choice TypeDisplay.all TypeDisplay.word methods "return_types" defaults.returnTypes
  return {
    excludedReferences
    showAbstractMethods :=
      switch diagrams "include_abstract_superclass_methods" defaults.showAbstractMethods
    qualifiedNames := switch diagrams "always_use_qualified_names" defaults.qualifiedNames
    relationTags := switch diagrams "legacy_tags" defaults.relationTags
    paramNames
    paramTypes
    returnTypes
    showPrivate := switch methods "include_private" defaults.showPrivate }

/-- The settings on one line, for the journal. -/
def describe (s : Settings) : String :=
  let flag (b : Bool) := (Value.bool b).quoted
  let placement :=
    match s.paramNames with
    | .beforeType => "<ParamNames.BEFORE_TYPE: 'before_type'>"
    | .afterType => "<ParamNames.AFTER_TYPE: 'after_type'>"
    | .hidden => "<ParamNames.NONE: 'none'>"
  let display : TypeDisplay → String
    | .qualified => "<TypeDisplay.QUALIFIED: 'qualified'>"
    | .simple => "<TypeDisplay.SIMPLE: 'simple'>"
    | .hidden => "<TypeDisplay.NONE: 'none'>"
  let excludedNames := (Value.list (s.excludedReferences.map .text)).quoted
  "UmlConfig(" ++
    s!"excluded_references={excludedNames}, " ++
    s!"include_abstract_superclass_methods={flag s.showAbstractMethods}, " ++
    s!"always_use_qualified_names={flag s.qualifiedNames}, " ++
    s!"legacy_tags={flag s.relationTags}, " ++
    s!"param_names={placement}, " ++
    s!"param_types={display s.paramTypes}, " ++
    s!"return_types={display s.returnTypes}, " ++
    s!"include_private_members={flag s.showPrivate})"

end Settings

end ClassChart
