import ClassChart.Diagram.MemberBlock
import ClassChart.Diagram.Relationship
import ClassChart.Model.Catalog

/-!
Drawing relationships.  A scene is what a diagram is about; a canvas is what has
been drawn of it: the text, and the names of the types that already have a box.
A link is a relationship in a scene.  Drawing it first gives a box to each end
that has none, then writes the line of the relationship; each of these is one
stroke.
-/
namespace ClassChart

/-- What a diagram is about: one subject among the documented types. -/
structure Scene where
  catalog : Catalog
  settings : Settings
  subject : NamedType
deriving Repr, DecidableEq, Inhabited

namespace Scene

/-- A scene needs a subject. -/
def make (catalog : Catalog) (settings : Settings) : Option NamedType → Except Fault Scene
  | none => .error .sceneWithoutSubject
  | some subject => .ok ⟨catalog, settings, subject⟩

/-- Whether a name that begins with the subject's package and a dot belongs to
that package.  Of an unknown type, what remains must be a single name. -/
def inPackage (scene : Scene) (name rest : String) : Bool :=
  match scene.catalog.find? name with
  | some type => type.package = scene.subject.package
  | none => !rest.toList.contains '.'

/-- The name under which a type is drawn: the names of the subject's package are
drawn without it. -/
def shorten (scene : Scene) (name : String) : String :=
  let lead := scene.subject.package ++ "."
  let rest := Text.dropFirst lead.length name
  if scene.settings.qualifiedNames || scene.subject.package.isEmpty then name
  else if !Text.beginsWith lead name then name
  else if scene.inPackage name rest then rest
  else name

end Scene

/-- A relationship in a scene, with the type that it documents besides the
subject and the methods drawn in that type's box. -/
structure Link where
  relationship : Relationship
  /-- The documented type, if it is not the subject. -/
  documented : Option NamedType
  methods : List Method
deriving Repr, DecidableEq, Inhabited

namespace Link

/-- The type at one end, unless it is the subject or unknown. -/
def typeAt (scene : Scene) (e : Endpoint) : Option NamedType :=
  if e.name = scene.subject.qualifiedName then none else scene.catalog.find? e.name

/-- The type that a relationship documents: the one on the right if it is known,
else the one on the left. -/
def documentedBy (scene : Scene) (r : Relationship) : Option NamedType :=
  (typeAt scene r.right).or (typeAt scene r.left)

/-- The abstract methods that a box shows. -/
def methodsOf (scene : Scene) (r : Relationship) (documented : Option NamedType) :
    List Method :=
  match documented with
  | some type =>
      if r.isLoop || !scene.settings.showAbstractMethods then []
      else type.methods.filter Method.isAbstract
  | none => []

/-- A relationship placed in a scene. -/
def ofRelationship (scene : Scene) (r : Relationship) : Link :=
  let documented := documentedBy scene r
  ⟨r, documented, methodsOf scene r documented⟩

/-- A link needs a scene and a relationship. -/
def make (scene : Option Scene) (r : Option Relationship) : Except Fault Link :=
  match scene, r with
  | none, _ => .error .linkWithoutScene
  | some _, none => .error .linkWithoutRelationship
  | some scene, some r => .ok (ofRelationship scene r)

/-- Whether two links draw the same edge. -/
def sameEdge (a b : Link) : Bool :=
  a.relationship.sameEdge b.relationship

def addNote (link : Link) (note : String) : Link :=
  { link with relationship := link.relationship.addNote note }

def describe (link : Link) : String :=
  s!"ReferenceRenderer({link.relationship.describe})"

end Link

/-- The methods that a link shows in the box of a type: those of the type that it
documents. -/
def Link.methodsIn (link : Link) (type : NamedType) : List Method :=
  if link.documented.map NamedType.qualifiedName = some type.qualifiedName then link.methods
  else []

/-- One thing that is drawn. -/
inductive Stroke where
  /-- Nothing is written, but the name counts as one that has a box. -/
  | reserve (name : String)
  /-- The box of an unknown type. -/
  | stub (name : String) (isInterface : Bool)
  /-- The box of a documented type, with the methods that it shows. -/
  | box (type : NamedType) (methods : List Method)
  /-- The line of a relationship. -/
  | line (relationship : Relationship)
deriving Repr, DecidableEq, Inhabited

/-- The box that a link gives to a name. -/
def Link.boxOf (scene : Scene) (link : Link) (name : String) : Stroke :=
  match scene.catalog.find? name with
  | none => .stub name link.relationship.impliesInterface
  | some type => .box type (link.methodsIn type)

namespace Stroke

/-- The name that has a box from this stroke on. -/
def name? : Stroke → Option String
  | .reserve name => some name
  | .stub name _ => some name
  | .box type _ => some type.qualifiedName
  | .line _ => none

/-- What the journal says about a stroke. -/
def events : Stroke → List Event
  | .stub name _ => [.stubDeclared name]
  | _ => []

def unknownMark : String := "<<(?,orchid)>>"

def writeStub (scene : Scene) (name : String) (isInterface : Bool) (w : Writer) : Writer :=
  let w := (w.append (if isInterface then "interface" else "class")).whitespace
  let w := (w.append (scene.shorten name)).whitespace
  (w.append unknownMark).newline

def writeBox (scene : Scene) (type : NamedType) (methods : List Method) (w : Writer) :
    Writer :=
  let w := (w.append type.keyword).whitespace
  let w := (w.append (scene.shorten type.qualifiedName)).append type.generics
  (MemberBlock.write [] methods scene.settings w).newline

/-- A cardinality in double quotes; an absent one is empty. -/
def cardinality (e : Endpoint) : String :=
  "\"" ++ e.cardinality.getD "" ++ "\""

/-- A note on the line of a relationship.  Its line ends are written as escapes. -/
def noteText (note : String) : String :=
  "\\n".intercalate (Text.lines note)

def writeLine (scene : Scene) (r : Relationship) (w : Writer) : Writer :=
  let w := (w.append (scene.shorten r.left.name)).whitespace
  let w := (w.append (cardinality r.left)).whitespace
  let w := (w.append r.arrow).whitespace
  let w := (w.append (cardinality r.right)).whitespace
  let w := w.append (scene.shorten r.right.name)
  let w :=
    if r.notes.isEmpty then w
    else w.append (": " ++ "\\n".intercalate (r.notes.map noteText))
  w.newline.newline

def write (scene : Scene) : Stroke → Writer → Writer
  | .reserve _, w => w
  | .stub name isInterface, w => writeStub scene name isInterface w
  | .box type methods, w => writeBox scene type methods w
  | .line r, w => writeLine scene r w

end Stroke

/-- What has been drawn: the text, and the names that have a box. -/
structure Canvas where
  declared : List String := []
  writer : Writer := {}
deriving Repr, DecidableEq, Inhabited

namespace Canvas

/-- Note that a name has a box. -/
def markDeclared (canvas : Canvas) (name : String) : Canvas :=
  if canvas.declared.contains name then canvas
  else { canvas with declared := canvas.declared ++ [name] }

/-- The canvas with one more stroke. -/
def add (scene : Scene) (canvas : Canvas) (stroke : Stroke) : Canvas :=
  { declared := (stroke.name?.elim canvas canvas.markDeclared).declared
    writer := stroke.write scene canvas.writer }

/-- Add a stroke and report it. -/
def put (scene : Scene) (canvas : Canvas) (stroke : Stroke) : Logged Canvas :=
  ⟨canvas.add scene stroke, stroke.events⟩

/-- Give a box to a name that has none. -/
def declareName (scene : Scene) (link : Link) (canvas : Canvas) (name : String) :
    Logged Canvas :=
  if canvas.declared.contains name then return canvas
  else canvas.put scene (link.boxOf scene name)

/-- Give a box to each end of a link that has none. -/
def declareEnds (scene : Scene) (link : Link) (canvas : Canvas) : Logged Canvas := do
  let canvas ← canvas.declareName scene link link.relationship.left.name
  canvas.declareName scene link link.relationship.right.name

def draw (scene : Scene) (link : Link) (canvas : Canvas) : Logged Canvas := do
  let canvas ← canvas.declareEnds scene link
  canvas.put scene (.line link.relationship)

def drawAll (scene : Scene) (links : List Link) (canvas : Canvas) : Logged Canvas :=
  links.foldlM (fun canvas link => canvas.draw scene link) canvas

end Canvas

end ClassChart
