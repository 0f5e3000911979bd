import ClassChart.Model.NamedType
import ClassChart.Settings.Basic
import ClassChart.Writer

/-!
The lines of fields and methods in a type's box, and their order: overloads stand
together where the first of them was declared, ordered by their parameters.
-/
namespace ClassChart

/-- Whether a member of this visibility is drawn. -/
def Settings.shows (s : Settings) (v : Visibility) : Bool :=
  s.showPrivate || v != .owner

def Field.write (f : Field) (s : Settings) (w : Writer) : Writer :=
  let type := f.type.shown s.returnTypes
  let w := if f.isStatic then w.append "\x7bstatic\x7d " else w
  let w := (w.append f.visibility.symbol).append f.name
  let w := if type.isEmpty then w else (w.append ": ").append type
  w.newline

/-- The return type that a method's line shows.  Nothing is shown for `void`. -/
def Method.shownReturn (m : Method) (s : Settings) : Option String :=
  match m.returnType with
  | none => none
  | some type =>
      let shown := type.shown s.returnTypes
      if s.returnTypes = .hidden || shown.isEmpty || shown = "void" then none else some shown

def Method.write (m : Method) (s : Settings) (w : Writer) : Writer :=
  let w :=
    if m.isAbstract then w.append "\x7babstract\x7d "
    else if m.isStatic then w.append "\x7bstatic\x7d "
    else w
  let w := (w.append m.visibility.symbol).append m.name
  let w := w.append (m.parameters.render s.paramNames s.paramTypes)
  let w :=
    match m.shownReturn s with
    | some shown => (w.append ": ").append shown
    | none => w
  w.newline

namespace MemberBlock

/-- Whether two methods are overloads of one another.  Constructors are overloads
only of constructors. -/
def sameGroup (a b : Method) : Bool :=
  a.isConstructor = b.isConstructor && a.name = b.name

/-- Where the first overload of a method stands. -/
def groupIndex (methods : List Method) (m : Method) : Nat :=
  methods.findIdx (sameGroup m)

/-- Whether a method may stand before another: by group, then by parameters. -/
def inOrder (methods : List Method) (a b : Method) : Bool :=
  ((compare (groupIndex methods a) (groupIndex methods b)).then
    (a.parameters.order b.parameters)).isLE

/-- The methods in the order in which a box lists them. -/
def orderMethods (methods : List Method) : List Method :=
  methods.mergeSort (inOrder methods)

/-- Write the block of the members that are drawn, or nothing if none is. -/
def write (fields : List Field) (methods : List Method) (s : Settings) (w : Writer) : Writer :=
  let fields := fields.filter (s.shows ·.visibility)
  let methods := (orderMethods methods).filter (s.shows ·.visibility)
  if fields.isEmpty && methods.isEmpty then w
  else
    let w := (w.whitespace.append "\x7b").newline
    let w := w.indented fun w =>
      methods.foldl (fun w m => m.write s w) (fields.foldl (fun w f => f.write s w) w)
    w.append "\x7d"

end MemberBlock

end ClassChart
