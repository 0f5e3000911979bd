import ClassChart.Diagram.Scene

/-!
Drawing step by step.  A session holds one canvas and the links placed so far;
links are known by the order in which they were placed.
-/
namespace ClassChart

/-- One canvas and the links that are drawn on it. -/
structure Session where
  canvas : Canvas := {}
  links : List Link := []
deriving Repr, DecidableEq, Inhabited

namespace Session

/-- A session in which nothing is drawn and nothing is placed yet. -/
def start (writer : Writer) : Session :=
  ⟨⟨[], writer⟩, []⟩

/-- A step of a session.  Links are named by their positions. -/
inductive Step where
  /-- Place one more link, which draws nothing. -/
  | place (relationship : Relationship)
  /-- Draw a link. -/
  | draw (index : Nat)
  /-- Give boxes to the ends of a link, without its line. -/
  | declare (index : Nat)
  /-- Add a note to a link, which draws nothing. -/
  | addNote (index : Nat) (note : String)
  /-- Count a name as one that has a box. -/
  | reserve (name : String)
deriving Repr, DecidableEq, Inhabited

/-- Change the canvas by way of a link.  Without such a link nothing happens. -/
def withLink (session : Session) (index : Nat) (f : Link → Canvas → Logged Canvas) :
    Logged Session :=
  match session.links[index]? with
  | none => return session
  | some link => do
      let canvas ← f link session.canvas
      return { session with canvas }

def step (scene : Scene) (session : Session) : Step → Logged Session
  | .place r => return { session with links := session.links ++ [.ofRelationship scene r] }
  | .draw i => session.withLink i (Canvas.draw scene)
  | .declare i => session.withLink i (Canvas.declareEnds scene)
  | .addNote i note => return { session with links := session.links.modify i (·.addNote note) }
  | .reserve name => do
      let canvas ← session.canvas.put scene (.reserve name)
      return { session with canvas }

def run (scene : Scene) (session : Session) (steps : List Step) : Logged Session :=
  steps.foldlM (step scene) session

end Session

end ClassChart
