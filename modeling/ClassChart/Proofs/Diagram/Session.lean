import ClassChart.Diagram.Session
import ClassChart.Proofs.Diagram.Strokes

/-!
What a drawing session keeps, whatever its steps are and in whatever order they
come: names are drawn once, lines join drawn names, and the links stay those that
their relationships determine.
-/
namespace ClassChart

/-- Noting something on a link leaves all but the relationship as it was. -/
theorem Link.addNote_ofRelationship (scene : Scene) (r : Relationship) (note : String) :
    (ofRelationship scene r).addNote note = ofRelationship scene (r.addNote note) := rfl

namespace Session

variable (scene : Scene)

/-- What a step draws. -/
def strokes (session : Session) : Step → List Stroke
  | .draw i => session.links[i]?.elim [] fun link => session.canvas.strokesFor scene link
  | .declare i => session.links[i]?.elim [] fun link => session.canvas.boxesFor scene link
  | .reserve name => [.reserve name]
  | .place _ => []
  | .addNote _ _ => []

/-- What a run of steps draws. -/
def history : Session → List Step → List Stroke
  | _, [] => []
  | session, step :: rest =>
      session.strokes scene step ++ history (session.step scene step).value rest

/-- Whether a step leaves the canvas alone. -/
def Step.isQuiet : Step → Bool
  | .place _ => true
  | .addNote _ _ => true
  | _ => false

@[simp]
theorem value_run_nil (session : Session) : (session.run scene []).value = session := rfl

@[simp]
theorem value_run_cons (session : Session) (step : Step) (rest : List Step) :
    (session.run scene (step :: rest)).value =
      ((session.step scene step).value.run scene rest).value := rfl

theorem canvas_withLink (session : Session) (index : Nat)
    (f : Link → Canvas → Logged Canvas) :
    (session.withLink index f).value.canvas =
      session.links[index]?.elim session.canvas fun link => (f link session.canvas).value := by
  rw [withLink]
  cases session.links[index]? <;> rfl

/-- One step of a session adds its strokes to the canvas. -/
theorem canvas_step (session : Session) (step : Step) :
    (session.step scene step).value.canvas =
      session.canvas.addAll scene (session.strokes scene step) := by
  cases step with
  | place r => rfl
  | addNote i note => rfl
  | reserve name => rfl
  | draw i =>
      rw [Session.step, canvas_withLink, strokes]
      cases session.links[i]? with
      | none => rfl
      | some link => exact Canvas.value_draw scene link session.canvas
  | declare i =>
      rw [Session.step, canvas_withLink, strokes]
      cases session.links[i]? with
      | none => rfl
      | some link => exact Canvas.value_declareEnds scene link session.canvas

/-- A session adds the strokes of all its steps, in order.  The induction is on the steps. -/
theorem canvas_run (session : Session) (steps : List Step) :
    (session.run scene steps).value.canvas =
      session.canvas.addAll scene (session.history scene steps) := by
  induction steps generalizing session with
  | nil => rfl
  | cons step rest ih =>
      rw [value_run_cons, ih, canvas_step, history, Canvas.addAll_append]

theorem orderly_strokes (session : Session) (step : Step) :
    session.canvas.Orderly scene (session.strokes scene step) := by
  cases step with
  | place r => trivial
  | addNote i note => trivial
  | reserve name => exact ⟨trivial, trivial⟩
  | draw i =>
      rw [strokes]
      cases session.links[i]? with
      | none => trivial
      | some link => exact Canvas.orderly_strokesFor scene link session.canvas
  | declare i =>
      rw [strokes]
      cases session.links[i]? with
      | none => trivial
      | some link => exact Canvas.orderly_boxesFor scene link session.canvas

theorem orderly_history (session : Session) (steps : List Step) :
    session.canvas.Orderly scene (session.history scene steps) := by
  induction steps generalizing session with
  | nil => trivial
  | cons step rest ih =>
      rw [history, Canvas.orderly_append, ← canvas_step]
      exact ⟨orderly_strokes scene session step, ih _⟩

/-- Every link is the one that its relationship, notes included, determines. -/
def Placed (session : Session) : Prop :=
  ∀ link ∈ session.links, link = .ofRelationship scene link.relationship

theorem links_withLink (session : Session) (index : Nat)
    (f : Link → Canvas → Logged Canvas) :
    (session.withLink index f).value.links = session.links := by
  rw [withLink]
  cases session.links[index]? <;> rfl

theorem placed_step {session : Session} (hplaced : session.Placed scene) (step : Step) :
    (session.step scene step).value.Placed scene := by
  intro link hlink
  cases step with
  | place r =>
      rcases List.mem_append.mp hlink with hold | hnew
      · exact hplaced link hold
      · rw [List.mem_singleton.mp hnew]
        rfl
  | addNote i note =>
      obtain ⟨j, hj, rfl⟩ := List.getElem_of_mem hlink
      simp only [Session.step, Logged.value_pure, List.length_modify] at hj
      simp only [Session.step, Logged.value_pure, List.getElem_modify]
      have hold := hplaced _ (List.getElem_mem hj)
      split
      · rw [hold, Link.addNote_ofRelationship]
        rfl
      · exact hold
  | reserve name => exact hplaced link hlink
  | draw i =>
      rw [Session.step, links_withLink] at hlink
      exact hplaced link hlink
  | declare i =>
      rw [Session.step, links_withLink] at hlink
      exact hplaced link hlink

theorem placed_run {session : Session} (hplaced : session.Placed scene) (steps : List Step) :
    (session.run scene steps).value.Placed scene := by
  induction steps generalizing session with
  | nil => exact hplaced
  | cons step rest ih => exact ih (placed_step scene hplaced step)

/-- Two lists of links in which the same positions hold equal edges. -/
def SameEdges (links links' : List Link) : Prop :=
  links'.length = links.length ∧
    ∀ (i j : Nat) (a b a' b' : Link), links[i]? = some a → links[j]? = some b →
      links'[i]? = some a' → links'[j]? = some b' → a'.sameEdge b' = a.sameEdge b

/-- A note changes of a link neither its ends nor its arrow. -/
theorem sameEdge_of_modify_addNote {links : List Link} {i j : Nat} {note : String}
    {a a' : Link} (ha : links[j]? = some a)
    (ha' : (links.modify i (·.addNote note))[j]? = some a') (b : Link) :
    a'.sameEdge b = a.sameEdge b ∧ b.sameEdge a' = b.sameEdge a := by
  rw [List.getElem?_modify, ha, Option.map_eq_map, Option.map_some] at ha'
  have heq := Option.some.inj ha'
  subst heq
  split
  · exact ⟨rfl, rfl⟩
  · exact ⟨rfl, rfl⟩

theorem sameEdges_addNote (session : Session) (i : Nat) (note : String) :
    SameEdges session.links (session.step scene (.addNote i note)).value.links := by
  refine ⟨List.length_modify _ _ _, ?_⟩
  intro j k a b a' b' ha hb ha' hb'
  calc a'.sameEdge b' = a'.sameEdge b := (sameEdge_of_modify_addNote hb hb' a').2
    _ = a.sameEdge b := (sameEdge_of_modify_addNote ha ha' b).1

/-- What holds of all that is drawn on a canvas, stroke by stroke. -/
structure WellDrawn (start : Canvas) (history : List Stroke) : Prop where
  /-- No name gets two boxes. -/
  once : (history.filterMap Stroke.declares?).Nodup
  /-- A name that counts as drawn gets no box. -/
  fresh : ∀ before stroke after, history = before ++ stroke :: after →
    ∀ name, stroke.declares? = some name → name ∉ (start.addAll scene before).declared
  /-- A line joins names that count as drawn, each of them because it got its box or
  was reserved before. -/
  joined : ∀ before r after, history = before ++ .line r :: after →
    ∀ name ∈ [r.left.name, r.right.name],
      name ∈ (start.addAll scene before).declared ∧
        ∃ stroke ∈ before, stroke.declares? = some name ∨ stroke = .reserve name
  /-- The box of a name is a stub exactly if the name is unknown. -/
  stubs : ∀ stroke ∈ history, ∀ name, stroke.declares? = some name →
    (stroke.isStub ↔ scene.catalog.find? name = none)

/-- An orderly list of strokes on a canvas without boxes is well drawn. -/
theorem wellDrawn_of_orderly {start : Canvas} (hempty : start.declared = [])
    {history : List Stroke} (horderly : start.Orderly scene history) :
    WellDrawn scene start history where
  once := (Canvas.Orderly.declares_nodup scene horderly).1
  fresh := by
    rintro before stroke after rfl name hname
    have hadmits := Canvas.Orderly.admits scene horderly
    cases stroke <;> simp_all [Stroke.declares?, Canvas.Admits]
  joined := by
    rintro before r after rfl name hname
    have hadmits := Canvas.Orderly.admits scene horderly
    have hdrawn : name ∈ (start.addAll scene before).declared := by
      simp only [List.mem_cons, List.not_mem_nil, or_false] at hname
      rcases hname with rfl | rfl
      · exact hadmits.1
      · exact hadmits.2
    refine ⟨hdrawn, ?_⟩
    rw [Canvas.mem_declared_addAll, hempty] at hdrawn
    rcases hdrawn with hnone | ⟨stroke, hstroke, hname⟩
    · contradiction
    · exact ⟨stroke, hstroke, Stroke.name?_eq_some_iff.mp hname⟩
  stubs := by
    intro stroke hstroke name hname
    obtain ⟨before, after, rfl⟩ := List.append_of_mem hstroke
    have hadmits := Canvas.Orderly.admits scene horderly
    cases stroke <;> simp_all [Stroke.declares?, Stroke.isStub, Canvas.Admits]

/-- Whatever steps a session takes: its canvas holds exactly its history, and that
is well drawn; names stay drawn; placing and noting change nothing on the canvas;
every link is the one of its relationship; and notes keep links equal or unequal. -/
theorem run_wellDrawn (writer : Writer) (steps : List Step) :
    let session := ((start writer).run scene steps).value
    let history := (start writer).history scene steps
    session.canvas = (start writer).canvas.addAll scene history ∧
      WellDrawn scene (start writer).canvas history ∧
      (∀ more, session.canvas.declared <+: (session.run scene more).value.canvas.declared) ∧
      (∀ step, step.isQuiet → (session.step scene step).value.canvas = session.canvas) ∧
      (∀ link ∈ session.links, link = .ofRelationship scene link.relationship) ∧
      ∀ i note, SameEdges session.links (session.step scene (.addNote i note)).value.links := by
  intro session history
  refine ⟨canvas_run scene _ steps, ?_, ?_, ?_, ?_, sameEdges_addNote scene session⟩
  · exact wellDrawn_of_orderly scene rfl (orderly_history scene _ steps)
  · intro more
    rw [canvas_run scene session more]
    exact Canvas.declared_isPrefix_addAll scene _ _
  · intro step hquiet
    cases step with
    | place r => rfl
    | addNote i note => rfl
    | draw i => contradiction
    | declare i => contradiction
    | reserve name => contradiction
  · have hempty : (start writer).Placed scene := by
      intro link hlink
      contradiction
    exact placed_run scene hempty steps

end Session

end ClassChart
