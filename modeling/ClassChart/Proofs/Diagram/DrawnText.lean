import ClassChart.Proofs.Diagram.Candidates
import ClassChart.Proofs.Diagram.DrawingOrder
import ClassChart.Proofs.Page

/-!
The text of a diagram: the declaration of its subject, then the text of each stroke
that its relationships draw.  Nothing of this is indented but members, so the line of
a relationship is the same in every diagram.
-/
namespace ClassChart

open Writer (page spaced lastOf append_page whitespace_page newline_page spaced_append spaced_eq)

namespace Arrow

theorem lacks_text {c : Char} (hc : Text.isBlank c = true ∨ c = '"') (arrow : Arrow) :
    Text.Lacks c arrow.text := by
  have hall : arrow.text.toList.all (fun d => Text.isBlank d = false ∧ d ≠ '"') = true := by
    cases arrow <;> decide
  exact Text.lacks_blank_or_quote
    (fun d hd => of_decide_eq_true (List.all_eq_true.mp hall d hd)) hc

theorem isBlank_lastOf_text (arrow : Arrow) : Text.isBlank (lastOf arrow.text) = false := by
  cases arrow <;> decide

end Arrow

namespace Relations

/-- All relationships of a type have arrows that are found in sources. -/
theorem exists_arrow {rs : Relations} {type : NamedType} {found : List Relationship}
    (hfound : (rs.ofType type).result = .ok found) {r : Relationship} (hr : r ∈ found) :
    ∃ arrow : Arrow, r.arrow = arrow.text := by
  obtain ⟨-, rfl⟩ := (result_ofType_eq_ok_iff rs type).mp hfound
  rcases mem_candidates_cases ((keepFirst_sublist _ _).subset hr) with
    ⟨arrow, name, rfl, -⟩ | ⟨tag, text, hstated⟩
  · exact ⟨arrow, rfl⟩
  · exact ⟨tag.arrow, (tag.of_stated_eq_some _ _ hstated).1⟩

end Relations

namespace Scene

variable (scene : Scene)

theorem lacks_shorten {c : Char} {name : String} (hname : Text.Lacks c name) :
    Text.Lacks c (scene.shorten name) := by
  rw [shorten]
  split
  · exact hname
  · split
    · exact hname
    · split
      · exact hname.dropFirst _
      · exact hname

end Scene

/-- Only from type parameters come the letters that are not written around them. -/
theorem NamedType.lacks_generics {c : Char} (hopen : Text.Lacks c "<") (hcomma : Text.Lacks c ", ")
    (hclose : Text.Lacks c ">") (type : NamedType) :
    Text.Lacks c type.generics ↔ ∀ p ∈ type.typeParameters, Text.Lacks c p := by
  rw [generics]
  split
  · rename_i hnone
    rw [List.isEmpty_iff.mp hnone]
    exact iff_of_true List.not_mem_nil fun p hp => absurd hp List.not_mem_nil
  · rw [Text.lacks_append, Text.lacks_append, Text.lacks_intercalate hcomma,
      and_iff_left hclose, and_iff_right hopen]

namespace Stroke

variable (scene : Scene)

theorem ended_text (w : Writer) (stroke : Stroke) :
    Text.Ended (stroke.text scene w) := by
  cases stroke with
  | reserve name => exact .inl rfl
  | stub name isInterface => exact .inr ⟨_, rfl⟩
  | box type methods => exact .inr ⟨_, rfl⟩
  | line r => exact .inr ⟨_, rfl⟩

/-- The line of a relationship. -/
def lineText (r : Relationship) : String :=
  spaced (scene.shorten r.left.name) ++ cardinality r.left ++ " " ++ r.arrow ++ " " ++
    cardinality r.right ++ " " ++ scene.shorten r.right.name ++ notesText r

theorem spaced_append_cardinality (s : String) (e : Endpoint) :
    spaced (s ++ cardinality e) = s ++ cardinality e ++ " " := by
  have hcard : cardinality e ≠ "" := by simp [cardinality]
  have hlast : lastOf (cardinality e) = '"' := Writer.lastOf_append (by decide)
  rw [spaced_append s hcard, spaced_eq (by rw [hlast]; decide), String.append_assoc]

theorem text_line {r : Relationship} {arrow : Arrow} (harrow : r.arrow = arrow.text) :
    text scene (page "") (.line r) = lineText scene r ++ "\n" ++ "\n" := by
  have hnotes (s : String) :
      (if r.notes.isEmpty then page s
        else page (s ++ (": " ++ "\\n".intercalate (r.notes.map noteText)))) =
        page (s ++ notesText r) := by
    rw [notesText]
    split
    · rw [String.append_empty]
    · rfl
  have hmargin : (page "").margin = page "" := rfl
  have hspaced (s : String) : spaced (s ++ r.arrow) = s ++ r.arrow ++ " " := by
    rw [harrow, spaced_append s arrow.text_ne_empty, spaced_eq arrow.isBlank_lastOf_text,
      String.append_assoc]
  rw [text, write, writeLine, hmargin]
  simp only [append_page, whitespace_page, String.empty_append, spaced_append_cardinality, hspaced,
    hnotes, newline_page]
  rfl

end Stroke

namespace Canvas

theorem writer_markDeclared (canvas : Canvas) (name : String) :
    (canvas.markDeclared name).writer = canvas.writer := by
  rw [markDeclared]
  split <;> rfl

variable (scene : Scene)

theorem atMargin_addAll {canvas : Canvas} (hstart : canvas.writer.AtMargin)
    (strokes : List Stroke) : (canvas.addAll scene strokes).writer.AtMargin := by
  induction strokes generalizing canvas with
  | nil => exact hstart
  | cons stroke rest ih =>
      exact @ih (canvas.add scene stroke) (stroke.atMargin_write scene hstart)

theorem margin_addAll (canvas : Canvas) (strokes : List Stroke) :
    (canvas.addAll scene strokes).writer.margin = canvas.writer.margin := by
  induction strokes generalizing canvas with
  | nil => rfl
  | cons stroke rest ih =>
      rw [addAll_cons, ih]
      exact (stroke.appends_write scene).margin canvas.writer

end Canvas

namespace Diagram

/-- A diagram opens with its first line and the box of its subject. -/
theorem writer_openWith (scene : Scene) :
    (openWith scene).writer =
      (Stroke.writeDeclaration scene scene.subject scene.subject.fields scene.subject.methods
        (page "@startuml\n")).newline := by
  have hfirst : (({} : Writer).append "@startuml").newline = page "@startuml\n" := by
    rw [← Writer.page_empty, append_page, newline_page]
    rfl
  rw [openWith, Canvas.writer_markDeclared, hfirst]
  rfl

theorem atMargin_openWith (scene : Scene) : (openWith scene).writer.AtMargin := by
  rw [writer_openWith]
  exact Writer.atMargin_newline _

theorem margin_openWith (scene : Scene) : (openWith scene).writer.margin = page "" := by
  have hwrites : Writer.Writes (fun _ => True) (Stroke.writeDeclaration scene scene.subject
      scene.subject.fields scene.subject.methods) :=
    Stroke.writes_declaration scene (fun _ _ => trivial) trivial trivial
      (fun _ _ _ _ => trivial) (fun _ _ _ _ => trivial)
  have happends := Writer.Appends.comp hwrites.appends .newline
  rw [writer_openWith]
  exact happends.margin (page "@startuml\n")

theorem ended_openWith (scene : Scene) : Text.Ended (openWith scene).writer.text := by
  rw [writer_openWith]
  exact .inr ⟨_, rfl⟩

/-- A diagram is the declaration of its subject and the texts of the strokes that its
relationships draw. -/
theorem result_draw {d : Diagram} {subject : NamedType} {found : List Relationship}
    (hfound : (d.relations.ofType subject).result = .ok found) :
    let scene : Scene := ⟨d.catalog, d.settings, subject⟩
    (d.draw subject).result = .ok ((openWith scene).writer.text ++
      String.join ((scene.strokes (openWith scene) found).map (Stroke.text scene (page ""))) ++
        "@enduml\n") := by
  intro scene
  have hstart := atMargin_openWith scene
  have hmargin : (openWith scene).writer.margin = (page "").margin := margin_openWith scene
  have hclose := Writer.Appends.comp (.append "@enduml") .newline
  refine Attempt.result_bind_eq_ok_iff.mpr ⟨_, result_links hfound,
    Attempt.result_bind_eq_ok_iff.mpr ⟨_, rfl,
      Attempt.result_bind_eq_ok_iff.mpr ⟨(), rfl, congrArg Except.ok ?_⟩⟩⟩
  rw [Canvas.value_drawAll, (Canvas.atMargin_addAll scene hstart _).text_eq hclose,
    Canvas.margin_addAll, margin_openWith, append_page, newline_page,
    Canvas.text_addAll scene hstart, Stroke.text_eq_of_margin_eq scene hmargin]
  rfl

end Diagram

end ClassChart
