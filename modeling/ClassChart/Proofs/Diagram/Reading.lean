import ClassChart.Proofs.Diagram.DrawnText
import ClassChart.Proofs.Diagram.Lookup
import Mathlib.Tactic.MkIffOfInductiveProp

/-!
Reading relationships back from a diagram.  Only the lines of relationships have
quotes, as long as no name or type has any, so the lines with quotes are the
relationships in their order, and the quotes divide each line into its parts.
-/
namespace ClassChart

/-- The parts of the line of a relationship. -/
structure ShownLine where
  left : String
  leftCardinality : String
  arrow : String
  rightCardinality : String
  /-- The name on the right, with the notes after it. -/
  right : String
deriving Repr, DecidableEq

/-- The parts of a line with four quotes.  The spaces around the quotes belong to no part. -/
def ShownLine.read? (line : String) : Option ShownLine :=
  match Text.split '"' line with
  | [left, leftCardinality, arrow, rightCardinality, right] =>
      some ⟨Text.dropLast 1 left, leftCardinality, Text.dropLast 1 (Text.dropFirst 1 arrow),
        rightCardinality, Text.dropFirst 1 right⟩
  | _ => none

/-- What the line of a relationship shows. -/
def Relationship.shownIn (scene : Scene) (r : Relationship) : ShownLine :=
  ⟨scene.shorten r.left.name, r.left.cardinality.getD "", r.arrow, r.right.cardinality.getD "",
    scene.shorten r.right.name ++ Stroke.notesText r⟩

/-- An end whose name has no blanks and quotes, and whose cardinality stands on one line
and has no quotes. -/
@[mk_iff]
structure Endpoint.Legible (e : Endpoint) : Prop where
  name : ∀ c ∈ e.name.toList, Text.isBlank c = false ∧ c ≠ '"'
  cardinality : Text.Lacks '\n' (e.cardinality.getD "") ∧ Text.Lacks '"' (e.cardinality.getD "")

instance (e : Endpoint) : Decidable e.Legible :=
  -- By the letters of the name, not by all letters that there are.
  have : Decidable (∀ c ∈ e.name.toList, Text.isBlank c = false ∧ c ≠ '"') :=
    List.decidableBAll _ _
  decidable_of_iff' _ (Endpoint.legible_iff e)

/-- A relationship between legible ends, with no quotes in its notes. -/
@[mk_iff]
structure Relationship.Legible (r : Relationship) : Prop where
  left : r.left.Legible
  right : r.right.Legible
  notes : ∀ note ∈ r.notes, Text.Lacks '"' note

instance (r : Relationship) : Decidable r.Legible :=
  decidable_of_iff' _ (Relationship.legible_iff r)

namespace Text

/-- The lines of a text that have a quote. -/
def quotedLines (s : String) : List String :=
  (lines s).filter (·.toList.contains '"')

theorem quotedLines_of_lacks {s : String} (hs : Lacks '"' s) : quotedLines s = [] := by
  rw [quotedLines, List.filter_eq_nil_iff]
  intro line hline hquote
  exact (lacks_of_mem_split '\n' hline).2 '"' hs (List.contains_iff_mem.mp hquote)

theorem quotedLines_append_newline (s t : String) :
    quotedLines (s ++ "\n" ++ t) = quotedLines s ++ quotedLines t := by
  rw [quotedLines, lines_append, List.filter_append]
  rfl

theorem quotedLines_append {s : String} (hs : Ended s) (t : String) :
    quotedLines (s ++ t) = quotedLines s ++ quotedLines t := by
  rcases hs with rfl | ⟨u, rfl⟩
  · rw [String.empty_append, quotedLines_of_lacks (s := "") (by decide), List.nil_append]
  · have hlast : quotedLines (u ++ "\n") = quotedLines u := by
      have hsplit := quotedLines_append_newline u ""
      rwa [String.append_empty, quotedLines_of_lacks (s := "") (by decide), List.append_nil]
        at hsplit
    rw [quotedLines_append_newline, hlast]

/-- Each text that ends its line has its quoted lines to itself. -/
theorem quotedLines_join {texts : List String} (htexts : ∀ s ∈ texts, Ended s) (t : String) :
    quotedLines (String.join texts ++ t) = texts.flatMap quotedLines ++ quotedLines t := by
  induction texts with
  | nil => rw [String.join_nil, String.empty_append, List.flatMap_nil, List.nil_append]
  | cons s rest ih =>
      rw [List.forall_mem_cons] at htexts
      rw [String.join_cons, String.append_assoc, quotedLines_append htexts.1, ih htexts.2,
        List.flatMap_cons, List.append_assoc]

end Text

namespace Stroke

theorem lacks_notesText {c : Char} (hcolon : Text.Lacks c ": ") (hescape : Text.Lacks c "\\n")
    {r : Relationship} (hnotes : ∀ note ∈ r.notes, Text.Lacks c (noteText note)) :
    Text.Lacks c (notesText r) := by
  rw [notesText]
  split
  · exact List.not_mem_nil
  · rw [Text.lacks_append, Text.lacks_intercalate hescape, List.forall_mem_map]
    exact ⟨hcolon, hnotes⟩

/-- A note is written on one line, whatever its lines are. -/
theorem lacks_newline_noteText (note : String) : Text.Lacks '\n' (noteText note) := by
  rw [noteText, Text.lacks_intercalate (by decide)]
  exact fun line hline => (Text.lacks_of_mem_split '\n' hline).1

theorem lacks_quote_noteText {note : String} (hnote : Text.Lacks '"' note) :
    Text.Lacks '"' (noteText note) := by
  rw [noteText, Text.lacks_intercalate (by decide)]
  exact fun line hline => (Text.lacks_of_mem_split '\n' hline).2 '"' hnote

end Stroke

namespace Endpoint.Legible

variable {e : Endpoint} (h : e.Legible)

include h

theorem lacks_name {c : Char} (hc : Text.isBlank c = true ∨ c = '"') : Text.Lacks c e.name :=
  Text.lacks_blank_or_quote h.name hc

theorem lacks_newline_cardinality : Text.Lacks '\n' (Stroke.cardinality e) := by
  rw [Stroke.cardinality, Text.lacks_append, Text.lacks_append]
  exact ⟨⟨by decide, h.cardinality.1⟩, by decide⟩

end Endpoint.Legible

/-- The space after a name is all that a name is followed by. -/
theorem Writer.dropLast_spaced {s : String} (hs : ∀ c ∈ s.toList, Text.isBlank c = false) :
    Text.dropLast 1 (Writer.spaced s) = s := by
  by_cases hempty : s = ""
  · rw [hempty]
    decide
  · rw [Writer.spaced_eq (hs _ (Writer.lastOf_mem hempty))]
    exact Text.dropLast_append s " "

namespace Relationship.Legible

variable {r : Relationship} (h : r.Legible) (scene : Scene) {arrow : Arrow}
  (harrow : r.arrow = arrow.text)

include h harrow

theorem lacks_newline_lineText : Text.Lacks '\n' (Stroke.lineText scene r) := by
  have hleft := scene.lacks_shorten (h.left.lacks_name (c := '\n') (.inl (by decide)))
  have hright := scene.lacks_shorten (h.right.lacks_name (c := '\n') (.inl (by decide)))
  have hnotes : Text.Lacks '\n' (Stroke.notesText r) :=
    Stroke.lacks_notesText (by decide) (by decide) fun note _ => Stroke.lacks_newline_noteText note
  have hspace : Text.Lacks '\n' " " := by decide
  simp only [Stroke.lineText, Text.lacks_append]
  exact ⟨⟨⟨⟨⟨⟨⟨⟨(Writer.lacks_spaced (by decide)).mpr hleft,
    h.left.lacks_newline_cardinality⟩, hspace⟩,
    harrow ▸ arrow.lacks_text (.inl (by decide))⟩, hspace⟩,
    h.right.lacks_newline_cardinality⟩, hspace⟩, hright⟩, hnotes⟩

/-- The quotes on the line of a relationship are those of its cardinalities. -/
theorem split_lineText : Text.split '"' (Stroke.lineText scene r) =
    [Writer.spaced (scene.shorten r.left.name), r.left.cardinality.getD "",
      " " ++ r.arrow ++ " ", r.right.cardinality.getD "",
      " " ++ (scene.shorten r.right.name ++ Stroke.notesText r)] := by
  have hleft := scene.lacks_shorten (h.left.lacks_name (c := '"') (.inr rfl))
  have hright := scene.lacks_shorten (h.right.lacks_name (c := '"') (.inr rfl))
  have hnotes : Text.Lacks '"' (Stroke.notesText r) :=
    Stroke.lacks_notesText (by decide) (by decide) fun note hnote =>
      Stroke.lacks_quote_noteText (h.notes note hnote)
  have harrow' : Text.Lacks '"' (" " ++ r.arrow ++ " ") := by
    rw [Text.lacks_append, Text.lacks_append]
    exact ⟨⟨by decide, harrow ▸ arrow.lacks_text (.inr rfl)⟩, by decide⟩
  have hrest : Text.Lacks '"' (" " ++ (scene.shorten r.right.name ++ Stroke.notesText r)) := by
    rw [Text.lacks_append, Text.lacks_append]
    exact ⟨by decide, hright, hnotes⟩
  -- The line again, with its four quotes set apart from what is between them.
  have hline : Stroke.lineText scene r =
      Writer.spaced (scene.shorten r.left.name) ++ String.singleton '"' ++
        (r.left.cardinality.getD "" ++ String.singleton '"' ++
          (" " ++ r.arrow ++ " " ++ String.singleton '"' ++
            (r.right.cardinality.getD "" ++ String.singleton '"' ++
              (" " ++ (scene.shorten r.right.name ++ Stroke.notesText r))))) := by
    simp only [Stroke.lineText, Stroke.cardinality, String.append_assoc]
    rfl
  rw [hline, Text.split_append, Text.split_append, Text.split_append, Text.split_append,
    Text.split_of_lacks '"' ((Writer.lacks_spaced (by decide)).mpr hleft),
    Text.split_of_lacks '"' h.left.cardinality.2, Text.split_of_lacks '"' harrow',
    Text.split_of_lacks '"' h.right.cardinality.2, Text.split_of_lacks '"' hrest]
  rfl

theorem read?_lineText : ShownLine.read? (Stroke.lineText scene r) = some (r.shownIn scene) := by
  have hleft : ∀ c ∈ (scene.shorten r.left.name).toList, Text.isBlank c = false := by
    intro c hc
    rw [← Bool.not_eq_true]
    exact fun hblank => scene.lacks_shorten (h.left.lacks_name (.inl hblank)) hc
  have harrow' : Text.dropLast 1 (Text.dropFirst 1 (" " ++ r.arrow ++ " ")) = r.arrow := by
    rw [String.append_assoc]
    exact (congrArg _ (Text.dropFirst_append " " _)).trans (Text.dropLast_append r.arrow " ")
  have hright : Text.dropFirst 1 (" " ++ (scene.shorten r.right.name ++ Stroke.notesText r)) =
      scene.shorten r.right.name ++ Stroke.notesText r := Text.dropFirst_append " " _
  rw [ShownLine.read?, h.split_lineText scene harrow]
  simp only [Writer.dropLast_spaced hleft, harrow', hright, shownIn]

/-- The line of a relationship is the only line with quotes that it draws. -/
theorem quotedLines_text_line :
    Text.quotedLines (Stroke.text scene (Writer.page "") (.line r)) =
      [Stroke.lineText scene r] := by
  have hlines : Text.lines (Stroke.lineText scene r) = [Stroke.lineText scene r] :=
    Text.split_of_lacks '\n' (h.lacks_newline_lineText scene harrow)
  have hquote : '"' ∈ (Stroke.lineText scene r).toList := by
    simp [Stroke.lineText, Stroke.cardinality]
  rw [Stroke.text_line scene harrow, Text.quotedLines_append_newline,
    Text.quotedLines_of_lacks (s := "\n") (by decide), List.append_nil, Text.quotedLines, hlines,
    List.filter_cons_of_pos (by simpa using hquote), List.filter_nil]

end Relationship.Legible

/-- The two forms of a type name. -/
def TypeName.labels (t : TypeName) : List String :=
  [t.simple, t.qualified]

/-- All that a box may show of a field. -/
def Field.labels (f : Field) : List String :=
  f.name :: f.type.labels

/-- All that a box may show of a parameter. -/
def Parameter.labels (p : Parameter) : List String :=
  p.name.toList ++ p.type.toList.flatMap TypeName.labels

/-- All that a box may show of a method. -/
def Method.labels (m : Method) : List String :=
  m.name :: (m.returnType.toList.flatMap TypeName.labels ++
    m.parameters.params.flatMap Parameter.labels)

/-- All that a box may show of a type. -/
def NamedType.labels (type : NamedType) : List String :=
  type.qualifiedName :: (type.typeParameters ++ type.fields.flatMap Field.labels ++
    type.methods.flatMap Method.labels)

section

open Text (Lacks)

theorem TypeName.lacks_shown {t : TypeName} (ht : ∀ s ∈ t.labels, Lacks '"' s)
    (display : TypeDisplay) : Lacks '"' (t.shown display) := by
  cases display with
  | qualified => exact ht t.qualified (by simp [labels])
  | simple => exact ht t.simple (by simp [labels])
  | hidden => exact List.not_mem_nil

theorem Field.lacks_texts {f : Field} (hf : ∀ s ∈ f.labels, Lacks '"' s) (settings : Settings) :
    ∀ s ∈ f.texts settings, Lacks '"' s := by
  rw [labels, List.forall_mem_cons] at hf
  simp only [texts, List.forall_mem_cons]
  exact ⟨hf.1, TypeName.lacks_shown hf.2 _, fun s hs => absurd hs List.not_mem_nil⟩

theorem lacks_ellipsis {type : String} (htype : Lacks '"' type) : Lacks '"' (ellipsis type) := by
  rw [ellipsis]
  split
  · exact Text.lacks_append.mpr ⟨htype.dropLast 2, by decide⟩
  · exact htype

theorem Parameter.lacks_render {p : Parameter} (hp : ∀ s ∈ p.labels, Lacks '"' s)
    (names : NamePlacement) (types : TypeDisplay) (variadic : Bool) :
    Lacks '"' (p.render names types variadic) := by
  have hname : ∀ q : Prop, ∀ [Decidable q], ∀ s ∈ (if q then p.name.toList else []),
      Lacks '"' s := by
    intro q _ s hs
    split at hs
    · exact hp s (List.mem_append_left _ hs)
    · contradiction
  rw [render, Text.lacks_intercalate (by decide), List.forall_mem_append, List.forall_mem_append]
  refine ⟨⟨hname _, ?_⟩, hname _⟩
  cases htype : p.type with
  | none => exact fun s hs => absurd hs List.not_mem_nil
  | some t =>
      have ht : Lacks '"' (t.shown types) := TypeName.lacks_shown
        (fun s hs => hp s (List.mem_append_right _ (by simpa [htype] using hs))) types
      dsimp only
      split
      · exact fun s hs => absurd hs List.not_mem_nil
      · rw [List.forall_mem_singleton]
        split
        · exact lacks_ellipsis ht
        · exact ht

theorem Parameters.lacks_renderEach {params : List Parameter}
    (hparams : ∀ p ∈ params, ∀ s ∈ p.labels, Lacks '"' s) (names : NamePlacement)
    (types : TypeDisplay) (variadic : Bool) :
    ∀ s ∈ renderEach names types variadic params, Lacks '"' s := by
  fun_induction renderEach names types variadic params with
  | case1 => exact fun s hs => absurd hs List.not_mem_nil
  | case2 p =>
      rw [List.forall_mem_singleton] at hparams ⊢
      exact p.lacks_render hparams names types variadic
  | case3 p rest _ ih =>
      rw [List.forall_mem_cons] at hparams ⊢
      exact ⟨p.lacks_render hparams.1 names types false, ih hparams.2⟩

theorem Method.lacks_texts {m : Method} (hm : ∀ s ∈ m.labels, Lacks '"' s) (settings : Settings) :
    ∀ s ∈ m.texts settings, Lacks '"' s := by
  simp only [labels, List.forall_mem_cons, List.forall_mem_append] at hm
  obtain ⟨hname, hreturn, hparams⟩ := hm
  simp only [texts, List.forall_mem_cons]
  refine ⟨hname, ?_, ?_⟩
  · rw [Parameters.render, Text.lacks_append, Text.lacks_append,
      Text.lacks_intercalate (by decide)]
    refine ⟨⟨by decide, Parameters.lacks_renderEach ?_ _ _ _⟩, by decide⟩
    exact fun p hp s hs => hparams s (List.mem_flatMap.mpr ⟨p, hp, hs⟩)
  · intro s hs
    rw [shownReturn] at hs
    cases htype : m.returnType with
    | none => simp [htype] at hs
    | some t =>
        have ht : Lacks '"' (t.shown settings.returnTypes) :=
          TypeName.lacks_shown (fun s hs => hreturn s (by simpa [htype] using hs)) _
        rw [htype] at hs
        dsimp only at hs
        split at hs
        · contradiction
        · rw [Option.toList_some, List.mem_singleton] at hs
          exact hs ▸ ht

theorem Stroke.lacks_marks : ∀ s ∈ Stroke.marks, Lacks '"' s := by
  decide

/-- The declaration of a type has no quotes if its labels have none. -/
theorem Stroke.writes_unquoted (scene : Scene) {type : NamedType}
    (htype : ∀ s ∈ type.labels, Lacks '"' s) {fields : List Field} {methods : List Method}
    (hfields : ∀ f ∈ fields, ∀ s ∈ f.labels, Lacks '"' s)
    (hmethods : ∀ m ∈ methods, ∀ s ∈ m.labels, Lacks '"' s) :
    Writer.Writes (Lacks '"') (Stroke.writeDeclaration scene type fields methods) := by
  simp only [NamedType.labels, List.forall_mem_cons, List.forall_mem_append] at htype
  have hgenerics : Lacks '"' type.generics :=
    (type.lacks_generics (by decide) (by decide) (by decide)).mpr htype.2.1.1
  exact Stroke.writes_declaration scene Stroke.lacks_marks (scene.lacks_shorten htype.1) hgenerics
    (fun f hf => f.lacks_texts (hfields f hf) scene.settings)
    (fun m hm => m.lacks_texts (hmethods m hm) scene.settings)

/-- The methods in the box of an end are methods of a known type. -/
theorem Link.exists_of_mem_methodsIn {scene : Scene} {r : Relationship} {type : NamedType}
    {m : Method} (hm : m ∈ (ofRelationship scene r).methodsIn type) :
    ∃ owner ∈ scene.catalog.types, m ∈ owner.methods := by
  rw [methodsIn] at hm
  split at hm
  · simp only [ofRelationship, methodsOf] at hm
    split at hm
    · rename_i owner hdocumented
      split at hm
      · contradiction
      · exact ⟨owner, mem_types_of_documentedBy hdocumented, (List.mem_filter.mp hm).1⟩
    · contradiction
  · contradiction

end

namespace Stroke

/-- Strokes that are not lines have no quotes. -/
theorem lacks_quote_text {scene : Scene}
    (hcatalog : ∀ type ∈ scene.catalog.types, ∀ s ∈ type.labels, Text.Lacks '"' s)
    {found : List Relationship} (hlegible : ∀ r ∈ found, r.Legible) {canvas : Canvas}
    {stroke : Stroke} (hmem : stroke ∈ scene.strokes canvas found)
    (hline : stroke.isLine = false) : Text.Lacks '"' (stroke.text scene (Writer.page "")) := by
  obtain ⟨link, hlink, name, hname, -, rfl⟩ :=
    Canvas.exists_boxOf_of_mem_strokesForAll scene hmem hline
  obtain ⟨r, hr, rfl⟩ := List.mem_map.mp hlink
  have hunquoted : Text.Lacks '"' name := by
    simp only [Link.ofRelationship, List.mem_cons, List.not_mem_nil, or_false] at hname
    rcases hname with rfl | rfl
    · exact (hlegible r hr).left.lacks_name (.inr rfl)
    · exact (hlegible r hr).right.lacks_name (.inr rfl)
  have hwrites : Writer.Writes (Text.Lacks '"')
      (((Link.ofRelationship scene r).boxOf scene name).write scene) := by
    rw [Link.boxOf]
    split
    · refine writes scene lacks_marks ?_
      rw [texts, List.forall_mem_singleton]
      exact scene.lacks_shorten hunquoted
    · rename_i type hfind
      refine writes_unquoted scene (hcatalog type (Catalog.mem_types_of_find? hfind))
        (fun f hf => absurd hf List.not_mem_nil) fun m hm s hs => ?_
      obtain ⟨owner, howner, hmethod⟩ := Link.exists_of_mem_methodsIn hm
      refine hcatalog owner howner s (List.mem_cons_of_mem _ (List.mem_append_right _ ?_))
      exact List.mem_flatMap.mpr ⟨m, hmethod, hs⟩
  exact (hwrites.lacks (by decide) ⟨by decide, by decide⟩).text

end Stroke

namespace Diagram

theorem lacks_quote_openWith {scene : Scene}
    (hsubject : ∀ s ∈ scene.subject.labels, Text.Lacks '"' s) :
    Text.Lacks '"' (openWith scene).writer.text := by
  have hmembers := hsubject
  simp only [NamedType.labels, List.forall_mem_cons, List.forall_mem_append] at hmembers
  have hwrites := Writer.Writes.comp (Stroke.writes_unquoted scene hsubject
    (fun f hf s hs => hmembers.2.1.2 s (List.mem_flatMap.mpr ⟨f, hf, hs⟩))
    (fun m hm s hs => hmembers.2.2 s (List.mem_flatMap.mpr ⟨m, hm, hs⟩))) .newline
  rw [writer_openWith]
  exact (hwrites.lacks (by decide) ⟨by decide, by decide⟩).text

theorem flatMap_filter_of_nil {α β : Type} {f : α → List β} {p : α → Bool} {as : List α}
    (hnil : ∀ a ∈ as, p a = false → f a = []) : (as.filter p).flatMap f = as.flatMap f := by
  induction as with
  | nil => rfl
  | cons a rest ih =>
      rw [List.forall_mem_cons] at hnil
      cases hp : p a with
      | true =>
          rw [List.filter_cons_of_pos hp, List.flatMap_cons, List.flatMap_cons, ih hnil.2]
      | false =>
          rw [List.filter_cons_of_neg (by simp [hp]), List.flatMap_cons, hnil.1 hp,
            List.nil_append, ih hnil.2]

/-- The strokes with quotes are the lines of the relationships. -/
theorem flatMap_quotedLines_strokes {scene : Scene}
    (hcatalog : ∀ type ∈ scene.catalog.types, ∀ s ∈ type.labels, Text.Lacks '"' s)
    {found : List Relationship} (hlegible : ∀ r ∈ found, r.Legible)
    (harrow : ∀ r ∈ found, ∃ arrow : Arrow, r.arrow = arrow.text) (canvas : Canvas) :
    (scene.strokes canvas found).flatMap
        (fun stroke => Text.quotedLines (stroke.text scene (Writer.page ""))) =
      found.map (Stroke.lineText scene) := by
  have hboxes : ∀ stroke ∈ scene.strokes canvas found, stroke.isLine = false →
      Text.quotedLines (stroke.text scene (Writer.page "")) = [] := fun stroke hstroke hline =>
    Text.quotedLines_of_lacks (Stroke.lacks_quote_text hcatalog hlegible hstroke hline)
  have hlines : (scene.strokes canvas found).filter Stroke.isLine = found.map .line := by
    rw [Scene.strokes, Canvas.filter_isLine_strokesForAll, List.map_map]
    rfl
  have heach : ∀ r ∈ found,
      Text.quotedLines ((Stroke.line r).text scene (Writer.page "")) =
        [Stroke.lineText scene r] := by
    intro r hr
    obtain ⟨arrow, harrow⟩ := harrow r hr
    exact (hlegible r hr).quotedLines_text_line scene harrow
  rw [← flatMap_filter_of_nil hboxes, hlines, List.flatMap_map, List.map_eq_flatMap,
    List.flatMap_def, List.map_congr_left heach, ← List.flatMap_def]

/-- If names, types and notes have no quotes and names no blanks, the lines of a diagram
with quotes are those of its relationships, in order, and each can be read back.  No
relationship is dropped as equal to another. -/
theorem map_read?_quotedLines (d : Diagram) (subject : NamedType) {found : List Relationship}
    (hfound : (d.relations.ofType subject).result = .ok found)
    (hlabels : ∀ type ∈ subject :: d.catalog.types, ∀ s ∈ type.labels, Text.Lacks '"' s)
    (hlegible : ∀ r ∈ found, r.Legible) :
    let scene : Scene := ⟨d.catalog, d.settings, subject⟩
    (d.links scene).result = .ok (found.map (Link.ofRelationship scene)) ∧
      ∃ text, (d.draw subject).result = .ok text ∧
        ((Text.lines text).filter (·.toList.contains '"')).map ShownLine.read? =
          found.map fun r => some (r.shownIn scene) := by
  intro scene
  rw [List.forall_mem_cons] at hlabels
  have harrow : ∀ r ∈ found, ∃ arrow : Arrow, r.arrow = arrow.text :=
    fun r hr => Relations.exists_arrow hfound hr
  have hended : ∀ s ∈ (scene.strokes (openWith scene) found).map
      (Stroke.text scene (Writer.page "")), Text.Ended s := by
    rw [List.forall_mem_map]
    exact fun stroke _ => stroke.ended_text scene _
  -- The opening and the boxes have no quotes, so each line with quotes is that of one `line`.
  have hlines : Text.quotedLines ((openWith scene).writer.text ++
      String.join ((scene.strokes (openWith scene) found).map
        (Stroke.text scene (Writer.page ""))) ++ "@enduml\n") =
      found.map (Stroke.lineText scene) := by
    rw [String.append_assoc, Text.quotedLines_append (ended_openWith scene),
      Text.quotedLines_join hended, Text.quotedLines_of_lacks (lacks_quote_openWith hlabels.1),
      Text.quotedLines_of_lacks (s := "@enduml\n") (by decide), List.flatMap_map,
      flatMap_quotedLines_strokes hlabels.2 hlegible harrow, List.nil_append, List.append_nil]
  have hread : (found.map (Stroke.lineText scene)).map ShownLine.read? =
      found.map fun r => some (r.shownIn scene) := by
    rw [List.map_map]
    refine List.map_congr_left fun r hr => ?_
    obtain ⟨arrow, harrow⟩ := harrow r hr
    rw [Function.comp_apply, (hlegible r hr).read?_lineText scene harrow]
  exact ⟨result_links hfound, _, result_draw hfound,
    (congrArg (List.map ShownLine.read?) hlines).trans hread⟩

/-- A class with a superclass and a tag that has cardinalities and a note. -/
theorem map_read?_quotedLines_tagged :
    let bone : NamedType := { qualifiedName := "p.Bone", name := "Bone", package := "p" }
    let dog : NamedType :=
      { qualifiedName := "p.Dog", name := "Dog", package := "p", superclass := some "q.Animal",
        tags := [("assoc", "1 eats 0..* Bone")],
        fields := [{ name := "age", type := .of "int" }] }
    let d : Diagram := ⟨(Catalog.ofList [bone, dog]).value, {}⟩
    let found : List Relationship :=
      [⟨⟨"q.Animal", none⟩, "<|--", ⟨"p.Dog", none⟩, []⟩,
        ⟨⟨"p.Bone", some "0..*"⟩, "--", ⟨"p.Dog", some "1"⟩, ["eats"]⟩]
    (d.relations.ofType dog).result = .ok found ∧
      (∀ type ∈ dog :: d.catalog.types, ∀ s ∈ type.labels, Text.Lacks '"' s) ∧
      (∀ r ∈ found, r.Legible) ∧
      ∃ text, (d.draw dog).result = .ok text ∧
        ((Text.lines text).filter (·.toList.contains '"')).map ShownLine.read? =
          [some ⟨"q.Animal", "", "<|--", "", "Dog"⟩,
            some ⟨"Bone", "0..*", "--", "1", "Dog: eats"⟩] := by
  intro bone dog d found
  have hfound : (d.relations.ofType dog).result = .ok found := rfl
  have hlabels : ∀ type ∈ dog :: d.catalog.types, ∀ s ∈ type.labels, Text.Lacks '"' s := by
    decide
  have hlegible : ∀ r ∈ found, r.Legible := by decide
  obtain ⟨-, text, htext, hread⟩ := map_read?_quotedLines d dog hfound hlabels hlegible
  refine ⟨hfound, hlabels, hlegible, text, htext, hread.trans ?_⟩
  decide +kernel

end Diagram

end ClassChart
