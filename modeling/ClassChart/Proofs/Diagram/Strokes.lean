import ClassChart.Diagram.Scene
import ClassChart.Proofs.Model.Catalog
import ClassChart.Proofs.Writer

/-!
Drawing as a list of strokes.  Whatever is drawn reaches the canvas stroke by
stroke, and the strokes of a link depend only on the names that have a box.  In an
orderly list of strokes boxes are drawn only for names that have none, and lines
only between names that have one; every link draws an orderly list.
-/
namespace ClassChart

namespace Stroke

/-- The name for which a stroke draws a box. -/
def declares? : Stroke → Option String
  | .stub name _ => some name
  | .box type _ => some type.qualifiedName
  | _ => none

/-- Whether a stroke is the box of an unknown type. -/
def isStub : Stroke → Bool
  | .stub _ _ => true
  | _ => false

theorem name?_eq_some_iff {stroke : Stroke} {name : String} :
    stroke.name? = some name ↔ stroke.declares? = some name ∨ stroke = .reserve name := by
  cases stroke <;> simp [name?, declares?]

/-- The words that introduce boxes. -/
def keywords : List String :=
  ["class", "abstract class", "interface", "enum", "annotation"]

theorem keyword_mem_keywords (type : NamedType) : type.keyword ∈ keywords := by
  rw [NamedType.keyword]
  split
  · simp [keywords]
  · simp [keywords]
  · simp [keywords]
  · split <;> simp [keywords]

/-- The texts that stand between the names and members of boxes. -/
def marks : List String :=
  unknownMark :: (keywords ++ MemberBlock.marks)

/-- What stands after the right name on the line of a relationship. -/
def notesText (r : Relationship) : String :=
  if r.notes.isEmpty then "" else ": " ++ "\\n".intercalate (r.notes.map noteText)

/-- What a stroke shows. -/
def texts (scene : Scene) : Stroke → List String
  | .reserve _ => []
  | .stub name _ => [scene.shorten name]
  | .box type methods =>
      scene.shorten type.qualifiedName :: type.generics ::
        methods.flatMap (Method.texts scene.settings)
  | .line r =>
      [scene.shorten r.left.name, cardinality r.left, r.arrow, cardinality r.right,
        scene.shorten r.right.name, notesText r]

/-- Write the declaration of a type with some of its members. -/
def writeDeclaration (scene : Scene) (type : NamedType) (fields : List Field)
    (methods : List Method) (w : Writer) : Writer :=
  let w := (w.append type.keyword).whitespace
  let w := (w.append (scene.shorten type.qualifiedName)).append type.generics
  (MemberBlock.write fields methods scene.settings w).newline

section

variable (scene : Scene) {p : String → Prop} (hmarks : ∀ s ∈ marks, p s)

include hmarks

theorem writes_declaration {type : NamedType} (hname : p (scene.shorten type.qualifiedName))
    (hgenerics : p type.generics) {fields : List Field} {methods : List Method}
    (hfields : ∀ f ∈ fields, ∀ t ∈ f.texts scene.settings, p t)
    (hmethods : ∀ m ∈ methods, ∀ t ∈ m.texts scene.settings, p t) :
    Writer.Writes p (writeDeclaration scene type fields methods) := by
  simp only [marks, List.forall_mem_cons, List.forall_mem_append] at hmarks
  have hkeyword : Writer.Writes p fun w => (w.append type.keyword).whitespace :=
    .comp (.append (hmarks.2.1 _ (keyword_mem_keywords type))) .whitespace
  have hblock : Writer.Writes p (MemberBlock.write fields methods scene.settings) :=
    MemberBlock.writes hmarks.2.2 scene.settings hfields hmethods
  exact .comp (g := Writer.newline)
    (.comp (.comp (.comp hkeyword (.append hname)) (.append hgenerics)) hblock) .newline

theorem writes {stroke : Stroke} (hstroke : ∀ s ∈ stroke.texts scene, p s) :
    Writer.Writes p (stroke.write scene) := by
  have hword {s : String} (hs : p s) : Writer.Writes p fun w => (w.append s).whitespace :=
    .comp (.append hs) .whitespace
  cases stroke with
  | reserve name => exact .id
  | stub name isInterface =>
      have hkeyword : p (if isInterface then "interface" else "class") := by
        split
        · exact hmarks _ (by simp [marks, keywords])
        · exact hmarks _ (by simp [marks, keywords])
      exact .comp (g := Writer.newline)
        (.comp (.comp (hword hkeyword) (hword (hstroke _ List.mem_cons_self)))
          (.append (hmarks _ (by simp [marks])))) .newline
  | box type methods =>
      simp only [texts, List.forall_mem_cons] at hstroke
      obtain ⟨hname, hgenerics, hmethods⟩ := hstroke
      exact writes_declaration scene hmarks hname hgenerics
        (fun f hf => absurd hf List.not_mem_nil)
        (fun m hm t ht => hmethods t (List.mem_flatMap.mpr ⟨m, hm, ht⟩))
  | line r =>
      simp only [texts, List.forall_mem_cons] at hstroke
      obtain ⟨hleft, hleftCard, harrow, hrightCard, hright, hnotes, -⟩ := hstroke
      have hends := Writer.Writes.comp
        (.comp (.comp (.comp (hword hleft) (hword hleftCard)) (hword harrow)) (hword hrightCard))
        (.append hright)
      have hsuffix : Writer.Writes p fun w =>
          if r.notes.isEmpty then w
          else w.append (": " ++ "\\n".intercalate (r.notes.map noteText)) := by
        refine .ite _ (fun _ => .id) fun hsome => .append ?_
        rwa [notesText, if_neg hsome] at hnotes
      exact .comp (g := Writer.newline) (.comp (g := Writer.newline) (.comp hends hsuffix)
        .newline) .newline

end

theorem appends_write (scene : Scene) (stroke : Stroke) :
    Writer.Appends (stroke.write scene) :=
  (writes scene (p := fun _ => True) (fun _ _ => trivial) (fun _ _ => trivial)).appends

/-- Every stroke ends with a line, if it writes anything. -/
theorem atMargin_write (scene : Scene) (stroke : Stroke) {w : Writer} (hw : w.AtMargin) :
    (stroke.write scene w).AtMargin := by
  cases stroke with
  | reserve name => exact hw
  | stub name isInterface => exact Writer.atMargin_newline _
  | box type methods => exact Writer.atMargin_newline _
  | line r => exact Writer.atMargin_newline _

/-- The text of a stroke at the nesting of a writer. -/
def text (scene : Scene) (w : Writer) (stroke : Stroke) : String :=
  (stroke.write scene w.margin).text

theorem text_eq_of_margin_eq (scene : Scene) {w w' : Writer} (hmargin : w.margin = w'.margin) :
    text scene w = text scene w' := by
  funext stroke
  rw [text, text, hmargin]

end Stroke

namespace Link

@[simp]
theorem declares?_boxOf (scene : Scene) (link : Link) (name : String) :
    (link.boxOf scene name).declares? = some name := by
  rw [boxOf]
  split
  · rfl
  · rename_i type hfind
    exact congrArg some (Catalog.qualifiedName_of_find? hfind)

@[simp]
theorem name?_boxOf (scene : Scene) (link : Link) (name : String) :
    (link.boxOf scene name).name? = some name :=
  Stroke.name?_eq_some_iff.mpr (Or.inl (declares?_boxOf scene link name))

theorem isStub_boxOf_iff (scene : Scene) (link : Link) (name : String) :
    (link.boxOf scene name).isStub ↔ scene.catalog.find? name = none := by
  rw [boxOf]
  split <;> simp_all [Stroke.isStub]

end Link

namespace Canvas

variable (scene : Scene)

theorem mem_markDeclared {canvas : Canvas} {name x : String} :
    x ∈ (canvas.markDeclared name).declared ↔ x ∈ canvas.declared ∨ x = name := by
  rw [markDeclared]
  split
  · rename_i htaken
    have hname : name ∈ canvas.declared := List.contains_iff_mem.mp htaken
    constructor
    · exact Or.inl
    · rintro (hx | rfl)
      · exact hx
      · exact hname
  · simp

theorem declared_isPrefix_markDeclared (canvas : Canvas) (name : String) :
    canvas.declared <+: (canvas.markDeclared name).declared := by
  rw [markDeclared]
  split
  · exact List.prefix_rfl
  · exact List.prefix_append _ _

theorem mem_declared_add {canvas : Canvas} {stroke : Stroke} {x : String} :
    x ∈ (canvas.add scene stroke).declared ↔
      x ∈ canvas.declared ∨ stroke.name? = some x := by
  rw [add]
  cases stroke.name? with
  | none => simp
  | some name => simp [mem_markDeclared, eq_comm]

theorem declared_isPrefix_add (canvas : Canvas) (stroke : Stroke) :
    canvas.declared <+: (canvas.add scene stroke).declared := by
  rw [add]
  cases stroke.name? with
  | none => exact List.prefix_rfl
  | some name => exact declared_isPrefix_markDeclared canvas name

/-- The canvas with several more strokes. -/
def addAll (canvas : Canvas) (strokes : List Stroke) : Canvas :=
  strokes.foldl (add scene) canvas

@[simp]
theorem addAll_nil (canvas : Canvas) : canvas.addAll scene [] = canvas := rfl

@[simp]
theorem addAll_cons (canvas : Canvas) (stroke : Stroke) (rest : List Stroke) :
    canvas.addAll scene (stroke :: rest) = (canvas.add scene stroke).addAll scene rest := rfl

@[simp]
theorem addAll_append (canvas : Canvas) (before after : List Stroke) :
    canvas.addAll scene (before ++ after) = (canvas.addAll scene before).addAll scene after :=
  List.foldl_append

/-- A name is declared if it was before or if a stroke declares it. -/
theorem mem_declared_addAll {canvas : Canvas} {strokes : List Stroke} {x : String} :
    x ∈ (canvas.addAll scene strokes).declared ↔
      x ∈ canvas.declared ∨ ∃ stroke ∈ strokes, stroke.name? = some x := by
  induction strokes generalizing canvas with
  | nil => simp
  | cons stroke rest ih => simp [ih, mem_declared_add, or_assoc]

theorem declared_isPrefix_addAll (canvas : Canvas) (strokes : List Stroke) :
    canvas.declared <+: (canvas.addAll scene strokes).declared := by
  induction strokes generalizing canvas with
  | nil => exact List.prefix_rfl
  | cons stroke rest ih => exact (declared_isPrefix_add scene canvas stroke).trans (ih _)

/-- What strokes add to the text of a canvas is their texts, one after another. -/
theorem text_addAll {canvas : Canvas} (hstart : canvas.writer.AtMargin)
    (strokes : List Stroke) :
    (canvas.addAll scene strokes).writer.text =
      canvas.writer.text ++ String.join (strokes.map (Stroke.text scene canvas.writer)) := by
  induction strokes generalizing canvas with
  | nil => simp
  | cons stroke rest ih =>
      have hwrite := stroke.appends_write scene
      have hmargin : (canvas.add scene stroke).writer.margin = canvas.writer.margin :=
        hwrite.margin canvas.writer
      have htext : (canvas.add scene stroke).writer.text =
          canvas.writer.text ++ stroke.text scene canvas.writer :=
        hstart.text_eq hwrite
      rw [addAll_cons, ih (stroke.atMargin_write scene hstart), htext,
        Stroke.text_eq_of_margin_eq scene hmargin, List.map_cons, String.join_cons,
        String.append_assoc]

/-- The box that a link draws for a name, if the name has none. -/
def boxFor (link : Link) (canvas : Canvas) (name : String) : List Stroke :=
  if canvas.declared.contains name then [] else [link.boxOf scene name]

/-- The boxes that a link draws for its ends. -/
def boxesFor (link : Link) (canvas : Canvas) : List Stroke :=
  let left := canvas.boxFor scene link link.relationship.left.name
  left ++ (canvas.addAll scene left).boxFor scene link link.relationship.right.name

/-- All that a link draws. -/
def strokesFor (link : Link) (canvas : Canvas) : List Stroke :=
  canvas.boxesFor scene link ++ [.line link.relationship]

theorem value_declareName (link : Link) (canvas : Canvas) (name : String) :
    (canvas.declareName scene link name).value =
      canvas.addAll scene (canvas.boxFor scene link name) := by
  rw [declareName, boxFor]
  split <;> rfl

theorem value_declareEnds (link : Link) (canvas : Canvas) :
    (canvas.declareEnds scene link).value =
      canvas.addAll scene (canvas.boxesFor scene link) := by
  rw [declareEnds, Logged.value_bind, value_declareName, value_declareName, boxesFor,
    addAll_append]

theorem value_draw (link : Link) (canvas : Canvas) :
    (canvas.draw scene link).value = canvas.addAll scene (canvas.strokesFor scene link) := by
  rw [draw, Logged.value_bind, value_declareEnds, strokesFor, addAll_append]
  rfl

/-- All that several links draw. -/
def strokesForAll (canvas : Canvas) : List Link → List Stroke
  | [] => []
  | link :: rest =>
      let first := canvas.strokesFor scene link
      first ++ (canvas.addAll scene first).strokesForAll rest

/-- Drawing links adds their strokes, those of each link on the canvas that the ones before it
leave. -/
theorem value_drawAll (links : List Link) (canvas : Canvas) :
    (canvas.drawAll scene links).value =
      canvas.addAll scene (canvas.strokesForAll scene links) := by
  rw [drawAll, Logged.value_foldlM]
  induction links generalizing canvas with
  | nil => rfl
  | cons link rest ih =>
      rw [List.foldl_cons, ih, value_draw, strokesForAll, addAll_append]

/-- What a stroke may be on a canvas as it stands. -/
def Admits (canvas : Canvas) : Stroke → Prop
  | .reserve _ => True
  | .stub name _ => name ∉ canvas.declared ∧ scene.catalog.find? name = none
  | .box type _ =>
      type.qualifiedName ∉ canvas.declared ∧
        scene.catalog.find? type.qualifiedName = some type
  | .line r => r.left.name ∈ canvas.declared ∧ r.right.name ∈ canvas.declared

/-- Every stroke is one that the canvas of its moment admits. -/
def Orderly : Canvas → List Stroke → Prop
  | _, [] => True
  | canvas, stroke :: rest =>
      canvas.Admits scene stroke ∧ Orderly (canvas.add scene stroke) rest

/-- Strokes are orderly exactly if the first ones are, and the others on the canvas that these
leave. -/
theorem orderly_append {canvas : Canvas} {before after : List Stroke} :
    canvas.Orderly scene (before ++ after) ↔
      canvas.Orderly scene before ∧ (canvas.addAll scene before).Orderly scene after := by
  induction before generalizing canvas with
  | nil => simp [Orderly]
  | cons stroke rest ih => simp [Orderly, ih, and_assoc]

theorem admits_boxOf (link : Link) {canvas : Canvas} {name : String}
    (hfree : name ∉ canvas.declared) : canvas.Admits scene (link.boxOf scene name) := by
  rw [Link.boxOf]
  split
  · rename_i hfind
    exact ⟨hfree, hfind⟩
  · rename_i type hfind
    have hname := Catalog.qualifiedName_of_find? hfind
    subst hname
    exact ⟨hfree, hfind⟩

theorem orderly_boxFor (link : Link) (canvas : Canvas) (name : String) :
    canvas.Orderly scene (canvas.boxFor scene link name) := by
  rw [boxFor]
  split
  · trivial
  · rename_i hfree
    have hname : name ∉ canvas.declared := fun hmem => hfree (List.contains_iff_mem.mpr hmem)
    exact ⟨admits_boxOf scene link hname, trivial⟩

/-- After a name got its box, or if it had one before, it counts as drawn. -/
theorem mem_declared_addAll_boxFor (link : Link) (canvas : Canvas) (name : String) :
    name ∈ (canvas.addAll scene (canvas.boxFor scene link name)).declared := by
  rw [boxFor]
  split
  · rename_i htaken
    exact List.contains_iff_mem.mp htaken
  · exact (mem_declared_add scene).mpr (Or.inr (Link.name?_boxOf scene link name))

theorem orderly_boxesFor (link : Link) (canvas : Canvas) :
    canvas.Orderly scene (canvas.boxesFor scene link) :=
  (orderly_append scene).mpr ⟨orderly_boxFor scene link canvas _, orderly_boxFor scene link _ _⟩

theorem orderly_strokesFor (link : Link) (canvas : Canvas) :
    canvas.Orderly scene (canvas.strokesFor scene link) := by
  rw [strokesFor, orderly_append]
  refine ⟨orderly_boxesFor scene link canvas, ⟨?_, ?_⟩, trivial⟩
  · rw [boxesFor, addAll_append]
    apply (declared_isPrefix_addAll scene _ _).subset
    exact mem_declared_addAll_boxFor scene link canvas _
  · rw [boxesFor, addAll_append]
    exact mem_declared_addAll_boxFor scene link _ _

theorem orderly_strokesForAll (links : List Link) (canvas : Canvas) :
    canvas.Orderly scene (canvas.strokesForAll scene links) := by
  induction links generalizing canvas with
  | nil => trivial
  | cons link rest ih =>
      exact (orderly_append scene).mpr ⟨orderly_strokesFor scene link canvas, ih _⟩

/-- No name gets a box twice, and none that counted as drawn before. -/
theorem Orderly.declares_nodup {canvas : Canvas} {strokes : List Stroke}
    (horderly : canvas.Orderly scene strokes) :
    (strokes.filterMap Stroke.declares?).Nodup ∧
      ∀ name ∈ strokes.filterMap Stroke.declares?, name ∉ canvas.declared := by
  induction strokes generalizing canvas with
  | nil => simp
  | cons stroke rest ih =>
      obtain ⟨hadmits, hrest⟩ := horderly
      obtain ⟨hnodup, hfree⟩ := ih hrest
      have hkept : ∀ name ∈ rest.filterMap Stroke.declares?, name ∉ canvas.declared := by
        intro name hname hmem
        exact hfree name hname ((mem_declared_add scene).mpr (Or.inl hmem))
      cases hdeclares : stroke.declares? with
      | none =>
          rw [List.filterMap_cons_none hdeclares]
          exact ⟨hnodup, hkept⟩
      | some name =>
          have hnew : name ∉ rest.filterMap Stroke.declares? := by
            intro hmem
            apply hfree name hmem
            exact (mem_declared_add scene).mpr
              (Or.inr (Stroke.name?_eq_some_iff.mpr (Or.inl hdeclares)))
          have hfresh : name ∉ canvas.declared := by
            cases stroke <;> simp_all [Stroke.declares?, Admits]
          rw [List.filterMap_cons_some hdeclares]
          refine ⟨List.nodup_cons.mpr ⟨hnew, hnodup⟩, ?_⟩
          intro other hother
          rcases List.mem_cons.mp hother with rfl | hother
          · exact hfresh
          · exact hkept other hother

/-- The stroke at any moment of an orderly list is one that the canvas of that
moment admits. -/
theorem Orderly.admits {canvas : Canvas} {before after : List Stroke} {stroke : Stroke}
    (horderly : canvas.Orderly scene (before ++ stroke :: after)) :
    (canvas.addAll scene before).Admits scene stroke :=
  ((orderly_append scene).mp horderly).2.1

end Canvas

end ClassChart
