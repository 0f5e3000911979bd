import ClassChart.Proofs.Diagram.Relations
import ClassChart.Proofs.Diagram.Strokes

/-!
The order of the relationships of a type decides the order of what is drawn, and
which word a stub begins with, but nothing else.  The reason is that all of them
end at the subject, which has its box: so each box belongs to a left end, and it is
the same box whichever relationship draws it.
-/
namespace ClassChart

namespace Stroke

/-- Whether a stroke is the line of a relationship. -/
def isLine : Stroke → Bool
  | .line _ => true
  | _ => false

/-- The stroke with the same first word for all stubs. -/
def plain : Stroke → Stroke
  | .stub name _ => .stub name false
  | stroke => stroke

theorem plain_eq_self {stroke : Stroke} (hstub : stroke.isStub = false) :
    stroke.plain = stroke := by
  cases stroke with
  | stub name isInterface => contradiction
  | reserve name => rfl
  | box type methods => rfl
  | line r => rfl

theorem isLine_eq_false_of_name? {stroke : Stroke} {name : String}
    (hname : stroke.name? = some name) : stroke.isLine = false := by
  cases stroke with
  | line r => contradiction
  | reserve name => rfl
  | stub name isInterface => rfl
  | box type methods => rfl

theorem isStub_plain (stroke : Stroke) : stroke.plain.isStub = stroke.isStub := by
  cases stroke <;> rfl

end Stroke

namespace Link

theorem isLine_boxOf (scene : Scene) (link : Link) (name : String) :
    (link.boxOf scene name).isLine = false := by
  rw [boxOf]
  split <;> rfl

end Link

namespace Canvas

variable (scene : Scene)

theorem filter_isLine_boxFor (link : Link) (canvas : Canvas) (name : String) :
    (canvas.boxFor scene link name).filter Stroke.isLine = [] := by
  rw [boxFor]
  split
  · rfl
  · simp [Link.isLine_boxOf]

theorem filter_isLine_strokesFor (link : Link) (canvas : Canvas) :
    (canvas.strokesFor scene link).filter Stroke.isLine = [.line link.relationship] := by
  rw [strokesFor, boxesFor, List.filter_append, List.filter_append, filter_isLine_boxFor,
    filter_isLine_boxFor]
  rfl

/-- Each link draws one line, in the order of the links. -/
theorem filter_isLine_strokesForAll (links : List Link) (canvas : Canvas) :
    (canvas.strokesForAll scene links).filter Stroke.isLine =
      links.map fun link => .line link.relationship := by
  induction links generalizing canvas with
  | nil => rfl
  | cons link rest ih =>
      rw [strokesForAll, List.filter_append, filter_isLine_strokesFor, ih]
      rfl

/-- Whatever is drawn besides lines is the box that some link gives to one of its
ends. -/
theorem exists_boxOf_of_mem_strokesForAll {links : List Link} {canvas : Canvas}
    {stroke : Stroke} (hmem : stroke ∈ canvas.strokesForAll scene links)
    (hline : stroke.isLine = false) :
    ∃ link ∈ links, ∃ name ∈ [link.relationship.left.name, link.relationship.right.name],
      name ∉ canvas.declared ∧ stroke = link.boxOf scene name := by
  induction links generalizing canvas with
  | nil => contradiction
  | cons link rest ih =>
      have hbox : ∀ {c : Canvas} {name : String}, canvas.declared <+: c.declared →
          stroke ∈ c.boxFor scene link name →
          name ∉ canvas.declared ∧ stroke = link.boxOf scene name := by
        intro c name hgrown hstroke
        rw [boxFor] at hstroke
        split at hstroke
        · contradiction
        · rename_i hfree
          refine ⟨fun hname => hfree ?_, List.mem_singleton.mp hstroke⟩
          exact List.contains_iff_mem.mpr (hgrown.subset hname)
      simp only [strokesForAll, strokesFor, boxesFor, List.mem_append,
        List.mem_singleton] at hmem
      rcases hmem with ((hleft | hright) | rfl) | hrest
      · exact ⟨link, List.mem_cons_self, _, List.mem_cons_self, hbox List.prefix_rfl hleft⟩
      · have hgrown := declared_isPrefix_addAll scene canvas
          (canvas.boxFor scene link link.relationship.left.name)
        exact ⟨link, List.mem_cons_self, _, List.mem_cons_of_mem _ List.mem_cons_self,
          hbox hgrown hright⟩
      · contradiction
      · obtain ⟨other, hother, name, hname, hfree, heq⟩ := ih hrest
        have hgrown := declared_isPrefix_addAll scene canvas (canvas.strokesFor scene link)
        exact ⟨other, List.mem_cons_of_mem _ hother, name, hname,
          fun hold => hfree (hgrown.subset hold), heq⟩

/-- The names that count as drawn after links are drawn are the ends of the links,
besides those from before. -/
theorem mem_declared_strokesForAll {links : List Link} {canvas : Canvas} {name : String} :
    name ∈ (canvas.addAll scene (canvas.strokesForAll scene links)).declared ↔
      name ∈ canvas.declared ∨ ∃ link ∈ links,
        name ∈ [link.relationship.left.name, link.relationship.right.name] := by
  constructor
  · intro hdrawn
    rcases (mem_declared_addAll scene).mp hdrawn with hold | ⟨stroke, hstroke, hname⟩
    · exact Or.inl hold
    · obtain ⟨link, hlink, other, hother, _, rfl⟩ := exists_boxOf_of_mem_strokesForAll scene
        hstroke (Stroke.isLine_eq_false_of_name? hname)
      rw [Link.name?_boxOf, Option.some.injEq] at hname
      exact Or.inr ⟨link, hlink, hname ▸ hother⟩
  · rintro (hold | ⟨link, hlink, hend⟩)
    · exact (mem_declared_addAll scene).mpr (Or.inl hold)
    · -- The line of the link is drawn, so its ends have their boxes by then.
      have hmem : Stroke.line link.relationship ∈ canvas.strokesForAll scene links := by
        have hlines := filter_isLine_strokesForAll scene links canvas
        exact (List.mem_filter.mp (hlines ▸ List.mem_map.mpr ⟨link, hlink, rfl⟩)).1
      have horderly := orderly_strokesForAll scene links canvas
      obtain ⟨before, after, hsplit⟩ := List.append_of_mem hmem
      rw [hsplit] at horderly ⊢
      have hjoined := Orderly.admits scene horderly
      rw [addAll_append]
      apply (declared_isPrefix_addAll scene _ _).subset
      simp only [List.mem_cons, List.not_mem_nil, or_false] at hend
      rcases hend with rfl | rfl
      · exact hjoined.1
      · exact hjoined.2

/-- The names that get a box are the ends of links that had none. -/
theorem mem_declares_strokesForAll {links : List Link} {canvas : Canvas} {name : String} :
    name ∈ (canvas.strokesForAll scene links).filterMap Stroke.declares? ↔
      name ∉ canvas.declared ∧ ∃ link ∈ links,
        name ∈ [link.relationship.left.name, link.relationship.right.name] := by
  have horderly := orderly_strokesForAll scene links canvas
  constructor
  · intro hname
    have hfree := (Orderly.declares_nodup scene horderly).2 name hname
    obtain ⟨stroke, hstroke, hdeclares⟩ := List.mem_filterMap.mp hname
    have hdrawn : name ∈ (canvas.addAll scene (canvas.strokesForAll scene links)).declared :=
      (mem_declared_addAll scene).mpr
        (Or.inr ⟨stroke, hstroke, Stroke.name?_eq_some_iff.mpr (Or.inl hdeclares)⟩)
    exact ⟨hfree, ((mem_declared_strokesForAll scene).mp hdrawn).resolve_left hfree⟩
  · rintro ⟨hfree, hend⟩
    have hdrawn : name ∈ (canvas.addAll scene (canvas.strokesForAll scene links)).declared :=
      (mem_declared_strokesForAll scene).mpr (Or.inr hend)
    obtain ⟨stroke, hstroke, hname⟩ :=
      ((mem_declared_addAll scene).mp hdrawn).resolve_left hfree
    obtain ⟨link, _, other, _, _, rfl⟩ := exists_boxOf_of_mem_strokesForAll scene
      hstroke (Stroke.isLine_eq_false_of_name? hname)
    rw [Link.name?_boxOf, ← Link.declares?_boxOf scene link other] at hname
    exact List.mem_filterMap.mpr ⟨_, hstroke, hname⟩

end Canvas

namespace Scene

variable (scene : Scene)

/-- What is drawn of relationships, one after another. -/
def strokes (canvas : Canvas) (rs : List Relationship) : List Stroke :=
  canvas.strokesForAll scene (rs.map (Link.ofRelationship scene))

theorem declares_strokes_nodup (canvas : Canvas) (rs : List Relationship) :
    ((scene.strokes canvas rs).filterMap Stroke.declares?).Nodup :=
  (Canvas.Orderly.declares_nodup scene (Canvas.orderly_strokesForAll scene _ canvas)).1

/-- The box that a name gets at the left end of a relationship of the subject. -/
def usualBox (name : String) : Stroke :=
  match scene.catalog.find? name with
  | none => .stub name false
  | some type =>
      .box type
        (if scene.settings.showAbstractMethods then type.methods.filter Method.isAbstract
        else [])

/-- Every relationship of the subject draws the usual box of its left end, apart
from the first word of a stub. -/
theorem plain_boxOf {r : Relationship} (hright : r.right.name = scene.subject.qualifiedName)
    (hleft : r.left.name ≠ scene.subject.qualifiedName) :
    ((Link.ofRelationship scene r).boxOf scene r.left.name).plain =
      scene.usualBox r.left.name := by
  have hdocumented : Link.documentedBy scene r = scene.catalog.find? r.left.name := by
    simp [Link.documentedBy, Link.typeAt, hright, hleft]
  have hloop : r.isLoop = false := by
    simp [Relationship.isLoop, hright, hleft]
  rw [Link.boxOf, usualBox]
  cases hfind : scene.catalog.find? r.left.name with
  | none => rfl
  | some type =>
      simp only [Stroke.plain, Link.methodsIn, Link.ofRelationship, hdocumented, hfind,
        Option.map_some, if_true, Link.methodsOf, hloop, Bool.false_or]
      cases scene.settings.showAbstractMethods <;> rfl

variable {canvas : Canvas} {rs : List Relationship}

/-- Every stroke that is no line is the usual box of a name, apart from the first word of a stub. -/
theorem plain_of_mem_strokes (hsubject : scene.subject.qualifiedName ∈ canvas.declared)
    (hends : Relations.EndAt scene.subject rs) {stroke : Stroke}
    (hmem : stroke ∈ scene.strokes canvas rs) (hline : stroke.isLine = false) :
    ∃ name, stroke.declares? = some name ∧ stroke.plain = scene.usualBox name := by
  obtain ⟨link, hlink, name, hname, hfree, rfl⟩ :=
    Canvas.exists_boxOf_of_mem_strokesForAll scene hmem hline
  obtain ⟨r, hr, rfl⟩ := List.mem_map.mp hlink
  have hright : r.right.name = scene.subject.qualifiedName := hends r hr
  have hother : name ≠ scene.subject.qualifiedName := fun heq => hfree (heq ▸ hsubject)
  simp only [Link.ofRelationship, List.mem_cons, List.not_mem_nil, or_false] at hname
  rcases hname with rfl | rfl
  · exact ⟨r.left.name, Link.declares?_boxOf scene _ _, plain_boxOf scene hright hother⟩
  · contradiction

/-- Boxes in plain form are determined by the names that they declare. -/
theorem map_plain_eq_map_usualBox {strokes : List Stroke}
    (hboxes : ∀ stroke ∈ strokes, stroke.isLine = false →
      ∃ name, stroke.declares? = some name ∧ stroke.plain = scene.usualBox name) :
    (strokes.filter (!·.isLine)).map Stroke.plain =
      (strokes.filterMap Stroke.declares?).map scene.usualBox := by
  induction strokes with
  | nil => rfl
  | cons stroke rest ih =>
      have hrest := ih fun s hs => hboxes s (List.mem_cons_of_mem stroke hs)
      cases hline : stroke.isLine with
      | true =>
          have hnone : stroke.declares? = none := by
            cases stroke <;> simp_all [Stroke.isLine, Stroke.declares?]
          rw [List.filter_cons_of_neg (by simp [hline]), List.filterMap_cons_none hnone, hrest]
      | false =>
          obtain ⟨name, hname, hplain⟩ := hboxes stroke List.mem_cons_self hline
          rw [List.filter_cons_of_pos (by simp [hline]), List.filterMap_cons_some hname,
            List.map_cons, List.map_cons, hplain, hrest]

/-- Relationships of the subject draw the same in any order, apart from the order
itself and the first words of stubs. -/
theorem map_plain_strokes_perm (hsubject : scene.subject.qualifiedName ∈ canvas.declared)
    (hends : Relations.EndAt scene.subject rs) {order : List Relationship}
    (horder : order.Perm rs) :
    ((scene.strokes canvas order).map Stroke.plain).Perm
      ((scene.strokes canvas rs).map Stroke.plain) := by
  have hends' : Relations.EndAt scene.subject order :=
    fun r hr => hends r (horder.subset hr)
  -- Lines and boxes are compared apart: the lines follow the relationships, the boxes
  -- the names that get one.
  have hsplit : ∀ strokes : List Stroke, (strokes.map Stroke.plain).Perm
      ((strokes.filter Stroke.isLine).map Stroke.plain ++
        (strokes.filter (!·.isLine)).map Stroke.plain) := by
    intro strokes
    rw [← List.map_append]
    exact (List.filter_append_perm Stroke.isLine strokes).symm.map _
  have hlines : ((scene.strokes canvas order).filter Stroke.isLine).Perm
      ((scene.strokes canvas rs).filter Stroke.isLine) := by
    rw [strokes, strokes, Canvas.filter_isLine_strokesForAll,
      Canvas.filter_isLine_strokesForAll]
    exact (horder.map _).map _
  have hnames : ((scene.strokes canvas order).filterMap Stroke.declares?).Perm
      ((scene.strokes canvas rs).filterMap Stroke.declares?) := by
    rw [List.perm_ext_iff_of_nodup (declares_strokes_nodup scene canvas order)
      (declares_strokes_nodup scene canvas rs)]
    intro name
    rw [strokes, strokes, Canvas.mem_declares_strokesForAll,
      Canvas.mem_declares_strokesForAll]
    have hlinks := horder.map (Link.ofRelationship scene)
    simp only [hlinks.mem_iff]
  refine (hsplit _).trans (List.Perm.trans ?_ (hsplit _).symm)
  rw [map_plain_eq_map_usualBox scene fun _ => plain_of_mem_strokes scene hsubject hends',
    map_plain_eq_map_usualBox scene fun _ => plain_of_mem_strokes scene hsubject hends]
  exact (hlines.map _).append (hnames.map _)

/-- Whether a text is that of the box which strokes draw for a name. -/
def DeclaredAs (w : Writer) (strokes : List Stroke) (name text : String) : Prop :=
  ∃ stroke ∈ strokes, stroke.declares? = some name ∧ stroke.text scene w = text

/-- Two orders of relationships that draw the same, apart from the order and the
first words of stubs. -/
structure SameDrawing (start : Canvas) (found order : List Relationship) : Prop where
  /-- What is written is the texts of the strokes, one after another. -/
  written : ∀ rs ∈ [found, order],
    (start.drawAll scene (rs.map (.ofRelationship scene))).value.writer.text =
      start.writer.text ++
        String.join ((scene.strokes start rs).map (Stroke.text scene start.writer))
  /-- No name gets two boxes. -/
  once : ∀ rs ∈ [found, order], ((scene.strokes start rs).filterMap Stroke.declares?).Nodup
  /-- The same names get boxes. -/
  names : ∀ name,
    name ∈ (scene.strokes start order).filterMap Stroke.declares? ↔
      name ∈ (scene.strokes start found).filterMap Stroke.declares?
  /-- The same names count as drawn. -/
  declared : ∀ name,
    name ∈ (start.drawAll scene (order.map (.ofRelationship scene))).value.declared ↔
      name ∈ (start.drawAll scene (found.map (.ofRelationship scene))).value.declared
  /-- A known name has the same text in its box. -/
  known : ∀ name, scene.catalog.find? name ≠ none → ∀ text,
    scene.DeclaredAs start.writer (scene.strokes start order) name text ↔
      scene.DeclaredAs start.writer (scene.strokes start found) name text
  /-- The same lines are written. -/
  lines : (((scene.strokes start order).filter Stroke.isLine).map
      (Stroke.text scene start.writer)).Perm
    (((scene.strokes start found).filter Stroke.isLine).map (Stroke.text scene start.writer))
  /-- Nothing but the first words of stubs differs. -/
  plain : ((scene.strokes start order).map Stroke.plain).Perm
    ((scene.strokes start found).map Stroke.plain)

/-- A box other than a stub is in one list of strokes if it is in the other. -/
theorem mem_of_map_plain_perm {strokes strokes' : List Stroke}
    (hperm : (strokes'.map Stroke.plain).Perm (strokes.map Stroke.plain)) {stroke : Stroke}
    (hmem : stroke ∈ strokes') (hstub : stroke.isStub = false) : stroke ∈ strokes := by
  have hplain : stroke.plain ∈ strokes.map Stroke.plain :=
    hperm.subset (List.mem_map_of_mem hmem)
  obtain ⟨other, hother, heq⟩ := List.mem_map.mp hplain
  have hstub' : other.isStub = false := by
    rw [← Stroke.isStub_plain, heq, Stroke.isStub_plain, hstub]
  rw [Stroke.plain_eq_self hstub, Stroke.plain_eq_self hstub'] at heq
  exact heq ▸ hother

/-- The box of a known name is no stub. -/
theorem isStub_eq_false_of_known {stroke : Stroke} (hmem : stroke ∈ scene.strokes canvas rs)
    {name : String} (hname : stroke.declares? = some name)
    (hknown : scene.catalog.find? name ≠ none) : stroke.isStub = false := by
  have hline : stroke.isLine = false :=
    Stroke.isLine_eq_false_of_name? (Stroke.name?_eq_some_iff.mpr (Or.inl hname))
  obtain ⟨link, _, other, _, _, rfl⟩ :=
    Canvas.exists_boxOf_of_mem_strokesForAll scene hmem hline
  rw [Link.declares?_boxOf, Option.some.injEq] at hname
  subst hname
  rw [Bool.eq_false_iff]
  exact fun hstub => hknown ((Link.isStub_boxOf_iff scene link other).mp hstub)

theorem declaredAs_of_map_plain_perm (w : Writer) {order : List Relationship}
    (hperm : ((scene.strokes canvas order).map Stroke.plain).Perm
      ((scene.strokes canvas rs).map Stroke.plain))
    {name text : String} (hknown : scene.catalog.find? name ≠ none)
    (hdeclared : scene.DeclaredAs w (scene.strokes canvas order) name text) :
    scene.DeclaredAs w (scene.strokes canvas rs) name text := by
  obtain ⟨stroke, hmem, hname, htext⟩ := hdeclared
  have hstub := isStub_eq_false_of_known scene hmem hname hknown
  exact ⟨stroke, mem_of_map_plain_perm hperm hmem hstub, hname, htext⟩

/-- Relationships that end at the subject may be drawn in any order once the subject
has its box. -/
theorem sameDrawing_of_endAt {start : Canvas} (hstart : start.writer.AtMargin)
    (hsubject : scene.subject.qualifiedName ∈ start.declared)
    (hends : Relations.EndAt scene.subject rs) {order : List Relationship}
    (horder : order.Perm rs) : scene.SameDrawing start rs order := by
  have hperm := map_plain_strokes_perm scene hsubject hends horder
  have hlinks := horder.map (Link.ofRelationship scene)
  have hnames : ∀ name,
      name ∈ (scene.strokes start order).filterMap Stroke.declares? ↔
        name ∈ (scene.strokes start rs).filterMap Stroke.declares? := by
    intro name
    simp only [strokes, Canvas.mem_declares_strokesForAll, hlinks.mem_iff]
  refine ⟨?_, ?_, hnames, ?_, ?_, ?_, hperm⟩
  · intro rs' _
    rw [Canvas.value_drawAll]
    exact Canvas.text_addAll scene hstart _
  · intro rs' _
    exact declares_strokes_nodup scene start rs'
  · intro name
    simp only [Canvas.value_drawAll, Canvas.mem_declared_strokesForAll, hlinks.mem_iff]
  · intro name hknown text
    exact ⟨declaredAs_of_map_plain_perm scene start.writer hperm hknown,
      declaredAs_of_map_plain_perm scene start.writer hperm.symm hknown⟩
  · rw [strokes, strokes, Canvas.filter_isLine_strokesForAll,
      Canvas.filter_isLine_strokesForAll]
    exact (hlinks.map _).map _

end Scene

/-- The relationships found for a type draw the same in any order on a canvas that
holds the type's own box. -/
theorem Diagram.sameDrawing_of_perm (d : Diagram) (subject : NamedType) (indent : String)
    (level : Nat) (text : String) {found order : List Relationship}
    (hfound : (d.relations.ofType subject).result = .ok found) (horder : order.Perm found) :
    Scene.SameDrawing ⟨d.catalog, d.settings, subject⟩
      ⟨[subject.qualifiedName], { indent, level, text }⟩ found order := by
  have hends : Relations.EndAt subject found := d.relations.ofType_endAt subject found hfound
  apply Scene.sameDrawing_of_endAt
  · simp [Writer.AtMargin, Writer.margin, Writer.prepend]
  · exact List.mem_cons_self
  · exact hends
  · exact horder

/-- A class with a known superclass and an unknown interface that a tag calls its
superclass: the first word of the stub depends on the order, and nothing else. -/
theorem Diagram.sameDrawing_reverse_of_tagged :
    let animal : NamedType :=
      { qualifiedName := "a.Animal", name := "Animal", package := "a",
        modifiers := ["abstract"], methods := [{ name := "speak", modifiers := ["abstract"] }] }
    let dog : NamedType :=
      { qualifiedName := "a.Dog", name := "Dog", package := "a",
        superclass := some "a.Animal", interfaces := [some "b.Pet"],
        tags := [("extends", "b.Pet")] }
    let d : Diagram := ⟨(Catalog.ofList [animal, dog]).value, {}⟩
    let found : List Relationship :=
      [⟨⟨"a.Animal", none⟩, "<|--", ⟨"a.Dog", none⟩, []⟩,
        ⟨⟨"b.Pet", none⟩, "<|..", ⟨"a.Dog", none⟩, []⟩,
        ⟨⟨"b.Pet", none⟩, "<|--", ⟨"a.Dog", none⟩, []⟩]
    (d.relations.ofType dog).result = .ok found ∧ found.reverse.Perm found ∧
      Scene.SameDrawing ⟨d.catalog, d.settings, dog⟩
        ⟨["a.Dog"], { indent := "  ", level := 0, text := "" }⟩ found found.reverse := by
  intro animal dog d found
  have hfound : (d.relations.ofType dog).result = .ok found := rfl
  exact ⟨hfound, List.reverse_perm found,
    d.sameDrawing_of_perm dog "  " 0 "" hfound (List.reverse_perm found)⟩

end ClassChart
