import ClassChart.Proofs.Diagram.DrawnText
import ClassChart.Proofs.Source.LineNames

/-!
The headers of declarations.  A header is a line of the diagram exactly if the name
and the type parameters in it have no line end.  Names that are read from laid out
source files have none, but a type parameter is shown as it was written.
-/
namespace ClassChart

open Text (Lacks Ended)
open Writer (page spaced append_page whitespace_page newline_page spaced_append spaced_eq)

/-- What a diagram declares: a known type with members that are to be shown, or the stub of
an unknown one. -/
inductive Declaration where
  | known (type : NamedType) (fields : List Field) (methods : List Method)
  | stub (name : String) (isInterface : Bool)
deriving Repr, DecidableEq

/-- Whether some of the members are shown. -/
def MemberBlock.isShown (fields : List Field) (methods : List Method) (s : Settings) : Bool :=
  fields.any (s.shows ·.visibility) || methods.any (s.shows ·.visibility)

namespace Declaration

def name : Declaration → String
  | .known type _ _ => type.qualifiedName
  | .stub name _ => name

def typeParameters : Declaration → List String
  | .known type _ _ => type.typeParameters
  | .stub _ _ => []

/-- The keyword, the name and the type parameters of a type. -/
def lead (scene : Scene) (type : NamedType) : String :=
  type.keyword ++ " " ++ scene.shorten type.qualifiedName ++ type.generics

/-- The header of a declaration, with the brace that opens its members if it shows any. -/
def header (scene : Scene) : Declaration → String
  | .known type fields methods =>
      if MemberBlock.isShown fields methods scene.settings then
        spaced (lead scene type) ++ "\x7b"
      else lead scene type
  | .stub name isInterface =>
      spaced ((if isInterface then "interface" else "class") ++ " " ++ scene.shorten name) ++
        Stroke.unknownMark

end Declaration

theorem NamedType.lacks_newline_keyword (type : NamedType) : Lacks '\n' type.keyword := by
  have hall : ∀ s ∈ Stroke.keywords, Lacks '\n' s := by decide
  exact hall _ (Stroke.keyword_mem_keywords type)

namespace Declaration

/-- A header is on one line if the shown name and all type parameters are. -/
theorem lacks_lead_iff (scene : Scene) (type : NamedType) :
    Lacks '\n' (lead scene type) ↔
      Lacks '\n' (scene.shorten type.qualifiedName) ∧
        ∀ p ∈ type.typeParameters, Lacks '\n' p := by
  have hspace : Lacks '\n' " " := by decide
  have hgenerics : Lacks '\n' type.generics ↔ ∀ p ∈ type.typeParameters, Lacks '\n' p :=
    type.lacks_generics (by decide) (by decide) (by decide)
  simp only [lead, Text.lacks_append, type.lacks_newline_keyword, hspace, hgenerics, true_and]

/-- A header has line ends only from the name that it shows and from type parameters. -/
theorem lacks_header_iff (scene : Scene) (declaration : Declaration) :
    Lacks '\n' (declaration.header scene) ↔
      Lacks '\n' (scene.shorten declaration.name) ∧
        ∀ p ∈ declaration.typeParameters, Lacks '\n' p := by
  have hspaced {s : String} : Lacks '\n' (spaced s) ↔ Lacks '\n' s :=
    Writer.lacks_spaced (by decide)
  cases declaration with
  | known type fields methods =>
      rw [header]
      split
      · rw [Text.lacks_append, and_iff_left (by decide), hspaced]
        exact lacks_lead_iff scene type
      · exact lacks_lead_iff scene type
  | stub name isInterface =>
      have hkeyword : Lacks '\n' (if isInterface then "interface" else "class") := by
        split <;> decide
      rw [header, Text.lacks_append, and_iff_left (by decide), hspaced, Text.lacks_append,
        Text.lacks_append, and_iff_right ⟨hkeyword, by decide⟩]
      exact (and_iff_left fun p hp => absurd hp List.not_mem_nil).symm

end Declaration

namespace MemberBlock

theorem isEmpty_eq_not_isShown (fields : List Field) (methods : List Method) (s : Settings) :
    ((fields.filter (s.shows ·.visibility)).isEmpty &&
        ((orderMethods methods).filter (s.shows ·.visibility)).isEmpty) =
      !isShown fields methods s := by
  rw [Bool.eq_iff_iff, isShown]
  simp only [Bool.and_eq_true, List.isEmpty_iff, List.filter_eq_nil_iff, Bool.not_eq_true',
    Bool.or_eq_false_iff, List.any_eq_false, orderMethods, List.mem_mergeSort]

/-- A block begins with a brace on the line before it. -/
theorem exists_text_write (fields : List Field) (methods : List Method) (s : Settings)
    (t : String) :
    ∃ more, ((write fields methods s (page t)).newline).text =
      (if isShown fields methods s then spaced t ++ "\x7b" else t) ++ "\n" ++ more := by
  rw [write, isEmpty_eq_not_isShown]
  cases isShown fields methods s with
  | false => exact ⟨"", by rw [String.append_empty]; rfl⟩
  | true =>
      have hmembers : Writer.Writes (fun _ => True) fun w =>
          ((w.indented fun w => ((orderMethods methods).filter (s.shows ·.visibility)).foldl
            (fun w m => m.write s w)
            ((fields.filter (s.shows ·.visibility)).foldl (fun w f => f.write s w) w)).append
              "\x7d").newline :=
        .comp (g := Writer.newline) (.comp (.indented (.comp
          (.foldl fun f _ => f.writes (fun _ _ => trivial) s fun _ _ => trivial)
          (.foldl fun m _ => m.writes (fun _ _ => trivial) s fun _ _ => trivial)))
          (.append trivial)) .newline
      obtain ⟨more, hmore⟩ := hmembers.appends.exists_text_eq (page (spaced t ++ "\x7b" ++ "\n"))
      refine ⟨more, ?_⟩
      rw [whitespace_page, append_page, newline_page]
      exact hmore

end MemberBlock

namespace Stroke

variable (scene : Scene)

theorem spaced_append_keyword (s : String) {keyword : String} (hkeyword : keyword ∈ keywords) :
    spaced (s ++ keyword) = s ++ keyword ++ " " := by
  have hall : ∀ s ∈ keywords, s ≠ "" ∧ Text.isBlank (Writer.lastOf s) = false := by decide
  obtain ⟨hne, hlast⟩ := hall keyword hkeyword
  rw [spaced_append s hne, spaced_eq hlast, String.append_assoc]

/-- The declaration of a type begins with its header. -/
theorem exists_text_writeDeclaration (type : NamedType) (fields : List Field)
    (methods : List Method) (s : String) :
    ∃ more, (writeDeclaration scene type fields methods (page s)).text =
      s ++ (Declaration.known type fields methods).header scene ++ "\n" ++ more := by
  have hlead : Declaration.lead scene type ≠ "" := by simp [Declaration.lead]
  obtain ⟨more, hmore⟩ := MemberBlock.exists_text_write fields methods scene.settings
    (s ++ Declaration.lead scene type)
  refine ⟨more, ?_⟩
  have hpage : (((page s).append type.keyword).whitespace.append
      (scene.shorten type.qualifiedName)).append type.generics =
        page (s ++ Declaration.lead scene type) := by
    simp only [append_page, whitespace_page, spaced_append_keyword s (keyword_mem_keywords type),
      Declaration.lead, String.append_assoc]
  rw [writeDeclaration, hpage, hmore, Declaration.header]
  split
  · rw [spaced_append s hlead]
    simp only [String.append_assoc]
  · rfl

theorem text_stub (name : String) (isInterface : Bool) :
    text scene (page "") (.stub name isInterface) =
      (Declaration.stub name isInterface).header scene ++ "\n" := by
  have hkeyword : (if isInterface then "interface" else "class") ∈ keywords := by
    split <;> simp [keywords]
  have hmargin : (page "").margin = page "" := rfl
  have hspaced := spaced_append_keyword "" hkeyword
  rw [String.empty_append] at hspaced
  rw [text, write, writeStub, hmargin]
  simp only [append_page, whitespace_page, newline_page, String.empty_append, hspaced]
  rfl

/-- What a stroke declares. -/
def declaration? : Stroke → Option Declaration
  | .stub name isInterface => some (.stub name isInterface)
  | .box type methods => some (.known type [] methods)
  | _ => none

theorem declares?_eq_of_declaration? {stroke : Stroke} {declaration : Declaration}
    (hdeclaration : stroke.declaration? = some declaration) :
    stroke.declares? = some declaration.name := by
  cases stroke <;> cases hdeclaration <;> rfl

/-- A box begins with the header of what it declares. -/
theorem exists_text_of_declaration? {stroke : Stroke} {declaration : Declaration}
    (hdeclaration : stroke.declaration? = some declaration) :
    ∃ more, stroke.text scene (page "") = declaration.header scene ++ "\n" ++ more := by
  cases stroke with
  | reserve name => contradiction
  | stub name isInterface =>
      cases hdeclaration
      exact ⟨"", by rw [text_stub, String.append_empty]⟩
  | box type methods =>
      cases hdeclaration
      obtain ⟨more, hmore⟩ := exists_text_writeDeclaration scene type [] methods ""
      rw [String.empty_append] at hmore
      exact ⟨more, hmore⟩
  | line r => contradiction

end Stroke

/-- All that the diagram of the subject declares: the subject with all its members, and the
types at the other ends of its relationships. -/
def Scene.declarations (scene : Scene) (found : List Relationship) : List Declaration :=
  .known scene.subject scene.subject.fields scene.subject.methods ::
    (scene.strokes (Diagram.openWith scene) found).filterMap Stroke.declaration?

namespace Diagram

/-- The declaration of the subject stands after the first line. -/
theorem exists_text_openWith (scene : Scene) :
    ∃ more, (openWith scene).writer.text =
      "@startuml\n" ++ (Declaration.known scene.subject scene.subject.fields
        scene.subject.methods).header scene ++ "\n" ++ more := by
  obtain ⟨more, hmore⟩ := Stroke.exists_text_writeDeclaration scene scene.subject
    scene.subject.fields scene.subject.methods "@startuml\n"
  refine ⟨more ++ "\n", ?_⟩
  rw [writer_openWith, ← String.append_assoc, ← hmore]
  rfl

/-- Every declaration begins a line of the diagram, and a line ends after its header. -/
theorem exists_text_of_mem_declarations {scene : Scene} {found : List Relationship}
    {declaration : Declaration} (hmem : declaration ∈ scene.declarations found) (close : String) :
    ∃ before after, Ended before ∧
      (openWith scene).writer.text ++
          String.join ((scene.strokes (openWith scene) found).map (Stroke.text scene (page ""))) ++
          close =
        before ++ declaration.header scene ++ "\n" ++ after := by
  rcases List.mem_cons.mp hmem with rfl | hmem
  · obtain ⟨more, hmore⟩ := exists_text_openWith scene
    refine ⟨"@startuml\n", more ++ String.join ((scene.strokes (openWith scene) found).map
      (Stroke.text scene (page ""))) ++ close, .inr ⟨"@startuml", rfl⟩, ?_⟩
    rw [hmore]
    simp only [String.append_assoc]
  · obtain ⟨stroke, hstroke, hdeclaration⟩ := List.mem_filterMap.mp hmem
    obtain ⟨more, hmore⟩ := Stroke.exists_text_of_declaration? scene hdeclaration
    obtain ⟨first, rest, hsplit⟩ := List.append_of_mem hstroke
    have hfirst : Ended (String.join (first.map (Stroke.text scene (page "")))) := by
      refine Text.ended_join (List.forall_mem_map.mpr fun s _ => ?_)
      exact s.ended_text scene _
    refine ⟨(openWith scene).writer.text ++ String.join (first.map (Stroke.text scene (page ""))),
      more ++ String.join (rest.map (Stroke.text scene (page ""))) ++ close,
      (ended_openWith scene).append hfirst, ?_⟩
    rw [hsplit, List.map_append, List.map_cons, String.join_append, String.join_cons, hmore]
    simp only [String.append_assoc]

theorem lacks_name_of_mem_declarations {scene : Scene} {found : List Relationship}
    (hsubject : Lacks '\n' scene.subject.qualifiedName)
    (hends : ∀ r ∈ found, Lacks '\n' r.left.name ∧ Lacks '\n' r.right.name)
    {declaration : Declaration} (hmem : declaration ∈ scene.declarations found) :
    Lacks '\n' declaration.name := by
  rcases List.mem_cons.mp hmem with rfl | hmem
  · exact hsubject
  · obtain ⟨stroke, hstroke, hdeclaration⟩ := List.mem_filterMap.mp hmem
    have hname : declaration.name ∈
        (scene.strokes (openWith scene) found).filterMap Stroke.declares? :=
      List.mem_filterMap.mpr ⟨stroke, hstroke, Stroke.declares?_eq_of_declaration? hdeclaration⟩
    obtain ⟨-, link, hlink, hend⟩ := (Canvas.mem_declares_strokesForAll scene).mp hname
    obtain ⟨r, hr, rfl⟩ := List.mem_map.mp hlink
    simp only [Link.ofRelationship, List.mem_cons, List.not_mem_nil, or_false] at hend
    rcases hend with hend | hend
    · exact hend ▸ (hends r hr).1
    · exact hend ▸ (hends r hr).2

/-- Every declaration in a diagram begins a line, and its header is the whole line exactly if
neither the name that it shows nor a type parameter has a line end.  In a diagram of source
texts that are laid out so that names have none, type parameters alone decide. -/
theorem header_mem_lines_iff (files : List SourceFile) (settings : Settings) {subject : NamedType}
    (hsubject : subject ∈ (Catalog.ofFiles files).value.types) {found : List Relationship}
    (hfound : ((Diagram.mk (Catalog.ofFiles files).value settings).relations.ofType
      subject).result = .ok found) :
    let d : Diagram := ⟨(Catalog.ofFiles files).value, settings⟩
    let scene : Scene := ⟨d.catalog, d.settings, subject⟩
    ∃ text, (d.draw subject).result = .ok text ∧
      ∀ declaration ∈ scene.declarations found,
        (∃ before after, Ended before ∧
          text = before ++ declaration.header scene ++ "\n" ++ after) ∧
        (declaration.header scene ∈ Text.lines text ↔
          Lacks '\n' (scene.shorten declaration.name) ∧
            ∀ p ∈ declaration.typeParameters, Lacks '\n' p) ∧
        (SourceFile.LaidOut files →
          (declaration.header scene ∈ Text.lines text ↔
            ∀ p ∈ declaration.typeParameters, Lacks '\n' p)) := by
  intro d scene
  refine ⟨_, result_draw hfound, fun declaration hmem => ?_⟩
  obtain ⟨before, after, hbefore, htext⟩ :=
    exists_text_of_mem_declarations hmem "@enduml\n"
  have hiff : declaration.header scene ∈ Text.lines _ ↔ _ :=
    (Text.mem_lines_iff hbefore after).trans (declaration.lacks_header_iff scene)
  rw [← htext] at hiff
  refine ⟨⟨before, after, hbefore, htext⟩, hiff, fun hfiles => hiff.trans (and_iff_right ?_)⟩
  have hnamed := hfiles.namedOnLine_of_mem_ofFiles hsubject
  refine scene.lacks_shorten (lacks_name_of_mem_declarations hnamed.qualifiedName ?_ hmem)
  exact fun r hr => Relations.lacks_of_ofType hnamed hfound hr

/-- A class that is written over several lines, but each type parameter on one. -/
theorem header_mem_lines_split_list :
    let files : List SourceFile :=
      [.ofText "package p;\nclass\n  Box<T,\n  U extends Number> \x7b\x7d\n" "p/Box.java"]
    let box : NamedType :=
      { qualifiedName := "p.Box", name := "Box", package := "p",
        typeParameters := ["T", "U extends Number"], superclass := some "java.lang.Object",
        filePath := some "p/Box.java" }
    SourceFile.LaidOut files ∧ box ∈ (Catalog.ofFiles files).value.types ∧
      ((Diagram.mk (Catalog.ofFiles files).value {}).relations.ofType box).result = .ok [] ∧
      ∃ text, ((Diagram.mk (Catalog.ofFiles files).value {}).draw box).result = .ok text ∧
        "class Box<T, U extends Number>" ∈ Text.lines text := by
  intro files box
  obtain ⟨hpackage, hsupertypes, hbox, hcandidates, hheader⟩ :
      (∀ file ∈ files, Lacks '\n' file.package) ∧
      (∀ unit ∈ files.flatMap SourceFile.types, ∀ written ∈ unit.writtenSupertypes,
        NameTable.erase written = "" → Lacks '\n' written) ∧
      box ∈ (Catalog.ofFiles files).value.types ∧
      (Diagram.mk (Catalog.ofFiles files).value {}).relations.candidates box = [] ∧
      (Declaration.known box box.fields box.methods).header
        ⟨(Catalog.ofFiles files).value, {}, box⟩ = "class Box<T, U extends Number>" := by
    decide +kernel
  have hfiles : SourceFile.LaidOut files :=
    ⟨List.forall_mem_singleton.mpr ⟨_, _, rfl⟩, hpackage, hsupertypes⟩
  have hfound :
      ((Diagram.mk (Catalog.ofFiles files).value {}).relations.ofType box).result = .ok [] := by
    rw [Relations.result_ofType_eq_ok_iff, hcandidates]
    exact ⟨fun r hr => absurd hr List.not_mem_nil, rfl⟩
  obtain ⟨text, htext, hall⟩ := header_mem_lines_iff files {} hbox hfound
  have hiff := (hall _ List.mem_cons_self).2.2 hfiles
  -- Unless the header is the same term on both sides, comparing them parses the source.
  dsimp only at hiff
  rw [hheader] at hiff
  exact ⟨hfiles, hbox, hfound, text, htext, hiff.mpr (by decide)⟩

/-- A bound that stands on a line of its own divides the header of its class. -/
theorem header_not_mem_lines_divided_bound :
    let files : List SourceFile := [.ofText "class A<T extends\n  B> \x7b\x7d\n" "A.java"]
    let d : Diagram := ⟨(Catalog.ofFiles files).value, {}⟩
    let a : NamedType :=
      { qualifiedName := "A", name := "A", package := "", typeParameters := ["T extends\n  B"],
        superclass := some "java.lang.Object", filePath := some "A.java" }
    let text := "@startuml\nclass A<T extends\n  B>\n\n@enduml\n"
    d.catalog.find? "A" = some a ∧ (d.draw a).result.toOption = some text ∧
      (Declaration.known a [] []).header ⟨d.catalog, d.settings, a⟩ = "class A<T extends\n  B>" ∧
      "class A<T extends\n  B>" ∉ Text.lines text := by
  decide +kernel

end Diagram

end ClassChart
