import ClassChart.Proofs.Diagram.DrawnText
import ClassChart.Proofs.Diagram.StatedTags
import ClassChart.Proofs.Source.Hierarchy

/-!
The diagrams of source files can always be drawn.  Drawing fails only at an end of a
relationship that has no name, and no name gets lost on the way there: neither where
written names are resolved nor where the words of a tag are read.
-/
namespace ClassChart

/-- A type that has a name, and so has every type that its declaration names. -/
structure NamedType.WellNamed (type : NamedType) : Prop where
  qualifiedName : type.qualifiedName ≠ ""
  superclass : type.superclass ≠ some ""
  interfaces : some "" ∉ type.interfaces
  enclosingType : type.enclosingType ≠ some ""

/-- Both ends of every edge of such a type have a name, whatever is excluded and whether
or not tags are read. -/
theorem NamedType.WellNamed.named {type : NamedType} (htype : type.WellNamed) {rs : Relations}
    {r : Relationship} (hr : r ∈ rs.candidates type) : r.Named := by
  rcases Relations.mem_candidates_cases hr with
    ⟨arrow, name, rfl, hsuper | hinterface | henclosing⟩ | ⟨tag, text, hstated⟩
  · refine ⟨fun hempty => htype.superclass ?_, htype.qualifiedName⟩
    exact hsuper.trans (congrArg some hempty)
  · refine ⟨fun hempty => htype.interfaces ?_, htype.qualifiedName⟩
    change name = "" at hempty
    exact hempty ▸ hinterface
  · refine ⟨fun hempty => htype.enclosingType ?_, htype.qualifiedName⟩
    exact henclosing.trans (congrArg some hempty)
  · exact RelationTag.named_of_stated htype.qualifiedName hstated

theorem Diagram.exists_result_draw {type : NamedType} (htype : type.WellNamed) (d : Diagram) :
    ∃ text, (d.draw type).result = .ok text := by
  have hfound : (d.relations.ofType type).result =
      .ok (keepFirst Relationship.sameEdge (d.relations.candidates type)) :=
    (Relations.result_ofType_eq_ok_iff _ _).mpr ⟨fun _ hr => htype.named hr, rfl⟩
  exact ⟨_, result_draw hfound⟩

namespace SourceUnit

/-- An interface without a name is none at all. -/
theorem empty_not_mem_interfaces (unit : SourceUnit) (resolve : String → String) :
    some "" ∉ unit.interfaces resolve := by
  intro hmem
  obtain ⟨written, -, hnamed⟩ := List.mem_map.mp hmem
  dsimp only at hnamed
  split at hnamed
  · contradiction
  · rename_i hname
    rw [Option.some.inj hnamed] at hname
    exact hname rfl

theorem WellNamed.toNamedType {unit : SourceUnit} (hunit : unit.WellNamed) {table : NameTable}
    (hknown : ∀ name, table.isKnown name = true → name ≠ "") (members : List SourceUnit) :
    (unit.toNamedType members table).WellNamed where
  qualifiedName := hunit.qualifiedName
  superclass hsuper := by
    have hextends := (unit.superclass_eq_some_iff (table.resolve unit.outside) "").mp hsuper
    refine hunit.extends_ne_empty (fun written hwritten => ?_) hextends rfl
    exact NameTable.resolve_ne_empty hknown hunit.imports hwritten
  interfaces := unit.empty_not_mem_interfaces _
  enclosingType := hunit.parentName

end SourceUnit

namespace Catalog

variable {files : List SourceFile}
  (hwell : ∀ unit ∈ files.flatMap SourceFile.types, unit.WellNamed)

include hwell

theorem wellNamed_of_mem_ofFiles {type : NamedType}
    (htype : type ∈ (ofFiles files).value.types) : type.WellNamed := by
  have hmem := types_ofList_subset _ (value_ofFiles files ▸ htype)
  rw [typesOf, filter_isType_units] at hmem
  obtain ⟨unit, hunit, rfl⟩ := List.mem_map.mp hmem
  refine (hwell unit hunit).toNamedType (fun name hknown => ?_) _
  refine NameTable.ne_empty_of_isKnown (fun other hother => ?_) hknown
  exact (hwell other (filter_isType_units files ▸ hother)).qualifiedName

/-- Every type of source files is found under its name and has a diagram, and so they can
be drawn all together.  No name need be known, types may be declared twice and may even
claim to stand in each other. -/
theorem result_drawAll_ofFiles (settings : Settings) :
    let d : Diagram := ⟨(ofFiles files).value, settings⟩
    ∃ text : NamedType → String,
      (∀ type ∈ d.catalog.types, d.catalog.find? type.qualifiedName = some type ∧
        (d.drawNamed type.qualifiedName).result = .ok (text type)) ∧
      d.drawAll.result = .ok (d.sortedTypes.map fun type => (type.qualifiedName, text type)) := by
  intro d
  have hdraw : ∀ type : NamedType, ∃ text, type ∈ d.catalog.types →
      (d.draw type).result = .ok text := by
    intro type
    by_cases htype : type ∈ d.catalog.types
    · obtain ⟨text, htext⟩ := d.exists_result_draw (wellNamed_of_mem_ofFiles hwell htype)
      exact ⟨text, fun _ => htext⟩
    · exact ⟨"", fun hmem => absurd hmem htype⟩
  choose text htext using hdraw
  refine ⟨text, fun type htype => ?_, ?_⟩
  · have hfind : d.catalog.find? type.qualifiedName = some type :=
      find?_of_mem htype (wellNamed_of_mem_ofFiles hwell htype).qualifiedName
    refine ⟨hfind, ?_⟩
    rw [Diagram.drawNamed, hfind]
    exact htext type htype
  · refine Attempt.result_mapM fun type htype => ?_
    rw [Attempt.result_bind, htext type (List.mem_mergeSort.mp htype)]
    rfl

end Catalog

/-- A class with a comment for a superclass, an annotated interface that is nowhere
declared, tags of all shapes and a namesake in a second file. -/
theorem Catalog.result_drawAll_two_files :
    let files : List SourceFile :=
      [.ofText ("package p;\n/** @depend Log\n * @has 1 - * Leg\n * @assoc x y */\n" ++
          "class Dog extends /**/ Animal implements @Pet Tame \x7b class Tail \x7b\x7d \x7d\n")
        "p/Dog.java",
        .ofText "package p;\nenum Dog \x7b A \x7d\n" "q/Dog.java"]
    let d : Diagram := ⟨(ofFiles files).value,
      { relationTags := true, excludedReferences := ["java.lang.Object"] }⟩
    (∀ unit ∈ files.flatMap SourceFile.types, unit.WellNamed) ∧
    d.catalog.types.map NamedType.qualifiedName = ["p.Dog", "p.Dog.Tail"] ∧
    (∀ type ∈ d.catalog.types, ∃ text, (d.drawNamed type.qualifiedName).result = .ok text) ∧
    ∃ drawings, d.drawAll.result = .ok drawings := by
  intro files d
  obtain ⟨hwell, hnames⟩ : (∀ unit ∈ files.flatMap SourceFile.types, unit.WellNamed) ∧
      d.catalog.types.map NamedType.qualifiedName = ["p.Dog", "p.Dog.Tail"] := by
    decide +kernel
  obtain ⟨text, hnamed, hall⟩ := result_drawAll_ofFiles hwell d.settings
  exact ⟨hwell, hnames, fun type htype => ⟨text type, (hnamed type htype).2⟩, _, hall⟩

end ClassChart
