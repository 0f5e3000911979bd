import ClassChart.Proofs.Diagram.Lookup
import ClassChart.Proofs.Model.Catalog
import ClassChart.Proofs.Source.Documented
import ClassChart.Proofs.Source.NameTable
import ClassChart.Proofs.StableSort
import Mathlib.Data.List.Find
import Mathlib.Data.List.Sort

/-!
The order in which source files are read does not matter, as long as every type
has one declaration and every member stands in the file that declares its type.
-/
namespace ClassChart

/-- Every member stands in the file that declares its type. -/
def SourceFile.KeepsMembers (file : SourceFile) : Prop :=
  ∀ unit ∈ file.units, unit.isType = false → ∀ parent, unit.parentName = some parent →
    parent ∈ file.types.map SourceUnit.qualifiedName

/-- If at most one element gives anything, the order of the elements does not matter. -/
theorem flatMap_eq_of_perm {α β : Type} {f : α → List β} {as as' : List α}
    (hperm : as'.Perm as) (hone : as.Pairwise fun a b => f a = [] ∨ f b = []) :
    as'.flatMap f = as.flatMap f := by
  induction hperm with
  | nil => rfl
  | cons a _ ih =>
      rw [List.flatMap_cons, List.flatMap_cons, ih (List.pairwise_cons.mp hone).2]
  | swap a b rest =>
      have hempty := (List.pairwise_cons.mp hone).1 b List.mem_cons_self
      rcases hempty with ha | hb
      · simp [ha]
      · simp [hb]
  | trans hfirst hsecond ih₁ ih₂ =>
      have hmiddle := hone.perm hsecond.symm fun h => h.symm
      rw [ih₁ hmiddle, ih₂ hone]

section

variable {files files' : List SourceFile} (hperm : files'.Perm files)
  (hnames : ((files.flatMap SourceFile.types).map SourceUnit.qualifiedName).Nodup)
  (hmembers : ∀ file ∈ files, file.KeepsMembers)

include hnames hmembers in
/-- The members of one type stand in one file. -/
theorem pairwise_membersOf (owner : SourceUnit) :
    files.Pairwise fun a b =>
      SourceUnit.membersOf a.units owner = [] ∨ SourceUnit.membersOf b.units owner = [] := by
  have hdeclared : ∀ file ∈ files, SourceUnit.membersOf file.units owner ≠ [] →
      owner.qualifiedName ∈ file.types.map SourceUnit.qualifiedName := by
    intro file hfile hne
    obtain ⟨unit, hunit⟩ := List.exists_mem_of_ne_nil _ hne
    simp only [SourceUnit.membersOf, List.mem_filter, Bool.and_eq_true, Bool.not_eq_true',
      decide_eq_true_eq] at hunit
    exact hmembers file hfile unit hunit.1 hunit.2.1.1 _ hunit.2.2
  rw [List.map_flatMap, List.nodup_flatMap] at hnames
  refine hnames.2.imp_of_mem fun ha hb hdisjoint => ?_
  by_contra hboth
  rw [not_or] at hboth
  exact hdisjoint (hdeclared _ ha hboth.1) (hdeclared _ hb hboth.2)

include hperm hnames hmembers

/-- The members of a type do not depend on the order of the files. -/
theorem membersOf_perm (owner : SourceUnit) :
    SourceUnit.membersOf (files'.flatMap SourceFile.units) owner =
      SourceUnit.membersOf (files.flatMap SourceFile.units) owner := by
  rw [SourceUnit.membersOf, SourceUnit.membersOf, List.filter_flatMap, List.filter_flatMap]
  exact flatMap_eq_of_perm hperm (pairwise_membersOf hnames hmembers owner)

theorem typesOf_perm : (Catalog.typesOf files').Perm (Catalog.typesOf files) := by
  have hunits := hperm.flatMap_right SourceFile.units
  rw [← filter_isType_units] at hnames
  have htable := NameTable.agrees_of_perm hunits hnames
  rw [filter_isType_units] at hnames
  have htypes : (fun unit => SourceUnit.toNamedType unit
        (SourceUnit.membersOf (files'.flatMap SourceFile.units) unit)
        (.ofUnits (files'.flatMap SourceFile.units))) =
      fun unit => SourceUnit.toNamedType unit
        (SourceUnit.membersOf (files.flatMap SourceFile.units) unit)
        (.ofUnits (files.flatMap SourceFile.units)) := by
    funext unit
    rw [htable.toNamedType, membersOf_perm hperm hnames hmembers]
  rw [Catalog.typesOf, Catalog.typesOf, htypes]
  exact (hunits.filter SourceUnit.isType).map _

end

/-- Every declared type has a documented one under its name, in the same order. -/
theorem names_typesOf (files : List SourceFile) :
    (Catalog.typesOf files).map NamedType.qualifiedName =
      (files.flatMap SourceFile.types).map SourceUnit.qualifiedName := by
  rw [Catalog.typesOf, List.map_map, filter_isType_units]
  rfl

/-- The types of a catalog have one order by their names. -/
theorem Diagram.sortedTypes_eq_of_perm {d d' : Diagram}
    (hperm : d'.catalog.types.Perm d.catalog.types) : d'.sortedTypes = d.sortedTypes :=
  mergeSort_eq_of_perm d.catalog.distinct hperm

/-- Reading files in another order gives a catalog in which the same is found, and
the same diagrams in the same order. -/
theorem Catalog.ofFiles_perm {files files' : List SourceFile} (hperm : files'.Perm files)
    (hnames : ((files.flatMap SourceFile.types).map SourceUnit.qualifiedName).Nodup)
    (hmembers : ∀ file ∈ files, file.KeepsMembers) :
    (∀ name, (ofFiles files').value.find? name = (ofFiles files).value.find? name) ∧
      ∀ settings, Diagram.drawAll ⟨(ofFiles files').value, settings⟩ =
        Diagram.drawAll ⟨(ofFiles files).value, settings⟩ := by
  have htypes := typesOf_perm hperm hnames hmembers
  have hunique : ((typesOf files).map NamedType.qualifiedName).Nodup :=
    names_typesOf files ▸ hnames
  have hunique' : ((typesOf files').map NamedType.qualifiedName).Nodup :=
    (htypes.map _).nodup_iff.mpr hunique
  have hfind : (ofFiles files').value.find? = (ofFiles files).value.find? := by
    funext name
    rw [value_ofFiles, value_ofFiles, find?_ofList, find?_ofList,
      List.find?_eq_find?_of_perm htypes]
    rintro a ⟨ha, hname⟩ b ⟨hb, hname'⟩
    simp only [decide_eq_true_eq, htypes.mem_iff] at ha hb hname hname'
    exact List.inj_on_of_nodup_map hunique ha hb (hname.trans hname'.symm)
  refine ⟨congrFun hfind, fun settings => ?_⟩
  have hkept : (ofFiles files).value.types = typesOf files := types_ofList hunique
  have hkept' : (ofFiles files').value.types = typesOf files' := types_ofList hunique'
  have hsorted : Diagram.sortedTypes ⟨(ofFiles files').value, settings⟩ =
      Diagram.sortedTypes ⟨(ofFiles files).value, settings⟩ := by
    apply Diagram.sortedTypes_eq_of_perm
    rw [hkept, hkept']
    exact htypes
  have hdraw : Diagram.draw ⟨(ofFiles files').value, settings⟩ =
      Diagram.draw ⟨(ofFiles files).value, settings⟩ := by
    funext subject
    exact Diagram.draw_of_find?_eq hfind settings subject
  rw [Diagram.drawAll, Diagram.drawAll, hsorted, hdraw]

/-- Two files that use each other's types, read the other way round. -/
theorem Catalog.ofFiles_swap_two :
    let shape : SourceUnit :=
      { kind := .type .interfaceType, name := "Shape", qualifiedName := "p.Shape",
        package := "p", filePath := "p/Shape.java" }
    let border : SourceUnit :=
      { kind := .method, name := "border", qualifiedName := "p.Shape.border", package := "p",
        filePath := "p/Shape.java", parentName := some "p.Shape",
        returnType := some "Line", hasBody := false }
    let line : SourceUnit :=
      { kind := .type .classType, name := "Line", qualifiedName := "p.Line", package := "p",
        filePath := "p/Line.java", implemented := ["Shape"] }
    let one : SourceFile := ⟨"p/Shape.java", "java", "p", [shape, border], [], 1, []⟩
    let two : SourceFile := ⟨"p/Line.java", "java", "p", [line], [], 1, []⟩
    ((([one, two].flatMap SourceFile.types).map SourceUnit.qualifiedName).Nodup ∧
        one.KeepsMembers ∧ two.KeepsMembers) ∧
      (∀ name, (ofFiles [two, one]).value.find? name = (ofFiles [one, two]).value.find? name) ∧
      ∀ settings, Diagram.drawAll ⟨(ofFiles [two, one]).value, settings⟩ =
        Diagram.drawAll ⟨(ofFiles [one, two]).value, settings⟩ := by
  intro shape border line one two
  have hnames : (([one, two].flatMap SourceFile.types).map SourceUnit.qualifiedName).Nodup := by
    decide
  have hone : one.KeepsMembers := by
    intro unit hunit _ parent hparent
    simp only [one, List.mem_cons, List.not_mem_nil, or_false] at hunit
    rcases hunit with rfl | rfl
    · contradiction
    · cases hparent
      decide
  have htwo : two.KeepsMembers := by
    intro unit hunit htype
    rw [List.mem_singleton.mp hunit] at htype
    contradiction
  have hmembers : ∀ file ∈ [one, two], file.KeepsMembers := by
    simp [hone, htwo]
  exact ⟨⟨hnames, hone, htwo⟩, Catalog.ofFiles_perm (.swap one two []) hnames hmembers⟩

end ClassChart
