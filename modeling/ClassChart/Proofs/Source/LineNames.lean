import ClassChart.Proofs.Java.Names
import ClassChart.Proofs.Source.Hierarchy

/-!
The names that a diagram of source files can show stand on one line.  A name that is
looked up becomes one of the known or imported names or is written without blanks; only
a supertype of which nothing is left without its annotations stays as it is written.
-/
namespace ClassChart

open Text (Lacks)

namespace NameTable

/-- What is left of a written type has no blanks. -/
theorem lacks_erase (written : String) : Lacks '\n' (erase written) := by
  have hjoined : Lacks '\n'
      (String.join ((Text.words written).filter fun w => !Text.beginsWith "@" w)) := by
    rw [Text.lacks_join]
    exact fun word hword => Text.lacks_of_mem_words (List.mem_filter.mp hword).1 (by decide)
  exact (hjoined.upTo '<').trim

/-- A resolved name has no line end in it if neither the known names, the imports nor the written
name have. -/
theorem lacks_resolve {table : NameTable} {place : Place}
    (hknown : ∀ name, table.isKnown name = true → Lacks '\n' name)
    (himports : ∀ name ∈ place.imports, Lacks '\n' name) {written : String}
    (hwritten : erase written = "" → Lacks '\n' written) :
    Lacks '\n' (table.resolve place written) := by
  have hname := lacks_erase written
  rw [resolve]
  split
  · rename_i hempty
    exact hwritten (String.isEmpty_iff.mp hempty)
  · split
    · exact hname
    -- Unknown, known, imported itself, in an imported type, or of `java.lang`.
    · rcases table.lookUp_cases place (erase written) with h | h | ⟨i, hi, h | h⟩ | h
      · rw [h]
        exact hname
      · exact hknown _ h
      · rw [h]
        exact himports i hi
      · rw [h, Text.lacks_append, Text.lacks_append]
        exact ⟨⟨himports i hi, by decide⟩, hname.beyond '.'⟩
      · rw [h, Text.lacks_append]
        exact ⟨by decide, hname⟩

end NameTable

/-- The names of a type and of all that its declaration names stand on one line. -/
structure NamedType.NamedOnLine (type : NamedType) : Prop where
  qualifiedName : Lacks '\n' type.qualifiedName
  package : Lacks '\n' type.package
  superclass : ∀ name ∈ type.superclass, Lacks '\n' name
  interfaces : ∀ name, some name ∈ type.interfaces → Lacks '\n' name
  enclosingType : ∀ name ∈ type.enclosingType, Lacks '\n' name

namespace SourceUnit

theorem lacks_of_mem_superclass {unit : SourceUnit} {resolve : String → String}
    (hresolve : ∀ written ∈ unit.writtenSupertypes, Lacks '\n' (resolve written)) {name : String}
    (hname : name ∈ unit.superclass resolve) : Lacks '\n' name := by
  cases (unit.superclass_eq_some_iff resolve name).mp hname with
  | @named first rest hkind hextended =>
      refine hresolve first ?_
      simp [writtenSupertypes, (typeKind?_eq_some_iff unit _).mpr hkind, hextended]
  | record => decide
  | object => decide
  | enum => decide

theorem lacks_of_mem_interfaces {unit : SourceUnit} {resolve : String → String}
    (hresolve : ∀ written ∈ unit.writtenSupertypes, Lacks '\n' (resolve written)) {name : String}
    (hname : some name ∈ unit.interfaces resolve) : Lacks '\n' name := by
  have hwritten : ∀ written ∈ (if unit.typeKind? = some .interfaceType
      then unit.extended ++ unit.implemented else unit.implemented),
      written ∈ unit.writtenSupertypes := by
    intro written hmem
    unfold writtenSupertypes
    split at hmem
    · rename_i hkind
      rw [hkind]
      exact hmem
    · split
      · exact List.mem_append_right _ hmem
      · exact List.mem_append_right _ hmem
      · exact hmem
  obtain ⟨written, hmem, hnamed⟩ := List.mem_map.mp hname
  dsimp only at hnamed
  split at hnamed
  · cases hnamed
  · cases hnamed
    exact hresolve written (hwritten written hmem)

/-- A type that is named on one line has a documented type that is. -/
theorem namedOnLine_toNamedType {unit : SourceUnit} (hunit : unit.NamedOnLine)
    (members : List SourceUnit) {table : NameTable}
    (hresolve : ∀ written ∈ unit.writtenSupertypes,
      Lacks '\n' (table.resolve unit.outside written)) :
    (unit.toNamedType members table).NamedOnLine where
  qualifiedName := hunit.qualifiedName
  package := hunit.package
  superclass _ hname := lacks_of_mem_superclass hresolve hname
  interfaces _ hname := lacks_of_mem_interfaces hresolve hname
  enclosingType := hunit.parentName

end SourceUnit

/-- Source texts with packages that stand on one line, and so do all supertypes of which
nothing is left without their annotations. -/
structure SourceFile.LaidOut (files : List SourceFile) : Prop where
  read : ∀ file ∈ files, ∃ text filePath, file = ofText text filePath
  package : ∀ file ∈ files, Lacks '\n' file.package
  supertypes : ∀ unit ∈ files.flatMap types, ∀ written ∈ unit.writtenSupertypes,
    NameTable.erase written = "" → Lacks '\n' written

namespace SourceFile.LaidOut

variable {files : List SourceFile} (h : LaidOut files)

include h

theorem namedOnLine {unit : SourceUnit} (hunit : unit ∈ files.flatMap types) :
    unit.NamedOnLine ∧ ∀ name ∈ unit.imports, Lacks '\n' name := by
  obtain ⟨file, hfile, hmem⟩ := List.mem_flatMap.mp hunit
  obtain ⟨text, filePath, rfl⟩ := h.read file hfile
  exact namedOnLine_of_mem_types (h.package _ hfile) hmem

theorem lacks_of_isKnown {name : String}
    (hknown : (NameTable.ofUnits (files.flatMap units)).isKnown name = true) :
    Lacks '\n' name := by
  rw [NameTable.isKnown, NameTable.ofUnits, List.contains_iff_mem, List.mem_map,
    filter_isType_units] at hknown
  obtain ⟨unit, hunit, rfl⟩ := hknown
  exact (h.namedOnLine hunit).1.qualifiedName

/-- All names in a catalog of such files stand on one line. -/
theorem namedOnLine_of_mem_ofFiles {type : NamedType}
    (htype : type ∈ (Catalog.ofFiles files).value.types) : type.NamedOnLine := by
  have hmem := Catalog.types_ofList_subset _ (Catalog.value_ofFiles files ▸ htype)
  rw [Catalog.typesOf, filter_isType_units] at hmem
  obtain ⟨unit, hunit, rfl⟩ := List.mem_map.mp hmem
  obtain ⟨hnamed, himports⟩ := h.namedOnLine hunit
  refine SourceUnit.namedOnLine_toNamedType hnamed _ fun written hwritten => ?_
  exact NameTable.lacks_resolve (fun name hknown => h.lacks_of_isKnown hknown) himports
    (h.supertypes unit hunit written hwritten)

end SourceFile.LaidOut

namespace RelationTag

theorem lacks_target {catalog : Catalog} {type : NamedType} (hpackage : Lacks '\n' type.package)
    {name : String} (hname : Lacks '\n' name) : Lacks '\n' (target catalog type name) := by
  rw [target]
  split
  · exact hname
  · split
    · rw [Text.lacks_append, Text.lacks_append]
      exact ⟨⟨hpackage, by decide⟩, hname⟩
    · exact hname

end RelationTag

namespace Relations

/-- The relationships of a type whose names stand on one line are between such names. -/
theorem lacks_of_ofType {rs : Relations} {type : NamedType} (htype : type.NamedOnLine)
    {found : List Relationship} (hfound : (rs.ofType type).result = .ok found)
    {r : Relationship} (hr : r ∈ found) : Lacks '\n' r.left.name ∧ Lacks '\n' r.right.name := by
  obtain ⟨-, rfl⟩ := (result_ofType_eq_ok_iff rs type).mp hfound
  rcases mem_candidates_cases ((keepFirst_sublist _ _).subset hr) with
    ⟨arrow, name, rfl, hsuper | hinterface | henclosing⟩ | ⟨tag, text, hstated⟩
  · exact ⟨htype.superclass name hsuper, htype.qualifiedName⟩
  · exact ⟨htype.interfaces name hinterface, htype.qualifiedName⟩
  · exact ⟨htype.enclosingType name henclosing, htype.qualifiedName⟩
  · obtain ⟨-, hright, name, hname, hleft⟩ := tag.of_stated_eq_some _ _ hstated
    have hword : Lacks '\n' name := Text.lacks_of_mem_words hname (by decide)
    exact ⟨hleft ▸ RelationTag.lacks_target htype.package hword, hright ▸ htype.qualifiedName⟩

end Relations

end ClassChart
