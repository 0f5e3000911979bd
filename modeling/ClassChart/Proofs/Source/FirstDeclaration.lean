import ClassChart.Proofs.Model.Catalog
import ClassChart.Proofs.Source.Documented
import ClassChart.Proofs.Source.NameTable
import ClassChart.Source.File
import Mathlib.Data.List.TakeWhile

/-!
Types that are declared more than once.  The catalog keeps the first declaration,
but members are collected by the name of their type alone, so the members of later
declarations are kept with it.
-/
namespace ClassChart

namespace SourceUnit

/-- Whether a unit is a member of the type of this name. -/
def isMemberOf (name : String) (unit : SourceUnit) : Bool :=
  !unit.isType && !name.isEmpty && unit.parentName = some name

/-- Whether a unit declares the type of this name or is one of its members. -/
def concerns (name : String) (unit : SourceUnit) : Bool :=
  unit.declares name || unit.isMemberOf name

/-- The units of a file from its second declaration of a type on. -/
def fromSecond (name : String) (units : List SourceUnit) : List SourceUnit :=
  ((units.dropWhile (!·.declares name)).drop 1).dropWhile (!·.declares name)

/-- The units of a file up to its second declaration of a type. -/
def upToSecond (name : String) (units : List SourceUnit) : List SourceUnit :=
  units.takeWhile (!·.declares name) ++
    match units.dropWhile (!·.declares name) with
    | [] => []
    | first :: more => first :: more.takeWhile (!·.declares name)

end SourceUnit

open SourceUnit

/-- A file without a type and its members. -/
def SourceFile.without (name : String) (file : SourceFile) : SourceFile :=
  { file with units := file.units.filter (!·.concerns name) }

/-- Files without the later declarations of a type and their members: left are its
first declaration and, in the same file, the members up to the second. -/
def firstOnly (name : String) : List SourceFile → List SourceFile
  | [] => []
  | file :: rest =>
      if file.units.any (declares name) then
        { file with
          units := upToSecond name file.units ++
            (fromSecond name file.units).filter (!·.concerns name) } ::
          rest.map (SourceFile.without name)
      else file.without name :: firstOnly name rest

/-- The members of a type that do not stand with its first declaration. -/
def strayMembers (name : String) : List SourceFile → List SourceUnit
  | [] => []
  | file :: rest =>
      if file.units.any (declares name) then
        (fromSecond name file.units ++ rest.flatMap SourceFile.units).filter (isMemberOf name)
      else file.units.filter (isMemberOf name) ++ strayMembers name rest

namespace SourceUnit

theorem upToSecond_append_fromSecond (name : String) (units : List SourceUnit) :
    upToSecond name units ++ fromSecond name units = units := by
  rw [upToSecond, fromSecond, List.append_assoc]
  conv_rhs => rw [← List.takeWhile_append_dropWhile (p := (!declares name ·)) (l := units)]
  cases units.dropWhile (!·.declares name) with
  | nil => rfl
  | cons first more => simp

theorem declarations_takeWhile (name : String) (units : List SourceUnit) :
    declarations (units.takeWhile (!·.declares name)) name = [] := by
  rw [declarations, List.filter_eq_nil_iff]
  intro unit hunit
  simpa using List.mem_takeWhile_imp hunit

theorem declarations_upToSecond (name : String) (units : List SourceUnit) :
    declarations (upToSecond name units) name = (declarations units name).head?.toList := by
  have hsplit := List.takeWhile_append_dropWhile (p := (!declares name ·)) (l := units)
  have hbefore := declarations_takeWhile name units
  cases hrest : units.dropWhile (!·.declares name) with
  | nil =>
      rw [hrest, List.append_nil] at hsplit
      rw [hsplit] at hbefore
      simp [upToSecond, hrest, hsplit, hbefore]
  | cons first more =>
      have hfirst : first.declares name = true := by
        have hhead := List.head?_dropWhile_not (!declares name ·) units
        simpa [hrest] using hhead
      have hbody := declarations_takeWhile name more
      rw [hrest] at hsplit
      conv_rhs => rw [← hsplit]
      rw [declarations] at hbefore hbody
      simp [upToSecond, declarations, hrest, hfirst, hbefore, hbody]

end SourceUnit

theorem flatMap_units_without (name : String) (files : List SourceFile) :
    (files.map (SourceFile.without name)).flatMap SourceFile.units =
      (files.flatMap SourceFile.units).filter (!·.concerns name) := by
  rw [List.flatMap_map, List.filter_flatMap]
  rfl

/-- The units that belong to the first declaration stand together, and of the units
around them only those are left that do not concern the type. -/
theorem exists_split_firstOnly {name : String} {files : List SourceFile} {first : SourceUnit}
    (hfirst : (declarations (files.flatMap SourceFile.units) name).head? = some first) :
    ∃ before own after : List SourceUnit,
      files.flatMap SourceFile.units = before ++ own ++ after ∧
      (firstOnly name files).flatMap SourceFile.units =
        before.filter (!·.concerns name) ++ own ++ after.filter (!·.concerns name) ∧
      strayMembers name files = (before ++ after).filter (isMemberOf name) ∧
      declarations before name = [] ∧ declarations own name = [first] := by
  induction files with
  | nil => simp [declarations] at hfirst
  | cons file rest ih =>
      rw [List.flatMap_cons, declarations_append] at hfirst
      by_cases hdeclares : file.units.any (declares name) = true
      · have hne : declarations file.units name ≠ [] := by
          simpa [declarations] using hdeclares
        refine ⟨[], upToSecond name file.units,
          fromSecond name file.units ++ rest.flatMap SourceFile.units, ?_, ?_, ?_, rfl, ?_⟩
        · rw [List.nil_append, ← List.append_assoc, upToSecond_append_fromSecond,
            List.flatMap_cons]
        · rw [firstOnly, if_pos hdeclares, List.flatMap_cons, flatMap_units_without]
          simp
        · rw [strayMembers, if_pos hdeclares, List.nil_append]
        · rw [List.head?_append_of_ne_nil _ hne] at hfirst
          rw [declarations_upToSecond, hfirst, Option.toList_some]
      · have hnone : declarations file.units name = [] := by
          simpa [declarations] using hdeclares
        rw [hnone, List.nil_append] at hfirst
        obtain ⟨before, own, after, hunits, hleft, hstray, hbefore, hown⟩ := ih hfirst
        refine ⟨file.units ++ before, own, after, ?_, ?_, ?_, ?_, hown⟩
        · rw [List.flatMap_cons, hunits]
          simp
        · rw [firstOnly, if_neg hdeclares, List.flatMap_cons, hleft, SourceFile.without]
          simp
        · rw [strayMembers, if_neg hdeclares, hstray]
          simp
        · rw [declarations_append, hnone, hbefore, List.append_nil]

section

variable {name : String} {files : List SourceFile} {first : SourceUnit}
  (hfirst : (declarations (files.flatMap SourceFile.units) name).head? = some first)

include hfirst

/-- The members with the first declaration, and the others. -/
theorem filter_isMemberOf_perm :
    ((files.flatMap SourceFile.units).filter (isMemberOf name)).Perm
      (((firstOnly name files).flatMap SourceFile.units).filter (isMemberOf name) ++
        strayMembers name files) := by
  obtain ⟨before, own, after, hunits, hleft, hstray, -, -⟩ := exists_split_firstOnly hfirst
  have hgone (units : List SourceUnit) :
      (units.filter (!·.concerns name)).filter (isMemberOf name) = [] := by
    simp +contextual [concerns]
  rw [hunits, hleft, hstray]
  simp only [List.filter_append, hgone, List.nil_append, List.append_nil]
  rw [← List.append_assoc]
  exact List.perm_append_comm.append_right _

theorem firstOnly_sublist :
    ((firstOnly name files).flatMap SourceFile.units).Sublist
      (files.flatMap SourceFile.units) := by
  obtain ⟨before, own, after, hunits, hleft, -, -, -⟩ := exists_split_firstOnly hfirst
  rw [hunits, hleft]
  exact ((List.filter_sublist).append (List.Sublist.refl own)).append List.filter_sublist

/-- The first declaration keeps its members exactly if none of them stand elsewhere. -/
theorem membersOf_firstOnly_iff (hname : first.qualifiedName = name) :
    membersOf ((firstOnly name files).flatMap SourceFile.units) first =
        membersOf (files.flatMap SourceFile.units) first ↔
      strayMembers name files = [] := by
  subst hname
  have hlength := (filter_isMemberOf_perm hfirst).length_eq
  rw [List.length_append] at hlength
  constructor
  · intro heq
    have hsame : (((firstOnly first.qualifiedName files).flatMap SourceFile.units).filter
        (isMemberOf first.qualifiedName)).length =
          ((files.flatMap SourceFile.units).filter (isMemberOf first.qualifiedName)).length :=
      congrArg List.length heq
    exact List.eq_nil_of_length_eq_zero (by omega)
  · intro hstray
    rw [hstray, List.length_nil, Nat.add_zero] at hlength
    exact ((firstOnly_sublist hfirst).filter _).eq_of_length hlength.symm

theorem declarations_firstOnly :
    declarations ((firstOnly name files).flatMap SourceFile.units) name = [first] := by
  obtain ⟨before, own, after, hunits, hleft, -, hbefore, hown⟩ := exists_split_firstOnly hfirst
  have hgone (units : List SourceUnit) :
      declarations (units.filter (!·.concerns name)) name = [] := by
    simp +contextual [declarations, concerns]
  rw [hleft, declarations_append, declarations_append, hgone, hgone, hown]
  rfl

theorem declarations_firstOnly_of_ne {other : String} (hother : other ≠ name) :
    declarations ((firstOnly name files).flatMap SourceFile.units) other =
      declarations (files.flatMap SourceFile.units) other := by
  obtain ⟨before, own, after, hunits, hleft, -, -, -⟩ := exists_split_firstOnly hfirst
  have hkept (units : List SourceUnit) :
      declarations (units.filter (!·.concerns name)) other = declarations units other := by
    rw [declarations, List.filter_filter]
    refine List.filter_congr fun unit _ => ?_
    by_cases hdeclares : unit.declares other = true
    · simp only [declares, Bool.and_eq_true, decide_eq_true_eq] at hdeclares
      simp [concerns, declares, isMemberOf, hdeclares.1, hdeclares.2, hother]
    · simp [hdeclares]
  rw [hleft, hunits]
  simp only [declarations_append, hkept]

/-- If the last declaration of the type stands where the first does, the names in all
files are resolved as if there were only the first. -/
theorem agrees_firstOnly
    (hplace : ∀ last ∈ (declarations (files.flatMap SourceFile.units) name).getLast?,
      last.parentName = first.parentName) :
    (NameTable.ofUnits (files.flatMap SourceFile.units)).Agrees
      (NameTable.ofUnits ((firstOnly name files).flatMap SourceFile.units)) := by
  refine NameTable.agrees_ofUnits fun other => ?_
  by_cases hother : other = name
  · subst hother
    rw [declarations_firstOnly hfirst]
    cases hlast : (declarations (files.flatMap SourceFile.units) other).getLast? with
    | none => simp [List.getLast?_eq_none_iff.mp hlast] at hfirst
    | some last => simp [hplace last hlast]
  · rw [declarations_firstOnly_of_ne hfirst hother]

end

namespace Catalog

/-- The type that the catalog of source files keeps under a name. -/
def kept? (files : List SourceFile) (name : String) : Option NamedType :=
  (ofFiles files).value.types.find? (·.qualifiedName = name)

/-- Of several declarations of a type the first is kept, with the members of all. -/
theorem kept?_eq (files : List SourceFile) (name : String) :
    kept? files name =
      (declarations (files.flatMap SourceFile.units) name).head?.map fun unit =>
        unit.toNamedType (membersOf (files.flatMap SourceFile.units) unit)
          (.ofUnits (files.flatMap SourceFile.units)) := by
  rw [kept?, value_ofFiles, find?_types_ofList, typesOf, List.find?_map, declarations_eq,
    List.head?_filter]
  rfl

/-- The first declaration of a type is kept with all members of that name, wherever they
stand.  It is what it would be without the later declarations exactly if no members
stand apart from it and the names written in it mean the same; the latter is so whenever
the last declaration stands in the same type as the first. -/
theorem kept?_eq_firstOnly_iff {files : List SourceFile} {name : String} {first : SourceUnit}
    (hfirst : (files.flatMap SourceFile.types).find? (·.qualifiedName = name) = some first) :
    kept? files name =
        some (first.toNamedType (membersOf (files.flatMap SourceFile.units) first)
          (.ofUnits (files.flatMap SourceFile.units))) ∧
      (kept? files name = kept? (firstOnly name files) name ↔
        strayMembers name files = [] ∧
          first.ReadAlike (membersOf (files.flatMap SourceFile.units) first)
            (.ofUnits (files.flatMap SourceFile.units))
            (.ofUnits ((firstOnly name files).flatMap SourceFile.units))) ∧
      ((∀ last ∈ (declarations (files.flatMap SourceFile.units) name).getLast?,
          last.parentName = first.parentName) →
        (kept? files name = kept? (firstOnly name files) name ↔
          strayMembers name files = [])) := by
  have hhead : (declarations (files.flatMap SourceFile.units) name).head? = some first := by
    rw [declarations_eq, List.head?_filter, filter_isType_units, hfirst]
  obtain rfl : first.qualifiedName = name := by simpa using List.find?_some hfirst
  have hkept : kept? files first.qualifiedName =
      some (first.toNamedType (membersOf (files.flatMap SourceFile.units) first)
        (.ofUnits (files.flatMap SourceFile.units))) := by
    rw [kept?_eq, hhead, Option.map_some]
  have hkept' : kept? (firstOnly first.qualifiedName files) first.qualifiedName =
      some (first.toNamedType
        (membersOf ((firstOnly first.qualifiedName files).flatMap SourceFile.units) first)
        (.ofUnits ((firstOnly first.qualifiedName files).flatMap SourceFile.units))) := by
    rw [kept?_eq, declarations_firstOnly hhead, List.head?_singleton, Option.map_some]
  have hiff : kept? files first.qualifiedName =
        kept? (firstOnly first.qualifiedName files) first.qualifiedName ↔
      strayMembers first.qualifiedName files = [] ∧
        first.ReadAlike (membersOf (files.flatMap SourceFile.units) first)
          (.ofUnits (files.flatMap SourceFile.units))
          (.ofUnits ((firstOnly first.qualifiedName files).flatMap SourceFile.units)) := by
    have hsub : (membersOf ((firstOnly first.qualifiedName files).flatMap SourceFile.units)
        first).Sublist (membersOf (files.flatMap SourceFile.units) first) :=
      (firstOnly_sublist hhead).filter _
    rw [hkept, hkept', Option.some.injEq, toNamedType_eq_iff_of_sublist hsub,
      membersOf_firstOnly_iff hhead rfl]
  refine ⟨hkept, hiff, fun hplace => ?_⟩
  rw [hiff, and_iff_left]
  exact (toNamedType_eq_iff ..).mp ((agrees_firstOnly hhead hplace).toNamedType ..)

/-- A later declaration without members is left out. -/
theorem kept?_eq_firstOnly_memberless :
    let first : SourceUnit :=
      { kind := .type .classType, name := "A", qualifiedName := "p.A", package := "p",
        filePath := "a/A.java", extended := ["B"] }
    let field : SourceUnit :=
      { kind := .field, name := "x", qualifiedName := "p.A.x", package := "p",
        filePath := "a/A.java", parentName := some "p.A", returnType := some "A" }
    let later : SourceUnit := { first with filePath := "b/A.java", extended := [] }
    let files : List SourceFile :=
      [⟨"a/A.java", "java", "p", [first, field], [], 1, []⟩,
        ⟨"b/A.java", "java", "p", [later], [], 1, []⟩]
    (files.flatMap SourceFile.types).find? (·.qualifiedName = "p.A") = some first ∧
      strayMembers "p.A" files = [] ∧
      kept? files "p.A" = kept? (firstOnly "p.A" files) "p.A" := by
  intro first field later files
  have hfirst : (files.flatMap SourceFile.types).find? (·.qualifiedName = "p.A") = some first := by
    decide +kernel
  have hstray : strayMembers "p.A" files = [] := by decide +kernel
  have hplace : ∀ last ∈ (declarations (files.flatMap SourceFile.units) "p.A").getLast?,
      last.parentName = first.parentName := by decide +kernel
  exact ⟨hfirst, hstray, ((kept?_eq_firstOnly_iff hfirst).2.2 hplace).mpr hstray⟩

/-- Two files that declare one class: the members of the second are kept with the first. -/
theorem kept?_ne_firstOnly_two_files :
    let files : List SourceFile :=
      [.ofText "package p;\nclass A \x7b int x; void f() \x7b\x7d \x7d\n" "a/A.java",
        .ofText "package p;\nclass A \x7b int y; void g() \x7b\x7d \x7d\n" "b/A.java"]
    (kept? files "p.A").map (·.fields.map Field.name) = some ["x", "y"] ∧
      (kept? (firstOnly "p.A" files) "p.A").map (·.fields.map Field.name) = some ["x"] := by
  decide +kernel

end Catalog

end ClassChart
