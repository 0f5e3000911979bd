import ClassChart.Proofs.Source.FileOrder
import ClassChart.Source.File
import Mathlib.Data.List.Forall2

/-!
The members of documented types.  The units of all files stand in one list, in which the
members of different types may be mixed; every member goes to the type that it names, in
its place among the others, and nowhere else.
-/
namespace ClassChart

/-- What is grouped by different keys, and the rest. -/
theorem flatMap_filter_append_perm {α β : Type} [DecidableEq β] (key : α → Option β)
    {keys : List β} (hkeys : keys.Nodup) (as : List α) :
    ((keys.flatMap fun k => as.filter (key · = some k)) ++
      as.filter fun a => ∀ k ∈ keys, key a ≠ some k).Perm as := by
  induction keys generalizing as with
  | nil => simp
  | cons k rest ih =>
      obtain ⟨hk, hrest⟩ := List.nodup_cons.mp hkeys
      -- The other groups can be taken from what the first one leaves.
      have hgroups : (rest.flatMap fun other => as.filter (key · = some other)) =
          rest.flatMap fun other =>
            (as.filter (key · ≠ some k)).filter (key · = some other) := by
        refine List.flatMap_congr fun other hother => ?_
        rw [List.filter_filter]
        refine List.filter_congr fun a _ => ?_
        by_cases ha : key a = some other
        · have hne : other ≠ k := fun heq => hk (heq ▸ hother)
          simp [ha, hne]
        · simp [ha]
      have hleft : (as.filter fun a => ∀ other ∈ k :: rest, key a ≠ some other) =
          (as.filter (key · ≠ some k)).filter fun a => ∀ other ∈ rest, key a ≠ some other := by
        rw [List.filter_filter]
        refine List.filter_congr fun a _ => ?_
        simp [Bool.and_comm]
      rw [List.flatMap_cons, List.append_assoc, hgroups, hleft]
      refine ((ih hrest _).append_left _).trans ?_
      simpa using List.filter_append_perm (key · = some k) as

namespace SourceUnit

/-- Whether a unit declares a method or a constructor.  A member of a kind of its own is
taken for a method. -/
def isCallable (unit : SourceUnit) : Bool :=
  match unit.kind with
  | .method => true
  | .constructor => true
  | .other _ => true
  | .field => false
  | .type _ => false

/-- The fields among units that name a type as theirs. -/
def fieldsIn (units : List SourceUnit) (type : String) : List SourceUnit :=
  units.filter fun unit => unit.kind = .field && unit.parentName = some type

/-- The methods and constructors among units that name a type as theirs. -/
def methodsIn (units : List SourceUnit) (type : String) : List SourceUnit :=
  units.filter fun unit => unit.isCallable && unit.parentName = some type

/-- Whether a unit declares a type or is a member of a declared one. -/
def belongs (declared : List String) (unit : SourceUnit) : Bool :=
  unit.isType || unit.parentName.any declared.contains

/-- A documented method is the one that a unit declares. -/
structure DeclaresMethod (unit : SourceUnit) (method : Method) : Prop where
  name : method.name = unit.name
  parameters : method.parameters.params.map Parameter.name =
    unit.parameters.map fun p => some p.name
  returnType : method.returnType = none ↔ unit.kind = .constructor

/-- A documented type is the one that a unit declares, with its members among all units,
each of them once and in their order. -/
structure Documents (units : List SourceUnit) (unit : SourceUnit) (type : NamedType) : Prop where
  qualifiedName : type.qualifiedName = unit.qualifiedName
  fields : List.Forall₂ (fun member field => Field.name field = name member)
    (fieldsIn units unit.qualifiedName) type.fields
  methods : List.Forall₂ DeclaresMethod (methodsIn units unit.qualifiedName) type.methods

theorem declaresMethod_toMethod (member owner : SourceUnit) (qualify : String → TypeName) :
    member.DeclaresMethod (member.toMethod owner qualify) where
  name := rfl
  parameters := by simp [toMethod]
  returnType := by simp [toMethod]

theorem isType_of_kind_eq_field {unit : SourceUnit} (hkind : unit.kind = .field) :
    unit.isType = false := by
  simp [isType, typeKind?, hkind]

theorem isCallable_eq (unit : SourceUnit) :
    unit.isCallable = (!unit.isType && unit.kind ≠ .field) := by
  unfold isCallable isType typeKind?
  cases unit.kind <;> rfl

section

variable (units : List SourceUnit) {owner : SourceUnit} (hname : owner.qualifiedName ≠ "")

include hname

theorem membersOf_eq : membersOf units owner =
    (units.filter (!·.isType)).filter (·.parentName = some owner.qualifiedName) := by
  have hempty : owner.qualifiedName.isEmpty = false := by simpa using hname
  rw [List.filter_filter]
  refine List.filter_congr fun unit _ => ?_
  rw [hempty, Bool.not_false, Bool.and_true, Bool.and_comm]

theorem filter_membersOf_field :
    (membersOf units owner).filter (·.kind = .field) = fieldsIn units owner.qualifiedName := by
  rw [membersOf_eq units hname, List.filter_filter, List.filter_filter]
  refine List.filter_congr fun unit _ => ?_
  by_cases hkind : unit.kind = .field
  · simp [hkind, isType_of_kind_eq_field hkind]
  · simp [hkind]

theorem filter_membersOf_method :
    (membersOf units owner).filter (·.kind ≠ .field) = methodsIn units owner.qualifiedName := by
  rw [membersOf_eq units hname, List.filter_filter, List.filter_filter]
  refine List.filter_congr fun unit _ => ?_
  rw [isCallable_eq]
  by_cases hkind : unit.kind = .field
  · simp [hkind]
  · simp [hkind, Bool.and_comm]

theorem documents_toNamedType (table : NameTable) :
    Documents units owner (owner.toNamedType (membersOf units owner) table) where
  qualifiedName := rfl
  fields := by
    rw [toNamedType, filter_membersOf_field units hname, List.forall₂_map_right_iff]
    exact List.forall₂_same.mpr fun _ _ => rfl
  methods := by
    rw [toNamedType, filter_membersOf_method units hname, List.forall₂_map_right_iff]
    exact List.forall₂_same.mpr fun member _ => declaresMethod_toMethod member owner _

theorem membersOf_perm_fieldsIn_append :
    (membersOf units owner).Perm
      (fieldsIn units owner.qualifiedName ++ methodsIn units owner.qualifiedName) := by
  rw [← filter_membersOf_field units hname, ← filter_membersOf_method units hname]
  simpa using (List.filter_append_perm (·.kind = .field) (membersOf units owner)).symm

end

/-- The units that do not belong to any declared type are the members that name none. -/
theorem filter_not_belongs (declared : List String) (units : List SourceUnit) :
    units.filter (!·.belongs declared) =
      (units.filter (!·.isType)).filter fun unit =>
        ∀ type ∈ declared, unit.parentName ≠ some type := by
  rw [List.filter_filter]
  refine List.filter_congr fun unit _ => ?_
  rw [Bool.eq_iff_iff]
  cases hparent : unit.parentName with
  | none => simp [belongs, hparent]
  | some parent =>
      have hstray : (∀ type ∈ declared, ¬parent = type) ↔ parent ∉ declared := by
        constructor
        · intro hall hmem
          exact hall parent hmem rfl
        · rintro hnot type htype rfl
          exact hnot htype
      simp [belongs, hparent, hstray, and_comm]

/-- Types always belong to what is declared. -/
theorem filter_isType_belongs (declared : List String) (units : List SourceUnit) :
    (units.filter (belongs declared)).filter isType = units.filter isType := by
  rw [List.filter_filter]
  refine List.filter_congr fun unit _ => ?_
  cases htype : unit.isType <;> simp [belongs, htype]

/-- A declared type keeps all its members. -/
theorem membersOf_belongs {declared : List String} {owner : SourceUnit}
    (howner : owner.qualifiedName ∈ declared) (units : List SourceUnit) :
    membersOf (units.filter (belongs declared)) owner = membersOf units owner := by
  rw [membersOf, List.filter_filter]
  refine List.filter_congr fun unit _ => ?_
  by_cases hparent : unit.parentName = some owner.qualifiedName
  · simp [belongs, hparent, howner]
  · simp [hparent]

end SourceUnit

open SourceUnit

/-- A file without the members of types that are not declared. -/
def SourceFile.withoutStrays (declared : List String) (file : SourceFile) : SourceFile :=
  { file with units := file.units.filter (belongs declared) }

theorem flatMap_units_withoutStrays (declared : List String) (files : List SourceFile) :
    (files.map (SourceFile.withoutStrays declared)).flatMap SourceFile.units =
      (files.flatMap SourceFile.units).filter (belongs declared) := by
  rw [List.flatMap_map, List.filter_flatMap]
  rfl

/-- A member of a type that is not declared is documented nowhere. -/
theorem Catalog.typesOf_withoutStrays (files : List SourceFile) :
    typesOf (files.map (SourceFile.withoutStrays
      ((files.flatMap SourceFile.types).map qualifiedName))) = typesOf files := by
  have htable (declared : List String) (units : List SourceUnit) :
      NameTable.ofUnits (units.filter (belongs declared)) = NameTable.ofUnits units := by
    rw [NameTable.ofUnits, NameTable.ofUnits, filter_isType_belongs]
  rw [typesOf, typesOf, flatMap_units_withoutStrays, htable, filter_isType_belongs]
  refine List.map_congr_left fun unit hunit => ?_
  rw [filter_isType_units] at hunit
  rw [membersOf_belongs (List.mem_map_of_mem hunit)]

/-- The types of the catalog are those that the units declare, in their order, each with its
members in their order.  The members of all declared types and the stray ones are all that
there are, and without the stray ones the catalog is the same. -/
theorem Catalog.documents_ofFiles {files : List SourceFile}
    (hnames : ((files.flatMap SourceFile.types).map qualifiedName).Nodup)
    (hnamed : ∀ unit ∈ files.flatMap SourceFile.types, unit.qualifiedName ≠ "") :
    let units := files.flatMap SourceFile.units
    let declared := (files.flatMap SourceFile.types).map qualifiedName
    List.Forall₂ (Documents units) (files.flatMap SourceFile.types) (ofFiles files).value.types ∧
    ((declared.flatMap fun type => fieldsIn units type ++ methodsIn units type) ++
      units.filter (!belongs declared ·)).Perm (units.filter (!isType ·)) ∧
    (ofFiles (files.map (SourceFile.withoutStrays declared))).value = (ofFiles files).value := by
  intro units declared
  have htypes : (ofFiles files).value.types = typesOf files :=
    types_ofList (names_typesOf files ▸ hnames)
  refine ⟨?_, ?_, ?_⟩
  · rw [htypes, typesOf, filter_isType_units, List.forall₂_map_right_iff]
    apply List.forall₂_same.mpr
    intro unit hunit
    exact documents_toNamedType _ (hnamed unit hunit) _
  · have hmembers := flatMap_filter_append_perm parentName hnames (units.filter (!isType ·))
    rw [filter_not_belongs]
    refine List.Perm.trans (List.Perm.append_right _ ?_) hmembers
    rw [List.flatMap_map, List.flatMap_map]
    refine List.Perm.flatMap_left _ fun unit hunit => ?_
    rw [← membersOf_eq units (hnamed unit hunit)]
    exact (membersOf_perm_fieldsIn_append units (hnamed unit hunit)).symm
  · rw [value_ofFiles, value_ofFiles, typesOf_withoutStrays]

/-- Two classes with their members mixed, a constructor and a method of one name, and a
member of a class that is declared nowhere. -/
theorem Catalog.documents_ofFiles_mixed :
    let type (name : String) : SourceUnit :=
      { kind := .type .classType, name, qualifiedName := name, filePath := "A.java" }
    let member (kind : UnitKind) (owner name : String) : SourceUnit :=
      { kind, name, qualifiedName := owner ++ "." ++ name, filePath := "A.java",
        parentName := some owner, parameters := [⟨"a", "B", false⟩, ⟨"b", "int[]", true⟩] }
    let units := [member .method "B" "f", type "A", member .field "A" "x",
      member .constructor "A" "A", type "B", member .method "A" "A", member .field "C" "y"]
    let files : List SourceFile := [⟨"A.java", "java", "", units, [], 1, []⟩]
    (files.flatMap SourceFile.types).map qualifiedName = ["A", "B"] ∧
    List.Forall₂ (Documents units) [type "A", type "B"] (ofFiles files).value.types ∧
    fieldsIn units "A" = [member .field "A" "x"] ∧
    methodsIn units "A" = [member .constructor "A" "A", member .method "A" "A"] ∧
    methodsIn units "B" = [member .method "B" "f"] ∧
    (ofFiles (files.map (SourceFile.withoutStrays ["A", "B"]))).value =
      (ofFiles files).value := by
  intro type member units files
  have hnames : (files.flatMap SourceFile.types).map qualifiedName = ["A", "B"] := by decide
  have hunits : files.flatMap SourceFile.units = units := by decide
  have htypes : files.flatMap SourceFile.types = [type "A", type "B"] := by decide
  have hnamed : ∀ unit ∈ files.flatMap SourceFile.types, unit.qualifiedName ≠ "" := by decide
  obtain ⟨hdocuments, -, hstray⟩ := Catalog.documents_ofFiles (hnames ▸ by decide) hnamed
  rw [hunits, htypes] at hdocuments
  rw [hnames] at hstray
  exact ⟨hnames, hdocuments, by decide, by decide, by decide, hstray⟩

end ClassChart
