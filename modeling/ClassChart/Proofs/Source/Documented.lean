import ClassChart.Source.Documented
import Mathlib.Tactic.MkIffOfInductiveProp

/-!
What a documented type is made of: one field or method for each member, and the
names written in the declaration, which are all that is looked up.
-/
namespace ClassChart

/-- The catalog of files is that of their documented types. -/
theorem Catalog.value_ofFiles (files : List SourceFile) :
    (ofFiles files).value = (ofList (typesOf files)).value := rfl

namespace SourceUnit

/-- The names of supertypes that count in a declaration of a type. -/
def writtenSupertypes (unit : SourceUnit) : List String :=
  match unit.typeKind? with
  | some .classType => unit.extended.take 1 ++ unit.implemented
  | some .interfaceType => unit.extended ++ unit.implemented
  | _ => unit.implemented

/-- The types that are written in a member. -/
def writtenTypes (member : SourceUnit) : List String :=
  let written := member.returnType.filter (!·.isEmpty)
  if member.kind = .field then [written.getD "?"]
  else
    member.parameters.map SourceParameter.type ++
      if member.kind = .constructor then [] else [written.getD "void"]

/-- Two tables resolve alike what stands in a declaration. -/
@[mk_iff]
structure ReadAlike (unit : SourceUnit) (members : List SourceUnit) (table table' : NameTable) :
    Prop where
  supertypes : ∀ written ∈ unit.writtenSupertypes,
    table.resolve unit.outside written = table'.resolve unit.outside written
  members : ∀ member ∈ members, ∀ written ∈ member.writtenTypes,
    table.qualify unit.inside written = table'.qualify unit.inside written

/-- Supertypes agree exactly if every written one is resolved to the same name. -/
theorem supertypes_eq_iff (unit : SourceUnit) (resolve resolve' : String → String) :
    unit.superclass resolve = unit.superclass resolve' ∧
        unit.interfaces resolve = unit.interfaces resolve' ↔
      ∀ written ∈ unit.writtenSupertypes, resolve written = resolve' written := by
  have hnamed (a b : String) :
      ((if a = "" then none else some a) = if b = "" then none else some b) ↔ a = b := by
    grind
  unfold superclass interfaces writtenSupertypes
  cases unit.typeKind? with
  | none => simp [hnamed]
  | some kind =>
      cases kind with
      | classType => cases unit.extended <;> simp [hnamed]
      | interfaceType => simp [hnamed, -List.map_append]
      | enumType => simp [hnamed]
      | annotationType => simp [hnamed]

theorem toMethod_eq_iff {member : SourceUnit} (hkind : member.kind ≠ .field) (owner : SourceUnit)
    (qualify qualify' : String → TypeName) :
    member.toMethod owner qualify = member.toMethod owner qualify' ↔
      ∀ written ∈ member.writtenTypes, qualify written = qualify' written := by
  by_cases hconstructor : member.kind = .constructor
  · simp [toMethod, writtenTypes, hconstructor]
  · simp [toMethod, writtenTypes, hkind, hconstructor, or_imp, forall_and]

theorem toField_eq_iff {member : SourceUnit} (hkind : member.kind = .field) (owner : SourceUnit)
    (qualify qualify' : String → TypeName) :
    member.toField owner qualify = member.toField owner qualify' ↔
      ∀ written ∈ member.writtenTypes, qualify written = qualify' written := by
  simp [toField, writtenTypes, hkind]

/-- The members agree exactly if every type written in them is qualified in the same way. -/
theorem members_eq_iff (members : List SourceUnit) (owner : SourceUnit)
    (qualify qualify' : String → TypeName) :
    (members.filter (·.kind ≠ .field)).map (·.toMethod owner qualify) =
          (members.filter (·.kind ≠ .field)).map (·.toMethod owner qualify') ∧
        (members.filter (·.kind = .field)).map (·.toField owner qualify) =
          (members.filter (·.kind = .field)).map (·.toField owner qualify') ↔
      ∀ member ∈ members, ∀ written ∈ member.writtenTypes,
        qualify written = qualify' written := by
  simp only [List.map_inj_left, List.mem_filter, decide_eq_true_eq, and_imp]
  constructor
  · rintro ⟨hmethods, hfields⟩ member hmember
    by_cases hkind : member.kind = .field
    · exact (toField_eq_iff hkind owner _ _).mp (hfields member hmember hkind)
    · exact (toMethod_eq_iff hkind owner _ _).mp (hmethods member hmember hkind)
  · intro hall
    refine ⟨fun member hmember hkind => ?_, fun member hmember hkind => ?_⟩
    · exact (toMethod_eq_iff hkind owner _ _).mpr (hall member hmember)
    · exact (toField_eq_iff hkind owner _ _).mpr (hall member hmember)

/-- A documented type depends on the table only through the names written in it. -/
theorem toNamedType_eq_iff (unit : SourceUnit) (members : List SourceUnit)
    (table table' : NameTable) :
    unit.toNamedType members table = unit.toNamedType members table' ↔
      unit.ReadAlike members table table' := by
  rw [readAlike_iff, ← supertypes_eq_iff, ← members_eq_iff members unit]
  simp only [toNamedType, NamedType.mk.injEq, true_and, and_true, and_assoc]

/-- Every member gives a field or a method. -/
theorem length_fields_add_methods (unit : SourceUnit) (members : List SourceUnit)
    (table : NameTable) :
    (unit.toNamedType members table).fields.length +
      (unit.toNamedType members table).methods.length = members.length := by
  simp only [toNamedType, List.length_map, ← List.countP_eq_length_filter]
  rw [List.length_eq_countP_add_countP fun member : SourceUnit => member.kind = .field]
  simp

/-- Leaving out members or looking names up elsewhere is always seen in the type. -/
theorem toNamedType_eq_iff_of_sublist {members members' : List SourceUnit}
    (hsub : members'.Sublist members) (unit : SourceUnit) (table table' : NameTable) :
    unit.toNamedType members table = unit.toNamedType members' table' ↔
      members' = members ∧ unit.ReadAlike members table table' := by
  rw [← toNamedType_eq_iff]
  constructor
  · intro heq
    have hlength : members.length = members'.length := by
      rw [← length_fields_add_methods unit members table, heq, length_fields_add_methods]
    obtain rfl := hsub.eq_of_length hlength.symm
    exact ⟨rfl, heq⟩
  · rintro ⟨rfl, heq⟩
    exact heq

end SourceUnit

end ClassChart
