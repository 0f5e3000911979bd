import ClassChart.Proofs.Diagram.Candidates
import ClassChart.Proofs.Model.Catalog
import ClassChart.Proofs.Source.Documented
import ClassChart.Proofs.Source.NameTable
import ClassChart.Source.File
import Mathlib.Tactic.MkIffOfInductiveProp

/-!
The hierarchy that source files declare.  Each declared type is drawn with one edge
to the class that it extends, one to each of its interfaces and one to the type in
which it stands, and with no other edge.
-/
namespace ClassChart

namespace SourceUnit

/-- The class that a declared type extends, whether the declaration names it or not. -/
inductive Extends (unit : SourceUnit) (resolve : String → String) : String → Prop
  | named {first : String} {rest : List String} (hkind : unit.kind = .type .classType)
      (hextended : unit.extended = first :: rest) : Extends unit resolve (resolve first)
  | record (hkind : unit.kind = .type .classType) (hextended : unit.extended = [])
      (hrecord : unit.isRecord = true) : Extends unit resolve "java.lang.Record"
  | object (hkind : unit.kind = .type .classType) (hextended : unit.extended = [])
      (hrecord : unit.isRecord = false) (hname : unit.qualifiedName ≠ "java.lang.Object") :
      Extends unit resolve "java.lang.Object"
  | enum (hkind : unit.kind = .type .enumType) : Extends unit resolve "java.lang.Enum"

/-- The interfaces that a declared type names. -/
def writtenInterfaces (unit : SourceUnit) : List String :=
  if unit.kind = .type .interfaceType then unit.extended ++ unit.implemented
  else unit.implemented

/-- A declared type in which no name that is written or given is empty. -/
@[mk_iff]
structure WellNamed (unit : SourceUnit) : Prop where
  qualifiedName : unit.qualifiedName ≠ ""
  parentName : unit.parentName ≠ some ""
  extended : ∀ written ∈ unit.extended, written ≠ ""
  implemented : ∀ written ∈ unit.implemented, written ≠ ""
  imports : ∀ name ∈ unit.imports, name ≠ ""

instance (unit : SourceUnit) : Decidable unit.WellNamed :=
  decidable_of_iff' _ (wellNamed_iff unit)

theorem typeKind?_eq_some_iff (unit : SourceUnit) (kind : TypeKind) :
    unit.typeKind? = some kind ↔ unit.kind = .type kind := by
  unfold typeKind?
  cases unit.kind <;> simp

/-- A superclass is shown exactly if the type extends it, by its own words or by its kind. -/
theorem superclass_eq_some_iff (unit : SourceUnit) (resolve : String → String)
    (superclass : String) :
    unit.superclass resolve = some superclass ↔ unit.Extends resolve superclass := by
  constructor
  · intro hsuper
    unfold SourceUnit.superclass at hsuper
    split at hsuper
    · rename_i hkind
      rw [typeKind?_eq_some_iff] at hkind
      split at hsuper
      · rename_i hextended
        cases hsuper
        exact .named hkind hextended
      · rename_i hextended
        split at hsuper
        · rename_i hrecord
          cases hsuper
          exact .record hkind hextended hrecord
        · rename_i hrecord
          split at hsuper
          · contradiction
          · rename_i hname
            cases hsuper
            exact .object hkind hextended (Bool.eq_false_iff.mpr hrecord) hname
    · rename_i hkind
      rw [typeKind?_eq_some_iff] at hkind
      cases hsuper
      exact .enum hkind
    · contradiction
  · intro hextends
    cases hextends with
    | named hkind hextended =>
        simp [SourceUnit.superclass, (typeKind?_eq_some_iff unit _).mpr hkind, hextended]
    | record hkind hextended hrecord =>
        simp [SourceUnit.superclass, (typeKind?_eq_some_iff unit _).mpr hkind, hextended, hrecord]
    | object hkind hextended hrecord hname =>
        simp [SourceUnit.superclass, (typeKind?_eq_some_iff unit _).mpr hkind, hextended, hrecord,
          hname]
    | enum hkind =>
        simp [SourceUnit.superclass, (typeKind?_eq_some_iff unit _).mpr hkind]

/-- If names are resolved to names, no interface of a type is left out. -/
theorem filterMap_interfaces {unit : SourceUnit} {resolve : String → String}
    (hresolve : ∀ written ∈ unit.writtenInterfaces, resolve written ≠ "") :
    (unit.interfaces resolve).filterMap id = unit.writtenInterfaces.map resolve := by
  have hwritten : (if unit.typeKind? = some .interfaceType then unit.extended ++ unit.implemented
      else unit.implemented) = unit.writtenInterfaces := by
    simp only [writtenInterfaces, typeKind?_eq_some_iff]
  rw [interfaces, hwritten, List.filterMap_map, ← List.filterMap_eq_map]
  refine List.filterMap_congr fun written hmem => ?_
  simp [hresolve written hmem]

namespace WellNamed

variable {unit : SourceUnit} (h : unit.WellNamed)

include h

theorem writtenInterfaces : ∀ written ∈ unit.writtenInterfaces, written ≠ "" := by
  intro written hmem
  rw [SourceUnit.writtenInterfaces] at hmem
  split at hmem
  · rcases List.mem_append.mp hmem with hmem | hmem
    · exact h.extended written hmem
    · exact h.implemented written hmem
  · exact h.implemented written hmem

/-- A superclass has a name if all resolved names have one. -/
theorem extends_ne_empty {resolve : String → String}
    (hresolve : ∀ written, written ≠ "" → resolve written ≠ "") {superclass : String}
    (hextends : unit.Extends resolve superclass) : superclass ≠ "" := by
  cases hextends with
  | named hkind hextended =>
      exact hresolve _ (h.extended _ (by rw [hextended]; exact List.mem_cons_self))
  | record => decide
  | object => decide
  | enum => decide

end WellNamed

end SourceUnit

namespace NameTable

theorem ne_empty_of_isKnown {units : List SourceUnit}
    (hnamed : ∀ unit ∈ units.filter SourceUnit.isType, unit.qualifiedName ≠ "") {name : String}
    (hknown : (ofUnits units).isKnown name = true) : name ≠ "" := by
  rw [isKnown, ofUnits, List.contains_iff_mem, List.mem_map] at hknown
  obtain ⟨unit, hunit, rfl⟩ := hknown
  exact hnamed unit hunit

/-- Where all known and imported names are names, only an empty text is resolved to
an empty name. -/
theorem resolve_ne_empty {table : NameTable} {place : Place}
    (hknown : ∀ name, table.isKnown name = true → name ≠ "")
    (himports : ∀ name ∈ place.imports, name ≠ "") {written : String} (hwritten : written ≠ "") :
    table.resolve place written ≠ "" := by
  rw [resolve]
  split
  · exact hwritten
  · rename_i hname
    have hname : erase written ≠ "" := by simpa using hname
    split
    · exact hname
    · rcases table.lookUp_cases place (erase written) with h | h | ⟨i, hi, h | h⟩ | h
      · rw [h]
        exact hname
      · exact hknown _ h
      · rw [h]
        exact himports i hi
      · rw [h]
        simp
      · rw [h]
        simp

end NameTable

namespace Relations

theorem sameEdge_edge (own : String) (arrow : Arrow) (a b : String) :
    (edge own arrow a).sameEdge (edge own arrow b) = (a == b) := by
  rw [Bool.eq_iff_iff]
  simp [Relationship.sameEdge, edge]

theorem sameEdge_edge_of_ne {arrow arrow' : Arrow} (harrow : arrow'.text ≠ arrow.text)
    (own a b : String) : (edge own arrow' b).sameEdge (edge own arrow a) = false := by
  simp [Relationship.sameEdge, edge, harrow]

/-- Of edges by one arrow the first to each type is kept. -/
theorem keepFirst_edges (own : String) (arrow : Arrow) (others : List String) :
    keepFirst Relationship.sameEdge (others.map (edge own arrow)) =
      others.eraseDups.map (edge own arrow) :=
  keepFirst_map_eq_eraseDups _ (sameEdge_edge own arrow) others

theorem keepFirst_edges_toList (own : String) (arrow : Arrow) (other : Option String) :
    keepFirst Relationship.sameEdge (other.toList.map (edge own arrow)) =
      other.toList.map (edge own arrow) := by
  cases other <;> rfl

theorem shown_eq_filter (rs : Relations) (names : List String) :
    rs.shown names = names.filter (· ∉ rs.excluded) := by
  simp [shown, decide_not]

theorem nodup_keepFirst_sameEdge (edges : List Relationship) :
    (keepFirst Relationship.sameEdge edges).Nodup := by
  refine (pairwise_keepFirst _ edges).imp ?_
  rintro a b hapart rfl
  simp [Relationship.sameEdge] at hapart

/-- Edges of different kinds are different, so equal ones are dropped kind by kind. -/
theorem keepFirst_candidates {rs : Relations} (htags : rs.readTags = false) (type : NamedType) :
    keepFirst Relationship.sameEdge (rs.candidates type) =
      (type.superclass.toList.filter (· ∉ rs.excluded)).map
          (edge type.qualifiedName .extension) ++
        ((type.interfaces.filterMap id).filter (· ∉ rs.excluded)).eraseDups.map
          (edge type.qualifiedName .implementation) ++
        type.enclosingType.toList.map (edge type.qualifiedName .containment) := by
  -- There is at most one superclass and one enclosing type: only interfaces can be repeated.
  have hsuper : keepFirst Relationship.sameEdge ((rs.shown type.superclass.toList).map
        (edge type.qualifiedName .extension)) =
      (rs.shown type.superclass.toList).map (edge type.qualifiedName .extension) := by
    cases type.superclass with
    | none => rfl
    | some superclass =>
        rw [Option.toList_some, shown_singleton]
        split <;> rfl
  have hinner : ∀ a ∈ (rs.shown type.superclass.toList).map (edge type.qualifiedName .extension),
      ∀ b ∈ (rs.shown (type.interfaces.filterMap id)).map
        (edge type.qualifiedName .implementation), b.sameEdge a = false := by
    simp only [List.forall_mem_map]
    intro a _ b _
    exact sameEdge_edge_of_ne (by decide) _ a b
  have houter : ∀ a ∈ (rs.shown type.superclass.toList).map
          (edge type.qualifiedName .extension) ++
        (rs.shown (type.interfaces.filterMap id)).map (edge type.qualifiedName .implementation),
      ∀ b ∈ type.enclosingType.toList.map (edge type.qualifiedName .containment),
        b.sameEdge a = false := by
    simp only [List.forall_mem_append, List.forall_mem_map]
    refine ⟨fun a _ b _ => ?_, fun a _ b _ => ?_⟩
    · exact sameEdge_edge_of_ne (by decide) _ a b
    · exact sameEdge_edge_of_ne (by decide) _ a b
  rw [candidates, declared, htags, if_neg Bool.false_ne_true, List.append_nil,
    keepFirst_append _ houter, keepFirst_append _ hinner, hsuper, keepFirst_edges,
    keepFirst_edges_toList, shown_eq_filter, shown_eq_filter]

/-- The edges of a type have names at both ends if the type and all that it names do. -/
theorem named_candidates {rs : Relations} (htags : rs.readTags = false) {type : NamedType}
    (hown : type.qualifiedName ≠ "") (hsuper : type.superclass ≠ some "")
    (hinterfaces : ∀ name ∈ type.interfaces.filterMap id, name ≠ "")
    (henclosing : type.enclosingType ≠ some "") :
    ∀ r ∈ rs.candidates type, r.Named := by
  rw [candidates, declared, htags, if_neg Bool.false_ne_true, List.append_nil]
  simp only [List.forall_mem_append, List.forall_mem_map]
  refine ⟨⟨fun name hname => ?_, fun name hname => ?_⟩, fun name hname => ?_⟩
  · have hmem : type.superclass = some name := by simpa using (List.mem_filter.mp hname).1
    exact ⟨fun hempty => hsuper (hmem.trans (congrArg some hempty)), hown⟩
  · exact ⟨hinterfaces name (List.mem_filter.mp hname).1, hown⟩
  · have hmem : type.enclosingType = some name := by simpa using hname
    exact ⟨fun hempty => henclosing (hmem.trans (congrArg some hempty)), hown⟩

end Relations

namespace Catalog

variable {files : List SourceFile}

/-- If every type is declared once, its declaration is found under its name. -/
theorem find?_ofFiles (hnames : ((files.flatMap SourceFile.types).map
    SourceUnit.qualifiedName).Nodup) {unit : SourceUnit}
    (hunit : unit ∈ files.flatMap SourceFile.types) (hname : unit.qualifiedName ≠ "") :
    (ofFiles files).value.find? unit.qualifiedName =
      some (unit.toNamedType (SourceUnit.membersOf (files.flatMap SourceFile.units) unit)
        (.ofUnits (files.flatMap SourceFile.units))) := by
  have hfind : (files.flatMap SourceFile.types).find? (·.qualifiedName = unit.qualifiedName) =
      some unit := by
    have hsome : ((files.flatMap SourceFile.types).find?
        (·.qualifiedName = unit.qualifiedName)).isSome :=
      List.find?_isSome.mpr ⟨unit, hunit, decide_eq_true rfl⟩
    obtain ⟨found, hfound⟩ := Option.isSome_iff_exists.mp hsome
    have heq : found.qualifiedName = unit.qualifiedName := by simpa using List.find?_some hfound
    rw [hfound, List.inj_on_of_nodup_map hnames (List.mem_of_find?_eq_some hfound) hunit heq]
  rw [value_ofFiles, find?_ofList, if_neg (by simpa using hname), typesOf, filter_isType_units,
    List.find?_map]
  exact congrArg _ hfind

open Relations (edge)

/-- The edges of a declared type: one to the class that it extends, one to each of its
interfaces, and one to the type in which it stands.  The first two kinds are drawn only if
the supertype is not excluded. -/
theorem result_ofType_ofFiles
    (hnames : ((files.flatMap SourceFile.types).map SourceUnit.qualifiedName).Nodup)
    (hwell : ∀ unit ∈ files.flatMap SourceFile.types, unit.WellNamed)
    {unit : SourceUnit} (hunit : unit ∈ files.flatMap SourceFile.types)
    (excluded : List String) :
    let catalog := (ofFiles files).value
    let resolve := (NameTable.ofUnits (files.flatMap SourceFile.units)).resolve unit.outside
    ∃ type superclass edges,
      catalog.find? unit.qualifiedName = some type ∧
      (Relations.ofType ⟨catalog, excluded, false⟩ type).result = .ok edges ∧
      edges.Nodup ∧
      (∀ name, superclass = some name ↔ unit.Extends resolve name) ∧
      edges =
        (superclass.toList.filter (· ∉ excluded)).map (edge unit.qualifiedName .extension) ++
        ((unit.writtenInterfaces.map resolve).filter (· ∉ excluded)).eraseDups.map
          (edge unit.qualifiedName .implementation) ++
        unit.parentName.toList.map (edge unit.qualifiedName .containment) := by
  intro catalog resolve
  have hunitWell := hwell unit hunit
  have hresolve (written : String) (hwritten : written ≠ "") : resolve written ≠ "" := by
    refine NameTable.resolve_ne_empty (fun name hknown => ?_) hunitWell.imports hwritten
    refine NameTable.ne_empty_of_isKnown (fun other hother => ?_) hknown
    exact (hwell other (filter_isType_units files ▸ hother)).qualifiedName
  have hinterfaces : (unit.interfaces resolve).filterMap id =
      unit.writtenInterfaces.map resolve :=
    SourceUnit.filterMap_interfaces fun written hmem =>
      hresolve written (hunitWell.writtenInterfaces written hmem)
  have hsuper : unit.superclass resolve ≠ some "" := fun hempty =>
    hunitWell.extends_ne_empty hresolve
      ((unit.superclass_eq_some_iff resolve "").mp hempty) rfl
  have hinterfacesNamed : ∀ name ∈ (unit.interfaces resolve).filterMap id, name ≠ "" := by
    rw [hinterfaces, List.forall_mem_map]
    exact fun written hmem => hresolve written (hunitWell.writtenInterfaces written hmem)
  have hedges := @Relations.keepFirst_candidates ⟨catalog, excluded, false⟩ rfl
    (unit.toNamedType (SourceUnit.membersOf (files.flatMap SourceFile.units) unit)
      (.ofUnits (files.flatMap SourceFile.units)))
  refine ⟨_, unit.superclass resolve, _, find?_ofFiles hnames hunit hunitWell.qualifiedName,
    (Relations.result_ofType_eq_ok_iff _ _).mpr ⟨?_, rfl⟩,
    Relations.nodup_keepFirst_sameEdge _, unit.superclass_eq_some_iff resolve, ?_⟩
  · exact Relations.named_candidates rfl hunitWell.qualifiedName hsuper hinterfacesNamed
      hunitWell.parentName
  · rw [← hinterfaces]
    exact hedges

/-- A nested class with a superclass, an interface named twice and one that is excluded. -/
theorem result_ofType_nested_class :
    let files : List SourceFile :=
      [.ofText "package p;\ninterface Pet \x7b\x7d\nclass Animal \x7b\x7d\n" "p/Animal.java",
        .ofText ("package q;\nimport p.Pet;\nclass Dogs \x7b static class Dog extends p.Animal " ++
          "implements Pet, Cloneable, p.Pet \x7b\x7d \x7d\n") "q/Dogs.java"]
    ((files.flatMap SourceFile.types).map SourceUnit.qualifiedName).Nodup ∧
    (∀ unit ∈ files.flatMap SourceFile.types, unit.WellNamed) ∧
    ∃ type,
      (ofFiles files).value.find? "q.Dogs.Dog" = some type ∧
      (Relations.ofType ⟨(ofFiles files).value, ["java.lang.Cloneable"], false⟩ type).result = .ok
        [edge "q.Dogs.Dog" .extension "p.Animal", edge "q.Dogs.Dog" .implementation "p.Pet",
          edge "q.Dogs.Dog" .containment "q.Dogs"] := by
  intro files
  obtain ⟨hnames, hwell, unit, hunit, hname, hsuper, hinterfaces, hparent⟩ :
      ((files.flatMap SourceFile.types).map SourceUnit.qualifiedName).Nodup ∧
      (∀ unit ∈ files.flatMap SourceFile.types, unit.WellNamed) ∧
      ∃ unit ∈ files.flatMap SourceFile.types, unit.qualifiedName = "q.Dogs.Dog" ∧
        unit.superclass ((NameTable.ofUnits (files.flatMap SourceFile.units)).resolve
          unit.outside) = some "p.Animal" ∧
        unit.writtenInterfaces.map ((NameTable.ofUnits (files.flatMap SourceFile.units)).resolve
          unit.outside) = ["p.Pet", "java.lang.Cloneable", "p.Pet"] ∧
        unit.parentName = some "q.Dogs" := by
    decide +kernel
  obtain ⟨type, superclass, edges, hfind, hresult, -, hextends, hedges⟩ :=
    result_ofType_ofFiles hnames hwell hunit ["java.lang.Cloneable"]
  have hsuperclass : superclass = some "p.Animal" :=
    (hextends _).mpr ((unit.superclass_eq_some_iff _ _).mp hsuper)
  refine ⟨hnames, hwell, type, hname ▸ hfind, ?_⟩
  rw [hresult, hedges, hsuperclass, hinterfaces, hparent, hname]
  exact congrArg Except.ok (by decide +kernel)

end Catalog

end ClassChart
