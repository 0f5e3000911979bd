import ClassChart.Proofs.Java.TypeText
import ClassChart.Proofs.Source.Documented
import ClassChart.Proofs.Source.Precedence
import ClassChart.Proofs.Model.Catalog
import ClassChart.Source.File
import Mathlib.Data.List.TakeWhile

/-!
Type variables.  A name is looked up without asking which type parameters are declared, so the
variable of a type or method keeps its name exactly if no type of that name is found.
-/
namespace ClassChart

open Text (Lacks)

namespace Java

/-- The name of the type variable that a type parameter declares. -/
def typeVariable? (parameter : String) : Option String := do
  let tokens ← Lexer.tokens parameter
  let pieces ← Piece.ofTokens tokens
  let (name, _) ← (do Parser.annotations; Parser.word : Parser String).run pieces
  return name

example : typeVariable? "@A(1) T extends Comparable<T>" = some "T" := by
  decide +kernel

theorem Parser.finds_word : Parser.word.Finds fun name => ∃ w : Word, w.text = name := by
  intro pieces hpieces name rest hrun
  obtain ⟨taken, rfl, t, hcode, hkind, rfl⟩ := reads_word pieces name rest hrun
  refine (hpieces t ?_).word hkind
  have ht : Piece.token t ∈ taken := List.mem_of_mem_filter (hcode ▸ List.mem_singleton_self _)
  exact Piece.first_mem_tokensOf (List.mem_append_left rest ht)

theorem exists_word_of_typeVariable? {parameter name : String}
    (hname : typeVariable? parameter = some name) : ∃ w : Word, w.text = name := by
  simp only [typeVariable?, Option.bind_eq_bind, Option.bind_eq_some_iff, Option.pure_def,
    Option.some.injEq] at hname
  obtain ⟨tokens, htokens, pieces, hpieces, ⟨found, rest⟩, hrun, rfl⟩ := hname
  have hscanned : ∀ t ∈ Piece.tokensOf pieces, t.Scanned := by
    rw [Piece.tokensOf_ofTokens hpieces]
    exact (Lexer.tokens_spec htokens).1
  exact Parser.Finds.skip Parser.reads_annotations.consumes (fun _ => Parser.finds_word)
    pieces hscanned found rest hrun

end Java

/-- The type variables that a type or method declares. -/
def SourceUnit.typeVariables (unit : SourceUnit) : List String :=
  unit.typeParameters.filterMap Java.typeVariable?

namespace NameTable

/-- An import of one type of the name. -/
def Imports (name i : String) : Prop :=
  (¬∃ package, i = package ++ ".*") ∧ Text.afterLast '.' i = name

/-- A name without dots that is not found, or only as that of a type without a package. -/
structure Uncaptured (table : NameTable) (place : Place) (name : String) : Prop where
  scopes : ∀ s ∈ table.scopes place.scope, s ++ "." ++ name ∉ table.known
  imports : ∀ i, IsFirst (Imports name) place.imports i → i = name
  package : (∀ i ∈ place.imports, ¬Imports name i) → place.package ≠ "" →
    place.package ++ "." ++ name ∉ table.known
  others : (∀ i ∈ place.imports, ¬Imports name i) →
    ¬(place.package = "" ∧ name ∈ table.known) →
    (∀ p, p ++ ".*" ∈ place.imports → p ++ "." ++ name ∉ table.known) ∧ name ∉ wellKnown

theorem IsFirst.unique {α : Type} {P : α → Prop} {as : List α} {a b : α} (ha : IsFirst P as a)
    (hb : IsFirst P as b) : a = b := by
  obtain ⟨before, after, hsplit, hP, hnone⟩ := hb
  rcases List.mem_append.mp (ha.mem_of_split hsplit hP) with hmem | hmem
  · exact absurd ha.holds (hnone a hmem)
  · exact List.mem_singleton.mp hmem

theorem Rule.result?_eq_none_iff {rule : Rule} {table : NameTable} {place : Place} {name : String} :
    rule.result? table place name = none ↔
      ∀ r, ¬rule.Gives table place (table.scopes place.scope) name r := by
  simp only [← result?_eq_some_iff, Option.eq_none_iff_forall_ne_some, ne_eq]

theorem append_ne_self {s : String} (hs : s ≠ "") (name : String) : s ++ name ≠ name := by
  intro hsame
  have hlength := congrArg String.length hsame
  rw [String.length_append] at hlength
  have hpos : s.length ≠ 0 := mt String.length_eq_zero_iff.mp hs
  omega

section

variable {table : NameTable} {place : Place} {name : String} (hdot : Lacks '.' name)

include hdot

/-- The results of the rules for a name without dots, in their order. -/
theorem lookUp_of_lacks : table.lookUp place name =
    ((Rule.memberType.result? table place name).or <|
      (Rule.imported.result? table place name).or <|
      (Rule.samePackage.result? table place name).or <|
      (Rule.onDemand.result? table place name).or <|
      Rule.wellKnown.result? table place name).getD name := by
  rw [lookUp, if_neg (by simpa using fun h => absurd h hdot)]
  rfl

theorem imported_gives_iff {chain : List String} {r : String} :
    Rule.imported.Gives table place chain name r ↔ IsFirst (Imports name) place.imports r := by
  simp only [Rule.Gives, Text.upTo_of_lacks '.' hdot, Text.beyond_of_lacks '.' hdot, if_true]
  constructor
  · rintro ⟨i, hi, rfl⟩
    exact hi
  · exact fun hr => ⟨r, hr, rfl⟩

omit hdot in
/-- Where an import ends in the name, the first such import has to be the name itself. -/
theorem uncaptured_iff_of_imported {i : String}
    (hscopes : ∀ s ∈ table.scopes place.scope, s ++ "." ++ name ∉ table.known)
    (hfirst : IsFirst (Imports name) place.imports i) : table.Uncaptured place name ↔ i = name := by
  have hsome : ¬∀ j ∈ place.imports, ¬Imports name j := by
    obtain ⟨before, after, hsplit, hi, -⟩ := hfirst
    exact fun hnone => hnone i (by simp [hsplit]) hi
  constructor
  · exact fun hfree => hfree.imports i hfirst
  · rintro rfl
    exact ⟨hscopes, fun j hj => hj.unique hfirst, fun hnone => absurd hnone hsome,
      fun hnone => absurd hnone hsome⟩

omit hdot in
theorem uncaptured_iff_of_not_imported
    (hscopes : ∀ s ∈ table.scopes place.scope, s ++ "." ++ name ∉ table.known)
    (hnone : ∀ i ∈ place.imports, ¬Imports name i) :
    table.Uncaptured place name ↔
      (place.package ≠ "" → place.package ++ "." ++ name ∉ table.known) ∧
      (¬(place.package = "" ∧ name ∈ table.known) →
        (∀ p, p ++ ".*" ∈ place.imports → p ++ "." ++ name ∉ table.known) ∧
          name ∉ wellKnown) := by
  constructor
  · exact fun hfree => ⟨hfree.package hnone, hfree.others hnone⟩
  · rintro ⟨hpackage, hothers⟩
    refine ⟨hscopes, fun i hi => ?_, fun _ => hpackage, fun _ => hothers⟩
    obtain ⟨before, after, hsplit, himports, -⟩ := hi
    exact absurd himports (hnone i (by simp [hsplit]))

/-- What the rules behind that of single imports find. -/
theorem later_eq_self_iff :
    ((Rule.samePackage.result? table place name).or <|
        (Rule.onDemand.result? table place name).or <|
        Rule.wellKnown.result? table place name).getD name = name ↔
      (place.package ≠ "" → place.package ++ "." ++ name ∉ table.known) ∧
      (¬(place.package = "" ∧ name ∈ table.known) →
        (∀ p, p ++ ".*" ∈ place.imports → p ++ "." ++ name ∉ table.known) ∧
          name ∉ wellKnown) := by
  have hqualified (s : String) : s ++ "." ++ name ≠ name := append_ne_self (by simp) name
  cases hpackage : Rule.samePackage.result? table place name with
  | some r =>
      obtain ⟨hknown, hr⟩ := Rule.result?_eq_some_iff.mp hpackage
      rw [Option.some_or, Option.getD_some]
      by_cases hempty : place.package = ""
      · rw [if_pos hempty] at hr
        subst hr
        simp [hempty, hknown]
      · rw [if_neg hempty] at hr
        subst hr
        exact iff_of_false (hqualified _) fun h => h.1 hempty hknown
  | none =>
      have hnot :
          (if place.package = "" then name else place.package ++ "." ++ name) ∉ table.known :=
        fun hknown => Rule.result?_eq_none_iff.mp hpackage _ ⟨hknown, rfl⟩
      have hnamed : place.package ≠ "" → place.package ++ "." ++ name ∉ table.known := fun h => by
        rwa [if_neg h] at hnot
      have hunnamed : ¬(place.package = "" ∧ name ∈ table.known) := by
        rintro ⟨hempty, hknown⟩
        rw [if_pos hempty] at hnot
        exact hnot hknown
      rw [Option.none_or, and_iff_right hnamed, forall_prop_of_true hunnamed]
      cases hdemand : Rule.onDemand.result? table place name with
      | some r =>
          obtain ⟨p, ⟨before, after, hsplit, ⟨q, hq, hknown⟩, -⟩, rfl⟩ :=
            Rule.result?_eq_some_iff.mp hdemand
          rw [String.append_left_inj] at hq
          exact iff_of_false (hqualified p) fun h => h.1 p (by simp [hsplit]) (hq ▸ hknown)
      | none =>
          have hpackages : ∀ p, p ++ ".*" ∈ place.imports → p ++ "." ++ name ∉ table.known := by
            intro p hp hknown
            obtain ⟨i, hi⟩ := IsFirst.exists_of_mem
              (P := fun i => ∃ q, i = q ++ ".*" ∧ q ++ "." ++ name ∈ table.known) hp
              ⟨p, rfl, hknown⟩
            obtain ⟨q, rfl, -⟩ := hi.holds
            exact Rule.result?_eq_none_iff.mp hdemand _ ⟨q, hi, rfl⟩
          rw [Option.none_or, and_iff_right hpackages, Rule.result?, wellKnownName,
            Text.upTo_of_lacks '.' hdot]
          by_cases hwellKnown : name ∈ wellKnown
          · rw [if_pos (List.contains_iff_mem.mpr hwellKnown)]
            exact iff_of_false (append_ne_self (by decide) name) (not_not_intro hwellKnown)
          · rw [if_neg (mt List.contains_iff_mem.mp hwellKnown)]
            exact iff_of_true rfl hwellKnown

theorem lookUp_eq_self_iff : table.lookUp place name = name ↔ table.Uncaptured place name := by
  rw [lookUp_of_lacks hdot]
  cases hmember : Rule.memberType.result? table place name with
  | some r =>
      obtain ⟨s, ⟨before, after, hsplit, hknown, -⟩, rfl⟩ := Rule.result?_eq_some_iff.mp hmember
      exact iff_of_false (append_ne_self (by simp) name) fun hfree =>
        hfree.scopes s (by simp [hsplit]) hknown
  | none =>
      have hscopes : ∀ s ∈ table.scopes place.scope, s ++ "." ++ name ∉ table.known := by
        intro s hs hknown
        obtain ⟨t, ht⟩ :=
          IsFirst.exists_of_mem (P := fun s => s ++ "." ++ name ∈ table.known) hs hknown
        exact Rule.result?_eq_none_iff.mp hmember _ ⟨t, ht, rfl⟩
      cases himported : Rule.imported.result? table place name with
      | some i =>
          have hfirst := (imported_gives_iff hdot).mp (Rule.result?_eq_some_iff.mp himported)
          rw [uncaptured_iff_of_imported hscopes hfirst]
          rfl
      | none =>
          have hnone : ∀ i ∈ place.imports, ¬Imports name i := by
            intro i hi hname
            obtain ⟨r, hr⟩ := IsFirst.exists_of_mem hi hname
            exact Rule.result?_eq_none_iff.mp himported r ((imported_gives_iff hdot).mpr hr)
          rw [uncaptured_iff_of_not_imported hscopes hnone, ← later_eq_self_iff hdot]
          rfl

end

/-- The base of a written type, without type arguments and dimensions. -/
def baseOf (written : String) : String :=
  String.ofList ((Text.squeeze written).toList.takeWhile (!endsBase ·))

/-- The type arguments and dimensions of a written type. -/
def restOf (written : String) : String :=
  String.ofList ((Text.squeeze written).toList.dropWhile (!endsBase ·))

/-- If the base of a written type is a declared variable, it keeps its name exactly if nothing
captures it. -/
def KeepsVariables (table : NameTable) (place : Place) (declared : List String)
    (written : String) (shown : TypeName) : Prop :=
  ∀ v ∈ declared, erase (baseOf written) = v →
    (shown.qualified = v ++ restOf written ↔ v ∈ primitives ∨ table.Uncaptured place v)

/-- A written type whose base is a variable keeps that name exactly if nothing captures it. -/
theorem keepsVariables_qualify (table : NameTable) (place : Place) {declared : List String}
    (hvariables : ∀ v ∈ declared, ∃ w : Java.Word, w.text = v) (written : String) :
    table.KeepsVariables place declared written (table.qualify place written) := by
  intro v hv hbase
  obtain ⟨w, rfl⟩ := hvariables v hv
  have hdot : Lacks '.' w.text := w.lacks (by decide) (by decide)
  have hqualified : (table.qualify place written).qualified =
      table.resolve place (baseOf written) ++ restOf written := rfl
  rw [hqualified, String.append_left_inj, resolve, hbase, if_neg (by simpa using w.nonempty),
    ← lookUp_eq_self_iff hdot]
  by_cases hprimitive : w.text ∈ primitives
  · simp [hprimitive]
  · simp [hprimitive]

end NameTable

/-- The types that are shown of a method. -/
def Method.shownTypes (m : Method) : List TypeName :=
  m.parameters.params.filterMap Parameter.type ++ m.returnType.toList

namespace SourceUnit

theorem exists_word_of_mem_typeVariables {unit : SourceUnit} {v : String}
    (hv : v ∈ unit.typeVariables) : ∃ w : Java.Word, w.text = v := by
  obtain ⟨parameter, -, hname⟩ := List.mem_filterMap.mp hv
  exact Java.exists_word_of_typeVariable? hname

/-- A method shows the types that are written in it, each qualified. -/
theorem shownTypes_toMethod {member : SourceUnit} (hkind : member.kind ≠ .field)
    (owner : SourceUnit) (qualify : String → TypeName) :
    (member.toMethod owner qualify).shownTypes = member.writtenTypes.map qualify := by
  by_cases hconstructor : member.kind = .constructor
  · simp [Method.shownTypes, toMethod, writtenTypes, hconstructor]
  · simp [Method.shownTypes, toMethod, writtenTypes, hkind, hconstructor]

theorem type_toField {member : SourceUnit} (hkind : member.kind = .field) (owner : SourceUnit)
    (qualify : String → TypeName) :
    [(member.toField owner qualify).type] = member.writtenTypes.map qualify := by
  simp [toField, writtenTypes, hkind]

/-- The types written in a member of a type, and the types that are shown of it. -/
def ShowsMember (table : NameTable) (owner member : SourceUnit) (shown : List TypeName) : Prop :=
  List.Forall₂ (table.KeepsVariables owner.inside (owner.typeVariables ++ member.typeVariables))
    member.writtenTypes shown

/-- The type that a unit declares is documented with the types that are written in its members,
type variables among them. -/
structure ShowsVariables (units : List SourceUnit) (unit : SourceUnit) (type : NamedType) :
    Prop where
  qualifiedName : type.qualifiedName = unit.qualifiedName
  typeParameters : type.typeParameters = unit.typeParameters
  fields : List.Forall₂ (fun member field =>
      ShowsMember (NameTable.ofUnits units) unit member [Field.type field])
    ((membersOf units unit).filter (·.kind = .field)) type.fields
  methods : List.Forall₂ (fun member method =>
      ShowsMember (NameTable.ofUnits units) unit member (Method.shownTypes method))
    ((membersOf units unit).filter (·.kind ≠ .field)) type.methods

theorem showsMember_map_qualify (table : NameTable) (owner member : SourceUnit) :
    ShowsMember table owner member (member.writtenTypes.map (table.qualify owner.inside)) := by
  refine List.forall₂_map_right_iff.mpr (List.forall₂_same.mpr fun written _ => ?_)
  refine table.keepsVariables_qualify owner.inside (fun v hv => ?_) written
  rcases List.mem_append.mp hv with hv | hv
  · exact exists_word_of_mem_typeVariables hv
  · exact exists_word_of_mem_typeVariables hv

/-- The documented type of a unit shows the variables that are written in its members. -/
theorem showsVariables_toNamedType (units : List SourceUnit) (unit : SourceUnit) :
    ShowsVariables units unit (unit.toNamedType (membersOf units unit) (.ofUnits units)) where
  qualifiedName := rfl
  typeParameters := rfl
  fields := by
    refine List.forall₂_map_right_iff.mpr (List.forall₂_same.mpr fun member hmember => ?_)
    have hkind : member.kind = .field := by simpa using List.of_mem_filter hmember
    rw [type_toField hkind]
    exact showsMember_map_qualify _ unit member
  methods := by
    refine List.forall₂_map_right_iff.mpr (List.forall₂_same.mpr fun member hmember => ?_)
    have hkind : member.kind ≠ .field := by simpa using List.of_mem_filter hmember
    rw [shownTypes_toMethod hkind]
    exact showsMember_map_qualify _ unit member

end SourceUnit

/-- The types of a catalog are those of its units, and a type variable of the type or of a method
that is the base of a type in a member keeps its name there exactly if it is not captured. -/
theorem Catalog.showsVariables_of_mem_types (files : List SourceFile) {type : NamedType}
    (htype : type ∈ (ofFiles files).value.types) :
    ∃ unit ∈ files.flatMap SourceFile.types,
      unit.ShowsVariables (files.flatMap SourceFile.units) type := by
  have hmem : type ∈ typesOf files := types_ofList_subset _ (value_ofFiles files ▸ htype)
  obtain ⟨unit, hunit, rfl⟩ := List.mem_map.mp hmem
  exact ⟨unit, filter_isType_units files ▸ hunit, SourceUnit.showsVariables_toNamedType _ unit⟩

/-- A class with a type variable that nothing captures, next to one of the same name that is in
another package. -/
theorem Catalog.showsVariables_box :
    let files := [SourceFile.ofText "package q;class T\x7b\x7d" "T.java",
      SourceFile.ofText "package p;class Box<T>\x7bT[]v;<U>U f(T t)\x7b\x7d\x7d" "Box.java"]
    ∃ type ∈ (ofFiles files).value.types,
      type.fields.map (·.type.qualified) = ["T[]"] ∧
      (type.methods.map fun m => m.shownTypes.map (·.qualified)) = [["T", "U"]] ∧
      ∃ unit ∈ files.flatMap SourceFile.types,
        unit.ShowsVariables (files.flatMap SourceFile.units) type := by
  intro files
  have hbox : ∃ type ∈ (ofFiles files).value.types,
      type.fields.map (·.type.qualified) = ["T[]"] ∧
        (type.methods.map fun m => m.shownTypes.map (·.qualified)) = [["T", "U"]] := by
    decide +kernel
  obtain ⟨type, htype, hfields, hmethods⟩ := hbox
  exact ⟨type, htype, hfields, hmethods, showsVariables_of_mem_types files htype⟩

/-- A class of the package takes the place of a type variable of the same name. -/
theorem Catalog.typeVariable_captured :
    ((ofFiles [SourceFile.ofText "package p;class T\x7b\x7d" "T.java",
        SourceFile.ofText "package p;class Box<T>\x7bT v;\x7d" "Box.java"]).value.types.map
      fun type => (type.qualifiedName, type.typeParameters, type.fields.map (·.type.qualified))) =
      [("p.T", [], []), ("p.Box", ["T"], ["p.T"])] := by
  decide +kernel

end ClassChart
