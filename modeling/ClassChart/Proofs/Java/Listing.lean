import ClassChart.Proofs.Java.Sites
import Mathlib.Data.List.Forall2

/-!
The units of a source file are its listing: each entry gives one unit, which carries the name
of its declaration and those of the types around it.
-/
namespace ClassChart.Java

namespace Declaration

def kind : Declaration → UnitKind
  | .type header => .type header.form.kind
  | .component .. => .field
  | .method _ => .method
  | .constructor _ => .constructor
  | .field .. => .field

/-- The name of a declaration in the named types.  A constructor has that of its type. -/
def nameIn (outer : List String) : Declaration → String
  | .type header => header.name
  | .component _ parameter => parameter.name
  | .method m => m.name
  | .constructor _ => outer.getLast?.getD ""
  | .field _ d => d.name

def slice : Declaration → Slice
  | .type header => header.slice
  | .component header _ => header.slice
  | .method m => m.source.slice
  | .constructor c => c.source.slice
  | .field f _ => f.slice

def signature : Declaration → String
  | .type header => typeSignature header.slice.text
  | d => memberSignature d.slice.text

/-- What stands between the parentheses of a method or constructor. -/
def formals : Declaration → List Formal
  | .method m => m.formals
  | .constructor c => c.formals
  | _ => []

end Declaration

/-- Names from outside in, after that of the package if it has one. -/
def dottedName (package : String) (names : List String) : String :=
  ".".intercalate (if package.isEmpty then names else package :: names)

/-- The qualified name of the innermost of the named types. -/
def innermost (package : String) (outer : List String) : Option String :=
  if outer.isEmpty then none else some (dottedName package outer)

/-- The unit of a declaration that stands in the named types of a package. -/
structure Declaration.HasUnit (package : String) (outer : List String) (d : Declaration)
    (unit : SourceUnit) : Prop where
  kind : unit.kind = d.kind
  name : unit.name = d.nameIn outer
  qualifiedName : unit.qualifiedName = dottedName package (outer ++ [d.nameIn outer])
  parentName : unit.parentName = innermost package outer
  lines : (unit.firstLine, unit.lastLine) = (d.slice.firstLine, d.slice.lastLine)
  signature : unit.signature = some d.signature

/-- The unit with the parameters of its declaration. -/
structure Declaration.Gives (package : String) (outer : List String) (d : Declaration)
    (unit : SourceUnit) : Prop extends d.HasUnit package outer unit where
  parameters : unit.parameters = d.formals.filterMap Formal.parameter?

/-- The name of an inner type is that of the outer one with its own name after a dot. -/
theorem dottedName_append {outer : List String} (houter : outer ≠ []) (package name : String) :
    dottedName package (outer ++ [name]) = dottedName package outer ++ "." ++ name := by
  unfold dottedName
  split
  · rw [String.intercalate_append_of_ne_nil houter (List.cons_ne_nil _ _),
      String.intercalate_singleton]
  · rw [← List.cons_append, String.intercalate_append_of_ne_nil (List.cons_ne_nil _ _)
      (List.cons_ne_nil _ _), String.intercalate_singleton]

theorem innermost_of_ne_nil {outer : List String} (houter : outer ≠ []) (package : String) :
    innermost package outer = some (dottedName package outer) := by
  rw [innermost, if_neg (by simpa using houter)]

/-- Names are put together from the inside or from the outside with the same result. -/
theorem qualify_innermost (package : String) (outer : List String) (name : String) :
    qualify (innermost package outer) package name = dottedName package (outer ++ [name]) := by
  by_cases houter : outer = []
  · subst houter
    by_cases hpackage : package.isEmpty = true
    · simp [innermost, qualify, dottedName, hpackage]
    · simp [innermost, qualify, dottedName, hpackage]
  · rw [innermost_of_ne_nil houter, dottedName_append houter]
    rfl

section

variable (o : Origin) {outer : List String} (houter : outer ≠ [])

include houter

theorem gives_of_member {d : Declaration} {unit : SourceUnit} (hkind : unit.kind = d.kind)
    (hname : unit.name = d.nameIn outer)
    (hqualified : unit.qualifiedName = dottedName o.package outer ++ "." ++ d.nameIn outer)
    (hparent : unit.parentName = some (dottedName o.package outer))
    (hlines : (unit.firstLine, unit.lastLine) = (d.slice.firstLine, d.slice.lastLine))
    (hsignature : unit.signature = some d.signature)
    (hparameters : unit.parameters = d.formals.filterMap Formal.parameter?) :
    d.Gives o.package outer unit where
  kind := hkind
  name := hname
  qualifiedName := hqualified.trans (dottedName_append houter _ _).symm
  parentName := hparent.trans (innermost_of_ne_nil houter _).symm
  lines := hlines
  signature := hsignature
  parameters := hparameters

/-- The components of a record give one field each, in order. -/
theorem forall₂_componentUnits (header : TypeHeader) :
    List.Forall₂ (fun found unit => found.2.Gives o.package outer unit)
      (componentEntries header) (componentUnits o (dottedName o.package outer) header) := by
  unfold componentEntries componentUnits
  -- The places of the components are counted on, so the statement is for any first place.
  generalize 0 = start
  induction header.components generalizing start with
  | nil => exact .nil
  | cons f rest ih =>
      rw [List.zipIdx_cons]
      cases hparameter : f.parameter? with
      | none =>
          rw [List.filterMap_cons_none (by simp [hparameter]),
            List.filterMap_cons_none hparameter]
          exact ih (start + 1)
      | some p =>
          rw [List.filterMap_cons_some (by simp [hparameter]; rfl),
            List.filterMap_cons_some hparameter, List.map_cons]
          exact .cons (gives_of_member o houter rfl rfl rfl rfl rfl rfl rfl) (ih (start + 1))

variable {owner : SourceUnit} (hname : outer.getLast? = some owner.name)
  (howner : owner.qualifiedName = dottedName o.package outer)

include hname howner

/-- A member that is no type gives the units of what it declares, in order. -/
theorem forall₂_ownUnits (before : Option Comment) (m : Member) (i : Nat) :
    List.Forall₂ (fun found unit => found.2.Gives o.package outer unit)
      (m.ownEntries i) (ownUnits o owner before m) := by
  cases m with
  | method m =>
      refine .cons ?_ .nil
      exact gives_of_member o houter rfl rfl (howner ▸ rfl) (howner ▸ rfl) rfl rfl rfl
  | constructor c =>
      have hown : (Declaration.constructor c).nameIn outer = owner.name := by
        rw [Declaration.nameIn, hname, Option.getD_some]
      refine .cons ?_ .nil
      exact gives_of_member o houter rfl hown.symm (hown ▸ howner ▸ rfl) (howner ▸ rfl) rfl rfl rfl
  | field f =>
      have hparts (unitOf : Declarator → SourceUnit) :
          f.declarators.map unitOf = f.declarators.zipIdx.map (unitOf ∘ Prod.fst) := by
        rw [← List.map_map, List.zipIdx_map_fst]
      rw [Member.ownEntries, ownUnits, fieldUnits, hparts, List.forall₂_map_left_iff,
        List.forall₂_map_right_iff]
      apply List.forall₂_same.mpr
      intro found _
      exact gives_of_member o houter rfl rfl (howner ▸ rfl) (howner ▸ rfl) rfl rfl rfl
  | type => exact .nil
  | comment => exact .nil
  | other => exact .nil

/-- The members of a type that are no types give their units in the order of the source. -/
theorem forall₂_allOwnUnits (before : Option Comment) (members : List Member) :
    List.Forall₂ (fun found unit => found.2.Gives o.package outer unit)
      (memberEntries members) (allOwnUnits o owner before members) := by
  unfold memberEntries
  generalize 0 = start
  induction members generalizing start before with
  | nil => exact .nil
  | cons m rest ih =>
      rw [List.zipIdx_cons, List.flatMap_cons, allOwnUnits]
      exact List.rel_append (forall₂_ownUnits o houter hname howner before m start)
        (ih m.comment? (start + 1))

end

namespace Member

mutual

/-- A type gives its own unit, those of its members, and then those of its inner types.  The
induction is on the tree, for any comment before it. -/
theorem forall₂_typeUnits (o : Origin) : (m : Member) → (around : List String) →
    (before : Option Comment) →
    List.Forall₂ (fun e unit => e.declaration.Gives o.package (around ++ e.outer) unit)
      m.listing (typeUnits o (innermost o.package around) before m)
  | .type header members, around, before => by
      have hqualified : (typeUnit o (innermost o.package around) before header).qualifiedName =
          dottedName o.package (around ++ [header.name]) := qualify_innermost _ _ _
      have houter : around ++ [header.name] ≠ [] := by simp
      have hlast : (around ++ [header.name]).getLast? =
          some (typeUnit o (innermost o.package around) before header).name := by simp [typeUnit]
      have hown := List.rel_append (forall₂_componentUnits o houter header)
        (forall₂_allOwnUnits o houter hlast hqualified none members)
      have hnested := forall₂_nestedUnits o members 0 houter none
      rw [listing, typeUnits, hqualified]
      refine .cons ?_ (List.rel_append ?_ ?_)
      · rw [List.append_nil]
        exact ⟨⟨rfl, rfl, hqualified, rfl, rfl, rfl⟩, rfl⟩
      · exact List.forall₂_map_left_iff.mpr hown
      · refine List.forall₂_map_left_iff.mpr (hnested.imp ?_)
        intro e unit hunit
        simpa [Entry.inside] using hunit
  | .method _, _, _ => .nil
  | .constructor _, _, _ => .nil
  | .field _, _, _ => .nil
  | .comment _, _, _ => .nil
  | .other, _, _ => .nil

theorem forall₂_nestedUnits (o : Origin) : (members : List Member) → (start : Nat) →
    {around : List String} → around ≠ [] → (before : Option Comment) →
    List.Forall₂ (fun e unit => e.declaration.Gives o.package (around ++ e.outer) unit)
      (nestedListing start members) (nestedUnits o (dottedName o.package around) before members)
  | [], _, _, _, _ => .nil
  | m :: rest, start, around, haround, before => by
      have hfirst := forall₂_typeUnits o m around before
      rw [innermost_of_ne_nil haround] at hfirst
      rw [nestedListing, nestedUnits]
      refine List.rel_append (List.forall₂_map_left_iff.mpr hfirst) ?_
      exact forall₂_nestedUnits o rest (start + 1) haround m.comment?

end

end Member

namespace CompilationUnit

/-- The types at the top of a file give their units in the order of the source. -/
theorem forall₂_itemUnits (o : Origin) (before : Option Comment) (items : List Item)
    (start : Nat) :
    List.Forall₂ (fun e u => e.declaration.Gives o.package e.outer u)
      (nestedListing start (items.map Item.asMember)) (itemUnits o before items) := by
  induction items generalizing start before with
  | nil => exact .nil
  | cons item rest ih =>
      rw [List.map_cons, nestedListing]
      unfold itemUnits
      refine List.rel_append (List.forall₂_map_left_iff.mpr ?_) (ih item.comment? (start + 1))
      cases item with
      | type header members => exact Member.forall₂_typeUnits o (.type header members) [] before
      | package => exact .nil
      | importation => exact .nil
      | comment => exact .nil
      | other => exact .nil

variable (unit : CompilationUnit)

theorem forall₂_gives (filePath : String) :
    List.Forall₂ (fun e u => e.declaration.Gives unit.package e.outer u) unit.listing
      (unit.units filePath) := by
  refine List.forall₂_map_right_iff.mpr ((forall₂_itemUnits _ none unit.items 0).imp ?_)
  intro e u hu
  exact ⟨⟨hu.kind, hu.name, hu.qualifiedName, hu.parentName, hu.lines, hu.signature⟩,
    hu.parameters⟩

end CompilationUnit

end ClassChart.Java
