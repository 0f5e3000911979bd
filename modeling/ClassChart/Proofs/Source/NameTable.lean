import ClassChart.Proofs.Source.Scopes
import ClassChart.Source.Documented

/-!
What a table of names knows about units, and that names are resolved by nothing
else: tables that know the same names and the same enclosing types resolve alike.
-/
namespace ClassChart

theorem filter_isType_units (files : List SourceFile) :
    (files.flatMap SourceFile.units).filter SourceUnit.isType =
      files.flatMap SourceFile.types :=
  List.filter_flatMap

/-- Whether a unit declares the type of this name. -/
def SourceUnit.declares (name : String) (unit : SourceUnit) : Bool :=
  unit.qualifiedName = name && unit.isType

/-- The declarations of the type of this name. -/
def SourceUnit.declarations (units : List SourceUnit) (name : String) : List SourceUnit :=
  units.filter (declares name)

theorem SourceUnit.declarations_append (units units' : List SourceUnit) (name : String) :
    declarations (units ++ units') name = declarations units name ++ declarations units' name :=
  List.filter_append ..

theorem SourceUnit.declarations_eq (units : List SourceUnit) (name : String) :
    declarations units name = (units.filter isType).filter (·.qualifiedName = name) := by
  rw [List.filter_filter]
  rfl

namespace NameTable

/-- A name is known if a type of that name is declared. -/
theorem isKnown_ofUnits (units : List SourceUnit) (name : String) :
    (ofUnits units).isKnown name =
      (SourceUnit.declarations units name).getLast?.isSome := by
  rw [Bool.eq_iff_iff, List.getLast?_isSome, SourceUnit.declarations_eq]
  simp only [isKnown, ofUnits, List.contains_iff_mem, List.mem_map, ne_eq,
    List.filter_eq_nil_iff, decide_eq_true_eq, not_forall, not_not, exists_prop]

theorem lookup_map_pair {α β : Type} (key : α → String) (value : α → β) (as : List α)
    (name : String) :
    (as.map fun a => (key a, value a)).lookup name =
      (as.find? (key · = name)).map value := by
  induction as with
  | nil => rfl
  | cons a rest ih =>
      rw [List.map_cons, List.lookup_cons, List.find?_cons]
      by_cases hkey : key a = name
      · simp [hkey]
      · have hne : (name == key a) = false := by simpa using Ne.symm hkey
        simp [hkey, hne, ih]

/-- The last declaration of a type says in which type it stands. -/
theorem enclosingOf_ofUnits (units : List SourceUnit) (name : String) :
    (ofUnits units).enclosingOf name =
      ((SourceUnit.declarations units name).getLast?.map SourceUnit.parentName).join := by
  rw [enclosingOf, ofUnits, ← List.map_reverse, lookup_map_pair, ← List.head?_filter,
    List.filter_reverse, List.head?_reverse, ← SourceUnit.declarations_eq]

/-- The walk outwards asks a table only in which types other types stand. -/
theorem scopesUpTo_eq {table table' : NameTable} (h : table.enclosingOf = table'.enclosingOf)
    (fuel : Nat) (scope : Option String) :
    table.scopesUpTo fuel scope = table'.scopesUpTo fuel scope := by
  induction fuel generalizing scope with
  | zero => rfl
  | succ n ih =>
      cases scope with
      | none => rfl
      | some name => rw [scopesUpTo, scopesUpTo, ih, h]

/-- Two tables that say the same, perhaps with their entries in another order or
with entries that do not count. -/
structure Agrees (table table' : NameTable) : Prop where
  isKnown : table.isKnown = table'.isKnown
  enclosingOf : table.enclosingOf = table'.enclosingOf

namespace Agrees

variable {table table' : NameTable} (h : table.Agrees table')

include h

/-- The walks may be cut off at different lengths, so both are compared with one
that is longer than either. -/
theorem find?_scopes (found : String → Bool) (scope : Option String) :
    (table.scopes scope).find? found = (table'.scopes scope).find? found := by
  have hleft : table.enclosing.length < table.enclosing.length + table'.enclosing.length + 1 := by
    omega
  have hright : table'.enclosing.length < table.enclosing.length + table'.enclosing.length + 1 := by
    omega
  rw [← find?_scopesUpTo found hleft, ← find?_scopesUpTo found hright,
    scopesUpTo_eq h.enclosingOf]

theorem resolve : table.resolve = table'.resolve := by
  have hscopes (inside : String → String) (scope : Option String) :
      table.firstKnown ((table.scopes scope).map inside) =
        table'.firstKnown ((table'.scopes scope).map inside) := by
    rw [firstKnown, firstKnown, List.find?_map, List.find?_map, h.isKnown, h.find?_scopes]
  have hfirst : table.firstKnown = table'.firstKnown := by
    funext names
    rw [firstKnown, firstKnown, h.isKnown]
  funext place written
  simp only [NameTable.resolve, lookUp, h.isKnown, hscopes, hfirst]

theorem qualify : table.qualify = table'.qualify := by
  funext place written
  rw [NameTable.qualify, NameTable.qualify, h.resolve]

theorem toNamedType (unit : SourceUnit) (members : List SourceUnit) :
    unit.toNamedType members table = unit.toNamedType members table' := by
  rw [SourceUnit.toNamedType, SourceUnit.toNamedType, h.resolve, h.qualify]

end Agrees

/-- A table depends only on where the last declaration of each type stands. -/
theorem agrees_ofUnits {units units' : List SourceUnit}
    (hlast : ∀ name,
      (SourceUnit.declarations units' name).getLast?.map SourceUnit.parentName =
        (SourceUnit.declarations units name).getLast?.map SourceUnit.parentName) :
    (ofUnits units').Agrees (ofUnits units) where
  isKnown := by
    funext name
    have hsome := congrArg Option.isSome (hlast name)
    rw [Option.isSome_map, Option.isSome_map] at hsome
    rw [isKnown_ofUnits, isKnown_ofUnits, hsome]
  enclosingOf := by
    funext name
    rw [enclosingOf_ofUnits, enclosingOf_ofUnits, hlast]

/-- If every type has one declaration, the order of the units does not matter. -/
theorem agrees_of_perm {units units' : List SourceUnit} (hperm : units'.Perm units)
    (hnames : ((units.filter SourceUnit.isType).map SourceUnit.qualifiedName).Nodup) :
    (ofUnits units').Agrees (ofUnits units) := by
  refine agrees_ofUnits fun name => ?_
  have hsame : (SourceUnit.declarations units' name).Perm (SourceUnit.declarations units name) :=
    hperm.filter _
  have heq : SourceUnit.declarations units' name = SourceUnit.declarations units name := by
    have hany (as : List SourceUnit) : as.Pairwise fun _ _ => True :=
      List.pairwise_of_forall fun _ _ => trivial
    refine List.Perm.eq_of_pairwise ?_ (hany _) (hany _) hsame
    intro a b ha hb _ _
    rw [hsame.mem_iff] at ha
    rw [SourceUnit.declarations_eq, List.mem_filter, decide_eq_true_eq] at ha hb
    exact List.inj_on_of_nodup_map hnames ha.1 hb.1 (ha.2.trans hb.2.symm)
  rw [heq]

/-- A name that is looked up stays as it is, becomes a known name or an imported
one, or turns out to be well known. -/
theorem lookUp_cases (table : NameTable) (place : Place) (name : String) :
    table.lookUp place name = name ∨
      table.isKnown (table.lookUp place name) = true ∨
      (∃ i ∈ place.imports, table.lookUp place name = i ∨
        table.lookUp place name = i ++ "." ++ Text.beyond '.' name) ∨
      table.lookUp place name = "java.lang." ++ name := by
  have hfirst {names : List String} {found : String} (h : table.firstKnown names = some found) :
      table.isKnown found = true := List.find?_some h
  rw [lookUp]
  split
  · exact .inl rfl
  · generalize hfound : Option.or _ _ = found
    cases found with
    | none => exact .inl rfl
    | some found =>
        simp only [Option.or_eq_some_iff] at hfound
        rw [Option.getD_some]
        rcases hfound with hscope | ⟨-, himport | ⟨-, hpackage | ⟨-, hdemand | ⟨-, hwell⟩⟩⟩⟩
        · exact .inr (.inl (hfirst hscope))
        · obtain ⟨i, hi, heq⟩ := Option.map_eq_some_iff.mp himport
          refine .inr (.inr (.inl ⟨i, List.mem_of_find?_eq_some hi, ?_⟩))
          split at heq
          · exact .inl heq.symm
          · exact .inr heq.symm
        · exact .inr (.inl (hfirst hpackage))
        · exact .inr (.inl (hfirst hdemand))
        · rw [wellKnownName] at hwell
          split at hwell
          · exact .inr (.inr (.inr (Option.some.inj hwell).symm))
          · contradiction

end NameTable

end ClassChart
