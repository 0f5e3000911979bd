import ClassChart.Journal
import ClassChart.Model.NamedType

/-!
The catalog of documented types.  It keeps the order in which types were added,
and of two types with one qualified name the first.
-/
namespace ClassChart

/-- The documented types, no two with one qualified name. -/
structure Catalog where
  types : List NamedType
  distinct : (types.map NamedType.qualifiedName).Nodup
deriving Repr, DecidableEq

namespace Catalog

def empty : Catalog :=
  ⟨[], List.nodup_nil⟩

instance : Inhabited Catalog := ⟨empty⟩

def contains (catalog : Catalog) (name : String) : Bool :=
  catalog.types.any (·.qualifiedName = name)

/-- The type of a qualified name.  The empty name finds nothing. -/
def find? (catalog : Catalog) (name : String) : Option NamedType :=
  if name.isEmpty then none else catalog.types.find? (·.qualifiedName = name)

def size (catalog : Catalog) : Nat :=
  catalog.types.length

theorem distinct_append {catalog : Catalog} {type : NamedType}
    (hfree : ¬ catalog.contains type.qualifiedName = true) :
    ((catalog.types ++ [type]).map NamedType.qualifiedName).Nodup := by
  have hnew : type.qualifiedName ∉ catalog.types.map NamedType.qualifiedName := by
    intro hmem
    obtain ⟨old, hold, heq⟩ := List.mem_map.mp hmem
    exact hfree (List.any_eq_true.mpr ⟨old, hold, decide_eq_true heq⟩)
  rw [List.map_append, List.map_singleton, List.nodup_append]
  refine ⟨catalog.distinct, List.pairwise_singleton _ _, ?_⟩
  intro name hname other hother heq
  rw [heq, List.mem_singleton.mp hother] at hname
  exact hnew hname

/-- Add a type, unless its name is taken. -/
def insert (catalog : Catalog) (type : NamedType) : Logged Catalog :=
  if htaken : catalog.contains type.qualifiedName then do
    Logged.emit (.duplicateType type.qualifiedName)
    return catalog
  else return ⟨catalog.types ++ [type], distinct_append htaken⟩

def ofList (types : List NamedType) : Logged Catalog :=
  types.foldlM insert empty

end Catalog

end ClassChart
