import ClassChart.Proofs.Diagram.Candidates
import Mathlib.Data.List.Induction

/-!
The relationships of a type, from whatever sources: the candidates without those that repeat
an earlier one.
-/
namespace ClassChart

/-- The elements of a list that agree with none before them. -/
inductive KeepsFirst {α : Type} (same : α → α → Prop) : List α → List α → Prop
  | nil : KeepsFirst same [] []
  | new {as kept : List α} {a : α} (hnew : ∀ b ∈ as, ¬same a b) (hkept : KeepsFirst same as kept) :
      KeepsFirst same (as ++ [a]) (kept ++ [a])
  | again {as kept : List α} {a b : α} (hb : b ∈ as) (hsame : same a b)
      (hkept : KeepsFirst same as kept) : KeepsFirst same (as ++ [a]) kept

section

variable {α : Type} {same : α → α → Bool}

theorem keepFirst_concat (as : List α) (a : α) :
    keepFirst same (as ++ [a]) =
      if (keepFirst same as).any (same a) then keepFirst same as
      else keepFirst same as ++ [a] := by
  rw [keepFirst, keepFirstFrom_append, List.nil_append, keepFirstFrom, keepFirstFrom,
    keepFirstFrom, ← keepFirst]
  split
  · rw [List.append_nil]
  · rfl

/-- Every element agrees with one that is kept. -/
theorem exists_mem_keepFirst (hrefl : ∀ a, same a a = true) {as : List α} {a : α} (ha : a ∈ as) :
    ∃ kept ∈ keepFirst same as, same a kept = true := by
  induction as using List.reverseRecOn with
  | nil => contradiction
  | append_singleton as last ih =>
      rw [keepFirst_concat]
      rcases List.mem_append.mp ha with hmem | hlast
      · obtain ⟨kept, hkept, hsame⟩ := ih hmem
        refine ⟨kept, ?_, hsame⟩
        split
        · exact hkept
        · exact List.mem_append_left _ hkept
      · rw [List.mem_singleton.mp hlast]
        split
        · rename_i hany
          obtain ⟨kept, hkept, hsame⟩ := List.any_eq_true.mp hany
          exact ⟨kept, hkept, hsame⟩
        · exact ⟨last, by simp, hrefl last⟩

/-- It does not matter whether an element is compared with all before it or with those kept. -/
theorem any_keepFirst (hrefl : ∀ a, same a a = true)
    (htrans : ∀ a b c, same a b = true → same b c = true → same a c = true) (as : List α) (a : α) :
    (keepFirst same as).any (same a) = true ↔ ∃ b ∈ as, same a b = true := by
  rw [List.any_eq_true]
  constructor
  · rintro ⟨kept, hkept, hsame⟩
    exact ⟨kept, (keepFirst_sublist same as).subset hkept, hsame⟩
  · rintro ⟨b, hb, hsame⟩
    obtain ⟨kept, hkept, hagrees⟩ := exists_mem_keepFirst hrefl hb
    exact ⟨kept, hkept, htrans a b kept hsame hagrees⟩

/-- An equivalence keeps the first element of each class, in order. -/
theorem keepFirst_eq_iff (hrefl : ∀ a, same a a = true)
    (htrans : ∀ a b c, same a b = true → same b c = true → same a c = true)
    {as kept : List α} :
    keepFirst same as = kept ↔ KeepsFirst (fun a b => same a b = true) as kept := by
  constructor
  · rintro rfl
    induction as using List.reverseRecOn with
    | nil => exact .nil
    | append_singleton as last ih =>
        rw [keepFirst_concat]
        split
        · rename_i hany
          obtain ⟨b, hb, hsame⟩ := (any_keepFirst hrefl htrans as last).mp hany
          exact .again hb hsame ih
        · rename_i hnone
          rw [any_keepFirst hrefl htrans] at hnone
          exact .new (fun b hb hsame => hnone ⟨b, hb, hsame⟩) ih
  · intro hkept
    induction hkept with
    | nil => rfl
    | @new as kept a hnew _ ih =>
        have hnone : ¬(keepFirst same as).any (same a) = true := by
          rw [any_keepFirst hrefl htrans]
          rintro ⟨b, hb, hsame⟩
          exact hnew b hb hsame
        rw [keepFirst_concat, if_neg hnone, ih]
    | @again as kept a b hb hsame _ ih =>
        have hany := (any_keepFirst hrefl htrans as a).mpr ⟨b, hb, hsame⟩
        rw [keepFirst_concat, if_pos hany, ih]

end

/-- Two relationships join the same ends, cardinalities included, by the same arrow. -/
structure Relationship.SameEdge (a b : Relationship) : Prop where
  left : a.left = b.left
  arrow : a.arrow = b.arrow
  right : a.right = b.right

theorem Relationship.sameEdge_iff {a b : Relationship} :
    a.sameEdge b = true ↔ a.SameEdge b := by
  simp only [sameEdge, Bool.and_eq_true, decide_eq_true_eq, and_assoc]
  exact ⟨fun ⟨hleft, harrow, hright⟩ => ⟨hleft, harrow, hright⟩,
    fun ⟨hleft, harrow, hright⟩ => ⟨hleft, harrow, hright⟩⟩

theorem keepFirst_sameEdge_eq_iff {edges kept : List Relationship} :
    keepFirst Relationship.sameEdge edges = kept ↔
      KeepsFirst Relationship.SameEdge edges kept := by
  rw [keepFirst_eq_iff]
  · simp only [Relationship.sameEdge_iff]
  · exact fun a => Relationship.sameEdge_iff.mpr ⟨rfl, rfl, rfl⟩
  · simp only [Relationship.sameEdge_iff]
    rintro a b c hab hbc
    exact ⟨hab.left.trans hbc.left, hab.arrow.trans hbc.arrow, hab.right.trans hbc.right⟩

namespace Relations

/-- Finding the relationships of a type fails if there is no type or if an end of a candidate has
no name, and for no other reason.  Otherwise the candidates are found in order, without those
that are the same edge as an earlier one. -/
theorem result_ofType?_eq_ok_iff (rs : Relations) {sources : List Source}
    {stated : List (NamedType → List Relationship)}
    (hsources : List.Forall₂ Source.States sources stated) (type? : Option NamedType) :
    ((∃ fault, (rs.ofType? type? sources).result = .error fault) ↔
        type? = none ∨ ∃ type ∈ type?, ∃ r ∈ rs.candidatesFrom type stated,
          r.left.name = "" ∨ r.right.name = "") ∧
      (∀ fault, (rs.ofType? type? sources).result = .error fault →
        fault = .nothingToResolve ∨ ∃ side, fault = .endUnnamed side) ∧
      ∀ found, (rs.ofType? type? sources).result = .ok found ↔
        ∃ type ∈ type?, (∀ r ∈ rs.candidatesFrom type stated, r.Named) ∧
          KeepsFirst Relationship.SameEdge (rs.candidatesFrom type stated) found := by
  cases type? with
  | none =>
      have hresult : (rs.ofType? none sources).result = .error .nothingToResolve := rfl
      simp [hresult]
  | some type =>
      have hmakes : (rs.ofType? (some type) sources).Makes (rs.candidatesFrom type stated) _ :=
        makes_ofType rs type hsources
      have hfails (fault : Fault) : (rs.ofType? (some type) sources).result = .error fault ↔
          ∃ side, (rs.candidatesFrom type stated).findSome? Relationship.unnamedEnd? = some side ∧
            fault = .endUnnamed side :=
        hmakes.result_eq_error_iff.trans Relationship.makeAll_eq_error_iff
      refine ⟨⟨?_, ?_⟩, ?_, ?_⟩
      · rintro ⟨fault, hfault⟩
        obtain ⟨side, hside, -⟩ := (hfails fault).mp hfault
        obtain ⟨r, hr, hend⟩ := List.exists_of_findSome?_eq_some hside
        refine .inr ⟨type, rfl, r, hr, ?_⟩
        by_contra hnamed
        rw [Relationship.unnamedEnd?_eq_none_iff.mpr (not_or.mp hnamed)] at hend
        contradiction
      · rintro (hmissing | ⟨other, hother, r, hr, hend⟩)
        · contradiction
        · obtain rfl := Option.some.inj hother
          cases hfirst : (rs.candidatesFrom type stated).findSome? Relationship.unnamedEnd? with
          | none =>
              have hnamed := Relationship.unnamedEnd?_eq_none_iff.mp
                (List.findSome?_eq_none_iff.mp hfirst r hr)
              exact absurd hend (not_or.mpr hnamed)
          | some side => exact ⟨_, (hfails _).mpr ⟨side, hfirst, rfl⟩⟩
      · intro fault hfault
        obtain ⟨side, -, rfl⟩ := (hfails fault).mp hfault
        exact .inr ⟨side, rfl⟩
      · intro found
        rw [hmakes.result_eq_ok_iff]
        simp only [Option.mem_def, Option.some.injEq, exists_eq_left',
          ← keepFirst_sameEdge_eq_iff, eq_comm]

/-- A tag and another source repeat edges of the declaration, two tags state one edge with
different labels, and the enclosing type is excluded in vain. -/
theorem result_ofType?_repeated_edges :
    let dog : NamedType :=
      { qualifiedName := "p.Zoo.Dog", name := "Dog", package := "p", superclass := some "p.Animal"
        interfaces := [some "p.Pet", none, some "java.lang.Cloneable", some "p.Pet"]
        enclosingType := some "p.Zoo"
        tags := [("has", "1 left 4 Leg"), ("has", "1 right 4 Leg"),
          ("extends", "- too - p.Animal")] }
    let rs : Relations :=
      { catalog := (Catalog.ofList [dog]).value, excluded := ["java.lang.Cloneable", "p.Zoo"] }
    let pets : Source := fun type => do
      return [← link "p.Pet" .implementation type.qualifiedName]
    let sources : List Source := [RelationTag.relationships rs.catalog, pets]
    let stated : List (NamedType → List Relationship) :=
      [RelationTag.statedBy rs.catalog,
        fun type => [edge type.qualifiedName .implementation "p.Pet"]]
    List.Forall₂ Source.States sources stated ∧
      (rs.ofType? (some dog) sources).result = .ok
        [edge "p.Zoo.Dog" .extension "p.Animal", edge "p.Zoo.Dog" .implementation "p.Pet",
          edge "p.Zoo.Dog" .containment "p.Zoo",
          ⟨⟨"Leg", some "4"⟩, "o--", ⟨"p.Zoo.Dog", some "1"⟩, ["left"]⟩] := by
  intro dog rs pets sources stated
  have hsources : List.Forall₂ Source.States sources stated := by
    refine .cons (RelationTag.makes_relationships rs.catalog) (.cons ?_ .nil)
    exact fun type => makes_link type.qualifiedName .implementation "p.Pet"
  have hnamed : ∀ r ∈ rs.candidatesFrom dog stated, r.Named := by decide +kernel
  refine ⟨hsources, ?_⟩
  rw [(result_ofType?_eq_ok_iff rs hsources (some dog)).2.2]
  refine ⟨dog, rfl, hnamed, keepFirst_sameEdge_eq_iff.mp ?_⟩
  decide +kernel

end Relations

end ClassChart
