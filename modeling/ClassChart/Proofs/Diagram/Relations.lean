import ClassChart.Diagram.Basic
import ClassChart.Proofs.Journal

/-!
The relationships of a type end at that type: whatever states them, it stands on
the right.
-/
namespace ClassChart

theorem keepFirstFrom_sublist {α : Type} (same : α → α → Bool) (kept as : List α) :
    (keepFirstFrom same kept as).Sublist as := by
  induction as generalizing kept with
  | nil => exact List.Sublist.refl []
  | cons a rest ih =>
      rw [keepFirstFrom]
      split
      · exact (ih kept).cons a
      · exact (ih (kept ++ [a])).cons_cons a

theorem keepFirst_sublist {α : Type} (same : α → α → Bool) (as : List α) :
    (keepFirst same as).Sublist as :=
  keepFirstFrom_sublist same [] as

/-- A relationship is made from any two named ends and an arrow, and from nothing
else. -/
theorem Relationship.make_eq_ok_iff {left right : Endpoint} {arrow : String}
    {r : Relationship} :
    make (some left) arrow (some right) = .ok r ↔
      left.name ≠ "" ∧ right.name ≠ "" ∧ arrow ≠ "" ∧ r = ⟨left, arrow, right, []⟩ := by
  by_cases hleft : left.name = ""
  · simp [make, checkEnd, hleft, bind, Except.bind]
  by_cases hright : right.name = ""
  · simp [make, checkEnd, hleft, hright, bind, Except.bind]
  by_cases harrow : arrow = ""
  · simp [make, checkEnd, hleft, hright, harrow, bind, Except.bind, throw, throwThe,
      MonadExceptOf.throw]
  · simp only [make, checkEnd, String.isEmpty_iff, hleft, hright, harrow, if_false, bind,
      Except.bind, pure, Except.pure, Except.ok.injEq, ne_eq, not_false_eq_true, true_and]
    exact eq_comm

namespace Relations

open Attempt

variable (rs : Relations) (type : NamedType)

/-- Every relationship of a list has the type on its right. -/
def EndAt (found : List Relationship) : Prop :=
  ∀ r ∈ found, r.right.name = type.qualifiedName

theorem endAt_nil : EndAt type [] :=
  fun _ hr => absurd hr List.not_mem_nil

theorem endAt_append {found more : List Relationship} (hfound : EndAt type found)
    (hmore : EndAt type more) : EndAt type (found ++ more) :=
  List.forall_mem_append.mpr ⟨hfound, hmore⟩

theorem endAt_flatten {lists : List (List Relationship)}
    (hlists : ∀ found ∈ lists, EndAt type found) : EndAt type lists.flatten := by
  intro r hr
  obtain ⟨found, hfound, hmem⟩ := List.mem_flatten.mp hr
  exact hlists found hfound r hmem

theorem link_endAt (other : String) (arrow : Arrow) :
    (do return [← link other arrow type.qualifiedName] : Attempt _).Ensures (EndAt type) := by
  have hlink : (link other arrow type.qualifiedName).Ensures
      fun r => r.right.name = type.qualifiedName := by
    intro r hr
    obtain ⟨_, _, _, rfl⟩ := Relationship.make_eq_ok_iff.mp hr
    rfl
  refine hlink.bind fun r hr => ensures_pure ?_
  intro r' hr'
  rw [List.mem_singleton.mp hr']
  exact hr

theorem toSuperclass_endAt : (rs.toSuperclass type).Ensures (EndAt type) := by
  rw [toSuperclass]
  split
  · exact (ensures_emit _).bind fun _ _ => ensures_pure (endAt_nil type)
  · split
    · exact (ensures_emit _).bind fun _ _ => ensures_pure (endAt_nil type)
    · exact link_endAt type _ _

theorem toInterface_endAt (interface : Option String) :
    (rs.toInterface type interface).Ensures (EndAt type) := by
  rw [toInterface.eq_def]
  split
  · exact (ensures_emit _).bind fun _ _ => ensures_pure (endAt_nil type)
  · split
    · exact (ensures_emit _).bind fun _ _ => ensures_pure (endAt_nil type)
    · exact link_endAt type _ _

theorem toEnclosing_endAt : (toEnclosing type).Ensures (EndAt type) := by
  rw [toEnclosing]
  split
  · exact ensures_pure (endAt_nil type)
  · exact link_endAt type _ _

theorem tag_relationship_right (tag : RelationTag) (text : String) :
    (tag.relationship rs.catalog type text).Ensures
      fun found => ∀ r ∈ found, r.right.name = type.qualifiedName := by
  have hmake : ∀ left arrow cardinality,
      (ofExcept (Relationship.make (some left) arrow
        (some ⟨type.qualifiedName, cardinality⟩))).Ensures
        fun r => r.right.name = type.qualifiedName := by
    intro left arrow cardinality r hr
    obtain ⟨_, _, _, rfl⟩ := Relationship.make_eq_ok_iff.mp hr
    rfl
  rw [RelationTag.relationship]
  split
  · refine (hmake _ _ _).bind fun r hr => ensures_pure ?_
    simpa using hr
  · refine (hmake _ _ _).bind fun r hr => ensures_pure ?_
    split <;> simpa [Relationship.addNote] using hr
  · exact (ensures_emit _).bind fun _ _ => ensures_pure (by simp)

theorem relationshipsOf_endAt (tag : RelationTag) (texts : List String) :
    (tag.relationshipsOf rs.catalog type texts).Ensures (EndAt type) := by
  induction texts with
  | nil => exact ensures_pure (endAt_nil type)
  | cons text rest ih =>
      rw [RelationTag.relationshipsOf]
      refine (tag_relationship_right rs type tag text).bind fun found hfound => ?_
      cases found with
      | none => exact ih
      | some r =>
          refine (ensures_emit _).bind fun _ _ => ih.bind fun more hmore => ensures_pure ?_
          exact List.forall_mem_cons.mpr ⟨hfound r rfl, hmore⟩

theorem sources_endAt {source : Source} (hsource : source ∈ rs.sources) :
    (source type).Ensures (EndAt type) := by
  rw [sources] at hsource
  split at hsource
  · rw [List.mem_singleton.mp hsource, RelationTag.relationships]
    have hlists := ensures_mapM fun tag (_ : tag ∈ RelationTag.all) =>
      relationshipsOf_endAt rs type tag (type.tagsNamed tag.word)
    exact hlists.bind fun lists h => ensures_pure (endAt_flatten type h)
  · contradiction

/-- Every relationship that is found for a type has it on the right. -/
theorem ofType_endAt : (rs.ofType type).Ensures (EndAt type) := by
  have hinterfaces := ensures_mapM fun interface (_ : interface ∈ type.interfaces) =>
    toInterface_endAt rs type interface
  have hsources := ensures_mapM fun source (hsource : source ∈ rs.sources) =>
    sources_endAt rs type hsource
  rw [ofType]
  refine (toSuperclass_endAt rs type).bind fun superclass hsuper => ?_
  refine hinterfaces.bind fun interfaces hinter => ?_
  refine (toEnclosing_endAt type).bind fun enclosing henclosing => ?_
  refine hsources.bind fun stated hstated => ?_
  refine (ensures_emit _).bind fun _ _ => ensures_pure ?_
  have hall := endAt_append type (endAt_append type
    (endAt_append type hsuper (endAt_flatten type hinter)) henclosing) (endAt_flatten type hstated)
  intro r hr
  exact hall r ((keepFirst_sublist _ _).subset hr)

end Relations

end ClassChart
