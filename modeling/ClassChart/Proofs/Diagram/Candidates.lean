import ClassChart.Proofs.Diagram.Relations
import Mathlib.Data.List.Forall2

/-!
The relationships of a type as a plain list.  What is found for a type are its
candidates in order, each edge once, and the search fails only if an end of a
candidate has no name.
-/
namespace ClassChart

section

variable {α β : Type} (same : α → α → Bool)

theorem keepFirstFrom_append_left (kept more as : List α) :
    keepFirstFrom same (kept ++ more) as =
      keepFirstFrom same more (as.filter fun a => !kept.any (same a)) := by
  induction as generalizing more with
  | nil => rfl
  | cons a rest ih =>
      by_cases hkept : kept.any (same a) = true
      · rw [keepFirstFrom, List.any_append, hkept, Bool.true_or, if_pos rfl, ih,
          List.filter_cons_of_neg (by simp [hkept])]
      · rw [Bool.not_eq_true] at hkept
        rw [keepFirstFrom, List.any_append, hkept, Bool.false_or,
          List.filter_cons_of_pos (by simp [hkept]), keepFirstFrom, List.append_assoc, ih, ih]

theorem keepFirst_cons (a : α) (rest : List α) :
    keepFirst same (a :: rest) = a :: keepFirst same (rest.filter fun b => !same b a) := by
  have hdrop := keepFirstFrom_append_left same [a] [] rest
  simp only [List.append_nil, List.any_cons, List.any_nil, Bool.or_false] at hdrop
  rw [keepFirst, keepFirstFrom, List.nil_append, hdrop]
  rfl

theorem keepFirstFrom_append (kept as bs : List α) :
    keepFirstFrom same kept (as ++ bs) =
      keepFirstFrom same kept as ++ keepFirstFrom same (kept ++ keepFirstFrom same kept as) bs := by
  induction as generalizing kept with
  | nil => simp [keepFirstFrom]
  | cons a rest ih =>
      rw [List.cons_append, keepFirstFrom, keepFirstFrom]
      split
      · exact ih kept
      · rw [ih, List.append_assoc]
        rfl

/-- Lists of which no two elements agree are treated apart. -/
theorem keepFirst_append {as bs : List α} (hapart : ∀ a ∈ as, ∀ b ∈ bs, same b a = false) :
    keepFirst same (as ++ bs) = keepFirst same as ++ keepFirst same bs := by
  have hall : (bs.filter fun b => !(keepFirst same as).any (same b)) = bs := by
    rw [List.filter_eq_self]
    intro b hb
    rw [Bool.not_eq_true', List.any_eq_false]
    intro a ha
    rw [hapart a ((keepFirst_sublist same as).subset ha) b hb]
    exact Bool.false_ne_true
  have hdrop := keepFirstFrom_append_left same (keepFirst same as) [] bs
  rw [List.append_nil, hall] at hdrop
  rw [keepFirst, keepFirstFrom_append, List.nil_append]
  exact congrArg _ hdrop

/-- No two of the kept elements agree, and none agrees with one that was kept before. -/
theorem pairwise_keepFirstFrom (kept as : List α) :
    (keepFirstFrom same kept as).Pairwise (fun a b => same b a = false) ∧
      ∀ a ∈ keepFirstFrom same kept as, ∀ k ∈ kept, same a k = false := by
  induction as generalizing kept with
  | nil => simp [keepFirstFrom]
  | cons a rest ih =>
      rw [keepFirstFrom]
      split
      · exact ih kept
      · rename_i hnew
        rw [Bool.not_eq_true, List.any_eq_false] at hnew
        obtain ⟨hpairwise, hfresh⟩ := ih (kept ++ [a])
        refine ⟨List.pairwise_cons.mpr ⟨?_, hpairwise⟩, ?_⟩
        · intro b hb
          exact hfresh b hb a (by simp)
        · intro b hb k hk
          rcases List.mem_cons.mp hb with rfl | hb
          · exact Bool.eq_false_iff.mpr (hnew k hk)
          · exact hfresh b hb k (List.mem_append_left [a] hk)

theorem pairwise_keepFirst (as : List α) :
    (keepFirst same as).Pairwise fun a b => same b a = false :=
  (pairwise_keepFirstFrom same [] as).1

theorem keepFirst_eq_self {as : List α} (hapart : as.Pairwise fun a b => same b a = false) :
    keepFirst same as = as := by
  induction as with
  | nil => rfl
  | cons a rest ih =>
      obtain ⟨hfirst, hrest⟩ := List.pairwise_cons.mp hapart
      have hall : (rest.filter fun b => !same b a) = rest := by
        rw [List.filter_eq_self]
        intro b hb
        rw [hfirst b hb]
        rfl
      rw [keepFirst_cons, hall, ih hrest]

/-- Elements that agree only if they come from one value are kept once for each value. -/
theorem keepFirst_map_eq_eraseDups [BEq β] {f : β → α}
    (hsame : ∀ a b, same (f a) (f b) = (a == b)) (as : List β) :
    keepFirst same (as.map f) = as.eraseDups.map f := by
  induction hlength : as.length using Nat.strongRecOn generalizing as with
  | _ n ih =>
      cases as with
      | nil => rfl
      | cons a rest =>
          have hfilter : (rest.map f).filter (fun b => !same b (f a)) =
              (rest.filter fun b => !b == a).map f := by
            rw [List.filter_map]
            simp only [Function.comp_def, hsame]
          have hless : (rest.filter fun b => !b == a).length < n := by
            have hle := List.length_filter_le (fun b => !b == a) rest
            rw [List.length_cons] at hlength
            omega
          rw [List.map_cons, keepFirst_cons, hfilter, ih _ hless _ rfl, List.eraseDups_cons,
            List.map_cons]

end

namespace Relationship

/-- Both ends of a relationship have a name. -/
def Named (r : Relationship) : Prop :=
  r.left.name ≠ "" ∧ r.right.name ≠ ""

instance (r : Relationship) : Decidable r.Named :=
  inferInstanceAs (Decidable (_ ∧ _))

/-- The end of a relationship that has no name; of two the left one. -/
def unnamedEnd? (r : Relationship) : Option End :=
  if r.left.name = "" then some .left else if r.right.name = "" then some .right else none

theorem unnamedEnd?_eq_none_iff {r : Relationship} : r.unnamedEnd? = none ↔ r.Named := by
  unfold unnamedEnd? Named
  by_cases hleft : r.left.name = "" <;> by_cases hright : r.right.name = "" <;>
    simp [hleft, hright]

/-- Make relationships one after another.  That fails at the first of which an end has no
name. -/
def makeAll (rs : List Relationship) : Except Fault Unit :=
  (rs.findSome? unnamedEnd?).elim (.ok ()) fun side => .error (.endUnnamed side)

theorem makeAll_append (rs more : List Relationship) :
    makeAll (rs ++ more) = (makeAll rs).bind fun _ => makeAll more := by
  rw [makeAll, makeAll, List.findSome?_append]
  cases rs.findSome? unnamedEnd? <;> rfl

theorem makeAll_eq_ok_iff {rs : List Relationship} :
    makeAll rs = .ok () ↔ ∀ r ∈ rs, r.Named := by
  simp only [← unnamedEnd?_eq_none_iff, ← List.findSome?_eq_none_iff]
  rw [makeAll]
  cases rs.findSome? unnamedEnd? <;> simp

theorem makeAll_eq_error_iff {rs : List Relationship} {fault : Fault} :
    makeAll rs = .error fault ↔
      ∃ side, rs.findSome? unnamedEnd? = some side ∧ fault = .endUnnamed side := by
  rw [makeAll]
  cases rs.findSome? unnamedEnd? <;> simp [eq_comm]

end Relationship

theorem Arrow.text_ne_empty (arrow : Arrow) : arrow.text ≠ "" := by
  cases arrow <;> decide

namespace Attempt

variable {α β : Type}

/-- An attempt that makes relationships one after another and gives back a value, or fails as
soon as one of them cannot be made. -/
def Makes (x : Attempt α) (rs : List Relationship) (value : α) : Prop :=
  x.result = (Relationship.makeAll rs).map fun _ => value

theorem result_bind_eq_ok_iff {x : Attempt α} {f : α → Attempt β} {b : β} :
    (x >>= f).result = .ok b ↔ ∃ a, x.result = .ok a ∧ (f a).result = .ok b := by
  rw [result_bind]
  cases x.result with
  | error e => simp [Except.bind]
  | ok a => simp [Except.bind]

theorem makes_pure (value : α) : (pure value : Attempt α).Makes [] value := rfl

theorem makes_emit (event : Event) : (emit event).Makes [] () := rfl

/-- Attempts one after another make the relationships of both. -/
theorem Makes.bind {x : Attempt α} {f : α → Attempt β} {rs more : List Relationship} {a : α}
    {b : β} (hx : x.Makes rs a) (hf : (f a).Makes more b) : (x >>= f).Makes (rs ++ more) b := by
  rw [Makes, result_bind, hx, Relationship.makeAll_append]
  cases Relationship.makeAll rs with
  | error fault => rfl
  | ok => exact hf

theorem Makes.mapM {f : α → Attempt β} {g : α → List Relationship} {value : α → β}
    {as : List α} (hf : ∀ a ∈ as, (f a).Makes (g a) (value a)) :
    (as.mapM f).Makes (as.flatMap g) (as.map value) := by
  induction as with
  | nil => exact makes_pure []
  | cons a rest ih =>
      obtain ⟨hfirst, hrest⟩ := List.forall_mem_cons.mp hf
      have hmore := (ih hrest).bind (f := fun bs => pure (value a :: bs)) (makes_pure _)
      rw [List.append_nil] at hmore
      rw [List.mapM_cons, List.flatMap_cons, List.map_cons]
      exact hfirst.bind hmore

/-- An attempt that makes relationships succeeds exactly if both ends of each have names. -/
theorem Makes.result_eq_ok_iff {x : Attempt α} {rs : List Relationship} {value a : α}
    (hx : x.Makes rs value) : x.result = .ok a ↔ (∀ r ∈ rs, r.Named) ∧ a = value := by
  rw [hx, ← Relationship.makeAll_eq_ok_iff]
  cases Relationship.makeAll rs with
  | error fault => exact iff_of_false (fun h => nomatch h) (fun h => nomatch h.1)
  | ok =>
      change Except.ok value = Except.ok a ↔ _
      simp [eq_comm]

/-- The attempt fails as the first relationship with an unnamed end does. -/
theorem Makes.result_eq_error_iff {x : Attempt α} {rs : List Relationship} {value : α}
    {fault : Fault} (hx : x.Makes rs value) :
    x.result = .error fault ↔ Relationship.makeAll rs = .error fault := by
  rw [hx]
  cases Relationship.makeAll rs with
  | error cause =>
      change Except.error cause = Except.error fault ↔ _
      simp
  | ok => exact iff_of_false (fun h => nomatch h) (fun h => nomatch h)

/-- Making one relationship fails at its left end before its right one. -/
theorem makes_make (left : Endpoint) (arrow : Arrow) (right : Endpoint) :
    (ofExcept (Relationship.make (some left) arrow.text (some right))).Makes
      [⟨left, arrow.text, right, []⟩] ⟨left, arrow.text, right, []⟩ := by
  have hfails (side : End)
      (hend : Relationship.unnamedEnd? ⟨left, arrow.text, right, []⟩ = some side) :
      Relationship.makeAll [⟨left, arrow.text, right, []⟩] = .error (.endUnnamed side) := by
    rw [Relationship.makeAll, List.findSome?_singleton, hend]
    rfl
  rw [Makes, result_ofExcept]
  by_cases hleft : left.name = ""
  · have hmake : Relationship.make (some left) arrow.text (some right) =
        .error (.endUnnamed .left) := by
      simp [Relationship.make, Relationship.checkEnd, hleft, bind, Except.bind]
    rw [hmake, hfails .left (by simp [Relationship.unnamedEnd?, hleft])]
    rfl
  by_cases hright : right.name = ""
  · have hmake : Relationship.make (some left) arrow.text (some right) =
        .error (.endUnnamed .right) := by
      simp [Relationship.make, Relationship.checkEnd, hleft, hright, bind, Except.bind]
    rw [hmake, hfails .right (by simp [Relationship.unnamedEnd?, hleft, hright])]
    rfl
  · have hnamed : ∀ r ∈ [Relationship.mk left arrow.text right []], r.Named :=
      List.forall_mem_singleton.mpr ⟨hleft, hright⟩
    rw [Relationship.makeAll_eq_ok_iff.mpr hnamed]
    exact Relationship.make_eq_ok_iff.mpr ⟨hleft, hright, arrow.text_ne_empty, rfl⟩

end Attempt

open Attempt (makes_pure makes_emit makes_make)

namespace RelationTag

/-- The relationship that the text of a tag states, if it has one or four words. -/
def stated (tag : RelationTag) (catalog : Catalog) (type : NamedType) (text : String) :
    Option Relationship :=
  match Text.words text with
  | [name] =>
      some ⟨⟨target catalog type name, none⟩, tag.arrow.text, ⟨type.qualifiedName, none⟩, []⟩
  | [own, label, other, name] =>
      some ⟨⟨target catalog type name, optional other⟩, tag.arrow.text,
        ⟨type.qualifiedName, optional own⟩, (optional label).toList⟩
  | _ => none

variable (tag : RelationTag) (catalog : Catalog) (type : NamedType)

/-- A stated relationship leads from the target, a word of the tag, to the type. -/
theorem of_stated_eq_some {text : String} {r : Relationship}
    (hstated : tag.stated catalog type text = some r) :
    r.arrow = tag.arrow.text ∧ r.right.name = type.qualifiedName ∧
      ∃ name ∈ Text.words text, r.left.name = target catalog type name := by
  rw [stated] at hstated
  split at hstated
  · rename_i name hwords
    cases hstated
    exact ⟨rfl, rfl, name, by simp [hwords], rfl⟩
  · rename_i own label other name hwords
    cases hstated
    exact ⟨rfl, rfl, name, by simp [hwords], rfl⟩
  · contradiction

theorem addNote_label (label : String) {r : Relationship} (hnotes : r.notes = []) :
    (if label = "-" then r else r.addNote label) =
      { r with notes := (optional label).toList } := by
  by_cases hlabel : label = "-"
  · simp [hlabel, optional, ← hnotes]
  · simp [hlabel, optional, hnotes, Relationship.addNote]

/-- Notes do not decide whether a relationship can be made. -/
theorem makes_relationship (text : String) :
    (tag.relationship catalog type text).Makes (tag.stated catalog type text).toList
      (tag.stated catalog type text) := by
  rw [relationship]
  split
  · rename_i name hwords
    have hstated : tag.stated catalog type text = some
        ⟨⟨target catalog type name, none⟩, tag.arrow.text, ⟨type.qualifiedName, none⟩, []⟩ := by
      rw [stated, hwords]
    rw [hstated]
    exact (makes_make _ tag.arrow _).bind (f := fun r => pure (some r)) (makes_pure _)
  · rename_i own label other name hwords
    have hstated : tag.stated catalog type text =
        some ⟨⟨target catalog type name, optional other⟩, tag.arrow.text,
          ⟨type.qualifiedName, optional own⟩, (optional label).toList⟩ := by
      rw [stated, hwords]
    have hmake := (makes_make ⟨target catalog type name, optional other⟩ tag.arrow
      ⟨type.qualifiedName, optional own⟩).bind
        (f := fun r => pure (some (if label = "-" then r else r.addNote label))) (makes_pure _)
    rw [addNote_label label rfl] at hmake
    rw [hstated]
    exact hmake
  · rename_i hone hfour
    have hstated : tag.stated catalog type text = none := by
      rw [stated]
      split
      · rename_i name hwords
        exact absurd hwords (hone name)
      · rename_i own label other name hwords
        exact absurd hwords (hfour own label other name)
      · rfl
    rw [hstated]
    exact (makes_emit _).bind (makes_pure none)

theorem makes_relationshipsOf (texts : List String) :
    (tag.relationshipsOf catalog type texts).Makes
      (texts.filterMap (tag.stated catalog type)) (texts.filterMap (tag.stated catalog type)) := by
  induction texts with
  | nil => exact makes_pure []
  | cons text rest ih =>
      have hfirst := makes_relationship tag catalog type text
      rw [relationshipsOf, List.filterMap_cons]
      cases hstated : tag.stated catalog type text with
      | none =>
          rw [hstated] at hfirst
          exact hfirst.bind ih
      | some r =>
          rw [hstated] at hfirst
          refine hfirst.bind ((makes_emit _).bind ?_)
          have hrest := ih.bind (f := fun more => pure (r :: more)) (makes_pure _)
          rwa [List.append_nil] at hrest

/-- The relationships that the tags of a type state, tag by tag. -/
def statedBy : List Relationship :=
  (all.map fun tag => (type.tagsNamed tag.word).filterMap (tag.stated catalog type)).flatten

theorem makes_relationships :
    (relationships catalog type).Makes (statedBy catalog type) (statedBy catalog type) := by
  have hlists := Attempt.Makes.mapM fun tag (_ : tag ∈ all) =>
    makes_relationshipsOf tag catalog type (type.tagsNamed tag.word)
  have hall := hlists.bind (f := fun perTag => pure perTag.flatten) (makes_pure _)
  rwa [List.append_nil, List.flatMap_def] at hall

variable {catalog type}

/-- A stated relationship comes from the text of a tag. -/
theorem exists_of_mem_statedBy {r : Relationship} (hr : r ∈ statedBy catalog type) :
    ∃ (tag : RelationTag) (text : String), tag.stated catalog type text = some r := by
  rw [statedBy, List.mem_flatten] at hr
  obtain ⟨_, htag, hr⟩ := hr
  obtain ⟨tag, -, rfl⟩ := List.mem_map.mp htag
  obtain ⟨text, -, hstated⟩ := List.mem_filterMap.mp hr
  exact ⟨tag, text, hstated⟩

end RelationTag

namespace Relations

variable (rs : Relations) (type : NamedType)

/-- The relationship of a type to another that the declaration of the type states. -/
def edge (own : String) (arrow : Arrow) (other : String) : Relationship :=
  ⟨⟨other, none⟩, arrow.text, ⟨own, none⟩, []⟩

/-- The names that are not excluded. -/
def shown (names : List String) : List String :=
  names.filter (!rs.excluded.contains ·)

/-- The relationships that the declaration of a type states. -/
def declared : List Relationship :=
  (rs.shown type.superclass.toList).map (edge type.qualifiedName .extension) ++
    (rs.shown (type.interfaces.filterMap id)).map (edge type.qualifiedName .implementation) ++
    type.enclosingType.toList.map (edge type.qualifiedName .containment)

/-- All relationships of a type, before equal ones are dropped. -/
def candidates : List Relationship :=
  rs.declared type ++ if rs.readTags then RelationTag.statedBy rs.catalog type else []

/-- A candidate is an edge to a type that the declaration names, or stated by a tag. -/
theorem mem_candidates_cases {rs : Relations} {type : NamedType} {r : Relationship}
    (hr : r ∈ rs.candidates type) :
    (∃ arrow name, r = edge type.qualifiedName arrow name ∧
        (type.superclass = some name ∨ some name ∈ type.interfaces ∨
          type.enclosingType = some name)) ∨
      ∃ tag text, RelationTag.stated tag rs.catalog type text = some r := by
  rw [candidates, declared, List.mem_append, List.mem_append, List.mem_append] at hr
  rcases hr with ((hr | hr) | hr) | hr
  · obtain ⟨name, hname, rfl⟩ := List.mem_map.mp hr
    exact .inl ⟨_, name, rfl, .inl (by simpa using (List.mem_filter.mp hname).1)⟩
  · obtain ⟨name, hname, rfl⟩ := List.mem_map.mp hr
    exact .inl ⟨_, name, rfl, .inr (.inl (by simpa using (List.mem_filter.mp hname).1))⟩
  · obtain ⟨name, hname, rfl⟩ := List.mem_map.mp hr
    exact .inl ⟨_, name, rfl, .inr (.inr (by simpa using hname))⟩
  · split at hr
    · exact .inr (RelationTag.exists_of_mem_statedBy hr)
    · contradiction

theorem makes_link (own : String) (arrow : Arrow) (other : String) :
    Attempt.Makes (do return [← link other arrow own]) [edge own arrow other]
      [edge own arrow other] :=
  (makes_make ⟨other, none⟩ arrow ⟨own, none⟩).bind (makes_pure _)

theorem shown_singleton (name : String) :
    rs.shown [name] = if rs.excluded.contains name then [] else [name] := by
  rw [shown, List.filter_cons]
  cases rs.excluded.contains name <;> rfl

theorem makes_toSuperclass : (rs.toSuperclass type).Makes
    ((rs.shown type.superclass.toList).map (edge type.qualifiedName .extension))
    ((rs.shown type.superclass.toList).map (edge type.qualifiedName .extension)) := by
  unfold toSuperclass
  cases type.superclass with
  | none => exact (makes_emit _).bind (makes_pure [])
  | some superclass =>
      rw [Option.toList_some, shown_singleton]
      dsimp only
      split
      · exact (makes_emit _).bind (makes_pure [])
      · exact makes_link type.qualifiedName .extension superclass

theorem makes_toInterface (interface : Option String) : (rs.toInterface type interface).Makes
    ((rs.shown interface.toList).map (edge type.qualifiedName .implementation))
    ((rs.shown interface.toList).map (edge type.qualifiedName .implementation)) := by
  cases interface with
  | none => exact (makes_emit _).bind (makes_pure [])
  | some interface =>
      rw [toInterface, Option.toList_some, shown_singleton]
      split
      · exact (makes_emit _).bind (makes_pure [])
      · exact makes_link type.qualifiedName .implementation interface

theorem makes_toEnclosing : (toEnclosing type).Makes
    (type.enclosingType.toList.map (edge type.qualifiedName .containment))
    (type.enclosingType.toList.map (edge type.qualifiedName .containment)) := by
  rw [toEnclosing]
  cases type.enclosingType with
  | none => exact makes_pure []
  | some outer => exact makes_link type.qualifiedName .containment outer

theorem flatMap_shown (interfaces : List (Option String)) :
    (interfaces.flatMap fun interface =>
        (rs.shown interface.toList).map (edge type.qualifiedName .implementation)) =
      (rs.shown (interfaces.filterMap id)).map (edge type.qualifiedName .implementation) := by
  induction interfaces with
  | nil => rfl
  | cons interface rest ih =>
      rw [List.flatMap_cons, ih]
      cases interface with
      | none => rfl
      | some name =>
          rw [Option.toList_some, List.filterMap_cons_some (f := id) rfl, ← List.map_append,
            shown, shown, ← List.filter_append, List.singleton_append]
          rfl

/-- A source that makes the relationships of a type which it states. -/
def Source.States (source : Source) (stated : NamedType → List Relationship) : Prop :=
  ∀ type, (source type).Makes (stated type) (stated type)

theorem makes_sources {sources : List Source} {stated : List (NamedType → List Relationship)}
    (hsources : List.Forall₂ Source.States sources stated) :
    (sources.mapM fun source : Source => source type).Makes (stated.flatMap fun edges => edges type)
      (stated.map fun edges => edges type) := by
  induction hsources with
  | nil => exact makes_pure []
  | @cons source edges _ _ hfirst _ ih =>
      have hmore := ih.bind (f := fun more => pure (edges type :: more)) (makes_pure _)
      rw [List.append_nil] at hmore
      rw [List.mapM_cons, List.flatMap_cons, List.map_cons]
      exact (hfirst type).bind hmore

/-- What the declaration of a type states, then what sources state in order. -/
def candidatesFrom (stated : List (NamedType → List Relationship)) : List Relationship :=
  rs.declared type ++ stated.flatMap fun edges => edges type

/-- All candidates are made before the duplicates among them are dropped. -/
theorem makes_ofType {sources : List Source} {stated : List (NamedType → List Relationship)}
    (hsources : List.Forall₂ Source.States sources stated) :
    (rs.ofType type sources).Makes (rs.candidatesFrom type stated)
      (keepFirst Relationship.sameEdge (rs.candidatesFrom type stated)) := by
  have hinterfaces := Attempt.Makes.mapM fun interface (_ : interface ∈ type.interfaces) =>
    makes_toInterface rs type interface
  have hmakes : (rs.ofType type sources).Makes _ _ :=
    (makes_toSuperclass rs type).bind <| hinterfaces.bind <| (makes_toEnclosing type).bind <|
      (makes_sources type hsources).bind <| (makes_emit _).bind (makes_pure _)
  simp only [← List.flatMap_def, flatMap_shown, List.append_nil, ← List.append_assoc] at hmakes
  exact hmakes

theorem states_sources : List.Forall₂ Source.States rs.sources
    (if rs.readTags then [RelationTag.statedBy rs.catalog] else []) := by
  rw [sources]
  split
  · exact .cons (RelationTag.makes_relationships rs.catalog) .nil
  · exact .nil

/-- The candidates are found in order, each edge once, unless an end has no name. -/
theorem result_ofType_eq_ok_iff {found : List Relationship} :
    (rs.ofType type).result = .ok found ↔
      (∀ r ∈ rs.candidates type, r.Named) ∧
        found = keepFirst Relationship.sameEdge (rs.candidates type) := by
  have hcandidates : rs.candidates type = rs.candidatesFrom type
      (if rs.readTags then [RelationTag.statedBy rs.catalog] else []) := by
    rw [candidates, candidatesFrom]
    cases rs.readTags <;> simp
  rw [hcandidates]
  exact (makes_ofType rs type rs.states_sources).result_eq_ok_iff

end Relations

/-- The relationships of a type are different edges, so each of them is one link. -/
theorem Diagram.result_links {d : Diagram} {scene : Scene} {found : List Relationship}
    (hfound : (d.relations.ofType scene.subject).result = .ok found) :
    (d.links scene).result = .ok (found.map (Link.ofRelationship scene)) := by
  have hapart : found.Pairwise fun a b => b.sameEdge a = false := by
    obtain ⟨-, rfl⟩ := (Relations.result_ofType_eq_ok_iff _ _).mp hfound
    exact pairwise_keepFirst _ _
  rw [links, Attempt.result_bind, hfound]
  refine congrArg Except.ok (keepFirst_eq_self _ ?_)
  exact List.pairwise_map.mpr hapart

end ClassChart
