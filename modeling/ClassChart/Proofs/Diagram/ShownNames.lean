import ClassChart.Proofs.Diagram.Candidates
import ClassChart.Proofs.Diagram.DrawingOrder
import ClassChart.Proofs.Text
import ClassChart.Source.Documented
import ClassChart.Source.File
import Mathlib.Data.List.Nodup

/-!
The names that a diagram shows.  Names of the subject's package lose it, so two
types are shown alike exactly if one of them has the name of the other inside of
that package and only this one loses it.
-/
namespace ClassChart

namespace Scene

variable (scene : Scene)

/-- A name is that of a type in the subject's package, where it is called `rest`.
Of a known type its package decides; an unknown one has a single name in its package. -/
structure LocalName (name rest : String) : Prop where
  lead : name = scene.subject.package ++ "." ++ rest
  inside :
    (∃ type, scene.catalog.find? name = some type ∧ type.package = scene.subject.package) ∨
      (scene.catalog.find? name = none ∧ '.' ∉ rest.toList)

/-- The name loses its package. -/
def Shortens (name : String) : Prop :=
  scene.settings.qualifiedNames = false ∧ scene.subject.package ≠ "" ∧
    ∃ rest, scene.LocalName name rest

/-- The first name is the second inside of the subject's package, and loses the
package, whereas the second is shown in full. -/
structure Confuses (long short : String) : Prop where
  lead : long = scene.subject.package ++ "." ++ short
  shortens : scene.Shortens long
  keeps : ¬ scene.Shortens short

/-- A known type has to be of the subject's package, and an unknown name may have no further dots.
-/
theorem inPackage_iff {name rest : String} :
    scene.inPackage name rest = true ↔
      (∃ type, scene.catalog.find? name = some type ∧ type.package = scene.subject.package) ∨
        (scene.catalog.find? name = none ∧ '.' ∉ rest.toList) := by
  rw [inPackage]
  cases scene.catalog.find? name with
  | none => simp
  | some type => simp

theorem shorten_of_shortens {name : String} (hshort : scene.Shortens name) :
    name = scene.subject.package ++ "." ++ scene.shorten name := by
  obtain ⟨hsettings, hpackage, rest, hlead, hinside⟩ := hshort
  have hbegins : Text.beginsWith (scene.subject.package ++ ".") name = true :=
    Text.beginsWith_iff.mpr ⟨rest, hlead⟩
  have hrest : Text.dropFirst (scene.subject.package ++ ".").length name = rest := by
    rw [hlead, Text.dropFirst_append]
  have hinside' : scene.inPackage name rest = true := scene.inPackage_iff.mpr hinside
  have hshown : scene.shorten name = rest := by
    simp only [shorten, hsettings, hpackage, String.isEmpty_iff, hbegins, hrest, hinside',
      Bool.false_or, Bool.not_true, Bool.false_eq_true, if_false, if_true]
  rw [hshown]
  exact hlead

theorem shorten_of_not_shortens {name : String} (hkeeps : ¬ scene.Shortens name) :
    scene.shorten name = name := by
  rw [shorten]
  split
  · rfl
  · rename_i hsettings
    rw [Bool.or_eq_true, not_or, Bool.not_eq_true, String.isEmpty_iff] at hsettings
    split
    · rfl
    · rename_i hbegins
      split
      · rename_i hinside
        -- All that the package is dropped for holds here.
        rw [Bool.not_eq_true', Bool.not_eq_false] at hbegins
        obtain ⟨rest, rfl⟩ := Text.beginsWith_iff.mp hbegins
        rw [Text.dropFirst_append] at hinside
        exact absurd ⟨hsettings.1, hsettings.2, rest, rfl, scene.inPackage_iff.mp hinside⟩ hkeeps
      · rfl

variable {scene}

theorem Confuses.shorten_eq {long short : String} (h : scene.Confuses long short) :
    scene.shorten long = scene.shorten short := by
  have hlong := scene.shorten_of_shortens h.shortens
  rw [h.lead, String.append_right_inj, ← h.lead] at hlong
  rw [scene.shorten_of_not_shortens h.keeps, hlong]

theorem Confuses.ne {long short : String} (h : scene.Confuses long short) : long ≠ short := by
  rintro rfl
  exact h.keeps h.shortens

/-- Different names are shown alike only if one is the other inside of the package. -/
theorem shorten_eq_iff {a b : String} (hne : a ≠ b) :
    scene.shorten a = scene.shorten b ↔ scene.Confuses a b ∨ scene.Confuses b a := by
  constructor
  · intro heq
    by_cases ha : scene.Shortens a
    · have hlong := scene.shorten_of_shortens ha
      by_cases hb : scene.Shortens b
      · rw [heq, ← scene.shorten_of_shortens hb] at hlong
        exact absurd hlong hne
      · rw [heq, scene.shorten_of_not_shortens hb] at hlong
        exact Or.inl ⟨hlong, ha, hb⟩
    · rw [scene.shorten_of_not_shortens ha] at heq
      by_cases hb : scene.Shortens b
      · exact Or.inr ⟨heq ▸ scene.shorten_of_shortens hb, hb, ha⟩
      · rw [scene.shorten_of_not_shortens hb] at heq
        exact absurd heq hne
  · rintro (h | h)
    · exact h.shorten_eq
    · exact h.shorten_eq.symm

end Scene

namespace Canvas

variable (scene : Scene)

theorem nodup_markDeclared {canvas : Canvas} (hnodup : canvas.declared.Nodup) (name : String) :
    (canvas.markDeclared name).declared.Nodup := by
  rw [markDeclared]
  split
  · exact hnodup
  · rename_i hfree
    have hname : name ∉ canvas.declared := fun hmem => hfree (List.contains_iff_mem.mpr hmem)
    rw [List.nodup_append]
    refine ⟨hnodup, by simp, ?_⟩
    rintro a ha b hb rfl
    exact hname (List.mem_singleton.mp hb ▸ ha)

/-- No name is declared twice, however many strokes are added. -/
theorem nodup_declared_addAll {canvas : Canvas} (hnodup : canvas.declared.Nodup)
    (strokes : List Stroke) : (canvas.addAll scene strokes).declared.Nodup := by
  induction strokes generalizing canvas with
  | nil => exact hnodup
  | cons stroke rest ih =>
      refine ih ?_
      rw [add]
      cases stroke.name? with
      | none => exact hnodup
      | some name => exact nodup_markDeclared hnodup name

end Canvas

namespace Diagram

/-- The names that have a box in the drawing of some links. -/
def boxed (scene : Scene) (links : List Link) : List String :=
  ((openWith scene).drawAll scene links).value.declared

theorem mem_boxed {scene : Scene} {found : List Relationship} {name : String} :
    name ∈ boxed scene (found.map (Link.ofRelationship scene)) ↔
      name = scene.subject.qualifiedName ∨
        ∃ r ∈ found, name = r.left.name ∨ name = r.right.name := by
  rw [boxed, Canvas.value_drawAll, Canvas.mem_declared_strokesForAll, openWith,
    Canvas.mem_markDeclared]
  simp [Link.ofRelationship]

theorem nodup_boxed (scene : Scene) (links : List Link) : (boxed scene links).Nodup := by
  rw [boxed, Canvas.value_drawAll]
  exact Canvas.nodup_declared_addAll scene (Canvas.nodup_markDeclared List.nodup_nil _) _

/-- The boxes of a diagram are those of its subject and of the ends of its relationships.
Two of them show one name exactly if one type has the name of the other inside of the
subject's package and is shown without it; so all show different names exactly if there
is no such pair. -/
theorem nodup_shown_iff (d : Diagram) (subject : NamedType) {found : List Relationship}
    (hfound : (d.relations.ofType subject).result = .ok found) :
    let scene : Scene := ⟨d.catalog, d.settings, subject⟩
    ∃ links, (d.links scene).result = .ok links ∧
      (∀ name, name ∈ boxed scene links ↔
        name = subject.qualifiedName ∨ ∃ r ∈ found, name = r.left.name ∨ name = r.right.name) ∧
      (∀ a ∈ boxed scene links, ∀ b ∈ boxed scene links, a ≠ b →
        (scene.shorten a = scene.shorten b ↔ scene.Confuses a b ∨ scene.Confuses b a)) ∧
      (((boxed scene links).map scene.shorten).Nodup ↔
        ∀ a ∈ boxed scene links, ∀ b ∈ boxed scene links, ¬ scene.Confuses a b) := by
  intro scene
  refine ⟨_, result_links hfound, fun name => mem_boxed, ?_, ?_⟩
  · intro a _ b _ hne
    exact Scene.shorten_eq_iff hne
  · rw [List.nodup_map_iff_inj_on (nodup_boxed scene _)]
    constructor
    · intro hinj a ha b hb hconfuses
      exact hconfuses.ne (hinj a ha b hb hconfuses.shorten_eq)
    · intro hnone a ha b hb heq
      by_contra hne
      rcases (Scene.shorten_eq_iff hne).mp heq with h | h
      · exact hnone a ha b hb h
      · exact hnone b hb a ha h

/-- Types of one name in two packages are shown under different names. -/
theorem nodup_shown_two_packages :
    let animal : NamedType := { qualifiedName := "p.Animal", name := "Animal", package := "p" }
    let dog : NamedType :=
      { qualifiedName := "p.Dog", name := "Dog", package := "p", superclass := some "p.Animal",
        interfaces := [some "q.Animal"] }
    let d : Diagram := ⟨(Catalog.ofList [animal, dog]).value, {}⟩
    let scene : Scene := ⟨d.catalog, d.settings, dog⟩
    let found : List Relationship :=
      [⟨⟨"p.Animal", none⟩, "<|--", ⟨"p.Dog", none⟩, []⟩,
        ⟨⟨"q.Animal", none⟩, "<|..", ⟨"p.Dog", none⟩, []⟩]
    (d.relations.ofType dog).result = .ok found ∧
      ∃ links, (d.links scene).result = .ok links ∧
        ((boxed scene links).map scene.shorten).Nodup := by
  intro animal dog d scene found
  have hfound : (d.relations.ofType dog).result = .ok found := rfl
  obtain ⟨links, hlinks, hboxed, -, hiff⟩ := nodup_shown_iff d dog hfound
  refine ⟨hfound, links, hlinks, hiff.mpr ?_⟩
  have hname : ∀ name ∈ boxed scene links, name ∈ ["p.Dog", "p.Animal", "q.Animal"] := by
    intro name hname
    simpa [found, dog, or_comm, or_left_comm] using (hboxed name).mp hname
  have hapart : ∀ long ∈ ["p.Dog", "p.Animal", "q.Animal"],
      ∀ short ∈ ["p.Dog", "p.Animal", "q.Animal"], long ≠ "p" ++ "." ++ short := by
    decide
  intro long hlong short hshort h
  exact hapart long (hname long hlong) short (hname short hshort) h.lead

/-- A class and its namesake outside of all packages are shown under one name. -/
theorem shorten_eq_unpackaged_namesake :
    let files : List SourceFile :=
      [.ofText "class Logger \x7b\x7d\n" "Logger.java",
        .ofText "package p;\nclass Logger \x7b\x7d\n" "p/Logger.java",
        .ofText "package p;\n/** @depend Logger */\nclass Dog extends Logger \x7b\x7d\n"
          "p/Dog.java"]
    let d : Diagram := ⟨(Catalog.ofFiles files).value, {}⟩
    let dog : NamedType :=
      { qualifiedName := "p.Dog", name := "Dog", package := "p", superclass := some "p.Logger",
        tags := [("depend", "Logger")], filePath := some "p/Dog.java" }
    let found : List Relationship :=
      [⟨⟨"p.Logger", none⟩, "<|--", ⟨"p.Dog", none⟩, []⟩,
        ⟨⟨"Logger", none⟩, "<..", ⟨"p.Dog", none⟩, []⟩]
    d.catalog.find? "p.Dog" = some dog ∧ (d.relations.ofType dog).result.toOption = some found ∧
      Scene.shorten ⟨d.catalog, d.settings, dog⟩ "p.Logger" = "Logger" ∧
      Scene.shorten ⟨d.catalog, d.settings, dog⟩ "Logger" = "Logger" := by
  decide +kernel

end Diagram

end ClassChart
