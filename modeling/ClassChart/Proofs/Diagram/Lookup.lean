import ClassChart.Proofs.Diagram.Relations
import ClassChart.Proofs.Model.Catalog

/-!
What a diagram reads.  The diagram of a type depends on the catalog only through what is found in
it, and of the members of a type that is found nothing is read but its abstract methods.
-/
namespace ClassChart

theorem keepFirstFrom_map {α β : Type} (same : β → β → Bool) (f : α → β) (kept as : List α) :
    keepFirstFrom same (kept.map f) (as.map f) =
      (keepFirstFrom (fun a b => same (f a) (f b)) kept as).map f := by
  induction as generalizing kept with
  | nil => rfl
  | cons a rest ih =>
      have hgrow := ih (kept ++ [a])
      rw [List.map_append, List.map_singleton] at hgrow
      rw [List.map_cons, keepFirstFrom, keepFirstFrom, List.any_map, ih, hgrow]
      simp only [Function.comp_def, apply_ite (List.map f), List.map_cons]

theorem keepFirst_map {α β : Type} (same : β → β → Bool) (f : α → β) (as : List α) :
    keepFirst same (as.map f) = (keepFirst (fun a b => same (f a) (f b)) as).map f :=
  keepFirstFrom_map same f [] as

theorem Link.mem_types_of_documentedBy {scene : Scene} {r : Relationship} {type : NamedType}
    (hdocumented : documentedBy scene r = some type) : type ∈ scene.catalog.types := by
  have hat (e : Endpoint) (hfound : typeAt scene e = some type) :
      type ∈ scene.catalog.types := by
    rw [typeAt] at hfound
    split at hfound
    · contradiction
    · exact Catalog.mem_types_of_find? hfound
  rw [documentedBy, Option.or_eq_some_iff] at hdocumented
  rcases hdocumented with hright | ⟨-, hleft⟩
  · exact hat r.right hright
  · exact hat r.left hleft

section

variable (fields : NamedType → List Field) (methods : NamedType → List Method)

namespace NamedType

/-- A type with other members. -/
def withMembers (t : NamedType) : NamedType :=
  { t with fields := fields t, methods := methods t }

variable (t : NamedType)

@[simp]
theorem fields_withMembers : (t.withMembers fields methods).fields = fields t := rfl

@[simp]
theorem methods_withMembers : (t.withMembers fields methods).methods = methods t := rfl

@[simp]
theorem qualifiedName_withMembers :
    (t.withMembers fields methods).qualifiedName = t.qualifiedName := rfl

@[simp]
theorem package_withMembers : (t.withMembers fields methods).package = t.package := rfl

@[simp]
theorem superclass_withMembers : (t.withMembers fields methods).superclass = t.superclass := rfl

@[simp]
theorem enclosingType_withMembers :
    (t.withMembers fields methods).enclosingType = t.enclosingType := rfl

@[simp]
theorem interfaces_withMembers : (t.withMembers fields methods).interfaces = t.interfaces := rfl

@[simp]
theorem tagsNamed_withMembers (tag : String) :
    (t.withMembers fields methods).tagsNamed tag = t.tagsNamed tag := rfl

@[simp]
theorem keyword_withMembers : (t.withMembers fields methods).keyword = t.keyword := rfl

@[simp]
theorem generics_withMembers : (t.withMembers fields methods).generics = t.generics := rfl

end NamedType

/-- A link that documents a type with other members. -/
def Link.withMembers (link : Link) : Link :=
  { link with documented := link.documented.map (·.withMembers fields methods) }

@[simp]
theorem Link.relationship_withMembers (link : Link) :
    (link.withMembers fields methods).relationship = link.relationship := rfl

/-- A stroke that draws the box of a type with other members. -/
def Stroke.withMembers : Stroke → Stroke
  | .reserve name => .reserve name
  | .stub name isInterface => .stub name isInterface
  | .box type shown => .box (type.withMembers fields methods) shown
  | .line r => .line r

end

section

variable {fields : NamedType → List Field} {methods : NamedType → List Method}
  {catalog catalog' : Catalog}
  (hfind : ∀ name, catalog'.find? name = (catalog.find? name).map (·.withMembers fields methods))

include hfind

namespace RelationTag

variable (tag : RelationTag) (type : NamedType)

theorem target_withMembers :
    target catalog' (type.withMembers fields methods) = target catalog type := by
  funext name
  simp only [target, hfind, Option.isSome_map, NamedType.package_withMembers]

theorem relationship_withMembers :
    tag.relationship catalog' (type.withMembers fields methods) =
      tag.relationship catalog type := by
  funext text
  rw [relationship.eq_def, relationship.eq_def, target_withMembers hfind,
    NamedType.qualifiedName_withMembers]

/-- What tags state does not depend on members. -/
theorem relationshipsOf_withMembers (texts : List String) :
    tag.relationshipsOf catalog' (type.withMembers fields methods) texts =
      tag.relationshipsOf catalog type texts := by
  induction texts with
  | nil => rfl
  | cons text rest ih =>
      rw [relationshipsOf, relationshipsOf, relationship_withMembers hfind, ih,
        NamedType.qualifiedName_withMembers]

theorem relationships_withMembers :
    relationships catalog' (type.withMembers fields methods) = relationships catalog type := by
  simp only [relationships, relationshipsOf_withMembers hfind, NamedType.tagsNamed_withMembers]

end RelationTag

/-- Members have no part in the relationships of a type. -/
theorem Relations.ofType_withMembers (excluded : List String) (readTags : Bool)
    (type : NamedType) :
    ofType ⟨catalog', excluded, readTags⟩ (type.withMembers fields methods) =
      ofType ⟨catalog, excluded, readTags⟩ type := by
  have hsuper : toSuperclass ⟨catalog', excluded, readTags⟩ (type.withMembers fields methods) =
      toSuperclass ⟨catalog, excluded, readTags⟩ type := by
    simp only [toSuperclass, NamedType.superclass_withMembers,
      NamedType.qualifiedName_withMembers]
  have hinterface : toInterface ⟨catalog', excluded, readTags⟩ (type.withMembers fields methods) =
      toInterface ⟨catalog, excluded, readTags⟩ type := by
    funext interface
    cases interface <;> rw [toInterface, toInterface, NamedType.qualifiedName_withMembers]
  have henclosing : toEnclosing (type.withMembers fields methods) = toEnclosing type := by
    simp only [toEnclosing, NamedType.enclosingType_withMembers,
      NamedType.qualifiedName_withMembers]
  have hsources : (sources ⟨catalog', excluded, readTags⟩).mapM
        (fun source : Source => source (type.withMembers fields methods)) =
      (sources ⟨catalog, excluded, readTags⟩).mapM fun source : Source => source type := by
    rw [sources, sources]
    cases readTags with
    | false => simp only [Bool.false_eq_true, if_false, List.mapM_nil]
    | true => simp only [if_true, List.mapM_cons, List.mapM_nil,
        RelationTag.relationships_withMembers hfind]
  rw [ofType, ofType, hsuper, hinterface, henclosing, hsources,
    NamedType.interfaces_withMembers, NamedType.qualifiedName_withMembers]

variable (settings : Settings) (subject : NamedType)

theorem Scene.shorten_withMembers :
    shorten ⟨catalog', settings, subject.withMembers fields methods⟩ =
      shorten ⟨catalog, settings, subject⟩ := by
  have hpackage : inPackage ⟨catalog', settings, subject.withMembers fields methods⟩ =
      inPackage ⟨catalog, settings, subject⟩ := by
    funext name rest
    simp only [inPackage, hfind]
    cases catalog.find? name <;> rfl
  funext name
  rw [shorten, shorten, hpackage, NamedType.package_withMembers]

/-- Of the members of the types that are found, a link shows the abstract methods. -/
theorem Link.ofRelationship_withMembers
    (habstract : ∀ type ∈ catalog.types,
      (methods type).filter Method.isAbstract = type.methods.filter Method.isAbstract) :
    ofRelationship ⟨catalog', settings, subject.withMembers fields methods⟩ =
      (withMembers fields methods) ∘ ofRelationship ⟨catalog, settings, subject⟩ := by
  have htype (e : Endpoint) :
      typeAt ⟨catalog', settings, subject.withMembers fields methods⟩ e =
        (typeAt ⟨catalog, settings, subject⟩ e).map (·.withMembers fields methods) := by
    rw [typeAt, typeAt, NamedType.qualifiedName_withMembers, hfind]
    split <;> rfl
  funext r
  have hdocumented : documentedBy ⟨catalog', settings, subject.withMembers fields methods⟩ r =
      (documentedBy ⟨catalog, settings, subject⟩ r).map (·.withMembers fields methods) := by
    rw [documentedBy, documentedBy, htype, htype, ← Option.map_or]
  have hmethods : methodsOf ⟨catalog', settings, subject.withMembers fields methods⟩ r
        ((documentedBy ⟨catalog, settings, subject⟩ r).map (·.withMembers fields methods)) =
      methodsOf ⟨catalog, settings, subject⟩ r (documentedBy ⟨catalog, settings, subject⟩ r) := by
    cases hfound : documentedBy ⟨catalog, settings, subject⟩ r with
    | none => rfl
    | some type =>
        have hknown : type ∈ catalog.types := mem_types_of_documentedBy hfound
        rw [Option.map_some, methodsOf, methodsOf]
        exact congrArg _ (habstract type hknown)
  rw [Function.comp_apply, ofRelationship, ofRelationship, hdocumented, hmethods]
  rfl

theorem Link.boxOf_withMembers (link : Link) (name : String) :
    (link.withMembers fields methods).boxOf
        ⟨catalog', settings, subject.withMembers fields methods⟩ name =
      (link.boxOf ⟨catalog, settings, subject⟩ name).withMembers fields methods := by
  have hin (type : NamedType) :
      (link.withMembers fields methods).methodsIn (type.withMembers fields methods) =
        link.methodsIn type := by
    rw [methodsIn, methodsIn, withMembers, Option.map_map]
    rfl
  rw [boxOf, boxOf, hfind]
  cases catalog.find? name with
  | none => rfl
  | some type => exact congrArg _ (hin type)

/-- A stroke writes no members of a type but the methods that it was given. -/
theorem Stroke.write_withMembers (stroke : Stroke) :
    (stroke.withMembers fields methods).write
        ⟨catalog', settings, subject.withMembers fields methods⟩ =
      stroke.write ⟨catalog, settings, subject⟩ := by
  have hshorten := Scene.shorten_withMembers hfind settings subject
  funext w
  cases stroke with
  | reserve name => rfl
  | stub name isInterface => rw [withMembers, write, write, writeStub, writeStub, hshorten]
  | box type shown =>
      rw [withMembers, write, write, writeBox, writeBox, NamedType.qualifiedName_withMembers,
        hshorten, NamedType.keyword_withMembers, NamedType.generics_withMembers]
  | line r => rw [withMembers, write, write, writeLine, writeLine, hshorten]

namespace Canvas

variable (canvas : Canvas) (link : Link)

theorem put_withMembers (stroke : Stroke) :
    canvas.put ⟨catalog', settings, subject.withMembers fields methods⟩
        (stroke.withMembers fields methods) =
      canvas.put ⟨catalog, settings, subject⟩ stroke := by
  have hwrite := Stroke.write_withMembers hfind settings subject stroke
  have hname : (stroke.withMembers fields methods).name? = stroke.name? := by
    cases stroke <;> rfl
  have hevents : (stroke.withMembers fields methods).events = stroke.events := by
    cases stroke <;> rfl
  rw [put, put, add, add, hwrite, hname, hevents]

theorem declareName_withMembers (name : String) :
    canvas.declareName ⟨catalog', settings, subject.withMembers fields methods⟩
        (link.withMembers fields methods) name =
      canvas.declareName ⟨catalog, settings, subject⟩ link name := by
  rw [declareName, declareName, Link.boxOf_withMembers hfind, put_withMembers hfind]

theorem draw_withMembers :
    canvas.draw ⟨catalog', settings, subject.withMembers fields methods⟩
        (link.withMembers fields methods) =
      canvas.draw ⟨catalog, settings, subject⟩ link := by
  have hline (canvas : Canvas) (r : Relationship) :
      canvas.put ⟨catalog', settings, subject.withMembers fields methods⟩ (.line r) =
        canvas.put ⟨catalog, settings, subject⟩ (.line r) :=
    put_withMembers hfind settings subject canvas (.line r)
  simp only [draw, declareEnds, declareName_withMembers hfind, Link.relationship_withMembers,
    hline]

/-- Links are drawn alike when the types get other members, one link after another. -/
theorem drawAll_withMembers (links : List Link) :
    canvas.drawAll ⟨catalog', settings, subject.withMembers fields methods⟩
        (links.map (·.withMembers fields methods)) =
      canvas.drawAll ⟨catalog, settings, subject⟩ links := by
  rw [drawAll, drawAll, List.foldlM_map]
  simp only [draw_withMembers hfind]

end Canvas

/-- A diagram is the same with other members, if the box of its subject is the same and the types
that are found have the same abstract methods. -/
theorem Diagram.draw_withMembers
    (hblock : MemberBlock.write (fields subject) (methods subject) settings =
      MemberBlock.write subject.fields subject.methods settings)
    (habstract : ∀ type ∈ catalog.types,
      (methods type).filter Method.isAbstract = type.methods.filter Method.isAbstract) :
    draw ⟨catalog', settings⟩ (subject.withMembers fields methods) =
      draw ⟨catalog, settings⟩ subject := by
  have hopen : openWith ⟨catalog', settings, subject.withMembers fields methods⟩ =
      openWith ⟨catalog, settings, subject⟩ := by
    simp only [openWith, Scene.shorten_withMembers hfind, NamedType.keyword_withMembers,
      NamedType.qualifiedName_withMembers, NamedType.generics_withMembers,
      NamedType.fields_withMembers, NamedType.methods_withMembers, hblock]
  have hlinks (found : List Relationship) :
      keepFirst Link.sameEdge (found.map (Link.ofRelationship
          ⟨catalog', settings, subject.withMembers fields methods⟩)) =
        (keepFirst Link.sameEdge (found.map (Link.ofRelationship
          ⟨catalog, settings, subject⟩))).map (·.withMembers fields methods) := by
    rw [Link.ofRelationship_withMembers hfind settings subject habstract, ← List.map_map,
      keepFirst_map]
    rfl
  simp only [draw, links, relations, Relations.ofType_withMembers hfind, bind_assoc, pure_bind,
    hlinks, hopen, Canvas.drawAll_withMembers hfind, List.length_map,
    NamedType.qualifiedName_withMembers]

end

/-- Two catalogs in which the same is found give a type the same diagram. -/
theorem Diagram.draw_of_find?_eq {catalog catalog' : Catalog}
    (hfind : catalog.find? = catalog'.find?) (settings : Settings) (subject : NamedType) :
    draw ⟨catalog, settings⟩ subject = draw ⟨catalog', settings⟩ subject := by
  have hsame (name : String) : catalog.find? name =
      (catalog'.find? name).map (·.withMembers NamedType.fields NamedType.methods) := by
    rw [hfind]
    exact Option.map_id'.symm
  exact draw_withMembers hsame settings subject rfl fun _ _ => rfl

end ClassChart
