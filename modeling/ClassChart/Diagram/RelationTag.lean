import ClassChart.Diagram.Relationship
import ClassChart.Model.Catalog
import ClassChart.Text.Blank

/-!
Relationships stated by documentation tags.  A tag holds either the target alone
or four words: its own cardinality, a label, the target's cardinality and the
target, where `-` stands for an absent one.  The target becomes the left end.
-/
namespace ClassChart

/-- The tags that state a relationship, in the order in which they are drawn. -/
inductive RelationTag where
  | extends
  | implements
  | assoc
  | navassoc
  | has
  | composed
  | depend
deriving Repr, DecidableEq, Inhabited

namespace RelationTag

def word : RelationTag → String
  | .extends => "extends"
  | .implements => "implements"
  | .assoc => "assoc"
  | .navassoc => "navassoc"
  | .has => "has"
  | .composed => "composed"
  | .depend => "depend"

def arrow : RelationTag → Arrow
  | .extends => .extension
  | .implements => .implementation
  | .assoc => .association
  | .navassoc => .navigable
  | .has => .aggregation
  | .composed => .composition
  | .depend => .dependency

/-- All tags in the order in which they are drawn. -/
def all : List RelationTag :=
  [.extends, .implements, .assoc, .navassoc, .has, .composed, .depend]

def ofWord? (word : String) : Option RelationTag :=
  all.find? (·.word = word)

/-- A cardinality or label, where `-` stands for none. -/
def optional (word : String) : Option String :=
  if word = "-" then none else some word

/-- The qualified name of a target: the name as written if it is known, else the
known type of that name in the documented type's package. -/
def target (catalog : Catalog) (type : NamedType) (name : String) : String :=
  let local_ := type.package ++ "." ++ name
  if (catalog.find? name).isSome then name
  else if !type.package.isEmpty && !name.toList.contains '.' && (catalog.find? local_).isSome then
    local_
  else name

/-- The relationship that the text of a tag states. -/
def relationship (tag : RelationTag) (catalog : Catalog) (type : NamedType) (text : String) :
    Attempt (Option Relationship) :=
  match Text.words text with
  | [name] => do
      let r ← Attempt.ofExcept <|
        Relationship.make (some ⟨target catalog type name, none⟩) tag.arrow.text
          (some ⟨type.qualifiedName, none⟩)
      return some r
  | [own, label, other, name] => do
      let r ← Attempt.ofExcept <|
        Relationship.make (some ⟨target catalog type name, optional other⟩) tag.arrow.text
          (some ⟨type.qualifiedName, optional own⟩)
      return some (if label = "-" then r else r.addNote label)
  | _ => do
      Attempt.emit (.tagIgnored tag.word type.qualifiedName text)
      return none

/-- The relationships that tags of one name state on a type. -/
def relationshipsOf (tag : RelationTag) (catalog : Catalog) (type : NamedType) :
    List String → Attempt (List Relationship)
  | [] => return []
  | text :: rest => do
      match ← tag.relationship catalog type text with
      | some r =>
          Attempt.emit (.tagApplied tag.word type.qualifiedName r.describe)
          return r :: (← relationshipsOf tag catalog type rest)
      | none => relationshipsOf tag catalog type rest

/-- The relationships that the tags of a type state, tag by tag. -/
def relationships (catalog : Catalog) (type : NamedType) : Attempt (List Relationship) := do
  let perTag ← all.mapM fun tag => tag.relationshipsOf catalog type (type.tagsNamed tag.word)
  return perTag.flatten

end RelationTag

end ClassChart
