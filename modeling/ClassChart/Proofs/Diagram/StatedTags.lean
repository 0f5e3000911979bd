import ClassChart.Proofs.Diagram.Candidates
import ClassChart.Proofs.Text

/-!
The relationships that tags state.  Every tag of a known name with one or four words states one
relationship, and nothing else does.  They come kind by kind, those of a kind in the order of the
tags, so neither tags that state nothing nor the order between kinds has an effect.
-/
namespace ClassChart.RelationTag

variable {catalog : Catalog} {type : NamedType} {kind : RelationTag}

theorem target_ne_empty {name : String} (hname : name ≠ "") : target catalog type name ≠ "" := by
  rw [target]
  split
  · exact hname
  · split
    · simp
    · exact hname

/-- The target of a tag is one of its words, so it has a name. -/
theorem named_of_stated (hown : type.qualifiedName ≠ "") {text : String} {r : Relationship}
    (hstated : kind.stated catalog type text = some r) : r.Named := by
  obtain ⟨-, hright, name, hname, hleft⟩ := kind.of_stated_eq_some _ _ hstated
  constructor
  · rw [hleft]
    exact target_ne_empty (Text.ne_empty_of_mem_words hname)
  · rw [hright]
    exact hown

/-- What a word for a cardinality or a label means. -/
inductive StandsFor : String → Option String → Prop
  | nothing : StandsFor "-" none
  | itself {word : String} (hword : word ≠ "-") : StandsFor word (some word)

theorem standsFor_optional (word : String) : StandsFor word (optional word) := by
  rw [optional]
  split
  · rename_i hword
    exact hword ▸ .nothing
  · rename_i hword
    exact .itself hword

/-- The type that a name in a tag of `type` refers to. -/
inductive RefersTo (catalog : Catalog) (type : NamedType) (name : String) : String → Prop
  /-- The name as it is written. -/
  | written (hknown : catalog.find? name ≠ none) : RefersTo catalog type name name
  /-- The name in the package of the type. -/
  | inPackage (hunknown : catalog.find? name = none) (hpackage : type.package ≠ "")
      (hdots : '.' ∉ name.toList) (hknown : catalog.find? (type.package ++ "." ++ name) ≠ none) :
      RefersTo catalog type name (type.package ++ "." ++ name)
  /-- The name as it is written, of a type that is not known. -/
  | outside (hunknown : catalog.find? name = none)
      (helsewhere : type.package ≠ "" → '.' ∉ name.toList →
        catalog.find? (type.package ++ "." ++ name) = none) :
      RefersTo catalog type name name

theorem refersTo_target (name : String) :
    RefersTo catalog type name (target catalog type name) := by
  rw [target]
  split
  · rename_i hknown
    exact .written (Option.isSome_iff_ne_none.mp hknown)
  · rename_i hunknown
    rw [Option.not_isSome_iff_eq_none] at hunknown
    split
    · rename_i hlocal
      simp only [Bool.and_eq_true, Bool.not_eq_true', ← Bool.not_eq_true, String.isEmpty_iff,
        List.contains_iff_mem, Option.isSome_iff_ne_none] at hlocal
      exact .inPackage hunknown hlocal.1.1 hlocal.1.2 hlocal.2
    · rename_i hlocal
      apply RefersTo.outside hunknown
      intro hpackage hdots
      simpa [hpackage, hdots] using hlocal

/-- The relationship that a tag of a kind states on `type`, by the words of its text. -/
inductive States (catalog : Catalog) (type : NamedType) (kind : RelationTag) (text : String) :
    Relationship → Prop
  /-- The target alone. -/
  | alone {name other : String} (hwords : Text.words text = [name])
      (hother : RefersTo catalog type name other) :
      States catalog type kind text
        ⟨⟨other, none⟩, kind.arrow.text, ⟨type.qualifiedName, none⟩, []⟩
  /-- The type's own cardinality, a label, the target's cardinality and the target. -/
  | full {own label many name other : String} {ownCount count note : Option String}
      (hwords : Text.words text = [own, label, many, name])
      (hother : RefersTo catalog type name other) (hcount : StandsFor many count)
      (hown : StandsFor own ownCount) (hnote : StandsFor label note) :
      States catalog type kind text
        ⟨⟨other, count⟩, kind.arrow.text, ⟨type.qualifiedName, ownCount⟩, note.toList⟩

/-- Whether a text has as many words as a relationship needs. -/
def IsStatement (text : String) : Prop :=
  (Text.words text).length = 1 ∨ (Text.words text).length = 4

instance (text : String) : Decidable (IsStatement text) :=
  inferInstanceAs (Decidable (_ ∨ _))

/-- A text of one word or of four states a relationship. -/
theorem exists_states (catalog : Catalog) (type : NamedType) (kind : RelationTag) {text : String}
    (htext : IsStatement text) :
    ∃ r, kind.stated catalog type text = some r ∧ States catalog type kind text r := by
  rcases htext with hone | hfour
  · obtain ⟨name, hwords⟩ := List.length_eq_one_iff.mp hone
    rw [stated, hwords]
    exact ⟨_, rfl, .alone hwords (refersTo_target name)⟩
  · obtain ⟨own, label, many, name, hwords⟩ := List.length_eq_four.mp hfour
    rw [stated, hwords]
    exact ⟨_, rfl, .full hwords (refersTo_target name) (standsFor_optional many)
      (standsFor_optional own) (standsFor_optional label)⟩

theorem stated_eq_none {text : String} (htext : ¬ IsStatement text) :
    kind.stated catalog type text = none := by
  rw [stated]
  split
  · rename_i name hwords
    exact absurd (.inl (by rw [hwords]; rfl)) htext
  · rename_i own label many name hwords
    exact absurd (.inr (by rw [hwords]; rfl)) htext
  · rfl

/-- The kind and the text of a tag that states a relationship. -/
def statement? (tag : String × String) : Option (RelationTag × String) :=
  if IsStatement tag.2 then (ofWord? tag.1).map (·, tag.2) else none

/-- The tags that state a relationship, by their kinds. -/
def statements (tags : List (String × String)) : List (RelationTag × String) :=
  tags.filterMap statement?

/-- One list of statements as the other in the order in which they are drawn. -/
structure Arranged (statements listed : List (RelationTag × String)) : Prop where
  /-- The statements are the same. -/
  perm : listed.Perm statements
  /-- The kinds are in their order. -/
  byKind : listed.Pairwise fun s t => all.idxOf s.1 ≤ all.idxOf t.1
  /-- Statements of one kind are in the order of their declaration. -/
  stable : ∀ kind, listed.filter (·.1 = kind) = statements.filter (·.1 = kind)

/-- Statements kind by kind. -/
def arrange (statements : List (RelationTag × String)) : List (RelationTag × String) :=
  all.flatMap fun kind => statements.filter (·.1 = kind)

/-- Arranging statements by kind keeps the order within a kind. -/
theorem filter_arrange (statements : List (RelationTag × String)) (kind : RelationTag) :
    (arrange statements).filter (·.1 = kind) = statements.filter (·.1 = kind) := by
  have honly (other : RelationTag) :
      (statements.filter (·.1 = other)).filter (·.1 = kind) =
        if other = kind then statements.filter (·.1 = kind) else [] := by
    split
    · rename_i hkind
      rw [hkind, List.filter_filter]
      simp only [Bool.and_self]
    · rename_i hkind
      apply List.filter_eq_nil_iff.mpr
      intro s hs
      simp only [List.mem_filter, decide_eq_true_eq] at hs ⊢
      exact hs.2 ▸ hkind
  simp only [arrange, List.filter_flatMap, honly]
  cases kind <;> simp [all]

theorem arranged_arrange (statements : List (RelationTag × String)) :
    Arranged statements (arrange statements) where
  perm := by
    apply List.perm_iff_count.mpr
    intro s
    have hkind := congrArg (List.count s) (filter_arrange statements s.1)
    rwa [List.count_filter (by simp), List.count_filter (by simp)] at hkind
  byKind := by
    have hall : all.Pairwise fun kind other => all.idxOf kind ≤ all.idxOf other := by decide
    apply List.pairwise_flatMap.mpr
    constructor
    · intro kind _
      apply List.Pairwise.imp_mem.mpr
      apply List.pairwise_of_forall
      intro s t hs ht
      simp only [List.mem_filter, decide_eq_true_eq] at hs ht
      exact Nat.le_of_eq (by rw [hs.2, ht.2])
    · apply hall.imp
      intro kind other hle s hs t ht
      simp only [List.mem_filter, decide_eq_true_eq] at hs ht
      rwa [hs.2, ht.2]
  stable := filter_arrange statements

theorem ofWord?_word (kind : RelationTag) : ofWord? kind.word = some kind := by
  cases kind <;> decide

theorem word_of_ofWord? {word : String} (hkind : ofWord? word = some kind) : kind.word = word := by
  simpa using List.find?_some hkind

/-- The relationship that a tag states, if it is of a kind. -/
def statedAs (catalog : Catalog) (type : NamedType) (kind : RelationTag)
    (tag : String × String) : Option Relationship :=
  if tag.1 = kind.word then kind.stated catalog type tag.2 else none

/-- The statements of a kind are those that its tags make. -/
theorem forall₂_states (tags : List (String × String)) :
    List.Forall₂ (fun s r => States catalog type s.1 s.2 r) ((statements tags).filter (·.1 = kind))
      (tags.filterMap (statedAs catalog type kind)) := by
  induction tags with
  | nil => exact .nil
  | cons tag rest ih =>
      simp only [statements, statedAs, List.filterMap_cons] at ih ⊢
      by_cases htext : IsStatement tag.2
      · obtain ⟨r, hstated, hstates⟩ := exists_states catalog type kind htext
        by_cases hkind : tag.1 = kind.word
        · simpa [statement?, htext, hkind, ofWord?_word, hstated] using ⟨hstates, ih⟩
        · cases hword : ofWord? tag.1 with
          | none => simpa [statement?, htext, hkind, hword] using ih
          | some other =>
              have hother : other ≠ kind := by
                rintro rfl
                exact hkind (word_of_ofWord? hword).symm
              simpa [statement?, htext, hkind, hword, hother] using ih
      · simpa [statement?, htext, stated_eq_none htext] using ih

variable (catalog type)

theorem statedBy_withTags (tags : List (String × String)) :
    statedBy catalog { type with tags := tags } =
      all.flatMap fun kind => tags.filterMap (statedAs catalog type kind) := by
  rw [statedBy, ← List.flatMap_def]
  apply List.flatMap_congr
  intro kind _
  rw [NamedType.tagsNamed, List.filterMap_filterMap]
  apply List.filterMap_congr
  rintro ⟨name, text⟩ _
  dsimp only [statedAs]
  split <;> rfl

/-- The relationships stand in the order of the arranged statements, one for each. -/
theorem forall₂_statedBy (tags : List (String × String)) :
    List.Forall₂ (fun s r => States catalog type s.1 s.2 r) (arrange (statements tags))
      (statedBy catalog { type with tags := tags }) := by
  rw [statedBy_withTags]
  have hkinds : List.Forall₂ Eq all all := List.forall₂_same.mpr fun _ _ => rfl
  apply List.rel_flatMap hkinds
  rintro kind _ rfl
  exact forall₂_states tags

/-- Tags of different kinds can be exchanged. -/
theorem statedBy_swap (before after : List (String × String)) {a b : String × String}
    (hkinds : a.1 ≠ b.1) :
    statedBy catalog { type with tags := before ++ b :: a :: after } =
      statedBy catalog { type with tags := before ++ a :: b :: after } := by
  rw [statedBy_withTags, statedBy_withTags]
  apply List.flatMap_congr
  intro kind _
  have hone : statedAs catalog type kind a = none ∨ statedAs catalog type kind b = none := by
    by_cases ha : a.1 = kind.word
    · exact .inr (if_neg (ha ▸ hkinds.symm))
    · exact .inl (if_neg ha)
  rcases hone with hnone | hnone <;> simp [List.filterMap_cons, hnone]

/-- A tag that states nothing can be left out. -/
theorem statedBy_insert (before after : List (String × String)) {extra : String × String}
    (hextra : ofWord? extra.1 = none ∨ ¬ IsStatement extra.2) :
    statedBy catalog { type with tags := before ++ extra :: after } =
      statedBy catalog { type with tags := before ++ after } := by
  rw [statedBy_withTags, statedBy_withTags]
  apply List.flatMap_congr
  intro kind _
  have hnone : statedAs catalog type kind extra = none := by
    rw [statedAs]
    split
    · rename_i hkind
      apply stated_eq_none
      apply hextra.resolve_left
      rw [hkind, ofWord?_word]
      exact Option.some_ne_none kind
    · rfl
  simp [hnone]

theorem result_relationships (hname : type.qualifiedName ≠ "") :
    (relationships catalog type).result = .ok (statedBy catalog type) := by
  apply (makes_relationships catalog type).result_eq_ok_iff.mpr
  refine ⟨?_, rfl⟩
  intro r hr
  obtain ⟨kind, text, hstated⟩ := exists_of_mem_statedBy hr
  exact named_of_stated hname hstated

/-- What the tags of a type with a name state.  Each tag of one of the seven names with one or four
words states one relationship; they come in the order of these names, those of a name as they are
declared.  So adjacent tags of different kinds can be exchanged, and a tag of another name or with
another number of words can stand anywhere. -/
theorem result_relationships_arranged (hname : type.qualifiedName ≠ "") :
    all.map word = ["extends", "implements", "assoc", "navassoc", "has", "composed", "depend"] ∧
    (∃ listed rs, Arranged (statements type.tags) listed ∧
      List.Forall₂ (fun s r => States catalog type s.1 s.2 r) listed rs ∧
      (relationships catalog type).result = .ok rs) ∧
    (∀ before a b after, type.tags = before ++ a :: b :: after → a.1 ≠ b.1 →
      (relationships catalog { type with tags := before ++ b :: a :: after }).result =
        (relationships catalog type).result) ∧
    ∀ before extra after, type.tags = before ++ after →
      ofWord? extra.1 = none ∨ ¬ IsStatement extra.2 →
      (relationships catalog { type with tags := before ++ extra :: after }).result =
        (relationships catalog type).result := by
  have hresult (tags : List (String × String)) :
      (relationships catalog { type with tags := tags }).result =
        .ok (statedBy catalog { type with tags := tags }) :=
    result_relationships catalog { type with tags := tags } hname
  refine ⟨rfl, ⟨_, _, arranged_arrange _, forall₂_statedBy catalog type type.tags,
    hresult type.tags⟩, ?_, ?_⟩
  · intro before a b after htags hkinds
    rw [hresult, statedBy_swap catalog type before after hkinds, ← htags]
    exact (hresult type.tags).symm
  · intro before extra after htags hextra
    rw [hresult, statedBy_insert catalog type before after hextra, ← htags]
    exact (hresult type.tags).symm

/-- Tags of three kinds, two of one kind around the others, with one that has two words; the first
two exchanged, and a tag of another name before them. -/
theorem result_relationships_arranged_dog :
    let logger : NamedType := { qualifiedName := "p.Logger", name := "Logger", package := "p" }
    let catalog := (Catalog.ofList [logger]).value
    let more := [("extends", "a.Animal"), ("depend", "two words"), ("has", "- wags 1 Tail")]
    let dog : NamedType :=
      { qualifiedName := "p.Dog", name := "Dog", package := "p",
        tags := ("has", "1 - 4 Leg") :: ("depend", "Logger") :: more }
    dog.qualifiedName ≠ "" ∧
      (relationships catalog dog).result = .ok
        [⟨⟨"a.Animal", none⟩, "<|--", ⟨"p.Dog", none⟩, []⟩,
          ⟨⟨"Leg", some "4"⟩, "o--", ⟨"p.Dog", some "1"⟩, []⟩,
          ⟨⟨"Tail", some "1"⟩, "o--", ⟨"p.Dog", none⟩, ["wags"]⟩,
          ⟨⟨"p.Logger", none⟩, "<..", ⟨"p.Dog", none⟩, []⟩] ∧
      (∃ listed rs, Arranged (statements dog.tags) listed ∧
        List.Forall₂ (fun s r => States catalog dog s.1 s.2 r) listed rs ∧
        (relationships catalog dog).result = .ok rs) ∧
      (relationships catalog
          { dog with tags := ("depend", "Logger") :: ("has", "1 - 4 Leg") :: more }).result =
        (relationships catalog dog).result ∧
      (relationships catalog { dog with tags := ("see", "Cat") :: dog.tags }).result =
        (relationships catalog dog).result := by
  intro logger catalog more dog
  have hname : dog.qualifiedName ≠ "" := by decide
  obtain ⟨-, hlisted, hswap, hinsert⟩ := result_relationships_arranged catalog dog hname
  have hsee : ofWord? "see" = none := by decide
  exact ⟨hname, rfl, hlisted, hswap [] _ _ more rfl (by decide),
    hinsert [] ("see", "Cat") dog.tags rfl (.inl hsee)⟩

end ClassChart.RelationTag
