import ClassChart.Proofs.Java.Taken
import ClassChart.Source.File

/-!
The names of declared types stand on one line.  A name is a word of the source, and
words have no line ends; what a parser yields is followed from there to the units of
a file.
-/
namespace ClassChart.Java

namespace Parser

variable {α β : Type}

/-- Whatever a parser yields satisfies `P`. -/
def Yields (p : Parser α) (P : α → Prop) : Prop :=
  ∀ pieces a rest, p.run pieces = some (a, rest) → P a

namespace Yields

variable {P : α → Prop} {Q : β → Prop}

theorem pure {a : α} (ha : P a) : (Pure.pure a : Parser α).Yields P := by
  intro pieces b rest hrun
  obtain ⟨rfl, rfl⟩ := Prod.mk.inj (Option.some.inj hrun)
  exact ha

theorem failure : (Alternative.failure : Parser α).Yields P := by
  intro pieces a rest hrun
  contradiction

theorem bind {p : Parser α} {f : α → Parser β} (hp : p.Yields P)
    (hf : ∀ a, P a → (f a).Yields Q) : (p >>= f).Yields Q := by
  intro pieces b rest hrun
  rw [StateT.run_bind, Option.bind_eq_bind, Option.bind_eq_some_iff] at hrun
  obtain ⟨⟨a, middle⟩, ha, hb⟩ := hrun
  exact hf a (hp pieces a middle ha) middle b rest hb

theorem skip {p : Parser α} {f : α → Parser β} (hf : ∀ a, (f a).Yields Q) : (p >>= f).Yields Q :=
  bind (P := fun _ => True) (fun _ _ _ _ => trivial) fun a _ => hf a

theorem orElse {p q : Parser α} (hp : p.Yields P) (hq : q.Yields P) : (p <|> q).Yields P := by
  intro pieces a rest hrun
  rcases run_orElse hrun with hrun | hrun
  · exact hp pieces a rest hrun
  · exact hq pieces a rest hrun

theorem attempt {p : Parser α} (hp : p.Yields P) :
    (Parser.attempt p).Yields fun found => ∀ a ∈ found, P a := by
  intro pieces found rest hrun
  rcases run_attempt hrun with ⟨a, rfl, ha⟩ | ⟨rfl, -, -⟩
  · rintro b ⟨⟩
    exact hp pieces a rest ha
  · rintro b ⟨⟩

theorem manyUpTo {p : Parser α} (hp : p.Yields P) (fuel : Nat) :
    (Parser.manyUpTo p fuel).Yields fun as => ∀ a ∈ as, P a := by
  induction fuel with
  | zero => exact pure fun a ha => absurd ha List.not_mem_nil
  | succ n ih =>
      refine bind hp.attempt fun found hfound => ?_
      cases found with
      | none => exact pure fun a ha => absurd ha List.not_mem_nil
      | some a =>
          refine bind ih fun rest hrest => pure ?_
          exact List.forall_mem_cons.mpr ⟨hfound a rfl, hrest⟩

theorem many {p : Parser α} (hp : p.Yields P) :
    (Parser.many p).Yields fun as => ∀ a ∈ as, P a :=
  skip fun _ => hp.manyUpTo _

theorem withPieces {p : Parser α} (hp : p.Yields P) :
    (Parser.withPieces p).Yields fun found => P found.1 :=
  skip fun _ => skip fun _ => bind hp fun _ ha => skip fun _ => pure ha

theorem complete {p : Parser α} (hp : p.Yields P) {pieces : List Piece} {a : α}
    (hrun : Parser.complete p pieces = some a) : P a := by
  rw [Parser.complete] at hrun
  split at hrun
  · rename_i b rest hb
    split at hrun
    · exact Option.some.inj hrun ▸ hp pieces b rest hb
    · contradiction
  · contradiction

end Yields

open Text (Lacks)

theorem yields_satisfying (p : Token → Bool) : (satisfying p).Yields fun t => p t = true := by
  refine .skip fun t => ?_
  split
  · rename_i ht
    exact .pure ht
  · exact .failure

theorem yields_word : word.Yields (Lacks '\n') := by
  refine .bind (yields_satisfying _) fun t ht => .pure (t.oneLine ?_)
  simpa using ht

/-- A type declaration whose name stands on one line. -/
def NamedOnLine (found : TypeHeader × List Piece) : Prop :=
  Lacks '\n' found.1.name

variable (ms : List Modifier)

theorem yields_classHead : (classHead ms).Yields NamedOnLine :=
  .skip fun _ => .bind yields_word fun _ hname => .skip fun _ => .skip fun _ => .skip fun _ =>
    .skip fun _ => .skip fun _ => .pure hname

theorem yields_recordHead : (recordHead ms).Yields NamedOnLine :=
  .skip fun _ => .bind yields_word fun _ hname => .skip fun _ => .skip fun _ => .skip fun _ =>
    .skip fun _ => .pure hname

theorem yields_interfaceHead : (interfaceHead ms).Yields NamedOnLine :=
  .skip fun _ => .bind yields_word fun _ hname => .skip fun _ => .skip fun _ => .skip fun _ =>
    .skip fun _ => .pure hname

theorem yields_enumHead : (enumHead ms).Yields NamedOnLine :=
  .skip fun _ => .bind yields_word fun _ hname => .skip fun _ => .skip fun _ => .pure hname

theorem yields_annotationHead : (annotationHead ms).Yields NamedOnLine :=
  .skip fun _ => .bind yields_word fun _ hname => .skip fun _ => .pure hname

theorem yields_typeDeclaration : typeDeclaration.Yields NamedOnLine := by
  have hheads (ms : List Modifier) : (classHead ms <|> interfaceHead ms <|> enumHead ms <|>
      annotationHead ms <|> recordHead ms).Yields NamedOnLine :=
    .orElse (yields_classHead ms) (.orElse (yields_interfaceHead ms) (.orElse (yields_enumHead ms)
      (.orElse (yields_annotationHead ms) (yields_recordHead ms))))
  exact .bind (.withPieces (.skip fun ms => hheads ms)) fun _ hname => .pure hname

end Parser

mutual

/-- The names of the types in a member stand on one line. -/
def Member.NamedOnLine : Member → Prop
  | .type header members => Text.Lacks '\n' header.name ∧ AllNamedOnLine members
  | _ => True

/-- The names of the types in some members stand on one line. -/
def Member.AllNamedOnLine : List Member → Prop
  | [] => True
  | m :: rest => m.NamedOnLine ∧ AllNamedOnLine rest

end

theorem Member.allNamedOnLine_iff {ms : List Member} :
    AllNamedOnLine ms ↔ ∀ m ∈ ms, m.NamedOnLine := by
  induction ms with
  | nil => simp [AllNamedOnLine]
  | cons m rest ih => rw [AllNamedOnLine, ih, List.forall_mem_cons]

/-- The names of the types in an item stand on one line. -/
def Item.NamedOnLine : Item → Prop
  | .type header members => (Member.type header members).NamedOnLine
  | _ => True

namespace Parser

open Member (AllNamedOnLine allNamedOnLine_iff)

theorem yields_annotationElement : annotationElement.Yields (· = .other) := by
  -- Each way through an element ends with the same two steps.
  have hend : (do symbol ";"; return Member.other : Parser Member).Yields (· = .other) :=
    .skip fun _ => .pure rfl
  refine .skip fun _ => .skip fun _ => .skip fun _ => .skip fun inner => ?_
  dsimp only
  split
  · exact .bind .failure fun _ hnone => False.elim hnone
  · refine .skip fun _ => .skip fun hasDefault => ?_
    split
    · refine .skip fun annotated => ?_
      split
      · exact .skip fun _ => hend
      · exact hend
    · exact hend

/-- What is read as a member is no comment and no type. -/
theorem run_memberIn {form : TypeForm} {pieces rest : List Piece} {m : Member}
    (hrun : (memberIn form).run pieces = some (m, rest)) :
    (∃ d, m = .method d ∧ method.run pieces = some (d, rest)) ∨
      (∃ c, m = .constructor c ∧ constructor.run pieces = some (m, rest)) ∨
      (∃ f, m = .field f) ∨ m = .other := by
  have hmethod (hrun : (do return Member.method (← method) : Parser Member).run pieces =
      some (m, rest)) : ∃ d, m = .method d ∧ method.run pieces = some (d, rest) := by
    rw [StateT.run_bind, Option.bind_eq_bind, Option.bind_eq_some_iff] at hrun
    obtain ⟨⟨d, left⟩, hd, hrun⟩ := hrun
    obtain ⟨rfl, rfl⟩ := Prod.mk.inj (Option.some.inj hrun)
    exact ⟨d, rfl, hd⟩
  have hconstructor : constructor.Yields fun m => ∃ c, m = .constructor c :=
    .skip fun _ => .pure ⟨_, rfl⟩
  have hfields (isConstant : Bool) : (fields isConstant).Yields fun m => ∃ f, m = .field f :=
    .skip fun _ => .pure ⟨_, rfl⟩
  have hcompact : compactConstructor.Yields (· = .other) :=
    .skip fun _ => .skip fun _ => .skip fun _ => .pure rfl
  have hblock : initialiserBlock.Yields (· = .other) := .skip fun _ => .skip fun _ => .pure rfl
  unfold memberIn at hrun
  split at hrun
  · rcases run_orElse hrun with hrun | hrun
    · exact .inl (hmethod hrun)
    · exact .inr (.inr (.inl (hfields true pieces m rest hrun)))
  · rcases run_orElse hrun with hrun | hrun
    · exact .inr (.inr (.inr (yields_annotationElement pieces m rest hrun)))
    · exact .inr (.inr (.inl (hfields true pieces m rest hrun)))
  · rcases run_orElse hrun with hrun | hrun
    · exact .inr (.inr (.inr (hblock pieces m rest hrun)))
    rcases run_orElse hrun with hrun | hrun
    · obtain ⟨c, hc⟩ := hconstructor pieces m rest hrun
      exact .inr (.inl ⟨c, hc, hrun⟩)
    rcases run_orElse hrun with hrun | hrun
    · exact .inr (.inr (.inr (hcompact pieces m rest hrun)))
    rcases run_orElse hrun with hrun | hrun
    · exact .inl (hmethod hrun)
    · exact .inr (.inr (.inl (hfields false pieces m rest hrun)))

/-- Whatever is read as a member is of one of four kinds. -/
theorem yields_memberIn {P : Member → Prop} (hmethod : ∀ m, P (.method m))
    (hconstructor : ∀ c, P (.constructor c)) (hfield : ∀ f, P (.field f)) (hother : P .other)
    (form : TypeForm) : (memberIn form).Yields P := by
  intro pieces m rest hrun
  rcases run_memberIn hrun with ⟨d, rfl, -⟩ | ⟨c, rfl, -⟩ | ⟨f, rfl⟩ | rfl
  · exact hmethod d
  · exact hconstructor c
  · exact hfield f
  · exact hother

/-- If the bodies of nested types are read so, the body around them is. -/
theorem yields_memberStep {nested : TypeForm → List Piece → Option (List Member)}
    (hnested : ∀ form body ms, nested form body = some ms → AllNamedOnLine ms) (form : TypeForm) :
    (memberStep nested form).Yields AllNamedOnLine := by
  refine .skip fun pieces => ?_
  split
  · exact .failure
  · split
    · exact .skip fun _ => .pure ⟨trivial, trivial⟩
    · refine .skip fun semicolon => ?_
      split
      · exact .pure trivial
      · refine .bind yields_typeDeclaration.attempt fun found hfound => ?_
        split
        · rename_i header body
          split
          · rename_i members hmembers
            exact .pure ⟨⟨hfound _ rfl, hnested _ body members hmembers⟩, trivial⟩
          · exact .failure
        · have hmember := yields_memberIn (P := Member.NamedOnLine) (fun _ => trivial)
            (fun _ => trivial) (fun _ => trivial) trivial form
          exact .bind hmember fun m hm => .pure ⟨hm, trivial⟩

/-- By induction on the nesting, no name in a body has a line end in it. -/
theorem allNamedOnLine_members (fuel : Nat) (form : TypeForm) (body : List Piece)
    (ms : List Member) (hms : members fuel form body = some ms) : AllNamedOnLine ms := by
  -- A nested body is read with one unit less, so the induction hypothesis is the `nested` of
  -- one step.
  induction fuel generalizing form body ms with
  | zero => contradiction
  | succ n ih =>
      simp only [members, Option.bind_eq_bind, Option.bind_eq_some_iff, Option.pure_def,
        Option.some.injEq] at hms
      obtain ⟨pieces, -, steps, hsteps, rfl⟩ := hms
      have hall := (yields_memberStep ih form).many.complete hsteps
      rw [allNamedOnLine_iff]
      intro m hm
      obtain ⟨step, hstep, hmem⟩ := List.mem_flatten.mp hm
      exact allNamedOnLine_iff.mp (hall step hstep) m hmem

theorem yields_itemStep : itemStep.Yields fun items => ∀ item ∈ items, item.NamedOnLine := by
  have hother : otherItem.Yields Item.NamedOnLine := .skip fun _ => .pure trivial
  have hpackage : (do return Item.package (← source packageDeclaration) : Parser Item).Yields
      Item.NamedOnLine := .skip fun _ => .pure trivial
  have himport : (do return Item.importation (← source importDeclaration) : Parser Item).Yields
      Item.NamedOnLine := .skip fun _ => .pure trivial
  refine .skip fun pieces => ?_
  split
  · exact .failure
  · split
    · exact .skip fun _ => .pure (List.forall_mem_singleton.mpr trivial)
    · refine .skip fun semicolon => ?_
      split
      · exact .pure fun item hitem => absurd hitem List.not_mem_nil
      · refine .bind yields_typeDeclaration.attempt fun found hfound => ?_
        split
        · rename_i header body
          split
          · rename_i members hmembers
            exact .pure (List.forall_mem_singleton.mpr
              ⟨hfound _ rfl, allNamedOnLine_members _ _ body members hmembers⟩)
          · exact .failure
        · exact .bind (.orElse hpackage (.orElse himport hother)) fun item hitem =>
            .pure (List.forall_mem_singleton.mpr hitem)

end Parser

theorem CompilationUnit.namedOnLine_of_ofSource? {source : String} {unit : CompilationUnit}
    (hunit : ofSource? source = some unit) : ∀ item ∈ unit.items, item.NamedOnLine := by
  simp only [ofSource?, Option.bind_eq_bind, Option.bind_eq_some_iff, Option.pure_def,
    Option.some.injEq] at hunit
  obtain ⟨tokens, -, pieces, -, steps, hsteps, rfl⟩ := hunit
  have hall := Parser.yields_itemStep.many.complete hsteps
  intro item hitem
  obtain ⟨step, hstep, hmem⟩ := List.mem_flatten.mp hitem
  exact hall step hstep item hmem

end ClassChart.Java

namespace ClassChart

open Text (Lacks)

/-- The names that a unit gives to itself and to what is around it stand on one line. -/
structure SourceUnit.NamedOnLine (unit : SourceUnit) : Prop where
  qualifiedName : Lacks '\n' unit.qualifiedName
  package : Lacks '\n' unit.package
  parentName : ∀ name ∈ unit.parentName, Lacks '\n' name

namespace Java

/-- Methods, constructors and fields are no types. -/
theorem isType_of_mem_allOwnUnits {o : Origin} {owner : SourceUnit} {before : Option Comment}
    {ms : List Member} : ∀ unit ∈ allOwnUnits o owner before ms, unit.isType = false := by
  induction ms generalizing before with
  | nil => exact fun unit hunit => absurd hunit List.not_mem_nil
  | cons m rest ih =>
      rw [allOwnUnits, List.forall_mem_append]
      refine ⟨?_, ih⟩
      unfold ownUnits
      split
      · exact List.forall_mem_singleton.mpr rfl
      · exact List.forall_mem_singleton.mpr rfl
      · exact List.forall_mem_map.mpr fun _ _ => rfl
      · exact fun unit hunit => absurd hunit List.not_mem_nil

theorem lacks_qualify {outer : Option String} {package name : String}
    (houter : ∀ x ∈ outer, Lacks '\n' x) (hpackage : Lacks '\n' package)
    (hname : Lacks '\n' name) : Lacks '\n' (qualify outer package name) := by
  have hdot : Lacks '\n' "." := by decide
  unfold qualify
  split
  · rename_i outer
    simp only [Text.lacks_append]
    exact ⟨⟨houter outer rfl, hdot⟩, hname⟩
  · split
    · exact hname
    · simp only [Text.lacks_append]
      exact ⟨⟨hpackage, hdot⟩, hname⟩

mutual

/-- Names on one line are put together to names on one line.  The induction is on the tree. -/
theorem namedOnLine_of_mem_typeUnits {o : Origin} (hpackage : Lacks '\n' o.package)
    {outer : Option String} (houter : ∀ x ∈ outer, Lacks '\n' x) (before : Option Comment) :
    (m : Member) → m.NamedOnLine →
      ∀ unit ∈ typeUnits o outer before m, unit.isType = true → unit.NamedOnLine
  | .type header members, hm => by
      obtain ⟨hname, hmembers⟩ := hm
      have hqualified : Lacks '\n' (typeUnit o outer before header).qualifiedName :=
        lacks_qualify houter hpackage hname
      rw [typeUnits, List.forall_mem_cons, List.forall_mem_append, List.forall_mem_append]
      refine ⟨fun _ => ⟨hqualified, hpackage, houter⟩, ⟨?_, ?_⟩, ?_⟩
      · exact List.forall_mem_map.mpr fun _ _ htype => absurd htype Bool.false_ne_true
      · intro unit hunit htype
        rw [isType_of_mem_allOwnUnits unit hunit] at htype
        contradiction
      · exact namedOnLine_of_mem_nestedUnits hpackage hqualified none members hmembers
  | .method _, _ => fun _ hunit => absurd hunit List.not_mem_nil
  | .constructor _, _ => fun _ hunit => absurd hunit List.not_mem_nil
  | .field _, _ => fun _ hunit => absurd hunit List.not_mem_nil
  | .comment _, _ => fun _ hunit => absurd hunit List.not_mem_nil
  | .other, _ => fun _ hunit => absurd hunit List.not_mem_nil

theorem namedOnLine_of_mem_nestedUnits {o : Origin} (hpackage : Lacks '\n' o.package)
    {outer : String} (houter : Lacks '\n' outer) (before : Option Comment) :
    (ms : List Member) → Member.AllNamedOnLine ms →
      ∀ unit ∈ nestedUnits o outer before ms, unit.isType = true → unit.NamedOnLine
  | [], _ => fun _ hunit => absurd hunit List.not_mem_nil
  | m :: rest, hms => by
      rw [nestedUnits, List.forall_mem_append]
      refine ⟨namedOnLine_of_mem_typeUnits hpackage ?_ before m hms.1,
        namedOnLine_of_mem_nestedUnits hpackage houter m.comment? rest hms.2⟩
      exact fun x hx => Option.some.inj hx ▸ houter

end

theorem namedOnLine_of_mem_itemUnits {o : Origin} (hpackage : Lacks '\n' o.package)
    {items : List Item} (hitems : ∀ item ∈ items, item.NamedOnLine) (before : Option Comment) :
    ∀ unit ∈ itemUnits o before items, unit.isType = true → unit.NamedOnLine := by
  induction items generalizing before with
  | nil => exact fun unit hunit => absurd hunit List.not_mem_nil
  | cons item rest ih =>
      rw [List.forall_mem_cons] at hitems
      unfold itemUnits
      rw [List.forall_mem_append]
      refine ⟨?_, ih hitems.2 item.comment?⟩
      cases item with
      | type header members =>
          refine namedOnLine_of_mem_typeUnits hpackage ?_ before _ hitems.1
          exact fun x hx => absurd hx (by simp)
      | package => exact fun unit hunit => absurd hunit List.not_mem_nil
      | importation => exact fun unit hunit => absurd hunit List.not_mem_nil
      | comment => exact fun unit hunit => absurd hunit List.not_mem_nil
      | other => exact fun unit hunit => absurd hunit List.not_mem_nil

/-- An import is read without its blanks. -/
theorem CompilationUnit.lacks_of_mem_imports {unit : CompilationUnit} {name : String}
    (hname : name ∈ unit.imports) : Lacks '\n' name := by
  obtain ⟨item, -, hitem⟩ := List.mem_filterMap.mp hname
  split at hitem
  · rename_i text
    -- Not by its equations, which take long to derive from the patterns.
    delta imported? at hitem
    split at hitem
    · rename_i first second rest hwords
      split at hitem
      · cases hitem
      · obtain rfl := Option.some.inj hitem
        rw [Text.lacks_join]
        intro word hword
        have hmem := List.mem_cons_of_mem first hword
        rw [← hwords] at hmem
        exact Text.lacks_of_mem_words hmem (by decide)
    · cases hitem
  · cases hitem

end Java

namespace SourceFile

/-- In a file whose package is written on one line, the names of types, of the types
around them and of imports have no line ends. -/
theorem namedOnLine_of_mem_types {text filePath : String}
    (hpackage : Lacks '\n' (ofText text filePath).package) {unit : SourceUnit}
    (hunit : unit ∈ (ofText text filePath).types) :
    unit.NamedOnLine ∧ ∀ name ∈ unit.imports, Lacks '\n' name := by
  obtain ⟨hmem, htype⟩ := List.mem_filter.mp hunit
  cases hsource : Java.CompilationUnit.ofSource? text with
  | none =>
      rw [ofText, hsource] at hmem
      contradiction
  | some file =>
      rw [ofText, hsource] at hmem hpackage
      obtain ⟨read, hread, rfl⟩ := List.mem_map.mp hmem
      have hnamed := Java.namedOnLine_of_mem_itemUnits hpackage
        (Java.CompilationUnit.namedOnLine_of_ofSource? hsource) none read hread htype
      refine ⟨⟨hnamed.qualifiedName, hnamed.package, hnamed.parentName⟩, ?_⟩
      exact fun name hname => Java.CompilationUnit.lacks_of_mem_imports hname

end SourceFile

end ClassChart
