import ClassChart.Java.Units
import ClassChart.Proofs.Blanks
import ClassChart.Proofs.Java.Taken

/-!
The layout of package and import declarations.  Blanks may stand between any two tokens of
them.  The name of an import is read without its blanks and that of a package with them, so
the two agree for all layouts in which the name of the package is written without blanks, and
for no other.
-/
namespace ClassChart.Java

open Text (Blanks Bare Lacks isBlank solid)

/-- A name after a dot, with the blanks around the dot. -/
structure NameLink where
  before : Blanks
  after : Blanks
  name : Word

def NameLink.text (l : NameLink) : String :=
  l.before.text ++ "." ++ l.after.text ++ l.name.text

/-- A dotted name as it is written. -/
structure DottedName where
  first : Word
  rest : List NameLink

namespace DottedName

variable (d : DottedName)

def text : String :=
  d.first.text ++ String.join (d.rest.map NameLink.text)

/-- The names between the dots. -/
def words : List String :=
  d.first.text :: d.rest.map (·.name.text)

/-- The name without blanks. -/
def plain : String :=
  ".".intercalate d.words

/-- No blanks stand around the dots. -/
def IsTight : Prop :=
  ∀ l ∈ d.rest, l.before.text = "" ∧ l.after.text = ""

theorem plain_eq :
    d.plain = d.first.text ++ String.join (d.rest.map fun l => "." ++ l.name.text) := by
  obtain ⟨first, rest⟩ := d
  induction rest generalizing first with
  | nil => simp [plain, words]
  | cons l more ih =>
      have hmore := ih l.name
      simp only [plain, words, List.map_cons, String.join_cons] at hmore ⊢
      rw [String.intercalate_cons_cons, hmore]
      simp only [String.append_assoc]

theorem isBlank_plain {c : Char} (hc : c ∈ d.plain.toList) : isBlank c = false := by
  rw [plain_eq, String.toList_append, List.mem_append] at hc
  rcases hc with hc | hc
  · exact d.first.isBlank_eq_false hc
  · rw [String.toList_join, List.mem_flatMap] at hc
    obtain ⟨s, hs, hc⟩ := hc
    obtain ⟨l, -, rfl⟩ := List.mem_map.mp hs
    rw [String.toList_append, List.mem_append] at hc
    rcases hc with hc | hc
    · obtain rfl : c = '.' := by simpa using hc
      decide
    · exact l.name.isBlank_eq_false hc

theorem solid_text : solid d.text = d.plain := by
  have hlink (l : NameLink) : solid l.text = "." ++ l.name.text := by
    have hdot : solid "." = "." := by decide
    simp only [NameLink.text, Text.solid_append, Blanks.solid_text, hdot,
      Text.solid_eq_self fun c => l.name.isBlank_eq_false, String.empty_append, String.append_empty]
  have hrest (ls : List NameLink) : solid (String.join (ls.map NameLink.text)) =
      String.join (ls.map fun l => "." ++ l.name.text) := by
    induction ls with
    | nil => rfl
    | cons l more ih =>
        rw [List.map_cons, String.join_cons, Text.solid_append, hlink, ih, List.map_cons,
          String.join_cons]
  rw [text, Text.solid_append, Text.solid_eq_self fun c => d.first.isBlank_eq_false, hrest,
    plain_eq]

theorem text_eq_plain_iff : d.text = d.plain ↔ d.IsTight := by
  constructor
  · intro heq l hl
    -- The plain name has no blanks, so those of the text are none.
    have hempty (gap : Blanks) (hgap : gap.text.toList ⊆ l.text.toList) : gap.text = "" := by
      rw [← String.toList_eq_nil_iff, List.eq_nil_iff_forall_not_mem]
      intro c hc
      have hmem : c ∈ d.text.toList := by
        rw [text, String.toList_append, String.toList_join, List.mem_append, List.mem_flatMap]
        exact .inr ⟨l.text, List.mem_map_of_mem hl, hgap hc⟩
      have hblank := d.isBlank_plain (heq ▸ hmem)
      rw [gap.isBlank c hc] at hblank
      contradiction
    constructor
    · exact hempty l.before fun c hc => by simp [NameLink.text, hc]
    · exact hempty l.after fun c hc => by simp [NameLink.text, hc]
  · intro htight
    have hlinks : d.rest.map NameLink.text = d.rest.map fun l => "." ++ l.name.text := by
      refine List.map_congr_left fun l hl => ?_
      obtain ⟨hbefore, hafter⟩ := htight l hl
      rw [NameLink.text, hbefore, hafter, String.empty_append, String.append_empty]
    rw [text, hlinks, plain_eq]

/-- A dotted name begins and ends with a letter. -/
theorem exists_text_eq_append : ∃ front last, d.text = front ++ Word.text last := by
  rcases List.eq_nil_or_concat d.rest with hrest | ⟨links, l, hrest⟩
  · exact ⟨"", d.first, by simp [text, hrest]⟩
  · refine ⟨d.first.text ++ String.join (links.map NameLink.text) ++ l.before.text ++ "." ++
      l.after.text, l.name, ?_⟩
    simp [text, hrest, NameLink.text, String.append_assoc]

theorem bare_text : Bare d.text where
  first c hc := by
    rw [text, String.toList_append, List.head?_append_of_ne_nil] at hc
    · exact d.first.isBlank_eq_false (List.mem_of_mem_head? hc)
    · exact mt String.toList_eq_nil_iff.mp d.first.nonempty
  last c hc := by
    obtain ⟨front, last, htext⟩ := d.exists_text_eq_append
    rw [htext, String.toList_append, List.getLast?_append_of_ne_nil] at hc
    · exact last.isBlank_eq_false (List.mem_of_getLast? hc)
    · exact mt String.toList_eq_nil_iff.mp last.nonempty

theorem text_ne_empty : d.text ≠ "" := by
  simp [text, d.first.nonempty]

end DottedName

/-- The semicolon at the end is dropped, but not the blanks before it. -/
theorem trimEndWhile_semicolon {s : String} (hs : ∀ c ∈ s.toList.getLast?, c ≠ ';')
    (trail : Blanks) : Text.trimEndWhile (· == ';') (s ++ trail.text ++ ";") = s ++ trail.text := by
  have hsemicolon : ∀ c ∈ ";".toList, (c == ';') = true := by simp
  have hlast : ∀ c ∈ (s ++ trail.text).toList.getLast?, (c == ';') = false := by
    intro c hc
    rw [String.toList_append, List.getLast?_append] at hc
    rcases Option.or_eq_some_iff.mp hc with hc | ⟨-, hc⟩
    · have hblank := trail.isBlank c (List.mem_of_getLast? hc)
      refine beq_eq_false_iff_ne.mpr ?_
      rintro rfl
      exact absurd hblank (by decide)
    · exact beq_eq_false_iff_ne.mpr (hs c hc)
  rw [Text.trimEndWhile, String.toList_append, Text.dropEndWhile_append_of_stop hsemicolon hlast,
    String.ofList_toList]

theorem trim_semicolon {s : String} (hfirst : ∀ c ∈ s.toList.head?, isBlank c = false)
    (hempty : s ≠ "") (trail : Blanks) :
    Text.trim (s ++ trail.text ++ ";") = s ++ trail.text ++ ";" := by
  refine Bare.trim_eq_self ⟨fun c hc => hfirst c ?_, fun c hc => ?_⟩ (by simp)
  · rw [String.toList_append, String.toList_append, List.append_assoc,
      List.head?_append_of_ne_nil _ (mt String.toList_eq_nil_iff.mp hempty)] at hc
    exact hc
  · obtain rfl : ';' = c := by simpa using hc
    decide

theorem eraseFirst_append {lead : String} (hlead : lead ≠ "") (s : String) :
    Text.eraseFirst lead (lead ++ s) = s := by
  obtain ⟨c, rest, hrest⟩ := Text.exists_toList_eq_cons hlead
  rw [Text.eraseFirst, String.toList_append, hrest, List.cons_append, Text.eraseFirstChars,
    ← List.cons_append, if_pos (by simp), List.drop_left, String.ofList_toList]

/-- A package declaration without annotations and comments. -/
structure PackageLayout where
  gap : Blanks
  name : DottedName
  trail : Blanks

namespace PackageLayout

variable (p : PackageLayout)

def text : String :=
  "package" ++ p.gap.text ++ p.name.text ++ p.trail.text ++ ";"

end PackageLayout

/-- The first package declaration among the items of a file. -/
def CompilationUnit.DeclaresPackage (unit : CompilationUnit) (text : String) : Prop :=
  ∃ before after, unit.items = before ++ .package text :: after ∧ ∀ t, Item.package t ∉ before

theorem DottedName.getLast?_text_ne {c d : Char} (name : DottedName)
    (hc : c ∈ name.text.toList.getLast?) (hd : isIdentPart d = false) (hhyphen : d ≠ '-') :
    c ≠ d := by
  obtain ⟨front, last, htext⟩ := name.exists_text_eq_append
  rw [htext, String.toList_append, List.getLast?_append_of_ne_nil _
    (mt String.toList_eq_nil_iff.mp last.nonempty)] at hc
  rintro rfl
  exact last.lacks hd hhyphen (List.mem_of_getLast? hc)

/-- The package is the declaration without its keyword and its semicolon. -/
theorem CompilationUnit.DeclaresPackage.package_eq {unit : CompilationUnit} {text : String}
    (hunit : unit.DeclaresPackage text) :
    unit.package =
      Text.trim (Text.trimEndWhile (· == ';') (Text.eraseFirst "package" (Text.trim text))) := by
  obtain ⟨before, after, hitems, hbefore⟩ := hunit
  rw [package, hitems, List.findSome?_append, List.findSome?_eq_none_iff.mpr, Option.none_or,
    List.findSome?_cons]
  intro item hitem
  split
  · exact absurd hitem (hbefore _)
  · rfl

/-- A package has the name that is written in its declaration, blanks around dots included. -/
theorem PackageLayout.package_eq (p : PackageLayout) {unit : CompilationUnit}
    (hunit : unit.DeclaresPackage p.text) : unit.package = p.name.text := by
  have htrim : Text.trim p.text = p.text := by
    refine trim_semicolon (fun c hc => ?_) (by simp) p.trail
    rw [String.append_assoc, String.toList_append] at hc
    obtain rfl : 'p' = c := by simpa using hc
    decide
  have herase : Text.eraseFirst "package" p.text =
      p.gap.text ++ p.name.text ++ p.trail.text ++ ";" := by
    have hpackage : "package" ≠ "" := by decide
    rw [← eraseFirst_append hpackage (p.gap.text ++ p.name.text ++ p.trail.text ++ ";")]
    simp only [text, String.append_assoc]
  have hlast : ∀ c ∈ (p.gap.text ++ p.name.text).toList.getLast?, c ≠ ';' := by
    intro c hc
    rw [String.toList_append, List.getLast?_append_of_ne_nil _
      (mt String.toList_eq_nil_iff.mp p.name.text_ne_empty)] at hc
    exact p.name.getLast?_text_ne hc (by decide) (by decide)
  rw [hunit.package_eq, htrim, herase, trimEndWhile_semicolon hlast,
    p.name.bare_text.trim_append p.name.text_ne_empty]

/-- An import declaration without comments. -/
structure ImportLayout where
  /-- The blanks before the word that is written if static members are imported. -/
  static : Option Blanks
  gap : Blanks
  name : DottedName
  /-- The blanks around the dot before the star that is written if all types are imported. -/
  star : Option (Blanks × Blanks)
  trail : Blanks
  apart : ∀ blanks ∈ gap :: static.toList, blanks.text ≠ ""
  notStatic : static = none → name.first.text ≠ "static"

namespace ImportLayout

variable (i : ImportLayout)

/-- The name with the star after it. -/
def target : String :=
  i.name.text ++ i.star.elim "" fun (before, after) => before.text ++ "." ++ after.text ++ "*"

def text : String :=
  "import" ++ (i.static.elim "" fun blanks => blanks.text ++ "static") ++ i.gap.text ++
    i.target ++ i.trail.text ++ ";"

/-- What is imported, without blanks. -/
def plain : String :=
  i.name.plain ++ if i.star.isSome then ".*" else ""

theorem solid_target : solid i.target = i.plain := by
  have hstar : solid "*" = "*" := by decide
  have hdot : solid "." = "." := by decide
  rw [target, plain, Text.solid_append, DottedName.solid_text]
  cases i.star with
  | none => rfl
  | some blanks =>
      simp only [Option.elim_some, Text.solid_append, Blanks.solid_text, hstar, hdot,
        String.empty_append, String.append_empty]
      rfl

theorem head?_link {c : Char} {gap : Blanks} {more : String}
    (hc : c ∈ (gap.text ++ "." ++ more).toList.head?) : isBlank c = true ∨ c = '.' := by
  rw [String.append_assoc, String.toList_append, List.head?_append] at hc
  rcases Option.or_eq_some_iff.mp hc with hc | ⟨-, hc⟩
  · exact .inl (gap.isBlank c (List.mem_of_mem_head? hc))
  · exact .inr (by simpa using hc.symm)

/-- The first name ends before a blank, before a dot or at the end. -/
theorem exists_target_eq : ∃ more, i.target = i.name.first.text ++ more ∧
    ∀ c ∈ more.toList.head?, isBlank c = true ∨ c = '.' := by
  rw [target, DottedName.text, String.append_assoc]
  refine ⟨_, rfl, fun c hc => ?_⟩
  cases hrest : i.name.rest with
  | nil =>
      cases hstar : i.star with
      | none => simp [hrest, hstar] at hc
      | some blanks =>
          simp only [hrest, hstar, List.map_nil, String.join_nil, String.empty_append,
            Option.elim_some, String.append_assoc] at hc
          exact head?_link (by simpa only [String.append_assoc] using hc)
  | cons l links =>
      simp only [hrest, List.map_cons, String.join_cons, NameLink.text, String.append_assoc] at hc
      exact head?_link (by simpa only [String.append_assoc] using hc)

theorem target_ne_empty : i.target ≠ "" := by
  simp [target, i.name.text_ne_empty]

theorem bare_target : Bare i.target ∧ ∀ c ∈ i.target.toList.getLast?, c ≠ ';' := by
  have hfirst : ∀ c ∈ i.target.toList.head?, isBlank c = false := by
    intro c hc
    rw [target, String.toList_append, List.head?_append_of_ne_nil _
      (mt String.toList_eq_nil_iff.mp i.name.text_ne_empty)] at hc
    exact i.name.bare_text.first c hc
  cases hstar : i.star with
  | none =>
      have htarget : i.target = i.name.text := by simp [target, hstar]
      rw [htarget] at hfirst ⊢
      exact ⟨⟨hfirst, i.name.bare_text.last⟩, fun c hc =>
        i.name.getLast?_text_ne hc (by decide) (by decide)⟩
  | some blanks =>
      have htarget : i.target =
          i.name.text ++ blanks.1.text ++ "." ++ blanks.2.text ++ "*" := by
        simp only [target, hstar, Option.elim_some, String.append_assoc]
      have hlast : ∀ c ∈ i.target.toList.getLast?, c = '*' := by
        intro c hc
        rw [htarget, String.toList_append, List.getLast?_append_of_ne_nil _ (by decide)] at hc
        exact (Option.some.inj hc).symm
      refine ⟨⟨hfirst, fun c hc => ?_⟩, fun c hc => ?_⟩
      · rw [hlast c hc]
        decide
      · rw [hlast c hc]
        decide

/-- The word after the keyword of an import that is not static is not `static`. -/
theorem second_word_ne (hstatic : i.static = none) {second : String} {rest : List String}
    (hwords : Text.words i.target = second :: rest) : second ≠ "static" := by
  obtain ⟨more, htarget, hmore⟩ := i.exists_target_eq
  obtain ⟨c, letters, hletters⟩ := Text.exists_toList_eq_cons i.name.first.nonempty
  have hblank : ∀ d ∈ c :: letters, isBlank d = false := fun d hd =>
    i.name.first.isBlank_eq_false (hletters ▸ hd)
  rw [List.forall_mem_cons] at hblank
  have hpass : ∀ d ∈ letters, (!isBlank d) = true := fun d hd => by simp [hblank.2 d hd]
  have hsecond : second.toList =
      i.name.first.text.toList ++ more.toList.takeWhile (!isBlank ·) := by
    rw [Text.words, htarget, String.toList_append, hletters, List.cons_append,
      Text.wordsOf_cons hblank.1, List.map_cons, List.takeWhile_append_of_pos hpass] at hwords
    rw [← (List.cons.inj hwords).1, String.toList_ofList, hletters, List.cons_append]
  rintro rfl
  cases hgoes : more.toList.takeWhile (!isBlank ·) with
  | nil =>
      rw [hgoes, List.append_nil, String.toList_inj] at hsecond
      exact i.notStatic hstatic hsecond.symm
  | cons d others =>
      -- The word goes on behind the first name, so it has a dot in it.
      have hhead : d ∈ more.toList.head? := by
        rw [← List.takeWhile_append_dropWhile (p := (!isBlank ·)) (l := more.toList), hgoes]
        rfl
      have hd : isBlank d = false := by
        have hall : (more.toList.takeWhile (!isBlank ·)).all (!isBlank ·) = true :=
          List.all_takeWhile
        rw [hgoes, List.all_cons, Bool.and_eq_true] at hall
        simpa using hall.1
      have hdot : d = '.' := by simpa [hd] using hmore d hhead
      have hmem : '.' ∈ "static".toList := by
        rw [hsecond, hgoes, hdot]
        simp
      exact absurd hmem (by decide)

/-- The semicolon and the blanks before it are not read. -/
theorem trim_front {front : String} (hempty : front ≠ "")
    (hfront : ∀ c ∈ front.toList.head?, isBlank c = false) :
    Text.trim (Text.trimEndWhile (· == ';')
      (Text.trim (front ++ i.target ++ i.trail.text ++ ";"))) = front ++ i.target := by
  obtain ⟨hbare, hsemicolon⟩ := i.bare_target
  have hbegin : ∀ c ∈ (front ++ i.target).toList.head?, isBlank c = false := by
    intro c hc
    rw [String.toList_append, List.head?_append_of_ne_nil _
      (mt String.toList_eq_nil_iff.mp hempty)] at hc
    exact hfront c hc
  have hend : (front ++ i.target).toList.getLast? = i.target.toList.getLast? := by
    rw [String.toList_append, List.getLast?_append_of_ne_nil _
      (mt String.toList_eq_nil_iff.mp i.target_ne_empty)]
  have hwhole : Bare (front ++ i.target) := ⟨hbegin, hend ▸ hbare.last⟩
  rw [trim_semicolon hbegin (by simp [hempty]), trimEndWhile_semicolon (hend ▸ hsemicolon)]
  simpa [Blanks.none] using hwhole.trim_append (by simp [hempty]) .none i.trail

/-- The words of an import declaration without the semicolon. -/
theorem words_front : Text.words (Text.trim (Text.trimEndWhile (· == ';') (Text.trim i.text))) =
    "import" :: (i.static.toList.map fun _ => "static") ++ Text.words i.target := by
  have hgap : i.gap.text ≠ "" := i.apart i.gap List.mem_cons_self
  have himport : ∀ c ∈ "import".toList, isBlank c = false := by
    simp
    decide
  have hbegin (more : String) : ∀ c ∈ ("import" ++ more).toList.head?, isBlank c = false := by
    intro c hc
    obtain rfl : 'i' = c := by simpa using hc
    decide
  cases hstatic : i.static with
  | none =>
      have htext : i.text = "import" ++ i.gap.text ++ i.target ++ i.trail.text ++ ";" := by
        simp only [text, hstatic, Option.elim_none, String.append_empty]
      rw [htext, i.trim_front (by simp) (hbegin _), Text.words_append himport (by decide) _ hgap]
      rfl
  | some blanks =>
      have hblanks : blanks.text ≠ "" := i.apart blanks (by simp [hstatic])
      have hword : ∀ c ∈ "static".toList, isBlank c = false := by
        simp
        decide
      have htext : i.text = "import" ++ (blanks.text ++ ("static" ++ i.gap.text)) ++ i.target ++
          i.trail.text ++ ";" := by
        simp only [text, hstatic, Option.elim_some, String.append_assoc]
      have hsplit : "import" ++ (blanks.text ++ ("static" ++ i.gap.text)) ++ i.target =
          "import" ++ blanks.text ++ ("static" ++ i.gap.text ++ i.target) := by
        simp only [String.append_assoc]
      rw [htext, i.trim_front (by simp) (hbegin _), hsplit,
        Text.words_append himport (by decide) _ hblanks,
        Text.words_append hword (by decide) _ hgap]
      rfl

theorem plain_ne_empty : i.plain ≠ "" := by
  simp [plain, DottedName.plain_eq, i.name.first.nonempty]

/-- An import is read without its blanks, unless it is static. -/
theorem imported?_text : CompilationUnit.imported? i.text =
    if i.static.isSome then none else some i.plain := by
  delta CompilationUnit.imported?
  rw [i.words_front]
  cases hstatic : i.static with
  | some blanks => rfl
  | none =>
      have hjoin : String.join (Text.words i.target) = i.plain := by
        rw [Text.join_words, i.solid_target]
      cases hwords : Text.words i.target with
      | nil =>
          rw [hwords] at hjoin
          exact absurd hjoin.symm i.plain_ne_empty
      | cons second rest =>
          rw [hwords] at hjoin
          exact (if_neg (i.second_word_ne hstatic hwords)).trans (congrArg some hjoin)

end ImportLayout

end ClassChart.Java
