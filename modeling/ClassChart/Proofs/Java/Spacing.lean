import ClassChart.Proofs.Diagram.StatedTags
import ClassChart.Proofs.Java.Javadoc
import Mathlib.Data.Prod.Basic

/-!
Tags and spacing.  The text of a tag is read word by word, but its name ends at a space and at no
other blank.  So another spacing of a documentation keeps its tags if and only if it keeps what
stands before the first space of each line that begins one.
-/
namespace ClassChart.Text

/-- Characters in another spacing: each stretch of blanks may be any other one in a line. -/
inductive RespacedChars : List Char → List Char → Prop
  | nil : RespacedChars [] []
  | letter {c : Char} {cs ds : List Char} (hc : isBlank c = false) (hrest : RespacedChars cs ds) :
      RespacedChars (c :: cs) (c :: ds)
  | gap {gap other cs ds : List Char} (hgap : gap ≠ []) (hother : other ≠ [])
      (hblank : ∀ c ∈ gap ++ other, isBlank c = true ∧ c ≠ '\n') (hrest : RespacedChars cs ds) :
      RespacedChars (gap ++ cs) (other ++ ds)

/-- A line in another spacing. -/
def Respaced (s t : String) : Prop :=
  RespacedChars s.toList t.toList

namespace RespacedChars

variable {cs ds cs' ds' : List Char}

theorem append (h : RespacedChars cs ds) (h' : RespacedChars cs' ds') :
    RespacedChars (cs ++ cs') (ds ++ ds') := by
  induction h with
  | nil => exact h'
  | letter hc _ ih => exact .letter hc ih
  | gap hgap hother hblank _ ih =>
      rw [List.append_assoc, List.append_assoc]
      exact .gap hgap hother hblank ih

theorem reverse (h : RespacedChars cs ds) : RespacedChars cs.reverse ds.reverse := by
  induction h with
  | nil => exact .nil
  | letter hc _ ih =>
      rw [List.reverse_cons, List.reverse_cons]
      exact ih.append (.letter hc .nil)
  | @gap gap other _ _ hgap hother hblank _ ih =>
      rw [List.reverse_append, List.reverse_append]
      apply ih.append
      have hturned : ∀ c ∈ gap.reverse ++ other.reverse, isBlank c = true ∧ c ≠ '\n' := by
        simpa using hblank
      simpa using RespacedChars.gap (by simpa using hgap) (by simpa using hother) hturned .nil

theorem dropWhile_isBlank (h : RespacedChars cs ds) :
    RespacedChars (cs.dropWhile isBlank) (ds.dropWhile isBlank) := by
  induction h with
  | nil => exact .nil
  | letter hc hrest _ => simpa [hc] using RespacedChars.letter hc hrest
  | gap hgap hother hblank _ ih =>
      simp only [List.forall_mem_append] at hblank
      rw [List.dropWhile_append_of_pos fun c hc => (hblank.1 c hc).1,
        List.dropWhile_append_of_pos fun c hc => (hblank.2 c hc).1]
      exact ih

theorem trimChars (h : RespacedChars cs ds) :
    RespacedChars (Text.trimChars cs) (Text.trimChars ds) :=
  h.dropWhile_isBlank.reverse.dropWhile_isBlank.reverse

/-- A letter stays in its place. -/
theorem exists_eq_cons {c : Char} (hc : isBlank c = false) (h : RespacedChars (c :: cs) ds) :
    ∃ rest, ds = c :: rest ∧ RespacedChars cs rest := by
  generalize hstart : c :: cs = start at h
  cases h with
  | nil => contradiction
  | letter _ hrest =>
      obtain ⟨rfl, rfl⟩ := List.cons.inj hstart
      exact ⟨_, rfl, hrest⟩
  | gap hgap _ hblank _ =>
      obtain ⟨b, more, rfl⟩ := List.exists_cons_of_ne_nil hgap
      have hb := (hblank b (by simp)).1
      rw [(List.cons.inj hstart).1, hb] at hc
      contradiction

theorem eq_nil_of_nil (h : RespacedChars [] ds) : ds = [] := by
  generalize hstart : ([] : List Char) = start at h
  cases h with
  | nil => rfl
  | letter _ _ => contradiction
  | gap hgap _ _ _ => exact absurd (List.append_eq_nil_iff.mp hstart.symm).1 hgap

theorem of_not_mem (h : '\n' ∉ cs) : RespacedChars cs cs := by
  induction cs with
  | nil => exact .nil
  | cons c cs ih =>
      rw [List.mem_cons, not_or] at h
      cases hc : isBlank c with
      | false => exact .letter hc (ih h.2)
      | true =>
          have hblank : ∀ b ∈ [c] ++ [c], isBlank b = true ∧ b ≠ '\n' := by
            simpa [hc] using Ne.symm h.1
          exact .gap (List.cons_ne_nil c []) (List.cons_ne_nil c []) hblank (ih h.2)

theorem symm (h : RespacedChars cs ds) : RespacedChars ds cs := by
  induction h with
  | nil => exact .nil
  | letter hc _ ih => exact .letter hc ih
  | gap hgap hother hblank _ ih =>
      apply RespacedChars.gap hother hgap _ ih
      intro c hc
      exact hblank c (by simpa [or_comm] using hc)

end RespacedChars

/-- The words from a letter on are settled by those behind it and by whether a blank is next. -/
theorem wordsOf_cons_congr {c : Char} (hc : isBlank c = false) {cs ds : List Char}
    (hnext : cs.head?.map isBlank = ds.head?.map isBlank) (hwords : wordsOf cs = wordsOf ds) :
    wordsOf (c :: cs) = wordsOf (c :: ds) := by
  cases cs with
  | nil =>
      cases ds with
      | nil => rfl
      | cons b ds => contradiction
  | cons a cs =>
      cases ds with
      | nil => contradiction
      | cons b ds =>
          have hab : isBlank a = isBlank b := Option.some.inj hnext
          rw [wordsOf.eq_def (c :: a :: cs), wordsOf.eq_def (c :: b :: ds)]
          simp only [hc, hab, hwords]

namespace RespacedChars

variable {cs ds : List Char}

theorem head?_map_isBlank (h : RespacedChars cs ds) :
    cs.head?.map isBlank = ds.head?.map isBlank := by
  cases h with
  | nil => rfl
  | letter _ _ => rfl
  | gap hgap hother hblank _ =>
      obtain ⟨a, more, rfl⟩ := List.exists_cons_of_ne_nil hgap
      obtain ⟨b, more', rfl⟩ := List.exists_cons_of_ne_nil hother
      have ha := (hblank a (by simp)).1
      have hb := (hblank b (by simp)).1
      simp [ha, hb]

theorem wordsOf_eq (h : RespacedChars cs ds) : wordsOf cs = wordsOf ds := by
  induction h with
  | nil => rfl
  | letter hc hrest ih => exact wordsOf_cons_congr hc hrest.head?_map_isBlank ih
  | gap _ _ hblank _ ih =>
      simp only [List.forall_mem_append] at hblank
      rw [wordsOf_append_of_isBlank fun c hc => (hblank.1 c hc).1,
        wordsOf_append_of_isBlank fun c hc => (hblank.2 c hc).1, ih]

end RespacedChars

namespace Respaced

variable {s t : String}

theorem words_eq (h : Respaced s t) : words s = words t := by
  rw [words, words, RespacedChars.wordsOf_eq h]

theorem trim (h : Respaced s t) : Respaced (Text.trim s) (Text.trim t) := by
  rw [Respaced, Text.trim, Text.trim, String.toList_ofList, String.toList_ofList]
  exact RespacedChars.trimChars h

theorem symm (h : Respaced s t) : Respaced t s :=
  RespacedChars.symm h

/-- A character that is not blank at the beginning of a text begins every respacing of it. -/
theorem exists_eq_append {c : Char} (hc : isBlank c = false)
    (h : Respaced (String.singleton c ++ s) t) :
    ∃ rest, t = String.singleton c ++ rest ∧ Respaced s rest := by
  rw [Respaced, String.toList_append, String.toList_singleton] at h
  obtain ⟨rest, hrest, hs⟩ := RespacedChars.exists_eq_cons hc h
  refine ⟨String.ofList rest, ?_, ?_⟩
  · apply String.toList_inj.mp
    simpa using hrest
  · rwa [Respaced, String.toList_ofList]

theorem eq_empty (h : Respaced "" t) : t = "" :=
  String.toList_eq_nil_iff.mp (RespacedChars.eq_nil_of_nil h)

theorem append {s' t' : String} (h : Respaced s t) (h' : Respaced s' t') :
    Respaced (s ++ s') (t ++ t') := by
  rw [Respaced, String.toList_append, String.toList_append]
  exact RespacedChars.append h h'

theorem of_lacks (hs : Lacks '\n' s) : Respaced s s :=
  RespacedChars.of_not_mem hs

theorem of_blanks (hs : s ≠ "") (ht : t ≠ "")
    (hblank : (s.toList ++ t.toList).all fun c => isBlank c && c != '\n') : Respaced s t := by
  have hall : ∀ c ∈ s.toList ++ t.toList, isBlank c = true ∧ c ≠ '\n' := by
    simpa only [List.all_eq_true, Bool.and_eq_true, bne_iff_ne] using hblank
  have hgap := RespacedChars.gap (by simpa using hs) (by simpa using ht) hall .nil
  rwa [List.append_nil, List.append_nil] at hgap

end Respaced

theorem upTo_append_of_lacks {sep : Char} {s : String} (hs : Lacks sep s) (t : String) :
    upTo sep (s ++ t) = s ++ upTo sep t := by
  rw [upTo, upTo, String.toList_append, List.takeWhile_append_of_pos (hs.bne sep),
    String.ofList_append, String.ofList_toList]

end ClassChart.Text

namespace ClassChart.Java.Javadoc

open Text (words trim lines upTo Respaced)

section

variable {line line' : String} (h : Respaced line line')

include h

theorem OpensTag.respaced (hline : OpensTag line) : OpensTag line' := by
  obtain ⟨rest, hempty, hrest⟩ := hline
  have htrim := h.trim
  rw [hrest] at htrim
  obtain ⟨rest', hrest', hrespaced⟩ := Respaced.exists_eq_append (c := '@') (by decide) htrim
  refine ⟨rest', ?_, hrest'⟩
  rintro rfl
  exact hempty hrespaced.symm.eq_empty

theorem opensTag_respaced_iff : OpensTag line ↔ OpensTag line' :=
  ⟨.respaced h, .respaced h.symm⟩

theorem isTagLine_respaced : isTagLine line = isTagLine line' := by
  rw [Bool.eq_iff_iff, isTagLine_iff, isTagLine_iff]
  exact opensTag_respaced_iff h

end

-- `f` reads something off a tag that more words in the text extend in a way that can be undone.
-- So a line keeps what tags differ in as well as what they have in common.
section

variable {β : Type} {f : String × String → β} {extend : List String → β → β}
  (hf : ∀ {name text more ws}, words more = words text ++ ws →
    f (name, more) = extend ws (f (name, text)))
  (hextend : ∀ ws, Function.Injective (extend ws))

include hf hextend

theorem map_extendLast_eq_iff {tags tags' : List (String × String)} {line line' : String}
    (hwords : words line = words line') :
    (extendLast tags line).map f = (extendLast tags' line').map f ↔
      tags.map f = tags'.map f := by
  rcases List.eq_nil_or_concat tags with rfl | ⟨front, ⟨name, text⟩, rfl⟩
  · rcases List.eq_nil_or_concat tags' with rfl | ⟨front', ⟨name', text'⟩, rfl⟩
    · exact Iff.rfl
    · rw [List.concat_eq_append, extendLast_append]
      simp [extendLast]
  · rcases List.eq_nil_or_concat tags' with rfl | ⟨front', ⟨name', text'⟩, rfl⟩
    · rw [List.concat_eq_append, extendLast_append]
      simp [extendLast]
    · rw [List.concat_eq_append, List.concat_eq_append, extendLast_append, extendLast_append]
      simp only [List.map_append, List.map_singleton, List.append_singleton_inj]
      rw [hf (words_folded text line), hf (words_folded text' line'), hwords,
        (hextend _).eq_iff]

/-- Lines in different spacing add the same to the tags unless they begin different ones. -/
theorem map_readLine_eq_iff {tags tags' : List (String × String)} {line line' : String}
    (h : Respaced line line') :
    (readLine tags line).map f = (readLine tags' line').map f ↔
      tags.map f = tags'.map f ∧ (OpensTag line → f (tagOf line) = f (tagOf line')) := by
  rw [readLine, readLine, ← isTagLine_respaced h, ← isTagLine_iff]
  split
  · rename_i hline
    simp only [List.map_append, List.map_singleton, List.append_singleton_inj, hline,
      forall_const]
  · rename_i hline
    rw [map_extendLast_eq_iff hf hextend h.words_eq]
    exact (and_iff_left fun hopen => absurd hopen hline).symm

/-- Respaced lines give the same tags exactly if each line that opens a tag does, whatever was read
before.  The induction is on the lines. -/
theorem map_foldl_readLine_eq_iff {rows rows' : List String} (h : List.Forall₂ Respaced rows rows')
    (tags tags' : List (String × String)) :
    (rows.foldl readLine tags).map f = (rows'.foldl readLine tags').map f ↔
      tags.map f = tags'.map f ∧
        List.Forall₂ (fun line line' => OpensTag line → f (tagOf line) = f (tagOf line'))
          rows rows' := by
  induction h generalizing tags tags' with
  | nil => simp
  | cons hline _ ih =>
      rw [List.foldl_cons, List.foldl_cons, ih, map_readLine_eq_iff hf hextend hline,
        List.forall₂_cons, and_assoc]

/-- Respaced comments give the same tags exactly if their lines open the same ones. -/
theorem map_parts_eq_iff {doc doc' : String}
    (h : List.Forall₂ Respaced (lines doc) (lines doc')) :
    (parts (some doc)).tags.map f = (parts (some doc')).tags.map f ↔
      List.Forall₂ (fun line line' => OpensTag line → f (tagOf line) = f (tagOf line'))
        (lines doc) (lines doc') := by
  rw [tags_parts, tags_parts, Option.getD_some, Option.getD_some,
    map_foldl_readLine_eq_iff hf hextend h]
  exact and_iff_right rfl

end

/-- A tag by its name and the words of its text. -/
def reading (tag : String × String) : String × List String :=
  (tag.1, words tag.2)

theorem reading_eq_iff {a b : String × String} :
    reading a = reading b ↔ a.1 = b.1 ∧ words a.2 = words b.2 :=
  Prod.ext_iff

theorem reading_of_words_eq {name text more : String} {ws : List String}
    (hmore : words more = words text ++ ws) :
    reading (name, more) = Prod.map id (· ++ ws) (reading (name, text)) := by
  rw [reading, reading, hmore]
  rfl

theorem injective_map_append (ws : List String) :
    Function.Injective (Prod.map (id : String → String) (· ++ ws)) :=
  Function.Injective.prodMap Function.injective_id (List.append_left_injective ws)

theorem upTo_trim_eq {line : String} (hline : OpensTag line) :
    upTo ' ' (trim line) = "@" ++ (tagOf line).1 := by
  obtain ⟨rest, -, hrest⟩ := hline
  have hat : Text.Lacks ' ' "@" := by decide
  rw [tagOf_eq hrest, hrest, Text.upTo_append_of_lacks hat]

section

variable {line line' : String} (h : Respaced line line') (hline : OpensTag line)

include h hline

theorem tagWords_tagOf_respaced : tagWords (tagOf line) = tagWords (tagOf line') := by
  rw [tagWords_tagOf hline, tagWords_tagOf (hline.respaced h), h.words_eq]

/-- Tags that a line begins in two spacings have the same words, so they agree if their names do. -/
theorem reading_tagOf_eq_iff :
    reading (tagOf line) = reading (tagOf line') ↔
      upTo ' ' (trim line) = upTo ' ' (trim line') := by
  rw [upTo_trim_eq hline, upTo_trim_eq (hline.respaced h), String.append_right_inj,
    reading_eq_iff, and_iff_left_iff_imp]
  intro hname
  have hwords := tagWords_tagOf_respaced h hline
  rw [tagWords, tagWords, Text.words_append_space, Text.words_append_space, hname] at hwords
  exact List.append_cancel_left hwords

end

/-- What stands before the first space of a line is its first word. -/
def NamedByWord (line : String) : Prop :=
  (words line).head? = some (upTo ' ' (trim line))

instance : DecidablePred NamedByWord := fun _ => inferInstanceAs (Decidable (_ = _))

/-- A tag whose name is ended by a blank keeps that name exactly if a blank still ends it. -/
theorem NamedByWord.upTo_eq_iff {line line' : String} (hline : NamedByWord line)
    (h : Respaced line line') :
    upTo ' ' (trim line) = upTo ' ' (trim line') ↔ NamedByWord line' := by
  rw [NamedByWord, ← h.words_eq, hline, Option.some_inj]

theorem forall₂_upTo_eq_iff {rows rows' : List String} (h : List.Forall₂ Respaced rows rows')
    (hrows : ∀ line ∈ rows, OpensTag line → NamedByWord line) :
    List.Forall₂ (fun line line' => OpensTag line → upTo ' ' (trim line) = upTo ' ' (trim line'))
        rows rows' ↔
      ∀ line ∈ rows', OpensTag line → NamedByWord line := by
  induction h with
  | nil => simp
  | cons hline _ ih =>
      obtain ⟨hfirst, hrest⟩ := List.forall_mem_cons.mp hrows
      rw [List.forall₂_cons, List.forall_mem_cons, ih hrest, ← opensTag_respaced_iff hline]
      apply and_congr_left'
      exact forall_congr' fun hopen => (hfirst hopen).upTo_eq_iff hline

end ClassChart.Java.Javadoc

namespace ClassChart.RelationTag

open Java.Javadoc (reading reading_eq_iff)

/-- What a tag states depends only on how it reads. -/
theorem factorsThrough_statedAs (catalog : Catalog) (type : NamedType) (kind : RelationTag) :
    Function.FactorsThrough (statedAs catalog type kind) reading := by
  intro a b hab
  obtain ⟨hname, hwords⟩ := reading_eq_iff.mp hab
  rw [statedAs, statedAs, stated, stated, hname, hwords]

/-- The relationships of a type are settled by the names and the words of its tags. -/
theorem result_relationships_congr (catalog : Catalog) (type : NamedType)
    {tags tags' : List (String × String)} (htags : tags.map reading = tags'.map reading) :
    (relationships catalog { type with tags := tags }).result =
      (relationships catalog { type with tags := tags' }).result := by
  rw [makes_relationships, makes_relationships]
  have hstated : statedBy catalog { type with tags := tags } =
      statedBy catalog { type with tags := tags' } := by
    rw [statedBy_withTags, statedBy_withTags]
    apply List.flatMap_congr
    intro kind _
    obtain ⟨g, hg⟩ := (Function.factorsThrough_iff _).mp (factorsThrough_statedAs catalog type kind)
    rw [hg, ← List.filterMap_map, ← List.filterMap_map, htags]
  rw [hstated]

end ClassChart.RelationTag

namespace ClassChart.Java.Javadoc

open Text (words trim lines upTo Respaced)

/-- In another spacing of a documentation each tag has the same words in all.  It also has the same
name, and so the same words in its text, if and only if the line that begins it is unchanged up to
its first space: where that was its first word, if it still is.  Tags that agree so far state the
same relationships. -/
theorem map_reading_parts_eq_iff_of_respaced {doc doc' : String}
    (h : List.Forall₂ Respaced (lines doc) (lines doc')) :
    (parts (some doc)).tags.map tagWords = (parts (some doc')).tags.map tagWords ∧
    ((parts (some doc)).tags.map reading = (parts (some doc')).tags.map reading ↔
      List.Forall₂ (fun line line' => OpensTag line → upTo ' ' (trim line) = upTo ' ' (trim line'))
        (lines doc) (lines doc')) ∧
    ((∀ line ∈ lines doc, OpensTag line → NamedByWord line) →
      ((parts (some doc)).tags.map reading = (parts (some doc')).tags.map reading ↔
        ∀ line ∈ lines doc', OpensTag line → NamedByWord line)) ∧
    ((parts (some doc)).tags.map reading = (parts (some doc')).tags.map reading →
      ∀ (catalog : Catalog) (type : NamedType),
        (RelationTag.relationships catalog { type with tags := (parts (some doc)).tags }).result =
          (RelationTag.relationships catalog
            { type with tags := (parts (some doc')).tags }).result) := by
  have hreading : (parts (some doc)).tags.map reading = (parts (some doc')).tags.map reading ↔
      List.Forall₂ (fun line line' => OpensTag line → upTo ' ' (trim line) = upTo ' ' (trim line'))
        (lines doc) (lines doc') := by
    rw [map_parts_eq_iff reading_of_words_eq injective_map_append h]
    constructor
    · apply List.Forall₂.mp _ h
      exact fun line line' hline hsame hopen => (reading_tagOf_eq_iff hline hopen).mp (hsame hopen)
    · apply List.Forall₂.mp _ h
      exact fun line line' hline hsame hopen => (reading_tagOf_eq_iff hline hopen).mpr (hsame hopen)
  refine ⟨?_, hreading, ?_, ?_⟩
  · apply (map_parts_eq_iff tagWords_of_words_eq List.append_left_injective h).mpr
    exact h.imp fun line line' hline hopen => tagWords_tagOf_respaced hline hopen
  · intro hnamed
    rw [hreading]
    exact forall₂_upTo_eq_iff h hnamed
  · intro hsame catalog type
    exact RelationTag.result_relationships_congr catalog type hsame

/-- Two tags, one with a second space behind its name and one with a tab at different places in its
text. -/
theorem map_reading_parts_of_respaced_dog :
    let doc := "@depend Logger\n@has 1\towns 2 Toy"
    let doc' := "@depend  Logger\n@has 1 owns\t2 Toy"
    let dog : NamedType := { qualifiedName := "p.Dog", name := "Dog", package := "p" }
    List.Forall₂ Respaced (lines doc) (lines doc') ∧
      (∀ line ∈ lines doc ++ lines doc', OpensTag line → NamedByWord line) ∧
      (parts (some doc)).tags.map reading = (parts (some doc')).tags.map reading ∧
      (RelationTag.relationships .empty { dog with tags := (parts (some doc)).tags }).result =
        (RelationTag.relationships .empty
          { dog with tags := (parts (some doc')).tags }).result := by
  intro doc doc' dog
  have hlines : lines doc = ["@depend Logger", "@has 1\towns 2 Toy"] := by decide
  have hlines' : lines doc' = ["@depend  Logger", "@has 1 owns\t2 Toy"] := by decide
  have hdepend : Respaced ("@depend" ++ " " ++ "Logger") ("@depend" ++ "  " ++ "Logger") := by
    have hname : Respaced "@depend" "@depend" := .of_lacks (by decide)
    have hgap : Respaced " " "  " := .of_blanks (by decide) (by decide) (by decide)
    have htarget : Respaced "Logger" "Logger" := .of_lacks (by decide)
    exact (hname.append hgap).append htarget
  have hhas : Respaced ("@has 1" ++ "\t" ++ "owns" ++ " " ++ "2 Toy")
      ("@has 1" ++ " " ++ "owns" ++ "\t" ++ "2 Toy") := by
    have hfirst : Respaced "@has 1" "@has 1" := .of_lacks (by decide)
    have htab : Respaced "\t" " " := .of_blanks (by decide) (by decide) (by decide)
    have hlabel : Respaced "owns" "owns" := .of_lacks (by decide)
    have hlast : Respaced "2 Toy" "2 Toy" := .of_lacks (by decide)
    exact (((hfirst.append htab).append hlabel).append htab.symm).append hlast
  have hdocs : List.Forall₂ Respaced (lines doc) (lines doc') := by
    rw [hlines, hlines']
    exact .cons hdepend (.cons hhas .nil)
  have hnamed : ∀ line ∈ lines doc ++ lines doc', OpensTag line → NamedByWord line := by
    rw [hlines, hlines']
    have hall : ∀ line ∈ ["@depend Logger", "@has 1\towns 2 Toy"] ++
        ["@depend  Logger", "@has 1 owns\t2 Toy"], NamedByWord line := by decide
    exact fun line hline _ => hall line hline
  obtain ⟨hfirst, hsecond⟩ := List.forall_mem_append.mp hnamed
  obtain ⟨-, -, hiff, hstated⟩ := map_reading_parts_eq_iff_of_respaced hdocs
  have hsame := (hiff hfirst).mpr hsecond
  exact ⟨hdocs, hnamed, hsame, hstated hsame .empty dog⟩

/-- A tab behind the name of a tag makes the rest of the line part of the name, and the
relationship is lost. -/
theorem tab_joins_name :
    let dog : NamedType := { qualifiedName := "p.Dog", name := "Dog", package := "p" }
    List.Forall₂ Respaced (lines "@depend Logger") (lines "@depend\tLogger") ∧
      (parts (some "@depend Logger")).tags = [("depend", "Logger")] ∧
      (parts (some "@depend\tLogger")).tags = [("depend\tLogger", "")] ∧
      (RelationTag.relationships .empty
          { dog with tags := (parts (some "@depend Logger")).tags }).result =
        .ok [⟨⟨"Logger", none⟩, "<..", ⟨"p.Dog", none⟩, []⟩] ∧
      (RelationTag.relationships .empty
          { dog with tags := (parts (some "@depend\tLogger")).tags }).result = .ok [] := by
  intro dog
  have hlines : lines "@depend Logger" = ["@depend Logger"] := by decide
  have hlines' : lines "@depend\tLogger" = ["@depend\tLogger"] := by decide
  have hdepend : Respaced ("@depend" ++ " " ++ "Logger") ("@depend" ++ "\t" ++ "Logger") := by
    have hname : Respaced "@depend" "@depend" := .of_lacks (by decide)
    have hgap : Respaced " " "\t" := .of_blanks (by decide) (by decide) (by decide)
    have htarget : Respaced "Logger" "Logger" := .of_lacks (by decide)
    exact (hname.append hgap).append htarget
  have htags : (parts (some "@depend Logger")).tags = [("depend", "Logger")] := by decide
  have htags' : (parts (some "@depend\tLogger")).tags = [("depend\tLogger", "")] := by decide
  rw [hlines, hlines', htags, htags']
  exact ⟨.cons hdepend .nil, rfl, rfl, rfl, rfl⟩

end ClassChart.Java.Javadoc
