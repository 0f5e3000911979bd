import ClassChart.Java.Javadoc
import ClassChart.Proofs.Blanks

/-!
Dividing documentation keeps its words.  What a line adds to the tags are its words, so the
description and the tags together have the words of the documentation, in their order.
-/
namespace ClassChart.Java.Javadoc

open Text (words trim lines upTo beyond)

variable {line : String} {tags : List (String × String)}

/-- Without the blanks around it, the line is an at sign with something after it. -/
def OpensTag (line : String) : Prop :=
  ∃ rest, rest ≠ "" ∧ trim line = "@" ++ rest

theorem isTagLine_iff : isTagLine line = true ↔ OpensTag line := by
  rw [isTagLine, Bool.and_eq_true, decide_eq_true_eq, Text.beginsWith_iff]
  constructor
  · rintro ⟨⟨rest, hrest⟩, hlength⟩
    refine ⟨rest, ?_, hrest⟩
    rintro rfl
    rw [hrest] at hlength
    exact absurd hlength (by decide)
  · rintro ⟨rest, hempty, hrest⟩
    have hat : "@".length = 1 := rfl
    have hlength : rest.length ≠ 0 := by simpa using hempty
    refine ⟨⟨rest, hrest⟩, ?_⟩
    rw [hrest, String.length_append, hat]
    omega

/-- The words of a tag as it is written. -/
def tagWords (tag : String × String) : List String :=
  words ("@" ++ tag.1 ++ " " ++ tag.2)

theorem tagWords_eq (name text : String) :
    tagWords (name, text) = words ("@" ++ name) ++ words text :=
  Text.words_append_space _ _

/-- A text that is cut at its first space keeps its words, also if it has none. -/
theorem words_upTo_append_beyond (lead s : String) :
    words (lead ++ upTo ' ' s) ++ words (beyond ' ' s) = words (lead ++ s) := by
  rcases Text.lacks_or_eq_append_first ' ' s with hs | ⟨first, rest, hfirst, rfl⟩
  · rw [Text.upTo_of_lacks ' ' hs, Text.beyond_of_lacks ' ' hs]
    exact List.append_nil _
  · rw [Text.upTo_append ' ' hfirst, Text.beyond_append ' ' hfirst, ← String.append_assoc,
      ← String.append_assoc]
    exact (Text.words_append_space (lead ++ first) rest).symm

theorem tagOf_eq {rest : String} (hrest : trim line = "@" ++ rest) :
    tagOf line = (upTo ' ' rest, trim (beyond ' ' rest)) := by
  have hdrop : Text.dropFirst 1 (trim line) = rest := by
    rw [hrest]
    exact Text.dropFirst_append "@" rest
  simp only [tagOf, hdrop]

/-- The tag that a line begins has the words of the line. -/
theorem tagWords_tagOf (hline : OpensTag line) : tagWords (tagOf line) = words line := by
  obtain ⟨rest, -, hrest⟩ := hline
  rw [tagOf_eq hrest, tagWords_eq, Text.words_trim, words_upTo_append_beyond, ← hrest,
    Text.words_trim]

/-- A line that is folded into the text of a tag adds its words, also if it has none. -/
theorem words_folded (text line : String) :
    words (if (trim line).isEmpty then text else trim (text ++ " " ++ trim line)) =
      words text ++ words line := by
  split
  · rename_i hempty
    rw [← Text.words_trim line, String.isEmpty_iff.mp hempty]
    exact (List.append_nil _).symm
  · rw [Text.words_trim, Text.words_append_space, Text.words_trim]

/-- Words that a later line adds come after those of the tag so far. -/
theorem tagWords_of_words_eq {name text more : String} {ws : List String}
    (hmore : words more = words text ++ ws) :
    tagWords (name, more) = tagWords (name, text) ++ ws := by
  rw [tagWords_eq, tagWords_eq, hmore, List.append_assoc]

/-- Only the last tag grows, and only by a line that is not empty. -/
theorem extendLast_append (front : List (String × String)) (name text line : String) :
    extendLast (front ++ [(name, text)]) line = front ++
      [(name, if (trim line).isEmpty then text else trim (text ++ " " ++ trim line))] := by
  rw [extendLast, List.getLast?_concat]
  dsimp only
  split
  · rfl
  · rw [List.dropLast_concat]

theorem flatMap_tagWords_extendLast (htags : tags ≠ []) :
    (extendLast tags line).flatMap tagWords = tags.flatMap tagWords ++ words line := by
  obtain ⟨front, ⟨name, text⟩, rfl⟩ : ∃ front last, tags = front ++ [last] :=
    ⟨_, _, (List.dropLast_concat_getLast htags).symm⟩
  rw [extendLast_append, List.flatMap_append, List.flatMap_append, List.append_assoc,
    List.flatMap_singleton, List.flatMap_singleton, tagWords_of_words_eq (words_folded text line)]

/-- One line adds its words, once a tag has begun. -/
theorem flatMap_tagWords_readLine (hline : tags ≠ [] ∨ OpensTag line) :
    (readLine tags line).flatMap tagWords = tags.flatMap tagWords ++ words line := by
  rw [readLine]
  split
  · rename_i htag
    rw [List.flatMap_append, List.flatMap_singleton, tagWords_tagOf (isTagLine_iff.mp htag)]
  · rename_i htag
    rw [isTagLine_iff] at htag
    exact flatMap_tagWords_extendLast (hline.resolve_right htag)

theorem length_readLine (tags : List (String × String)) (line : String) :
    (readLine tags line).length = tags.length + if isTagLine line then 1 else 0 := by
  rw [readLine]
  split
  · simp
  · rcases List.eq_nil_or_concat tags with rfl | ⟨front, ⟨name, text⟩, rfl⟩
    · rfl
    · rw [List.concat_eq_append, extendLast_append]
      simp

/-- Every line with an at sign begins a tag, and no other line does. -/
theorem length_foldl_readLine (tags : List (String × String)) (rows : List String) :
    (rows.foldl readLine tags).length = tags.length + rows.countP isTagLine := by
  induction rows generalizing tags with
  | nil => rfl
  | cons line rest ih =>
      rw [List.foldl_cons, ih, length_readLine, List.countP_cons]
      omega

/-- All lines after the first that begins a tag add their words. -/
theorem flatMap_tagWords_foldl (htags : tags ≠ []) (rows : List String) :
    (rows.foldl readLine tags).flatMap tagWords = tags.flatMap tagWords ++ rows.flatMap words := by
  induction rows generalizing tags with
  | nil => simp
  | cons line rest ih =>
      have hnext : readLine tags line ≠ [] := by
        have hlength := length_readLine tags line
        have hpos := List.length_pos_iff.mpr htags
        rw [← List.length_pos_iff]
        omega
      rw [List.foldl_cons, ih hnext, flatMap_tagWords_readLine (.inl htags), List.flatMap_cons,
        List.append_assoc]

/-- Lines before the first tag are no part of the tags. -/
theorem foldl_readLine_nil {rows : List String} (hrows : ∀ line ∈ rows, ¬ OpensTag line) :
    rows.foldl readLine [] = [] := by
  have hnone : rows.countP isTagLine = 0 := by
    apply List.countP_eq_zero.mpr
    intro line hline
    rw [isTagLine_iff]
    exact hrows line hline
  rw [← List.length_eq_zero_iff, length_foldl_readLine, hnone]
  rfl

/-- Lines of which the first begins a tag all go into the tags. -/
theorem flatMap_tagWords_of_head {rows : List String} (hrows : ∀ line ∈ rows.head?, OpensTag line) :
    (rows.foldl readLine []).flatMap tagWords = rows.flatMap words := by
  cases rows with
  | nil => rfl
  | cons line rest =>
      have htag : isTagLine line = true := isTagLine_iff.mpr (hrows line rfl)
      have hfirst : readLine [] line = [tagOf line] := by
        rw [readLine, if_pos htag, List.nil_append]
      rw [List.foldl_cons, hfirst, flatMap_tagWords_foldl (List.cons_ne_nil _ _),
        List.flatMap_singleton, tagWords_tagOf (hrows line rfl), List.flatMap_cons]

theorem tags_parts (doc : Option String) :
    (parts doc).tags = (lines (doc.getD "")).foldl readLine [] := by
  cases doc with
  | none => rfl
  | some doc =>
      rw [parts]
      split
      · rename_i hempty
        rw [String.isEmpty_iff.mp hempty]
        rfl
      · rfl

theorem words_getD_ite_isEmpty (s : String) :
    words ((if s.isEmpty then none else some s).getD "") = words s := by
  split
  · rename_i hempty
    rw [String.isEmpty_iff.mp hempty]
    rfl
  · rfl

theorem words_trim_unlines (rows : List String) :
    words (trim ("\n".intercalate rows)) = rows.flatMap words := by
  have hnewline : Text.isBlank '\n' = true := by decide
  rw [Text.words_trim]
  exact Text.words_intercalate hnewline rows

/-- The description is the trimmed text of the lines before the first tag, if anything is left. -/
theorem description_parts {doc : String} (hdoc : doc ≠ "") {text : String}
    (htext : trim ("\n".intercalate ((lines doc).takeWhile fun line => !isTagLine line)) = text) :
    (parts (some doc)).description = if text.isEmpty then none else some text := by
  rw [parts, if_neg (by simpa using hdoc), ← htext]

/-- The description has the words of the lines before the first tag. -/
theorem words_description_parts (doc : Option String) :
    words ((parts doc).description.getD "") =
      ((lines (doc.getD "")).takeWhile fun line => !isTagLine line).flatMap words := by
  cases doc with
  | none => rfl
  | some doc =>
      by_cases hdoc : doc = ""
      · subst hdoc
        rfl
      · rw [description_parts hdoc rfl, words_getD_ite_isEmpty, words_trim_unlines,
          Option.getD_some]

/-- The lines of a documentation, up to the first that begins a tag and from there on. -/
theorem exists_lines_eq (doc : String) : ∃ before after, lines doc = before ++ after ∧
    (∀ line ∈ before, ¬ OpensTag line) ∧ (∀ line ∈ after.head?, OpensTag line) ∧
    (lines doc).takeWhile (fun line => !isTagLine line) = before := by
  refine ⟨_, _, List.takeWhile_append_dropWhile.symm, fun line hline => ?_, fun line hline => ?_,
    rfl⟩
  · have hall := List.all_eq_true.mp List.all_takeWhile line hline
    rw [← isTagLine_iff]
    simpa using hall
  · have hstop := List.head?_dropWhile_not (fun line => !isTagLine line) (lines doc)
    rw [hline] at hstop
    rw [← isTagLine_iff]
    simpa using hstop

/-- Dividing documentation loses and reorders no words.  The description has those of the lines
before the first that begins a tag, and there are as many tags as lines that begin one. -/
theorem words_parts (doc : Option String) :
    words (doc.getD "") =
      words ((parts doc).description.getD "") ++ (parts doc).tags.flatMap tagWords ∧
    (parts doc).tags.length = (lines (doc.getD "")).countP isTagLine ∧
    ∃ before after, lines (doc.getD "") = before ++ after ∧
      (∀ line ∈ before, ¬ OpensTag line) ∧ (∀ line ∈ after.head?, OpensTag line) ∧
      words ((parts doc).description.getD "") = before.flatMap words := by
  obtain ⟨before, after, hlines, hbefore, hafter, htake⟩ := exists_lines_eq (doc.getD "")
  have hwords : words (doc.getD "") = before.flatMap words ++ after.flatMap words := by
    rw [← Text.flatMap_words_lines, hlines, List.flatMap_append]
  have hdescription := words_description_parts doc
  rw [htake] at hdescription
  have htags : (parts doc).tags = after.foldl readLine [] := by
    rw [tags_parts, hlines, List.foldl_append, foldl_readLine_nil hbefore]
  refine ⟨?_, ?_, before, after, hlines, hbefore, hafter, hdescription⟩
  · rw [hwords, hdescription, htags, flatMap_tagWords_of_head hafter]
  · rw [tags_parts, length_foldl_readLine]
    exact Nat.zero_add _

end ClassChart.Java.Javadoc
