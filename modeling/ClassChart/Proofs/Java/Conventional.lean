import ClassChart.Proofs.Java.CommentMarks
import ClassChart.Proofs.Java.Javadoc
import ClassChart.Proofs.Rows

/-!
Conventional documentation comments.  A description and tags that are written row by row behind
stars are read back as they were, whatever the indentation.
-/
namespace ClassChart.Java.Javadoc

open Text (Bare Blanks Firm Lacks isBlank trim lines)

/-- The lines of a description.  None ends with a blank or is read as a tag, the first begins
with a character that is not blank, and the last is not empty. -/
structure Description where
  lines : List String
  oneLine : ∀ line ∈ lines, Lacks '\n' line
  noTrail : ∀ line ∈ lines, ∀ c ∈ line.toList.getLast?, isBlank c = false
  noTag : ∀ line ∈ lines, Text.beginsWith "@" (trim line) = false
  first : ∃ line rest c, lines = line :: rest ∧ line.toList.head? = some c ∧ isBlank c = false
  last : ∀ line ∈ lines.getLast?, line ≠ ""

def Description.text (d : Description) : String :=
  "\n".intercalate d.lines

/-- A tag with a name without blanks and a text on one line without blanks around it. -/
structure Tag where
  name : String
  text : String
  nonempty : name ≠ ""
  solid : ∀ c ∈ name.toList, isBlank c = false
  bare : Bare text
  oneLine : Lacks '\n' text

/-- A description, tags, or both, with the layout in which they are written: the indentation,
whether an empty row stands before the tags, and whether the space behind the name of a tag
without text is left out. -/
structure Conventional where
  description : Option Description
  tags : List Tag
  present : description = none → tags ≠ []
  indent : Blanks
  oneLine : Lacks '\n' indent.text
  spaced : Bool
  tight : Bool

/-- A row of a description.  In an empty one the star stands alone. -/
def starred (line : String) : String :=
  if line.isEmpty then " *" else " * " ++ line

def Tag.row (tight : Bool) (t : Tag) : String :=
  " * @" ++ t.name ++ if tight && t.text.isEmpty then "" else " " ++ t.text

namespace Conventional

variable (w : Conventional)

/-- The lines of the description, if there is one. -/
def lead : List String :=
  w.description.elim [] Description.lines

/-- The rows between the marks of the comment. -/
def rows : List String :=
  w.lead.map starred ++ (if w.spaced then [starred ""] else []) ++ w.tags.map (Tag.row w.tight)

/-- What stands between the marks. -/
def between : String :=
  "\n".intercalate ("" :: w.rows.map (w.indent.text ++ ·) ++ [w.indent.text ++ " "])

/-- The whole comment. -/
def text : String :=
  "/**" ++ w.between ++ "*/"

/-- What is to be read from the comment. -/
def meant : Parts :=
  ⟨w.description.map Description.text, w.tags.map fun t => (t.name, t.text)⟩

end Conventional

/-- A star with what is written behind it, between blanks. -/
theorem lineText_starred {line : String} (hempty : line ≠ "")
    (hlast : ∀ c ∈ line.toList.getLast?, isBlank c = false) (before after : Blanks) :
    lineText (before.text ++ ("* " ++ line) ++ after.text) = line := by
  have hbare : Bare ("* " ++ line) := by
    refine ⟨fun c hc => ?_, fun c hc => hlast c ?_⟩
    · obtain rfl : '*' = c := by simpa using hc
      decide
    · rwa [String.toList_append, List.getLast?_append_of_ne_nil _
        (mt String.toList_eq_nil_iff.mp hempty)] at hc
  have hbegins : Text.beginsWith "* " ("* " ++ line) = true := Text.beginsWith_iff.mpr ⟨_, rfl⟩
  have hdrop : Text.dropFirst 2 ("* " ++ line) = line := Text.dropFirst_append "* " line
  unfold lineText
  rw [hbare.trim_append (by simp)]
  dsimp only
  rw [if_pos hbegins, hdrop]

theorem lineText_star (before : Blanks) : lineText (before.text ++ "*") = "" := by
  have hbare : Bare "*" := by
    refine ⟨fun c hc => ?_, fun c hc => ?_⟩
    · obtain rfl : '*' = c := by simpa using hc
      decide
    · obtain rfl : '*' = c := by simpa using hc
      decide
  have htrim : trim (before.text ++ "*") = "*" := by
    simpa [Blanks.none] using hbare.trim_append (by decide) before .none
  unfold lineText
  rw [htrim]
  decide +kernel

theorem lineText_blanks (gap : Blanks) : lineText gap.text = "" := by
  unfold lineText
  rw [gap.trim_text]
  decide +kernel

/-- The blanks before a star. -/
def margin (indent : Blanks) : Blanks :=
  ⟨indent.text ++ " ", by
    intro c hc
    rw [String.toList_append, List.mem_append] at hc
    rcases hc with hc | hc
    · exact indent.isBlank c hc
    · obtain rfl : c = ' ' := by simpa using hc
      decide⟩

/-- The star and the space after it are taken off, with the indentation before them. -/
theorem lineText_append_starred {line : String}
    (hlast : ∀ c ∈ line.toList.getLast?, isBlank c = false) (indent : Blanks) :
    lineText (indent.text ++ starred line) = line := by
  by_cases hempty : line = ""
  · have hrow : indent.text ++ starred line = (margin indent).text ++ "*" := by
      have hstar : " *" = " " ++ "*" := by decide
      rw [hempty, starred, if_pos (by decide), hstar, margin, String.append_assoc]
    rw [hrow, lineText_star, hempty]
  · have hrow : indent.text ++ starred line =
        (margin indent).text ++ ("* " ++ line) ++ Blanks.none.text := by
      have hstar : " * " = " " ++ "* " := by decide
      rw [starred, if_neg (by simpa using hempty), hstar, margin, Blanks.none]
      simp only [String.append_assoc, String.append_empty]
    rw [hrow, lineText_starred hempty hlast]

namespace Tag

variable (t : Tag)

/-- The tag as it is read. -/
def line : String :=
  "@" ++ t.name ++ if t.text.isEmpty then "" else " " ++ t.text

theorem line_of_text_eq (htext : t.text = "") : t.line = "@" ++ t.name := by
  rw [line, htext]
  exact String.append_empty

theorem line_of_text_ne (htext : t.text ≠ "") : t.line = "@" ++ t.name ++ " " ++ t.text := by
  rw [line, if_neg (by simpa using htext), ← String.append_assoc]

theorem getLast?_line {c : Char} (hc : c ∈ t.line.toList.getLast?) : isBlank c = false := by
  by_cases htext : t.text = ""
  · rw [t.line_of_text_eq htext, String.toList_append, List.getLast?_append_of_ne_nil _
      (mt String.toList_eq_nil_iff.mp t.nonempty)] at hc
    exact t.solid c (List.mem_of_getLast? hc)
  · rw [t.line_of_text_ne htext, String.toList_append, List.getLast?_append_of_ne_nil _
      (mt String.toList_eq_nil_iff.mp htext)] at hc
    exact t.bare.last c hc

theorem line_ne_empty : t.line ≠ "" := by
  simp [line]

theorem bare_line : Bare t.line where
  first c hc := by
    obtain rfl : '@' = c := by simpa [line] using hc
    decide
  last _ hc := t.getLast?_line hc

/-- A row with a tag is read as the tag, with or without a space behind the name. -/
theorem lineText_append_row (tight : Bool) (indent : Blanks) :
    lineText (indent.text ++ t.row tight) = t.line := by
  have hstar : " * @" = " " ++ "* " ++ "@" := by decide
  have hafter : ∃ after : Blanks, t.row tight = " " ++ ("* " ++ t.line) ++ after.text := by
    by_cases htext : t.text = ""
    · cases tight with
      | true =>
          refine ⟨.none, ?_⟩
          rw [row, t.line_of_text_eq htext, htext, hstar, if_pos (by decide), Blanks.none]
          simp only [String.append_assoc]
      | false =>
          refine ⟨margin .none, ?_⟩
          rw [row, t.line_of_text_eq htext, htext, hstar, if_neg (by simp), margin, Blanks.none]
          simp only [String.append_assoc, String.append_empty, String.empty_append]
    · refine ⟨.none, ?_⟩
      rw [row, t.line_of_text_ne htext, hstar, if_neg (by simp [htext]), Blanks.none]
      simp only [String.append_assoc, String.append_empty]
  obtain ⟨after, hrow⟩ := hafter
  have hmargin : indent.text ++ t.row tight = (margin indent).text ++ ("* " ++ t.line) ++
      after.text := by
    rw [hrow, margin]
    simp only [String.append_assoc]
  rw [hmargin, lineText_starred t.line_ne_empty fun _ => t.getLast?_line]

theorem lacks_name {c : Char} (hc : isBlank c = true) : Lacks c t.name := by
  intro hmem
  rw [t.solid c hmem] at hc
  contradiction

theorem lacks_newline_append {lead : String} (hlead : Lacks '\n' lead) (alone : Bool) :
    Lacks '\n' (lead ++ t.name ++ if alone then "" else " " ++ t.text) := by
  have hname : Lacks '\n' t.name := t.lacks_name (by decide)
  refine Text.lacks_append.mpr ⟨Text.lacks_append.mpr ⟨hlead, hname⟩, ?_⟩
  split
  · decide
  · exact Text.lacks_append.mpr ⟨by decide, t.oneLine⟩

theorem lacks_newline_row (tight : Bool) : Lacks '\n' (t.row tight) :=
  t.lacks_newline_append (by decide) (tight && t.text.isEmpty)

theorem lacks_newline_line : Lacks '\n' t.line :=
  t.lacks_newline_append (by decide) t.text.isEmpty

theorem opensTag_line : OpensTag t.line := by
  refine ⟨t.name ++ if t.text.isEmpty then "" else " " ++ t.text, ?_, ?_⟩
  · simp [t.nonempty]
  · rw [t.bare_line.trim_eq_self t.line_ne_empty, line, String.append_assoc]

/-- The tag that is read is the one that is written. -/
theorem tagOf_line : tagOf t.line = (t.name, t.text) := by
  have hname : Lacks ' ' t.name := t.lacks_name (by decide)
  have htrim : trim t.line = t.line := t.bare_line.trim_eq_self t.line_ne_empty
  by_cases htext : t.text = ""
  · have hdrop : Text.dropFirst 1 t.line = t.name := by
      rw [t.line_of_text_eq htext]
      exact Text.dropFirst_append "@" t.name
    unfold tagOf
    rw [htrim]
    dsimp only
    rw [hdrop, Text.upTo_of_lacks ' ' hname, Text.beyond_of_lacks ' ' hname, htext]
    rfl
  · have hdrop : Text.dropFirst 1 t.line = t.name ++ String.singleton ' ' ++ t.text := by
      rw [t.line_of_text_ne htext, String.append_assoc, String.append_assoc, String.append_assoc]
      exact Text.dropFirst_append "@" (t.name ++ (" " ++ t.text))
    unfold tagOf
    rw [htrim]
    dsimp only
    rw [hdrop, Text.upTo_append ' ' hname, Text.beyond_append ' ' hname,
      t.bare.trim_eq_self htext]

end Tag

/-- Tags that are written one after the other are read one after the other. -/
theorem foldl_readLine_tags (tags : List Tag) (read : List (String × String)) :
    (tags.map Tag.line).foldl readLine read = read ++ tags.map fun t => (t.name, t.text) := by
  induction tags generalizing read with
  | nil => simp
  | cons t rest ih =>
      have htag : isTagLine t.line = true := isTagLine_iff.mpr t.opensTag_line
      rw [List.map_cons, List.foldl_cons, ih, readLine, if_pos htag, t.tagOf_line, List.map_cons,
        List.append_assoc]
      rfl

namespace Description

variable (d : Description)

theorem firm : Firm d.lines where
  first := d.first
  last := by
    obtain ⟨first, rest, -, hlines, -⟩ := d.first
    have hne : d.lines ≠ [] := by simp [hlines]
    have hlast : d.lines.getLast hne ∈ d.lines.getLast? := List.getLast?_eq_some_getLast hne
    obtain ⟨c, cs, hcs⟩ := Text.exists_toList_eq_cons (d.last _ hlast)
    have hchars : (d.lines.getLast hne).toList ≠ [] := by simp [hcs]
    have hc := List.getLast?_eq_some_getLast hchars
    exact ⟨_, _, _, (List.dropLast_concat_getLast hne).symm, hc,
      d.noTrail _ (List.getLast_mem hne) _ hc⟩

theorem not_opensTag {line : String} (hline : line ∈ d.lines) : ¬ OpensTag line := by
  rintro ⟨rest, -, hrest⟩
  have hnone := d.noTag line hline
  rw [Text.beginsWith_iff.mpr ⟨rest, hrest⟩] at hnone
  contradiction

end Description

theorem not_opensTag_empty : ¬ OpensTag "" := by
  rintro ⟨rest, -, hrest⟩
  have hlength := congrArg String.length hrest
  rw [String.length_append] at hlength
  have hat : "@".length = 1 := rfl
  have htrim : (trim "").length = 0 := rfl
  omega

/-- Rows of tags are firm. -/
theorem firm_tags {tags : List Tag} (htags : tags ≠ []) : Firm (tags.map Tag.line) where
  first := by
    obtain ⟨t, rest, rfl⟩ := List.exists_cons_of_ne_nil htags
    exact ⟨t.line, _, '@', rfl, by simp [Tag.line], by decide⟩
  last := by
    have hlast : (tags.getLast htags).line.toList ≠ [] :=
      mt String.toList_eq_nil_iff.mp (tags.getLast htags).line_ne_empty
    have hc := List.getLast?_eq_some_getLast hlast
    refine ⟨tags.dropLast.map Tag.line, _, _, ?_, hc, (tags.getLast htags).getLast?_line hc⟩
    rw [← List.map_singleton, ← List.map_append, List.dropLast_concat_getLast]

namespace Conventional

variable (w : Conventional)

/-- What holds of all lines of descriptions holds of those of the comment. -/
theorem forall_mem_lead {P : String → Prop} (hP : ∀ d : Description, ∀ line ∈ d.lines, P line) :
    ∀ line ∈ w.lead, P line := by
  intro line hline
  unfold lead at hline
  cases hdescription : w.description with
  | none =>
      rw [hdescription] at hline
      contradiction
  | some d =>
      rw [hdescription] at hline
      exact hP d line hline

/-- The empty row before the tags, if there is one. -/
def gap : List String :=
  if w.spaced then [""] else []

theorem eq_empty_of_mem_gap {row : String} (hrow : row ∈ w.gap) : row = "" := by
  unfold gap at hrow
  split at hrow
  · exact List.mem_singleton.mp hrow
  · contradiction

theorem rows_eq : w.rows = (w.lead ++ w.gap).map starred ++ w.tags.map (Tag.row w.tight) := by
  rw [rows, gap, List.map_append]
  split <;> rfl

/-- The rows as they are read. -/
def shown : List String :=
  w.lead ++ w.gap ++ w.tags.map Tag.line

theorem map_lineText_rows : (w.rows.map (w.indent.text ++ ·)).map lineText = w.shown := by
  have hlines : ∀ line ∈ w.lead ++ w.gap, lineText (w.indent.text ++ starred line) = line := by
    intro line hline
    apply lineText_append_starred
    rcases List.mem_append.mp hline with hlead | hgap
    · exact w.forall_mem_lead (fun d => d.noTrail) line hlead
    · rw [w.eq_empty_of_mem_gap hgap]
      simp
  have hlead : (w.lead ++ w.gap).map (fun line => lineText (w.indent.text ++ starred line)) =
      w.lead ++ w.gap := (List.map_congr_left hlines).trans (List.map_id' _)
  have htags : w.tags.map (fun t => lineText (w.indent.text ++ t.row w.tight)) =
      w.tags.map Tag.line :=
    List.map_congr_left fun t _ => t.lineText_append_row w.tight w.indent
  rw [shown, ← hlead, ← htags, w.rows_eq]
  simp only [List.map_append, List.map_map, Function.comp_def]

theorem lacks_newline_starred {line : String} (hline : Lacks '\n' line) :
    Lacks '\n' (starred line) := by
  unfold starred
  split
  · decide
  · exact Text.lacks_append.mpr ⟨by decide, hline⟩

theorem lacks_newline_row {row : String} (hrow : row ∈ w.rows) : Lacks '\n' row := by
  rw [w.rows_eq, List.mem_append, List.mem_map, List.mem_map] at hrow
  rcases hrow with ⟨line, hline, rfl⟩ | ⟨t, -, rfl⟩
  · apply lacks_newline_starred
    rcases List.mem_append.mp hline with hlead | hgap
    · exact w.forall_mem_lead (fun d => d.oneLine) line hlead
    · rw [w.eq_empty_of_mem_gap hgap]
      decide
  · exact t.lacks_newline_row w.tight

/-- Behind the opening mark and before the closing one, the rows are read. -/
theorem unmarked_between :
    unmarked w.between = trim ("\n".intercalate ("" :: w.shown ++ [""])) := by
  have hrows : ∀ row ∈ "" :: w.rows.map (w.indent.text ++ ·) ++ [w.indent.text ++ " "],
      Lacks '\n' row := by
    intro row hrow
    rw [List.mem_append, List.mem_cons, List.mem_map, List.mem_singleton] at hrow
    rcases hrow with (rfl | ⟨own, hown, rfl⟩) | rfl
    · decide
    · exact Text.lacks_append.mpr ⟨w.oneLine, w.lacks_newline_row hown⟩
    · exact Text.lacks_append.mpr ⟨w.oneLine, by decide⟩
  have hfirst : lineText "" = "" := lineText_blanks .none
  have hlast : lineText (w.indent.text ++ " ") = "" := lineText_blanks (margin w.indent)
  rw [unmarked, between, Text.lines_intercalate (by simp) hrows, List.map_append, List.map_cons,
    w.map_lineText_rows, List.map_singleton, hfirst, hlast]

/-- What is left of the rows when empty ones at the ends are gone.  An empty row before the tags
stays if there are both a description and tags. -/
theorem exists_core : ∃ before inner after : List String,
    "" :: w.shown ++ [""] = before ++ (w.lead ++ inner ++ w.tags.map Tag.line) ++ after ∧
      (∀ row ∈ before, row = "") ∧ (∀ row ∈ inner, row = "") ∧ (∀ row ∈ after, row = "") ∧
      (w.lead = [] → inner = []) ∧ Firm (w.lead ++ inner ++ w.tags.map Tag.line) := by
  have hgap : ∀ row ∈ w.gap, row = "" := fun _ => w.eq_empty_of_mem_gap
  cases hdescription : w.description with
  | none =>
      have hlead : w.lead = [] := by rw [lead, hdescription, Option.elim_none]
      refine ⟨"" :: w.gap, [], [""], ?_, List.forall_mem_cons.mpr ⟨rfl, hgap⟩, by simp, by simp,
        fun _ => rfl, ?_⟩
      · simp [shown, hlead]
      · simpa [hlead] using firm_tags (w.present hdescription)
  | some d =>
      have hlead : w.lead = d.lines := by rw [lead, hdescription, Option.elim_some]
      have hfirm : Firm w.lead := hlead ▸ d.firm
      by_cases htags : w.tags = []
      · refine ⟨[""], [], w.gap ++ [""], ?_, by simp, by simp,
          List.forall_mem_append.mpr ⟨hgap, by simp⟩, fun _ => rfl, ?_⟩
        · simp [shown, htags]
        · simpa [htags] using hfirm
      · exact ⟨[""], w.gap, [""], by simp [shown], by simp, hgap, by simp,
          fun hnil => absurd hnil hfirm.ne_nil, hfirm.append w.gap (firm_tags htags)⟩

theorem not_opensTag {inner : List String} (hinner : ∀ row ∈ inner, row = "") :
    ∀ line ∈ w.lead ++ inner, ¬ OpensTag line := by
  intro line hline
  rcases List.mem_append.mp hline with hlead | hline
  · exact w.forall_mem_lead (fun d _ => d.not_opensTag) line hlead
  · rw [hinner line hline]
    exact not_opensTag_empty

/-- The lines before the first tag. -/
theorem takeWhile_core {inner : List String} (hinner : ∀ row ∈ inner, row = "") :
    (w.lead ++ inner ++ w.tags.map Tag.line).takeWhile (fun line => !isTagLine line) =
      w.lead ++ inner := by
  have hlead : ∀ line ∈ w.lead ++ inner, (!isTagLine line) = true := by
    intro line hline
    have htag := mt isTagLine_iff.mp (w.not_opensTag hinner line hline)
    simpa using htag
  rw [List.takeWhile_append_of_pos hlead]
  cases w.tags with
  | nil => simp
  | cons t rest =>
      have htag : isTagLine t.line = true := isTagLine_iff.mpr t.opensTag_line
      simp [htag]

theorem lacks_newline_core {inner : List String} (hinner : ∀ row ∈ inner, row = "") :
    ∀ line ∈ w.lead ++ inner ++ w.tags.map Tag.line, Lacks '\n' line := by
  intro line hline
  rw [List.mem_append, List.mem_append, List.mem_map] at hline
  rcases hline with (hlead | hline) | ⟨t, -, rfl⟩
  · exact w.forall_mem_lead (fun d => d.oneLine) line hlead
  · rw [hinner line hline]
    decide
  · exact t.lacks_newline_line

/-- The description that is read is the one that is written. -/
theorem trim_lead {inner : List String} (hinner : ∀ row ∈ inner, row = "")
    (hnone : w.lead = [] → inner = []) :
    (if (trim ("\n".intercalate (w.lead ++ inner))).isEmpty then none
      else some (trim ("\n".intercalate (w.lead ++ inner)))) =
      w.description.map Description.text := by
  cases hdescription : w.description with
  | none =>
      have hlead : w.lead = [] := by rw [lead, hdescription, Option.elim_none]
      rw [hlead, hnone hlead]
      decide +kernel
  | some d =>
      have hlead : w.lead = d.lines := by rw [lead, hdescription, Option.elim_some]
      have htrim : trim ("\n".intercalate (d.lines ++ inner)) = d.text := by
        have hfront : ∀ row ∈ ([] : List String), row = "" := by simp
        simpa [Description.text] using d.firm.trim_intercalate hfront hinner
      have hempty : d.text ≠ "" := d.firm.intercalate_ne_empty
      rw [hlead, htrim, if_neg (by simpa using hempty), Option.map_some]

/-- The opening mark stands in a line of its own. -/
theorem head?_between : w.between.toList.head? = some '\n' := by
  have hrows : w.rows.map (w.indent.text ++ ·) ++ [w.indent.text ++ " "] ≠ [] := by simp
  obtain ⟨row, rest, heq⟩ := List.exists_cons_of_ne_nil hrows
  rw [between, List.cons_append, heq, String.intercalate_cons_cons]
  simp

/-- A documentation comment with a description and tags is read as it was written, whatever the
indentation and with or without an empty row before the tags.  Without a closing mark in it, it
is one token of the text that it stands in. -/
theorem parts_content_text :
    parts (content w.text) = w.meant ∧
      (¬ ['*', '/'] <:+: w.between.toList → ∀ after,
        Lexer.scan (w.text.toList ++ after) = some (.blockComment, w.text.toList, after)) := by
  constructor
  · obtain ⟨before, inner, after, hshown, hbefore, hinner, hafter, hnone, hfirm⟩ := w.exists_core
    have hdoc : unmarked w.between =
        "\n".intercalate (w.lead ++ inner ++ w.tags.map Tag.line) := by
      rw [w.unmarked_between, hshown, hfirm.trim_intercalate hbefore hafter]
    have hlines : lines (unmarked w.between) = w.lead ++ inner ++ w.tags.map Tag.line := by
      rw [hdoc, Text.lines_intercalate hfirm.ne_nil (w.lacks_newline_core hinner)]
    have hempty : unmarked w.between ≠ "" := hdoc ▸ hfirm.intercalate_ne_empty
    have hdescription : (parts (some (unmarked w.between))).description = w.meant.description := by
      rw [description_parts hempty rfl, hlines, w.takeWhile_core hinner, w.trim_lead hinner hnone]
      rfl
    have htags : (parts (some (unmarked w.between))).tags = w.meant.tags := by
      rw [tags_parts, Option.getD_some, hlines, List.foldl_append,
        foldl_readLine_nil (w.not_opensTag hinner), foldl_readLine_tags, List.nil_append]
      rfl
    calc parts (content w.text)
        = ⟨(parts (some (unmarked w.between))).description,
            (parts (some (unmarked w.between))).tags⟩ := by rw [text, content_of_marks]
      _ = w.meant := by rw [hdescription, htags]
  · intro hclosed after
    have hinner : ¬ ['*', '/'] <:+: ("*" ++ w.between).toList := by
      have hfirst : w.between.toList.head? ≠ some '/' := by
        rw [w.head?_between]
        decide
      rw [String.toList_append]
      exact Lexer.not_infix_cons_iff.mpr ⟨fun hslash => hfirst hslash.2, hclosed⟩
    have htext : w.text = (BlockComment.mk ("*" ++ w.between) hinner).text := by
      rw [text, BlockComment.text, ← String.append_assoc]
      rfl
    rw [htext]
    exact Lexer.scan_blockComment _ after

end Conventional

/-- A comment with a star and an indented line in its description and a tag without text. -/
def listsNames : Conventional where
  description := some
    { lines := ["* Lists", "", "  all @names."]
      oneLine := by decide
      noTrail := by simp; decide
      noTag := by decide +kernel
      first := ⟨"* Lists", ["", "  all @names."], '*', rfl, rfl, by decide⟩
      last := by simp }
  tags :=
    [{ name := "param", text := "x  the value", nonempty := by decide, solid := by simp; decide
       bare := ⟨by simp; decide, by simp; decide⟩, oneLine := by decide },
     { name := "deprecated", text := "", nonempty := by decide, solid := by simp; decide
       bare := ⟨by simp, by simp⟩, oneLine := by decide }]
  present := nofun
  indent := ⟨"\t", by simp; decide⟩
  oneLine := by decide
  spaced := true
  tight := false

theorem parts_content_text_listsNames :
    parts (content listsNames.text) =
        ⟨some "* Lists\n\n  all @names.", [("param", "x  the value"), ("deprecated", "")]⟩ ∧
      Lexer.scan (listsNames.text.toList ++ ['*', '/']) =
        some (.blockComment, listsNames.text.toList, ['*', '/']) := by
  have hread := listsNames.parts_content_text
  have hclosed : ¬ ['*', '/'] <:+: listsNames.between.toList := by decide +kernel
  exact ⟨hread.1, hread.2 hclosed _⟩

end ClassChart.Java.Javadoc
