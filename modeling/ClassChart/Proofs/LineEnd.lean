import ClassChart.Proofs.Writer

/-!
What a writer remembers of the end of its text.  A text is written character by character,
wherever it is cut into pieces, so pieces leave no seams; and after any steps the writer knows
the last character and whether a line is about to begin.
-/
namespace ClassChart.Writer

/-- The last character of a text.  Before the first line there is a line end. -/
def lastOf (s : String) : Char :=
  s.toList.getLast?.getD '\n'

theorem getLast?_eq_lastOf {s : String} (hs : s ≠ "") : s.toList.getLast? = some (lastOf s) := by
  cases hlast : s.toList.getLast? with
  | none => exact absurd (by simpa using hlast) hs
  | some c => rw [lastOf, hlast, Option.getD_some]

theorem lastOf_append {s t : String} (ht : t ≠ "") : lastOf (s ++ t) = lastOf t := by
  rw [lastOf, String.toList_append, List.getLast?_append, getLast?_eq_lastOf ht]
  rfl

theorem lastOf_mem {s : String} (hs : s ≠ "") : lastOf s ∈ s.toList :=
  List.mem_of_getLast? (getLast?_eq_lastOf hs)

/-- Write one character. -/
def push (w : Writer) (c : Char) : Writer :=
  if c = '\n' then w.newline else w.put (String.singleton c)

theorem push_newline (w : Writer) : w.push '\n' = w.newline := rfl

theorem push_of_ne {c : Char} (hc : c ≠ '\n') (w : Writer) :
    w.push c = w.put (String.singleton c) :=
  if_neg hc

theorem put_of_ne_empty (w : Writer) {piece : String} (hpiece : piece ≠ "") :
    w.put piece =
      { w with
        text := w.text ++ (if w.atLineStart then copies w.level w.indent else "") ++ piece
        atLineStart := false
        lastChar := lastOf piece } := by
  rw [put, getLast?_eq_lastOf hpiece]

theorem push_eq_of_ne {c : Char} (hc : c ≠ '\n') (w : Writer) :
    w.push c =
      { w with
        text := w.text ++ (if w.atLineStart then copies w.level w.indent else "") ++
          String.singleton c
        atLineStart := false
        lastChar := c } := by
  have hlast : lastOf (String.singleton c) = c := by simp [lastOf]
  rw [push_of_ne hc, put_of_ne_empty w (by simp), hlast]

theorem put_empty (w : Writer) : w.put "" = w := rfl

/-- Only the first piece of a line is indented. -/
theorem put_append (w : Writer) (a b : String) : w.put (a ++ b) = (w.put a).put b := by
  by_cases ha : a = ""
  · rw [ha, String.empty_append, put_empty]
  · by_cases hb : b = ""
    · rw [hb, String.append_empty, put_empty]
    · have hab : a ++ b ≠ "" := by simp [ha]
      rw [put_of_ne_empty _ hab, put_of_ne_empty _ ha, put_of_ne_empty _ hb, lastOf_append hb]
      simp [String.append_assoc]

theorem put_ofList {cs : List Char} (hcs : '\n' ∉ cs) (w : Writer) :
    w.put (String.ofList cs) = cs.foldl push w := by
  induction cs generalizing w with
  | nil => exact put_empty w
  | cons c rest ih =>
      rw [List.mem_cons, not_or] at hcs
      rw [String.ofList_cons, put_append, ← push_of_ne (Ne.symm hcs.1), ih hcs.2,
        List.foldl_cons]

theorem put_eq_foldl_push {piece : String} (hpiece : Text.Lacks '\n' piece) (w : Writer) :
    w.put piece = piece.toList.foldl push w := by
  rw [← put_ofList hpiece, String.ofList_toList]

/-- Writing line by line is the same as writing character by character. -/
theorem foldl_newline_put {first : String} {rest : List String}
    (hlines : ∀ line ∈ first :: rest, Text.Lacks '\n' line) (w : Writer) :
    rest.foldl (fun w line => w.newline.put line) (w.put first) =
      ("\n".intercalate (first :: rest)).toList.foldl push w := by
  rw [List.forall_mem_cons] at hlines
  induction rest generalizing w first with
  | nil => rw [List.foldl_nil, String.intercalate_singleton, put_eq_foldl_push hlines.1]
  | cons line more ih =>
      -- The line end between the first two lines is a character like all others.
      rw [List.foldl_cons, ih (List.forall_mem_cons.mp hlines.2), String.intercalate_cons_cons,
        String.toList_append, String.toList_append, List.foldl_append, List.foldl_append,
        ← put_eq_foldl_push hlines.1]
      rfl

/-- A text is written character by character. -/
theorem append_eq_foldl_push (w : Writer) (s : String) : w.append s = s.toList.foldl push w := by
  have hjoined : "\n".intercalate (Text.lines s) = s := Text.intercalate_split '\n' s
  have hlines : ∀ line ∈ Text.lines s, Text.Lacks '\n' line :=
    fun line hline => (Text.lacks_of_mem_split '\n' hline).1
  rw [append]
  split
  · rename_i hnil
    rw [hnil, String.intercalate_nil] at hjoined
    rw [← hjoined]
    rfl
  · rename_i first rest hcons
    rw [hcons] at hlines hjoined
    rw [foldl_newline_put hlines, hjoined]

theorem append_append (w : Writer) (a b : String) :
    w.append (a ++ b) = (w.append a).append b := by
  simp only [append_eq_foldl_push, String.toList_append, List.foldl_append]

theorem append_lineEnd (w : Writer) : w.append "\n" = w.newline := by
  rw [append_eq_foldl_push]
  rfl

theorem whitespace_eq (w : Writer) :
    w.whitespace = if w.atLineStart || Text.isBlank w.lastChar then w else w.push ' ' := by
  rw [whitespace, append_eq_foldl_push]
  rfl

/-- A space is a blank, so the next one is not written. -/
theorem whitespace_whitespace (w : Writer) : w.whitespace.whitespace = w.whitespace := by
  by_cases hend : (w.atLineStart || Text.isBlank w.lastChar) = true
  · have hsame : w.whitespace = w := if_pos hend
    rw [hsame, hsame]
  · have hlast : (w.push ' ').lastChar = ' ' := rfl
    have hblank : Text.isBlank ' ' = true := by decide
    rw [w.whitespace_eq, if_neg hend, whitespace_eq, hlast, hblank, Bool.or_true, if_pos rfl]

/-- What a writer remembers of the end of its text is true of it. -/
structure KnowsEnd (w : Writer) : Prop where
  atLineStart : w.atLineStart = true ↔ Text.Ended w.text
  lastChar : w.lastChar = lastOf w.text

theorem ended_iff_lastOf {s : String} : Text.Ended s ↔ lastOf s = '\n' := by
  constructor
  · rintro (rfl | ⟨t, rfl⟩)
    · rfl
    · exact lastOf_append (by decide)
  · intro hlast
    by_cases hs : s = ""
    · exact .inl hs
    · obtain ⟨front, hfront⟩ := List.getLast?_eq_some_iff.mp (hlast ▸ getLast?_eq_lastOf hs)
      refine .inr ⟨String.ofList front, String.toList_inj.mp ?_⟩
      simpa using hfront

namespace KnowsEnd

theorem blank (indent : String) : KnowsEnd { indent } :=
  ⟨iff_of_true rfl (.inl rfl), rfl⟩

theorem newline (w : Writer) : w.newline.KnowsEnd where
  atLineStart := iff_of_true rfl (.inr ⟨w.text, rfl⟩)
  lastChar := (lastOf_append (s := w.text) (t := "\n") (by decide)).symm

/-- Neither the indentation nor what stood before is at the end. -/
theorem push (w : Writer) (c : Char) : (w.push c).KnowsEnd := by
  by_cases hc : c = '\n'
  · rw [hc, push_newline]
    exact newline w
  · have hlast (s : String) : lastOf (s ++ String.singleton c) = c := by simp [lastOf]
    rw [push_eq_of_ne hc]
    refine ⟨?_, (hlast _).symm⟩
    rw [ended_iff_lastOf, hlast]
    exact iff_of_false Bool.false_ne_true hc

variable {w : Writer} (h : w.KnowsEnd)

include h

theorem append (s : String) : (w.append s).KnowsEnd := by
  rw [append_eq_foldl_push]
  induction s.toList generalizing w with
  | nil => exact h
  | cons c rest ih => exact ih (push w c)

theorem whitespace : w.whitespace.KnowsEnd := by
  rw [whitespace_eq]
  split
  · exact h
  · exact push w ' '

theorem deeper : w.deeper.KnowsEnd := ⟨h.atLineStart, h.lastChar⟩

theorem shallower : w.shallower.KnowsEnd := ⟨h.atLineStart, h.lastChar⟩

end KnowsEnd

/-- The states of a writer that begins with nothing, inside and outside of blocks. -/
inductive Reachable (indent : String) : Writer → Prop
  | blank : Reachable indent { indent }
  | append {w : Writer} (hw : Reachable indent w) (s : String) : Reachable indent (w.append s)
  | whitespace {w : Writer} (hw : Reachable indent w) : Reachable indent w.whitespace
  | newline {w : Writer} (hw : Reachable indent w) : Reachable indent w.newline
  | enter {w : Writer} (hw : Reachable indent w) : Reachable indent w.deeper
  | leave {w : Writer} (hw : Reachable indent w) (hlevel : 0 < w.level) :
      Reachable indent w.shallower

theorem Reachable.knowsEnd {indent : String} {w : Writer} (hw : Reachable indent w) :
    w.KnowsEnd := by
  induction hw with
  | blank => exact .blank indent
  | append _ s ih => exact ih.append s
  | whitespace _ ih => exact ih.whitespace
  | newline _ _ => exact .newline _
  | enter _ ih => exact ih.deeper
  | leave _ _ ih => exact ih.shallower

/-- In every state a writer knows how its text ends, and texts are written without seams: in
one piece or in two, with their line ends or with line ends between them, and with no more than
one space where a space is asked for. -/
theorem Reachable.seamless {indent : String} {w : Writer} (hw : Reachable indent w) :
    (w.atLineStart = true ↔ w.text = "" ∨ ∃ before, w.text = before ++ "\n") ∧
      w.lastChar = w.text.toList.getLast?.getD '\n' ∧
      (∀ a b, w.append (a ++ b) = (w.append a).append b) ∧
      w.append "\n" = w.newline ∧
      w.whitespace.whitespace = w.whitespace :=
  ⟨hw.knowsEnd.atLineStart, hw.knowsEnd.lastChar, w.append_append, w.append_lineEnd,
    w.whitespace_whitespace⟩

/-- In a block, with an indentation that has a line end itself. -/
theorem seamless_in_block :
    let w := (({ indent := "\n\t" } : Writer).append "a\n").deeper.append "b"
    Reachable "\n\t" w ∧ w.text = "a\n\n\tb" ∧ ¬(w.text = "" ∨ ∃ before, w.text = before ++ "\n") ∧
      w.append ("c\n" ++ "d") = (w.append "c\n").append "d" := by
  intro w
  have hw : Reachable "\n\t" w := ((Reachable.blank.append "a\n").enter).append "b"
  obtain ⟨hstart, -, happend, -⟩ := hw.seamless
  have hline : w.atLineStart = false := by decide +kernel
  refine ⟨hw, by decide +kernel, ?_, happend "c\n" "d"⟩
  rw [← hstart, hline]
  exact Bool.false_ne_true

end ClassChart.Writer
