import ClassChart.Proofs.LineEnd

/-!
Writing outside of all blocks.  There nothing is indented, so a writer is known by
its text, and the steps of writing are operations on texts.
-/
namespace ClassChart.Writer

/-- The writer that has written a text outside of all blocks. -/
def page (s : String) : Writer :=
  { text := s, atLineStart := lastOf s == '\n', lastChar := lastOf s }

/-- The text with a space after it, unless it is empty or ends in a blank. -/
def spaced (s : String) : String :=
  if Text.isBlank (lastOf s) then s else s ++ " "

theorem page_empty : page "" = {} := by
  simp [page, lastOf]

theorem newline_page (s : String) : (page s).newline = page (s ++ "\n") := by
  have hend : lastOf (s ++ "\n") = '\n' := lastOf_append (by decide)
  rw [newline, page, page, hend]
  rfl

theorem push_page (s : String) (c : Char) : (page s).push c = page (s ++ String.singleton c) := by
  by_cases hc : c = '\n'
  · rw [hc, push_newline, newline_page]
    rfl
  · have hlast : lastOf (s ++ String.singleton c) = c := by simp [lastOf]
    rw [push_eq_of_ne hc, page, page, hlast]
    simp [copies, hc]

theorem append_page (s t : String) : (page s).append t = page (s ++ t) := by
  have hchars (cs : List Char) (s : String) :
      cs.foldl push (page s) = page (s ++ String.ofList cs) := by
    induction cs generalizing s with
    | nil => rw [String.ofList_nil, String.append_empty, List.foldl_nil]
    | cons c rest ih =>
        rw [List.foldl_cons, push_page, ih, String.ofList_cons, String.append_assoc]
  rw [append_eq_foldl_push, hchars, String.ofList_toList]

theorem whitespace_page (s : String) : (page s).whitespace = page (spaced s) := by
  have hstart : (lastOf s == '\n' || Text.isBlank (lastOf s)) = Text.isBlank (lastOf s) := by
    by_cases heq : lastOf s = '\n'
    · rw [heq]
      decide
    · simp [heq]
  rw [whitespace, append_page, spaced]
  simp only [page, hstart]
  split <;> rfl

theorem spaced_append (s : String) {t : String} (ht : t ≠ "") :
    spaced (s ++ t) = s ++ spaced t := by
  rw [spaced, spaced, lastOf_append ht]
  split
  · rfl
  · rw [String.append_assoc]

theorem spaced_eq {s : String} (hlast : Text.isBlank (lastOf s) = false) :
    spaced s = s ++ " " := by
  rw [spaced, hlast]
  rfl

theorem lacks_spaced {c : Char} (hc : c ≠ ' ') {s : String} :
    Text.Lacks c (spaced s) ↔ Text.Lacks c s := by
  have hspace : Text.Lacks c " " := by simpa [Text.Lacks] using hc
  rw [spaced]
  split
  · rfl
  · rw [Text.lacks_append, and_iff_left hspace]

end ClassChart.Writer
