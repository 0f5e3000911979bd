import ClassChart.Proofs.Blanks

/-!
Texts of several rows.  The rows are the lines of the text if none has a line end in it, and
empty rows at its ends are lost when the text is trimmed.
-/
namespace ClassChart.Text

theorem lines_intercalate {rows : List String} (hne : rows ≠ [])
    (hrows : ∀ row ∈ rows, Lacks '\n' row) : lines ("\n".intercalate rows) = rows := by
  induction rows with
  | nil => contradiction
  | cons row rest ih =>
      rw [List.forall_mem_cons] at hrows
      have hrow : lines row = [row] := split_of_lacks '\n' hrows.1
      cases rest with
      | nil => rw [String.intercalate_singleton, hrow]
      | cons next more =>
          rw [String.intercalate_cons_cons, lines_append, hrow, ih (List.cons_ne_nil _ _) hrows.2]
          rfl

/-- What stands before a text on its first line becomes part of that line. -/
theorem lines_append_of_lacks {s : String} (hs : Lacks '\n' s) {t first : String}
    {rest : List String} (ht : lines t = first :: rest) :
    lines (s ++ t) = (s ++ first) :: rest := by
  have hrows : ∀ row ∈ first :: rest, Lacks '\n' row :=
    fun row hrow => (lacks_of_mem_split '\n' (ht ▸ hrow : row ∈ lines t)).1
  have ht' : "\n".intercalate (first :: rest) = t := ht ▸ intercalate_split '\n' t
  have hjoined : s ++ t = "\n".intercalate ((s ++ first) :: rest) := by
    rw [← ht']
    cases rest with
    | nil => rw [String.intercalate_singleton, String.intercalate_singleton]
    | cons next more =>
        simp only [String.intercalate_cons_cons, String.append_assoc]
  rw [List.forall_mem_cons] at hrows
  rw [hjoined, lines_intercalate (List.cons_ne_nil _ _)]
  exact List.forall_mem_cons.mpr ⟨lacks_append.mpr ⟨hs, hrows.1⟩, hrows.2⟩

/-- Rows of which the first begins and the last ends without a blank. -/
structure Firm (rows : List String) : Prop where
  first : ∃ row rest c, rows = row :: rest ∧ row.toList.head? = some c ∧ isBlank c = false
  last : ∃ front row c, rows = front ++ [row] ∧ row.toList.getLast? = some c ∧ isBlank c = false

namespace Firm

variable {rows : List String} (hrows : Firm rows)

include hrows

theorem ne_nil : rows ≠ [] := by
  obtain ⟨row, rest, c, rfl, -⟩ := hrows.first
  exact List.cons_ne_nil _ _

theorem head?_intercalate :
    ∃ c, ("\n".intercalate rows).toList.head? = some c ∧ isBlank c = false := by
  obtain ⟨row, rest, c, rfl, hc, hblank⟩ := hrows.first
  refine ⟨c, ?_, hblank⟩
  cases rest with
  | nil => rwa [String.intercalate_singleton]
  | cons next more => simp [String.intercalate_cons_cons, List.head?_append, hc]

theorem getLast?_intercalate :
    ∃ c, ("\n".intercalate rows).toList.getLast? = some c ∧ isBlank c = false := by
  obtain ⟨front, row, c, rfl, hc, hblank⟩ := hrows.last
  refine ⟨c, ?_, hblank⟩
  by_cases hfront : front = []
  · rwa [hfront, List.nil_append, String.intercalate_singleton]
  · rw [String.intercalate_append_of_ne_nil hfront (List.cons_ne_nil _ _),
      String.intercalate_singleton, String.toList_append, List.getLast?_append, hc]
    rfl

theorem intercalate_ne_empty : "\n".intercalate rows ≠ "" := by
  obtain ⟨c, hc, -⟩ := hrows.head?_intercalate
  intro hempty
  rw [hempty] at hc
  contradiction

theorem bare : Bare ("\n".intercalate rows) where
  first d hd := by
    obtain ⟨c, hc, hblank⟩ := hrows.head?_intercalate
    rw [hc] at hd
    exact Option.some.inj hd ▸ hblank
  last d hd := by
    obtain ⟨c, hc, hblank⟩ := hrows.getLast?_intercalate
    rw [hc] at hd
    exact Option.some.inj hd ▸ hblank

theorem append (between : List String) {later : List String} (hlater : Firm later) :
    Firm (rows ++ between ++ later) where
  first := by
    obtain ⟨row, rest, c, rfl, hc⟩ := hrows.first
    exact ⟨row, rest ++ between ++ later, c, by simp, hc⟩
  last := by
    obtain ⟨front, row, c, rfl, hc⟩ := hlater.last
    exact ⟨rows ++ between ++ front, row, c, by simp, hc⟩

end Firm

/-- Empty rows are nothing but line ends. -/
theorem exists_blanks_of_empty {rows : List String} (hrows : ∀ row ∈ rows, row = "") :
    ∃ gap : Blanks, gap.text = "\n".intercalate rows := by
  refine ⟨⟨"\n".intercalate rows, fun c hc => ?_⟩, rfl⟩
  cases hblank : isBlank c with
  | true => rfl
  | false =>
      have hnewline : Lacks c "\n" := by simpa [Lacks] using ne_of_isBlank hblank (by decide)
      refine absurd hc ((lacks_intercalate hnewline).mpr fun row hrow => ?_)
      rw [hrows row hrow]
      simp [Lacks]

/-- Of rows with empty ones around them, the rows are left when the text is trimmed. -/
theorem Firm.trim_intercalate {rows : List String} (hrows : Firm rows) {before after : List String}
    (hbefore : ∀ row ∈ before, row = "") (hafter : ∀ row ∈ after, row = "") :
    trim ("\n".intercalate (before ++ rows ++ after)) = "\n".intercalate rows := by
  have hlead : "\n".intercalate (before ++ rows) =
      "\n".intercalate (before ++ [""]) ++ "\n".intercalate rows := by
    by_cases hnil : before = []
    · simp [hnil]
    · rw [String.intercalate_append_of_ne_nil hnil hrows.ne_nil,
        String.intercalate_append_of_ne_nil hnil (List.cons_ne_nil _ _)]
      simp
  have htrail : "\n".intercalate (before ++ rows ++ after) =
      "\n".intercalate (before ++ rows) ++ "\n".intercalate ("" :: after) := by
    by_cases hnil : after = []
    · simp [hnil]
    · obtain ⟨row, rest, rfl⟩ := List.exists_cons_of_ne_nil hnil
      rw [String.intercalate_append_of_ne_nil (by simp [hrows.ne_nil]) hnil,
        String.intercalate_cons_cons]
      simp [String.append_assoc]
  have hfirst : ∀ row ∈ before ++ [""], row = "" :=
    List.forall_mem_append.mpr ⟨hbefore, by simp⟩
  have hlast : ∀ row ∈ "" :: after, row = "" := List.forall_mem_cons.mpr ⟨rfl, hafter⟩
  obtain ⟨lead, htext⟩ := exists_blanks_of_empty hfirst
  obtain ⟨trail, htext'⟩ := exists_blanks_of_empty hlast
  rw [htrail, hlead, ← htext, ← htext', hrows.bare.trim_append hrows.intercalate_ne_empty]

end ClassChart.Text
