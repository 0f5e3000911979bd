import ClassChart.Proofs.Blanks
import ClassChart.Source.NameTable

/-!
Erasing a written type word by word.  The words with the mark of an annotation go, and what is
left is read up to the first type arguments.
-/
namespace ClassChart.NameTable

open Text (Blanks isBlank)

/-- Where one is in a written type: between words, in a word that stays, or in one that
begins with the mark of an annotation and goes. -/
inductive Reading where
  | between
  | keeping
  | dropping
deriving Repr, DecidableEq, Inhabited

namespace Reading

/-- A blank ends the word, and the first character of a word decides on it. -/
def step (reading : Reading) (c : Char) : Reading :=
  if isBlank c then .between
  else if reading = .between then if c = '@' then .dropping else .keeping
  else reading

/-- Where one is after some characters. -/
def after (reading : Reading) (cs : List Char) : Reading :=
  cs.foldl step reading

/-- The characters that stay. -/
def kept : Reading → List Char → List Char
  | _, [] => []
  | reading, c :: rest =>
      if reading.step c = .keeping then c :: kept (reading.step c) rest
      else kept (reading.step c) rest

theorem after_append (reading : Reading) (cs ds : List Char) :
    reading.after (cs ++ ds) = (reading.after cs).after ds :=
  List.foldl_append

theorem kept_append (reading : Reading) (cs ds : List Char) :
    reading.kept (cs ++ ds) = reading.kept cs ++ (reading.after cs).kept ds := by
  induction cs generalizing reading with
  | nil => rfl
  | cons c rest ih =>
      simp only [List.cons_append, kept, ih, after, List.foldl_cons]
      split <;> rfl

theorem step_of_isBlank {c : Char} (hc : isBlank c = true) (reading : Reading) :
    reading.step c = .between :=
  if_pos hc

theorem isBlank_of_mem_kept {reading : Reading} {cs : List Char} {c : Char}
    (hc : c ∈ reading.kept cs) : isBlank c = false := by
  induction cs generalizing reading with
  | nil => contradiction
  | cons d rest ih =>
      rw [kept] at hc
      split at hc
      · rename_i hkeeping
        rcases List.mem_cons.mp hc with rfl | hc
        · cases hblank : isBlank c with
          | true =>
              rw [step_of_isBlank hblank] at hkeeping
              contradiction
          | false => rfl
        · exact ih hc
      · exact ih hc

/-- The words that do not begin with the mark of an annotation. -/
def words (cs : List Char) : List (List Char) :=
  (Text.wordsOf cs).filter (!List.isPrefixOf ['@'] ·)

/-- What stays of a text is the rest of a word that has begun to stay, and the later words
without the mark of an annotation. -/
theorem kept_eq (reading : Reading) (cs : List Char) :
    reading.kept cs =
      (if reading = .keeping then cs.takeWhile (!isBlank ·) else []) ++
        (words (if reading = .between then cs else cs.dropWhile (!isBlank ·))).flatten := by
  induction cs generalizing reading with
  | nil => cases reading <;> rfl
  | cons c rest ih =>
      cases hc : isBlank c with
      | true =>
          have hstep := step_of_isBlank hc reading
          cases reading <;> simp [kept, hstep, hc, ih, words, Text.wordsOf_cons_of_isBlank]
      | false =>
          cases reading with
          | between =>
              by_cases hat : c = '@'
              · subst hat
                simp [kept, step, hc, ih, words, Text.wordsOf_cons]
              · simp [kept, step, hc, hat, ih, words, Text.wordsOf_cons, List.isPrefixOf_cons_cons,
                  Ne.symm hat]
          | keeping => simp [kept, step, hc, ih]
          | dropping => simp [kept, step, hc, ih]

/-- Blanks are not kept, and after them a new word begins. -/
theorem kept_blanks (reading : Reading) (gap : Blanks) :
    reading.kept gap.text.toList = [] ∧
      reading.after gap.text.toList = if gap.text = "" then reading else .between := by
  have hgap (cs : List Char) (hcs : ∀ c ∈ cs, isBlank c = true) (reading : Reading) :
      reading.kept cs = [] ∧ reading.after cs = if cs = [] then reading else .between := by
    induction cs generalizing reading with
    | nil => exact ⟨rfl, rfl⟩
    | cons c rest ih =>
        rw [List.forall_mem_cons] at hcs
        obtain ⟨hkept, hafter⟩ := ih hcs.2 .between
        have hstep := step_of_isBlank hcs.1 reading
        refine ⟨by simp [kept, hstep, hkept], ?_⟩
        rw [after, List.foldl_cons, hstep, ← after, hafter]
        simp
  simpa using hgap gap.text.toList gap.isBlank reading

/-- A word without marks stays as a whole, unless it continues one that goes. -/
theorem kept_of_word (reading : Reading) {cs : List Char} (hnil : cs ≠ [])
    (hcs : ∀ c ∈ cs, isBlank c = false ∧ c ≠ '@') :
    (reading ≠ .dropping → reading.kept cs = cs ∧ reading.after cs = .keeping) ∧
      (reading = .dropping → reading.kept cs = [] ∧ reading.after cs = .dropping) := by
  induction cs generalizing reading with
  | nil => contradiction
  | cons c rest ih =>
      rw [List.forall_mem_cons] at hcs
      obtain ⟨⟨hblank, hat⟩, hrest⟩ := hcs
      have hstep : reading.step c = if reading = .dropping then .dropping else .keeping := by
        cases reading <;> simp [step, hblank, hat]
      by_cases hmore : rest = []
      · subst hmore
        cases reading <;> simp [kept, after, hstep]
      · constructor
        · intro hreading
          rw [if_neg hreading] at hstep
          obtain ⟨hkept, hafter⟩ := (ih .keeping hmore hrest).1 (by decide)
          exact ⟨by simp [kept, hstep, hkept], by rw [after, List.foldl_cons, hstep]; exact hafter⟩
        · intro hreading
          rw [if_pos hreading] at hstep
          obtain ⟨hkept, hafter⟩ := (ih .dropping hmore hrest).2 rfl
          exact ⟨by simp [kept, hstep, hkept], by rw [after, List.foldl_cons, hstep]; exact hafter⟩

/-- A text that begins between words goes as a whole if all of its words have the mark of an
annotation. -/
theorem kept_between_eq_nil_iff {cs : List Char} :
    kept .between cs = [] ↔ ∀ w ∈ Text.wordsOf cs, ['@'].isPrefixOf w = true := by
  rw [kept_eq, if_neg (by decide), if_pos rfl, List.nil_append, List.flatten_eq_nil_iff]
  simp only [words, List.mem_filter]
  constructor
  · intro hwords w hw
    cases hmark : ['@'].isPrefixOf w with
    | true => rfl
    | false =>
        have hnil : w = [] := hwords w ⟨hw, by rw [hmark]; rfl⟩
        exact absurd (hnil ▸ hw) (Text.nil_not_mem_wordsOf _)
  · rintro hwords w ⟨hw, hmark⟩
    rw [hwords w hw] at hmark
    contradiction

/-- The state after a text of which nothing stays is known from its last character. -/
theorem after_concat_of_kept_eq_nil {reading : Reading} {cs : List Char} {c : Char}
    (hkept : reading.kept (cs ++ [c]) = []) :
    reading.after (cs ++ [c]) = if isBlank c then .between else .dropping := by
  rw [kept_append, List.append_eq_nil_iff, kept, kept] at hkept
  rw [after_append, after, List.foldl_cons, List.foldl_nil]
  split
  · rename_i hblank
    exact step_of_isBlank hblank _
  · rename_i hblank
    have hkeeping : (reading.after cs).step c ≠ .keeping := by
      intro hkeeping
      simp [hkeeping] at hkept
    cases hstate : reading.after cs <;> rw [hstate] at hkeeping <;>
      simp_all [step]

end Reading

/-- What is read before the first type arguments. -/
def cut (cs : List Char) : List Char :=
  cs.takeWhile (· != '<')

theorem cut_append {cs : List Char} (hcs : '<' ∉ cs) (ds : List Char) :
    cut (cs ++ ds) = cs ++ cut ds := by
  refine List.takeWhile_append_of_pos fun c hc => ?_
  rw [bne_iff_ne]
  rintro rfl
  exact hcs hc

theorem cut_dot (cs : List Char) : cut ('.' :: cs) = '.' :: cut cs :=
  rfl

theorem cut_append_of_mem {cs : List Char} (hcs : '<' ∈ cs) (ds : List Char) :
    cut (cs ++ ds) = cut cs := by
  induction cs with
  | nil => contradiction
  | cons c rest ih =>
      by_cases hc : c = '<'
      · simp [cut, hc]
      · have hrest : '<' ∈ rest := (List.mem_cons.mp hcs).resolve_left (Ne.symm hc)
        simpa [cut, hc] using ih hrest

theorem erase_eq (written : String) :
    erase written = String.ofList (cut (Reading.kept .between written.toList)) := by
  have hwords : ((Text.words written).filter (!Text.beginsWith "@" ·)) =
      (Reading.words written.toList).map String.ofList := by
    rw [Text.words, List.filter_map, Reading.words]
    congr 2
    funext w
    simp [Text.beginsWith]
  have hjoin : (String.join ((Text.words written).filter (!Text.beginsWith "@" ·))).toList =
      Reading.kept .between written.toList := by
    rw [hwords, String.toList_join, List.flatMap_map, Reading.kept_eq]
    simp [List.flatMap]
  rw [erase, Text.trim_of_isBlank_eq_false, Text.upTo, hjoin, cut]
  intro c hc
  rw [Text.upTo, hjoin, String.toList_ofList] at hc
  exact Reading.isBlank_of_mem_kept (List.takeWhile_subset _ hc)

end ClassChart.NameTable
