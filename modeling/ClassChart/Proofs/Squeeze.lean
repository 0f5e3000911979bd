import ClassChart.Proofs.Blanks

/-!
Squeezed texts.  The words of a text stand with single spaces between them, so a text is
squeezed part by part and keeps all characters that are not blank.
-/
namespace ClassChart.Text

/-- The words of some characters with one space between neighbours. -/
def squeezeChars (cs : List Char) : List Char :=
  [' '].intercalate (wordsOf cs)

theorem toList_squeeze (s : String) : (squeeze s).toList = squeezeChars s.toList := by
  have hid : String.toList ∘ String.ofList = id := funext fun _ => String.toList_ofList
  rw [squeeze, String.toList_intercalate, words, List.map_map, hid, List.map_id, squeezeChars]
  rfl

theorem squeezeChars_cons_of_isBlank {c : Char} (hc : isBlank c = true) (rest : List Char) :
    squeezeChars (c :: rest) = squeezeChars rest := by
  rw [squeezeChars, wordsOf_cons_of_isBlank hc, squeezeChars]

/-- Whether a space is written before what follows a word. -/
def needsSpace (rest : List Char) : Bool :=
  rest.head?.any isBlank && !(wordsOf rest).isEmpty

/-- A character that is not blank stays, with one space if blanks and then more text follow. -/
theorem squeezeChars_cons {c : Char} (hc : isBlank c = false) (rest : List Char) :
    squeezeChars (c :: rest) =
      c :: ((if needsSpace rest then [' '] else []) ++ squeezeChars rest) := by
  cases rest with
  | nil => simp [squeezeChars, wordsOf, hc, needsSpace]
  | cons next more =>
      by_cases hnext : isBlank next = true
      · have hwords : wordsOf (c :: next :: more) = [c] :: wordsOf (next :: more) := by
          simpa [hnext] using wordsOf_cons hc (next :: more)
        rw [squeezeChars, hwords, squeezeChars]
        cases hmore : wordsOf (next :: more) with
        | nil => simp [needsSpace, hmore]
        | cons word others => simp [needsSpace, hmore, hnext, List.intercalate, List.intersperse]
      · have hnext : isBlank next = false := by simpa using hnext
        have hwords := wordsOf_cons hc (next :: more)
        rw [squeezeChars, hwords, squeezeChars, wordsOf_cons hnext]
        cases hmore : wordsOf (more.dropWhile (!isBlank ·)) with
        | nil => simp [needsSpace, hnext, hmore]
        | cons word others => simp [needsSpace, hnext, hmore, List.intercalate, List.intersperse]

theorem wordsOf_eq_nil_iff {cs : List Char} : wordsOf cs = [] ↔ ∀ c ∈ cs, isBlank c = true := by
  constructor
  · intro hwords
    have hnone := flatten_wordsOf cs
    rw [hwords, List.flatten_nil] at hnone
    simpa using List.filter_eq_nil_iff.mp hnone.symm
  · intro hblank
    simpa [wordsOf] using wordsOf_append_of_isBlank hblank []

theorem needsSpace_append {cs : List Char} (hcs : wordsOf cs ≠ []) (ds : List Char) :
    needsSpace (cs ++ ds) = needsSpace cs := by
  obtain ⟨c, rest, rfl⟩ : ∃ c rest, cs = c :: rest := by
    apply List.exists_cons_of_ne_nil
    rintro rfl
    exact hcs rfl
  have hboth : wordsOf (c :: rest ++ ds) ≠ [] := by
    intro hwords
    apply hcs
    rw [wordsOf_eq_nil_iff] at hwords ⊢
    exact fun d hd => hwords d (List.mem_append_left ds hd)
  rw [needsSpace, needsSpace, List.isEmpty_eq_false_iff.mpr hboth,
    List.isEmpty_eq_false_iff.mpr hcs]
  rfl

/-- Squeezed texts are put together with at most one space between. -/
theorem squeezeChars_append (cs ds : List Char) :
    ∃ gap, (gap = [] ∨ gap = [' ']) ∧
      squeezeChars (cs ++ ds) = squeezeChars cs ++ gap ++ squeezeChars ds := by
  induction cs with
  | nil => exact ⟨[], .inl rfl, rfl⟩
  | cons c rest ih =>
      obtain ⟨gap, hgap, hrest⟩ := ih
      rw [List.cons_append]
      by_cases hc : isBlank c = true
      · refine ⟨gap, hgap, ?_⟩
        rw [squeezeChars_cons_of_isBlank hc, squeezeChars_cons_of_isBlank hc, hrest]
      · have hc : isBlank c = false := by simpa using hc
        rw [squeezeChars_cons hc, squeezeChars_cons hc]
        by_cases hwords : wordsOf rest = []
        · -- The first text ends with this word.
          have hblank := wordsOf_eq_nil_iff.mp hwords
          have hnone : squeezeChars rest = [] := by rw [squeezeChars, hwords]; rfl
          have hsame : squeezeChars (rest ++ ds) = squeezeChars ds := by
            rw [squeezeChars, wordsOf_append_of_isBlank hblank, squeezeChars]
          refine ⟨if needsSpace (rest ++ ds) then [' '] else [], by split <;> simp, ?_⟩
          simp [hnone, hsame, needsSpace, hwords]
        · refine ⟨gap, hgap, ?_⟩
          rw [needsSpace_append hwords, hrest]
          simp

/-- No space is put between texts that meet without a blank. -/
theorem squeezeChars_append_of_solid {cs ds : List Char}
    (hcs : ∀ c ∈ cs.getLast?, isBlank c = false) (hds : ∀ d ∈ ds.head?, isBlank d = false) :
    squeezeChars (cs ++ ds) = squeezeChars cs ++ squeezeChars ds := by
  induction cs with
  | nil => rfl
  | cons c rest ih =>
      cases rest with
      | nil =>
          have hc : isBlank c = false := hcs c rfl
          have hspace : needsSpace ds = false := by
            rw [needsSpace]
            cases ds with
            | nil => rfl
            | cons d more => simp [hds d rfl]
          rw [List.singleton_append, squeezeChars_cons hc, hspace, squeezeChars_cons hc]
          rfl
      | cons next more =>
          have hlast : ∀ e ∈ (next :: more).getLast?, isBlank e = false := by
            rwa [List.getLast?_cons_cons] at hcs
          have hsame := ih hlast
          rw [List.cons_append]
          by_cases hc : isBlank c = true
          · rw [squeezeChars_cons_of_isBlank hc, hsame, squeezeChars_cons_of_isBlank hc]
          · have hc : isBlank c = false := by simpa using hc
            have hwords : wordsOf (next :: more) ≠ [] := by
              intro hnone
              have hmem := List.getLast?_eq_some_getLast (List.cons_ne_nil next more)
              have hblank := wordsOf_eq_nil_iff.mp hnone _ (List.mem_of_getLast? hmem)
              rw [hlast _ hmem] at hblank
              contradiction
            rw [squeezeChars_cons hc, needsSpace_append hwords, hsame, squeezeChars_cons hc,
              List.cons_append, List.append_assoc]

/-- A text is squeezed part by part, but for a space between the parts. -/
theorem squeeze_append (s t : String) :
    ∃ gap, (gap = "" ∨ gap = " ") ∧ squeeze (s ++ t) = squeeze s ++ gap ++ squeeze t := by
  obtain ⟨gap, hgap, hchars⟩ := squeezeChars_append s.toList t.toList
  refine ⟨String.ofList gap, ?_, ?_⟩
  · rcases hgap with rfl | rfl
    · exact .inl rfl
    · exact .inr rfl
  · apply String.toList_inj.mp
    simp only [String.toList_append, toList_squeeze, hchars, String.toList_ofList]

theorem squeeze_append_blanks (s : String) (gap : Blanks) :
    squeeze (s ++ gap.text) = squeeze s := by
  rw [squeeze, words_append_blanks, squeeze]

theorem squeezeChars_eq_self {cs : List Char} (hs : ∀ c ∈ cs, isBlank c = false) :
    squeezeChars cs = cs := by
  induction cs with
  | nil => rfl
  | cons c rest ih =>
      rw [List.forall_mem_cons] at hs
      have hspace : needsSpace rest = false := by
        cases rest with
        | nil => rfl
        | cons next more => simp [needsSpace, hs.2 next List.mem_cons_self]
      rw [squeezeChars_cons hs.1, ih hs.2, hspace]
      rfl

theorem squeeze_eq_self {s : String} (hs : ∀ c ∈ s.toList, isBlank c = false) :
    squeeze s = s := by
  apply String.toList_inj.mp
  rw [toList_squeeze, squeezeChars_eq_self hs]

theorem squeeze_trim_append (s : String) {t : String} (ht : ∀ c ∈ t.toList, isBlank c = false) :
    squeeze (trim s ++ t) = squeeze s ++ t := by
  have hsame : squeeze (trim s) = squeeze s := by rw [squeeze, words_trim, squeeze]
  apply String.toList_inj.mp
  rw [toList_squeeze, String.toList_append, squeezeChars_append_of_solid (isBlank_getLast?_trim s)
    (fun c hc => ht c (List.mem_of_mem_head? hc)), squeezeChars_eq_self ht, ← toList_squeeze, hsame,
    String.toList_append]

/-- Squeezing a text changes blanks only. -/
theorem mem_squeeze_iff {c : Char} (hc : isBlank c = false) {s : String} :
    c ∈ (squeeze s).toList ↔ c ∈ s.toList := by
  rw [toList_squeeze]
  induction s.toList with
  | nil => rfl
  | cons d rest ih =>
      by_cases hd : isBlank d = true
      · rw [squeezeChars_cons_of_isBlank hd, ih, List.mem_cons, or_iff_right (ne_of_isBlank hc hd)]
      · have hd : isBlank d = false := by simpa using hd
        have hspace : c ∉ (if needsSpace rest then [' '] else []) := by
          have hne : c ≠ ' ' := ne_of_isBlank hc (by decide)
          split <;> simp [hne]
        rw [squeezeChars_cons hd, List.mem_cons, List.mem_append, or_iff_right hspace, ih,
          List.mem_cons]

end ClassChart.Text
