import ClassChart.Proofs.Text

/-!
Blanks between words and around texts.  Words end where blanks begin, so the words of a
text are what is left of it without its blanks.
-/
namespace ClassChart.Text

/-- A text of blanks, perhaps empty. -/
structure Blanks where
  text : String
  isBlank : ∀ c ∈ text.toList, isBlank c = true

theorem isBlank_of_mem_empty : ∀ c ∈ "".toList, isBlank c = true := by simp

def Blanks.none : Blanks :=
  ⟨"", isBlank_of_mem_empty⟩

theorem exists_toList_eq_cons {s : String} (hs : s ≠ "") : ∃ c rest, s.toList = c :: rest :=
  List.exists_cons_of_ne_nil (mt String.toList_eq_nil_iff.mp hs)

theorem wordsOf_cons_of_isBlank {c : Char} (hc : isBlank c = true) (rest : List Char) :
    wordsOf (c :: rest) = wordsOf rest := by
  rw [wordsOf.eq_def]
  simp only [hc, if_true]

/-- A character that is not blank begins a word that goes on up to the next blank. -/
theorem wordsOf_cons {c : Char} (hc : isBlank c = false) (rest : List Char) :
    wordsOf (c :: rest) =
      (c :: rest.takeWhile (!isBlank ·)) :: wordsOf (rest.dropWhile (!isBlank ·)) := by
  induction rest generalizing c with
  | nil =>
      rw [wordsOf.eq_def]
      simp only [hc, Bool.false_eq_true, if_false]
      rfl
  | cons next rest ih =>
      rw [wordsOf.eq_def]
      cases hnext : isBlank next with
      | true => simp [hc, hnext]
      | false => simp [hc, hnext, ih hnext]

theorem wordsOf_append_of_isBlank {gap : List Char} (hgap : ∀ c ∈ gap, isBlank c = true)
    (rest : List Char) : wordsOf (gap ++ rest) = wordsOf rest := by
  induction gap with
  | nil => rfl
  | cons c more ih =>
      rw [List.forall_mem_cons] at hgap
      rw [List.cons_append, wordsOf_cons_of_isBlank hgap.1, ih hgap.2]

/-- A word with blanks after it is the first of the words. -/
theorem words_append {word : String} (hword : ∀ c ∈ word.toList, isBlank c = false)
    (hempty : word ≠ "") (gap : Blanks) (hgap : gap.text ≠ "") (rest : String) :
    words (word ++ gap.text ++ rest) = word :: words rest := by
  obtain ⟨c, more, hmore⟩ := exists_toList_eq_cons hempty
  obtain ⟨d, blanks, hblanks⟩ := exists_toList_eq_cons hgap
  have hgap' := gap.isBlank
  rw [hblanks] at hgap'
  have hd : (!isBlank d) = false := by simp [hgap' d List.mem_cons_self]
  rw [hmore, List.forall_mem_cons] at hword
  have hpass : ∀ c ∈ more, (!isBlank c) = true := fun c hc => by simp [hword.2 c hc]
  have hwords : wordsOf (word ++ gap.text ++ rest).toList = word.toList :: wordsOf rest.toList := by
    rw [String.toList_append, String.toList_append, hmore, hblanks, List.append_assoc,
      List.cons_append, wordsOf_cons hword.1, List.takeWhile_append_of_pos hpass,
      List.dropWhile_append_of_pos hpass, List.cons_append,
      List.takeWhile_cons_of_neg (by simp [hd]), List.dropWhile_cons_of_neg (by simp [hd]),
      List.append_nil, ← List.cons_append, wordsOf_append_of_isBlank hgap']
  rw [words, hwords, List.map_cons, String.ofList_toList, words]

theorem flatten_wordsOf (cs : List Char) : (wordsOf cs).flatten = cs.filter (!isBlank ·) := by
  fun_induction wordsOf cs with
  | case1 => rfl
  | case2 c rest hblank ih => simp [hblank, ih]
  | case3 c hblank => simp [hblank]
  | case4 c hblank next more hnext ih => simp [hblank, ih]
  | case5 c hblank next more hnext hwords ih =>
      rw [hwords] at ih
      simp [hblank, hwords, ← ih]
  | case6 c hblank next more hnext first later hwords ih =>
      rw [hwords] at ih
      simp [hblank, hwords, ← ih]

/-- A text without its blanks. -/
def solid (s : String) : String :=
  String.ofList (s.toList.filter (!isBlank ·))

/-- The words of a text are what is left of it without its blanks. -/
theorem join_words (s : String) : String.join (words s) = solid s := by
  apply String.toList_inj.mp
  rw [String.toList_join, words, List.flatMap_map, solid, String.toList_ofList, ← flatten_wordsOf]
  simp [List.flatMap]

theorem solid_append (s t : String) : solid (s ++ t) = solid s ++ solid t := by
  simp [solid, String.ofList_append]

theorem solid_eq_self {s : String} (hs : ∀ c ∈ s.toList, isBlank c = false) : solid s = s := by
  have hkeep : s.toList.filter (!isBlank ·) = s.toList :=
    List.filter_eq_self.mpr fun c hc => by simp [hs c hc]
  rw [solid, hkeep, String.ofList_toList]

theorem Blanks.solid_text (gap : Blanks) : solid gap.text = "" := by
  have hnone : gap.text.toList.filter (!Text.isBlank ·) = [] :=
    List.filter_eq_nil_iff.mpr fun c hc => by simp [gap.isBlank c hc]
  rw [solid, hnone, String.ofList_nil]

/-- A text that neither begins nor ends with a blank. -/
structure Bare (s : String) : Prop where
  first : ∀ c ∈ s.toList.head?, isBlank c = false
  last : ∀ c ∈ s.toList.getLast?, isBlank c = false

theorem dropWhile_append_of_stop {p : Char → Bool} {before cs : List Char}
    (hbefore : ∀ c ∈ before, p c = true) (hcs : ∀ c ∈ cs.head?, p c = false) :
    (before ++ cs).dropWhile p = cs := by
  rw [List.dropWhile_append_of_pos hbefore]
  cases cs with
  | nil => rfl
  | cons c rest => simp [hcs c rfl]

theorem dropEndWhile_append_of_stop {p : Char → Bool} {cs after : List Char}
    (hafter : ∀ c ∈ after, p c = true) (hcs : ∀ c ∈ cs.getLast?, p c = false) :
    dropEndWhile p (cs ++ after) = cs := by
  rw [dropEndWhile, List.reverse_append, dropWhile_append_of_stop, List.reverse_reverse]
  · exact fun c hc => hafter c (List.mem_reverse.mp hc)
  · exact fun c hc => hcs c (List.head?_reverse ▸ hc)

theorem Bare.trim_append {s : String} (hs : Bare s) (hempty : s ≠ "") (before after : Blanks) :
    trim (before.text ++ s ++ after.text) = s := by
  obtain ⟨c, rest, hrest⟩ := exists_toList_eq_cons hempty
  have hstart : (before.text.toList ++ (s.toList ++ after.text.toList)).dropWhile isBlank =
      s.toList ++ after.text.toList := by
    refine dropWhile_append_of_stop before.isBlank fun d hd => hs.first d ?_
    rw [hrest] at hd ⊢
    exact hd
  rw [trim, trimChars, trimStartChars, String.toList_append, String.toList_append,
    List.append_assoc, hstart, dropEndWhile_append_of_stop after.isBlank hs.last,
    String.ofList_toList]

theorem Bare.trim_eq_self {s : String} (hs : Bare s) (hempty : s ≠ "") : trim s = s := by
  simpa [Blanks.none] using hs.trim_append hempty .none .none

theorem Blanks.trim_text (gap : Blanks) : trim gap.text = "" := by
  have hstart : (gap.text.toList ++ []).dropWhile Text.isBlank = [] :=
    dropWhile_append_of_stop gap.isBlank (by simp)
  rw [List.append_nil] at hstart
  rw [trim, trimChars, trimStartChars, hstart]
  rfl

theorem trim_of_isBlank_eq_false {s : String} (hs : ∀ c ∈ s.toList, isBlank c = false) :
    trim s = s := by
  by_cases hempty : s = ""
  · subst hempty
    rfl
  · refine Bare.trim_eq_self ⟨fun c hc => ?_, fun c hc => ?_⟩ hempty
    · exact hs c (List.mem_of_mem_head? hc)
    · exact hs c (List.mem_of_getLast? hc)

/-- A character that is not blank stays at the front. -/
theorem head?_trim {c : Char} (hc : isBlank c = false) {s : String}
    (hs : s.toList.head? = some c) : (trim s).toList.head? = some c := by
  obtain ⟨rest, hrest⟩ := List.head?_eq_some_iff.mp hs
  rw [trim, String.toList_ofList, trimChars, trimStartChars, hrest,
    List.dropWhile_cons_of_neg (by simp [hc]), dropEndWhile, List.reverse_cons,
    List.dropWhile_append]
  split
  · simp [hc]
  · simp

theorem isBlank_getLast?_trim (s : String) : ∀ c ∈ (trim s).toList.getLast?, isBlank c = false := by
  intro c hc
  rw [trim, String.toList_ofList, trimChars, dropEndWhile, List.getLast?_reverse] at hc
  have hhead := List.head?_dropWhile_not isBlank (trimStartChars s.toList).reverse
  rw [hc] at hhead
  simpa using hhead

theorem takeWhile_append_of_stop {p : Char → Bool} {before cs : List Char}
    (hbefore : ∀ c ∈ before, p c = true) (hcs : ∀ c ∈ cs.head?, p c = false) :
    (before ++ cs).takeWhile p = before := by
  rw [List.takeWhile_append_of_pos hbefore]
  cases cs with
  | nil => simp
  | cons c rest => simp [hcs c rfl]

/-- A blank parts the words before it from those behind it. -/
theorem wordsOf_append_cons {b : Char} (hb : isBlank b = true) (cs ds : List Char) :
    wordsOf (cs ++ b :: ds) = wordsOf cs ++ wordsOf ds := by
  induction hn : cs.length using Nat.strongRecOn generalizing cs with
  | ind n ih =>
      cases cs with
      | nil => exact wordsOf_cons_of_isBlank hb ds
      | cons c rest =>
          by_cases hc : isBlank c = true
          · rw [List.cons_append, wordsOf_cons_of_isBlank hc, wordsOf_cons_of_isBlank hc]
            exact ih rest.length (by simp [← hn]) rest rfl
          · have hc : isBlank c = false := by simpa using hc
            -- The first word ends inside of `rest`, or at the blank.
            have hword : ∀ d ∈ rest.takeWhile (!isBlank ·), (!isBlank d) = true := fun d hd =>
              List.all_eq_true.mp List.all_takeWhile d hd
            have hstop : ∀ d ∈ (rest.dropWhile (!isBlank ·) ++ b :: ds).head?,
                (!isBlank d) = false := by
              intro d hd
              have hrest := List.head?_dropWhile_not (!isBlank ·) rest
              cases hdrop : rest.dropWhile (!isBlank ·) with
              | nil =>
                  rw [hdrop] at hd
                  obtain rfl : b = d := by simpa using hd
                  simp [hb]
              | cons e more =>
                  rw [hdrop] at hd hrest
                  obtain rfl : e = d := by simpa using hd
                  exact hrest
            have hsplit : rest ++ b :: ds =
                rest.takeWhile (!isBlank ·) ++ (rest.dropWhile (!isBlank ·) ++ b :: ds) := by
              rw [← List.append_assoc, List.takeWhile_append_dropWhile]
            rw [List.cons_append, wordsOf_cons hc, wordsOf_cons hc, hsplit,
              takeWhile_append_of_stop hword hstop, dropWhile_append_of_stop hword hstop,
              List.cons_append]
            refine congrArg _ (ih _ ?_ _ rfl)
            have hle := (List.dropWhile_sublist (p := (!isBlank ·)) (l := rest)).length_le
            simp only [List.length_cons] at hn
            omega

theorem words_append_singleton {b : Char} (hb : isBlank b = true) (s t : String) :
    words (s ++ String.singleton b ++ t) = words s ++ words t := by
  simp only [words, String.toList_append, String.toList_singleton, List.append_assoc,
    List.singleton_append, wordsOf_append_cons hb, List.map_append]

theorem words_append_space (s t : String) : words (s ++ " " ++ t) = words s ++ words t :=
  words_append_singleton (b := ' ') (by decide) s t

theorem Blanks.words_append (gap : Blanks) (s : String) : words (gap.text ++ s) = words s := by
  rw [words, String.toList_append, wordsOf_append_of_isBlank gap.isBlank, words]

theorem words_append_blanks (s : String) (gap : Blanks) : words (s ++ gap.text) = words s := by
  cases hgap : gap.text.toList with
  | nil => rw [String.toList_eq_nil_iff.mp hgap, String.append_empty]
  | cons b more =>
      have hblank := gap.isBlank
      rw [hgap, List.forall_mem_cons] at hblank
      have hmore : wordsOf more = [] := by
        simpa [wordsOf] using wordsOf_append_of_isBlank hblank.2 []
      rw [words, String.toList_append, hgap, wordsOf_append_cons hblank.1, hmore, List.append_nil,
        words]

/-- What is trimmed from a text are blanks around the rest of it. -/
theorem exists_eq_trim (s : String) :
    ∃ before after : Blanks, s = before.text ++ trim s ++ after.text := by
  let before := s.toList.takeWhile isBlank
  let after := ((s.toList.dropWhile isBlank).reverse.takeWhile isBlank).reverse
  have hbefore : ∀ c ∈ (String.ofList before).toList, isBlank c = true := by
    rw [String.toList_ofList]
    exact List.all_eq_true.mp List.all_takeWhile
  have hafter : ∀ c ∈ (String.ofList after).toList, isBlank c = true := by
    intro c hc
    rw [String.toList_ofList, List.mem_reverse] at hc
    exact List.all_eq_true.mp List.all_takeWhile c hc
  refine ⟨⟨_, hbefore⟩, ⟨_, hafter⟩, String.toList_inj.mp ?_⟩
  have hend : trimChars s.toList ++ after = s.toList.dropWhile isBlank := by
    rw [trimChars, dropEndWhile, ← List.reverse_append, trimStartChars,
      List.takeWhile_append_dropWhile, List.reverse_reverse]
  simp only [String.toList_append, String.toList_ofList, trim, List.append_assoc, hend]
  exact List.takeWhile_append_dropWhile.symm

theorem words_trim (s : String) : words (trim s) = words s := by
  obtain ⟨before, after, hs⟩ := exists_eq_trim s
  calc words (trim s) = words (before.text ++ trim s ++ after.text) := by
        rw [words_append_blanks, before.words_append]
    _ = words s := by rw [← hs]

/-- A separator that is blank divides words, so the words of the whole are those of the parts. -/
theorem words_intercalate {sep : Char} (hsep : isBlank sep = true) (texts : List String) :
    words ((String.singleton sep).intercalate texts) = texts.flatMap words := by
  induction texts with
  | nil => rfl
  | cons s rest ih =>
      cases rest with
      | nil => simp
      | cons t more =>
          rw [String.intercalate_cons_cons, words_append_singleton hsep, ih, ← List.flatMap_cons]

/-- The words of a text are those of its lines. -/
theorem flatMap_words_lines (s : String) : (lines s).flatMap words = words s := by
  have hnewline : isBlank '\n' = true := by decide
  rw [← words_intercalate hnewline, lines, intercalate_split]

end ClassChart.Text
