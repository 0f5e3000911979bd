import ClassChart.Text.Blank
import ClassChart.Text.Split

/-!
Cutting and joining texts.  A text is cut into the same pieces as its parts, and
what is cut from a text or joined has the characters of its parts.
-/
namespace ClassChart.Text

theorem beginsWith_iff {lead s : String} :
    beginsWith lead s = true ↔ ∃ rest, s = lead ++ rest := by
  rw [beginsWith, List.isPrefixOf_iff_prefix]
  constructor
  · rintro ⟨rest, hrest⟩
    refine ⟨String.ofList rest, String.toList_inj.mp ?_⟩
    rw [String.toList_append, String.toList_ofList, hrest]
  · rintro ⟨rest, rfl⟩
    rw [String.toList_append]
    exact List.prefix_append _ _

theorem beginsWith_singleton_iff {c : Char} {s : String} :
    beginsWith (String.singleton c) s = true ↔ s.toList.head? = some c := by
  rw [beginsWith, String.toList_singleton]
  cases s.toList with
  | nil => simp
  | cons d rest => simpa [List.isPrefixOf] using eq_comm

theorem finishesWith_iff {tail s : String} :
    finishesWith tail s = true ↔ ∃ front, s = front ++ tail := by
  rw [finishesWith, List.isSuffixOf_iff_suffix]
  constructor
  · rintro ⟨front, hfront⟩
    refine ⟨String.ofList front, String.toList_inj.mp ?_⟩
    rw [String.toList_append, String.toList_ofList, hfront]
  · rintro ⟨front, rfl⟩
    rw [String.toList_append]
    exact List.suffix_append _ _

theorem dropFirst_append (s t : String) : dropFirst s.length (s ++ t) = t := by
  rw [dropFirst, String.toList_append, List.drop_left' String.length_toList,
    String.ofList_toList]

theorem dropLast_append (s t : String) : dropLast t.length (s ++ t) = s := by
  rw [dropLast, String.toList_append, List.length_append, String.length_toList,
    String.length_toList, Nat.add_sub_cancel, List.take_left' String.length_toList,
    String.ofList_toList]

/-- A character does not occur in a text. -/
def Lacks (c : Char) (s : String) : Prop :=
  c ∉ s.toList

instance (c : Char) (s : String) : Decidable (Lacks c s) :=
  inferInstanceAs (Decidable (c ∉ s.toList))

section

variable {c : Char} {s t : String}

@[simp]
theorem lacks_append : Lacks c (s ++ t) ↔ Lacks c s ∧ Lacks c t := by
  simp [Lacks]

@[simp]
theorem lacks_ofList {cs : List Char} : Lacks c (String.ofList cs) ↔ c ∉ cs := by
  simp [Lacks]

theorem Lacks.of_subset (h : Lacks c s) {cs : List Char} (hsub : cs ⊆ s.toList) :
    Lacks c (String.ofList cs) :=
  lacks_ofList.mpr fun hc => h (hsub hc)

theorem Lacks.dropFirst (h : Lacks c s) (n : Nat) : Lacks c (dropFirst n s) :=
  h.of_subset (List.drop_subset n _)

theorem Lacks.dropLast (h : Lacks c s) (n : Nat) : Lacks c (dropLast n s) :=
  h.of_subset (List.take_subset _ _)

theorem Lacks.upTo (h : Lacks c s) (sep : Char) : Lacks c (upTo sep s) :=
  h.of_subset (List.takeWhile_subset _)

theorem Lacks.beyond (h : Lacks c s) (sep : Char) : Lacks c (beyond sep s) :=
  h.of_subset fun _ hd => List.dropWhile_subset _ (List.drop_subset 1 _ hd)

theorem dropEndWhile_subset (p : Char → Bool) (cs : List Char) : dropEndWhile p cs ⊆ cs := by
  intro d hd
  rw [dropEndWhile, List.mem_reverse] at hd
  exact List.mem_reverse.mp (List.dropWhile_subset p hd)

theorem Lacks.trim (h : Lacks c s) : Lacks c (trim s) :=
  h.of_subset fun _ hd => List.dropWhile_subset _ (dropEndWhile_subset isBlank _ hd)

theorem lacks_join {texts : List String} :
    Lacks c (String.join texts) ↔ ∀ s ∈ texts, Lacks c s := by
  simp [Lacks, String.toList_join]

/-- A character that is not in the separator comes from one of the joined texts. -/
theorem lacks_intercalate {sep : String} (hsep : Lacks c sep) {texts : List String} :
    Lacks c (sep.intercalate texts) ↔ ∀ s ∈ texts, Lacks c s := by
  induction texts with
  | nil => simp [Lacks]
  | cons s rest ih =>
      cases rest with
      | nil => simp
      | cons t more =>
          rw [String.intercalate_cons_cons, lacks_append, lacks_append, and_iff_left hsep, ih]
          exact List.forall_mem_cons.symm

end

section

variable (sep : Char)

theorem splitChars_eq_splitOn (cs : List Char) : splitChars sep cs = cs.splitOn sep := by
  induction cs with
  | nil => rfl
  | cons c rest ih =>
      rw [splitChars, List.splitOn_cons_eq_if_modifyHead, ih]
      by_cases hc : c = sep
      · simp [hc]
      · cases hpieces : rest.splitOn sep with
        | nil => exact absurd hpieces (List.splitOn_ne_nil sep rest)
        | cons piece more => simp [hc]

theorem split_append (s t : String) :
    split sep (s ++ String.singleton sep ++ t) = split sep s ++ split sep t := by
  simp only [split, splitChars_eq_splitOn, String.toList_append, String.toList_singleton,
    List.append_assoc, List.singleton_append, List.splitOn_append_cons_self, List.map_append]

theorem split_of_lacks {s : String} (hsep : Lacks sep s) : split sep s = [s] := by
  rw [split, splitChars_eq_splitOn, List.splitOn_eq_singleton hsep, List.map_singleton,
    String.ofList_toList]

theorem intercalate_split (s : String) :
    (String.singleton sep).intercalate (split sep s) = s := by
  apply String.toList_inj.mp
  rw [String.toList_intercalate, String.toList_singleton, split, List.map_map,
    splitChars_eq_splitOn]
  have hid : String.toList ∘ String.ofList = id := funext fun _ => String.toList_ofList
  rw [hid, List.map_id, List.intercalate_splitOn]

theorem not_mem_of_mem_splitChars {cs piece : List Char} (hpiece : piece ∈ splitChars sep cs) :
    sep ∉ piece := by
  induction cs generalizing piece with
  | nil =>
      rw [splitChars, List.mem_singleton] at hpiece
      simp [hpiece]
  | cons c rest ih =>
      rw [splitChars] at hpiece
      split at hpiece
      · rcases List.mem_cons.mp hpiece with rfl | hpiece
        · simp
        · exact ih hpiece
      · rename_i hc
        split at hpiece
        · rw [List.mem_singleton] at hpiece
          simpa [hpiece] using Ne.symm hc
        · rename_i first more hpieces
          rw [hpieces] at ih
          rcases List.mem_cons.mp hpiece with rfl | hpiece
          · rw [List.mem_cons, not_or]
            exact ⟨Ne.symm hc, ih List.mem_cons_self⟩
          · exact ih (List.mem_cons_of_mem first hpiece)

/-- A piece has no separator, and only characters of the text. -/
theorem lacks_of_mem_split {s piece : String} (hpiece : piece ∈ split sep s) :
    Lacks sep piece ∧ ∀ c, Lacks c s → Lacks c piece := by
  have hsep : Lacks sep piece := by
    obtain ⟨cs, hcs, rfl⟩ := List.mem_map.mp hpiece
    exact lacks_ofList.mpr (not_mem_of_mem_splitChars sep hcs)
  refine ⟨hsep, fun c hc => ?_⟩
  by_cases heq : c = sep
  · rw [heq]
    exact hsep
  · have hc' : Lacks c (String.singleton sep) := by simpa [Lacks] using heq
    rw [← intercalate_split sep s] at hc
    exact (lacks_intercalate hc').mp hc piece hpiece

/-- The first separator of a text, if there is one. -/
theorem lacks_or_eq_append_first (s : String) :
    Lacks sep s ∨ ∃ first rest, Lacks sep first ∧ s = first ++ String.singleton sep ++ rest := by
  by_cases hsep : sep ∈ s.toList
  · obtain ⟨before, after, hsplit, hbefore⟩ := List.eq_append_cons_of_mem hsep
    refine .inr ⟨String.ofList before, String.ofList after, lacks_ofList.mpr hbefore, ?_⟩
    apply String.toList_inj.mp
    simp [hsplit]
  · exact .inl hsep

theorem Lacks.bne {s : String} (hs : Lacks sep s) : ∀ c ∈ s.toList, (c != sep) = true := by
  intro c hc
  rw [bne_iff_ne]
  rintro rfl
  exact hs hc

theorem upTo_of_lacks {s : String} (hs : Lacks sep s) : upTo sep s = s := by
  have hall : (s.toList ++ []).takeWhile (· != sep) = s.toList ++ [].takeWhile (· != sep) :=
    List.takeWhile_append_of_pos (hs.bne sep)
  rw [List.append_nil, List.takeWhile_nil, List.append_nil] at hall
  rw [upTo, hall, String.ofList_toList]

theorem beyond_of_lacks {s : String} (hs : Lacks sep s) : beyond sep s = "" := by
  have hnone : (s.toList ++ []).dropWhile (· != sep) = [].dropWhile (· != sep) :=
    List.dropWhile_append_of_pos (hs.bne sep)
  rw [List.append_nil, List.dropWhile_nil] at hnone
  rw [beyond, hnone, List.drop_nil, String.ofList_nil]

theorem upTo_append {s : String} (hs : Lacks sep s) (t : String) :
    upTo sep (s ++ String.singleton sep ++ t) = s := by
  rw [upTo, String.append_assoc, String.toList_append, List.takeWhile_append_of_pos (hs.bne sep)]
  simp

theorem beyond_append {s : String} (hs : Lacks sep s) (t : String) :
    beyond sep (s ++ String.singleton sep ++ t) = t := by
  rw [beyond, String.append_assoc, String.toList_append, List.dropWhile_append_of_pos (hs.bne sep)]
  simp

/-- The last separator of a text, if there is one. -/
theorem lacks_or_eq_append (s : String) :
    Lacks sep s ∨ ∃ front last, Lacks sep last ∧ s = front ++ String.singleton sep ++ last := by
  by_cases hsep : sep ∈ s.toList
  · obtain ⟨after, before, hsplit, hafter⟩ :=
      List.eq_append_cons_of_mem (List.mem_reverse.mpr hsep)
    refine .inr ⟨String.ofList before.reverse, String.ofList after.reverse, ?_, ?_⟩
    · rw [lacks_ofList, List.mem_reverse]
      exact hafter
    · apply String.toList_inj.mp
      rw [← List.reverse_reverse s.toList, hsplit]
      simp
  · exact .inl hsep

theorem afterLast_append {t : String} (hsep : Lacks sep t) (s : String) :
    afterLast sep (s ++ t) = afterLast sep s ++ t := by
  have hpass : ∀ c ∈ t.toList.reverse, (c != sep) = true := by
    intro c hc
    rw [bne_iff_ne]
    rintro rfl
    exact hsep (List.mem_reverse.mp hc)
  apply String.toList_inj.mp
  simp [afterLast, List.takeWhile_append_of_pos hpass]

end

theorem lines_append (s t : String) : lines (s ++ "\n" ++ t) = lines s ++ lines t :=
  split_append '\n' s t

/-- A text of whole lines. -/
def Ended (s : String) : Prop :=
  s = "" ∨ ∃ t, s = t ++ "\n"

theorem Ended.append {s t : String} (hs : Ended s) (ht : Ended t) : Ended (s ++ t) := by
  rcases ht with rfl | ⟨u, rfl⟩
  · rwa [String.append_empty]
  · exact .inr ⟨s ++ u, String.append_assoc.symm⟩

theorem ended_join {texts : List String} (htexts : ∀ s ∈ texts, Ended s) :
    Ended (String.join texts) := by
  induction texts with
  | nil => exact .inl rfl
  | cons s rest ih =>
      rw [List.forall_mem_cons] at htexts
      rw [String.join_cons]
      exact htexts.1.append (ih htexts.2)

/-- What stands between line ends is a line exactly if it has none itself. -/
theorem mem_lines_iff {before s : String} (hbefore : Ended before) (after : String) :
    s ∈ lines (before ++ s ++ "\n" ++ after) ↔ Lacks '\n' s := by
  constructor
  · exact fun hmem => (lacks_of_mem_split '\n' hmem).1
  · intro hs
    have hline : s ∈ lines (s ++ "\n" ++ after) := by
      rw [lines_append, lines, split_of_lacks '\n' hs]
      exact List.mem_append_left _ List.mem_cons_self
    rcases hbefore with rfl | ⟨u, rfl⟩
    · rwa [String.empty_append]
    · have hsplit : u ++ "\n" ++ s ++ "\n" ++ after = u ++ "\n" ++ (s ++ "\n" ++ after) := by
        simp only [String.append_assoc]
      rw [hsplit, lines_append]
      exact List.mem_append_right _ hline

theorem ne_of_isBlank {c d : Char} (hc : isBlank c = false) (hd : isBlank d = true) : c ≠ d := by
  rintro rfl
  rw [hc] at hd
  contradiction

theorem lacks_blank_or_quote {s : String}
    (hs : ∀ d ∈ s.toList, isBlank d = false ∧ d ≠ '"') {c : Char}
    (hc : isBlank c = true ∨ c = '"') : Lacks c s := by
  intro hmem
  obtain ⟨hblank, hquote⟩ := hs c hmem
  rcases hc with hc | hc
  · rw [hblank] at hc
    contradiction
  · exact hquote hc

theorem isBlank_of_mem_wordsOf {cs word : List Char} (hword : word ∈ wordsOf cs) :
    ∀ c ∈ word, isBlank c = false := by
  fun_induction wordsOf cs generalizing word with
  | case1 => contradiction
  | case2 c rest hblank ih => exact ih hword
  | case3 c hblank => simp_all
  | case4 c hblank next more hnext ih =>
      rcases List.mem_cons.mp hword with rfl | hword
      · simpa using hblank
      · exact ih hword
  | case5 c hblank next more hnext hwords ih =>
      simp only [hwords, List.mem_singleton] at hword
      simpa [hword] using hblank
  | case6 c hblank next more hnext first later hwords ih =>
      rw [hwords] at hword ih
      rcases List.mem_cons.mp hword with rfl | hword
      · exact List.forall_mem_cons.mpr ⟨by simpa using hblank, ih List.mem_cons_self⟩
      · exact ih (List.mem_cons_of_mem first hword)

/-- A word holds no blanks. -/
theorem lacks_of_mem_words {s word : String} (hword : word ∈ words s) {c : Char}
    (hc : isBlank c = true) : Lacks c word := by
  obtain ⟨cs, hcs, rfl⟩ := List.mem_map.mp hword
  rw [lacks_ofList]
  intro hmem
  rw [isBlank_of_mem_wordsOf hcs c hmem] at hc
  contradiction

theorem nil_not_mem_wordsOf (cs : List Char) : [] ∉ wordsOf cs := by
  fun_induction wordsOf cs with
  | case1 => simp
  | case2 c rest hblank ih => exact ih
  | case3 c hblank => simp
  | case4 c hblank next more hnext ih => simpa using ih
  | case5 c hblank next more hnext hwords ih => simp [hwords]
  | case6 c hblank next more hnext first later hwords ih =>
      rw [hwords] at ih
      simpa [hwords] using fun hlater => ih (List.mem_cons_of_mem first hlater)

theorem ne_empty_of_mem_words {s word : String} (hword : word ∈ words s) : word ≠ "" := by
  obtain ⟨cs, hcs, rfl⟩ := List.mem_map.mp hword
  intro hempty
  rw [String.ofList_eq_empty_iff] at hempty
  exact nil_not_mem_wordsOf s.toList (hempty ▸ hcs)

end ClassChart.Text
