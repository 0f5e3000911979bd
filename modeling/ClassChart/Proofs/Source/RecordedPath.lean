import ClassChart.Proofs.Source.Walk
import Mathlib.Data.List.TakeWhile

/-!
The recorded path of a source.  A file in a directory is recorded by its path from there.  The
directory is cut off as a text, so the path is right if the text ends where a component ends.
-/
namespace ClassChart

namespace Path

/-- How many characters the components of a path have. -/
def breadth (s : String) : Nat :=
  ((partsOf s).flatMap String.toList).length

theorem breadth_append_of_divided {s t : String} (h : Divided s t) :
    breadth (s ++ t) = breadth s + breadth t := by
  rw [breadth, partsOf_append_of_divided h, List.flatMap_append, List.length_append, breadth,
    breadth]

theorem IsName.breadth_eq {s : String} (hs : IsName s) : breadth s = s.length := by
  rw [breadth, hs.partsOf_eq, List.flatMap_singleton, String.length_toList]

theorem breadth_le_length_of_lacks {s : String} (hs : Text.Lacks '/' s) :
    breadth s ≤ s.length := by
  rw [breadth, partsOf, Text.split_of_lacks '/' hs, List.filter_singleton]
  cases (s != "" && s != ".") with
  | false => exact Nat.zero_le _
  | true => simp [String.length_toList]

theorem breadth_slash (s : String) : breadth ("/" ++ s) = breadth s := by
  rw [breadth, partsOf_slash, breadth]

/-- One more character makes the components no smaller, and most characters make them larger. -/
theorem breadth_le_singleton_append (c : Char) (s : String) :
    breadth s ≤ breadth (String.singleton c ++ s) ∧
      (c ≠ '/' → c ≠ '.' → breadth s < breadth (String.singleton c ++ s)) := by
  by_cases hc : c = '/'
  · subst hc
    exact ⟨(breadth_slash s).ge, fun h => absurd rfl h⟩
  · -- The character is put before the first component.
    obtain ⟨first, rest, rfl, hfirst, hrest⟩ := exists_first_component s
    have hmore : Text.Lacks '/' (String.singleton c ++ first) :=
      Text.lacks_append.mpr ⟨by simpa [Text.Lacks] using Ne.symm hc, hfirst⟩
    have hdivided (t : String) : Divided t rest := .inr (.inr hrest)
    have hlength : (String.singleton c ++ first).length = first.length + 1 := by
      rw [String.length_append, String.length_singleton, Nat.add_comm]
    rw [← String.append_assoc, breadth_append_of_divided (hdivided _),
      breadth_append_of_divided (hdivided _)]
    have hle := breadth_le_length_of_lacks hfirst
    by_cases hdot : String.singleton c ++ first = "."
    · have hempty : first = "" := by
        rw [hdot] at hlength
        exact String.length_eq_zero_iff.mp (Nat.succ.inj hlength).symm
      subst hempty
      rw [String.append_empty] at hdot ⊢
      refine ⟨Nat.add_le_add_right (Nat.zero_le _) _, fun _ hne => ?_⟩
      exact absurd (String.singleton_inj.mp hdot) hne
    · have hname : IsName (String.singleton c ++ first) := ⟨hmore, by simp, hdot⟩
      rw [hname.breadth_eq, hlength]
      omega

/-- What is left when characters are dropped from the front has no larger components. -/
theorem breadth_dropWhile_le (p : Char → Bool) (cs : List Char) :
    breadth (String.ofList (cs.dropWhile p)) ≤ breadth (String.ofList cs) := by
  induction cs with
  | nil => exact Nat.le_refl _
  | cons c rest ih =>
      rw [List.dropWhile_cons]
      split
      · refine ih.trans ?_
        rw [String.ofList_cons]
        exact (breadth_le_singleton_append c _).1
      · exact Nat.le_refl _

/-- A path that is cut in the middle of a component, into `last` and `first`. -/
structure IsCut (front last first rest : String) : Prop where
  divided_front (s : String) : Divided front s
  lacks_last : Text.Lacks '/' last
  last_ne : last ≠ ""
  lacks_first : Text.Lacks '/' first
  first_ne : first ≠ ""
  divided_rest (s : String) : Divided s rest

/-- If no slash divides two texts, they meet in the middle of a component. -/
theorem exists_cut {s t : String} (hs : s ≠ "") (ht : t ≠ "")
    (hdivided : ¬(Text.finishesWith "/" s = true ∨ Text.beginsWith "/" t = true)) :
    ∃ front last first rest, s = front ++ last ∧ t = first ++ rest ∧
      IsCut front last first rest := by
  obtain ⟨front, last, rfl, hlast, hfront⟩ := exists_last_component s
  obtain ⟨first, rest, rfl, hfirst, hrest⟩ := exists_first_component t
  refine ⟨front, last, first, rest, rfl, rfl, fun _ => hfront.imp_right .inl, hlast, ?_, hfirst, ?_,
    fun _ => .inr (.inr hrest)⟩
  · rintro rfl
    rw [String.append_empty] at hdivided hs
    exact hdivided (.inl (hfront.resolve_left hs))
  · rintro rfl
    rw [String.empty_append] at hdivided ht
    exact hdivided (.inr (hrest.resolve_left ht))

namespace IsCut

variable {front last first rest : String} (h : IsCut front last first rest)

include h

theorem length_pos : 0 < last.length ∧ 0 < first.length :=
  ⟨Nat.pos_of_ne_zero (mt String.length_eq_zero_iff.mp h.last_ne),
    Nat.pos_of_ne_zero (mt String.length_eq_zero_iff.mp h.first_ne)⟩

theorem isName_append : IsName (last ++ first) := by
  refine ⟨Text.lacks_append.mpr ⟨h.lacks_last, h.lacks_first⟩, by simp [h.last_ne], fun hdot => ?_⟩
  have hlength := congrArg String.length hdot
  have hpos := h.length_pos
  have hone : ".".length = 1 := rfl
  rw [String.length_append] at hlength
  omega

theorem partsOf_append : partsOf (front ++ last ++ (first ++ rest)) =
    partsOf front ++ ((last ++ first) :: partsOf rest) := by
  have hsplit : front ++ last ++ (first ++ rest) = front ++ ((last ++ first) ++ rest) := by
    simp only [String.append_assoc]
  rw [hsplit, partsOf_append_of_divided (h.divided_front _),
    partsOf_append_of_divided (h.divided_rest _), h.isName_append.partsOf_eq, List.singleton_append]

end IsCut

/-- The path that leads from a directory down by some names. -/
def descend (directory : Path) (names : List String) : Path :=
  { directory with parts := directory.parts ++ names }

/-- A directory is on the way to a path. -/
def Contains (directory p : Path) : Prop :=
  ∃ below, below ≠ [] ∧ p = directory.descend below

/-- A path without the slashes at its front. -/
def withoutSlashes (s : String) : String :=
  String.ofList (s.toList.dropWhile (· == '/'))

theorem withoutSlashes_slash (s : String) : withoutSlashes ("/" ++ s) = withoutSlashes s := by
  rw [withoutSlashes, String.toList_append]
  rfl

theorem IsName.withoutSlashes_append {s : String} (hs : IsName s) (t : String) :
    withoutSlashes (s ++ t) = s ++ t := by
  have hkept : ([] ++ (s ++ t).toList).dropWhile (· == '/') = (s ++ t).toList :=
    Text.dropWhile_append_of_stop (by simp) (beq_slash_of_head? (hs.beginsWith_append t))
  rw [List.nil_append] at hkept
  rw [withoutSlashes, hkept, String.ofList_toList]

theorem partsOf_withoutSlashes (s : String) : partsOf (withoutSlashes s) = partsOf s := by
  have hdrop (cs : List Char) :
      partsOf (String.ofList (cs.dropWhile (· == '/'))) = partsOf (String.ofList cs) := by
    induction cs with
    | nil => rfl
    | cons c rest ih =>
        by_cases hc : c = '/'
        · subst hc
          rw [List.dropWhile_cons_of_pos rfl, ih, String.ofList_cons]
          exact (partsOf_slash _).symm
        · rw [List.dropWhile_cons_of_neg (by simpa using hc)]
  rw [withoutSlashes, hdrop, String.ofList_toList]

theorem rootOf_dropWhile {p : Char → Bool} (hp : p '/' = true) (cs : List Char) :
    rootOf (String.ofList (cs.dropWhile p)) = "" := by
  rw [rootOf_eq_empty_iff, ← Bool.not_eq_true, Text.beginsWith_iff]
  rintro ⟨rest, hrest⟩
  have hchars := congrArg String.toList hrest
  rw [String.toList_ofList, String.toList_append] at hchars
  have hhead := List.head?_dropWhile_not p cs
  rw [hchars] at hhead
  simp [hp] at hhead

end Path

/-- The last component of the path of a supported file is a name. -/
theorem isName_of_languageOf? {path : String} (hpath : (languageOf? path).isSome) :
    Path.IsName (Text.afterLast '/' path) := by
  have hstem : (Text.beforeLast '.' (Text.afterLast '/' path)).toList.any (· != '.') = true := by
    by_contra hstem
    have hnone : "".toLower ≠ ".java" := by decide +kernel
    simp [languageOf?, extensionOf, hstem, hnone] at hpath
  refine ⟨?_, fun hempty => ?_, fun hdot => ?_⟩
  · rw [Text.afterLast, Text.lacks_ofList, List.mem_reverse]
    intro hmem
    simpa using List.mem_takeWhile_imp hmem
  · rw [hempty] at hstem
    contradiction
  · rw [hdot] at hstem
    contradiction

namespace SourceFile

open ClassChart.Path

/-- What is dropped from the front of a path when a directory has been cut off. -/
def isSeparator (c : Char) : Bool :=
  c == '/' || c == '\\'

/-- The ways to record a path that is seen from a directory: by the components below it if the
directory is on the way, and unchanged if not. -/
inductive Records (root path : String) : String → Prop
  | inside {below : List String} {recorded : String} (hbelow : below ≠ [])
      (hpath : ofString path = (ofString root).descend below)
      (hrecorded : ofString recorded = ⟨"", below⟩) : Records root path recorded
  | outside (hpath : ¬(ofString root).Contains (ofString path)) : Records root path path

/-- A file below the root is recorded without the root and the separators after it. -/
theorem recordedPath_append {root : String} (hroot : root ≠ "") (tail : String) :
    recordedPath (root ++ tail) root =
      String.ofList (tail.toList.dropWhile isSeparator) := by
  have hbegins : Text.beginsWith root (root ++ tail) = true :=
    Text.beginsWith_iff.mpr ⟨tail, rfl⟩
  have hdrop : (root ++ tail).toList.drop root.length = tail.toList := by
    rw [String.toList_append, List.drop_left' String.length_toList]
  rw [recordedPath, if_pos (by simp [hroot, hbegins]), hdrop]
  rfl

theorem recordedPath_of_ne_append {path root : String} (h : ∀ tail, path ≠ root ++ tail) :
    recordedPath path root = path := by
  have hbegins : ¬Text.beginsWith root path = true := by
    rw [Text.beginsWith_iff]
    rintro ⟨tail, htail⟩
    exact h tail htail
  rw [recordedPath, if_neg (by simp [hbegins])]

theorem dropWhile_isSeparator (s : String) :
    s.toList.dropWhile isSeparator = (withoutSlashes s).toList.dropWhile isSeparator := by
  rw [withoutSlashes, String.toList_ofList]
  induction s.toList with
  | nil => rfl
  | cons c rest ih =>
      by_cases hc : c = '/'
      · subst hc
        rw [List.dropWhile_cons_of_pos rfl, List.dropWhile_cons_of_pos rfl, ih]
      · have hkept : (c :: rest).dropWhile (· == '/') = c :: rest :=
          List.dropWhile_cons_of_neg (by simpa using hc)
        rw [hkept]

theorem dropWhile_isSeparator_eq {s : String}
    (hs : Text.beginsWith "\\" (withoutSlashes s) = false) :
    String.ofList (s.toList.dropWhile isSeparator) = withoutSlashes s := by
  have hstop : ∀ c ∈ (withoutSlashes s).toList.head?, isSeparator c = false := by
    intro c hc
    have hslash : c ≠ '/' := by
      have hhead := List.head?_dropWhile_not (· == '/') s.toList
      rw [withoutSlashes, String.toList_ofList] at hc
      rw [hc] at hhead
      simpa using hhead
    have hback : c ≠ '\\' := by
      rintro rfl
      have hbegins : Text.beginsWith (String.singleton '\\') (withoutSlashes s) = true :=
        Text.beginsWith_singleton_iff.mpr hc
      exact Bool.false_ne_true (hs.symm.trans hbegins)
    simp [isSeparator, hslash, hback]
  have hkept : ([] ++ (withoutSlashes s).toList).dropWhile isSeparator =
      (withoutSlashes s).toList := Text.dropWhile_append_of_stop (by simp) hstop
  rw [List.nil_append] at hkept
  rw [dropWhile_isSeparator, hkept, String.ofList_toList]

section

variable {root : String} (hroot : root ≠ "") {tail : String}

include hroot

/-- A path from which a directory is cut off is recorded rightly only if it is inside. -/
theorem exists_of_records_append
    (h : Records root (root ++ tail) (String.ofList (tail.toList.dropWhile isSeparator))) :
    ∃ below, below ≠ [] ∧ rootOf (root ++ tail) = rootOf root ∧
      partsOf (root ++ tail) = partsOf root ++ below ∧
      partsOf (String.ofList (tail.toList.dropWhile isSeparator)) = below := by
  generalize hpath : root ++ tail = path at h
  generalize hrecorded : String.ofList (tail.toList.dropWhile isSeparator) = recorded at h
  cases h with
  | @inside below _ hbelow hinside hseen =>
      refine ⟨below, hbelow, ?_, ?_, congrArg Path.parts hseen⟩
      · exact congrArg Path.root hinside
      · exact congrArg Path.parts hinside
  | outside =>
      -- What is left is shorter than the path.
      have hlength := congrArg String.length (hrecorded.trans hpath.symm)
      have hless := (List.dropWhile_suffix isSeparator (l := tail.toList)).length_le
      have hpos : root.length ≠ 0 := mt String.length_eq_zero_iff.mp hroot
      rw [String.length_append, String.length_ofList] at hlength
      rw [String.length_toList] at hless
      omega

/-- In the middle of a component nothing can be cut off. -/
theorem not_records_append
    (hdivided : ¬(Text.finishesWith "/" root = true ∨ Text.beginsWith "/" tail = true)) :
    ¬Records root (root ++ tail) (String.ofList (tail.toList.dropWhile isSeparator)) := by
  intro h
  obtain ⟨below, hbelow, -, hparts, hseen⟩ := exists_of_records_append hroot h
  have htail : tail ≠ "" := by
    rintro rfl
    rw [String.append_empty] at hparts
    exact hbelow (List.self_eq_append_right.mp hparts)
  obtain ⟨front, last, first, rest, rfl, rfl, hcut⟩ := exists_cut hroot htail hdivided
  rw [hcut.partsOf_append, partsOf_append_of_divided (hcut.divided_front last), List.append_assoc,
    List.append_cancel_left_eq] at hparts
  have hpos := hcut.length_pos
  -- The component at the cut is longer than what is left of it on either side.
  by_cases hdot : last = "."
  · subst hdot
    have hbelow : below = ("." ++ first) :: partsOf rest := hparts.symm
    have hbreadth : breadth (String.ofList ((first ++ rest).toList.dropWhile isSeparator)) =
        ("." ++ first).length + breadth rest := by
      rw [breadth, hseen, hbelow, List.flatMap_cons, List.length_append, String.length_toList,
        breadth]
    have hone : ("." ++ first).length = 1 + first.length := String.length_append "." first
    have hle := breadth_le_length_of_lacks hcut.lacks_first
    have hless := breadth_dropWhile_le isSeparator (first ++ rest).toList
    rw [String.ofList_toList, hbreadth,
      breadth_append_of_divided (hcut.divided_rest first)] at hless
    omega
  · have hname : IsName last := ⟨hcut.lacks_last, hcut.last_ne, hdot⟩
    rw [hname.partsOf_eq, List.singleton_append, List.cons.injEq] at hparts
    have hlength := congrArg String.length hparts.1
    rw [String.length_append] at hlength
    omega

omit hroot in
theorem partsOf_ne_nil_of_languageOf? (hpath : (languageOf? (root ++ tail)).isSome)
    (hdivided : Text.finishesWith "/" root = true ∨ Text.beginsWith "/" tail = true) :
    partsOf tail ≠ [] := by
  have hname := isName_of_languageOf? hpath
  have hslash (s : String) : Text.afterLast '/' (s ++ "/") = "" := by
    simp [Text.afterLast]
  rcases Text.lacks_or_eq_append '/' tail with hlacks | ⟨front, last, hlast, rfl⟩
  · -- The whole of the rest is the name, behind a directory that ends with a slash.
    have hends : Text.finishesWith "/" root = true := by
      refine hdivided.resolve_right fun hbegins => ?_
      obtain ⟨rest, rfl⟩ := Text.beginsWith_iff.mp hbegins
      simp [Text.Lacks] at hlacks
    obtain ⟨above, rfl⟩ := Text.finishesWith_iff.mp hends
    rw [Text.afterLast_append '/' hlacks, hslash, String.empty_append] at hname
    rw [hname.partsOf_eq]
    exact List.cons_ne_nil _ _
  · have hsplit : root ++ (front ++ String.singleton '/' ++ last) =
        root ++ front ++ "/" ++ last := by
      simp only [String.append_assoc]
      rfl
    rw [hsplit, Text.afterLast_append '/' hlast, hslash, String.empty_append] at hname
    have hparts : partsOf (front ++ String.singleton '/' ++ last) = partsOf front ++ [last] := by
      rw [← hname.partsOf_eq]
      exact partsOf_append front last
    rw [hparts]
    simp

/-- Where a component ends, the directory is cut off rightly unless the next component begins
with a backslash. -/
theorem records_append_iff (hpath : (languageOf? (root ++ tail)).isSome)
    (hdivided : Text.finishesWith "/" root = true ∨ Text.beginsWith "/" tail = true) :
    Records root (root ++ tail) (String.ofList (tail.toList.dropWhile isSeparator)) ↔
      rootOf (root ++ tail) = rootOf root ∧
        Text.beginsWith "\\" (withoutSlashes tail) = false := by
  have hparts : partsOf (root ++ tail) = partsOf root ++ partsOf tail := by
    apply partsOf_append_of_divided
    rcases hdivided with hslash | hslash
    · exact .inr (.inl hslash)
    · exact .inr (.inr (.inr hslash))
  constructor
  · intro h
    obtain ⟨below, -, hsame, hinside, hseen⟩ := exists_of_records_append hroot h
    refine ⟨hsame, ?_⟩
    rw [hparts, List.append_cancel_left_eq] at hinside
    rw [← Bool.not_eq_true, Text.beginsWith_iff]
    rintro ⟨rest, hrest⟩
    -- The backslash belongs to the next component, but is dropped.
    have hdropped : tail.toList.dropWhile isSeparator = rest.toList.dropWhile isSeparator := by
      rw [dropWhile_isSeparator, hrest, String.toList_append]
      rfl
    have hless := breadth_dropWhile_le isSeparator rest.toList
    have hmore := (breadth_le_singleton_append '\\' rest).2 (by decide) (by decide)
    have hwhole : breadth (withoutSlashes tail) = breadth tail := by
      rw [breadth, partsOf_withoutSlashes, breadth]
    have hsame : breadth (String.ofList (tail.toList.dropWhile isSeparator)) = breadth tail := by
      rw [breadth, hseen, ← hinside, breadth]
    rw [hdropped] at hsame
    rw [String.ofList_toList] at hless
    have hslash : String.singleton '\\' ++ rest = "\\" ++ rest := rfl
    rw [hslash, ← hrest] at hmore
    omega
  · rintro ⟨hsame, hslash⟩
    refine .inside (partsOf_ne_nil_of_languageOf? hpath hdivided) ?_ ?_
    · rw [ofString, hsame, hparts]
      rfl
    · rw [ofString, rootOf_dropWhile rfl, dropWhile_isSeparator_eq hslash, partsOf_withoutSlashes]

end

theorem records_self_iff {root path : String} :
    Records root path path ↔
      ¬(ofString root).Contains (ofString path) ∨ ofString root = ⟨"", []⟩ := by
  constructor
  · intro h
    cases h with
    | @inside below _ hbelow hpath hrecorded =>
        right
        rw [hpath, descend, Path.mk.injEq] at hrecorded
        obtain ⟨hroot, hparts⟩ := hrecorded
        rw [← hroot, ← List.append_left_eq_self.mp hparts]
    | outside hpath => exact .inl hpath
  · rintro (houtside | hhere)
    · exact .outside houtside
    · by_cases hinside : (ofString root).Contains (ofString path)
      · obtain ⟨below, hbelow, hpath⟩ := hinside
        refine .inside hbelow hpath ?_
        rw [hpath, hhere]
        rfl
      · exact .outside hinside

theorem records_recordedPath_iff {path root : String} (hpath : (languageOf? path).isSome)
    (hroot : root ≠ "") :
    Records root path (recordedPath path root) ↔
      (∃ tail, path = root ++ tail ∧
        (Text.finishesWith "/" root = true ∨ Text.beginsWith "/" tail = true) ∧
        rootOf path = rootOf root ∧ Text.beginsWith "\\" (withoutSlashes tail) = false) ∨
      (∀ tail, path ≠ root ++ tail) ∧
        (¬(ofString root).Contains (ofString path) ∨ ofString root = ⟨"", []⟩) := by
  by_cases hbegins : ∃ tail, path = root ++ tail
  · obtain ⟨tail, rfl⟩ := hbegins
    have hunique (other : String) : root ++ tail = root ++ other ↔ tail = other :=
      String.append_right_inj root
    rw [recordedPath_append hroot]
    by_cases hdivided : Text.finishesWith "/" root = true ∨ Text.beginsWith "/" tail = true
    · rw [records_append_iff hroot hpath hdivided]
      simp [hunique, hdivided]
    · have hnot := not_records_append hroot hdivided
      simp [hunique, hdivided, hnot]
  · rw [not_exists] at hbegins
    rw [recordedPath_of_ne_append hbegins, records_self_iff]
    simp [hbegins]

theorem filePath_ofText (text filePath : String) : (ofText text filePath).filePath = filePath := by
  unfold ofText
  split <;> rfl

/-- A file of a known language is recorded whether it can be read or not. -/
theorem exists_result_readFrom {path : String} (hpath : (languageOf? path).isSome) (root : String)
    (fs : FileSystem) :
    ∃ file, ((readFrom path root).run fs).result = .ok file ∧
      file.filePath = recordedPath path root := by
  rw [readFrom, if_neg (by simpa using Option.isSome_iff_ne_none.mp hpath), Procedure.run]
  cases fs.read path with
  | ok bytes => exact ⟨_, rfl, filePath_ofText _ _⟩
  | error cause => exact ⟨_, rfl, rfl⟩

theorem exists_foldl_entryPath_eq_append (directory : String) (names : List String) :
    ∃ rest, names.foldl entryPath directory = directory ++ rest := by
  induction names generalizing directory with
  | nil => exact ⟨"", String.append_empty.symm⟩
  | cons name others ih =>
      obtain ⟨rest, hrest⟩ := ih (entryPath directory name)
      rw [List.foldl_cons, hrest, entryPath]
      split
      · exact ⟨name ++ rest, String.append_assoc ..⟩
      · exact ⟨"/" ++ name ++ rest, by simp only [String.append_assoc]⟩

/-- A walk cuts where a component ends. -/
theorem exists_tail_foldl_entryPath {root : String} (hroot : root ≠ "") {first : String}
    (hfirst : IsName first) (more : List String) :
    ∃ tail rest, (first :: more).foldl entryPath root = root ++ tail ∧
      (Text.finishesWith "/" root = true ∨ Text.beginsWith "/" tail = true) ∧
      withoutSlashes tail = first ++ rest := by
  obtain ⟨rest, hrest⟩ := exists_foldl_entryPath_eq_append (entryPath root first) more
  rw [List.foldl_cons, hrest, entryPath]
  split
  · rename_i hslash
    refine ⟨first ++ rest, rest, String.append_assoc .., .inl ?_, hfirst.withoutSlashes_append rest⟩
    simpa [hroot] using hslash
  · refine ⟨"/" ++ (first ++ rest), rest, by simp only [String.append_assoc], .inr ?_, ?_⟩
    · exact Text.beginsWith_iff.mpr ⟨_, rfl⟩
    · rw [withoutSlashes_slash, hfirst.withoutSlashes_append]

theorem beginsWith_backslash_append {first : String} (hfirst : first ≠ "") (rest : String) :
    Text.beginsWith "\\" (first ++ rest) = Text.beginsWith "\\" first := by
  obtain ⟨c, more, hchars⟩ := Text.exists_toList_eq_cons hfirst
  have hback : "\\" = String.singleton '\\' := rfl
  rw [hback, Bool.eq_iff_iff, Text.beginsWith_singleton_iff, Text.beginsWith_singleton_iff,
    String.toList_append, hchars]
  rfl

/-- A source file is recorded rightly in two cases.  Its path begins with the text of the
directory, which ends where a component does, and the next component does not begin with a
backslash.  Or the path does not begin with this text, and the directory is not on the way or is
the working directory.  A file that is found in a walk is recorded rightly unless the name below
the directory begins with a backslash. -/
theorem result_readFrom_records_iff {path root : String} (hpath : (languageOf? path).isSome)
    (hroot : root ≠ "") (fs : FileSystem) :
    ∃ file, ((readFrom path root).run fs).result = .ok file ∧
      (Records root path file.filePath ↔
        (∃ tail, path = root ++ tail ∧
          (Text.finishesWith "/" root = true ∨ Text.beginsWith "/" tail = true) ∧
          rootOf path = rootOf root ∧ Text.beginsWith "\\" (withoutSlashes tail) = false) ∨
        (∀ tail, path ≠ root ++ tail) ∧
          (¬(ofString root).Contains (ofString path) ∨ ofString root = ⟨"", []⟩)) ∧
      ∀ first more, (∀ name ∈ first :: more, IsName name) →
        path = (first :: more).foldl entryPath root →
        (Records root path file.filePath ↔ Text.beginsWith "\\" first = false) := by
  obtain ⟨file, hfile, hrecorded⟩ := exists_result_readFrom hpath root fs
  refine ⟨file, hfile, ?_, ?_⟩
  · rw [hrecorded]
    exact records_recordedPath_iff hpath hroot
  · rintro first more hnames rfl
    have hfirst := hnames first List.mem_cons_self
    have hsame := rootOf_foldl_entryPath root hnames
    obtain ⟨tail, rest, htail, hdivided, hrest⟩ := exists_tail_foldl_entryPath hroot hfirst more
    rw [htail] at hpath hrecorded hsame ⊢
    rw [hrecorded, recordedPath_append hroot, records_append_iff hroot hpath hdivided, hrest,
      beginsWith_backslash_append hfirst.ne_empty]
    exact and_iff_right hsame

/-- A file two directories below one that is written with a slash. -/
theorem result_readFrom_records_nested :
    let fs : FileSystem := { root := .directory [("src", .directory [("p", .directory [])])] }
    (languageOf? "src/p/A.java").isSome ∧ "src/" ≠ "" ∧
      (∀ name ∈ ["p", "A.java"], IsName name) ∧
      "src/p/A.java" = ["p", "A.java"].foldl entryPath "src/" ∧
      ∃ file, ((readFrom "src/p/A.java" "src/").run fs).result = .ok file ∧
        Records "src/" "src/p/A.java" file.filePath := by
  intro fs
  have hpath : (languageOf? "src/p/A.java").isSome := by decide +kernel
  have hroot : "src/" ≠ "" := by decide
  have hnames : ∀ name ∈ ["p", "A.java"], IsName name := by decide +kernel
  have hwalk : "src/p/A.java" = ["p", "A.java"].foldl entryPath "src/" := by decide +kernel
  obtain ⟨file, hfile, -, hfound⟩ := result_readFrom_records_iff hpath hroot fs
  refine ⟨hpath, hroot, hnames, hwalk, file, hfile, ?_⟩
  exact (hfound "p" ["A.java"] hnames hwalk).mpr (by decide +kernel)

/-- A directory is cut off from the path of another one whose name begins like its own. -/
theorem result_readFrom_cuts_name :
    let fs : FileSystem := { root := .directory [("srcx", .directory [("A.java", .file .empty)])] }
    Records "src" "srcx/A.java" "srcx/A.java" ∧
      ∃ file, ((readFrom "srcx/A.java" "src").run fs).result = .ok file ∧
        file.filePath = "x/A.java" ∧ ¬Records "src" "srcx/A.java" "x/A.java" := by
  intro fs
  refine ⟨.outside ?_, ?_⟩
  · rintro ⟨below, -, hbelow⟩
    have hparts : ["srcx", "A.java"] = "src" :: below := congrArg Path.parts hbelow
    exact absurd (List.cons.inj hparts).1 (by decide)
  · have hcut : ¬Records "src" ("src" ++ "x/A.java")
        (String.ofList ("x/A.java".toList.dropWhile isSeparator)) :=
      not_records_append (by decide) (by decide +kernel)
    have hrest : String.ofList ("x/A.java".toList.dropWhile isSeparator) = "x/A.java" := by
      decide +kernel
    obtain ⟨file, hfile, hrecorded⟩ :=
      exists_result_readFrom (show (languageOf? "srcx/A.java").isSome by decide +kernel) "src" fs
    refine ⟨file, hfile, hrecorded.trans (by decide +kernel), ?_⟩
    rwa [hrest] at hcut

end SourceFile

end ClassChart
