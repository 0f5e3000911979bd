import ClassChart.Proofs.Blanks
import ClassChart.Storage.Path

/-!
Paths and their texts.  A path made of names reads back from its text, so the
file system sees the same components as the program.
-/
namespace ClassChart.Path

/-- A component of a path in normal form. -/
structure IsName (s : String) : Prop where
  lacks : Text.Lacks '/' s
  ne_empty : s ≠ ""
  ne_dot : s ≠ "."

instance (s : String) : Decidable (IsName s) :=
  decidable_of_iff (Text.Lacks '/' s ∧ s ≠ "" ∧ s ≠ ".")
    ⟨fun ⟨hlacks, hempty, hdot⟩ => ⟨hlacks, hempty, hdot⟩, fun h => ⟨h.lacks, h.ne_empty, h.ne_dot⟩⟩

/-- A path in normal form. -/
structure Normal (p : Path) : Prop where
  root : p.root = "" ∨ p.root = "/" ∨ p.root = "//"
  parts : ∀ part ∈ p.parts, IsName part

/-- One path is on the way to another, or is that path. -/
structure IsAbove (q p : Path) : Prop where
  root : q.root = p.root
  parts : q.parts <+: p.parts

theorem IsAbove.refl (p : Path) : p.IsAbove p :=
  ⟨rfl, List.prefix_rfl⟩

theorem IsAbove.trans {r q p : Path} (hrq : r.IsAbove q) (hqp : q.IsAbove p) : r.IsAbove p :=
  ⟨hrq.root.trans hqp.root, hrq.parts.trans hqp.parts⟩

theorem isAbove_parent (p : Path) : p.parent.IsAbove p :=
  ⟨rfl, List.dropLast_prefix p.parts⟩

theorem Normal.of_isAbove {q p : Path} (hp : p.Normal) (hqp : q.IsAbove p) : q.Normal where
  root := hqp.root ▸ hp.root
  parts part hpart := hp.parts part (hqp.parts.subset hpart)

theorem isName_of_mem_partsOf {s part : String} (hpart : part ∈ partsOf s) : IsName part := by
  rw [partsOf, List.mem_filter] at hpart
  obtain ⟨hsplit, hkept⟩ := hpart
  simp only [Bool.and_eq_true, bne_iff_ne] at hkept
  exact ⟨(Text.lacks_of_mem_split '/' hsplit).1, hkept.1, hkept.2⟩

theorem normal_ofString (s : String) : (ofString s).Normal where
  root := by
    unfold ofString rootOf
    split
    · exact .inr (.inr rfl)
    · split
      · exact .inr (.inl rfl)
      · exact .inl rfl
  parts _ hpart := isName_of_mem_partsOf hpart

theorem Normal.join {p : Path} (hp : p.Normal) (s : String) : (p.join s).Normal := by
  unfold Path.join
  split
  · refine ⟨hp.root, fun part hpart => ?_⟩
    rcases List.mem_append.mp hpart with hpart | hpart
    · exact hp.parts part hpart
    · exact isName_of_mem_partsOf hpart
  · exact normal_ofString s

theorem Normal.foldl_join {p : Path} (hp : p.Normal) (texts : List String) :
    (texts.foldl Path.join p).Normal := by
  induction texts generalizing p with
  | nil => exact hp
  | cons first rest ih => exact ih (hp.join first)

theorem partsOf_append (s t : String) : partsOf (s ++ "/" ++ t) = partsOf s ++ partsOf t := by
  unfold partsOf
  have hsplit : Text.split '/' (s ++ "/" ++ t) = Text.split '/' s ++ Text.split '/' t :=
    Text.split_append '/' s t
  rw [hsplit, List.filter_append]

theorem partsOf_slash (s : String) : partsOf ("/" ++ s) = partsOf s :=
  partsOf_append "" s

/-- A text ends where a component of a path does. -/
def Divided (s t : String) : Prop :=
  s = "" ∨ Text.finishesWith "/" s = true ∨ t = "" ∨ Text.beginsWith "/" t = true

theorem partsOf_append_of_divided {s t : String} (h : Divided s t) :
    partsOf (s ++ t) = partsOf s ++ partsOf t := by
  rcases h with rfl | hslash | rfl | hslash
  · rw [String.empty_append]
    rfl
  · obtain ⟨front, rfl⟩ := Text.finishesWith_iff.mp hslash
    have hfront := partsOf_append front ""
    rw [String.append_empty] at hfront
    rw [partsOf_append, hfront, List.append_assoc]
    rfl
  · rw [String.append_empty]
    exact (List.append_nil _).symm
  · obtain ⟨rest, rfl⟩ := Text.beginsWith_iff.mp hslash
    rw [← String.append_assoc, partsOf_append, partsOf_slash]

theorem IsName.partsOf_eq {s : String} (hs : IsName s) : partsOf s = [s] := by
  rw [partsOf, Text.split_of_lacks '/' hs.lacks]
  simp [hs.ne_empty, hs.ne_dot]

theorem partsOf_intercalate {parts : List String} (hparts : ∀ part ∈ parts, IsName part) :
    partsOf ("/".intercalate parts) = parts := by
  induction parts with
  | nil => rfl
  | cons first rest ih =>
      obtain ⟨hfirst, hrest⟩ := List.forall_mem_cons.mp hparts
      cases rest with
      | nil => rw [String.intercalate_singleton, hfirst.partsOf_eq]
      | cons second more =>
          rw [String.intercalate_cons_cons, partsOf_append, hfirst.partsOf_eq, ih hrest,
            List.singleton_append]

theorem two_slashes_append (s : String) : "//" ++ s = "/" ++ ("/" ++ s) := by
  rw [← String.append_assoc]
  rfl

/-- A path reads back from its text. -/
theorem Normal.partsOf_text {p : Path} (hp : p.Normal) : partsOf p.text = p.parts := by
  have hparts := partsOf_intercalate hp.parts
  unfold text
  split
  · rename_i hempty
    simp only [Bool.and_eq_true, decide_eq_true_eq, List.isEmpty_iff] at hempty
    rw [hempty.2]
    decide +kernel
  · rcases hp.root with hroot | hroot | hroot
    · rw [hroot, String.empty_append, hparts]
    · rw [hroot, partsOf_slash, hparts]
    · rw [hroot, two_slashes_append, partsOf_slash, partsOf_slash, hparts]

theorem rootOf_eq_empty_iff {s : String} : rootOf s = "" ↔ Text.beginsWith "/" s = false := by
  unfold rootOf
  split
  · rename_i htwo
    rw [Bool.and_eq_true, Text.beginsWith_iff] at htwo
    obtain ⟨⟨rest, rfl⟩, -⟩ := htwo
    have hone : Text.beginsWith "/" ("//" ++ rest) = true :=
      Text.beginsWith_iff.mpr ⟨"/" ++ rest, two_slashes_append rest⟩
    simp [hone]
  · split
    · rename_i hone
      simp [hone]
    · rename_i hnone
      simpa using hnone

theorem exists_first_component (s : String) : ∃ first rest, s = first ++ rest ∧
    Text.Lacks '/' first ∧ (rest = "" ∨ Text.beginsWith "/" rest = true) := by
  rcases Text.lacks_or_eq_append_first '/' s with hlacks | ⟨first, rest, hfirst, hs⟩
  · exact ⟨s, "", String.append_empty.symm, hlacks, .inl rfl⟩
  · refine ⟨first, "/" ++ rest, ?_, hfirst, .inr (Text.beginsWith_iff.mpr ⟨rest, rfl⟩)⟩
    rw [hs, String.append_assoc]
    rfl

/-- A path ends in a component, which may be empty, behind a slash or at the beginning. -/
theorem exists_last_component (s : String) : ∃ front last, s = front ++ last ∧
    Text.Lacks '/' last ∧ (front = "" ∨ Text.finishesWith "/" front = true) := by
  rcases Text.lacks_or_eq_append '/' s with hlacks | ⟨front, last, hlast, hs⟩
  · exact ⟨"", s, String.empty_append.symm, hlacks, .inl rfl⟩
  · exact ⟨front ++ "/", last, hs, hlast, .inr (Text.finishesWith_iff.mpr ⟨front, rfl⟩)⟩

/-- The slashes at the front of a path. -/
def slashes (s : String) : List Char :=
  s.toList.takeWhile (· == '/')

theorem isPrefixOf_replicate (n : Nat) (cs : List Char) :
    (List.replicate n '/').isPrefixOf cs = decide (n ≤ (cs.takeWhile (· == '/')).length) := by
  induction n generalizing cs with
  | zero => simp
  | succ n ih =>
      cases cs with
      | nil => rfl
      | cons c rest =>
          by_cases hc : c = '/'
          · subst hc
            simp [List.replicate_succ, ih]
          · simp [List.replicate_succ, List.isPrefixOf, hc, Ne.symm hc]

/-- Paths with the same slashes at the front have the same root. -/
theorem rootOf_eq_of_slashes {s t : String} (h : slashes s = slashes t) : rootOf s = rootOf t := by
  have hsame (n : Nat) : Text.beginsWith (String.ofList (List.replicate n '/')) s =
      Text.beginsWith (String.ofList (List.replicate n '/')) t := by
    unfold slashes at h
    rw [Text.beginsWith, Text.beginsWith, String.toList_ofList, isPrefixOf_replicate, h,
      isPrefixOf_replicate]
  have hone : Text.beginsWith "/" s = Text.beginsWith "/" t := hsame 1
  have htwo : Text.beginsWith "//" s = Text.beginsWith "//" t := hsame 2
  have hthree : Text.beginsWith "///" s = Text.beginsWith "///" t := hsame 3
  rw [rootOf, hone, htwo, hthree, rootOf]

theorem beq_slash_of_head? {s : String} (hs : Text.beginsWith "/" s = false) :
    ∀ c ∈ s.toList.head?, (c == '/') = false := by
  intro c hc
  rw [beq_eq_false_iff_ne]
  rintro rfl
  have hbegins : Text.beginsWith (String.singleton '/') s = true :=
    Text.beginsWith_singleton_iff.mpr hc
  exact Bool.false_ne_true (hs.symm.trans hbegins)

/-- What follows a path does not change its root, unless it adds to slashes at the end. -/
theorem rootOf_append {s t : String} (hs : s ≠ "")
    (hslash : Text.finishesWith "/" s = true → Text.beginsWith "/" t = false) :
    rootOf (s ++ t) = rootOf s := by
  apply rootOf_eq_of_slashes
  rw [slashes, String.toList_append, List.takeWhile_append, slashes]
  split
  · rename_i hall
    have hwhole : s.toList.takeWhile (· == '/') = s.toList :=
      (List.takeWhile_prefix _).eq_of_length hall
    have hends : Text.finishesWith "/" s = true := by
      obtain ⟨front, last, rfl, hlast, hfront⟩ := exists_last_component s
      have hempty : last = "" := by
        rw [← String.toList_eq_nil_iff, List.eq_nil_iff_forall_not_mem]
        intro c hc
        have hmem : c ∈ (front ++ last).toList.takeWhile (· == '/') := by
          rw [hwhole, String.toList_append]
          exact List.mem_append_right _ hc
        have hslash : c = '/' := by simpa using List.all_eq_true.mp List.all_takeWhile c hmem
        exact hlast (hslash ▸ hc)
      subst hempty
      rw [String.append_empty] at hs ⊢
      exact hfront.resolve_left hs
    have hnone : ([] ++ t.toList).takeWhile (· == '/') = [] :=
      Text.takeWhile_append_of_stop (by simp) (beq_slash_of_head? (hslash hends))
    rw [List.nil_append] at hnone
    rw [hnone, List.append_nil, hwhole]
  · rfl

theorem rootOf_of_lacks {s : String} (hs : Text.Lacks '/' s) : rootOf s = "" := by
  rw [rootOf_eq_empty_iff, ← Bool.not_eq_true, Text.beginsWith_iff]
  rintro ⟨rest, rfl⟩
  simp [Text.Lacks] at hs

theorem IsName.beginsWith_append {s : String} (hs : IsName s) (t : String) :
    Text.beginsWith "/" (s ++ t) = false := by
  rw [← Bool.not_eq_true, Text.beginsWith_iff]
  rintro ⟨rest, heq⟩
  have hchars : s.toList ++ t.toList = '/' :: rest.toList := by
    rw [← String.toList_append, heq, String.toList_append]
    rfl
  cases hfirst : s.toList with
  | nil => exact hs.ne_empty (String.toList_eq_nil_iff.mp hfirst)
  | cons c more =>
      rw [hfirst, List.cons_append, List.cons.injEq] at hchars
      refine hs.lacks ?_
      rw [hfirst, hchars.1]
      exact List.mem_cons_self

theorem Normal.rootOf_text_eq_empty_iff {p : Path} (hp : p.Normal) :
    rootOf p.text = "" ↔ p.root = "" := by
  have hrooted (rest : String) : rootOf ("/" ++ rest) ≠ "" := by
    rw [Ne, rootOf_eq_empty_iff, Bool.not_eq_false, Text.beginsWith_iff]
    exact ⟨rest, rfl⟩
  rcases hp.root with hroot | hroot | hroot
  · refine iff_of_true ?_ hroot
    unfold text
    rw [hroot, rootOf_eq_empty_iff]
    cases hparts : p.parts with
    | nil => decide +kernel
    | cons first rest =>
        have hfirst : IsName first := hp.parts first (by simp [hparts])
        obtain ⟨more, hmore⟩ : ∃ more, "/".intercalate (first :: rest) = first ++ more := by
          cases rest with
          | nil => exact ⟨"", by simp⟩
          | cons second others => exact ⟨_, by rw [String.intercalate_cons_cons,
              String.append_assoc]⟩
        simpa [hmore] using hfirst.beginsWith_append more
  · refine iff_of_false ?_ (by simp [hroot])
    have htext : p.text = "/" ++ "/".intercalate p.parts := by simp [text, hroot]
    rw [htext]
    exact hrooted _
  · refine iff_of_false ?_ (by simp [hroot])
    have htext : p.text = "/" ++ ("/" ++ "/".intercalate p.parts) := by
      simp [text, hroot, two_slashes_append]
    rw [htext]
    exact hrooted _

theorem Normal.text_ne_empty {p : Path} (hp : p.Normal) : p.text ≠ "" := by
  intro htext
  have hroot : p.root = "" := by
    rw [← hp.rootOf_text_eq_empty_iff, htext]
    rfl
  have hparts : p.parts = [] := by
    rw [← hp.partsOf_text, htext]
    rfl
  simp [text, hroot, hparts] at htext

/-- A directory has no longer text than an entry of it, unless it is the working directory. -/
theorem utf8ByteSize_parent_le {p : Path} {above : List String} {name : String}
    (hparts : p.parts = above ++ [name]) :
    p.parent.text = "." ∨ p.parent.text.utf8ByteSize ≤ p.text.utf8ByteSize := by
  have hparent : p.parent = ⟨p.root, above⟩ := by simp [parent, hparts]
  by_cases hempty : p.root = "" ∧ above = []
  · left
    simp [hparent, text, hempty.1, hempty.2]
  · right
    have htext : p.text = p.root ++ "/".intercalate (above ++ [name]) := by simp [text, hparts]
    have htext' : p.parent.text = p.root ++ "/".intercalate above := by
      rw [hparent, text, if_neg (by simpa using hempty)]
    rw [htext, htext', String.utf8ByteSize_append, String.utf8ByteSize_append]
    apply Nat.add_le_add_left
    by_cases habove : above = []
    · simp [habove]
    · rw [String.intercalate_append_of_ne_nil habove (List.cons_ne_nil _ _),
        String.utf8ByteSize_append, String.utf8ByteSize_append]
      omega

theorem join_name (p : Path) {s : String} (hs : IsName s) :
    p.join s = ⟨p.root, p.parts ++ [s]⟩ := by
  rw [join, if_pos (rootOf_of_lacks hs.lacks), hs.partsOf_eq]

theorem foldl_join_names (p : Path) {names : List String} (hnames : ∀ name ∈ names, IsName name) :
    names.foldl join p = ⟨p.root, p.parts ++ names⟩ := by
  induction names generalizing p with
  | nil => rw [List.foldl_nil, List.append_nil]
  | cons name rest ih =>
      obtain ⟨hname, hrest⟩ := List.forall_mem_cons.mp hnames
      rw [List.foldl_cons, join_name p hname, ih _ hrest, List.append_assoc,
        List.singleton_append]

end ClassChart.Path
