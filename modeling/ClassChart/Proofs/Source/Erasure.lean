import ClassChart.Proofs.Java.Words
import ClassChart.Proofs.Source.Reading

/-!
Erasing class types.  Words with the mark of an annotation go, and what is left is read up to the
first type arguments, so the names of a class type are read in some layouts and not in others.
Which ones is decided by the blanks around its annotations and by the names with type arguments.
-/
namespace ClassChart.NameTable

open Text (Blanks isBlank)

/-- How one name of a class type is written: the blanks before it, its annotations with the
blanks after them, and its type arguments with the blanks around them. -/
structure PartLayout where
  lead : Blanks
  annotations : String
  gap : Blanks
  arguments : String
  trail : Blanks
  marked : annotations ≠ "" → annotations.toList.head? = some '@'
  opened : arguments ≠ "" → arguments.toList.head? = some '<'

namespace PartLayout

variable (p : PartLayout)

def before : String :=
  p.lead.text ++ p.annotations

def behind : String :=
  p.gap.text ++ p.arguments ++ p.trail.text

/-- The annotations stand apart: blanks separate them from what is before and behind them, unless
they stand at the very beginning, and all of their words have the mark. -/
def Apart (first : Bool) : Prop :=
  p.annotations = "" ∨
    (first = true ∨ p.lead.text ≠ "") ∧
      (∀ w ∈ Text.words p.annotations, Text.beginsWith "@" w = true) ∧
      ∀ c ∈ p.annotations.toList.getLast?, isBlank c = true

/-- Annotations leave nothing behind exactly if every word of them is one and a blank ends them. -/
theorem kept_annotations_eq_nil_iff (hannotations : p.annotations ≠ "") :
    Reading.kept .between p.annotations.toList = [] ∧
        Reading.after .between p.annotations.toList ≠ .dropping ↔
      (∀ w ∈ Text.words p.annotations, Text.beginsWith "@" w = true) ∧
        ∀ c ∈ p.annotations.toList.getLast?, isBlank c = true := by
  have hwords : (∀ w ∈ Text.words p.annotations, Text.beginsWith "@" w = true) ↔
      Reading.kept .between p.annotations.toList = [] := by
    rw [Reading.kept_between_eq_nil_iff, Text.words, List.forall_mem_map]
    simp [Text.beginsWith]
  rw [hwords]
  refine and_congr_right fun hkept => ?_
  rcases List.eq_nil_or_concat p.annotations.toList with hnil | ⟨front, last, hlast⟩
  · exact absurd (String.toList_eq_nil_iff.mp hnil) hannotations
  · rw [hlast, List.concat_eq_append] at hkept ⊢
    rw [Reading.after_concat_of_kept_eq_nil hkept]
    cases hblank : isBlank last <;> simp [hblank]

theorem kept_before_eq_nil_iff {reading : Reading} (hreading : reading ≠ .dropping) :
    reading.kept p.before.toList = [] ∧ reading.after p.before.toList ≠ .dropping ↔
      p.Apart (decide (reading = .between)) := by
  obtain ⟨hlead, hafter⟩ := reading.kept_blanks p.lead
  rw [before, String.toList_append, Reading.kept_append, Reading.after_append, hlead, hafter,
    List.nil_append, Apart]
  by_cases hempty : p.annotations = ""
  · simp only [hempty, true_or, iff_true]
    refine ⟨rfl, ?_⟩
    change (if p.lead.text = "" then reading else .between) ≠ .dropping
    split
    · exact hreading
    · decide
  · rw [or_iff_right hempty, ← p.kept_annotations_eq_nil_iff hempty]
    by_cases hbetween : reading = .between ∨ p.lead.text ≠ ""
    · have hstate : (if p.lead.text = "" then reading else .between) = Reading.between := by
        rcases hbetween with rfl | hlead
        · split <;> rfl
        · rw [if_neg hlead]
      rw [hstate]
      simp [hbetween]
    · -- The annotations continue the word before them, so their mark stays.
      rw [not_or, not_not] at hbetween
      obtain ⟨more, hmore⟩ := List.head?_eq_some_iff.mp (p.marked hempty)
      have hkeeping : reading = .keeping := by
        cases reading with
        | between => exact absurd rfl hbetween.1
        | keeping => rfl
        | dropping => exact absurd rfl hreading
      have hstep : Reading.keeping.step '@' = .keeping := by decide
      have hkept : Reading.keeping.kept ('@' :: more) ≠ [] := by simp [Reading.kept, hstep]
      rw [if_pos hbetween.2, hmore, hkeeping]
      exact iff_of_false (fun h => hkept h.1) (by simp [hbetween.2])

/-- Nothing of the blanks behind a name stays, and type arguments end what is read. -/
theorem cut_kept_behind :
    (p.arguments = "" → ∃ next : Reading, next ≠ .dropping ∧
      ∀ more, Reading.keeping.kept (p.behind.toList ++ more) = next.kept more) ∧
    (p.arguments ≠ "" → ∀ more, cut (Reading.keeping.kept (p.behind.toList ++ more)) = []) := by
  obtain ⟨hgap, hafter⟩ := Reading.keeping.kept_blanks p.gap
  have hstate : (if p.gap.text = "" then .keeping else .between) ≠ Reading.dropping := by
    split <;> decide
  rw [← hafter] at hstate
  simp only [behind, String.toList_append, List.append_assoc, Reading.kept_append, hgap,
    List.nil_append]
  constructor
  · intro hnone
    obtain ⟨htrail, hend⟩ := (Reading.keeping.after p.gap.text.toList).kept_blanks p.trail
    refine ⟨(Reading.keeping.after p.gap.text.toList).after p.trail.text.toList, ?_, fun more => ?_⟩
    · rw [hend]
      split
      · exact hstate
      · decide
    · simp only [hnone, String.toList_empty, Reading.kept, Reading.after, List.foldl_nil,
        List.nil_append]
      rw [← Reading.after, htrail, List.nil_append]
  · intro hsome more
    obtain ⟨inner, hinner⟩ := List.head?_eq_some_iff.mp (p.opened hsome)
    have hstep : (Reading.keeping.after p.gap.text.toList).step '<' = .keeping := by
      revert hstate
      cases Reading.keeping.after p.gap.text.toList <;> decide
    rw [hinner, Reading.kept, if_pos hstep]
    rfl

end PartLayout

/-- A name of a class type as it is written. -/
structure TypePart where
  layout : PartLayout
  name : Java.Word

def TypePart.text (t : TypePart) : String :=
  t.layout.before ++ t.name.text ++ t.layout.behind

/-- A class type as it is written. -/
def written (ts : List TypePart) : String :=
  ".".intercalate (ts.map TypePart.text)

/-- The names of a class type. -/
def dotted (ts : List TypePart) : String :=
  ".".intercalate (ts.map (·.name.text))

/-- The parts up to the first that has type arguments. -/
def upToArguments : List TypePart → List TypePart
  | [] => []
  | t :: rest => t :: if t.layout.arguments = "" then upToArguments rest else []

/-- What stands behind the first part. -/
def later (ts : List TypePart) : List Char :=
  ts.flatMap fun t => '.' :: t.text.toList

theorem toList_intercalate_cons (t : TypePart) (ts : List TypePart) (f : TypePart → String) :
    (".".intercalate ((t :: ts).map f)).toList =
      (f t).toList ++ ts.flatMap fun u => '.' :: (f u).toList := by
  induction ts generalizing t with
  | nil => simp
  | cons u rest ih =>
      rw [List.map_cons, List.map_cons, String.intercalate_cons_cons, ← List.map_cons,
        String.toList_append, ih, List.flatMap_cons]
      simp

namespace TypePart

variable (t : TypePart)

theorem name_plain : ∀ c ∈ t.name.text.toList, isBlank c = false ∧ c ≠ '@' := by
  intro c hc
  refine ⟨t.name.isBlank_eq_false hc, ?_⟩
  rintro rfl
  exact t.name.lacks (by decide) (by decide) hc

/-- What stays of a part: what is left of its annotations, its name, and what is left of the
rest. -/
theorem kept_text {reading : Reading} (hafter : reading.after t.layout.before.toList ≠ .dropping)
    (more : List Char) : reading.kept (t.text.toList ++ more) =
      reading.kept t.layout.before.toList ++
        (t.name.text.toList ++ Reading.keeping.kept (t.layout.behind.toList ++ more)) := by
  obtain ⟨hname, hkeeping⟩ := (Reading.kept_of_word _
    (mt String.toList_eq_nil_iff.mp t.name.nonempty) t.name_plain).1 hafter
  simp only [text, String.toList_append, List.append_assoc, Reading.kept_append, hname, hkeeping]

end TypePart

/-- The annotations of all parts stand apart. -/
def Separated : Bool → List PartLayout → Prop
  | _, [] => True
  | first, p :: rest => p.Apart first ∧ Separated false rest

/-- No type arguments stand before the last name. -/
def ArgumentsLast (ps : List PartLayout) : Prop :=
  ∀ p ∈ ps.dropLast, p.arguments = ""

theorem Reading.kept_dot {reading : Reading} (hreading : reading ≠ .dropping) (cs : List Char) :
    reading.kept ('.' :: cs) = '.' :: keeping.kept cs := by
  have hstep : reading.step '.' = .keeping := by
    revert hreading
    cases reading <;> decide
  rw [kept, if_pos hstep, hstep]

/-- The names in a class type, each after a dot. -/
def dottedLater (ts : List TypePart) : List Char :=
  ts.flatMap fun t => '.' :: t.name.text.toList

/-- What is read of a part whose annotations stand apart, and of what follows it. -/
theorem TypePart.cut_kept_text (t : TypePart) (reading : Reading) (hreading : reading ≠ .dropping)
    (hapart : t.layout.Apart (decide (reading = .between))) (more : List Char) :
    cut (reading.kept (t.text.toList ++ more)) =
      t.name.text.toList ++ cut (Reading.keeping.kept (t.layout.behind.toList ++ more)) := by
  obtain ⟨hkept, hafter⟩ := (t.layout.kept_before_eq_nil_iff hreading).mpr hapart
  have hname : '<' ∉ t.name.text.toList := t.name.lacks (by decide) (by decide)
  rw [t.kept_text hafter, hkept, List.nil_append, cut_append hname]

theorem cut_kept_behind_later (p : PartLayout) {ts : List TypePart}
    (hts : ∀ next : Reading, next ≠ .dropping →
      cut (next.kept (later ts)) = dottedLater (upToArguments ts)) :
    cut (Reading.keeping.kept (p.behind.toList ++ later ts)) =
      dottedLater (if p.arguments = "" then upToArguments ts else []) := by
  split
  · rename_i harguments
    obtain ⟨next, hnext, hmore⟩ := p.cut_kept_behind.1 harguments
    rw [hmore, hts next hnext]
  · rename_i harguments
    exact p.cut_kept_behind.2 harguments _

/-- After the first part, the parts up to the first type arguments are kept.  The induction is on
the parts. -/
theorem cut_kept_later {ts : List TypePart} (hts : Separated false (ts.map (·.layout)))
    {reading : Reading} (hreading : reading ≠ .dropping) :
    cut (reading.kept (later ts)) = dottedLater (upToArguments ts) := by
  induction ts generalizing reading with
  | nil => rfl
  | cons t rest ih =>
      obtain ⟨hapart, hrest⟩ := hts
      rw [later, List.flatMap_cons, List.cons_append, Reading.kept_dot hreading, ← later, cut_dot,
        t.cut_kept_text .keeping (by decide) hapart,
        cut_kept_behind_later t.layout fun _ => ih hrest, upToArguments]
      rfl

theorem toList_dotted_cons (t : TypePart) (ts : List TypePart) :
    (dotted (t :: ts)).toList = t.name.text.toList ++ dottedLater ts :=
  toList_intercalate_cons t ts (·.name.text)

theorem toList_written_cons (t : TypePart) (ts : List TypePart) :
    (written (t :: ts)).toList = t.text.toList ++ later ts :=
  toList_intercalate_cons t ts TypePart.text

/-- If the annotations stand apart, the names up to the first type arguments are read. -/
theorem erase_written {ts : List TypePart} (hts : Separated true (ts.map (·.layout))) :
    erase (written ts) = dotted (upToArguments ts) := by
  cases ts with
  | nil => rfl
  | cons t rest =>
      obtain ⟨hapart, hrest⟩ := hts
      apply String.toList_inj.mp
      rw [erase_eq, String.toList_ofList, toList_written_cons,
        t.cut_kept_text .between (by decide) hapart,
        cut_kept_behind_later t.layout fun _ => cut_kept_later hrest, upToArguments,
        toList_dotted_cons]

theorem argumentsLast_cons {p : PartLayout} {rest : List PartLayout} :
    ArgumentsLast (p :: rest) ↔ (p.arguments ≠ "" → rest = []) ∧ ArgumentsLast rest := by
  cases rest with
  | nil => simp [ArgumentsLast]
  | cons q more =>
      rw [ArgumentsLast, List.dropLast_cons_cons, List.forall_mem_cons]
      simp [ArgumentsLast]

/-- All names are read exactly if no type arguments stand before the last. -/
theorem dottedLater_upToArguments_iff (p : PartLayout) (ts : List TypePart) :
    dottedLater (if p.arguments = "" then upToArguments ts else []) = dottedLater ts ↔
      ArgumentsLast (p :: ts.map (·.layout)) := by
  induction ts generalizing p with
  | nil => simp [upToArguments, ArgumentsLast]
  | cons t rest ih =>
      rw [argumentsLast_cons, List.map_cons, ← ih]
      by_cases harguments : p.arguments = ""
      · simp [harguments, upToArguments, dottedLater]
      · simp [harguments, dottedLater]

theorem dotted_upToArguments_iff (ts : List TypePart) :
    dotted (upToArguments ts) = dotted ts ↔ ArgumentsLast (ts.map (·.layout)) := by
  cases ts with
  | nil => simp [upToArguments, ArgumentsLast]
  | cons t rest =>
      rw [← String.toList_inj, upToArguments, toList_dotted_cons, toList_dotted_cons,
        List.append_cancel_left_eq, List.map_cons, dottedLater_upToArguments_iff]

section

variable (name : Nat → Java.Word)

/-- Parts of the same name everywhere. -/
def uniform (n : Nat) (ps : List PartLayout) : List TypePart :=
  ps.map fun p => ⟨p, name n⟩

/-- What is read of the later parts. -/
def readLater (reading : Reading) (ps : List PartLayout) (n : Nat) : List Char :=
  cut (reading.kept (later (uniform name n ps)))

/-- What is read of a part and the later ones. -/
def readFrom (reading : Reading) (p : PartLayout) (ps : List PartLayout) (n : Nat) : List Char :=
  cut (reading.kept ((TypePart.text ⟨p, name n⟩).toList ++ later (uniform name n ps)))

/-- How many names are read, of `n + 1` characters each, and how many other characters. -/
def Counts (read : Nat → List Char) (names others : Nat) : Prop :=
  ∀ n, (read n).length = names * (n + 1) + others

/-- If all of the later names are read, so are the dots before them, and if nothing else is, they
are written as they should. -/
def CountsLater (ps : List PartLayout) : Prop :=
  ∀ reading, ∃ names others, Counts (readLater name reading ps) names others ∧ names ≤ ps.length ∧
    (reading ≠ .dropping → names = ps.length → ps.length ≤ others ∧
      (others = ps.length → Separated false ps ∧ ArgumentsLast ps))

theorem Counts.cut_append {read : Nat → List Char} {names others : Nat}
    (hread : Counts (fun n => cut (read n)) names others) (cs : List Char) :
    ∃ names' others', Counts (fun n => cut (cs ++ read n)) names' others' ∧ names' ≤ names := by
  by_cases hcut : '<' ∈ cs
  · refine ⟨0, (cut cs).length, fun n => ?_, Nat.zero_le _⟩
    dsimp only
    rw [cut_append_of_mem hcut, Nat.zero_mul, Nat.zero_add]
  · refine ⟨names, cs.length + others, fun n => ?_, le_rfl⟩
    have hlength := hread n
    dsimp only at hlength ⊢
    rw [NameTable.cut_append hcut, List.length_append, hlength]
    omega

variable {name} {ps : List PartLayout} {p : PartLayout} {reading : Reading}

/-- A name that continues the annotations before it goes with them. -/
theorem counts_readFrom_of_dropping (hps : CountsLater name ps)
    (hafter : reading.after p.before.toList = .dropping) :
    ∃ names others, Counts (readFrom name reading p ps) names others ∧ names ≤ ps.length := by
  obtain ⟨names, others, hcounts, hnames, -⟩ := hps (Reading.dropping.after p.behind.toList)
  obtain ⟨names', others', hcounts', hle⟩ := Counts.cut_append hcounts
    (reading.kept p.before.toList ++ Reading.dropping.kept p.behind.toList)
  refine ⟨names', others', fun n => ?_, hle.trans hnames⟩
  obtain ⟨hname, hdropping⟩ := (Reading.kept_of_word _
    (mt String.toList_eq_nil_iff.mp (name n).nonempty) (TypePart.name_plain ⟨p, name n⟩)).2 hafter
  rw [hafter] at hname hdropping
  rw [← hcounts' n, readFrom, TypePart.text]
  simp only [String.toList_append, List.append_assoc, Reading.kept_append, hafter, hname, hdropping,
    List.nil_append]

/-- A part adds at most one name to what is read.  If all names are read, so is a dot for each of
the later ones, and if nothing else is, the parts are written as they should be. -/
theorem counts_readFrom (hname : ∀ n, (name n).text.toList.length = n + 1)
    (hps : CountsLater name ps) (p : PartLayout) (reading : Reading) :
    ∃ names others, Counts (readFrom name reading p ps) names others ∧ names ≤ ps.length + 1 ∧
      (reading ≠ .dropping → names = ps.length + 1 → ps.length ≤ others ∧
        (others = ps.length →
          Separated (decide (reading = .between)) (p :: ps) ∧ ArgumentsLast (p :: ps))) := by
  by_cases hafter : reading.after p.before.toList = .dropping
  · obtain ⟨names, others, hcounts, hnames⟩ := counts_readFrom_of_dropping hps hafter
    exact ⟨names, others, hcounts, by omega, by omega⟩
  by_cases hcut : '<' ∈ reading.kept p.before.toList
  · refine ⟨0, (cut (reading.kept p.before.toList)).length, fun n => ?_, by omega, by omega⟩
    rw [readFrom, TypePart.kept_text ⟨p, name n⟩ hafter, cut_append_of_mem hcut]
    simp
  have hread (n : Nat) : (readFrom name reading p ps n).length =
      (reading.kept p.before.toList).length + (n + 1 +
        (cut (Reading.keeping.kept (p.behind.toList ++ later (uniform name n ps)))).length) := by
    have hless : '<' ∉ (name n).text.toList := (name n).lacks (by decide) (by decide)
    rw [readFrom, TypePart.kept_text ⟨p, name n⟩ hafter, cut_append hcut, cut_append hless,
      List.length_append, List.length_append, hname]
  have hapart (hreading : reading ≠ .dropping) (hnone : (reading.kept p.before.toList).length = 0) :
      p.Apart (decide (reading = .between)) :=
    (p.kept_before_eq_nil_iff hreading).mp ⟨List.length_eq_zero_iff.mp hnone, hafter⟩
  by_cases harguments : p.arguments = ""
  · obtain ⟨next, hnext, hmore⟩ := p.cut_kept_behind.1 harguments
    obtain ⟨names, others, hcounts, hnames, hlater⟩ := hps next
    refine ⟨names + 1, (reading.kept p.before.toList).length + others, fun n => ?_, by omega, ?_⟩
    · have hlength := hcounts n
      rw [readLater] at hlength
      rw [hread, hmore, hlength, Nat.add_mul]
      omega
    · intro hreading hall
      obtain ⟨hdots, hwritten⟩ := hlater hnext (by omega)
      refine ⟨by omega, fun hothers => ?_⟩
      obtain ⟨hseparated, hlast⟩ := hwritten (by omega)
      exact ⟨⟨hapart hreading (by omega), hseparated⟩,
        argumentsLast_cons.mpr ⟨fun h => absurd harguments h, hlast⟩⟩
  · refine ⟨1, (reading.kept p.before.toList).length, fun n => ?_, by omega, ?_⟩
    · rw [hread, p.cut_kept_behind.2 harguments, List.length_nil]
      omega
    · intro hreading hall
      obtain rfl : ps = [] := List.length_eq_zero_iff.mp (by omega)
      exact ⟨by simp, fun hothers => ⟨⟨hapart hreading (by simpa using hothers), trivial⟩,
        argumentsLast_cons.mpr ⟨fun _ => rfl, by simp [ArgumentsLast]⟩⟩⟩

theorem countsLater (hname : ∀ n, (name n).text.toList.length = n + 1) (ps : List PartLayout) :
    CountsLater name ps := by
  induction ps with
  | nil =>
      intro reading
      refine ⟨0, 0, fun n => ?_, le_rfl, fun _ _ => ⟨le_rfl, fun _ => ⟨trivial, ?_⟩⟩⟩
      · simp [readLater, uniform, later, Reading.kept, cut]
      · simp [ArgumentsLast]
  | cons p rest ih =>
      intro reading
      have hlater (n : Nat) : later (uniform name n (p :: rest)) =
          '.' :: ((TypePart.text ⟨p, name n⟩).toList ++ later (uniform name n rest)) := rfl
      by_cases hreading : reading = .dropping
      · obtain ⟨names, others, hcounts, hnames, -⟩ := counts_readFrom hname ih p .dropping
        refine ⟨names, others, fun n => ?_, hnames, fun h => absurd hreading h⟩
        rw [← hcounts n, readLater, hlater, hreading]
        rfl
      · obtain ⟨names, others, hcounts, hnames, hall⟩ := counts_readFrom hname ih p .keeping
        refine ⟨names, others + 1, fun n => ?_, hnames, fun _ hsame => ?_⟩
        · have hlength := hcounts n
          rw [readFrom] at hlength
          rw [readLater, hlater, Reading.kept_dot hreading, cut_dot, List.length_cons, hlength]
          omega
        · obtain ⟨hdots, hwritten⟩ := hall (by decide) hsame
          rw [List.length_cons]
          exact ⟨by omega, fun hothers => hwritten (by omega)⟩

/-- If all names are read whatever they are, the parts are written as they should. -/
theorem separated_of_erase_written (hname : ∀ n, (name n).text.toList.length = n + 1)
    (hall : ∀ n, erase (written (uniform name n ps)) = dotted (uniform name n ps)) :
    Separated true ps ∧ ArgumentsLast ps := by
  cases ps with
  | nil => exact ⟨trivial, by simp [ArgumentsLast]⟩
  | cons p rest =>
      obtain ⟨names, others, hcounts, -, hwritten⟩ :=
        counts_readFrom hname (countsLater hname rest) p .between
      have hlength (n : Nat) :
          names * (n + 1) + others = (rest.length + 1) * (n + 1) + rest.length := by
        have hlater : (dottedLater (uniform name n rest)).length = rest.length * (n + 2) := by
          simp [dottedLater, uniform, hname, List.flatMap_map]
        have hdotted : (dotted (uniform name n (p :: rest))).toList.length =
            n + 1 + rest.length * (n + 2) := by
          rw [uniform, List.map_cons, ← uniform, toList_dotted_cons, List.length_append, hlater,
            hname]
        have hread : (readFrom name .between p rest n).length =
            (erase (written (uniform name n (p :: rest)))).toList.length := by
          rw [erase_eq, String.toList_ofList, uniform, List.map_cons, ← uniform,
            toList_written_cons, readFrom]
        rw [← hcounts n, hread, hall, hdotted]
        simp only [Nat.add_mul, Nat.mul_add]
        omega
      have hzero := hlength 0
      have hone := hlength 1
      exact (hwritten (by decide) (by omega)).2 (by omega)

end

theorem dotted_plain {ts : List TypePart} {c : Char} (hc : c ∈ (dotted ts).toList) :
    isBlank c = false ∧ c ≠ '@' ∧ c ≠ '<' := by
  have hname (t : TypePart) {c : Char} (hc : c ∈ t.name.text.toList) :
      isBlank c = false ∧ c ≠ '@' ∧ c ≠ '<' := by
    refine ⟨t.name.isBlank_eq_false hc, ?_, ?_⟩
    · exact (t.name_plain c hc).2
    · rintro rfl
      exact t.name.lacks (by decide) (by decide) hc
  cases ts with
  | nil => simp [dotted] at hc
  | cons t rest =>
      rw [toList_dotted_cons, List.mem_append] at hc
      rcases hc with hc | hc
      · exact hname t hc
      · obtain ⟨u, -, hc⟩ := List.mem_flatMap.mp hc
        rcases List.mem_cons.mp hc with rfl | hc
        · decide
        · exact hname u hc

theorem erase_dotted (ts : List TypePart) : erase (dotted ts) = dotted ts := by
  by_cases hempty : dotted ts = ""
  · rw [hempty]
    rfl
  · obtain ⟨hkept, -⟩ := (Reading.kept_of_word .between
      (mt String.toList_eq_nil_iff.mp hempty)
      fun c hc => ⟨(dotted_plain hc).1, (dotted_plain hc).2.1⟩).1 (by decide)
    have hless : '<' ∉ (dotted ts).toList := fun hc => (dotted_plain hc).2.2 rfl
    rw [erase_eq, hkept, ← List.append_nil (dotted ts).toList, cut_append hless, cut,
      List.takeWhile_nil, List.append_nil, String.ofList_toList]

/-- Types that are erased to one name are resolved alike. -/
theorem resolve_of_erase_eq {table : NameTable} {place : Place} {s : String} {ts : List TypePart}
    (hts : ts ≠ []) (hs : erase s = dotted ts) :
    table.resolve place s = table.resolve place (dotted ts) := by
  obtain ⟨t, rest, rfl⟩ := List.exists_cons_of_ne_nil hts
  have hempty : dotted (t :: rest) ≠ "" := by
    rw [Ne, ← String.toList_eq_nil_iff, toList_dotted_cons]
    simp [t.name.nonempty]
  have hresolve (u : String) (hu : erase u = dotted (t :: rest)) : table.resolve place u =
      if primitives.contains (dotted (t :: rest)) then dotted (t :: rest)
      else table.lookUp place (dotted (t :: rest)) := by
    rw [resolve, hu, if_neg (by simpa using hempty)]
  rw [hresolve s hs, hresolve _ (erase_dotted _)]

/-- All names of class types of one layout are read exactly if the annotations stand apart and no
type arguments stand before the last name.  If only the annotations stand apart, the names up to
the first type arguments are read, and the type is resolved as if there were no others. -/
theorem erase_written_eq_dotted_iff (ps : List PartLayout) :
    ((∀ ts : List TypePart, ts.map (·.layout) = ps → erase (written ts) = dotted ts) ↔
      Separated true ps ∧ ArgumentsLast ps) ∧
    (Separated true ps → ∀ ts : List TypePart, ts.map (·.layout) = ps →
      erase (written ts) = dotted (upToArguments ts) ∧
      (erase (written ts) = dotted ts ↔ ArgumentsLast ps) ∧
      (ts ≠ [] → ∀ (table : NameTable) (place : Place),
        table.resolve place (written ts) = table.resolve place (dotted (upToArguments ts)))) := by
  have hread {ts : List TypePart} (hlayout : ts.map (·.layout) = ps) (hps : Separated true ps) :
      erase (written ts) = dotted (upToArguments ts) :=
    erase_written (hlayout ▸ hps)
  have hlast {ts : List TypePart} (hlayout : ts.map (·.layout) = ps) :
      dotted (upToArguments ts) = dotted ts ↔ ArgumentsLast ps := by
    rw [dotted_upToArguments_iff, hlayout]
  refine ⟨⟨fun hall => ?_, fun hps ts hlayout => ?_⟩, fun hps ts hlayout => ⟨?_, ?_, ?_⟩⟩
  · have hword (n : Nat) :
        ∃ w : Java.Word, w.text = String.ofList (List.replicate (n + 1) 'a') := by
      refine Java.exists_word (by simp) fun c hc => ?_
      rw [List.eq_of_mem_replicate hc]
      exact .inl (by decide)
    choose name hname using hword
    have hlength (n : Nat) : (name n).text.toList.length = n + 1 := by
      rw [hname]
      simp
    refine separated_of_erase_written hlength fun n => ?_
    exact hall _ (by rw [uniform, List.map_map]; exact List.map_id ps)
  · rw [hread hlayout hps.1, (hlast hlayout).mpr hps.2]
  · exact hread hlayout hps
  · rw [hread hlayout hps, hlast hlayout]
  · intro hts table place
    refine resolve_of_erase_eq ?_ (hread hlayout hps)
    cases ts with
    | nil => contradiction
    | cons t rest => simp [upToArguments]

theorem erase_annotated_entry : ∃ ts : List TypePart,
    written ts = "@A @B(1) Map . Entry <K, V>" ∧ Separated true (ts.map (·.layout)) ∧
      ArgumentsLast (ts.map (·.layout)) ∧ erase (written ts) = "Map.Entry" := by
  have hspace : ∀ c ∈ " ".toList, isBlank c = true := List.all_eq_true.mp rfl
  have hnone : ∀ c ∈ "".toList, isBlank c = true := by simp
  have hmap : ∀ c ∈ "Map".toList, Java.isIdentPart c = true ∨ c = '-' := by
    simp
    decide
  have hentry : ∀ c ∈ "Entry".toList, Java.isIdentPart c = true ∨ c = '-' := by
    simp
    decide
  let first : TypePart :=
    ⟨⟨⟨"", hnone⟩, "@A @B(1) ", ⟨"", hnone⟩, "", ⟨" ", hspace⟩, fun _ => rfl,
        fun h => absurd rfl h⟩,
      ⟨"Map", by decide, hmap⟩⟩
  let second : TypePart :=
    ⟨⟨⟨" ", hspace⟩, "", ⟨" ", hspace⟩, "<K, V>", ⟨"", hnone⟩, fun h => absurd rfl h,
        fun _ => rfl⟩,
      ⟨"Entry", by decide, hentry⟩⟩
  have hwords : ∀ w ∈ Text.words "@A @B(1) ", Text.beginsWith "@" w = true := by decide
  have hlast : ∀ c ∈ "@A @B(1) ".toList.getLast?, isBlank c = true := by
    simp
    decide
  have hapart : Separated true ([first, second].map (·.layout)) :=
    ⟨.inr ⟨.inl rfl, hwords, hlast⟩, .inl rfl, trivial⟩
  have harguments : ArgumentsLast ([first, second].map (·.layout)) :=
    argumentsLast_cons.mpr ⟨fun h => absurd rfl h, argumentsLast_cons.mpr ⟨fun _ => rfl, by
      simp [ArgumentsLast]⟩⟩
  refine ⟨[first, second], rfl, hapart, harguments, ?_⟩
  exact ((erase_written_eq_dotted_iff _).1.mpr ⟨hapart, harguments⟩ _ rfl).trans rfl

/-- Names behind type arguments are lost, and annotations that do not stand apart are taken for
names or take names with them. -/
theorem erase_loses_names :
    erase "Outer<T>.Inner<U>" = "Outer" ∧
      resolve ⟨["Outer", "Outer.Inner"], []⟩ {} "Outer<T>.Inner<U>" = "Outer" ∧
      erase "java.util.@A List" = "java.util.@AList" ∧ erase "@A()List" = "" ∧
      erase "@A(x = 1) List" = "=1)List" := by
  decide +kernel

end ClassChart.NameTable
