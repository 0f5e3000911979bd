import ClassChart.Diagram.MemberBlock
import ClassChart.Proofs.Text

/-!
What is written does not depend on what was written before, apart from the end of
the last line.  A function on writers appends if a text put before everything
passes through it and the nesting is as before.  All that boxes and lines are made
of is a composition of a few steps, which append, and which write no character that
is not in the texts given to them.
-/
namespace ClassChart

namespace Writer

/-- The writer with a text put before all that it has written. -/
def prepend (s : String) (w : Writer) : Writer :=
  { w with text := s ++ w.text }

/-- A writer with the same nesting that has written nothing. -/
def margin (w : Writer) : Writer :=
  { indent := w.indent, level := w.level }

/-- Whether a line is about to begin. -/
def AtMargin (w : Writer) : Prop :=
  w = w.margin.prepend w.text

/-- Writing at the end, at the nesting that there is. -/
structure Appends (f : Writer → Writer) : Prop where
  prepend : ∀ s w, f (w.prepend s) = (f w).prepend s
  margin : ∀ w, (f w).margin = w.margin

@[simp]
theorem text_prepend (s : String) (w : Writer) : (w.prepend s).text = s ++ w.text := rfl

theorem atMargin_newline (w : Writer) : w.newline.AtMargin := by
  simp [AtMargin, margin, prepend, newline]

namespace Appends

theorem id : Appends (fun w => w) :=
  ⟨fun _ _ => rfl, fun _ => rfl⟩

theorem comp {f g : Writer → Writer} (hf : Appends f) (hg : Appends g) :
    Appends (fun w => g (f w)) := by
  constructor
  · intro s w
    rw [hf.prepend, hg.prepend]
  · intro w
    rw [hg.margin, hf.margin]

theorem foldl {α : Type} {f : α → Writer → Writer} (hf : ∀ a, Appends (f a)) (as : List α) :
    Appends (fun w => as.foldl (fun w a => f a w) w) := by
  induction as with
  | nil => exact id
  | cons a rest ih => exact comp (hf a) ih

theorem put (piece : String) : Appends (·.put piece) := by
  constructor
  · intro s w
    rw [Writer.put, Writer.put]
    split
    · rfl
    · simp only [Writer.prepend, String.append_assoc]
      rfl
  · intro w
    rw [Writer.put]
    split <;> rfl

theorem newline : Appends Writer.newline := by
  constructor
  · intro s w
    simp [Writer.newline, Writer.prepend, String.append_assoc]
  · intro w
    rfl

theorem append (s : String) : Appends (·.append s) := by
  simp only [Writer.append]
  split
  · exact id
  · rename_i first rest _
    exact comp (put first) (foldl (fun line => comp newline (put line)) rest)

theorem whitespace : Appends Writer.whitespace := by
  constructor
  · intro s w
    have hstate : (w.prepend s).atLineStart = w.atLineStart ∧
        (w.prepend s).lastChar = w.lastChar := ⟨rfl, rfl⟩
    rw [Writer.whitespace, Writer.whitespace, hstate.1, hstate.2]
    split
    · rfl
    · exact (append " ").prepend s w
  · intro w
    rw [Writer.whitespace]
    split
    · rfl
    · exact (append " ").margin w

/-- A block ends at the nesting at which it began. -/
theorem indented {block : Writer → Writer} (hblock : Appends block) :
    Appends (·.indented block) := by
  constructor
  · intro s w
    change (block (w.deeper.prepend s)).shallower = _
    rw [hblock.prepend]
    rfl
  · intro w
    have hinner := hblock.margin w.deeper
    simp only [Writer.margin, Writer.mk.injEq, and_true] at hinner
    simp only [Writer.indented, Writer.shallower, Writer.margin, hinner]
    rfl

end Appends

/-- From the start of a line on, a text is written as it is on an empty page. -/
theorem AtMargin.text_eq {w : Writer} (hw : w.AtMargin) {f : Writer → Writer}
    (hf : Appends f) : (f w).text = w.text ++ (f w.margin).text := by
  calc (f w).text = (f (w.margin.prepend w.text)).text := by rw [← hw]
    _ = ((f w.margin).prepend w.text).text := by rw [hf.prepend]
    _ = w.text ++ (f w.margin).text := rfl

/-- What is written stands after what there was. -/
theorem Appends.exists_text_eq {f : Writer → Writer} (hf : Appends f) (w : Writer) :
    ∃ more, (f w).text = w.text ++ more := by
  have hw : w = { w with text := "" }.prepend w.text := by simp [Writer.prepend]
  refine ⟨(f { w with text := "" }).text, ?_⟩
  conv => lhs; rw [hw, hf.prepend]
  rfl

/-- A function that writes nothing but texts with a property. -/
inductive Writes (p : String → Prop) : (Writer → Writer) → Prop
  | id : Writes p fun w => w
  | comp {f g : Writer → Writer} (hf : Writes p f) (hg : Writes p g) :
      Writes p fun w => g (f w)
  | append {s : String} (hs : p s) : Writes p (·.append s)
  | newline : Writes p Writer.newline
  | whitespace : Writes p Writer.whitespace
  | indented {block : Writer → Writer} (hblock : Writes p block) :
      Writes p (·.indented block)

theorem lacks_copies {c : Char} {s : String} (hs : Text.Lacks c s) (n : Nat) :
    Text.Lacks c (copies n s) := by
  rw [copies, Text.lacks_join]
  intro t ht
  rw [List.eq_of_mem_replicate ht]
  exact hs

/-- Neither what is written nor the indentation has the character. -/
structure Lacks (c : Char) (w : Writer) : Prop where
  text : Text.Lacks c w.text
  indent : Text.Lacks c w.indent

section

variable {c : Char} {w : Writer} (h : w.Lacks c)

include h

theorem Lacks.put {piece : String} (hpiece : Text.Lacks c piece) : (w.put piece).Lacks c := by
  rw [Writer.put]
  split
  · exact h
  · refine ⟨?_, h.indent⟩
    rw [Text.lacks_append, Text.lacks_append]
    refine ⟨⟨h.text, ?_⟩, hpiece⟩
    split
    · exact lacks_copies h.indent w.level
    · exact List.not_mem_nil

theorem Lacks.newline (hc : c ≠ '\n') : w.newline.Lacks c :=
  ⟨Text.lacks_append.mpr ⟨h.text, by simpa [Text.Lacks] using hc⟩, h.indent⟩

theorem Lacks.append (hc : c ≠ '\n') {s : String} (hs : Text.Lacks c s) :
    (w.append s).Lacks c := by
  have hline : ∀ line ∈ Text.lines s, Text.Lacks c line :=
    fun line hline => (Text.lacks_of_mem_split '\n' hline).2 c hs
  rw [Writer.append]
  split
  · exact h
  · rename_i first rest hlines
    rw [hlines, List.forall_mem_cons] at hline
    have hfold : ∀ lines : List String, (∀ line ∈ lines, Text.Lacks c line) → ∀ w : Writer,
        w.Lacks c → (lines.foldl (fun w line => w.newline.put line) w).Lacks c := by
      intro lines hlines
      induction lines with
      | nil => exact fun w hw => hw
      | cons line more ih =>
          rw [List.forall_mem_cons] at hlines
          exact fun w hw => ih hlines.2 _ ((hw.newline hc).put hlines.1)
    exact hfold rest hline.2 _ (h.put hline.1)

theorem Lacks.whitespace (hc : Text.isBlank c = false) : w.whitespace.Lacks c := by
  have hspace : Text.Lacks c " " := by
    simpa [Text.Lacks] using Text.ne_of_isBlank hc (d := ' ') (by decide)
  rw [Writer.whitespace]
  split
  · exact h
  · exact h.append (Text.ne_of_isBlank hc (by decide)) hspace

end

namespace Writes

variable {p : String → Prop}

/-- Which branch is taken may depend on the condition. -/
theorem ite {f g : Writer → Writer} (q : Prop) [Decidable q] (hf : q → Writes p f)
    (hg : ¬ q → Writes p g) : Writes p (fun w => if q then f w else g w) := by
  by_cases hq : q
  · simpa [hq] using hf hq
  · simpa [hq] using hg hq

theorem foldl {α : Type} {f : α → Writer → Writer} {as : List α} (hf : ∀ a ∈ as, Writes p (f a)) :
    Writes p (fun w => as.foldl (fun w a => f a w) w) := by
  induction as with
  | nil => exact id
  | cons a rest ih =>
      rw [List.forall_mem_cons] at hf
      exact comp hf.1 (ih hf.2)

theorem appends {f : Writer → Writer} (hf : Writes p f) : Appends f := by
  induction hf with
  | id => exact .id
  | comp _ _ hf hg => exact .comp hf hg
  | append _ => exact .append _
  | newline => exact .newline
  | whitespace => exact .whitespace
  | indented _ hblock => exact .indented hblock

/-- A character that is not blank and in none of the texts is not written. -/
theorem lacks {c : Char} (hc : Text.isBlank c = false) {f : Writer → Writer}
    (hf : Writes (Text.Lacks c) f) {w : Writer} (hw : w.Lacks c) : (f w).Lacks c := by
  have hnewline : c ≠ '\n' := Text.ne_of_isBlank hc (by decide)
  induction hf generalizing w with
  | id => exact hw
  | comp _ _ hf hg => exact hg (hf hw)
  | append hs => exact hw.append hnewline hs
  | newline => exact hw.newline hnewline
  | whitespace => exact hw.whitespace hc
  | @indented block _ hblock =>
      have hinner : (block w.deeper).Lacks c := hblock ⟨hw.text, hw.indent⟩
      exact ⟨hinner.text, hinner.indent⟩

end Writes

end Writer

open Writer (Writes)

/-- The texts that stand between those of members. -/
def MemberBlock.marks : List String :=
  ["+", "#", "~", "-", "\x7bstatic\x7d ", "\x7babstract\x7d ", ": ", "\x7b", "\x7d"]

theorem Visibility.symbol_mem_marks (v : Visibility) : v.symbol ∈ MemberBlock.marks := by
  cases v <;> simp [symbol, MemberBlock.marks]

/-- What the line of a field shows. -/
def Field.texts (s : Settings) (f : Field) : List String :=
  [f.name, f.type.shown s.returnTypes]

/-- What the line of a method shows. -/
def Method.texts (s : Settings) (m : Method) : List String :=
  m.name :: m.parameters.render s.paramNames s.paramTypes :: (m.shownReturn s).toList

section

variable {p : String → Prop} (hmarks : ∀ s ∈ MemberBlock.marks, p s) (s : Settings)

include hmarks

theorem Field.writes {f : Field} (hf : ∀ t ∈ f.texts s, p t) : Writes p (f.write s) := by
  simp only [texts, List.forall_mem_cons] at hf
  obtain ⟨hname, htype, -⟩ := hf
  have hmark : Writes p fun w => if f.isStatic then w.append "\x7bstatic\x7d " else w :=
    .ite _ (fun _ => .append (hmarks _ (by simp [MemberBlock.marks]))) (fun _ => .id)
  have hsymbol : Writes p fun w => (w.append f.visibility.symbol).append f.name :=
    .comp (.append (hmarks _ f.visibility.symbol_mem_marks)) (.append hname)
  have hcolon : Writes p fun w => (w.append ": ").append (f.type.shown s.returnTypes) :=
    .comp (.append (hmarks _ (by simp [MemberBlock.marks]))) (.append htype)
  exact .comp (g := Writer.newline)
    (.comp (.comp hmark hsymbol) (.ite _ (fun _ => .id) (fun _ => hcolon))) .newline

theorem Method.writes {m : Method} (hm : ∀ t ∈ m.texts s, p t) : Writes p (m.write s) := by
  simp only [texts, List.forall_mem_cons] at hm
  obtain ⟨hname, hparameters, hreturn⟩ := hm
  have hmark : Writes p fun w =>
      if m.isAbstract then w.append "\x7babstract\x7d "
      else if m.isStatic then w.append "\x7bstatic\x7d "
      else w :=
    .ite _ (fun _ => .append (hmarks _ (by simp [MemberBlock.marks]))) fun _ =>
      .ite _ (fun _ => .append (hmarks _ (by simp [MemberBlock.marks]))) (fun _ => .id)
  have hsymbol : Writes p fun w => (w.append m.visibility.symbol).append m.name :=
    .comp (.append (hmarks _ m.visibility.symbol_mem_marks)) (.append hname)
  have hstart := Writes.comp (.comp hmark hsymbol) (.append hparameters)
  unfold Method.write
  cases hshown : m.shownReturn s with
  | none => exact .comp (g := Writer.newline) hstart .newline
  | some shown =>
      have hcolon : Writes p fun w => (w.append ": ").append shown :=
        .comp (.append (hmarks _ (by simp [MemberBlock.marks])))
          (.append (hreturn shown (by simp [hshown])))
      exact .comp (g := Writer.newline) (.comp hstart hcolon) .newline

/-- A block writes nothing but the texts of its members and the marks around them. -/
theorem MemberBlock.writes {fields : List Field} {methods : List Method}
    (hfields : ∀ f ∈ fields, ∀ t ∈ f.texts s, p t)
    (hmethods : ∀ m ∈ methods, ∀ t ∈ m.texts s, p t) :
    Writes p (MemberBlock.write fields methods s) := by
  have hopen : Writes p fun w => (w.whitespace.append "\x7b").newline :=
    .comp (.comp .whitespace (.append (hmarks _ (by simp [marks])))) .newline
  have hfields' : ∀ f ∈ fields.filter (s.shows ·.visibility), Writes p (f.write s) :=
    fun f hf => f.writes hmarks s (hfields f (List.mem_filter.mp hf).1)
  have hmethods' : ∀ m ∈ (orderMethods methods).filter (s.shows ·.visibility),
      Writes p (m.write s) :=
    fun m hm => m.writes hmarks s (hmethods m (List.mem_mergeSort.mp (List.mem_filter.mp hm).1))
  have hmembers := Writes.comp (.foldl hfields') (.foldl hmethods')
  exact .ite _ (fun _ => .id) fun _ =>
    .comp (.comp hopen (.indented hmembers)) (.append (hmarks _ (by simp [marks])))

end

end ClassChart
