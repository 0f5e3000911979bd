import ClassChart.Proofs.Java.Headers
import ClassChart.Proofs.Squeeze

/-!
Signatures of methods and constructors.  A signature is the squeezed header up to the first brace,
semicolon or equals sign, so it is the whole header exactly if none of these is in the header.
-/
namespace ClassChart.Java

open Text (Blanks isBlank squeeze)

/-- Nothing in a text ends a header. -/
def Unbroken (text : String) : Prop :=
  ∀ c ∈ text.toList, endsHeader c = false

instance (text : String) : Decidable (Unbroken text) :=
  List.decidableBAll (endsHeader · = false) text.toList

theorem unbroken_append {s t : String} : Unbroken (s ++ t) ↔ Unbroken s ∧ Unbroken t := by
  simp only [Unbroken, String.toList_append, List.forall_mem_append]

theorem isBlank_of_endsHeader {c : Char} (hc : endsHeader c = true) : isBlank c = false := by
  simp only [endsHeader, Bool.or_eq_true, beq_iff_eq] at hc
  rcases hc with (rfl | rfl) | rfl <;> decide

theorem unbroken_blanks (gap : Blanks) : Unbroken gap.text := by
  intro c hc
  cases hends : endsHeader c with
  | false => rfl
  | true =>
      have hblank := gap.isBlank c hc
      rw [isBlank_of_endsHeader hends] at hblank
      contradiction

/-- A text with an end in it, up to the first one. -/
theorem exists_first_end {text : String} (htext : ¬ Unbroken text) : ∃ before c after,
    text = before ++ String.singleton c ++ after ∧ Unbroken before ∧ endsHeader c = true := by
  cases hfound : text.toList.find? endsHeader with
  | none => exact absurd (by simpa [Unbroken] using hfound) htext
  | some c =>
      obtain ⟨hc, before, after, hsplit, hbefore⟩ := List.find?_eq_some_iff_append.mp hfound
      refine ⟨String.ofList before, c, String.ofList after, ?_, ?_, hc⟩
      · apply String.toList_inj.mp
        simp [hsplit]
      · simpa [Unbroken] using hbefore

/-- A signature ends before the first end in the source. -/
theorem memberSignature_append {before : String} (hbefore : Unbroken before) {rest : String}
    {c : Char} (hc : rest.toList.head? = some c) (hends : endsHeader c = true) :
    memberSignature (before ++ rest) = squeeze before := by
  obtain ⟨more, hrest⟩ := List.head?_eq_some_iff.mp hc
  have hany : (before ++ rest).toList.any endsHeader = true := by
    simp [hrest, hends]
  have htake : (before ++ rest).toList.takeWhile (!endsHeader ·) = before.toList := by
    have hinside : ∀ c ∈ before.toList, (!endsHeader c) = true := by simpa [Unbroken] using hbefore
    rw [String.toList_append, hrest, List.takeWhile_append_of_pos hinside]
    simp [hends]
  rw [memberSignature, if_pos hany, htake, String.ofList_toList]

namespace HeaderLayout

variable (l : HeaderLayout)

theorem memberSignature_of_unbroken (hheader : Unbroken l.header) :
    memberSignature l.source = squeeze l.header := by
  obtain ⟨c, hc, hends⟩ := l.ends
  have hend : endsHeader c = true := by
    rcases hends with rfl | rfl <;> decide
  have hbefore : Unbroken (l.header ++ l.trail.text) :=
    unbroken_append.mpr ⟨hheader, unbroken_blanks l.trail⟩
  rw [source, memberSignature_append hbefore hc hend, Text.squeeze_append_blanks]

/-- An end in the header cuts the signature. -/
theorem memberSignature_of_end {before after : String} {c : Char}
    (hheader : l.header = before ++ String.singleton c ++ after) (hbefore : Unbroken before)
    (hc : endsHeader c = true) : memberSignature l.source = squeeze before := by
  have hsource : l.source = before ++ (String.singleton c ++ after ++ l.trail.text ++ l.rest) := by
    rw [source, hheader]
    simp only [String.append_assoc]
  rw [hsource, memberSignature_append hbefore (by simp) hc]

theorem memberSignature_eq_iff :
    memberSignature l.source = squeeze l.header ↔ Unbroken l.header := by
  refine ⟨fun hsignature => ?_, l.memberSignature_of_unbroken⟩
  by_contra hbroken
  obtain ⟨before, c, after, hheader, hbefore, hc⟩ := exists_first_end hbroken
  have hblank : isBlank c = false := isBlank_of_endsHeader hc
  -- The end is a character of the header and not of what is left of it.
  have hmem : c ∈ (squeeze before).toList := by
    rw [← l.memberSignature_of_end hheader hbefore hc, hsignature, Text.mem_squeeze_iff hblank,
      hheader]
    simp
  rw [Text.mem_squeeze_iff hblank] at hmem
  rw [hbefore c hmem] at hc
  contradiction

/-- What stands before the first end is shown. -/
theorem exists_memberSignature_eq (hlead : Unbroken l.lead) :
    ∃ more, memberSignature l.source = squeeze (l.lead ++ more) := by
  by_cases htail : Unbroken l.tail
  · exact ⟨l.tail, l.memberSignature_of_unbroken (unbroken_append.mpr ⟨hlead, htail⟩)⟩
  · obtain ⟨before, c, after, heq, hbefore, hc⟩ := exists_first_end htail
    have hheader : l.header = l.lead ++ before ++ String.singleton c ++ after := by
      rw [header, heq]
      simp only [String.append_assoc]
    exact ⟨before, l.memberSignature_of_end hheader (unbroken_append.mpr ⟨hlead, hbefore⟩) hc⟩

/-- With no end up to the end of the parameters, the signature has the name and all parameters. -/
theorem exists_memberSignature_append (hlead : Unbroken l.lead) : ∃ before between after,
    memberSignature l.source =
      before ++ l.name.text ++ between ++ squeeze l.parameters ++ after := by
  obtain ⟨more, hmore⟩ := l.exists_memberSignature_eq hlead
  obtain ⟨a, -, ha⟩ := Text.squeeze_append l.lead more
  obtain ⟨b, -, hb⟩ := Text.squeeze_append (l.front ++ l.name.text ++ l.gap) l.parameters
  obtain ⟨c, -, hc⟩ := Text.squeeze_append (l.front ++ l.name.text) l.gap
  obtain ⟨d, -, hd⟩ := Text.squeeze_append l.front l.name.text
  have hname : squeeze l.name.text = l.name.text :=
    Text.squeeze_eq_self fun _ => l.name.isBlank_eq_false
  refine ⟨squeeze l.front ++ d, c ++ squeeze l.gap ++ b, a ++ squeeze more, ?_⟩
  rw [hmore, ha, lead, hb, hc, hd, hname]
  simp only [String.append_assoc]

end HeaderLayout

namespace Declaration

def callable? : Declaration → Option Callable
  | .method m => some m.callable
  | .constructor c => some c.callable
  | _ => none

variable {d : Declaration} {c : Callable} (hc : d.callable? = some c)

include hc

theorem exists_member_of_callable? : ∃ m, d.member? = some m ∧ m.callable? = some c := by
  cases d with
  | method m => exact ⟨.method m, rfl, hc⟩
  | constructor m => exact ⟨.constructor m, rfl, hc⟩
  | _ => contradiction

theorem signature_of_callable? : d.signature = memberSignature c.source := by
  cases d with
  | method m => exact Option.some.inj hc ▸ rfl
  | constructor m => exact Option.some.inj hc ▸ rfl
  | _ => contradiction

end Declaration

/-- The units of a file are those of its listed declarations, one by one. -/
theorem CompilationUnit.forall₂_units (unit : CompilationUnit) (filePath : String) :
    List.Forall₂ (fun e u => e.declaration.HasUnit unit.package e.outer u) unit.listing
      (unit.units filePath) :=
  (unit.forall₂_gives filePath).imp fun _ _ hu => hu.toHasUnit

/-- Every method and constructor of a file has its header as its signature exactly if no brace,
semicolon or equals sign is in the header, as there may be in annotations and comments.  If there
is one, the signature ends before the first.  If there is none up to the end of the parameters,
the name and all parameters are in the signature. -/
theorem signature_eq_header_iff_unbroken {file : String} {unit : CompilationUnit}
    (hunit : CompilationUnit.ofSource? file = some unit) (filePath : String) :
    List.Forall₂ (fun e u => e.declaration.HasUnit unit.package e.outer u ∧
        ∀ c, e.declaration.callable? = some c → ∃ l : HeaderLayout, l.Shows c ∧
          (u.signature = some (squeeze c.header) ↔ Unbroken c.header) ∧
          (∀ before x after, c.header = before ++ String.singleton x ++ after →
            Unbroken before → endsHeader x = true → u.signature = some (squeeze before)) ∧
          (Unbroken l.lead → ∃ before between after, u.signature =
            some (before ++ c.name ++ between ++ squeeze l.parameters ++ after)))
      unit.listing (unit.units filePath) := by
  have hlisted := (List.forall₂_and_left _ _).mpr
    ⟨fun _ he => he, unit.forall₂_units filePath⟩
  refine hlisted.imp fun e u ⟨he, hu⟩ => ⟨hu, fun c hc => ?_⟩
  obtain ⟨m, hm, hmc⟩ := Declaration.exists_member_of_callable? hc
  obtain ⟨l, hl⟩ := Parser.upholds_layout.of_has hunit
    (CompilationUnit.has_of_mem_listing he hm) c hmc
  have hsignature : u.signature = some (memberSignature l.source) := by
    rw [hu.signature, Declaration.signature_of_callable? hc, hl.source]
  rw [hsignature, ← hl.header, ← hl.name]
  refine ⟨l, hl, ?_, ?_, ?_⟩
  · rw [Option.some.injEq, l.memberSignature_eq_iff]
  · intro before x after hheader hbefore hx
    rw [l.memberSignature_of_end hheader hbefore hx]
  · intro hlead
    obtain ⟨before, between, after, heq⟩ := l.exists_memberSignature_append hlead
    exact ⟨before, between, after, congrArg some heq⟩

/-- The header of a constructor on two lines. -/
def pointHeader : String :=
  "@X(2) Point(int  x,\n int y)"

def pointFile : String :=
  "class Point \x7b " ++ pointHeader ++ " \x7b f = x; \x7d \x7d"

theorem signature_eq_header_of_point : ∃ unit e u,
    CompilationUnit.ofSource? pointFile = some unit ∧
      (e, u) ∈ unit.listing.zip (unit.units "Point.java") ∧
      e.declaration.callable?.map Callable.header = some pointHeader ∧ Unbroken pointHeader ∧
      u.signature = some "@X(2) Point(int x, int y)" := by
  have hread : (CompilationUnit.ofSource? pointFile).map (fun unit =>
      (unit.listing.zip (unit.units "Point.java")).map fun p =>
        p.1.declaration.callable?.map Callable.header) = some [none, some pointHeader] := by
    decide +kernel
  obtain ⟨unit, hunit, hheaders⟩ := Option.map_eq_some_iff.mp hread
  have hmem : some pointHeader ∈ (unit.listing.zip (unit.units "Point.java")).map
      fun p => p.1.declaration.callable?.map Callable.header := by
    rw [hheaders]
    simp
  obtain ⟨⟨e, u⟩, hpair, hheader⟩ := List.mem_map.mp hmem
  obtain ⟨c, hc, hch⟩ := Option.map_eq_some_iff.mp hheader
  have hunbroken : Unbroken pointHeader := by decide
  have hlisted := signature_eq_header_iff_unbroken hunit "Point.java"
  obtain ⟨l, -, hiff, -⟩ := (List.forall₂_zip hlisted hpair).2 c hc
  rw [hch] at hiff
  exact ⟨unit, e, u, hunit, hpair, hheader, hunbroken, hiff.mpr hunbroken⟩

/-- An equals sign in an annotation cuts the signature before the name and the parameters. -/
theorem signature_cut_in_annotation :
    (CompilationUnit.ofSource? "class A \x7b @X(y = 1) void f(int z) \x7b\x7d \x7d").map
      (fun unit => (unit.units "A.java").map fun u => (u.name, u.signature)) =
      some [("A", some "class A"), ("f", some "@X(y")] := by
  decide +kernel

end ClassChart.Java
