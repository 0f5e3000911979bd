import ClassChart.Proofs.Java.Listing
import ClassChart.Proofs.Source.NameTable
import ClassChart.Proofs.Squeeze
import ClassChart.Source.File

/-!
Variable arity.  A variadic parameter is read with an array type.  Its last dimension is kept
while the type is spaced and qualified, and a diagram shows it as an ellipsis.
-/
namespace ClassChart

/-- Both forms of a name with a mark behind them. -/
def TypeName.followedBy (name : TypeName) (mark : String) : TypeName :=
  ⟨name.simple ++ mark, name.qualified ++ mark⟩

namespace NameTable

/-- A type is cut into its base and the rest before the dimension at its end. -/
theorem cut_append_dimension (cs : List Char) :
    (cs ++ "[]".toList).takeWhile (!endsBase ·) = cs.takeWhile (!endsBase ·) ∧
      (cs ++ "[]".toList).dropWhile (!endsBase ·) =
        cs.dropWhile (!endsBase ·) ++ "[]".toList := by
  induction cs with
  | nil => exact ⟨rfl, rfl⟩
  | cons c rest ih =>
      rw [List.cons_append, List.takeWhile_cons, List.takeWhile_cons, List.dropWhile_cons,
        List.dropWhile_cons]
      split
      · exact ⟨congrArg (c :: ·) ih.1, ih.2⟩
      · exact ⟨rfl, rfl⟩

/-- A dimension behind a written type stays as it is, whatever the type is resolved to. -/
theorem qualify_trim_append (table : NameTable) (place : Place) (written : String) :
    table.qualify place (Text.trim written ++ "[]") =
      (table.qualify place written).followedBy "[]" := by
  have hsimple : Text.squeeze (Text.trim written ++ "[]") = Text.squeeze written ++ "[]" :=
    Text.squeeze_trim_append written (by simp [Text.isBlank])
  obtain ⟨hbase, hrest⟩ := cut_append_dimension (Text.squeeze written).toList
  simp only [qualify, hsimple, String.toList_append, hbase, hrest, String.ofList_append,
    String.ofList_toList, TypeName.followedBy, String.append_assoc]

end NameTable

theorem ellipsis_append (type : String) : ellipsis (type ++ "[]") = type ++ "..." := by
  have hends : Text.finishesWith "[]" (type ++ "[]") = true := Text.finishesWith_iff.mpr ⟨type, rfl⟩
  have hdrop : Text.dropLast 2 (type ++ "[]") = type := Text.dropLast_append type "[]"
  rw [ellipsis, if_pos hends, hdrop]

/-- The array type of a variadic parameter is shown with an ellipsis in place of its brackets. -/
theorem Parameter.render_variadic (name : Option String) (element : TypeName)
    (names : NamePlacement) (types : TypeDisplay) :
    Parameter.render ⟨name, some (element.followedBy "[]")⟩ names types true =
      Parameter.render ⟨name, some (element.followedBy "...")⟩ names types false := by
  cases types with
  | hidden => rfl
  | simple => simp [render, TypeName.shown, TypeName.followedBy, ellipsis_append]
  | qualified => simp [render, TypeName.shown, TypeName.followedBy, ellipsis_append]

namespace Parameters

/-- The texts of a list in which no parameter is variadic. -/
def renderPlain (names : NamePlacement) (types : TypeDisplay) (params : List Parameter) : String :=
  "(" ++ ", ".intercalate (params.map (·.render names types false)) ++ ")"

/-- Only the last parameter is shown as variadic. -/
theorem renderEach_append (names : NamePlacement) (types : TypeDisplay) (variadic : Bool)
    (earlier : List Parameter) (last : Parameter) :
    renderEach names types variadic (earlier ++ [last]) =
      earlier.map (·.render names types false) ++ [last.render names types variadic] := by
  induction earlier with
  | nil => rfl
  | cons p rest ih =>
      -- There are two parameters at least, so the first of them is not the last.
      cases rest with
      | nil => rfl
      | cons q more => exact congrArg (p.render names types false :: ·) ih

theorem renderEach_false (names : NamePlacement) (types : TypeDisplay) (params : List Parameter) :
    renderEach names types false params = params.map (·.render names types false) := by
  rcases List.eq_nil_or_concat params with rfl | ⟨earlier, last, rfl⟩
  · rfl
  · rw [List.concat_eq_append, renderEach_append, List.map_append, List.map_singleton]

/-- A list whose last parameter takes any number of arguments: it has the type of an array of
them, and is shown with an ellipsis in place of the dimension. -/
structure IsVariadic (ps : Parameters) (earlier : List Parameter) (name : String)
    (element : TypeName) : Prop where
  variadic : ps.variadic = true
  params : ps.params = earlier ++ [⟨some name, some (element.followedBy "[]")⟩]
  render (names : NamePlacement) (types : TypeDisplay) : ps.render names types =
    renderPlain names types (earlier ++ [⟨some name, some (element.followedBy "...")⟩])
  renderFixed (names : NamePlacement) (types : TypeDisplay) :
    Parameters.render { ps with variadic := false } names types =
      renderPlain names types (earlier ++ [⟨some name, some (element.followedBy "[]")⟩])

/-- A list with a fixed number of parameters, which are all shown with their own types. -/
structure IsFixed (ps : Parameters) : Prop where
  variadic : ps.variadic = false
  render (names : NamePlacement) (types : TypeDisplay) :
    ps.render names types = renderPlain names types ps.params

theorem render_of_fixed (params : List Parameter) (names : NamePlacement) (types : TypeDisplay) :
    render ⟨params, false⟩ names types = renderPlain names types params := by
  rw [render, renderEach_false, renderPlain]

theorem isVariadic_of_params {ps : Parameters} {earlier : List Parameter} {name : String}
    {element : TypeName} (hvariadic : ps.variadic = true)
    (hparams : ps.params = earlier ++ [⟨some name, some (element.followedBy "[]")⟩]) :
    ps.IsVariadic earlier name element where
  variadic := hvariadic
  params := hparams
  render names types := by
    rw [render, hvariadic, hparams, renderEach_append, Parameter.render_variadic, renderPlain,
      List.map_append, List.map_singleton]
  renderFixed names types := by rw [← hparams, render_of_fixed]

theorem isFixed_of_variadic {ps : Parameters} (hvariadic : ps.variadic = false) : ps.IsFixed where
  variadic := hvariadic
  render names types := by rw [← render_of_fixed, ← hvariadic]

end Parameters

/-- A parameter with its type resolved. -/
def SourceParameter.resolved (qualify : String → TypeName) (p : SourceParameter) : Parameter :=
  ⟨some p.name, some (qualify p.type)⟩

namespace Java

/-- The last formal that declares a parameter is a variadic one.  Comments may stand behind it. -/
def EndsVariadic (formals before : List Formal) (lead : List Comment) (type name : String) : Prop :=
  ∃ after, formals = before ++ .variadic lead type name :: after ∧
    ∀ f ∈ after, f.parameter? = none

/-- The element type of a variadic parameter as it is read: a comment before the type takes its
place. -/
def elementType (lead : List Comment) (type : String) : String :=
  (lead.head?.map Comment.text).getD type

theorem EndsVariadic.filterMap_parameter? {formals before : List Formal} {lead : List Comment}
    {type name : String} (h : EndsVariadic formals before lead type name) :
    formals.filterMap Formal.parameter? = before.filterMap Formal.parameter? ++
      [⟨name, Text.trim (elementType lead type) ++ "[]", true⟩] := by
  obtain ⟨after, rfl, hafter⟩ := h
  have hnone : after.filterMap Formal.parameter? = [] := List.filterMap_eq_nil_iff.mpr hafter
  have hlast : Formal.parameter? (.variadic lead type name) =
      some ⟨name, Text.trim (elementType lead type) ++ "[]", true⟩ := rfl
  rw [List.filterMap_append, List.filterMap_cons_some hlast, hnone]

/-- If the last parameter is variadic, a variadic formal declares it. -/
theorem exists_endsVariadic {formals : List Formal} {earlier : List SourceParameter}
    {last : SourceParameter} (hparameters : formals.filterMap Formal.parameter? = earlier ++ [last])
    (hlast : last.variadic = true) :
    ∃ before lead type name, EndsVariadic formals before lead type name := by
  rw [List.filterMap_eq_append_iff] at hparameters
  obtain ⟨front, back, rfl, -, hback⟩ := hparameters
  rw [List.filterMap_eq_cons_iff] at hback
  obtain ⟨gap, f, after, rfl, hgap, hf, hafter⟩ := hback
  have hnone := List.filterMap_eq_nil_iff.mp hafter
  cases f with
  | variadic lead type name =>
      exact ⟨front ++ gap, lead, type, name, after, (List.append_assoc ..).symm, hnone⟩
  | single type d =>
      rw [← Option.some.inj hf] at hlast
      contradiction
  | receiver => contradiction
  | comment c => contradiction

/-- Parameters as built from what stands between parentheses, with all types resolved. -/
structure KeepsArity (formals : List Formal) (qualify : String → TypeName) (ps : Parameters) :
    Prop where
  variadic {before : List Formal} {lead : List Comment} {type name : String}
    (hlast : EndsVariadic formals before lead type name) :
    ps.IsVariadic ((before.filterMap Formal.parameter?).map (·.resolved qualify)) name
      (qualify (elementType lead type))
  fixed (hlast : ¬∃ before lead type name, EndsVariadic formals before lead type name) :
    ps.IsFixed ∧ ps.params = (formals.filterMap Formal.parameter?).map (·.resolved qualify)

/-- A method that is built from formals is variadic exactly if the last of them is, and it keeps all
parameters. -/
theorem keepsArity_toMethod {formals : List Formal} {member : SourceUnit}
    (hmember : member.parameters = formals.filterMap Formal.parameter?) (owner : SourceUnit)
    (table : NameTable) (place : Place) :
    KeepsArity formals (table.qualify place)
      (member.toMethod owner (table.qualify place)).parameters where
  variadic hlast := by
    have hparameters := hmember.trans hlast.filterMap_parameter?
    apply Parameters.isVariadic_of_params
    · simp [SourceUnit.toMethod, hparameters]
    · rw [← table.qualify_trim_append]
      simp [SourceUnit.toMethod, hparameters, SourceParameter.resolved]
  fixed hlast := by
    refine ⟨Parameters.isFixed_of_variadic ?_, ?_⟩
    · change (member.parameters.getLast?.map SourceParameter.variadic).getD false = false
      rcases List.eq_nil_or_concat member.parameters with hnone | ⟨earlier, last, hsome⟩
      · rw [hnone]
        rfl
      · rw [List.concat_eq_append] at hsome
        rw [hsome, List.getLast?_concat, Option.map_some, Option.getD_some]
        by_contra hvariadic
        exact hlast (exists_endsVariadic (hmember.symm.trans hsome) (by simpa using hvariadic))
    · simp [SourceUnit.toMethod, hmember, SourceParameter.resolved]

/-- Variable arity is kept from the source to the diagram.  A method or constructor whose last
parameter is variadic has a variadic list of parameters with an array type at the end, which is
shown with an ellipsis for its last dimension, and all other parameters are shown as if the list
were not variadic.  No other method or constructor is shown with an ellipsis. -/
theorem CompilationUnit.units_keep_arity (unit : CompilationUnit) (filePath : String) :
    List.Forall₂ (fun e u => e.declaration.HasUnit unit.package e.outer u ∧
        ∀ (owner : SourceUnit) (table : NameTable) (place : Place),
          KeepsArity e.declaration.formals (table.qualify place)
            (u.toMethod owner (table.qualify place)).parameters)
      unit.listing (unit.units filePath) :=
  (unit.forall₂_gives filePath).imp fun _ _ hu =>
    ⟨hu.toHasUnit, keepsArity_toMethod hu.parameters⟩

/-- A constructor that takes arrays of lists, with blanks in the type, and a method whose last
parameter is an array behind a variadic one. -/
def listsFile : String :=
  "class A \x7b A(int n, List<? super  B>[] ... xs) \x7b\x7d\n" ++
    "void f(int... m, int[] n) \x7b\x7d \x7d"

theorem units_keep_arity_of_lists : ∃ unit e u e' u',
    CompilationUnit.ofSource? listsFile = some unit ∧
      (e, u) ∈ unit.listing.zip (unit.units "A.java") ∧
      (e', u') ∈ unit.listing.zip (unit.units "A.java") ∧
      EndsVariadic e.declaration.formals [.single "int" ⟨"n", ""⟩] [] "List<? super  B>[]" "xs" ∧
      (¬∃ before lead type name, EndsVariadic e'.declaration.formals before lead type name) ∧
      let qualify := NameTable.qualify ⟨[], []⟩ { imports := ["java.util.List"] }
      let ps := (u.toMethod u qualify).parameters
      ps.render .beforeType .simple = "(n: int, xs: List<? super B>[]...)" ∧
        ps.render .afterType .qualified = "(int: n, java.util.List<? super B>[]...: xs)" ∧
        (u'.toMethod u' qualify).parameters.render .beforeType .simple =
          "(m: int[], n: int[])" := by
  have hread : (CompilationUnit.ofSource? listsFile).map (fun unit =>
      (unit.listing.zip (unit.units "A.java")).map fun p => p.1.declaration.formals) =
      some [[],
        [.single "int" ⟨"n", ""⟩, .variadic [] "List<? super  B>[]" "xs"],
        [.variadic [] "int" "m", .single "int[]" ⟨"n", ""⟩]] := by
    decide +kernel
  obtain ⟨unit, hunit, hformals⟩ := Option.map_eq_some_iff.mp hread
  have hfound {formals : List Formal} (hmem : formals ∈ [[],
        [.single "int" ⟨"n", ""⟩, .variadic [] "List<? super  B>[]" "xs"],
        [.variadic [] "int" "m", .single "int[]" ⟨"n", ""⟩]]) :
      ∃ e u, (e, u) ∈ unit.listing.zip (unit.units "A.java") ∧ e.declaration.formals = formals := by
    rw [← hformals] at hmem
    obtain ⟨⟨e, u⟩, hpair, he⟩ := List.mem_map.mp hmem
    exact ⟨e, u, hpair, he⟩
  obtain ⟨e, u, hpair, he⟩ := hfound (.tail _ (.head _))
  obtain ⟨e', u', hpair', he'⟩ := hfound (.tail _ (.tail _ (.head _)))
  have hlast : EndsVariadic e.declaration.formals [.single "int" ⟨"n", ""⟩] []
      "List<? super  B>[]" "xs" := ⟨[], he, by simp⟩
  have hlast' : ¬∃ before lead type name,
      EndsVariadic e'.declaration.formals before lead type name := by
    rintro ⟨before, lead, type, name, h⟩
    have hsame := congrArg List.getLast? h.filterMap_parameter?
    rw [he', List.getLast?_concat] at hsame
    exact Bool.false_ne_true (congrArg SourceParameter.variadic (Option.some.inj hsame))
  have hkept := unit.units_keep_arity "A.java"
  have hshown := (((List.forall₂_zip hkept hpair).2 u ⟨[], []⟩
    { imports := ["java.util.List"] }).variadic hlast).render
  obtain ⟨hfixed, hparams⟩ := ((List.forall₂_zip hkept hpair').2 u' ⟨[], []⟩
    { imports := ["java.util.List"] }).fixed hlast'
  refine ⟨unit, e, u, e', u', hunit, hpair, hpair', hlast, hlast', (hshown _ _).trans ?_,
    (hshown _ _).trans ?_, ?_⟩
  · decide +kernel
  · decide +kernel
  · rw [hfixed.render, hparams, he']
    decide +kernel

end Java

end ClassChart
