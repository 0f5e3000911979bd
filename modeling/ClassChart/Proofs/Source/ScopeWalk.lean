import ClassChart.Proofs.Java.Listing
import ClassChart.Proofs.Source.Precedence

/-!
The walk outwards through the scopes of a name.  It has no bound of its own and goes on forever
where types stand in each other in a circle.  In source files a type has a longer name than the
type in which it stands, so there the walk passes ever shorter scopes and ends.
-/
namespace ClassChart

namespace Java

/-- What is declared in a type has the name of the type before its own. -/
theorem Declaration.HasUnit.qualifiedName_eq {package : String} {outer : List String}
    {d : Declaration} {unit : SourceUnit} (h : d.HasUnit package outer unit) {parent : String}
    (hparent : unit.parentName = some parent) :
    unit.qualifiedName = parent ++ "." ++ unit.name := by
  by_cases houter : outer = []
  · rw [h.parentName, houter] at hparent
    contradiction
  · rw [h.parentName, innermost_of_ne_nil houter, Option.some.injEq] at hparent
    rw [h.qualifiedName, dottedName_append houter, hparent, h.name]

/-- A member or inner type has the name of the type around it, a dot and its own name. -/
theorem CompilationUnit.qualifiedName_of_mem_units (tree : CompilationUnit) (filePath : String) :
    ∀ unit ∈ tree.units filePath, ∀ parent, unit.parentName = some parent →
      unit.qualifiedName = parent ++ "." ++ unit.name := by
  have hlisted := (tree.forall₂_gives filePath).flip.imp
    (S := fun unit _ => (∀ parent, unit.parentName = some parent →
      unit.qualifiedName = parent ++ "." ++ unit.name) ∧ True)
    fun _ _ h => ⟨fun _ => h.qualifiedName_eq, trivial⟩
  exact ((List.forall₂_and_left _ _).mp hlisted).1

end Java

namespace NameTable

/-- The walk from a scope outwards: the scopes that are asked for a member type of the name, and
the member type in which the walk ends, if it ends in one. -/
inductive Walks (table : NameTable) (name : String) :
    Option String → List String → Option String → Prop
  | missing : Walks table name none [] none
  | unnamed : Walks table name (some "") [] none
  | found {scope : String} (hscope : scope ≠ "") (hknown : scope ++ "." ++ name ∈ table.known) :
      Walks table name (some scope) [scope] (some (scope ++ "." ++ name))
  | outwards {scope : String} {rest : List String} {result : Option String} (hscope : scope ≠ "")
      (hunknown : scope ++ "." ++ name ∉ table.known)
      (hrest : Walks table name (table.enclosingOf scope) rest result) :
      Walks table name (some scope) (scope :: rest) result

variable {table : NameTable} {name : String}

/-- There is at most one walk. -/
theorem Walks.unique {scope : Option String} {passed passed' : List String}
    {result result' : Option String} (h : table.Walks name scope passed result)
    (h' : table.Walks name scope passed' result') : passed' = passed ∧ result' = result := by
  induction h generalizing passed' result' with
  | missing =>
      cases h'
      exact ⟨rfl, rfl⟩
  | unnamed =>
      cases h' with
      | unnamed => exact ⟨rfl, rfl⟩
      | found hscope => exact absurd rfl hscope
      | outwards hscope => exact absurd rfl hscope
  | found hscope hknown =>
      cases h' with
      | unnamed => exact absurd rfl hscope
      | found => exact ⟨rfl, rfl⟩
      | outwards _ hunknown => exact absurd hknown hunknown
  | outwards hscope hunknown _ ih =>
      cases h' with
      | unnamed => exact absurd rfl hscope
      | found _ hknown => exact absurd hknown hunknown
      | outwards _ _ hrest =>
          obtain ⟨rfl, rfl⟩ := ih hrest
          exact ⟨rfl, rfl⟩

/-- No walk ends among scopes that lead only to each other. -/
theorem not_walks_of_circle {circle : List String}
    (hcircle : ∀ s ∈ circle, s ≠ "" ∧ s ++ "." ++ name ∉ table.known ∧
      ∃ outer ∈ circle, table.enclosingOf s = some outer)
    {scope : Option String} {passed : List String} {result : Option String}
    (h : table.Walks name scope passed result) : ∀ s ∈ scope, s ∉ circle := by
  induction h with
  | missing => exact nofun
  | unnamed =>
      rintro _ ⟨⟩ hmem
      exact (hcircle "" hmem).1 rfl
  | found _ hknown =>
      rintro _ ⟨⟩ hmem
      exact (hcircle _ hmem).2.1 hknown
  | outwards _ _ _ ih =>
      rintro _ ⟨⟩ hmem
      obtain ⟨-, -, outer, houter, hstands⟩ := hcircle _ hmem
      exact ih outer hstands houter

/-- Where all scopes are known, the walk asks them one after another. -/
theorem IsWholeChain.exists_walks {scope : Option String} {chain : List String}
    (hchain : table.IsWholeChain scope chain) (name : String) :
    ∃ passed, passed <+: chain ∧
      table.Walks name scope passed (table.firstKnown (chain.map (· ++ "." ++ name))) := by
  induction hchain with
  | missing => exact ⟨[], List.nil_prefix, .missing⟩
  | unnamed => exact ⟨[], List.nil_prefix, .unnamed⟩
  | @inside scope rest hscope _ ih =>
      obtain ⟨passed, hpassed, hwalk⟩ := ih
      by_cases hknown : scope ++ "." ++ name ∈ table.known
      · have hfirst : table.firstKnown ((scope :: rest).map (· ++ "." ++ name)) =
            some (scope ++ "." ++ name) := by
          simp [firstKnown, isKnown, hknown]
        rw [hfirst]
        exact ⟨[scope], by simp, .found hscope hknown⟩
      · have hlater : table.firstKnown ((scope :: rest).map (· ++ "." ++ name)) =
            table.firstKnown (rest.map (· ++ "." ++ name)) := by
          simp [firstKnown, isKnown, hknown]
        rw [hlater]
        exact ⟨scope :: passed, by simpa using hpassed, .outwards hscope hknown hwalk⟩

section

variable (hshorter : ∀ inner outer, table.StandsIn inner outer → outer.length < inner.length)

include hshorter

/-- Names of types further out are shorter, so the walk outwards ends. -/
theorem IsChain.forall_shorter {inner : String} {chain : List String}
    (hchain : table.IsChain (table.enclosingOf inner) chain) :
    ∀ outer ∈ chain, outer.length < inner.length := by
  induction chain generalizing inner with
  | nil => exact nofun
  | cons next rest ih =>
      have hnext : next.length < inner.length := hshorter inner next hchain.1
      refine List.forall_mem_cons.mpr ⟨hnext, fun outer houter => ?_⟩
      exact Nat.lt_trans (ih hchain.2.2 outer houter) hnext

theorem IsChain.pairwise_shorter {scope : Option String} {chain : List String}
    (hchain : table.IsChain scope chain) :
    chain.Pairwise fun inner outer => outer.length < inner.length := by
  induction chain generalizing scope with
  | nil => exact .nil
  | cons s rest ih => exact .cons (IsChain.forall_shorter hshorter hchain.2.2) (ih hchain.2.2)

end

/-- A table of source files has the name of the type around a type before the type's own. -/
theorem mem_enclosing_ofUnits {sources : List (Java.CompilationUnit × String)}
    {entry : String × Option String} {outer : String}
    (hentry : entry ∈ (ofUnits (sources.flatMap fun source => source.1.units source.2)).enclosing)
    (houter : entry.2 = some outer) : ∃ last, entry.1 = outer ++ "." ++ last := by
  obtain ⟨unit, hunit, rfl⟩ := List.mem_map.mp hentry
  obtain ⟨source, -, hmem⟩ := List.mem_flatMap.mp (List.mem_filter.mp hunit).1
  exact ⟨unit.name, source.1.qualifiedName_of_mem_units source.2 unit hmem outer houter⟩

theorem length_lt_of_dotted {outer last : String} :
    outer.length < (outer ++ "." ++ last).length := by
  have hdot : ".".length = 1 := rfl
  rw [String.length_append, String.length_append, hdot]
  omega

/-- In a table of source files a type has before its own name that of the type around it, whatever
is declared how often.  So from any scope the walk outwards, in which the rule of member types
looks for a name, passes ever shorter scopes and ends. -/
theorem walks_ofUnits (sources : List (Java.CompilationUnit × String)) :
    let table := ofUnits (sources.flatMap fun source => source.1.units source.2)
    (∀ entry ∈ table.enclosing, entry.2 = none ∨
      ∃ outer last, entry.2 = some outer ∧ entry.1 = outer ++ "." ++ last) ∧
    (∀ inner outer, table.enclosingOf inner = some outer → ∃ last, inner = outer ++ "." ++ last) ∧
    ∀ (place : Place) (written : String), ∃ passed result,
      (∀ passed' result', table.Walks (erase written) place.scope passed' result' ↔
        passed' = passed ∧ result' = result) ∧
      passed.Pairwise (fun inner outer => outer.length < inner.length) ∧
      Rule.memberType.result? table place (erase written) = result := by
  intro table
  have hstands (inner outer : String) (h : table.StandsIn inner outer) :
      ∃ last, inner = outer ++ "." ++ last :=
    mem_enclosing_ofUnits (mem_enclosing_of_standsIn h) rfl
  have hshorter (inner outer : String) (h : table.StandsIn inner outer) :
      outer.length < inner.length := by
    obtain ⟨last, rfl⟩ := hstands inner outer h
    exact length_lt_of_dotted
  have hacyclic : table.Acyclic := acyclic_of_shorter fun entry hentry outer houter => by
    obtain ⟨last, hlast⟩ := mem_enclosing_ofUnits hentry houter
    exact hlast ▸ length_lt_of_dotted
  refine ⟨fun entry hentry => ?_, hstands, fun place written => ?_⟩
  · cases houter : entry.2 with
    | none => exact .inl rfl
    | some outer =>
        obtain ⟨last, hlast⟩ := mem_enclosing_ofUnits hentry houter
        exact .inr ⟨outer, last, rfl, hlast⟩
  · have hwhole := isWholeChain_scopes hacyclic place.scope
    obtain ⟨passed, hpassed, hwalk⟩ := hwhole.exists_walks (erase written)
    refine ⟨passed, _, fun passed' result' => ⟨hwalk.unique, ?_⟩, ?_, rfl⟩
    · rintro ⟨rfl, rfl⟩
      exact hwalk
    · exact (IsChain.pairwise_shorter hshorter hwhole.isChain).sublist hpassed.sublist

/-- One of two declarations of a class stands in a package of the same name as the class around the
other, which comes last and counts. -/
theorem walks_ofUnits_declared_twice :
    let named (name : String) : Java.TypeHeader :=
      { form := .classForm, modifiers := [], name, slice := default }
    let sources : List (Java.CompilationUnit × String) :=
      [(⟨[.package "package a.B;", .type (named "C") []]⟩, "a/B/C.java"),
        (⟨[.package "package a;",
          .type (named "B") [.type (named "C") [], .type (named "X") []]]⟩, "a/B.java")]
    let table := ofUnits (sources.flatMap fun source => source.1.units source.2)
    ("a.B.C", none) ∈ table.enclosing ∧ table.enclosingOf "a.B.C" = some "a.B" ∧
      (∃ last, "a.B.C" = "a.B" ++ "." ++ last) ∧
      table.Walks "X" (some "a.B.C") ["a.B.C", "a.B"] (some "a.B.X") ∧
      Rule.memberType.result? table { scope := some "a.B.C" } "X" = some "a.B.X" := by
  intro named sources table
  have henclosing : table.enclosingOf "a.B.C" = some "a.B" := by decide +kernel
  have herase : erase "X" = "X" := by decide +kernel
  have hwalk : table.Walks "X" (some "a.B.C") ["a.B.C", "a.B"] (some "a.B.X") := by
    refine .outwards (by decide) (by decide +kernel) ?_
    rw [henclosing]
    exact .found (by decide) (by decide +kernel)
  obtain ⟨-, hstands, hwalks⟩ := walks_ofUnits sources
  obtain ⟨passed, result, honly, -, hresult⟩ := hwalks { scope := some "a.B.C" } "X"
  rw [herase] at honly hresult
  refine ⟨by decide +kernel, henclosing, hstands _ _ henclosing, hwalk, ?_⟩
  rw [hresult, ← ((honly _ _).mp hwalk).2]

end NameTable

end ClassChart
