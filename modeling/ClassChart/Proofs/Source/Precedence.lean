import ClassChart.Proofs.Source.NameTable
import ClassChart.Proofs.Text
import Mathlib.Logic.Relation

/-!
The order of the rules by which a written name is resolved.  The rules are tried one after
another and the first that applies decides.  Each of them looks for a known name or does not
ask what is known, so more known names can only lead to one of them.
-/
namespace ClassChart

namespace NameTable

/-- The first element of a list with a property. -/
def IsFirst {α : Type} (P : α → Prop) (as : List α) (a : α) : Prop :=
  ∃ before after, as = before ++ a :: after ∧ P a ∧ ∀ b ∈ before, ¬P b

theorem find?_eq_some_iff_isFirst {α : Type} {p : α → Bool} {as : List α} {a : α} :
    as.find? p = some a ↔ IsFirst (p · = true) as a := by
  rw [List.find?_eq_some_iff_append]
  constructor
  · rintro ⟨ha, before, after, hsplit, hbefore⟩
    exact ⟨before, after, hsplit, ha, fun b hb => by simpa using hbefore b hb⟩
  · rintro ⟨before, after, hsplit, ha, hbefore⟩
    exact ⟨ha, before, after, hsplit, fun b hb => by simpa using hbefore b hb⟩

namespace IsFirst

variable {α : Type} {P : α → Prop} {as : List α} {a : α}

theorem holds (hfirst : IsFirst P as a) : P a := by
  obtain ⟨_, _, _, ha, _⟩ := hfirst
  exact ha

theorem exists_of_mem {b : α} (hb : b ∈ as) (hP : P b) : ∃ a, IsFirst P as a := by
  classical
  have hsome : (as.find? (fun b => decide (P b))).isSome :=
    List.find?_isSome.mpr ⟨b, hb, decide_eq_true hP⟩
  obtain ⟨a, ha⟩ := Option.isSome_iff_exists.mp hsome
  rw [find?_eq_some_iff_isFirst] at ha
  exact ⟨a, by simpa using ha⟩

/-- The first element comes no later than any other that will do. -/
theorem mem_of_split (hfirst : IsFirst P as a) {before after : List α} {b : α}
    (hsplit : as = before ++ b :: after) (hb : P b) : a ∈ before ++ [b] := by
  obtain ⟨front, back, hfront, -, hnone⟩ := hfirst
  rw [hsplit] at hfront
  rcases List.append_eq_append_iff.mp hfront with ⟨more, rfl, hmore⟩ | ⟨more, rfl, hmore⟩
  · cases more with
    | nil => simp_all
    | cons c rest =>
        rw [List.cons_append, List.cons.injEq] at hmore
        exact absurd hb (hnone b (by simp [hmore.1]))
  · cases more with
    | nil => simp_all
    | cons c rest =>
        rw [List.cons_append, List.cons.injEq] at hmore
        simp [hmore.1]

end IsFirst

/-! The scopes of a table in which no type stands in itself. -/

/-- One type stands directly in another. -/
def StandsIn (table : NameTable) (inner outer : String) : Prop :=
  table.enclosingOf inner = some outer

/-- No type stands in itself, directly or through others. -/
def Acyclic (table : NameTable) : Prop :=
  ∀ name, ¬Relation.TransGen table.StandsIn name name

theorem mem_enclosing_of_standsIn {table : NameTable} {inner outer : String}
    (hstands : table.StandsIn inner outer) : (inner, some outer) ∈ table.enclosing := by
  have hlookup : table.enclosing.reverse.lookup inner = some (some outer) :=
    Option.join_eq_some_iff.mp hstands
  obtain ⟨before, after, hsplit, -⟩ := List.lookup_eq_some_iff.mp hlookup
  rw [← List.mem_reverse, hsplit]
  exact List.mem_append_right before List.mem_cons_self

/-- If each type has a longer name than the type in which it stands, none stands in itself. -/
theorem acyclic_of_shorter {table : NameTable}
    (hshorter : ∀ entry ∈ table.enclosing, ∀ outer ∈ entry.2,
      outer.length < entry.1.length) : table.Acyclic := by
  have hless {inner outer : String} (hpath : Relation.TransGen table.StandsIn inner outer) :
      outer.length < inner.length := by
    induction hpath with
    | single hstands => exact hshorter _ (mem_enclosing_of_standsIn hstands) _ rfl
    | tail _ hstands ih =>
        exact Nat.lt_trans (hshorter _ (mem_enclosing_of_standsIn hstands) _ rfl) ih
  exact fun name hloop => Nat.lt_irrefl _ (hless hloop)

/-- All scopes from a given one outwards, up to one that stands in nothing or in something
without a name. -/
inductive IsWholeChain (table : NameTable) : Option String → List String → Prop
  | missing : IsWholeChain table none []
  | unnamed : IsWholeChain table (some "") []
  | inside {scope : String} {rest : List String} (hscope : scope ≠ "")
      (hrest : IsWholeChain table (table.enclosingOf scope) rest) :
      IsWholeChain table (some scope) (scope :: rest)

variable {table : NameTable}

/-- Whatever stands further out on a chain stands around what is further in. -/
theorem IsChain.transGen {scope : Option String} {between : List String} {s t : String}
    (hchain : table.IsChain scope (s :: (between ++ [t]))) :
    Relation.TransGen table.StandsIn s t := by
  induction between generalizing scope s with
  | nil => exact .single hchain.2.2.1
  | cons next rest ih => exact .head hchain.2.2.1 (ih hchain.2.2)

/-- A chain of scopes passes none of them twice. -/
theorem IsChain.nodup (hacyclic : table.Acyclic) {scope : Option String} {chain : List String}
    (hchain : table.IsChain scope chain) : chain.Nodup := by
  induction chain generalizing scope with
  | nil => exact List.nodup_nil
  | cons s rest ih =>
      refine List.nodup_cons.mpr ⟨fun hback => ?_, ih hchain.2.2⟩
      obtain ⟨between, outer, rfl⟩ := List.append_of_mem hback
      have hloop : table.IsChain scope ((s :: (between ++ [s])) ++ outer) := by simpa using hchain
      exact hacyclic s hloop.left.transGen

/-- The walk is cut off only after all scopes have been passed. -/
theorem isWholeChain_scopesUpTo {fuel : Nat} {scope : Option String}
    (hfuel : (table.scopesUpTo fuel scope).length < fuel) :
    table.IsWholeChain scope (table.scopesUpTo fuel scope) := by
  induction fuel generalizing scope with
  | zero => contradiction
  | succ n ih =>
      cases scope with
      | none => exact .missing
      | some s =>
          rw [scopesUpTo] at hfuel ⊢
          split at hfuel
          · rename_i hs
            rw [if_pos hs, String.isEmpty_iff.mp hs]
            exact .unnamed
          · rename_i hs
            rw [if_neg hs]
            rw [List.length_cons, Nat.add_lt_add_iff_right] at hfuel
            exact .inside (by simpa using hs) (ih hfuel)

theorem IsWholeChain.isChain {scope : Option String} {chain : List String}
    (hwhole : table.IsWholeChain scope chain) : table.IsChain scope chain := by
  induction hwhole with
  | missing => trivial
  | unnamed => trivial
  | inside hscope _ ih => exact ⟨rfl, hscope, ih⟩

/-- A table of which no scope comes again has an entry for every step of the walk, so the walk
ends before it is cut off. -/
theorem isWholeChain_scopes (hacyclic : table.Acyclic) (scope : Option String) :
    table.IsWholeChain scope (table.scopes scope) := by
  have hlong : table.IsChain scope (table.scopesUpTo (table.enclosing.length + 2) scope) :=
    isChain_scopesUpTo _ scope
  have hlength := hlong.length_le (hlong.nodup hacyclic)
  have hwhole := isWholeChain_scopesUpTo (Nat.lt_succ_of_le hlength)
  have hsub := table.scopesUpTo_prefix (Nat.le_succ (table.enclosing.length + 1)) scope
  by_cases hshort : (table.scopes scope).length < table.enclosing.length + 1
  · exact isWholeChain_scopesUpTo hshort
  · have heq : table.scopes scope = table.scopesUpTo (table.enclosing.length + 2) scope :=
      hsub.eq_of_length_le (Nat.le_trans hlength (Nat.le_of_not_lt hshort))
    rw [heq]
    exact hwhole

/-! The rules. -/

/-- The rules by which a name is resolved. -/
inductive Rule where
  | qualified
  | memberType
  | imported
  | samePackage
  | onDemand
  | wellKnown
  | asWritten
deriving Repr, DecidableEq, Inhabited

namespace Rule

/-- All rules in the order in which they are tried. -/
def inOrder : List Rule :=
  [.qualified, .memberType, .imported, .samePackage, .onDemand, .wellKnown, .asWritten]

/-- A rule applies to a name written at a place inside the scopes `chain`, with this result. -/
def Gives (table : NameTable) (place : Place) (chain : List String) (name : String) :
    Rule → String → Prop
  | .qualified, result => '.' ∈ name.toList ∧ name ∈ table.known ∧ result = name
  | .memberType, result => ∃ scope,
      IsFirst (fun s => s ++ "." ++ name ∈ table.known) chain scope ∧
        result = scope ++ "." ++ name
  | .imported, result => ∃ i,
      IsFirst (fun i => (¬∃ package, i = package ++ ".*") ∧
        Text.afterLast '.' i = Text.upTo '.' name) place.imports i ∧
        result = if Text.beyond '.' name = "" then i else i ++ "." ++ Text.beyond '.' name
  | .samePackage, result => result ∈ table.known ∧
      result = if place.package = "" then name else place.package ++ "." ++ name
  | .onDemand, result => ∃ package,
      IsFirst (fun i => ∃ p, i = p ++ ".*" ∧ p ++ "." ++ name ∈ table.known) place.imports
        (package ++ ".*") ∧
        result = package ++ "." ++ name
  | .wellKnown, result => Text.upTo '.' name ∈ NameTable.wellKnown ∧ result = "java.lang." ++ name
  | .asWritten, result => result = name

/-- What a rule finds. -/
def result? (table : NameTable) (place : Place) (name : String) : Rule → Option String
  | .qualified => if name.toList.contains '.' && table.isKnown name then some name else none
  | .memberType => table.firstKnown ((table.scopes place.scope).map (· ++ "." ++ name))
  | .imported => importedName place.imports name
  | .samePackage => table.firstKnown [inPackage place.package name]
  | .onDemand => table.firstKnown (onDemandNames place.imports name)
  | .wellKnown => wellKnownName name
  | .asWritten => some name

theorem findSome?_result? (table : NameTable) (place : Place) (name : String) :
    inOrder.findSome? (result? table place name) = some (table.lookUp place name) := by
  have hcons (rule : Rule) (rest : List Rule) :
      (rule :: rest).findSome? (result? table place name) =
        (result? table place name rule).or (rest.findSome? (result? table place name)) := by
    rw [List.findSome?_cons]
    cases result? table place name rule <;> rfl
  simp only [inOrder, hcons, List.findSome?_nil, result?, lookUp]
  split
  · rfl
  · simp only [Option.or_none, Option.or_some, Option.getD_none, Option.getD_or]

/-- What a rule computes is what it says. -/
theorem result?_eq_some_iff {rule : Rule} {table : NameTable} {place : Place}
    {name result : String} :
    rule.result? table place name = some result ↔
      rule.Gives table place (table.scopes place.scope) name result := by
  have hknown (s : String) : table.isKnown s = true ↔ s ∈ table.known := List.contains_iff_mem
  cases rule with
  | qualified =>
      simp only [result?, Gives, Option.ite_none_right_eq_some, Bool.and_eq_true,
        List.contains_iff_mem, hknown, Option.some.injEq, and_assoc]
      exact and_congr_right fun _ => and_congr_right fun _ => eq_comm
  | memberType =>
      simp only [result?, Gives, firstKnown, List.find?_map, Option.map_eq_some_iff,
        find?_eq_some_iff_isFirst, Function.comp_apply, hknown]
      exact exists_congr fun _ => and_congr_right fun _ => eq_comm
  | imported =>
      simp only [result?, Gives, importedName, Option.map_eq_some_iff,
        find?_eq_some_iff_isFirst, isOnDemand, Bool.and_eq_true, Bool.not_eq_true',
        ← Bool.not_eq_true, Text.finishesWith_iff, decide_eq_true_eq, String.isEmpty_iff]
      exact exists_congr fun _ => and_congr_right fun _ => eq_comm
  | samePackage =>
      simp only [result?, Gives, firstKnown, List.find?_singleton, Option.ite_none_right_eq_some,
        inPackage, String.isEmpty_iff, hknown, Option.some.injEq]
      constructor
      · rintro ⟨hmem, rfl⟩
        exact ⟨hmem, rfl⟩
      · rintro ⟨hmem, rfl⟩
        exact ⟨hmem, rfl⟩
  | onDemand =>
      have hdrop (package : String) : Text.dropLast 2 (package ++ ".*") = package :=
        Text.dropLast_append package ".*"
      have happlies (i : String) :
          isOnDemand i = true ∧ table.isKnown (Text.dropLast 2 i ++ "." ++ name) = true ↔
            ∃ p, i = p ++ ".*" ∧ p ++ "." ++ name ∈ table.known := by
        rw [isOnDemand, Text.finishesWith_iff, hknown]
        constructor
        · rintro ⟨⟨p, rfl⟩, hmem⟩
          exact ⟨p, rfl, hdrop p ▸ hmem⟩
        · rintro ⟨p, rfl, hmem⟩
          exact ⟨⟨p, rfl⟩, (hdrop p).symm ▸ hmem⟩
      simp only [result?, Gives, firstKnown, onDemandNames, List.find?_map, List.find?_filter,
        Option.map_eq_some_iff, find?_eq_some_iff_isFirst, Function.comp_apply,
        decide_eq_true_eq, happlies]
      constructor
      · rintro ⟨i, hfirst, rfl⟩
        obtain ⟨p, rfl, -⟩ := hfirst.holds
        exact ⟨p, hfirst, by rw [hdrop]⟩
      · rintro ⟨p, hfirst, rfl⟩
        exact ⟨p ++ ".*", hfirst, by rw [hdrop]⟩
  | wellKnown =>
      simp only [result?, Gives, wellKnownName, Option.ite_none_right_eq_some,
        List.contains_iff_mem, Option.some.injEq]
      exact and_congr_right fun _ => eq_comm
  | asWritten => exact ⟨fun h => (Option.some.inj h).symm, fun h => congrArg some h.symm⟩

/-- The first rule that applies to a name, and its result. -/
structure Decides (table : NameTable) (place : Place) (chain : List String) (name : String)
    (rule : Rule) (result : String) : Prop where
  first : IsFirst (fun rule => ∃ r, Gives table place chain name rule r) inOrder rule
  gives : rule.Gives table place chain name result

/-- A name is looked up to what the first rule that applies gives. -/
theorem lookUp_eq_iff {table : NameTable} {place : Place} {name result : String} :
    table.lookUp place name = result ↔
      ∃ rule, Decides table place (table.scopes place.scope) name rule result := by
  have happlies (rule : Rule) : rule.result? table place name = none ↔
      ¬∃ r, rule.Gives table place (table.scopes place.scope) name r := by
    simp only [← result?_eq_some_iff, not_exists, Option.eq_none_iff_forall_ne_some, ne_eq]
  rw [← Option.some_inj, ← findSome?_result?, List.findSome?_eq_some_iff]
  constructor
  · rintro ⟨before, rule, after, hsplit, hresult, hbefore⟩
    have hgives := result?_eq_some_iff.mp hresult
    refine ⟨rule, ⟨before, after, hsplit, ⟨result, hgives⟩, ?_⟩, hgives⟩
    exact fun earlier hearlier => (happlies earlier).mp (hbefore earlier hearlier)
  · rintro ⟨rule, ⟨before, after, hsplit, -, hbefore⟩, hgives⟩
    refine ⟨before, rule, after, hsplit, result?_eq_some_iff.mpr hgives, ?_⟩
    exact fun earlier hearlier => (happlies earlier).mpr (hbefore earlier hearlier)

/-- The other rules look for a known name. -/
theorem Gives.mem_known {table : NameTable} {place : Place} {chain : List String}
    {name result : String} {rule : Rule} (hgives : rule.Gives table place chain name result)
    (hrule : rule ∉ [.imported, .wellKnown, .asWritten]) : result ∈ table.known := by
  cases rule with
  | qualified =>
      obtain ⟨-, hknown, rfl⟩ := hgives
      exact hknown
  | memberType =>
      obtain ⟨scope, hfirst, rfl⟩ := hgives
      exact hfirst.holds
  | samePackage => exact hgives.1
  | onDemand =>
      obtain ⟨package, hfirst, rfl⟩ := hgives
      obtain ⟨p, hp, hknown⟩ := hfirst.holds
      rw [String.append_left_inj] at hp
      rwa [hp]
  | imported | wellKnown | asWritten => simp at hrule

end Rule

/-- If a scope has a member type of the name, the scopes around it are not asked. -/
theorem lookUp_ne_of_outer (hacyclic : table.Acyclic) {place : Place} {name : String}
    {inner outer : List String} {s t : String}
    (hchain : table.scopes place.scope = inner ++ s :: outer) (ht : t ∈ outer)
    (hknown : s ++ "." ++ name ∈ table.known) :
    table.lookUp place name ≠ t ++ "." ++ name := by
  intro heq
  obtain ⟨rule, hfirst, hgives⟩ := Rule.lookUp_eq_iff.mp heq
  have hmember : ∃ r, Rule.Gives table place (table.scopes place.scope) name .memberType r := by
    have hs : s ∈ table.scopes place.scope := by simp [hchain]
    obtain ⟨u, hu⟩ := IsFirst.exists_of_mem (P := fun s => s ++ "." ++ name ∈ table.known) hs hknown
    exact ⟨_, u, hu, rfl⟩
  have horder : Rule.inOrder =
      [.qualified] ++ .memberType :: [.imported, .samePackage, .onDemand, .wellKnown, .asWritten] :=
    rfl
  have hrule := hfirst.mem_of_split horder hmember
  simp only [List.singleton_append, List.mem_cons, List.not_mem_nil, or_false] at hrule
  rcases hrule with rfl | rfl
  · -- The name itself is shorter than one with a scope before it.
    have hlength := congrArg String.length hgives.2.2
    rw [String.length_append, String.length_append] at hlength
    have hdot : ".".length = 1 := rfl
    omega
  · obtain ⟨u, hu, hscope⟩ := hgives
    have huse : t = u := by
      rwa [String.append_left_inj, String.append_left_inj] at hscope
    have hinner := hu.mem_of_split hchain hknown
    have hnodup := (isWholeChain_scopes hacyclic place.scope).isChain.nodup hacyclic
    rw [hchain, List.append_cons] at hnodup
    exact (List.nodup_append.mp hnodup).2.2 u hinner t ht huse.symm

/-- The first rule that applies to an erased name decides, where the scopes are passed from the
inside out.  A scope wins over those around it, and the result is a known name unless it is
imported by itself, well known or as written. -/
theorem resolve_eq_iff_decides (hacyclic : table.Acyclic) (place : Place) (written : String)
    (hname : erase written ≠ "") (hprimitive : erase written ∉ primitives) :
    ∃ chain, table.IsWholeChain place.scope chain ∧
      (∀ result, table.resolve place written = result ↔
        ∃ rule, Rule.Decides table place chain (erase written) rule result) ∧
      (∀ inner s outer t, chain = inner ++ s :: outer → t ∈ outer →
        s ++ "." ++ erase written ∈ table.known →
        table.resolve place written ≠ t ++ "." ++ erase written) ∧
      ∀ rule, Rule.Decides table place chain (erase written) rule (table.resolve place written) →
        rule ∈ [.imported, .wellKnown, .asWritten] ∨
          table.resolve place written ∈ table.known := by
  have hresolve : table.resolve place written = table.lookUp place (erase written) := by
    rw [resolve, if_neg (by simpa using hname), if_neg (by simpa using hprimitive)]
  rw [hresolve]
  refine ⟨table.scopes place.scope, isWholeChain_scopes hacyclic _,
    fun _ => Rule.lookUp_eq_iff, ?_, ?_⟩
  · intro inner s outer t hchain ht hknown
    exact lookUp_ne_of_outer hacyclic hchain ht hknown
  · intro rule hdecides
    by_cases hrule : rule ∈ [Rule.imported, .wellKnown, .asWritten]
    · exact .inl hrule
    · exact .inr (hdecides.gives.mem_known hrule)

/-- A nested class and the class around it both have a member type of the name, and the name is
imported as well: the nested class is asked first. -/
theorem resolve_eq_iff_decides_nested :
    let table : NameTable :=
      { known := ["p.A", "p.A.N", "p.A.B", "p.A.B.N", "p.N"]
        enclosing := [("p.A", none), ("p.A.N", some "p.A"), ("p.A.B", some "p.A"),
          ("p.A.B.N", some "p.A.B"), ("p.N", none)] }
    let place : Place := { package := "p", imports := ["q.N"], scope := some "p.A.B" }
    table.Acyclic ∧ erase "@Sealed N<T>" = "N" ∧ "N" ∉ primitives ∧
      ∃ chain rule, table.IsWholeChain place.scope chain ∧
        Rule.Decides table place chain "N" rule "p.A.B.N" := by
  intro table place
  have herase : erase "@Sealed N<T>" = "N" := by decide +kernel
  have hresolve : table.resolve place "@Sealed N<T>" = "p.A.B.N" := by decide +kernel
  have hacyclic : table.Acyclic := acyclic_of_shorter (by decide +kernel)
  obtain ⟨chain, hchain, hdecides, -⟩ := resolve_eq_iff_decides hacyclic place "@Sealed N<T>"
    (by decide +kernel) (by decide +kernel)
  obtain ⟨rule, hrule⟩ := (hdecides _).mp hresolve
  exact ⟨hacyclic, herase, by decide, chain, rule, hchain, herase ▸ hrule⟩

/-! More known names. -/

section

variable {α β : Type} {P : β → Prop}

/-- If what is found for single elements changes only to something with a property, so does what
is found first. -/
theorem findSome?_redirected {f g : α → Option β}
    (hfg : ∀ a, g a = f a ∨ ∃ b, g a = some b ∧ P b) (as : List α) :
    as.findSome? g = as.findSome? f ∨ ∃ b, as.findSome? g = some b ∧ P b := by
  induction as with
  | nil => exact .inl rfl
  | cons a rest ih =>
      rw [List.findSome?_cons, List.findSome?_cons]
      rcases hfg a with hsame | ⟨b, hb, hP⟩
      · rw [hsame]
        cases f a with
        | none => exact ih
        | some b => exact .inl rfl
      · rw [hb]
        exact .inr ⟨b, rfl, hP⟩

end

variable (known added : List String) (enclosing : List (String × Option String))

theorem firstKnown_append (names : List String) :
    (NameTable.mk (known ++ added) enclosing).firstKnown names =
        (NameTable.mk known enclosing).firstKnown names ∨
      ∃ name, (NameTable.mk (known ++ added) enclosing).firstKnown names = some name ∧
        name ∈ added := by
  rw [firstKnown, firstKnown, ← List.findSome?_guard, ← List.findSome?_guard]
  refine findSome?_redirected (fun name => ?_) names
  by_cases hadded : name ∈ added
  · exact .inr ⟨name, by simp [Option.guard, isKnown, hadded], hadded⟩
  · exact .inl (by simp [Option.guard, isKnown, hadded])

/-- Rules that do not ask what is known find the same. -/
theorem Rule.result?_append (place : Place) (name : String) (rule : Rule) :
    rule.result? ⟨known ++ added, enclosing⟩ place name =
        rule.result? ⟨known, enclosing⟩ place name ∨
      ∃ found, rule.result? ⟨known ++ added, enclosing⟩ place name = some found ∧
        found ∈ added := by
  have hscopes (fuel : Nat) (scope : Option String) :
      scopesUpTo ⟨known ++ added, enclosing⟩ fuel scope =
        scopesUpTo ⟨known, enclosing⟩ fuel scope := by
    apply scopesUpTo_eq
    rfl
  cases rule with
  | qualified =>
      by_cases hadded : '.' ∈ name.toList ∧ name ∈ added
      · exact .inr ⟨name, by simp [result?, isKnown, hadded], hadded.2⟩
      · exact .inl (by grind [result?, isKnown])
  | memberType =>
      simp only [result?, scopes, hscopes]
      exact firstKnown_append known added enclosing _
  | samePackage | onDemand => exact firstKnown_append known added enclosing _
  | imported | wellKnown | asWritten => exact .inl rfl

/-- More known names redirect a written name to one of them or not at all. -/
theorem resolve_append_known (place : Place) (written : String) :
    resolve ⟨known ++ added, enclosing⟩ place written =
        resolve ⟨known, enclosing⟩ place written ∨
      resolve ⟨known ++ added, enclosing⟩ place written ∈ added := by
  have hlookUp : lookUp ⟨known ++ added, enclosing⟩ place (erase written) =
        lookUp ⟨known, enclosing⟩ place (erase written) ∨
      lookUp ⟨known ++ added, enclosing⟩ place (erase written) ∈ added := by
    have hfirst := findSome?_redirected
      (Rule.result?_append known added enclosing place (erase written)) Rule.inOrder
    simp only [Rule.findSome?_result?, Option.some.injEq, exists_eq_left'] at hfirst
    exact hfirst
  rw [resolve, resolve]
  split
  · exact .inl rfl
  · split
    · exact .inl rfl
    · exact hlookUp

end NameTable

end ClassChart
