import ClassChart.Java.Units
import Mathlib.Data.List.Lex

/-!
Where declarations stand in a source file.  A declaration is addressed by its site, the steps
that lead from the top of the file to it.  The listing of a file has one entry for each site
at which something is declared, in the order of the sites; so a type is followed by all that
stands in it.
-/
namespace ClassChart.Java

/-- A step from a type declaration to a declaration in it. -/
inductive Step where
  /-- To a component of a record, by its place among what stands in the parentheses. -/
  | component (index : Nat)
  /-- To a method, a constructor, or one of the variables of a field declaration. -/
  | member (index part : Nat)
  | nested (index : Nat)
deriving Repr, DecidableEq, Inhabited

namespace Step

/-- Whether a step leads to a nested type. -/
def isNested : Step → Bool
  | .nested _ => true
  | _ => false

/-- Components come before members, and members before nested types. -/
def Before : Step → Step → Prop
  | .component i, .component j => i < j
  | .component _, _ => True
  | .member i p, .member j q => i < j ∨ i = j ∧ p < q
  | .member _ _, .nested _ => True
  | .nested i, .nested j => i < j
  | _, _ => False

theorem before_nested {step : Step} (hstep : step.isNested = false) (i : Nat) :
    step.Before (.nested i) := by
  cases step with
  | component => trivial
  | member => trivial
  | nested => contradiction

end Step

/-- The steps from the top of a file, of which all but the last lead to nested types. -/
abbrev Site := List Step

/-- The order of sites: a type comes before all that stands in it. -/
abbrev Site.Before : Site → Site → Prop :=
  List.Lex Step.Before

/-- What can stand at a site. -/
inductive Declaration where
  | type (header : TypeHeader)
  | component (header : TypeHeader) (parameter : SourceParameter)
  | method (m : MethodDecl)
  | constructor (c : ConstructorDecl)
  | field (f : FieldDecl) (d : Declarator)
deriving Repr, DecidableEq, Inhabited

/-- A declaration with its site and the names of the types around it, from outside in. -/
structure Entry where
  site : Site
  outer : List String
  declaration : Declaration
deriving Repr, DecidableEq, Inhabited

namespace Member

/-- What a member declares itself, variable by variable. -/
def own? : Member → (part : Nat) → Option Declaration
  | .method m, 0 => some (.method m)
  | .constructor c, 0 => some (.constructor c)
  | .field f, part => f.declarators[part]?.map (Declaration.field f)
  | _, _ => none

/-- What a single step into a type declaration leads to, nested types apart. -/
def direct? (header : TypeHeader) (members : List Member) : Step → Option Declaration
  | .component i => (header.components[i]?.bind Formal.parameter?).map (.component header)
  | .member i part => members[i]?.bind (·.own? part)
  | .nested _ => none

/-- What stands at a site below a member, with the types around it. -/
def at? : Member → Site → Option (List String × Declaration)
  | .type header _, [] => some ([], .type header)
  | .type header members, .nested i :: rest =>
      (members[i]?.bind (at? · rest)).map fun found => (header.name :: found.1, found.2)
  | .type header members, [step] => (direct? header members step).map ([header.name], ·)
  | _, _ => none

end Member

/-- The member that an item at the top of a file would be. -/
def Item.asMember : Item → Member
  | .type header members => .type header members
  | _ => .other

/-- What stands at a site of a file. -/
def CompilationUnit.at? (unit : CompilationUnit) : Site → Option (List String × Declaration)
  | .nested i :: rest => unit.items[i]?.bind (·.asMember.at? rest)
  | _ => none

/-! The listing of a file, and that it lists what stands in the file. -/

/-- The steps to what a member declares itself. -/
def Member.ownEntries (i : Nat) : Member → List (Step × Declaration)
  | .method m => [(.member i 0, .method m)]
  | .constructor c => [(.member i 0, .constructor c)]
  | .field f => f.declarators.zipIdx.map fun (d, part) => (.member i part, .field f d)
  | _ => []

/-- The steps to the components of a record. -/
def componentEntries (header : TypeHeader) : List (Step × Declaration) :=
  header.components.zipIdx.filterMap fun (f, i) =>
    f.parameter?.map fun p => (.component i, .component header p)

/-- The steps to what members declare themselves. -/
def memberEntries (members : List Member) : List (Step × Declaration) :=
  members.zipIdx.flatMap fun (m, i) => m.ownEntries i

/-- All that stands in a type declaration, nested types apart. -/
def directEntries (header : TypeHeader) (members : List Member) : List (Step × Declaration) :=
  componentEntries header ++ memberEntries members

/-- The entry seen from one step further up. -/
def Entry.below (step : Step) (e : Entry) : Entry :=
  { e with site := step :: e.site }

/-- The entry seen from the type around it. -/
def Entry.inside (name : String) (e : Entry) : Entry :=
  { e with outer := name :: e.outer }

mutual

/-- The listing of a type declaration. -/
def Member.listing : Member → List Entry
  | .type header members =>
      ⟨[], [], .type header⟩ ::
        ((directEntries header members).map (fun (step, d) => ⟨[step], [header.name], d⟩) ++
          (nestedListing 0 members).map (Entry.inside header.name))
  | _ => []

/-- The listings of the types among members, which are counted from `start`. -/
def nestedListing (start : Nat) : List Member → List Entry
  | [] => []
  | m :: rest => m.listing.map (Entry.below (.nested start)) ++ nestedListing (start + 1) rest

end

/-- The entries of a member are the declarations that are found in it part by part. -/
theorem mem_ownEntries_iff {m : Member} {i : Nat} {step : Step} {d : Declaration} :
    (step, d) ∈ m.ownEntries i ↔ ∃ part, step = .member i part ∧ m.own? part = some d := by
  cases m with
  | method m =>
      simp only [Member.ownEntries, List.mem_singleton, Prod.mk.injEq]
      constructor
      · rintro ⟨rfl, rfl⟩
        exact ⟨0, rfl, rfl⟩
      · rintro ⟨part, rfl, hown⟩
        cases part with
        | zero => exact ⟨rfl, (Option.some.inj hown).symm⟩
        | succ => contradiction
  | constructor c =>
      simp only [Member.ownEntries, List.mem_singleton, Prod.mk.injEq]
      constructor
      · rintro ⟨rfl, rfl⟩
        exact ⟨0, rfl, rfl⟩
      · rintro ⟨part, rfl, hown⟩
        cases part with
        | zero => exact ⟨rfl, (Option.some.inj hown).symm⟩
        | succ => contradiction
  | field f =>
      simp only [Member.ownEntries, List.mem_map, Prod.exists, List.mem_zipIdx_iff_getElem?,
        Prod.mk.injEq, Member.own?, Option.map_eq_some_iff]
      constructor
      · rintro ⟨variable_, part, hpart, rfl, rfl⟩
        exact ⟨part, rfl, variable_, hpart, rfl⟩
      · rintro ⟨part, rfl, variable_, hpart, rfl⟩
        exact ⟨variable_, part, hpart, rfl, rfl⟩
  | type header members => simp [Member.ownEntries, Member.own?]
  | comment c => simp [Member.ownEntries, Member.own?]
  | other => simp [Member.ownEntries, Member.own?]

/-- The entries of a type are the declarations that are found directly in it. -/
theorem mem_directEntries_iff {header : TypeHeader} {members : List Member} {step : Step}
    {d : Declaration} :
    (step, d) ∈ directEntries header members ↔ Member.direct? header members step = some d := by
  have hcomponents : (step, d) ∈ componentEntries header ↔
      ∃ i, step = .component i ∧
        (header.components[i]?.bind Formal.parameter?).map (.component header) = some d := by
    simp only [componentEntries, List.mem_filterMap, Prod.exists, List.mem_zipIdx_iff_getElem?,
      Option.map_eq_some_iff, Prod.mk.injEq, Option.bind_eq_some_iff]
    constructor
    · rintro ⟨f, i, hf, p, hp, rfl, rfl⟩
      exact ⟨i, rfl, p, ⟨f, hf, hp⟩, rfl⟩
    · rintro ⟨i, rfl, p, ⟨f, hf, hp⟩, rfl⟩
      exact ⟨f, i, hf, p, hp, rfl, rfl⟩
  have hmembers : (step, d) ∈ memberEntries members ↔
      ∃ i part, step = .member i part ∧ members[i]?.bind (·.own? part) = some d := by
    simp only [memberEntries, List.mem_flatMap, Prod.exists, List.mem_zipIdx_iff_getElem?,
      mem_ownEntries_iff, Option.bind_eq_some_iff]
    constructor
    · rintro ⟨m, i, hm, part, rfl, hown⟩
      exact ⟨i, part, rfl, m, hm, hown⟩
    · rintro ⟨i, part, rfl, m, hm, hown⟩
      exact ⟨m, i, hm, part, rfl, hown⟩
  rw [directEntries, List.mem_append, hcomponents, hmembers]
  cases step with
  | component i => simp [Member.direct?]
  | member i part => simp [Member.direct?]
  | nested i => simp [Member.direct?]

theorem mem_map_directEntries_iff {header : TypeHeader} {members : List Member} {site : Site}
    {outer : List String} {d : Declaration} :
    (⟨site, outer, d⟩ ∈ (directEntries header members).map
        fun (step, d) => (⟨[step], [header.name], d⟩ : Entry)) ↔
      ∃ step, site = [step] ∧ outer = [header.name] ∧
        Member.direct? header members step = some d := by
  simp only [List.mem_map, Prod.exists, mem_directEntries_iff]
  constructor
  · rintro ⟨step, _, hfound, heq⟩
    cases heq
    exact ⟨step, rfl, rfl, hfound⟩
  · rintro ⟨step, rfl, rfl, hfound⟩
    exact ⟨step, d, hfound, rfl⟩

namespace Member

/-- What stands at a site of a type: the type itself, what is declared directly in it, or
what stands in a nested type. -/
theorem at?_type_eq_some_iff {header : TypeHeader} {members : List Member} {site : Site}
    {outer : List String} {d : Declaration} :
    (Member.type header members).at? site = some (outer, d) ↔
      (site = [] ∧ outer = [] ∧ d = .type header) ∨
      (∃ step, site = [step] ∧ outer = [header.name] ∧ direct? header members step = some d) ∨
      ∃ i rest, site = .nested i :: rest ∧ ∃ within, outer = header.name :: within ∧
        members[i]?.bind (at? · rest) = some (within, d) := by
  have hdirect (d? : Option Declaration) : d?.map ([header.name], ·) = some (outer, d) ↔
      outer = [header.name] ∧ d? = some d := by
    rw [Option.map_eq_some_iff]
    constructor
    · rintro ⟨_, hd, heq⟩
      cases heq
      exact ⟨rfl, hd⟩
    · rintro ⟨rfl, hd⟩
      exact ⟨d, hd, rfl⟩
  cases site with
  | nil =>
      constructor
      · intro hfound
        cases hfound
        exact .inl ⟨rfl, rfl, rfl⟩
      · rintro (⟨-, rfl, rfl⟩ | ⟨_, hsite, -⟩ | ⟨_, _, hsite, -⟩)
        · rfl
        · contradiction
        · contradiction
  | cons step rest =>
      cases step with
      | nested i =>
          simp only [at?, Option.map_eq_some_iff, Prod.exists, Prod.mk.injEq]
          constructor
          · rintro ⟨within, _, hfound, rfl, rfl⟩
            exact .inr (.inr ⟨i, rest, rfl, within, rfl, hfound⟩)
          · rintro (⟨hsite, -⟩ | ⟨_, hsite, -, hfound⟩ | ⟨_, _, hsite, within, rfl, hfound⟩)
            · contradiction
            · cases hsite
              contradiction
            · cases hsite
              exact ⟨within, d, hfound, rfl, rfl⟩
      | component i => cases rest <;> simp [at?, hdirect]
      | member i part => cases rest <;> simp [at?, hdirect]

mutual

/-- A declaration is listed exactly if it stands at its site in the named types. -/
theorem mem_listing_iff : (m : Member) → (e : Entry) →
    (e ∈ m.listing ↔ m.at? e.site = some (e.outer, e.declaration))
  | .type header members, ⟨site, outer, d⟩ => by
      have hnested : ⟨site, outer, d⟩ ∈ (nestedListing 0 members).map (Entry.inside header.name) ↔
          ∃ i rest, site = .nested i :: rest ∧ ∃ within, outer = header.name :: within ∧
            members[i]?.bind (at? · rest) = some (within, d) := by
        simp only [List.mem_map, mem_nestedListing_iff members 0, Entry.inside, Nat.zero_add]
        constructor
        · rintro ⟨⟨_, within, _⟩, ⟨i, rest, rfl, hfound⟩, heq⟩
          cases heq
          exact ⟨i, rest, rfl, within, rfl, hfound⟩
        · rintro ⟨i, rest, rfl, within, rfl, hfound⟩
          exact ⟨⟨.nested i :: rest, within, d⟩, ⟨i, rest, rfl, hfound⟩, rfl⟩
      rw [at?_type_eq_some_iff, listing, List.mem_cons, List.mem_append,
        mem_map_directEntries_iff, hnested, Entry.mk.injEq]
  | .method _, _ => by simp [listing, at?]
  | .constructor _, _ => by simp [listing, at?]
  | .field _, _ => by simp [listing, at?]
  | .comment _, _ => by simp [listing, at?]
  | .other, _ => by simp [listing, at?]

/-- What is listed for inner types is what is found at a site below one of them. -/
theorem mem_nestedListing_iff : (members : List Member) → (start : Nat) → (e : Entry) →
    (e ∈ nestedListing start members ↔ ∃ i rest, e.site = .nested (start + i) :: rest ∧
      members[i]?.bind (·.at? rest) = some (e.outer, e.declaration))
  | [], _, _ => by simp [nestedListing]
  | m :: more, start, ⟨site, outer, d⟩ => by
      rw [nestedListing, List.mem_append, mem_nestedListing_iff more (start + 1)]
      simp only [List.mem_map, mem_listing_iff m, Entry.below]
      constructor
      · rintro (⟨⟨rest, _, _⟩, hfound, heq⟩ | ⟨i, rest, rfl, hfound⟩)
        · cases heq
          exact ⟨0, rest, rfl, hfound⟩
        · exact ⟨i + 1, rest, by rw [Nat.add_right_comm]; rfl, hfound⟩
      · rintro ⟨i, rest, rfl, hfound⟩
        cases i with
        | zero => exact .inl ⟨⟨rest, outer, d⟩, hfound, rfl⟩
        | succ i => exact .inr ⟨i, rest, by rw [Nat.add_right_comm]; rfl, hfound⟩

end

end Member

/-! The order of the listing. -/

theorem pairwise_zipIdx {α : Type} (as : List α) (start : Nat) :
    (as.zipIdx start).Pairwise fun a b => a.2 < b.2 := by
  have hindices : ((as.zipIdx start).map Prod.snd).Pairwise (· < ·) := by
    rw [List.zipIdx_map_snd]
    exact List.pairwise_lt_range'
  exact List.pairwise_map.mp hindices

theorem pairwise_ownEntries (m : Member) (i : Nat) :
    (m.ownEntries i).Pairwise fun a b => a.1.Before b.1 := by
  cases m with
  | field f =>
      refine List.pairwise_map.mpr ((pairwise_zipIdx _ 0).imp fun hpart => ?_)
      exact .inr ⟨rfl, hpart⟩
  | method => exact List.pairwise_singleton _ _
  | constructor => exact List.pairwise_singleton _ _
  | type => exact List.Pairwise.nil
  | comment => exact List.Pairwise.nil
  | other => exact List.Pairwise.nil

theorem pairwise_directEntries (header : TypeHeader) (members : List Member) :
    (directEntries header members).Pairwise fun a b => a.1.Before b.1 := by
  rw [directEntries, List.pairwise_append]
  refine ⟨?_, ?_, ?_⟩
  · refine List.pairwise_filterMap.mpr ((pairwise_zipIdx _ 0).imp ?_)
    rintro ⟨f, i⟩ ⟨g, j⟩ hlt a ha b hb
    obtain ⟨_, -, rfl⟩ := Option.map_eq_some_iff.mp ha
    obtain ⟨_, -, rfl⟩ := Option.map_eq_some_iff.mp hb
    exact hlt
  · refine List.pairwise_flatMap.mpr ⟨fun found _ => pairwise_ownEntries _ _, ?_⟩
    refine (pairwise_zipIdx _ 0).imp ?_
    rintro ⟨m, i⟩ ⟨n, j⟩ hlt ⟨step, d⟩ ha ⟨step', d'⟩ hb
    obtain ⟨part, rfl, -⟩ := mem_ownEntries_iff.mp ha
    obtain ⟨part', rfl, -⟩ := mem_ownEntries_iff.mp hb
    exact .inl hlt
  · rintro ⟨step, d⟩ ha ⟨step', d'⟩ hb
    obtain ⟨⟨f, i⟩, -, ha⟩ := List.mem_filterMap.mp ha
    obtain ⟨_, -, heq⟩ := Option.map_eq_some_iff.mp ha
    obtain ⟨⟨m, j⟩, -, hb⟩ := List.mem_flatMap.mp hb
    obtain ⟨part, rfl, -⟩ := mem_ownEntries_iff.mp hb
    cases heq
    trivial

theorem isNested_eq_false_of_mem_directEntries {header : TypeHeader} {members : List Member}
    {found : Step × Declaration} (hfound : found ∈ directEntries header members) :
    found.1.isNested = false := by
  have hdirect := mem_directEntries_iff.mp hfound
  cases hstep : found.1 with
  | nested i =>
      rw [hstep] at hdirect
      contradiction
  | component => rfl
  | member => rfl

namespace Member

mutual

/-- Everything is listed in the order of the sites, and so nothing twice. -/
theorem pairwise_listing : (m : Member) →
    m.listing.Pairwise fun a b => a.site.Before b.site
  | .type header members => by
      have hbelow : ∀ e ∈ nestedListing 0 members, ∃ i rest, e.site = .nested i :: rest := by
        intro e he
        obtain ⟨i, rest, hsite, -⟩ := (mem_nestedListing_iff members 0 e).mp he
        exact ⟨_, rest, hsite⟩
      rw [listing, List.pairwise_cons, List.pairwise_append]
      refine ⟨?_, ?_, ?_, ?_⟩
      · simp only [List.forall_mem_append, List.forall_mem_map]
        refine ⟨fun _ _ => .nil, fun e he => ?_⟩
        obtain ⟨i, rest, hsite⟩ := hbelow e he
        change Site.Before [] e.site
        rw [hsite]
        exact .nil
      · exact List.pairwise_map.mpr ((pairwise_directEntries header members).imp .rel)
      · exact List.pairwise_map.mpr (pairwise_nestedListing members 0)
      · simp only [List.forall_mem_map]
        intro found hfound e he
        obtain ⟨i, rest, hsite⟩ := hbelow e he
        change Site.Before [found.1] e.site
        rw [hsite]
        exact .rel (Step.before_nested (isNested_eq_false_of_mem_directEntries hfound) i)
  | .method _ => List.Pairwise.nil
  | .constructor _ => List.Pairwise.nil
  | .field _ => List.Pairwise.nil
  | .comment _ => List.Pairwise.nil
  | .other => List.Pairwise.nil

theorem pairwise_nestedListing : (members : List Member) → (start : Nat) →
    (nestedListing start members).Pairwise fun a b => a.site.Before b.site
  | [], _ => List.Pairwise.nil
  | m :: more, start => by
      rw [nestedListing, List.pairwise_append]
      refine ⟨?_, pairwise_nestedListing more (start + 1), ?_⟩
      · exact List.pairwise_map.mpr (m.pairwise_listing.imp .cons)
      · simp only [List.forall_mem_map]
        intro a _ b hb
        obtain ⟨i, rest, hsite, -⟩ := (mem_nestedListing_iff more (start + 1) b).mp hb
        change Site.Before (.nested start :: a.site) b.site
        rw [hsite]
        exact .rel (show start < start + 1 + i by omega)

end

end Member

/-! What stands in a type declaration follows it. -/

namespace Site

end Site

section

variable {entries : List Entry} (hentries : entries.Pairwise fun a b => a.site.Before b.site)

include hentries

end

/-- Sites lead into types only. -/
theorem Member.exists_type_of_at?_eq_some {m : Member} {site : Site}
    {found : List String × Declaration} (hfound : m.at? site = some found) :
    ∃ header members, m = .type header members := by
  cases m with
  | type header members => exact ⟨header, members, rfl⟩
  | _ => simp [at?] at hfound

namespace CompilationUnit

/-- The listing of a file. -/
def listing (unit : CompilationUnit) : List Entry :=
  nestedListing 0 (unit.items.map Item.asMember)

variable (unit : CompilationUnit)

theorem mem_listing_iff (e : Entry) :
    e ∈ unit.listing ↔ unit.at? e.site = some (e.outer, e.declaration) := by
  rw [listing, Member.mem_nestedListing_iff]
  simp only [Nat.zero_add, List.getElem?_map, Option.bind_map]
  constructor
  · rintro ⟨i, rest, hsite, hfound⟩
    rw [hsite]
    exact hfound
  · intro hfound
    cases hsite : e.site with
    | nil =>
        rw [hsite] at hfound
        contradiction
    | cons step rest =>
        rw [hsite] at hfound
        cases step with
        | nested i => exact ⟨i, rest, rfl, hfound⟩
        | component => contradiction
        | member => contradiction

theorem pairwise_listing : unit.listing.Pairwise fun a b => a.site.Before b.site :=
  Member.pairwise_nestedListing _ 0

end CompilationUnit

end ClassChart.Java
