import ClassChart.Source.NameTable
import Mathlib.Data.List.Nodup
import Mathlib.Data.List.Perm.Subperm

/-!
The scopes around a name.  Types may claim to stand in each other in a circle, so
the walk outwards is cut off; what it finds does not depend on where, because a
walk longer than the table has come back to a scope it has already left.
-/
namespace ClassChart.NameTable

variable {table : NameTable}

/-- Scopes of which each stands directly in the next, from `scope` outwards. -/
def IsChain (table : NameTable) : Option String → List String → Prop
  | _, [] => True
  | scope, s :: rest => scope = some s ∧ s ≠ "" ∧ table.IsChain (table.enclosingOf s) rest

theorem isChain_scopesUpTo (fuel : Nat) (scope : Option String) :
    table.IsChain scope (table.scopesUpTo fuel scope) := by
  induction fuel generalizing scope with
  | zero => trivial
  | succ n ih =>
      cases scope with
      | none => trivial
      | some s =>
          rw [scopesUpTo]
          split
          · trivial
          · rename_i hs
            exact ⟨rfl, by simpa using hs, ih _⟩

/-- Every chain that fits is walked. -/
theorem IsChain.subset_scopesUpTo {fuel : Nat} {scope : Option String} {chain : List String}
    (hchain : table.IsChain scope chain) (hlength : chain.length ≤ fuel) :
    chain ⊆ table.scopesUpTo fuel scope := by
  induction chain generalizing fuel scope with
  | nil => exact List.nil_subset _
  | cons s rest ih =>
      obtain ⟨rfl, hs, hrest⟩ := hchain
      obtain ⟨n, rfl⟩ := Nat.exists_eq_add_one_of_ne_zero (Nat.ne_zero_of_lt hlength)
      have hwalk : table.scopesUpTo (n + 1) (some s) =
          s :: table.scopesUpTo n (table.enclosingOf s) := by
        rw [scopesUpTo, if_neg (by simpa using hs)]
      rw [hwalk]
      exact List.cons_subset_cons s (ih hrest (Nat.le_of_succ_le_succ hlength))

theorem IsChain.left {scope : Option String} {inner outer : List String}
    (hchain : table.IsChain scope (inner ++ outer)) : table.IsChain scope inner := by
  induction inner generalizing scope with
  | nil => trivial
  | cons s rest ih => exact ⟨hchain.1, hchain.2.1, ih hchain.2.2⟩

theorem IsChain.right {scope : Option String} {inner outer : List String} {s : String}
    (hchain : table.IsChain scope (inner ++ s :: outer)) :
    table.IsChain (some s) (s :: outer) := by
  induction inner generalizing scope with
  | nil => exact ⟨rfl, hchain.2⟩
  | cons _ rest ih => exact ih hchain.2.2

/-- What a walk reaches is reached without passing a scope twice. -/
theorem IsChain.exists_nodup {scope : Option String} {chain : List String}
    (hchain : table.IsChain scope chain) {target : String} (htarget : target ∈ chain) :
    ∃ short, table.IsChain scope short ∧ short.Nodup ∧ target ∈ short := by
  induction chain generalizing scope with
  | nil => contradiction
  | cons s rest ih =>
      obtain ⟨hscope, hs, hrest⟩ := hchain
      rcases List.mem_cons.mp htarget with rfl | hfar
      · exact ⟨[target], ⟨hscope, hs, trivial⟩, List.nodup_singleton _, List.mem_cons_self⟩
      · obtain ⟨short, hshort, hnodup, hmem⟩ := ih hrest hfar
        by_cases hback : s ∈ short
        · -- The walk from `s` comes back to `s`: the target lies on one side of that.
          obtain ⟨inner, outer, rfl⟩ := List.append_of_mem hback
          have hparts := List.nodup_middle.mp hnodup
          rcases List.mem_append.mp hmem with hinner | houter
          · refine ⟨s :: inner, ⟨hscope, hs, hshort.left⟩, ?_, List.mem_cons_of_mem _ hinner⟩
            exact hparts.sublist ((List.sublist_append_left inner outer).cons_cons s)
          · refine ⟨s :: outer, hscope ▸ hshort.right, ?_, houter⟩
            exact hnodup.sublist (List.sublist_append_right _ _)
        · exact ⟨s :: short, ⟨hscope, hs, hshort⟩, List.nodup_cons.mpr ⟨hback, hnodup⟩,
            List.mem_cons_of_mem _ hmem⟩

theorem mem_keys_of_enclosingOf {s outer : String} (houter : table.enclosingOf s = some outer) :
    s ∈ table.enclosing.map Prod.fst := by
  have hsome : (table.enclosing.reverse.lookup s).isSome := by
    rw [enclosingOf] at houter
    cases hlookup : table.enclosing.reverse.lookup s with
    | none => simp [hlookup] at houter
    | some _ => rfl
  rw [List.lookup_isSome_iff] at hsome
  simpa using hsome

/-- All scopes of a chain but the last have an entry in the table. -/
theorem IsChain.dropLast_subset {scope : Option String} {chain : List String}
    (hchain : table.IsChain scope chain) :
    chain.dropLast ⊆ table.enclosing.map Prod.fst := by
  induction chain generalizing scope with
  | nil => exact List.nil_subset _
  | cons s rest ih =>
      cases rest with
      | nil => exact List.nil_subset _
      | cons outer more =>
          exact List.cons_subset.mpr ⟨mem_keys_of_enclosingOf hchain.2.2.1, ih hchain.2.2⟩

/-- A chain without repetition is at most one longer than the table. -/
theorem IsChain.length_le {scope : Option String} {chain : List String}
    (hchain : table.IsChain scope chain) (hnodup : chain.Nodup) :
    chain.length ≤ table.enclosing.length + 1 := by
  have hdrop := List.subperm_of_subset (hnodup.sublist (List.dropLast_sublist _))
    hchain.dropLast_subset
  have hlength := hdrop.length_le
  rw [List.length_dropLast, List.length_map] at hlength
  omega

theorem scopesUpTo_prefix {few many : Nat} (hle : few ≤ many) (scope : Option String) :
    table.scopesUpTo few scope <+: table.scopesUpTo many scope := by
  induction few generalizing many scope with
  | zero => exact List.nil_prefix
  | succ n ih =>
      obtain ⟨m, rfl⟩ := Nat.exists_eq_add_one_of_ne_zero (Nat.ne_zero_of_lt hle)
      cases scope with
      | none => exact List.prefix_rfl
      | some s =>
          rw [scopesUpTo, scopesUpTo]
          split
          · exact List.prefix_rfl
          · exact List.prefix_cons_inj s |>.mpr (ih (Nat.le_of_succ_le_succ hle) _)

/-- A longer walk finds nothing else than the walk over all scopes. -/
theorem find?_scopesUpTo (found : String → Bool) {fuel : Nat}
    (hfuel : table.enclosing.length < fuel) (scope : Option String) :
    (table.scopesUpTo fuel scope).find? found = (table.scopes scope).find? found := by
  obtain ⟨more, hmore⟩ := table.scopesUpTo_prefix hfuel scope
  rw [← hmore, List.find?_append, ← scopes]
  cases hfind : (table.scopes scope).find? found with
  | some s => rfl
  | none =>
      rw [Option.none_or, List.find?_eq_none]
      intro s hs
      have hwalk : s ∈ table.scopesUpTo fuel scope := by
        rw [← hmore]
        exact List.mem_append_right _ hs
      obtain ⟨short, hshort, hnodup, hmem⟩ := (isChain_scopesUpTo fuel scope).exists_nodup hwalk
      exact List.find?_eq_none.mp hfind s
        (hshort.subset_scopesUpTo (hshort.length_le hnodup) hmem)

end ClassChart.NameTable
