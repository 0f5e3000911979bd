import ClassChart.Diagram.MemberBlock
import ClassChart.Proofs.Model.Comparison
import ClassChart.Proofs.StableSort

/-!
The order of the methods in a box.  Overloads stand together where the first of them was
declared, ordered by their parameters, and overloads with equal parameters stay in the order of
their declaration.  No other listing of the methods is like this.
-/
namespace ClassChart

theorem isLE_iff_of_compares {α : Type} [LinearOrder α] {o : Ordering} {a b : α}
    (ho : o.Compares a b) : o.isLE = true ↔ a ≤ b := by
  rw [← ho.ne_gt]
  cases o <;> simp

namespace MemberBlock

/-- What overloads of one another have in common. -/
def group (m : Method) : Bool × String :=
  (m.isConstructor, m.name)

theorem sameGroup_iff {a b : Method} : sameGroup a b = true ↔ group a = group b := by
  simp [sameGroup, group]

variable {methods listed : List Method} {a b : Method}

theorem groupIndex_eq_idxOf (methods : List Method) (m : Method) :
    groupIndex methods m = (methods.map group).idxOf (group m) := by
  have hsame : sameGroup m = (fun key => key == group m) ∘ group := by
    funext b
    rw [Bool.eq_iff_iff, sameGroup_iff, Function.comp_apply, beq_iff_eq]
    exact eq_comm
  rw [List.idxOf, List.findIdx_map, groupIndex, hsame]

theorem groupIndex_eq_iff (hb : b ∈ methods) :
    groupIndex methods a = groupIndex methods b ↔ group a = group b := by
  rw [groupIndex_eq_idxOf, groupIndex_eq_idxOf, eq_comm,
    List.idxOf_inj (List.mem_map_of_mem hb), eq_comm]

theorem groupIndex_congr (methods : List Method) (hab : group a = group b) :
    groupIndex methods a = groupIndex methods b := by
  rw [groupIndex_eq_idxOf, groupIndex_eq_idxOf, hab]

theorem groupIndex_lt_length (ha : a ∈ methods) : groupIndex methods a < methods.length :=
  List.findIdx_lt_length_of_exists ⟨a, ha, sameGroup_iff.mpr rfl⟩

/-- The position of a group is that of a method of it. -/
theorem group_getElem_groupIndex (h : groupIndex methods a < methods.length) :
    group methods[groupIndex methods a] = group a :=
  (sameGroup_iff.mp (List.findIdx_getElem (w := h))).symm

/-- A group whose first method stands before `a`, the first of its own group at the latest, has a
method before it. -/
theorem exists_mem_of_groupIndex_lt {before after : List Method}
    (hlt : groupIndex (before ++ a :: after) b < groupIndex (before ++ a :: after) a) :
    ∃ m ∈ before, group m = group b := by
  have hself : groupIndex (before ++ a :: after) a ≤ before.length := by
    rw [groupIndex, List.findIdx_append]
    split
    · omega
    · rw [List.findIdx_cons, sameGroup_iff.mpr rfl]
      simp
  have hbefore : before.findIdx (sameGroup b) < before.length := by
    by_contra hnone
    rw [groupIndex, List.findIdx_append, if_neg hnone] at hlt
    omega
  obtain ⟨m, hm, hgroup⟩ := List.findIdx_lt_length.mp hbefore
  exact ⟨m, hm, (sameGroup_iff.mp hgroup).symm⟩

/-- What methods are ordered by: where their first overload stands, then their parameters. -/
def place (methods : List Method) (m : Method) : ℕ ×ₗ (ℕ ×ₗ List String) :=
  toLex (groupIndex methods m, m.parameters.rank)

theorem inOrder_iff : inOrder methods a b = true ↔ place methods a ≤ place methods b :=
  isLE_iff_of_compares
    (compares_then_toLex ((compare_iff _ _).mp rfl) (Parameters.compares_order _ _))

/-- Places are ordered by the group first, and within one group by the parameters. -/
theorem place_le_iff (hb : b ∈ methods) : place methods a ≤ place methods b ↔
    groupIndex methods a ≤ groupIndex methods b ∧
      (group a = group b → a.parameters.rank ≤ b.parameters.rank) := by
  rw [place, place, Prod.Lex.toLex_le_toLex', ← groupIndex_eq_iff hb]

theorem inOrder_trans (methods : List Method) (a b c : Method) (hab : inOrder methods a b = true)
    (hbc : inOrder methods b c = true) : inOrder methods a c = true := by
  rw [inOrder_iff] at *
  exact hab.trans hbc

theorem inOrder_total (methods : List Method) (a b : Method) :
    (inOrder methods a b || inOrder methods b a) = true := by
  rw [Bool.or_eq_true, inOrder_iff, inOrder_iff]
  exact le_total _ _

/-- Whether two methods are overloads with equal parameters. -/
def alike (a b : Method) : Bool :=
  group b = group a && b.parameters.rank = a.parameters.rank

theorem inOrder_and_inOrder (hb : b ∈ methods) :
    (inOrder methods a b && inOrder methods b a) = alike a b := by
  rw [Bool.eq_iff_iff, Bool.and_eq_true, inOrder_iff, inOrder_iff, ← le_antisymm_iff, alike,
    Bool.and_eq_true, decide_eq_true_eq, decide_eq_true_eq, eq_comm (a := group b),
    ← groupIndex_eq_iff hb, eq_comm (a := b.parameters.rank), place, place, toLex_inj,
    Prod.mk_inj]

/-- One list of methods as an ordered listing of another. -/
structure Ordered (methods listed : List Method) : Prop where
  /-- The methods are the same. -/
  perm : listed.Perm methods
  /-- What stands between two overloads is one of them. -/
  together : ∀ a m b, [a, m, b].Sublist listed → group a = group b → group m = group a
  /-- A group comes before another if the first of it was declared before the first of the
  other. -/
  firstDeclared : ∀ a ∈ methods, ∀ b ∈ methods,
    (listed.map group).idxOf (group a) < (listed.map group).idxOf (group b) ↔
      (methods.map group).idxOf (group a) < (methods.map group).idxOf (group b)
  /-- Overloads do not decrease in their parameters. -/
  byParameters : listed.Pairwise fun a b =>
    group a = group b → a.parameters.rank ≤ b.parameters.rank
  /-- Overloads with equal parameters stand in the order of their declaration. -/
  stable : ∀ m, listed.filter (alike m) = methods.filter (alike m)

section

variable (hperm : listed.Perm methods)

include hperm

/-- If a listing goes by the positions of the groups in `methods`, so do its own positions of
the groups. -/
theorem groupIndex_lt_of_pairwise
    (hgroups : listed.Pairwise fun a b => groupIndex methods a ≤ groupIndex methods b)
    (ha : a ∈ methods) (hb : b ∈ methods) (hab : groupIndex listed a < groupIndex listed b) :
    groupIndex methods a < groupIndex methods b := by
  have hi := groupIndex_lt_length (hperm.mem_iff.mpr ha)
  have hj := groupIndex_lt_length (hperm.mem_iff.mpr hb)
  have hle := List.pairwise_iff_getElem.mp hgroups _ _ hi hj hab
  rw [groupIndex_congr methods (group_getElem_groupIndex hi),
    groupIndex_congr methods (group_getElem_groupIndex hj)] at hle
  apply Nat.lt_of_le_of_ne hle
  intro heq
  rw [groupIndex_eq_iff hb, ← groupIndex_eq_iff (hperm.mem_iff.mpr hb)] at heq
  omega

theorem groupIndex_lt_iff_of_pairwise
    (hgroups : listed.Pairwise fun a b => groupIndex methods a ≤ groupIndex methods b)
    (ha : a ∈ methods) (hb : b ∈ methods) :
    groupIndex listed a < groupIndex listed b ↔ groupIndex methods a < groupIndex methods b := by
  constructor
  · exact groupIndex_lt_of_pairwise hperm hgroups ha hb
  · intro hab
    rcases Nat.lt_trichotomy (groupIndex listed a) (groupIndex listed b) with hlt | heq | hgt
    · exact hlt
    · rw [groupIndex_eq_iff (hperm.mem_iff.mpr hb), ← groupIndex_eq_iff hb] at heq
      omega
    · have hba := groupIndex_lt_of_pairwise hperm hgroups hb ha hgt
      omega

/-- A listing goes by the positions of the groups if overloads stand together and the groups are
in the order of their first declarations. -/
theorem pairwise_groupIndex_iff :
    (listed.Pairwise fun a b => groupIndex methods a ≤ groupIndex methods b) ↔
      (∀ a m b, [a, m, b].Sublist listed → group a = group b → group m = group a) ∧
        ∀ a ∈ methods, ∀ b ∈ methods, groupIndex listed a < groupIndex listed b ↔
          groupIndex methods a < groupIndex methods b := by
  constructor
  · intro hgroups
    constructor
    · intro a m b habc hab
      have hmem : ∀ x ∈ [a, m, b], x ∈ methods := fun x hx => hperm.mem_iff.mp (habc.subset hx)
      obtain ⟨ha, hm⟩ := List.pairwise_cons.mp (hgroups.sublist habc)
      have ham := ha m (by simp)
      have hmb := List.rel_of_pairwise_cons hm (List.mem_singleton_self b)
      rw [← groupIndex_eq_iff (hmem b (by simp))] at hab
      rw [← groupIndex_eq_iff (hmem a (by simp))]
      omega
    · intro a ha b hb
      exact groupIndex_lt_iff_of_pairwise hperm hgroups ha hb
  · rintro ⟨htogether, hfirst⟩
    apply List.pairwise_iff_forall_sublist.mpr
    intro a b hab
    by_contra hlt
    rw [Nat.not_le] at hlt
    have hmem : ∀ x ∈ [a, b], x ∈ methods := fun x hx => hperm.mem_iff.mp (hab.subset hx)
    have hbefore := (hfirst b (hmem b (by simp)) a (hmem a (by simp))).mpr hlt
    -- The first of the group of `b` stands before `a`, so `a` stands between two of them.
    obtain ⟨front, rest, rfl, ha, hb⟩ := List.cons_sublist_iff.mp hab
    obtain ⟨before, after, rfl⟩ := List.append_of_mem ha
    rw [List.append_assoc, List.cons_append] at hbefore htogether
    obtain ⟨first, hfirst, hgroup⟩ := exists_mem_of_groupIndex_lt hbefore
    have hthree : [first, a, b].Sublist (before ++ a :: (after ++ rest)) := by
      apply (List.singleton_sublist.mpr hfirst).append
      apply List.Sublist.cons_cons
      exact hb.trans (List.sublist_append_right after rest)
    have hsame := htogether first a b hthree hgroup
    rw [groupIndex_congr methods (hsame.trans hgroup)] at hlt
    omega

end

theorem filter_inOrder (hsubset : listed ⊆ methods) (m : Method) :
    listed.filter (fun b => inOrder methods m b && inOrder methods b m) =
      listed.filter (alike m) := by
  apply List.filter_congr
  intro b hb
  exact inOrder_and_inOrder (hsubset hb)

/-- A list is in order exactly if its groups are and each group is within itself. -/
theorem pairwise_inOrder_iff (hsubset : listed ⊆ methods) :
    (listed.Pairwise fun a b => inOrder methods a b = true) ↔
      (listed.Pairwise fun a b => groupIndex methods a ≤ groupIndex methods b) ∧
        listed.Pairwise fun a b => group a = group b → a.parameters.rank ≤ b.parameters.rank := by
  rw [← List.pairwise_and_iff]
  apply List.Pairwise.iff_of_mem
  intro a b _ hb
  rw [inOrder_iff, place_le_iff (hsubset hb)]

/-- A listing is ordered if it is sorted and stable. -/
theorem ordered_iff : Ordered methods listed ↔
    listed.Perm methods ∧ (listed.Pairwise fun a b => inOrder methods a b = true) ∧
      ∀ m, listed.filter (alike m) = methods.filter (alike m) := by
  constructor
  · intro h
    have hfirst := h.firstDeclared
    simp only [← groupIndex_eq_idxOf] at hfirst
    have hgroups := (pairwise_groupIndex_iff h.perm).mpr ⟨h.together, hfirst⟩
    have hpairs := (pairwise_inOrder_iff h.perm.subset).mpr ⟨hgroups, h.byParameters⟩
    exact ⟨h.perm, hpairs, h.stable⟩
  · rintro ⟨hperm, hpairs, hstable⟩
    obtain ⟨hgroups, hparameters⟩ := (pairwise_inOrder_iff hperm.subset).mp hpairs
    obtain ⟨htogether, hfirst⟩ := (pairwise_groupIndex_iff hperm).mp hgroups
    simp only [groupIndex_eq_idxOf] at hfirst
    exact ⟨hperm, htogether, hfirst, hparameters, hstable⟩

theorem ordered_orderMethods (methods : List Method) : Ordered methods (orderMethods methods) := by
  have hperm := List.mergeSort_perm methods (inOrder methods)
  apply ordered_iff.mpr
  refine ⟨hperm, ?_, ?_⟩
  · exact List.pairwise_mergeSort (inOrder_trans methods) (inOrder_total methods) methods
  · intro m
    rw [orderMethods, ← filter_inOrder hperm.subset, ← filter_inOrder (List.Subset.refl methods)]
    exact filter_alike_mergeSort (inOrder_trans methods) (inOrder_total methods) m methods

theorem Ordered.eq_orderMethods (h : Ordered methods listed) : listed = orderMethods methods := by
  obtain ⟨hperm, hpairs, hstable⟩ := ordered_iff.mp h
  obtain ⟨hperm', hpairs', hstable'⟩ := ordered_iff.mp (ordered_orderMethods methods)
  apply eq_of_pairwise_of_filter_alike_eq _ hpairs hpairs'
  · intro m
    rw [filter_inOrder hperm.subset, filter_inOrder hperm'.subset, hstable, hstable']
  · intro m
    exact inOrder_iff.mpr le_rfl

/-- The methods are listed in the one way that keeps overloads together, the groups in the order
of their first declarations, the overloads of a group in the order of their parameters, and those
with equal parameters in the order of their declarations.  What is listed so stays as it is. -/
theorem ordered_iff_eq_orderMethods (methods : List Method) :
    (∀ listed, Ordered methods listed ↔ listed = orderMethods methods) ∧
      orderMethods (orderMethods methods) = orderMethods methods := by
  constructor
  · intro listed
    constructor
    · exact Ordered.eq_orderMethods
    · rintro rfl
      exact ordered_orderMethods methods
  · have h := ordered_orderMethods methods
    have hself : Ordered (orderMethods methods) (orderMethods methods) :=
      ⟨.refl _, h.together, fun _ _ _ _ => .rfl, h.byParameters, fun _ => rfl⟩
    exact hself.eq_orderMethods.symm

end MemberBlock

end ClassChart
