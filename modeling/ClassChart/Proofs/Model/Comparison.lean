import ClassChart.Model.Parameters
import Mathlib.Data.List.Forall2
import Mathlib.Data.List.Shortlex
import Mathlib.Data.Prod.Lex
import Mathlib.Data.String.Basic

/-!
The comparisons of type names and of parameter lists.  Each of the five is made from "less" and
"the same" in its own way; they fit together because both of these go by one rank in a linear
order.  For parameter lists this is the shortlex order on the names of the types.
-/
namespace ClassChart

section

variable {α β γ : Type} [LinearOrder α] [LinearOrder β] [Preorder γ] {o o' : Ordering} {a b : α}

/-- Where the first parts differ, they decide between two wholes.  Where they agree, the second
parts do, as long as a whole grows with its second part. -/
theorem compares_then (whole : α → β → γ) {c d : β} (ho : o.Compares a b)
    (ho' : o'.Compares c d) (hfirst : ∀ {a b} c d, a < b → whole a c < whole b d)
    (hsecond : ∀ a, StrictMono (whole a)) : (o.then o').Compares (whole a c) (whole b d) := by
  cases o with
  | lt => exact hfirst c d ho
  | gt => exact hfirst d c ho
  | eq =>
      obtain rfl : a = b := ho
      exact (hsecond a).compares.mpr ho'

theorem compares_then_toLex {c d : β} (ho : o.Compares a b) (ho' : o'.Compares c d) :
    (o.then o').Compares (toLex (a, c)) (toLex (b, d)) := by
  apply compares_then (fun a c => toLex (a, c)) ho ho'
  · intro a b c d hab
    exact Prod.Lex.toLex_lt_toLex.mpr (.inl hab)
  · intro a c d hcd
    exact Prod.Lex.toLex_lt_toLex.mpr (.inr ⟨rfl, hcd⟩)

theorem compares_then_cons {as bs : List α} (ho : o.Compares a b) (ho' : o'.Compares as bs) :
    (o.then o').Compares (a :: as) (b :: bs) := by
  apply compares_then List.cons ho ho'
  · intro a b as bs hab
    exact List.cons_lt_cons_iff.mpr (.inl hab)
  · intro a as bs hlt
    exact List.cons_lt_cons_iff.mpr (.inr ⟨rfl, hlt⟩)

end

namespace Comparison

variable {α β : Type}

/-- The comparisons of a type as those of a total preorder. -/
structure Coherent (holds : Comparison → α → α → Bool) : Prop where
  /-- Of two values, the first is either less, or the same, or greater. -/
  exactlyOne : ∀ a b, [holds .lt a b, holds .eq a b, holds .gt a b].count true = 1
  le_eq : ∀ a b, holds .le a b = (holds .lt a b || holds .eq a b)
  ge_eq : ∀ a b, holds .ge a b = (holds .gt a b || holds .eq a b)
  /-- The first is greater if the second is less. -/
  gt_eq : ∀ a b, holds .gt a b = holds .lt b a
  eq_equivalence : Equivalence fun a b => holds .eq a b = true
  lt_trans : ∀ a b c, holds .lt a b = true → holds .lt b c = true → holds .lt a c = true
  /-- On either side a value may stand for another that is the same. -/
  lt_congr : ∀ a a' b b', holds .eq a a' = true → holds .eq b b' = true →
    holds .lt a b = holds .lt a' b'
  le_trans : ∀ a b c, holds .le a b = true → holds .le b c = true → holds .le a c = true
  le_total : ∀ a b, holds .le a b = true ∨ holds .le b a = true

variable [LinearOrder β]

/-- What a comparison says of two elements of a linear order. -/
def Relates (x y : β) : Comparison → Prop
  | .eq => x = y
  | .lt => x < y
  | .le => x ≤ y
  | .gt => y < x
  | .ge => y ≤ x

/-- A comparison is decided by whether the first is less and whether both are the same. -/
theorem result_iff_relates {less same : Bool} {x y : β} (hless : less = true ↔ x < y)
    (hsame : same = true ↔ x = y) (c : Comparison) : c.result less same = true ↔ c.Relates x y := by
  -- What is greater is found by negation, which is right because the order is total.
  have hnot : (!less) = true ↔ y ≤ x := by
    rw [Bool.not_eq_true', ← Bool.not_eq_true, hless, not_lt]
  cases c with
  | eq => exact hsame
  | lt => exact hless
  | ge => exact hnot
  | le => rw [result, Bool.or_eq_true, hless, hsame, Relates, le_iff_lt_or_eq]
  | gt =>
      rw [result, Bool.and_eq_true, hnot, Bool.not_eq_true', ← Bool.not_eq_true, hsame, Relates,
        lt_iff_le_and_ne, ne_comm]

section

variable {holds : Comparison → α → α → Bool} {rank : α → β}
  (h : ∀ c a b, holds c a b = true ↔ c.Relates (rank a) (rank b))

include h

theorem holds_congr_of_rank {a a' b b' : α} (ha : rank a = rank a') (hb : rank b = rank b')
    (c : Comparison) : holds c a b = holds c a' b' := by
  rw [Bool.eq_iff_iff, h, h, ha, hb]

theorem exactlyOne_of_rank (a b : α) :
    [holds .lt a b, holds .eq a b, holds .gt a b].count true = 1 := by
  have hfalse : ∀ c, ¬ c.Relates (rank a) (rank b) → holds c a b = false :=
    fun c hc => Bool.eq_false_iff.mpr (mt (h c a b).mp hc)
  rcases lt_trichotomy (rank a) (rank b) with hlt | heq | hgt
  · rw [(h .lt a b).mpr hlt, hfalse .eq hlt.ne, hfalse .gt hlt.not_gt]
    rfl
  · rw [(h .eq a b).mpr heq, hfalse .lt heq.not_lt, hfalse .gt heq.not_gt]
    rfl
  · rw [(h .gt a b).mpr hgt, hfalse .lt hgt.not_gt, hfalse .eq hgt.ne']
    rfl

/-- Comparisons that go by a rank in a linear order are those of a total preorder. -/
theorem coherent_of_rank : Coherent holds where
  exactlyOne := exactlyOne_of_rank h
  le_eq a b := by
    rw [Bool.eq_iff_iff, Bool.or_eq_true, h, h, h]
    exact le_iff_lt_or_eq
  ge_eq a b := by
    rw [Bool.eq_iff_iff, Bool.or_eq_true, h, h, h, Relates, Relates, Relates, eq_comm]
    exact le_iff_lt_or_eq
  gt_eq a b := by
    rw [Bool.eq_iff_iff, h, h]
    exact Iff.rfl
  eq_equivalence := by
    simp only [h]
    exact InvImage.equivalence _ rank eq_equivalence
  lt_trans a b c := by
    rw [h, h, h]
    exact lt_trans
  lt_congr a a' b b' ha hb := holds_congr_of_rank h ((h .eq a a').mp ha) ((h .eq b b').mp hb) .lt
  le_trans a b c := by
    rw [h, h, h]
    exact le_trans
  le_total a b := by
    rw [h, h]
    exact le_total _ _

end

end Comparison

namespace TypeName

/-- What type names are ordered by. -/
def rank (name : TypeName) : String ×ₗ String :=
  toLex (name.qualified, name.simple)

theorem compares_order (a b : TypeName) : (a.order b).Compares a.rank b.rank :=
  compares_then_toLex ((compare_iff _ _).mp rfl) ((compare_iff _ _).mp rfl)

theorem rank_inj {a b : TypeName} : a.rank = b.rank ↔ a = b := by
  rw [rank, rank, toLex_inj, Prod.mk_inj, and_comm, TypeName.mk.injEq]

theorem holds_iff_relates (c : Comparison) (a b : TypeName) :
    holds c a b = true ↔ c.Relates a.rank b.rank := by
  apply Comparison.result_iff_relates
  · rw [decide_eq_true_eq, (compares_order a b).eq_lt]
  · rw [decide_eq_true_eq, rank_inj]

theorem coherent_holds : Comparison.Coherent holds :=
  Comparison.coherent_of_rank holds_iff_relates

end TypeName

/-- The name by which a parameter counts: the qualified name of its type, or the empty name if the
type is unknown. -/
def Parameter.typeName : Parameter → String
  | ⟨_, some type⟩ => type.qualified
  | ⟨_, none⟩ => ""

/-- Two parameters that differ at most in their names and in the written forms of their types. -/
inductive Parameter.Relabelled : Parameter → Parameter → Prop
  | unknown (name name' : Option String) : Relabelled ⟨name, none⟩ ⟨name', none⟩
  | known (name name' : Option String) (simple simple' qualified : String) :
      Relabelled ⟨name, some ⟨simple, qualified⟩⟩ ⟨name', some ⟨simple', qualified⟩⟩

theorem Parameter.Relabelled.typeName_eq {p q : Parameter} (h : p.Relabelled q) :
    p.typeName = q.typeName := by
  cases h with
  | unknown => rfl
  | known => rfl

namespace Parameters

/-- What parameter lists are ordered by: their number, then their types one by one. -/
def rank (ps : Parameters) : ℕ ×ₗ List String :=
  toLex (ps.params.length, ps.typeKey)

theorem compares_orderKeys (as bs : List String) : (orderKeys as bs).Compares as bs := by
  induction as generalizing bs with
  | nil =>
      cases bs with
      | nil => exact rfl
      | cons b bs => exact List.nil_lt_cons b bs
  | cons a as ih =>
      cases bs with
      | nil => exact List.nil_lt_cons a as
      | cons b bs => exact compares_then_cons ((compare_iff a b).mp rfl) (ih bs)

theorem compares_order (a b : Parameters) : (a.order b).Compares a.rank b.rank :=
  compares_then_toLex ((compare_iff _ _).mp rfl) (compares_orderKeys _ _)

theorem sameTypes_iff {a b : Parameters} : a.sameTypes b = true ↔ a.rank = b.rank := by
  rw [sameTypes, Bool.and_eq_true, decide_eq_true_eq, decide_eq_true_eq, rank, rank, toLex_inj,
    Prod.mk_inj]

theorem holds_iff_relates (c : Comparison) (a b : Parameters) :
    holds c a b = true ↔ c.Relates a.rank b.rank := by
  apply Comparison.result_iff_relates
  · rw [decide_eq_true_eq, (compares_order a b).eq_lt]
  · exact sameTypes_iff

theorem typeKey_eq_map (ps : Parameters) : ps.typeKey = ps.params.map Parameter.typeName := by
  apply List.map_congr_left
  intro p _
  cases p with
  | mk name type =>
      cases type with
      | none => rfl
      | some type => rfl

theorem rank_lt_iff {a b : Parameters} : a.rank < b.rank ↔
    List.Shortlex (· < ·) (a.params.map Parameter.typeName) (b.params.map Parameter.typeName) := by
  rw [List.shortlex_def, List.length_map, List.length_map, ← typeKey_eq_map, ← typeKey_eq_map]
  exact Prod.Lex.toLex_lt_toLex

/-- The type names tell the number of the parameters too. -/
theorem rank_eq_iff {a b : Parameters} :
    a.rank = b.rank ↔ a.params.map Parameter.typeName = b.params.map Parameter.typeName := by
  rw [rank, rank, toLex_inj, Prod.mk_inj, typeKey_eq_map, typeKey_eq_map]
  constructor
  · exact And.right
  · intro hnames
    have hlength := congrArg List.length hnames
    rw [List.length_map, List.length_map] at hlength
    exact ⟨hlength, hnames⟩

/-- Two lists whose parameters differ at most in their names and in the written forms of their
types.  One may be variadic and the other not. -/
def Relabelled (a b : Parameters) : Prop :=
  List.Forall₂ Parameter.Relabelled a.params b.params

theorem Relabelled.rank_eq {a b : Parameters} (h : a.Relabelled b) : a.rank = b.rank := by
  have hnames := List.Forall₂.imp (fun _ _ => Parameter.Relabelled.typeName_eq) h
  rw [rank_eq_iff, ← List.forall₂_eq_eq_eq, List.forall₂_map_left_iff, List.forall₂_map_right_iff]
  exact hnames

/-- Parameter lists are compared by the names of their types in shortlex order.  The comparisons
are those of a total preorder, and what the parameters are called, how their types are written and
whether a list is variadic makes no difference to any of them. -/
theorem holds_by_shortlex :
    Comparison.Coherent holds ∧
      (∀ a b : Parameters, holds .lt a b = true ↔ List.Shortlex (· < ·)
        (a.params.map Parameter.typeName) (b.params.map Parameter.typeName)) ∧
      (∀ a b : Parameters, holds .eq a b = true ↔
        a.params.map Parameter.typeName = b.params.map Parameter.typeName) ∧
      ∀ a a' b b' : Parameters, a.Relabelled a' → b.Relabelled b' →
        ∀ c, holds c a b = holds c a' b' := by
  refine ⟨Comparison.coherent_of_rank holds_iff_relates, ?_, ?_, ?_⟩
  · intro a b
    exact (holds_iff_relates .lt a b).trans rank_lt_iff
  · intro a b
    exact (holds_iff_relates .eq a b).trans rank_eq_iff
  · intro a a' b b' ha hb
    exact Comparison.holds_congr_of_rank holds_iff_relates ha.rank_eq hb.rank_eq

/-- Three overloads of which the second and the third have the same number of parameters, and the
first two with other parameter names and other written forms of their types. -/
theorem holds_by_shortlex_overloads :
    let a : Parameters := ⟨[⟨some "to", some ⟨"z.Z", "z.Z"⟩⟩], false⟩
    let a' : Parameters := ⟨[⟨none, some ⟨"Z", "z.Z"⟩⟩], true⟩
    let b : Parameters := ⟨[⟨some "key", some ⟨"int", "int"⟩⟩, ⟨none, none⟩], false⟩
    let b' : Parameters := ⟨[⟨some "at", some ⟨"a", "int"⟩⟩, ⟨some "to", none⟩], true⟩
    let c : Parameters := ⟨[⟨some "key", some ⟨"int", "int"⟩⟩, ⟨none, some ⟨"A", "b.A"⟩⟩], false⟩
    a.Relabelled a' ∧ b.Relabelled b' ∧ holds .lt a b = true ∧ holds .lt b c = true ∧
      holds .lt a' b' = true ∧ holds .lt a c = true := by
  intro a a' b b' c
  have ha : a.Relabelled a' := .cons (.known ..) .nil
  have hb : b.Relabelled b' := .cons (.known ..) (.cons (.unknown ..) .nil)
  have hab : holds .lt a b = true := by decide
  have hbc : holds .lt b c = true := by decide
  obtain ⟨hcoherent, -, -, hsame⟩ := holds_by_shortlex
  have hab' : holds .lt a' b' = true := by rw [← hsame a a' b b' ha hb, hab]
  exact ⟨ha, hb, hab, hbc, hab', hcoherent.lt_trans a b c hab hbc⟩

end Parameters

end ClassChart
