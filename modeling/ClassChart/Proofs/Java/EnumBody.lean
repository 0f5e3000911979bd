import ClassChart.Proofs.Java.Comments

/-!
The bodies of enums.  The constants of an enum end at the first semicolon of its body, so its
members are those of a class that has as its body what follows that semicolon.
-/
namespace ClassChart.Java

def Piece.isSemicolon : Piece → Bool
  | .token t => t.kind = .symbol && t.text = ";"
  | .group .. => false

namespace Parser

variable {α β : Type}

/-- The part of the body of an enum in which members are declared. -/
def declarationsOf (body : List Piece) : List Piece :=
  (body.dropWhile (!·.isSemicolon)).tail

/-- What stands before the first semicolon does not count. -/
theorem declarationsOf_append {before : List Piece}
    (hbefore : ∀ q ∈ before, q.isSemicolon = false) (rest : List Piece) :
    declarationsOf (before ++ rest) = declarationsOf rest := by
  rw [declarationsOf, List.dropWhile_append_of_pos, declarationsOf]
  intro q hq
  rw [hbefore q hq]
  rfl

theorem declarationsOf_eq_nil {body : List Piece} (hbody : ∀ q ∈ body, q.isSemicolon = false) :
    declarationsOf body = [] := by
  have hempty := declarationsOf_append hbody []
  rw [List.append_nil] at hempty
  exact hempty

theorem declarationsOf_suffix (body : List Piece) : declarationsOf body <:+ body :=
  (List.tail_suffix _).trans (List.dropWhile_suffix _)

theorem isSemicolon_of_isComment {q : Piece} (hq : q.isComment = true) :
    q.isSemicolon = false := by
  cases q with
  | group => rfl
  | token t =>
      have hkind : t.kind = .lineComment ∨ t.kind = .blockComment := by
        simpa [Piece.isComment, Token.isComment] using hq
      rcases hkind with hkind | hkind <;> simp [Piece.isSemicolon, hkind]

theorem isSemicolon_of_code {lead : List Piece} (hlead : code lead = []) :
    ∀ q ∈ lead, q.isSemicolon = false := by
  intro q hq
  apply isSemicolon_of_isComment
  simpa using List.filter_eq_nil_iff.mp hlead q hq

/-- A parser takes no semicolon, other than in brackets. -/
def Spares (p : Parser α) : Prop :=
  p.Takes fun taken _ => ∀ q ∈ taken, q.isSemicolon = false

namespace Spares

theorem pure (a : α) : (Pure.pure a : Parser α).Spares := by
  refine (Takes.pure a).mono ?_
  rintro taken b ⟨rfl, -⟩ q hq
  contradiction

theorem failure : (Alternative.failure : Parser α).Spares :=
  Takes.failure

theorem bind {p : Parser α} {f : α → Parser β} (hp : p.Spares) (hf : ∀ a, (f a).Spares) :
    (p >>= f).Spares := by
  refine (Takes.bind hp hf).mono ?_
  rintro taken b ⟨a, first, second, rfl, hfirst, hsecond⟩
  exact List.forall_mem_append.mpr ⟨hfirst, hsecond⟩

theorem orElse {p q : Parser α} (hp : p.Spares) (hq : q.Spares) : (p <|> q).Spares :=
  Takes.orElse hp hq

theorem attempt {p : Parser α} (hp : p.Spares) : (Parser.attempt p).Spares := by
  refine (Takes.attempt hp).mono ?_
  rintro taken found (⟨a, -, ha⟩ | ⟨-, rfl⟩)
  · exact ha
  · simp

theorem many {p : Parser α} (hp : p.Spares) : (Parser.many p).Spares := by
  refine (Takes.many hp).mono ?_
  rintro taken as ⟨parts, rfl, hparts⟩
  induction hparts with
  | nil => simp
  | cons hpart _ ih => exact List.forall_mem_append.mpr ⟨hpart, ih⟩

theorem ahead (p : Parser α) : (Parser.ahead p).Spares := by
  intro pieces found rest hrun
  obtain ⟨rfl, rfl⟩ := Prod.mk.inj (Option.some.inj hrun)
  exact ⟨[], rfl, by simp⟩

theorem source {p : Parser α} (hp : p.Spares) : (Parser.source p).Spares := by
  refine (takes_source hp).mono ?_
  rintro taken text ⟨lead, body, -, rfl, hlead, -, hbody, -⟩
  exact List.forall_mem_append.mpr ⟨isSemicolon_of_code hlead, hbody⟩

theorem of_picks {p : Parser α} {S : Piece → α → Prop} (hp : p.Picks S)
    (hS : ∀ q a, S q a → q.isSemicolon = false) : p.Spares := by
  refine Takes.mono hp ?_
  rintro taken a ⟨lead, q, rfl, hlead, -, ha⟩
  exact List.forall_mem_append.mpr
    ⟨isSemicolon_of_code hlead, List.forall_mem_singleton.mpr (hS q a ha)⟩

end Spares

theorem spares_symbol {text : String} (htext : text ≠ ";") : (symbol text).Spares := by
  refine .of_picks (picks_symbol text) ?_
  rintro q - ⟨t, rfl, -, rfl⟩
  simp [Piece.isSemicolon, htext]

theorem spares_wordThat (p : String → Bool) : (wordThat p).Spares := by
  refine .of_picks (picks_wordThat p) ?_
  rintro q text ⟨t, rfl, hkind, -⟩
  simp [Piece.isSemicolon, hkind]

theorem spares_group (opening : String) : (group opening).Spares := by
  refine .of_picks (picks_group opening) ?_
  rintro q inner ⟨t, closing, rfl, -⟩
  rfl

theorem spares_comments : comments.Spares :=
  takes_comments.mono fun _ _ htaken => isSemicolon_of_code htaken.1

theorem spares_annotationUse : annotationUse.Spares := by
  have hname : qualifiedName.Spares := by
    refine .bind (spares_wordThat _) fun _ => .bind (.many ?_) fun _ => .pure _
    exact .bind (spares_symbol (by decide)) fun _ => spares_wordThat _
  exact .bind (spares_symbol (by decide)) fun _ => .bind hname fun _ =>
    .bind (spares_group _).attempt fun _ => .pure _

theorem spares_modifiers : modifiers.Spares := by
  have hmodifier : modifier.Spares := by
    refine .bind spares_comments fun _ => .bind (.orElse ?_ ?_) fun _ => .pure _
    · exact .bind spares_annotationUse.source fun _ => .pure _
    · refine .bind (spares_wordThat _) fun w => ?_
      split
      · refine .bind (.ahead _) fun _ => ?_
        split
        · exact .pure _
        · exact .failure
      · exact .pure _
  exact .bind spares_comments fun _ => .bind hmodifier.many fun _ => .pure _

theorem spares_commaSeparated {p : Parser α} (hp : p.Spares) : (commaSeparated p).Spares := by
  refine .bind hp fun _ => .bind (.many ?_) fun _ => .pure _
  exact .bind (spares_symbol (by decide)) fun _ => hp

theorem spares_enumConstant : enumConstant.Spares :=
  .bind spares_modifiers fun _ => .bind (spares_wordThat _) fun _ =>
    .bind (spares_group _).attempt fun _ => .bind (spares_group _).attempt fun _ => .pure _

/-- The constants leave what follows the first semicolon.  Where there is none, nothing but
comments may follow them. -/
theorem run_enumConstants {body pieces rest : List Piece}
    (hrun : enumConstants.run body = some (pieces, rest)) : pieces = declarationsOf body := by
  have hlist := (spares_commaSeparated spares_enumConstant).attempt
  have hcomma : (attempt (symbol ",")).Spares := (spares_symbol (by decide)).attempt
  rw [enumConstants, StateT.run_bind, Option.bind_eq_bind, Option.bind_eq_some_iff] at hrun
  obtain ⟨⟨_, afterList⟩, hrunList, hrun⟩ := hrun
  obtain ⟨constants, rfl, hconstants⟩ := hlist _ _ _ hrunList
  rw [StateT.run_bind, Option.bind_eq_bind, Option.bind_eq_some_iff] at hrun
  obtain ⟨⟨_, afterComma⟩, hrunComma, hrun⟩ := hrun
  obtain ⟨comma, rfl, hcomma⟩ := hcomma _ _ _ hrunComma
  rw [StateT.run_bind, Option.bind_eq_bind, Option.bind_eq_some_iff] at hrun
  obtain ⟨⟨more, left⟩, hrunMore, hrun⟩ := hrun
  obtain ⟨ending, rfl, hending⟩ := Takes.accepts (picks_symbol ";") _ _ _ hrunMore
  rw [declarationsOf_append hconstants, declarationsOf_append hcomma]
  -- What is left is returned if a semicolon ends the constants, or else it has to be comments.
  rw [StateT.run_bind, StateT.run_get] at hrun
  dsimp only [Option.pure_def, Option.bind_eq_bind, Option.bind_some] at hrun
  rw [StateT.run_bind, StateT.run_set] at hrun
  dsimp only [Option.pure_def, Option.bind_eq_bind, Option.bind_some] at hrun
  rcases hending with ⟨rfl, _, lead, q, rfl, hlead, -, t, rfl, hkind, htext⟩ | ⟨rfl, rfl⟩
  · obtain ⟨rfl, rfl⟩ := Prod.mk.inj (Option.some.inj hrun)
    rw [List.append_assoc, declarationsOf_append (isSemicolon_of_code hlead)]
    simp [declarationsOf, Piece.isSemicolon, hkind, htext]
  · split at hrun
    · contradiction
    split at hrun
    · rename_i hcomments
      obtain ⟨rfl, rfl⟩ := Prod.mk.inj (Option.some.inj hrun)
      have hnone : ∀ q ∈ left, q.isSemicolon = false := by
        intro q hq
        apply isSemicolon_of_isComment
        exact List.all_eq_true.mp hcomments q hq
      exact (declarationsOf_eq_nil hnone).symm
    · contradiction

theorem memberPieces_enumForm {body pieces : List Piece}
    (hpieces : memberPieces .enumForm body = some pieces) : pieces = declarationsOf body := by
  rw [memberPieces, complete] at hpieces
  split at hpieces
  · rename_i found rest hrun
    split at hpieces
    · exact Option.some.inj hpieces ▸ run_enumConstants hrun
    · contradiction
  · contradiction

/-- An enum whose constants can be read has the members of a class whose body is the part for
declarations, no more and in the same order. -/
theorem members_enumForm_eq_some_iff {fuel : Nat} {body : List Piece} {ms : List Member} :
    members (fuel + 1) .enumForm body = some ms ↔
      (memberPieces .enumForm body).isSome ∧
        members (fuel + 1) .classForm (declarationsOf body) = some ms := by
  have hstep : memberStep (members fuel) .enumForm = memberStep (members fuel) .classForm := rfl
  have hclass : memberPieces .classForm (declarationsOf body) = some (declarationsOf body) := rfl
  rw [members, members, hclass, hstep]
  cases hpieces : memberPieces .enumForm body with
  | none => simp
  | some pieces =>
      obtain rfl := memberPieces_enumForm hpieces
      simp

/-- The semicolon in the body of a constant does not end the constants. -/
example : (CompilationUnit.ofSource? "enum E \x7b A \x7b int x; \x7d, B; int y; \x7d").map
    (fun unit => (unit.units "E.java").map (·.name)) = some ["E", "y"] := by
  decide +kernel

end Parser

end ClassChart.Java
