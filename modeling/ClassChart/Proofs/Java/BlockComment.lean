import ClassChart.Java.Token
import ClassChart.Proofs.Text

/-!
Block comments.  A block comment ends with the first closing mark behind its opening mark, and
these are the texts that the scanner takes for block comments.
-/
namespace ClassChart.Java

/-- What stands between the marks of a block comment has no closing mark in it. -/
structure BlockComment where
  inner : String
  closed : ¬ ['*', '/'] <:+: inner.toList

namespace BlockComment

def text (b : BlockComment) : String :=
  "/*" ++ b.inner ++ "*/"

end BlockComment

namespace Lexer

theorem not_infix_cons_iff {c : Char} {cs : List Char} :
    ¬ ['*', '/'] <:+: c :: cs ↔ ¬ (c = '*' ∧ cs.head? = some '/') ∧ ¬ ['*', '/'] <:+: cs := by
  rw [List.infix_cons_iff, not_or]
  refine and_congr_left' (not_congr ?_)
  cases cs with
  | nil => simp
  | cons d more => simp [List.cons_prefix_cons, eq_comm]

/-- A comment goes on up to the first closing mark. -/
theorem closeComment_append {inner : List Char} (hinner : ¬ ['*', '/'] <:+: inner)
    (after : List Char) :
    closeComment (inner ++ '*' :: '/' :: after) = some (inner ++ ['*', '/'], after) := by
  induction inner with
  | nil => rfl
  | cons c more ih =>
      obtain ⟨hfirst, hmore⟩ := not_infix_cons_iff.mp hinner
      have hopen : ∀ rest, c = '*' → more ++ '*' :: '/' :: after = '/' :: rest → False := by
        intro rest hc hrest
        apply hfirst
        refine ⟨hc, ?_⟩
        cases more with
        | nil => simp at hrest
        | cons d later => simpa using (List.cons.inj hrest).1
      rw [List.cons_append, closeComment.eq_3 c _ hopen, ih hmore]
      rfl

/-- A block comment ends at the first end mark, so there is none inside. -/
theorem exists_of_closeComment {cs text after : List Char}
    (hclose : closeComment cs = some (text, after)) :
    ∃ inner, text = inner ++ ['*', '/'] ∧ cs = text ++ after ∧ ¬ ['*', '/'] <:+: inner := by
  fun_induction closeComment cs generalizing text with
  | case1 => contradiction
  | case2 rest =>
      cases hclose
      exact ⟨[], rfl, rfl, by simp⟩
  | case3 c rest hopen ih =>
      obtain ⟨⟨more, left⟩, hrest, heq⟩ := Option.map_eq_some_iff.mp hclose
      cases heq
      obtain ⟨inner, rfl, rfl, hinner⟩ := ih hrest
      refine ⟨c :: inner, rfl, rfl, not_infix_cons_iff.mpr ⟨?_, hinner⟩⟩
      rintro ⟨rfl, hhead⟩
      obtain ⟨later, rfl⟩ := List.head?_eq_some_iff.mp hhead
      exact hopen _ rfl rfl

theorem scan_blockComment (b : BlockComment) (after : List Char) :
    scan (b.text.toList ++ after) = some (.blockComment, b.text.toList, after) := by
  have htext : b.text.toList = '/' :: '*' :: (b.inner.toList ++ ['*', '/']) := by
    simp [BlockComment.text]
  have hclose := closeComment_append b.closed after
  rw [htext, List.cons_append, List.cons_append, List.append_assoc]
  rw [scan]
  simp [hclose]

/-- Whatever is scanned as a block comment is one. -/
theorem exists_of_scan {cs text after : List Char}
    (hscan : scan cs = some (.blockComment, text, after)) :
    cs = text ++ after ∧ ∃ b : BlockComment, b.text.toList = text := by
  unfold scan at hscan
  split at hscan
  case h_3 rest =>
    obtain ⟨⟨more, left⟩, hclose, heq⟩ := Option.map_eq_some_iff.mp hscan
    cases heq
    obtain ⟨inner, rfl, rfl, hinner⟩ := exists_of_closeComment hclose
    exact ⟨rfl, ⟨String.ofList inner, by simpa using hinner⟩, by simp [BlockComment.text]⟩
  case h_11 =>
    split at hscan
    · dsimp only at hscan
      cases hscan
    · split at hscan
      · cases (Prod.mk.inj (Option.some.inj hscan)).1
      · split at hscan
        · cases hscan
        · split at hscan <;> cases hscan
  all_goals
    first
    | contradiction
    | cases hscan
    | obtain ⟨_, -, heq⟩ := Option.map_eq_some_iff.mp hscan
      cases heq

end Lexer

end ClassChart.Java
