import ClassChart.Java.Token
import ClassChart.Proofs.Java.BlockComment
import ClassChart.Proofs.Text
import Mathlib.Data.List.Chain

/-!
The words of a source text.  A word is made of letters and so differs from the blanks
and marks around it, and two words that follow one another have a blank between them.
-/
namespace ClassChart.Java

open Text (isBlank Lacks)

theorem isBlank_of_isGap {c : Char} (hc : Lexer.isGap c = true) : isBlank c = true := by
  simp only [Lexer.isGap, Bool.or_eq_true, beq_iff_eq] at hc
  rcases hc with ((((rfl | rfl) | rfl) | rfl) | rfl) | rfl <;> decide

theorem isIdentPart_of_isIdentStart {c : Char} (hc : isIdentStart c = true) :
    isIdentPart c = true := by
  rw [isIdentStart] at hc
  rw [isIdentPart]
  split at hc
  · rename_i hascii
    rw [if_pos hascii, Char.isAlphanum]
    simp only [Bool.or_eq_true] at hc ⊢
    rcases hc with (hc | hc) | hc
    · exact .inl (.inl (.inl hc))
    · exact .inl (.inr hc)
    · exact .inr hc
  · rename_i hother
    rw [if_neg hother, hc, Bool.or_true, Bool.true_or]

/-- The code points of the blanks. -/
def blankPoints : List Nat :=
  List.range' 9 5 ++ List.range' 28 5 ++ List.range' 0x2000 11 ++
    [0x85, 0xA0, 0x1680, 0x2028, 0x2029, 0x202F, 0x205F, 0x3000]

theorem isBlank_eq_false_of_isIdentPart {c : Char} (hc : isIdentPart c = true) :
    isBlank c = false := by
  rw [← Bool.not_eq_true]
  intro hblank
  have hpoint : c.toNat ∈ blankPoints := by
    simp only [isBlank, Bool.or_eq_true, Bool.and_eq_true, decide_eq_true_eq, beq_iff_eq] at hblank
    simp only [blankPoints, List.mem_append, List.mem_range'_1, List.mem_cons, List.not_mem_nil,
      or_false]
    omega
  have hnone : ∀ n ∈ blankPoints, isIdentPart (Char.ofNat n) = false := by decide +kernel
  have hnot := hnone _ hpoint
  rw [Char.ofNat_toNat] at hnot
  exact Bool.eq_false_iff.mp hnot hc

/-- A character of a word.  One word has a hyphen. -/
def IsLetter (c : Char) : Prop :=
  isIdentPart c = true ∨ c = '-'

theorem IsLetter.isBlank_eq_false {c : Char} (hc : IsLetter c) : isBlank c = false := by
  rcases hc with hc | rfl
  · exact isBlank_eq_false_of_isIdentPart hc
  · decide

/-- A word of a source text. -/
structure Word where
  text : String
  nonempty : text ≠ ""
  letters : ∀ c ∈ text.toList, IsLetter c

namespace Word

variable (w : Word)

theorem isBlank_eq_false {c : Char} (hc : c ∈ w.text.toList) : isBlank c = false :=
  (w.letters c hc).isBlank_eq_false

theorem lacks {c : Char} (hpart : isIdentPart c = false) (hhyphen : c ≠ '-') : Lacks c w.text := by
  intro hc
  rcases w.letters c hc with hletter | hletter
  · exact Bool.eq_false_iff.mp hpart hletter
  · exact hhyphen hletter

end Word

theorem exists_word {cs : List Char} (hnil : cs ≠ []) (hcs : ∀ c ∈ cs, IsLetter c) :
    ∃ w : Word, w.text = String.ofList cs :=
  ⟨⟨String.ofList cs, mt String.ofList_eq_empty_iff.mp hnil, by rwa [String.toList_ofList]⟩, rfl⟩

namespace Lexer

/-- What is scanned as a word is a word that does not go on behind it. -/
theorem takeWord_spec {c : Char} (hc : isIdentStart c = true) (rest : List Char) :
    (∃ w : Word, w.text = String.ofList (takeWord c rest).1) ∧
      continuesWord (takeWord c rest).2 = false := by
  have hhead : IsLetter c := .inl (isIdentPart_of_isIdentStart hc)
  have htail : ∀ d ∈ rest.takeWhile isIdentPart, IsLetter d := fun d hd =>
    .inl (List.all_eq_true.mp List.all_takeWhile d hd)
  have htext : ∀ d ∈ c :: rest.takeWhile isIdentPart, IsLetter d :=
    List.forall_mem_cons.mpr ⟨hhead, htail⟩
  have hsealed : ∀ d ∈ "-sealed".toList, isIdentPart d = true ∨ d = '-' := by
    simp
    decide
  rw [takeWord]
  split
  · rename_i hhyphened
    simp only [Bool.and_eq_true, Bool.not_eq_true'] at hhyphened
    exact ⟨exists_word (by simp) (List.forall_mem_append.mpr ⟨htext, hsealed⟩), hhyphened.2⟩
  · refine ⟨exists_word (by simp) htext, ?_⟩
    have hstop := List.head?_dropWhile_not isIdentPart rest
    dsimp only [continuesWord]
    cases hrest : rest.dropWhile isIdentPart with
    | nil => rfl
    | cons d more =>
        rw [hrest] at hstop
        exact hstop

/-- What a scanned token says about its text and what follows. -/
theorem scan_spec {cs : List Char} {kind : TokenKind} {text after : List Char}
    (hscan : scan cs = some (kind, text, after)) :
    (kind = .word → continuesWord cs = true ∧ continuesWord after = false ∧
      ∃ w : Word, w.text = String.ofList text) ∧
    (kind = .lineComment ∨ kind = .blockComment → ∃ more, text = '/' :: more) := by
  unfold scan at hscan
  split at hscan
  case h_11 c rest _ _ _ _ _ _ _ _ _ =>
    split at hscan
    · dsimp only at hscan
      cases hscan
      simp
    · split at hscan
      · rename_i hstart
        obtain ⟨hword, hends⟩ := takeWord_spec hstart rest
        have htake : takeWord c rest = (text, after) := (Prod.mk.inj (Option.some.inj hscan)).2
        have hkind : TokenKind.word = kind := (Prod.mk.inj (Option.some.inj hscan)).1
        rw [htake] at hword hends
        refine ⟨fun _ => ⟨isIdentPart_of_isIdentStart hstart, hends, hword⟩, ?_⟩
        simp [← hkind]
      · split at hscan
        · cases hscan
          simp
        · split at hscan
          · cases hscan
            simp
          · cases hscan
  all_goals
    first
    | contradiction
    | cases hscan
      simp
    | obtain ⟨_, -, heq⟩ := Option.map_eq_some_iff.mp hscan
      cases heq
      simp

end Lexer

/-- What the scanner says of every token. -/
structure Token.Scanned (t : Token) : Prop where
  gap : ∀ c ∈ t.gap.toList, isBlank c = true
  word : t.kind = .word → ∃ w : Word, w.text = t.text
  comment : t.isComment = true → Text.beginsWith "/" t.text = true
  block : t.kind = .blockComment → ∃ b : BlockComment, b.text = t.text

/-- If both tokens are words, they have blanks between them. -/
def Token.Apart (t next : Token) : Prop :=
  t.kind = .word → next.kind = .word → next.gap ≠ ""

namespace Lexer

/-- One step of the scanner: the blanks before a token, the token, and the rest of the text. -/
theorem tokensFrom_succ {fuel line : Nat} {cs : List Char} {ts : List Token}
    (hts : tokensFrom (fuel + 1) line cs = some ts) :
    ts = [] ∨ ∃ t rest after next, ts = t :: rest ∧
      scan (cs.dropWhile isGap) = some (t.kind, t.text.toList, after) ∧
      t.gap = String.ofList (cs.takeWhile isGap) ∧ tokensFrom fuel next after = some rest := by
  rw [tokensFrom] at hts
  dsimp only at hts
  split at hts
  · exact .inl (Option.some.inj hts).symm
  · split at hts
    · contradiction
    · rename_i kind text after hscan
      simp only [Option.bind_eq_bind, Option.bind_eq_some_iff, Option.pure_def,
        Option.some.injEq] at hts
      obtain ⟨rest, hrest, rfl⟩ := hts
      refine .inr ⟨_, rest, after, _, rfl, ?_, rfl, hrest⟩
      rw [String.toList_ofList]
      exact hscan

/-- All tokens are what the scanner says, and words have blanks between them.  The first has
blanks before it if it is a word and would continue one. -/
theorem tokensFrom_spec {fuel line : Nat} {cs : List Char} {ts : List Token}
    (hts : tokensFrom fuel line cs = some ts) :
    (∀ t ∈ ts, t.Scanned) ∧ ts.IsChain Token.Apart ∧
      (continuesWord cs = false → ∀ t ∈ ts.head?, t.kind = .word → t.gap ≠ "") := by
  induction fuel generalizing line cs ts with
  | zero => contradiction
  | succ n ih =>
      rcases tokensFrom_succ hts with rfl | ⟨t, rest, after, next, rfl, hscan, hgap, hrest⟩
      · simp
      · obtain ⟨hscanned, hchain, hhead⟩ := ih hrest
        obtain ⟨hword, hcomment⟩ := scan_spec hscan
        have ht : t.Scanned := by
          refine ⟨fun c hc => ?_, fun hkind => ?_, fun hkind => ?_, fun hkind => ?_⟩
          · rw [hgap, String.toList_ofList] at hc
            exact isBlank_of_isGap (List.all_eq_true.mp List.all_takeWhile c hc)
          · obtain ⟨-, -, w, hw⟩ := hword hkind
            exact ⟨w, by rw [hw, String.ofList_toList]⟩
          · obtain ⟨more, hmore⟩ := hcomment (by simpa [Token.isComment] using hkind)
            rw [Text.beginsWith, hmore]
            rfl
          · rw [hkind] at hscan
            obtain ⟨-, b, hb⟩ := exists_of_scan hscan
            exact ⟨b, String.toList_inj.mp hb⟩
        refine ⟨List.forall_mem_cons.mpr ⟨ht, hscanned⟩, List.isChain_cons.mpr ⟨?_, hchain⟩, ?_⟩
        · exact fun u hu hkind hukind => hhead (hword hkind).2.1 u hu hukind
        · rintro hcs u hu hkind hempty
          cases hu
          rw [hgap, String.ofList_eq_empty_iff] at hempty
          have hsame := List.takeWhile_append_dropWhile (p := isGap) (l := cs)
          rw [hempty, List.nil_append] at hsame
          rw [hsame] at hscan
          have hgoes := ((scan_spec hscan).1 hkind).1
          rw [hcs] at hgoes
          contradiction

theorem tokens_spec {source : String} {ts : List Token} (hts : tokens source = some ts) :
    (∀ t ∈ ts, t.Scanned) ∧ ts.IsChain Token.Apart :=
  have hspec := tokensFrom_spec hts
  ⟨hspec.1, hspec.2.1⟩

end Lexer

end ClassChart.Java
