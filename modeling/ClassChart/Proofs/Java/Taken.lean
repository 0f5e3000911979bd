import ClassChart.Java.Parser.File
import ClassChart.Proofs.Java.Words

/-!
What parsers take.  The pieces of a source text hold its tokens in their order, and a parser
takes pieces from the front, so the source of what it takes is a part of the source text.
-/
namespace ClassChart.Java

namespace Piece

theorem tokensOf_append (ps qs : List Piece) :
    tokensOf (ps ++ qs) = tokensOf ps ++ tokensOf qs := by
  induction ps with
  | nil => rfl
  | cons p rest ih => rw [List.cons_append, tokensOf, tokensOf, ih, List.append_assoc]

theorem tokensOf_subset {ps qs : List Piece} (hps : ps <:+ qs) : tokensOf ps ⊆ tokensOf qs := by
  obtain ⟨before, rfl⟩ := hps
  rw [tokensOf_append]
  exact List.subset_append_right _ _

theorem first_mem_tokensOf {p : Piece} {ps : List Piece} (hp : p ∈ ps) : p.first ∈ tokensOf ps := by
  obtain ⟨before, after, rfl⟩ := List.append_of_mem hp
  rw [tokensOf_append, tokensOf]
  cases p <;> simp [first, tokens]

/-- The tokens before a bracket that is still open and those before the brackets around it. -/
def openTokens : List (Token × List Piece) → List Token
  | [] => []
  | (opening, before) :: outer => openTokens outer ++ tokensOf before.reverse ++ [opening]

/-- Grouping keeps all tokens in their order.  The brackets still open hold those before them. -/
theorem tokensOf_nest {ts : List Token} {opened : List (Token × List Piece)}
    {done ps : List Piece} (hps : nest ts opened done = some ps) :
    tokensOf ps = openTokens opened ++ tokensOf done.reverse ++ ts := by
  fun_induction nest ts opened done with
  | case1 done =>
      cases hps
      simp [openTokens]
  | case2 => contradiction
  | case3 t rest opened done hkind ih =>
      simp [ih hps, tokensOf_append, tokensOf, tokens]
  | case4 t rest opened done hkind hopens ih =>
      simp [ih hps, openTokens, tokensOf]
  | case5 t rest done hkind hopens hcloses opening before outer hmatch ih =>
      simp [ih hps, openTokens, tokensOf_append, tokensOf, tokens]
  | case6 => contradiction
  | case7 => contradiction
  | case8 t rest opened done hkind hopens hcloses ih =>
      simp [ih hps, tokensOf_append, tokensOf, tokens]

/-- Grouping keeps all tokens and their order. -/
theorem tokensOf_ofTokens {ts : List Token} {ps : List Piece} (hps : ofTokens ts = some ps) :
    tokensOf ps = ts :=
  tokensOf_nest hps

end Piece

namespace Parser

variable {α β : Type}

/-- An attempt yields what the parser yields, or nothing with nothing taken. -/
theorem run_attempt {p : Parser α} {pieces rest : List Piece} {found : Option α}
    (hrun : (attempt p).run pieces = some (found, rest)) :
    (∃ a, found = some a ∧ p.run pieces = some (a, rest)) ∨
      found = none ∧ rest = pieces ∧ p.run pieces = none := by
  unfold StateT.run attempt at hrun
  split at hrun
  · rename_i a after hfound
    obtain ⟨rfl, rfl⟩ := Prod.mk.inj (Option.some.inj hrun)
    exact .inl ⟨a, rfl, hfound⟩
  · rename_i hnone
    obtain ⟨rfl, rfl⟩ := Prod.mk.inj (Option.some.inj hrun)
    exact .inr ⟨rfl, rfl, hnone⟩

/-- One of two parsers has the result of their alternative. -/
theorem run_orElse {p q : Parser α} {pieces : List Piece} {found : α × List Piece}
    (hrun : (p <|> q).run pieces = some found) :
    p.run pieces = some found ∨ q.run pieces = some found := by
  change (p.run pieces <|> q.run pieces) = some found at hrun
  cases hfirst : p.run pieces with
  | none =>
      rw [hfirst] at hrun
      exact .inr hrun
  | some first =>
      rw [hfirst] at hrun
      exact .inl hrun

theorem run_comments (pieces : List Piece) :
    comments.run pieces = some ((pieces.takeWhile Piece.isComment).map commentOf,
      pieces.dropWhile Piece.isComment) := rfl

/-- A parser whose pieces are wanted starts after the comments before them. -/
theorem run_withPieces {p : Parser α} {pieces body rest : List Piece} {a : α}
    (hrun : (withPieces p).run pieces = some ((a, body), rest)) :
    p.run (pieces.dropWhile Piece.isComment) = some (a, rest) ∧
      body = (pieces.dropWhile Piece.isComment).take
        ((pieces.dropWhile Piece.isComment).length - rest.length) := by
  rw [withPieces, StateT.run_bind, run_comments] at hrun
  dsimp only [Option.bind_eq_bind, Option.bind_some] at hrun
  rw [StateT.run_bind, StateT.run_get] at hrun
  dsimp only [Option.pure_def, Option.bind_eq_bind, Option.bind_some] at hrun
  rw [StateT.run_bind, Option.bind_eq_bind, Option.bind_eq_some_iff] at hrun
  obtain ⟨⟨b, left⟩, hb, hrun⟩ := hrun
  obtain ⟨⟨rfl, rfl⟩, rfl⟩ := Prod.mk.inj (Option.some.inj hrun)
  exact ⟨hb, rfl⟩

/-- What a parser takes for its result satisfies `R`, and it leaves the rest. -/
def Takes (p : Parser α) (R : List Piece → α → Prop) : Prop :=
  ∀ pieces a rest, p.run pieces = some (a, rest) → ∃ taken, pieces = taken ++ rest ∧ R taken a

/-- The pieces that are no comments. -/
def code (pieces : List Piece) : List Piece :=
  pieces.filter (!·.isComment)

namespace Takes

variable {P : List Piece → α → Prop} {Q : α → List Piece → β → Prop}

theorem mono {p : Parser α} {R : List Piece → α → Prop} (hp : p.Takes P)
    (hPR : ∀ taken a, P taken a → R taken a) : p.Takes R := by
  intro pieces a rest hrun
  obtain ⟨taken, hpieces, htaken⟩ := hp pieces a rest hrun
  exact ⟨taken, hpieces, hPR taken a htaken⟩

theorem pure (a : α) : (Pure.pure a : Parser α).Takes fun taken b => taken = [] ∧ b = a := by
  intro pieces b rest hrun
  obtain ⟨rfl, rfl⟩ := Prod.mk.inj (Option.some.inj hrun)
  exact ⟨[], rfl, rfl, rfl⟩

/-- What two parsers take one after another is what the first takes and then the second. -/
theorem bind {p : Parser α} {f : α → Parser β} (hp : p.Takes P) (hf : ∀ a, (f a).Takes (Q a)) :
    (p >>= f).Takes fun taken b =>
      ∃ a first second, taken = first ++ second ∧ P first a ∧ Q a second b := by
  intro pieces b rest hrun
  rw [StateT.run_bind, Option.bind_eq_bind, Option.bind_eq_some_iff] at hrun
  obtain ⟨⟨a, middle⟩, ha, hb⟩ := hrun
  obtain ⟨first, hfirst, hP⟩ := hp pieces a middle ha
  obtain ⟨second, hsecond, hQ⟩ := hf a middle b rest hb
  refine ⟨first ++ second, ?_, a, first, second, rfl, hP, hQ⟩
  rw [hfirst, hsecond, List.append_assoc]

theorem attempt {p : Parser α} (hp : p.Takes P) :
    (Parser.attempt p).Takes fun taken found =>
      (∃ a, found = some a ∧ P taken a) ∨ found = none ∧ taken = [] := by
  intro pieces found rest hrun
  rcases run_attempt hrun with ⟨a, rfl, ha⟩ | ⟨rfl, rfl, -⟩
  · obtain ⟨taken, hpieces, hP⟩ := hp pieces a rest ha
    exact ⟨taken, hpieces, .inl ⟨a, rfl, hP⟩⟩
  · exact ⟨[], rfl, .inr ⟨rfl, rfl⟩⟩

theorem accepts {p : Parser α} (hp : p.Takes P) :
    (Parser.accepts p).Takes fun taken accepted =>
      (accepted = true ∧ ∃ a, P taken a) ∨ accepted = false ∧ taken = [] := by
  refine (bind hp.attempt fun found => pure found.isSome).mono ?_
  rintro taken accepted ⟨found, first, second, rfl, ⟨a, rfl, ha⟩ | ⟨rfl, rfl⟩, rfl, rfl⟩
  · exact .inl ⟨rfl, a, (List.append_nil first).symm ▸ ha⟩
  · exact .inr ⟨rfl, rfl⟩

/-- Many runs take as many parts as they have results. -/
theorem manyUpTo {p : Parser α} (hp : p.Takes P) (fuel : Nat) :
    (Parser.manyUpTo p fuel).Takes fun taken as =>
      ∃ parts, taken = parts.flatten ∧ List.Forall₂ P parts as := by
  have hnone : (Pure.pure [] : Parser (List α)).Takes fun taken as =>
      ∃ parts, taken = parts.flatten ∧ List.Forall₂ P parts as := by
    refine (pure []).mono ?_
    rintro taken as ⟨rfl, rfl⟩
    exact ⟨[], rfl, .nil⟩
  induction fuel with
  | zero => exact hnone
  | succ n ih =>
      intro pieces as rest hrun
      rw [Parser.manyUpTo, StateT.run_bind, Option.bind_eq_bind, Option.bind_eq_some_iff] at hrun
      obtain ⟨⟨found, middle⟩, hfound, hrun⟩ := hrun
      obtain ⟨first, rfl, ⟨a, rfl, ha⟩ | ⟨rfl, rfl⟩⟩ := hp.attempt pieces found middle hfound
      · obtain ⟨later, hlater, as', first', last, rfl, ⟨parts, rfl, hparts⟩, rfl, rfl⟩ :=
          (bind ih fun as => pure (a :: as)) middle as rest hrun
        refine ⟨first ++ parts.flatten, ?_, first :: parts, rfl, .cons ha hparts⟩
        rw [hlater, List.append_nil, List.append_assoc]
      · exact hnone middle as rest hrun

theorem many {p : Parser α} (hp : p.Takes P) :
    (Parser.many p).Takes fun taken as =>
      ∃ parts, taken = parts.flatten ∧ List.Forall₂ P parts as := by
  intro pieces as rest hrun
  exact hp.manyUpTo pieces.length pieces as rest hrun

theorem failure : (Alternative.failure : Parser α).Takes P := by
  intro pieces a rest hrun
  contradiction

theorem orElse {p q : Parser α} (hp : p.Takes P) (hq : q.Takes P) : (p <|> q).Takes P := by
  intro pieces a rest hrun
  rcases run_orElse hrun with hrun | hrun
  · exact hp pieces a rest hrun
  · exact hq pieces a rest hrun

end Takes

theorem code_append (ps qs : List Piece) : code (ps ++ qs) = code ps ++ code qs :=
  List.filter_append ..

/-- What a parser takes for its result satisfies `S`, comments apart. -/
def Reads (p : Parser α) (S : List Piece → α → Prop) : Prop :=
  p.Takes fun taken a => S (code taken) a

namespace Reads

variable {S : List Piece → α → Prop} {T : α → List Piece → β → Prop}

theorem mono {p : Parser α} {S' : List Piece → α → Prop} (hp : p.Reads S)
    (hS : ∀ cs a, S cs a → S' cs a) : p.Reads S' :=
  Takes.mono hp fun _ a => hS _ a

theorem pure (a : α) : (Pure.pure a : Parser α).Reads fun cs b => cs = [] ∧ b = a := by
  refine (Takes.pure a).mono ?_
  rintro taken b ⟨rfl, rfl⟩
  exact ⟨rfl, rfl⟩

theorem bind {p : Parser α} {f : α → Parser β} (hp : p.Reads S) (hf : ∀ a, (f a).Reads (T a)) :
    (p >>= f).Reads fun cs b =>
      ∃ a first second, cs = first ++ second ∧ S first a ∧ T a second b := by
  refine (Takes.bind hp hf).mono ?_
  rintro taken b ⟨a, first, second, rfl, hS, hT⟩
  exact ⟨a, code first, code second, code_append first second, hS, hT⟩

theorem attempt {p : Parser α} (hp : p.Reads S) :
    (Parser.attempt p).Reads fun cs found =>
      (∃ a, found = some a ∧ S cs a) ∨ found = none ∧ cs = [] := by
  refine (Takes.attempt hp).mono ?_
  rintro taken found (⟨a, rfl, ha⟩ | ⟨rfl, rfl⟩)
  · exact .inl ⟨a, rfl, ha⟩
  · exact .inr ⟨rfl, rfl⟩

theorem many {p : Parser α} (hp : p.Reads S) :
    (Parser.many p).Reads fun cs as => ∃ parts, cs = parts.flatten ∧ List.Forall₂ S parts as := by
  refine (Takes.many hp).mono ?_
  rintro taken as ⟨parts, rfl, hparts⟩
  refine ⟨parts.map code, ?_, List.forall₂_map_left_iff.mpr hparts⟩
  rw [code, List.filter_flatten]
  rfl

/-- If one run takes the pieces of something, many runs take those of a list of it. -/
theorem many_flatMap {δ : Type} {f : δ → List Piece} {R : δ → Prop} {p : Parser α}
    (hp : p.Reads fun cs _ => ∃ d, cs = f d ∧ R d) :
    (Parser.many p).Reads fun cs _ => ∃ ds : List δ, cs = ds.flatMap f ∧ ∀ d ∈ ds, R d := by
  refine hp.many.mono ?_
  rintro cs as ⟨parts, rfl, hparts⟩
  induction hparts with
  | nil => exact ⟨[], rfl, by simp⟩
  | cons hpart _ ih =>
      obtain ⟨d, rfl, hd⟩ := hpart
      obtain ⟨ds, hds, hall⟩ := ih
      exact ⟨d :: ds, by rw [List.flatten_cons, hds, List.flatMap_cons],
        List.forall_mem_cons.mpr ⟨hd, hall⟩⟩

end Reads

theorem takes_comments : comments.Takes fun taken cs =>
    code taken = [] ∧ cs = taken.map commentOf := by
  intro pieces cs rest hrun
  obtain ⟨rfl, rfl⟩ := Prod.mk.inj (Option.some.inj ((run_comments pieces).symm.trans hrun))
  refine ⟨_, List.takeWhile_append_dropWhile.symm, ?_, rfl⟩
  refine List.filter_eq_nil_iff.mpr fun p hp => ?_
  simpa using List.all_eq_true.mp List.all_takeWhile p hp

/-- The next piece is the first that is no comment. -/
theorem run_next_eq_some_iff {pieces : List Piece} {p : Piece} {rest : List Piece} :
    next.run pieces = some (p, rest) ↔ pieces.dropWhile Piece.isComment = p :: rest := by
  rw [next, StateT.run_bind, run_comments]
  dsimp only [Option.bind_eq_bind, Option.bind_some]
  rw [StateT.run_bind, StateT.run_get]
  dsimp only [Option.pure_def, Option.bind_eq_bind, Option.bind_some]
  cases pieces.dropWhile Piece.isComment with
  | nil => exact iff_of_false nofun nofun
  | cons q more =>
      change some (q, more) = some (p, rest) ↔ _
      rw [Option.some.injEq, Prod.mk.injEq, List.cons.injEq]

/-- A parser takes one piece, which satisfies `S`, and the comments before it. -/
def Picks (p : Parser α) (S : Piece → α → Prop) : Prop :=
  p.Takes fun taken a =>
    ∃ lead q, taken = lead ++ [q] ∧ code lead = [] ∧ q.isComment = false ∧ S q a

namespace Picks

variable {S : Piece → α → Prop}

theorem mono {p : Parser α} {S' : Piece → α → Prop} (hp : p.Picks S)
    (hS : ∀ q a, S q a → S' q a) : p.Picks S' := by
  refine Takes.mono hp ?_
  rintro taken a ⟨lead, q, htaken, hlead, hq, ha⟩
  exact ⟨lead, q, htaken, hlead, hq, hS q a ha⟩

/-- Nothing is taken after the piece. -/
theorem bind {p : Parser α} {f : α → Parser β} {T : α → β → Prop} (hp : p.Picks S)
    (hf : ∀ a, (f a).Takes fun taken b => taken = [] ∧ T a b) :
    (p >>= f).Picks fun q b => ∃ a, S q a ∧ T a b := by
  refine (Takes.bind hp hf).mono ?_
  rintro taken b ⟨a, first, second, rfl, ⟨lead, q, rfl, hlead, hq, ha⟩, rfl, hb⟩
  exact ⟨lead, q, List.append_nil _, hlead, hq, a, ha, hb⟩

theorem reads {p : Parser α} (hp : p.Picks S) : p.Reads fun cs a => ∃ q, cs = [q] ∧ S q a := by
  refine Takes.mono hp ?_
  rintro taken a ⟨lead, q, rfl, hlead, hq, ha⟩
  refine ⟨q, ?_, ha⟩
  rw [code_append, hlead]
  simp [code, hq]

end Picks

theorem picks_next : next.Picks fun q p => q = p := by
  intro pieces p rest hrun
  have hdrop := run_next_eq_some_iff.mp hrun
  obtain ⟨lead, hpieces, hcode, -⟩ := takes_comments pieces _ _ (run_comments pieces)
  have hp : p.isComment = false := by
    have hstop := List.head?_dropWhile_not Piece.isComment pieces
    rw [hdrop] at hstop
    exact hstop
  refine ⟨lead ++ [p], ?_, lead, p, rfl, hcode, hp, rfl⟩
  rw [List.append_assoc, List.singleton_append, ← hdrop]
  exact hpieces

theorem picks_token : token.Picks fun q t => q = .token t := by
  refine (Picks.bind picks_next (T := fun p t => p = .token t) fun p => ?_).mono ?_
  · cases p with
    | token u =>
        refine (Takes.pure u).mono ?_
        rintro taken t ⟨rfl, rfl⟩
        exact ⟨rfl, rfl⟩
    | group => exact Takes.failure
  · rintro q t ⟨p, rfl, rfl⟩
    rfl

theorem picks_satisfying (p : Token → Bool) :
    (satisfying p).Picks fun q t => q = .token t ∧ p t = true := by
  refine (Picks.bind picks_token (T := fun u t => t = u ∧ p t = true) fun u => ?_).mono ?_
  · split
    · rename_i hu
      refine (Takes.pure u).mono ?_
      rintro taken t ⟨rfl, rfl⟩
      exact ⟨rfl, rfl, hu⟩
    · exact Takes.failure
  · rintro q t ⟨u, rfl, rfl, ht⟩
    exact ⟨rfl, ht⟩

theorem picks_symbol (text : String) :
    (symbol text).Picks fun q _ => ∃ t, q = .token t ∧ t.kind = .symbol ∧ t.text = text := by
  refine (Picks.bind (picks_satisfying _) fun t => Takes.pure ()).mono ?_
  rintro q - ⟨t, ⟨rfl, ht⟩, -⟩
  exact ⟨t, rfl, by simpa using ht⟩

theorem picks_wordThat (p : String → Bool) :
    (wordThat p).Picks fun q text =>
      ∃ t, q = .token t ∧ t.kind = .word ∧ t.text = text ∧ p text = true := by
  refine (Picks.bind (picks_satisfying _) fun t => Takes.pure t.text).mono ?_
  rintro q text ⟨t, ⟨rfl, ht⟩, rfl⟩
  simp only [Bool.and_eq_true, decide_eq_true_eq] at ht
  exact ⟨t, rfl, ht.1, rfl, ht.2⟩

theorem picks_word : word.Picks fun q text => ∃ t, q = .token t ∧ t.kind = .word ∧ t.text = text :=
  (picks_wordThat _).mono fun _ _ ⟨t, hq, hkind, htext, _⟩ => ⟨t, hq, hkind, htext⟩

theorem picks_group (opening : String) :
    (group opening).Picks fun q inner =>
      ∃ t closing, q = .group t inner closing ∧ t.text = opening := by
  refine (Picks.bind picks_next (T := fun p inner =>
    ∃ t closing, p = .group t inner closing ∧ t.text = opening) fun p => ?_).mono ?_
  · cases p with
    | token => exact Takes.failure
    | group t inner closing =>
        dsimp only
        split
        · rename_i ht
          refine (Takes.pure inner).mono ?_
          rintro taken inner ⟨rfl, rfl⟩
          exact ⟨rfl, t, closing, rfl, ht⟩
        · exact Takes.failure
  · rintro q inner ⟨p, rfl, hp⟩
    exact hp

/-- Comments before the next piece are passed over. -/
theorem reads_next : next.Reads fun cs p => cs = [p] := by
  refine picks_next.reads.mono ?_
  rintro cs p ⟨q, rfl, rfl⟩
  rfl

theorem reads_satisfying (p : Token → Bool) :
    (satisfying p).Reads fun cs t => cs = [.token t] ∧ p t = true := by
  refine (picks_satisfying p).reads.mono ?_
  rintro cs t ⟨q, rfl, rfl, ht⟩
  exact ⟨rfl, ht⟩

theorem reads_symbol (text : String) :
    (symbol text).Reads fun cs _ => ∃ t, cs = [.token t] ∧ t.kind = .symbol ∧ t.text = text := by
  refine (picks_symbol text).reads.mono ?_
  rintro cs - ⟨q, rfl, t, rfl, ht⟩
  exact ⟨t, rfl, ht⟩

theorem reads_wordThat (p : String → Bool) :
    (wordThat p).Reads fun cs text =>
      ∃ t, cs = [.token t] ∧ t.kind = .word ∧ t.text = text ∧ p text = true := by
  refine (picks_wordThat p).reads.mono ?_
  rintro cs text ⟨q, rfl, t, rfl, ht⟩
  exact ⟨t, rfl, ht⟩

theorem reads_word :
    word.Reads fun cs text => ∃ t, cs = [.token t] ∧ t.kind = .word ∧ t.text = text :=
  (reads_wordThat _).mono fun _ _ ⟨t, hcs, hkind, htext, _⟩ => ⟨t, hcs, hkind, htext⟩

theorem reads_keyword (text : String) :
    (keyword text).Reads fun cs _ => ∃ t, cs = [.token t] ∧ t.kind = .word ∧ t.text = text := by
  refine (Reads.bind (reads_wordThat _) fun _ => Reads.pure ()).mono ?_
  rintro cs - ⟨found, first, second, rfl, ⟨t, rfl, hkind, rfl, htext⟩, rfl, -⟩
  exact ⟨t, rfl, hkind, by simpa using htext⟩

theorem reads_group (opening : String) :
    (group opening).Reads fun cs inner =>
      ∃ t closing, cs = [.group t inner closing] ∧ t.text = opening := by
  refine (picks_group opening).reads.mono ?_
  rintro cs inner ⟨q, rfl, t, closing, rfl, ht⟩
  exact ⟨t, closing, rfl, ht⟩

/-- The pieces of what a parser takes begin after the comments before it. -/
theorem takes_withPieces {p : Parser α} {P : List Piece → α → Prop} (hp : p.Takes P) :
    (withPieces p).Takes fun taken found =>
      ∃ lead, taken = lead ++ found.2 ∧ code lead = [] ∧
        (∀ q ∈ found.2.head?, q.isComment = false) ∧ P found.2 found.1 := by
  rintro pieces ⟨a, body⟩ rest hrun
  obtain ⟨ha, htake⟩ := run_withPieces hrun
  obtain ⟨taken, hbody, hP⟩ := hp _ a rest ha
  obtain ⟨lead, hlead, hcode, -⟩ := takes_comments pieces _ _ (run_comments pieces)
  obtain rfl : body = taken := by
    rw [htake, hbody]
    simp
  refine ⟨lead ++ body, ?_, lead, rfl, hcode, fun q hq => ?_, hP⟩
  · rw [List.append_assoc, ← hbody]
    exact hlead
  · have hstop := List.head?_dropWhile_not Piece.isComment pieces
    have hhead : (pieces.dropWhile Piece.isComment).head? = some q := by
      rw [hbody, List.head?_append, hq, Option.some_or]
    rw [hhead] at hstop
    exact hstop

/-- The source of what a parser takes begins after the comments before it. -/
theorem takes_source {p : Parser α} {P : List Piece → α → Prop} (hp : p.Takes P) :
    (source p).Takes fun taken text =>
      ∃ lead body a, taken = lead ++ body ∧ code lead = [] ∧
        (∀ q ∈ body.head?, q.isComment = false) ∧ P body a ∧ text = sourceOf body := by
  refine (Takes.bind (takes_withPieces hp) fun found => Takes.pure (sourceOf found.2)).mono ?_
  rintro taken text ⟨⟨a, body⟩, first, second, rfl, ⟨lead, rfl, hlead, hhead, ha⟩, rfl, rfl⟩
  exact ⟨lead, body, a, List.append_nil _, hlead, hhead, ha, rfl⟩

/-- Whatever a parser yields, it takes pieces from the front. -/
def Consumes (p : Parser α) : Prop :=
  p.Takes fun _ _ => True

theorem Takes.consumes {p : Parser α} {R : List Piece → α → Prop} (hp : p.Takes R) : p.Consumes :=
  hp.mono fun _ _ _ => trivial

theorem Reads.consumes {p : Parser α} {S : List Piece → α → Prop} (hp : p.Reads S) : p.Consumes :=
  Takes.consumes hp

namespace Consumes

theorem bind {p : Parser α} {f : α → Parser β} (hp : p.Consumes) (hf : ∀ a, (f a).Consumes) :
    (p >>= f).Consumes :=
  (Takes.bind hp hf).consumes

theorem pure (a : α) : (Pure.pure a : Parser α).Consumes :=
  (Takes.pure a).consumes

theorem failure : (Alternative.failure : Parser α).Consumes :=
  Takes.failure

theorem attempt {p : Parser α} (hp : p.Consumes) : (Parser.attempt p).Consumes :=
  (Takes.attempt hp).consumes

theorem many {p : Parser α} (hp : p.Consumes) : (Parser.many p).Consumes :=
  (Takes.many hp).consumes

theorem accepts {p : Parser α} (hp : p.Consumes) : (Parser.accepts p).Consumes :=
  .bind hp.attempt fun _ => .pure _

theorem orElse {p q : Parser α} (hp : p.Consumes) (hq : q.Consumes) : (p <|> q).Consumes :=
  Takes.orElse hp hq

theorem ahead (p : Parser α) : (Parser.ahead p).Consumes := by
  intro pieces found rest hrun
  obtain ⟨rfl, rfl⟩ := Prod.mk.inj (Option.some.inj hrun)
  exact ⟨[], rfl, trivial⟩

end Consumes

theorem Takes.source {p : Parser α} {R : List Piece → α → Prop} (hp : p.Takes R) :
    (Parser.source p).Consumes :=
  (takes_source hp).consumes

/-- What a parser yields from scanned tokens satisfies `P`. -/
def Finds (p : Parser α) (P : α → Prop) : Prop :=
  ∀ pieces, (∀ t ∈ Piece.tokensOf pieces, t.Scanned) →
    ∀ a rest, p.run pieces = some (a, rest) → P a

namespace Finds

variable {P : α → Prop} {Q : β → Prop}

theorem pure {a : α} (ha : P a) : (Pure.pure a : Parser α).Finds P := by
  intro pieces hpieces b rest hrun
  obtain ⟨rfl, rfl⟩ := Prod.mk.inj (Option.some.inj hrun)
  exact ha

theorem bind {p : Parser α} {f : α → Parser β} (hp : p.Finds P) (htakes : p.Consumes)
    (hf : ∀ a, P a → (f a).Finds Q) : (p >>= f).Finds Q := by
  intro pieces hpieces b rest hrun
  rw [StateT.run_bind, Option.bind_eq_bind, Option.bind_eq_some_iff] at hrun
  obtain ⟨⟨a, middle⟩, ha, hb⟩ := hrun
  obtain ⟨taken, rfl, -⟩ := htakes pieces a middle ha
  have hmiddle : ∀ t ∈ Piece.tokensOf middle, t.Scanned := fun t ht =>
    hpieces t (Piece.tokensOf_subset ⟨taken, rfl⟩ ht)
  exact hf a (hp _ hpieces a middle ha) middle hmiddle b rest hb

theorem skip {p : Parser α} {f : α → Parser β} (htakes : p.Consumes)
    (hf : ∀ a, (f a).Finds Q) : (p >>= f).Finds Q :=
  bind (P := fun _ => True) (fun _ _ _ _ _ => trivial) htakes fun a _ => hf a

theorem bind_pure {p : Parser α} {f : α → β} (hp : p.Finds fun a => Q (f a)) :
    (p >>= fun a => Pure.pure (f a)).Finds Q := by
  intro pieces hpieces b rest hrun
  rw [StateT.run_bind, Option.bind_eq_bind, Option.bind_eq_some_iff] at hrun
  obtain ⟨⟨a, middle⟩, ha, hb⟩ := hrun
  obtain ⟨rfl, rfl⟩ := Prod.mk.inj (Option.some.inj hb)
  exact hp pieces hpieces a middle ha

theorem orElse {p q : Parser α} (hp : p.Finds P) (hq : q.Finds P) : (p <|> q).Finds P := by
  intro pieces hpieces a rest hrun
  rcases run_orElse hrun with hrun | hrun
  · exact hp pieces hpieces a rest hrun
  · exact hq pieces hpieces a rest hrun

theorem withPieces {p : Parser α} (hp : p.Finds P) :
    (Parser.withPieces p).Finds fun found => P found.1 := by
  rintro pieces hpieces ⟨a, body⟩ rest hrun
  refine hp _ (fun t ht => hpieces t ?_) a rest (run_withPieces hrun).1
  exact Piece.tokensOf_subset (List.dropWhile_suffix _) ht

theorem attempt {p : Parser α} (hp : p.Finds P) :
    (Parser.attempt p).Finds fun found => ∀ a ∈ found, P a := by
  intro pieces hpieces found rest hrun
  rcases run_attempt hrun with ⟨a, rfl, ha⟩ | ⟨rfl, -, -⟩
  · rintro b ⟨⟩
    exact hp pieces hpieces a rest ha
  · rintro b ⟨⟩

theorem many {p : Parser α} (hp : p.Finds P) (htakes : p.Consumes) :
    (Parser.many p).Finds fun as => ∀ a ∈ as, P a := by
  have hupTo (fuel : Nat) : (manyUpTo p fuel).Finds fun as => ∀ a ∈ as, P a := by
    induction fuel with
    | zero => exact pure fun a ha => absurd ha List.not_mem_nil
    | succ n ih =>
        refine bind hp.attempt htakes.attempt fun found hfound => ?_
        cases found with
        | none => exact pure fun a ha => absurd ha List.not_mem_nil
        | some a =>
            refine bind ih (Takes.manyUpTo htakes n).consumes fun rest hrest => pure ?_
            exact List.forall_mem_cons.mpr ⟨hfound a rfl, hrest⟩
  intro pieces hpieces as rest hrun
  exact hupTo pieces.length pieces hpieces as rest hrun

end Finds

end Parser

end ClassChart.Java
