import ClassChart.Proofs.Java.Layout
import ClassChart.Proofs.Java.Listing
import ClassChart.Proofs.Java.TypeText

/-!
How packages and imports are spelled.  Whatever is read as a package or import declaration, if no
annotations and comments are in it, has a layout.  So the name of a package is the one that is
imported exactly if it is written without blanks.
-/
namespace ClassChart.Java

open Text (Blanks Lacks)
open Token (spread)

namespace Parser

/-- A dot and what follows it. -/
def linkPieces (link : Token × Token) : List Piece :=
  [.token link.1, .token link.2]

/-- The tokens of a dotted name. -/
structure NameTokens where
  first : Token
  links : List (Token × Token)
  word : first.kind = .word
  dotted : ∀ link ∈ links, link.1.text = "." ∧ link.2.kind = .word

def NameTokens.pieces (name : NameTokens) : List Piece :=
  .token name.first :: name.links.flatMap linkPieces

theorem reads_qualifiedName : qualifiedName.Reads fun cs _ =>
    ∃ name : NameTokens, cs = name.pieces := by
  have hlink : (do symbol "."; word : Parser String).Reads fun cs _ =>
      ∃ link, cs = linkPieces link ∧ link.1.text = "." ∧ link.2.kind = .word := by
    refine (Reads.bind (reads_symbol ".") fun _ => reads_word).mono ?_
    rintro cs name ⟨-, first, second, rfl, ⟨dot, rfl, -, hdot⟩, t, rfl, ht, -⟩
    exact ⟨(dot, t), rfl, hdot, ht⟩
  refine (Reads.bind reads_word fun _ => Reads.bind hlink.many_flatMap fun _ =>
    Reads.pure ()).mono ?_
  rintro cs - ⟨-, first, second, rfl, ⟨t, rfl, ht, -⟩, -, third, fourth, rfl, ⟨links, rfl, hlinks⟩,
    rfl, -⟩
  exact ⟨⟨t, links, ht, hlinks⟩, by simp [NameTokens.pieces]⟩

/-- A package is annotations, the keyword, a dotted name and a semicolon, comments apart. -/
theorem reads_packageDeclaration : packageDeclaration.Reads fun cs _ =>
    ∃ (marks : List Piece) (keyword : Token) (name : NameTokens) (semicolon : Token),
      cs = marks ++ .token keyword :: (name.pieces ++ [.token semicolon]) ∧
      (marks = [] ∨ ∃ t rest, marks = .token t :: rest ∧ t.text = "@") ∧
      keyword.text = "package" ∧ semicolon.text = ";" := by
  refine (Reads.bind reads_annotations fun _ => Reads.bind (reads_keyword "package") fun _ =>
    Reads.bind reads_qualifiedName fun _ => reads_symbol ";").mono ?_
  rintro cs - ⟨-, marks, second, rfl, hmarks, -, third, fourth, rfl, ⟨keyword, rfl, -, hkeyword⟩, -,
    fifth, last, rfl, ⟨name, rfl⟩, semicolon, rfl, -, hsemicolon⟩
  exact ⟨marks, keyword, name, semicolon, rfl, hmarks, hkeyword, hsemicolon⟩

theorem run_keyword {pieces rest : List Piece} {t : Token}
    (hpieces : pieces.dropWhile Piece.isComment = .token t :: rest) (hkind : t.kind = .word) :
    (keyword t.text).run pieces = some ((), rest) := by
  have htoken : token.run pieces = some (t, rest) := by
    rw [token, StateT.run_bind, run_next_eq_some_iff.mpr hpieces]
    rfl
  have hsatisfying : (satisfying fun u => u.kind = .word && decide (u.text = t.text)).run pieces =
      some (t, rest) := by
    rw [satisfying, StateT.run_bind, htoken]
    dsimp only [Option.bind_eq_bind, Option.bind_some]
    rw [if_pos (by simp [hkind])]
    rfl
  rw [keyword, wordThat, StateT.run_bind, StateT.run_bind, hsatisfying]
  rfl

/-- The tokens of an import: the word for static members if it is taken, the name, and the star
if there is one. -/
structure ImportTokens where
  keyword : Token
  static : Option Token
  name : NameTokens
  star : Option (Token × Token)
  semicolon : Token
  keyword_eq : keyword.kind = .word ∧ keyword.text = "import"
  static_eq : ∀ t ∈ static, t.kind = .word ∧ t.text = "static"
  star_eq : ∀ link ∈ star, link.1.text = "." ∧ link.2.text = "*"
  semicolon_eq : semicolon.text = ";"
  notStatic : static = none → name.first.text ≠ "static"

def ImportTokens.pieces (i : ImportTokens) : List Piece :=
  .token i.keyword :: (i.static.toList.map .token ++ i.name.pieces ++
    i.star.toList.flatMap linkPieces ++ [.token i.semicolon])

/-- Behind the keyword of an import come a dotted name, perhaps a star, and a semicolon. -/
theorem reads_importTail :
    (do
      qualifiedName
      let _ ← attempt do
        symbol "."
        symbol "*"
      symbol ";" : Parser Unit).Reads fun cs _ =>
    ∃ (name : NameTokens) (star : Option (Token × Token)) (semicolon : Token),
      cs = name.pieces ++ star.toList.flatMap linkPieces ++ [.token semicolon] ∧
      (∀ link ∈ star, link.1.text = "." ∧ link.2.text = "*") ∧ semicolon.text = ";" := by
  have hstar : (do symbol "."; symbol "*" : Parser Unit).Reads fun cs _ =>
      ∃ link, cs = linkPieces link ∧ link.1.text = "." ∧ link.2.text = "*" := by
    refine (Reads.bind (reads_symbol ".") fun _ => reads_symbol "*").mono ?_
    rintro cs - ⟨-, first, second, rfl, ⟨dot, rfl, -, hdot⟩, t, rfl, -, ht⟩
    exact ⟨(dot, t), rfl, hdot, ht⟩
  refine (Reads.bind reads_qualifiedName fun _ => Reads.bind hstar.attempt fun _ =>
    reads_symbol ";").mono ?_
  rintro cs - ⟨-, first, second, rfl, ⟨name, rfl⟩, found, third, fourth, rfl, hfound, semicolon,
    rfl, -, hsemicolon⟩
  rcases hfound with ⟨-, -, link, rfl, hlink⟩ | ⟨-, rfl⟩
  · exact ⟨name, some link, semicolon, by simp, by simpa using hlink, hsemicolon⟩
  · exact ⟨name, none, semicolon, by simp, by simp, hsemicolon⟩

/-- The pieces that begin with some code begin with it behind their comments. -/
theorem dropWhile_isComment_append {pieces : List Piece} {p : Piece} {cs : List Piece}
    (hcode : code pieces = p :: cs) (rest : List Piece) :
    ∃ more, (pieces ++ rest).dropWhile Piece.isComment = p :: more := by
  obtain ⟨lead, more, rfl, hlead, hp, -⟩ := List.filter_eq_cons_iff.mp hcode
  have hcomments : ∀ q ∈ lead, q.isComment = true := by simpa using hlead
  refine ⟨more ++ rest, ?_⟩
  rw [List.append_assoc, List.dropWhile_append_of_pos hcomments, List.cons_append,
    List.dropWhile_cons_of_neg (by simpa using hp)]

theorem reads_importDeclaration : importDeclaration.Reads fun cs _ =>
    ∃ i : ImportTokens, cs = i.pieces := by
  intro pieces a rest hrun
  rw [importDeclaration, StateT.run_bind, Option.bind_eq_bind, Option.bind_eq_some_iff] at hrun
  obtain ⟨⟨_, second⟩, hkeyword, hrun⟩ := hrun
  dsimp only at hrun
  rw [StateT.run_bind, Option.bind_eq_bind, Option.bind_eq_some_iff] at hrun
  obtain ⟨⟨found, third⟩, hstatic, htail⟩ := hrun
  obtain ⟨first, rfl, keyword, hfirst, hkind, htext⟩ := reads_keyword "import" _ _ _ hkeyword
  obtain ⟨last, rfl, name, star, semicolon, hlast, hstar, hsemicolon⟩ :=
    reads_importTail third _ _ htail
  obtain ⟨middle, rfl, hmiddle⟩ := (reads_keyword "static").attempt _ _ _ hstatic
  refine ⟨first ++ (middle ++ last), by simp only [List.append_assoc], ?_⟩
  dsimp only
  rw [code_append, code_append, hfirst, hlast]
  rcases hmiddle with ⟨-, -, static, hmiddle, hword, hsame⟩ | ⟨rfl, hmiddle⟩
  · refine ⟨⟨keyword, some static, name, star, semicolon, ⟨hkind, htext⟩, ?_, hstar, hsemicolon,
      by simp⟩, ?_⟩
    · simp [hword, hsame]
    · rw [hmiddle]
      simp [ImportTokens.pieces]
  · obtain ⟨_, ⟨⟩, -⟩ | ⟨-, hsame, hnone⟩ := run_attempt hstatic
    -- Were the first name that word, it would have been taken as such.
    have hfirst : name.first.text ≠ "static" := by
      intro hname
      obtain ⟨more, hmore⟩ := dropWhile_isComment_append hlast rest
      have hrun := run_keyword hmore name.word
      rw [hname, hsame, hnone] at hrun
      contradiction
    refine ⟨⟨keyword, none, name, star, semicolon, ⟨hkind, htext⟩, by simp, hstar, hsemicolon,
      fun _ => hfirst⟩, ?_⟩
    rw [hmiddle]
    simp [ImportTokens.pieces]

theorem spread_append (ts us : List Token) : spread (ts ++ us) = spread ts ++ spread us := by
  rw [spread, List.map_append, String.join_append, spread, spread]

theorem spread_cons (t : Token) (ts : List Token) :
    spread (t :: ts) = t.gap ++ t.text ++ spread ts := by
  rw [spread, List.map_cons, String.join_cons, spread]

theorem text_subset_sourceOf {t : Token} {ts : List Token} (ht : t ∈ ts) :
    t.text.toList ⊆ (Token.sourceOf ts).toList := by
  cases ts with
  | nil => contradiction
  | cons first rest =>
      rw [Token.sourceOf, String.toList_append]
      rcases List.mem_cons.mp ht with rfl | ht
      · exact List.subset_append_left _ _
      · refine List.subset_append_of_subset_right _ fun c hc => ?_
        rw [spread, String.toList_join, List.mem_flatMap]
        exact ⟨t.gap ++ t.text, List.mem_map_of_mem ht, by simp [hc]⟩

/-- Source without a slash has no comments. -/
theorem code_eq_self {ps : List Piece} (hps : ∀ t ∈ Piece.tokensOf ps, t.Scanned)
    (hslash : Lacks '/' (sourceOf ps)) : code ps = ps := by
  refine List.filter_eq_self.mpr fun p hp => ?_
  cases p with
  | group => rfl
  | token t =>
      have ht : t ∈ Piece.tokensOf ps := Piece.first_mem_tokensOf hp
      by_contra hcomment
      have hcomment : t.isComment = true := by simpa [Piece.isComment] using hcomment
      have hbegins := (hps t ht).comment hcomment
      obtain ⟨more, hmore⟩ := Text.beginsWith_iff.mp hbegins
      exact hslash (text_subset_sourceOf ht (by simp [hmore]))

/-- The gap before a scanned token. -/
theorem exists_gap {t : Token} (ht : t.Scanned) : ∃ gap : Blanks, gap.text = t.gap :=
  ⟨⟨t.gap, ht.gap⟩, rfl⟩

theorem exists_nameLinks {links : List (Token × Token)}
    (hlinks : ∀ link ∈ links, link.1.text = "." ∧ link.2.kind = .word)
    (hscanned : ∀ t ∈ Piece.tokensOf (links.flatMap linkPieces), t.Scanned) :
    ∃ rest : List NameLink,
      spread (Piece.tokensOf (links.flatMap linkPieces)) =
        String.join (rest.map NameLink.text) := by
  induction links with
  | nil => exact ⟨[], rfl⟩
  | cons link more ih =>
      obtain ⟨dot, name⟩ := link
      rw [List.flatMap_cons, Piece.tokensOf_append] at hscanned ⊢
      rw [List.forall_mem_append] at hscanned
      rw [List.forall_mem_cons] at hlinks
      obtain ⟨⟨hdot, hkind⟩, hmore⟩ := hlinks
      obtain ⟨rest, hrest⟩ := ih hmore hscanned.2
      have hdotScanned : dot.Scanned := hscanned.1 dot List.mem_cons_self
      have hnameScanned : name.Scanned :=
        hscanned.1 name (List.mem_cons_of_mem _ List.mem_cons_self)
      obtain ⟨before, hbefore⟩ := exists_gap hdotScanned
      obtain ⟨after, hafter⟩ := exists_gap hnameScanned
      obtain ⟨w, hw⟩ := hnameScanned.word hkind
      have hlink : spread (Piece.tokensOf (linkPieces (dot, name))) =
          NameLink.text ⟨before, after, w⟩ := by
        have htokens : Piece.tokensOf (linkPieces (dot, name)) = [dot, name] := rfl
        dsimp only at hdot
        simp only [htokens, spread_cons, NameLink.text, hbefore, hafter, hw, hdot,
          String.append_assoc]
        simp [spread]
      exact ⟨⟨before, after, w⟩ :: rest, by
        rw [spread_append, hrest, List.map_cons, String.join_cons, hlink]⟩

/-- Scanned tokens of a name are a dotted name with blanks around its dots. -/
theorem NameTokens.exists_dottedName (name : NameTokens)
    (hscanned : ∀ t ∈ Piece.tokensOf name.pieces, t.Scanned) :
    ∃ d : DottedName, d.first.text = name.first.text ∧
      spread (Piece.tokensOf name.pieces) = name.first.gap ++ d.text := by
  rw [pieces, Piece.tokensOf, Piece.tokens, List.singleton_append, List.forall_mem_cons] at hscanned
  obtain ⟨w, hw⟩ := hscanned.1.word name.word
  obtain ⟨rest, hrest⟩ := exists_nameLinks name.dotted hscanned.2
  refine ⟨⟨w, rest⟩, hw, ?_⟩
  rw [pieces, Piece.tokensOf, Piece.tokens, List.singleton_append, spread_cons, hrest,
    DottedName.text, hw, String.append_assoc]

/-- What a parser reads in a source text, if no comments are in it. -/
theorem exists_body {α : Type} {p : Parser α} {S : List Piece → α → Prop} (hp : p.Reads S)
    {file text : String} {ts : List Token} {pieces rest : List Piece}
    (hts : Lexer.tokens file = some ts) (hpieces : Piece.tokensOf pieces <:+: ts)
    (hrun : (source p).run pieces = some (text, rest)) (hslash : Lacks '/' text) :
    ∃ body a, text = sourceOf body ∧ S body a ∧ (∀ t ∈ Piece.tokensOf body, t.Scanned) ∧
      (Piece.tokensOf body).IsChain Token.Apart := by
  obtain ⟨taken, rfl, lead, body, a, rfl, -, -, hbody, rfl⟩ :=
    takes_source hp pieces text rest hrun
  have hpart : Piece.tokensOf body <:+: ts := by
    refine List.IsInfix.trans ⟨Piece.tokensOf lead, Piece.tokensOf rest, ?_⟩ hpieces
    rw [Piece.tokensOf_append, Piece.tokensOf_append]
  obtain ⟨hscanned, hchain⟩ := Lexer.tokens_spec hts
  have hall : ∀ t ∈ Piece.tokensOf body, t.Scanned := fun t ht => hscanned t (hpart.subset ht)
  rw [code_eq_self hall hslash] at hbody
  exact ⟨body, a, rfl, hbody, hall, hchain.infix hpart⟩

theorem sourceOf_cons (t : Token) (ps : List Piece) :
    sourceOf (.token t :: ps) = t.text ++ spread (Piece.tokensOf ps) := rfl

/-- Every package declaration without annotations and comments has a layout. -/
theorem exists_packageLayout {file text : String} {ts : List Token} {pieces rest : List Piece}
    (hts : Lexer.tokens file = some ts) (hpieces : Piece.tokensOf pieces <:+: ts)
    (hrun : (source packageDeclaration).run pieces = some (text, rest))
    (hmark : Lacks '@' text) (hslash : Lacks '/' text) : ∃ p : PackageLayout, text = p.text := by
  obtain ⟨body, -, rfl, ⟨marks, keyword, name, semicolon, rfl, hmarks, hkeyword, hsemicolon⟩,
    hscanned, -⟩ := exists_body reads_packageDeclaration hts hpieces hrun hslash
  obtain rfl : marks = [] := by
    rcases hmarks with hnil | ⟨t, more, rfl, ht⟩
    · exact hnil
    · refine absurd ?_ hmark
      rw [List.cons_append, sourceOf_cons, ht]
      simp
  rw [List.nil_append, sourceOf_cons, Piece.tokensOf_append, spread_append]
  rw [List.nil_append, Piece.tokensOf, Piece.tokensOf_append] at hscanned
  obtain ⟨-, hscanned⟩ := List.forall_mem_append.mp hscanned
  obtain ⟨hname, hend⟩ := List.forall_mem_append.mp hscanned
  obtain ⟨d, -, hd⟩ := name.exists_dottedName hname
  obtain ⟨gap, hgap⟩ := exists_gap (hname name.first List.mem_cons_self)
  obtain ⟨trail, htrail⟩ := exists_gap (hend semicolon List.mem_cons_self)
  refine ⟨⟨gap, d, trail⟩, ?_⟩
  have hlast : spread (Piece.tokensOf [.token semicolon]) = trail.text ++ ";" := by
    simp [Piece.tokensOf, Piece.tokens, spread, htrail, hsemicolon]
  simp only [PackageLayout.text, hkeyword, hd, hlast, hgap, String.append_assoc]

theorem tokensOf_map_token (ts : List Token) : Piece.tokensOf (ts.map .token) = ts := by
  induction ts with
  | nil => rfl
  | cons t rest ih => rw [List.map_cons, Piece.tokensOf, ih, Piece.tokens, List.singleton_append]

theorem ImportTokens.tokensOf_pieces (i : ImportTokens) :
    Piece.tokensOf i.pieces = i.keyword :: (i.static.toList ++ (Piece.tokensOf i.name.pieces ++
      (Piece.tokensOf (i.star.toList.flatMap linkPieces) ++ [i.semicolon]))) := by
  rw [pieces, Piece.tokensOf, Piece.tokensOf_append, Piece.tokensOf_append, Piece.tokensOf_append,
    tokensOf_map_token, List.append_assoc, List.append_assoc]
  rfl

/-- A star has blanks before its dot and before itself. -/
theorem exists_star {star : Option (Token × Token)}
    (hstar : ∀ link ∈ star, link.1.text = "." ∧ link.2.text = "*")
    (hscanned : ∀ t ∈ Piece.tokensOf (star.toList.flatMap linkPieces), t.Scanned) :
    ∃ gaps : Option (Blanks × Blanks), spread (Piece.tokensOf (star.toList.flatMap linkPieces)) =
      gaps.elim "" fun (before, after) => before.text ++ "." ++ after.text ++ "*" := by
  cases star with
  | none => exact ⟨none, rfl⟩
  | some link =>
      have htokens : Piece.tokensOf ((some link).toList.flatMap linkPieces) =
          [link.1, link.2] := rfl
      rw [htokens] at hscanned ⊢
      obtain ⟨hdot, hmark⟩ := hstar link rfl
      obtain ⟨before, hbefore⟩ := exists_gap (hscanned link.1 (by simp))
      obtain ⟨after, hafter⟩ := exists_gap (hscanned link.2 (by simp))
      refine ⟨some (before, after), ?_⟩
      simp [spread, hbefore, hafter, hdot, hmark, String.append_assoc]

/-- Blanks stand after the words before the name. -/
theorem ImportTokens.exists_static (i : ImportTokens) {more : List Token}
    (hscanned : ∀ t ∈ i.static.toList, t.Scanned)
    (hchain : (i.keyword :: (i.static.toList ++ i.name.first :: more)).IsChain Token.Apart) :
    ∃ static : Option Blanks, (static = none → i.static = none) ∧
      spread i.static.toList = (static.elim "" fun blanks => blanks.text ++ "static") ∧
      i.name.first.gap ≠ "" ∧ ∀ blanks ∈ static.toList, blanks.text ≠ "" := by
  cases hstatic : i.static with
  | none =>
      rw [hstatic, Option.toList_none, List.nil_append, List.isChain_cons_cons] at hchain
      exact ⟨none, fun _ => rfl, rfl, hchain.1 i.keyword_eq.1 i.name.word, by simp⟩
  | some t =>
      obtain ⟨hkind, htext⟩ := i.static_eq t hstatic
      rw [hstatic, Option.toList_some, List.singleton_append, List.isChain_cons_cons,
        List.isChain_cons_cons] at hchain
      obtain ⟨blanks, hblanks⟩ := exists_gap (hscanned t (by simp [hstatic]))
      refine ⟨some blanks, by simp, ?_, hchain.2.1 hkind i.name.word, ?_⟩
      · simp [spread, hblanks, htext]
      · simpa [hblanks] using hchain.1 i.keyword_eq.1 hkind

/-- Every import declaration without comments has a layout. -/
theorem exists_importLayout {file text : String} {ts : List Token} {pieces rest : List Piece}
    (hts : Lexer.tokens file = some ts) (hpieces : Piece.tokensOf pieces <:+: ts)
    (hrun : (source importDeclaration).run pieces = some (text, rest))
    (hslash : Lacks '/' text) : ∃ i : ImportLayout, text = i.text := by
  obtain ⟨body, -, rfl, ⟨i, rfl⟩, hscanned, hchain⟩ :=
    exists_body reads_importDeclaration hts hpieces hrun hslash
  rw [i.tokensOf_pieces] at hscanned hchain
  simp only [List.forall_mem_cons, List.forall_mem_append] at hscanned
  obtain ⟨-, hstatic, hname, hstar, hend, -⟩ := hscanned
  obtain ⟨d, hfirst, hd⟩ := i.name.exists_dottedName hname
  obtain ⟨gap, hgap⟩ := exists_gap (hname i.name.first List.mem_cons_self)
  obtain ⟨trail, htrail⟩ := exists_gap hend
  obtain ⟨star, hstar⟩ := exists_star i.star_eq hstar
  obtain ⟨static, hnone, hstatic, hapart, hblanks⟩ := i.exists_static hstatic hchain
  refine ⟨⟨static, gap, d, star, trail, ?_, fun h => hfirst ▸ i.notStatic (hnone h)⟩, ?_⟩
  · exact List.forall_mem_cons.mpr ⟨hgap ▸ hapart, hblanks⟩
  · have hsource : sourceOf i.pieces = i.keyword.text ++ spread (i.static.toList ++
        (Piece.tokensOf i.name.pieces ++
          (Piece.tokensOf (i.star.toList.flatMap linkPieces) ++ [i.semicolon]))) := by
      rw [sourceOf, i.tokensOf_pieces]
      rfl
    have hlast : spread [i.semicolon] = trail.text ++ ";" := by
      simp [spread, htrail, i.semicolon_eq]
    simp only [hsource, spread_append, hstatic, hd, hstar, hlast, i.keyword_eq.2, ImportLayout.text,
      ImportLayout.target, hgap, String.append_assoc]

end Parser

theorem dottedName_of_ne_empty {package : String} (hpackage : package ≠ "") {names : List String}
    (hnames : names ≠ []) : dottedName package names = package ++ "." ++ ".".intercalate names := by
  obtain ⟨name, more, rfl⟩ := List.exists_cons_of_ne_nil hnames
  rw [dottedName, if_neg (by simpa using hpackage), String.intercalate_cons_cons]

/-- The names that stand in a package are its own name and theirs. -/
theorem DottedName.plain_of_words_eq {d package : DottedName} {names : List String}
    (hwords : d.words = package.words ++ names) (hnames : names ≠ []) :
    d.plain = package.plain ++ "." ++ ".".intercalate names := by
  rw [plain, hwords, String.intercalate_append_of_ne_nil (by simp [words]) hnames, plain]

/-- The qualified name of a unit is made from the package and the types around it. -/
theorem CompilationUnit.exists_qualifiedName {unit : CompilationUnit} {filePath : String}
    {u : SourceUnit} (hu : u ∈ unit.units filePath) :
    ∃ outer, u.parentName = innermost unit.package outer ∧
      u.qualifiedName = dottedName unit.package (outer ++ [u.name]) := by
  obtain ⟨v, hv, rfl⟩ := List.mem_map.mp hu
  have hlisted := forall₂_itemUnits ⟨filePath, unit.package⟩ none unit.items 0
  obtain ⟨n, hn, rfl⟩ := List.getElem_of_mem hv
  have he := hlisted.get (hlisted.length_eq ▸ hn) hn
  exact ⟨_, he.parentName, he.name ▸ he.qualifiedName⟩

/-- An import of what stands in a package has its name exactly if the name of the package is
written without blanks. -/
theorem PackageLayout.imported?_eq_qualifiedName_iff (p : PackageLayout) {unit : CompilationUnit}
    (hunit : unit.DeclaresPackage p.text) {u : SourceUnit} {outer : List String}
    (hu : u.qualifiedName = dottedName unit.package (outer ++ [u.name])) {i : ImportLayout}
    (hstatic : i.static = none) (hstar : i.star = none)
    (hwords : i.name.words = p.name.words ++ (outer ++ [u.name])) :
    CompilationUnit.imported? i.text = some u.qualifiedName ↔ p.name.IsTight := by
  have hnames : outer ++ [u.name] ≠ [] := by simp
  have hplain : i.plain = p.name.plain ++ "." ++ ".".intercalate (outer ++ [u.name]) := by
    rw [ImportLayout.plain, hstar, DottedName.plain_of_words_eq hwords hnames]
    exact String.append_empty
  rw [i.imported?_text, hstatic, hu, p.package_eq hunit,
    dottedName_of_ne_empty p.name.text_ne_empty hnames, ← p.name.text_eq_plain_iff, hplain]
  simp [eq_comm]

/-- An import of all types of a package names it exactly if its name is written without blanks. -/
theorem PackageLayout.imported?_eq_package_iff (p : PackageLayout) {unit : CompilationUnit}
    (hunit : unit.DeclaresPackage p.text) {i : ImportLayout} (hstatic : i.static = none)
    (hstar : i.star.isSome = true) (hwords : i.name.words = p.name.words) :
    CompilationUnit.imported? i.text = some (unit.package ++ ".*") ↔ p.name.IsTight := by
  have hplain : i.plain = p.name.plain ++ ".*" := by
    rw [ImportLayout.plain, if_pos hstar, DottedName.plain, hwords, DottedName.plain]
  rw [i.imported?_text, hstatic, p.package_eq hunit, ← p.name.text_eq_plain_iff, hplain]
  simp [eq_comm]

/-- Imports are read without blanks in every layout.  A package keeps the blanks around the dots
of its name, so it has the name without blanks, and imports of it and of what stands in it have
the same names, exactly if there are none.  Declarations without annotations and comments have no
other layouts. -/
theorem imports_agree_with_package_iff_isTight (p : PackageLayout) (unit : CompilationUnit)
    (hunit : unit.DeclaresPackage p.text) :
    (∀ i : ImportLayout, CompilationUnit.imported? i.text =
      if i.static.isSome then none else some i.plain) ∧
    (unit.package = p.name.plain ↔ p.name.IsTight) ∧
    (∀ i : ImportLayout, i.static = none → i.star.isSome = true → i.name.words = p.name.words →
      (CompilationUnit.imported? i.text = some (unit.package ++ ".*") ↔ p.name.IsTight)) ∧
    (∀ filePath, ∀ u ∈ unit.units filePath, ∃ outer,
      u.parentName = innermost unit.package outer ∧
      ∀ i : ImportLayout, i.static = none → i.star = none →
        i.name.words = p.name.words ++ (outer ++ [u.name]) →
        (CompilationUnit.imported? i.text = some u.qualifiedName ↔ p.name.IsTight)) ∧
    ∀ (file text : String) (ts : List Token) (pieces rest : List Piece),
      Lexer.tokens file = some ts → Piece.tokensOf pieces <:+: ts → Lacks '/' text →
      ((Parser.source Parser.importDeclaration).run pieces = some (text, rest) →
        ∃ i : ImportLayout, text = i.text) ∧
      ((Parser.source Parser.packageDeclaration).run pieces = some (text, rest) →
        Lacks '@' text → ∃ p : PackageLayout, text = p.text) := by
  refine ⟨ImportLayout.imported?_text, ?_, ?_, ?_, ?_⟩
  · rw [p.package_eq hunit, p.name.text_eq_plain_iff]
  · intro i hstatic hstar hwords
    exact p.imported?_eq_package_iff hunit hstatic hstar hwords
  · intro filePath u hu
    obtain ⟨outer, hparent, hqualified⟩ := CompilationUnit.exists_qualifiedName hu
    refine ⟨outer, hparent, fun i hstatic hstar hwords => ?_⟩
    exact p.imported?_eq_qualifiedName_iff hunit hqualified hstatic hstar hwords
  · intro file text ts pieces rest hts hpieces hslash
    exact ⟨fun hrun => Parser.exists_importLayout hts hpieces hrun hslash,
      fun hrun hmark => Parser.exists_packageLayout hts hpieces hrun hmark hslash⟩

/-- The package `a . b`, with blanks around the dot. -/
def spacedPackage : PackageLayout :=
  have hspace : ∀ c ∈ " ".toList, Text.isBlank c = true := List.all_eq_true.mp rfl
  have hnone : ∀ c ∈ "".toList, Text.isBlank c = true := by simp
  have ha : ∀ c ∈ "a".toList, isIdentPart c = true ∨ c = '-' := by
    simp
    decide
  have hb : ∀ c ∈ "b".toList, isIdentPart c = true ∨ c = '-' := by
    simp
    decide
  { gap := ⟨" ", hspace⟩
    name := ⟨⟨"a", by decide, ha⟩, [⟨⟨" ", hspace⟩, ⟨" ", hspace⟩, ⟨"b", by decide, hb⟩⟩]⟩
    trail := ⟨"", hnone⟩ }

theorem package_ne_plain_of_spacedPackage :
    (⟨[.package "package a . b;"]⟩ : CompilationUnit).DeclaresPackage spacedPackage.text ∧
      ¬ spacedPackage.name.IsTight ∧
      (⟨[.package "package a . b;"]⟩ : CompilationUnit).package ≠ spacedPackage.name.plain := by
  have hdeclares : (⟨[.package "package a . b;"]⟩ : CompilationUnit).DeclaresPackage
      spacedPackage.text := ⟨[], [], rfl, by simp⟩
  have hspaced : ¬ spacedPackage.name.IsTight := by
    intro htight
    exact absurd (htight _ List.mem_cons_self).1 (by decide)
  refine ⟨hdeclares, hspaced, ?_⟩
  exact mt (imports_agree_with_package_iff_isTight _ _ hdeclares).2.1.mp hspaced

/-- The class is in another package than the import says. -/
theorem package_with_blanks_unlike_import :
    (CompilationUnit.ofSource? "package a . b;\nclass C \x7b\x7d").map (fun unit =>
      (unit.package, (unit.units "").map (·.qualifiedName))) = some ("a . b", ["a . b.C"]) ∧
    (CompilationUnit.ofSource? "import a . b . C;").map CompilationUnit.imports =
      some ["a.b.C"] := by
  decide +kernel

end ClassChart.Java
