import ClassChart.Proofs.Java.Contents
import ClassChart.Proofs.Java.Spelling

/-!
The headers of methods and constructors.  Whatever is read as a method or constructor has its
name and its parameters in its header, and behind the header its body or a semicolon.
-/
namespace ClassChart.Java

open Text (Blanks)
open Token (spread)

/-- What methods and constructors have in common. -/
structure Callable where
  name : String
  formals : List Formal
  header : String
  source : String

def MethodDecl.callable (m : MethodDecl) : Callable :=
  ⟨m.name, m.formals, m.source.header, m.source.slice.text⟩

def ConstructorDecl.callable (c : ConstructorDecl) : Callable :=
  ⟨c.name, c.formals, c.source.header, c.source.slice.text⟩

def Member.callable? : Member → Option Callable
  | .method m => some m.callable
  | .constructor c => some c.callable
  | _ => none

/-- The source of a method or constructor.  The name has modifiers and types before it and the
parameters behind it, and the header has blanks behind it and then the body or a semicolon. -/
structure HeaderLayout where
  front : String
  name : Word
  gap : String
  parameters : String
  tail : String
  trail : Blanks
  rest : String
  ends : ∃ c ∈ rest.toList.head?, c = '\x7b' ∨ c = ';'

namespace HeaderLayout

variable (l : HeaderLayout)

/-- The header up to the end of the parameters. -/
def lead : String :=
  l.front ++ l.name.text ++ l.gap ++ l.parameters

def header : String :=
  l.lead ++ l.tail

def source : String :=
  l.header ++ l.trail.text ++ l.rest

/-- The layout is that of a method or constructor, with its name and its parameters. -/
structure Shows (l : HeaderLayout) (c : Callable) : Prop where
  name : l.name.text = c.name
  parameters : ∃ opening inner closing, opening.text = "(" ∧
    l.parameters = Parser.sourceOf [.group opening inner closing] ∧
    Parser.complete Parser.formals inner = some c.formals
  header : l.header = c.header
  source : l.source = c.source

end HeaderLayout

namespace Parser

variable {α β : Type}

/-- The body of a method or constructor, or the semicolon in its place. -/
def IsEnd (p : Piece) : Prop :=
  p.first.text = "\x7b" ∨ p.first.text = ";"

/-- A parameter list is one piece: a group in parentheses that holds the parameters and nothing
else. -/
theorem picks_formalParameters : formalParameters.Picks fun q fs =>
    ∃ opening inner closing, q = .group opening inner closing ∧ opening.text = "(" ∧
      complete formals inner = some fs := by
  refine (Picks.bind (picks_group "(") (T := fun inner fs => complete formals inner = some fs)
    fun inner => ?_).mono ?_
  · split
    · rename_i fs hfs
      refine (Takes.pure fs).mono ?_
      rintro taken b ⟨rfl, rfl⟩
      exact ⟨rfl, hfs⟩
    · exact Takes.failure
  · rintro q fs ⟨inner, ⟨opening, closing, rfl, hopening⟩, hfs⟩
    exact ⟨opening, inner, closing, rfl, hopening, hfs⟩

/-- The last piece that a parser takes is a body or a semicolon, and the result satisfies `P`. -/
def Ends (p : Parser α) (P : α → Prop) : Prop :=
  p.Takes fun taken a => (∃ tail last, taken = tail ++ [last] ∧ IsEnd last) ∧ P a

namespace Ends

variable {P : β → Prop}

theorem skip {p : Parser α} {f : α → Parser β} (hp : p.Consumes) (hf : ∀ a, (f a).Ends P) :
    (p >>= f).Ends P := by
  refine (Takes.bind hp hf).mono ?_
  rintro taken b ⟨a, first, second, rfl, -, ⟨tail, last, rfl, hlast⟩, hb⟩
  exact ⟨⟨first ++ tail, last, (List.append_assoc ..).symm, hlast⟩, hb⟩

theorem of_picks {p : Parser α} (hp : p.Picks fun q _ => IsEnd q) {f : α → β}
    (hf : ∀ a, P (f a)) : (p >>= fun a => Pure.pure (f a)).Ends P := by
  refine (Takes.bind hp fun a => Takes.pure (f a)).mono ?_
  rintro taken b ⟨a, first, second, rfl, ⟨lead, q, rfl, -, -, hq⟩, rfl, rfl⟩
  exact ⟨⟨lead, q, List.append_nil _, hq⟩, hf a⟩

end Ends

theorem picks_braces : braces.Picks fun q _ => IsEnd q := by
  refine (picks_group _).mono ?_
  rintro q inner ⟨t, closing, rfl, ht⟩
  exact .inl ht

theorem picks_semicolon : (symbol ";").Picks fun q _ => IsEnd q := by
  refine (picks_symbol _).mono ?_
  rintro q - ⟨t, rfl, -, ht⟩
  exact .inr ht

theorem picks_bodyOrSemicolon : bodyOrSemicolon.Picks fun q _ => IsEnd q := by
  have hsemicolon : (do symbol ";"; return false : Parser Bool).Picks fun q _ => IsEnd q := by
    refine (Picks.bind picks_semicolon (T := fun _ _ => True) fun _ => ?_).mono ?_
    · exact (Takes.pure false).mono fun _ _ hnone => ⟨hnone.1, trivial⟩
    · rintro q b ⟨-, hq, -⟩
      exact hq
  intro pieces b rest hrun
  rw [bodyOrSemicolon, StateT.run_bind, Option.bind_eq_bind, Option.bind_eq_some_iff] at hrun
  obtain ⟨⟨accepted, middle⟩, haccepted, hrun⟩ := hrun
  rcases Takes.accepts picks_braces pieces accepted middle haccepted with
    ⟨taken, rfl, ⟨rfl, inner, hbody⟩ | ⟨rfl, rfl⟩⟩
  · obtain ⟨rfl, rfl⟩ := Prod.mk.inj (Option.some.inj hrun)
    exact ⟨taken, rfl, hbody⟩
  · exact hsemicolon middle b rest hrun

/-- The pieces of a method or constructor. -/
structure HeaderPieces where
  front : List Piece
  name : Token
  gap : List Piece
  opening : Token
  inner : List Piece
  closing : Token
  tail : List Piece
  last : Piece
  word : name.kind = .word
  opens : opening.text = "("
  ends : IsEnd last

namespace HeaderPieces

variable (h : HeaderPieces)

def header : List Piece :=
  h.front ++ .token h.name :: (h.gap ++ .group h.opening h.inner h.closing :: h.tail)

def pieces : List Piece :=
  h.header ++ [h.last]

end HeaderPieces

/-- What a parser takes are the pieces of a method or constructor with the given name and
parameters. -/
def Heads (p : Parser α) (given : α → String × List Formal) : Prop :=
  p.Takes fun taken a => ∃ h : HeaderPieces, taken = h.pieces ∧ h.name.text = (given a).1 ∧
    complete formals h.inner = some (given a).2

namespace Heads

variable {given : β → String × List Formal}

theorem skip {p : Parser α} {f : α → Parser β} (hp : p.Consumes) (hf : ∀ a, (f a).Heads given) :
    (p >>= f).Heads given := by
  refine (Takes.bind hp hf).mono ?_
  rintro taken b ⟨a, first, second, rfl, -, h, rfl, hname, hformals⟩
  refine ⟨{ h with front := first ++ h.front }, ?_, hname, hformals⟩
  simp [HeaderPieces.pieces, HeaderPieces.header]

/-- From the name on. -/
theorem of_ends {p : Parser String} (hp : p.Picks fun q text => ∃ t, q = .token t ∧ t.kind = .word ∧
    t.text = text) {f : String → List Formal → Parser β}
    (hf : ∀ name fs, (f name fs).Ends fun b => given b = (name, fs)) :
    (p >>= fun name => formalParameters >>= fun fs => f name fs).Heads given := by
  refine (Takes.bind hp fun name => Takes.bind picks_formalParameters (hf name)).mono ?_
  rintro taken b ⟨name, first, second, rfl, ⟨lead, q, rfl, -, -, t, rfl, hkind, rfl⟩, fs, third,
    fourth, rfl, ⟨gap, q, rfl, -, -, opening, inner, closing, rfl, hopening, hformals⟩,
    ⟨tail, last, rfl, hlast⟩, hb⟩
  refine ⟨⟨lead, t, gap, opening, inner, closing, tail, last, hkind, hopening, hlast⟩, ?_, ?_, ?_⟩
  · simp [HeaderPieces.pieces, HeaderPieces.header]
  · rw [hb]
  · rw [hb, hformals]

end Heads

/-- The pieces spell a method or constructor. -/
structure HeaderPieces.Spells (h : HeaderPieces) (c : Callable) : Prop where
  name : h.name.text = c.name
  formals : complete Parser.formals h.inner = some c.formals
  header : c.header = sourceOf h.header
  source : c.source = sourceOf h.pieces

/-- The pieces that are kept for a declaration are those of its header and its end. -/
theorem Heads.withPieces {p : Parser α} (given : α → String × List Formal) (hp : p.Heads given) :
    (Parser.withPieces p).Takes fun taken found =>
      ∃ lead h, taken = lead ++ found.2 ∧ found.2 = HeaderPieces.pieces h ∧
        h.name.text = (given found.1).1 ∧ complete formals h.inner = some (given found.1).2 := by
  refine (takes_withPieces hp).mono ?_
  rintro taken found ⟨lead, htaken, -, -, h, hfound, hgiven⟩
  exact ⟨lead, h, htaken, hfound, hgiven⟩

theorem sourceOf_append {ts : List Token} (hts : ts ≠ []) (us : List Token) :
    Token.sourceOf (ts ++ us) = Token.sourceOf ts ++ spread us := by
  obtain ⟨t, rest, rfl⟩ := List.exists_cons_of_ne_nil hts
  rw [List.cons_append, Token.sourceOf, Token.sourceOf, spread_append, String.append_assoc]

namespace HeaderPieces

variable (h : HeaderPieces)

theorem tokensOf_header_ne_nil : Piece.tokensOf h.header ≠ [] := by
  simp [header, Piece.tokensOf_append, Piece.tokensOf, Piece.tokens]

theorem header_headedSourceOf : (headedSourceOf h.pieces).header = sourceOf h.header := by
  rw [headedSourceOf, pieces, List.dropLast_concat]

/-- The two parts of the source are the whole of it. -/
theorem text_headedSourceOf : (headedSourceOf h.pieces).slice.text = sourceOf h.pieces := by
  have hlast : h.pieces.getLast?.toList = [h.last] := by simp [pieces]
  have hwhole := sourceOf_append h.tokensOf_header_ne_nil (Piece.tokensOf [h.last])
  rw [← Piece.tokensOf_append] at hwhole
  calc (headedSourceOf h.pieces).slice.text
      = sourceOf h.header ++ spread (Piece.tokensOf [h.last]) := by
        rw [HeadedSource.slice, header_headedSourceOf, headedSourceOf, hlast]
    _ = sourceOf h.pieces := hwhole.symm

end HeaderPieces

theorem takes_method : method.Takes fun taken m =>
    ∃ lead h, taken = lead ++ HeaderPieces.pieces h ∧ h.Spells m.callable := by
  refine Takes.mono (Takes.bind (Heads.withPieces (fun m => (m.name, m.formals)) ?_)
    fun _ => Takes.pure _) ?_
  · refine .skip consumes_modifiers fun _ => .skip consumes_optionalTypeParameters fun _ =>
      .skip reads_annotations.consumes fun _ => .skip begins_plainType.source fun _ => ?_
    refine .of_ends picks_word fun name fs => ?_
    exact .skip consumes_dimensions fun _ => .skip consumes_optionalThrows fun _ =>
      .of_picks picks_bodyOrSemicolon fun _ => rfl
  · rintro taken m ⟨⟨d, body⟩, first, second, rfl, ⟨lead, h, rfl, rfl, hname, hformals⟩, rfl, rfl⟩
    exact ⟨lead, h, List.append_nil _, hname, hformals, h.header_headedSourceOf,
      h.text_headedSourceOf⟩

/-- A constructor is read from a header with its name, its parameters and its body. -/
theorem takes_constructor : constructor.Takes fun taken m =>
    ∃ c lead h, m = .constructor c ∧ taken = lead ++ HeaderPieces.pieces h ∧
      h.Spells c.callable := by
  refine Takes.mono (Takes.bind (Heads.withPieces (fun c => c.2) ?_) fun _ => Takes.pure _) ?_
  · refine .skip consumes_modifiers fun _ => .skip consumes_typeParameters.attempt fun _ => ?_
    refine .of_ends ((picks_wordThat _).mono ?_) fun name fs => ?_
    · rintro q text ⟨t, hq, hkind, htext, -⟩
      exact ⟨t, hq, hkind, htext⟩
    · exact .skip consumes_optionalThrows fun _ => .of_picks picks_braces fun _ => rfl
  · rintro taken m ⟨⟨d, body⟩, first, second, rfl, ⟨lead, h, rfl, rfl, hname, hformals⟩, rfl, rfl⟩
    exact ⟨_, lead, h, rfl, List.append_nil _, hname, hformals, h.header_headedSourceOf,
      h.text_headedSourceOf⟩

/-- What stands before a token in a source text does not depend on what follows it. -/
theorem exists_lead (before : List Token) (t : Token) : ∃ lead, ∀ after,
    Token.sourceOf (before ++ t :: after) = lead ++ t.text ++ spread after := by
  cases before with
  | nil => exact ⟨"", fun after => by rw [String.empty_append]; rfl⟩
  | cons first more =>
      refine ⟨Token.sourceOf (first :: more) ++ t.gap, fun after => ?_⟩
      rw [sourceOf_append (List.cons_ne_nil _ _), spread_cons]
      simp only [String.append_assoc]

theorem sourceOf_group (opening : Token) (inner : List Piece) (closing : Token) :
    sourceOf [.group opening inner closing] =
      opening.text ++ spread (Piece.tokensOf inner ++ [closing]) := by
  rw [sourceOf, Piece.tokensOf, Piece.tokensOf, List.append_nil, Piece.tokens]
  rfl

theorem exists_tokens_eq (p : Piece) : ∃ rest, p.tokens = p.first :: rest := by
  cases p with
  | token t => exact ⟨[], rfl⟩
  | group opening inner closing => exact ⟨_, rfl⟩

namespace HeaderPieces

variable (h : HeaderPieces)

/-- Scanned pieces of a method or constructor have a layout. -/
theorem exists_layout (hscanned : AllScanned h.pieces) : ∃ l : HeaderLayout,
    l.name.text = h.name.text ∧ l.parameters = sourceOf [.group h.opening h.inner h.closing] ∧
      l.header = sourceOf h.header ∧ l.source = sourceOf h.pieces := by
  obtain ⟨front, hfront⟩ := exists_lead (Piece.tokensOf h.front) h.name
  obtain ⟨more, hlast⟩ := exists_tokens_eq h.last
  have hheader : Piece.tokensOf h.header = Piece.tokensOf h.front ++ h.name ::
      (Piece.tokensOf h.gap ++ (h.opening :: (Piece.tokensOf h.inner ++ [h.closing])) ++
        Piece.tokensOf h.tail) := by
    simp [header, Piece.tokensOf_append, Piece.tokensOf, Piece.tokens]
  have hpieces : Piece.tokensOf h.pieces = Piece.tokensOf h.header ++ (h.last.first :: more) := by
    rw [pieces, Piece.tokensOf_append, Piece.tokensOf, Piece.tokensOf, List.append_nil, hlast]
  have hname : h.name.Scanned := hscanned _ (by simp [hpieces, hheader])
  have hfirst : h.last.first.Scanned := hscanned _ (by simp [hpieces])
  obtain ⟨w, hw⟩ := hname.word h.word
  have hends : ∃ c ∈ (h.last.first.text ++ spread more).toList.head?, c = '\x7b' ∨ c = ';' := by
    rcases h.ends with hbrace | hsemicolon
    · exact ⟨'\x7b', by simp [hbrace], .inl rfl⟩
    · exact ⟨';', by simp [hsemicolon], .inr rfl⟩
  let l : HeaderLayout := ⟨front, w, spread (Piece.tokensOf h.gap) ++ h.opening.gap,
    sourceOf [.group h.opening h.inner h.closing], spread (Piece.tokensOf h.tail),
    ⟨h.last.first.gap, hfirst.gap⟩, h.last.first.text ++ spread more, hends⟩
  have hleft : l.header = sourceOf h.header := by
    rw [sourceOf, hheader, hfront, spread_append, spread_append, spread_cons]
    simp only [l, HeaderLayout.header, HeaderLayout.lead, sourceOf_group, hw, String.append_assoc]
  have hright : l.source = sourceOf h.pieces := by
    rw [HeaderLayout.source, hleft, sourceOf, sourceOf, hpieces,
      sourceOf_append (by simp [hheader]), spread_cons]
    simp only [l, String.append_assoc]
  exact ⟨l, hw, rfl, hleft, hright⟩

theorem exists_shows (hscanned : AllScanned h.pieces) {c : Callable} (hc : h.Spells c) :
    ∃ l : HeaderLayout, l.Shows c := by
  obtain ⟨l, hname, hparameters, hheader, hsource⟩ := h.exists_layout hscanned
  exact ⟨l, hname.trans hc.name, ⟨h.opening, h.inner, h.closing, h.opens, hparameters, hc.formals⟩,
    hheader.trans hc.header.symm, hsource.trans hc.source.symm⟩

end HeaderPieces

/-- What a parser takes comes from the scanner if all it is given does. -/
theorem AllScanned.of_append {lead body after : List Piece}
    (hscanned : AllScanned (lead ++ body ++ after)) : AllScanned body := by
  intro t ht
  apply hscanned t
  simp [Piece.tokensOf_append, ht]

/-- Every method and constructor of a file has a layout. -/
theorem upholds_layout :
    Upholds fun m => ∀ c, m.callable? = some c → ∃ l : HeaderLayout, l.Shows c where
  own form := by
    intro pieces hscanned m rest hrun c hc
    rcases run_memberIn hrun with ⟨d, rfl, hd⟩ | ⟨d, -, hd⟩ | ⟨f, rfl⟩ | rfl
    · obtain ⟨taken, rfl, lead, h, rfl, hspells⟩ := takes_method pieces d rest hd
      exact h.exists_shows (AllScanned.of_append hscanned) (Option.some.inj hc ▸ hspells)
    · obtain ⟨taken, rfl, d, lead, h, rfl, rfl, hspells⟩ := takes_constructor pieces m rest hd
      exact h.exists_shows (AllScanned.of_append hscanned) (Option.some.inj hc ▸ hspells)
    · contradiction
    · contradiction
  comment t _ _ c hc := by contradiction
  type header members c hc := by contradiction

end Parser

end ClassChart.Java
