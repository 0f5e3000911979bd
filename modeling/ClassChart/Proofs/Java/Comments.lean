import ClassChart.Java.Units
import ClassChart.Proofs.Blanks
import ClassChart.Proofs.Java.TypeText

/-!
Comments among supertypes.  A comment between the types of a list is an entry of its own, and
one before a superclass takes its place, so comments change what a type extends and implements
wherever they stand but before the first type of a list and behind a superclass.
-/
namespace ClassChart.Java

open Text (isBlank beginsWith trim)

namespace Supertype

def isComment : Supertype → Bool
  | .type _ => false
  | .comment _ => true

/-- A comment, and no type, begins with a slash. -/
def Marked (e : Supertype) : Prop :=
  beginsWith "/" e.text = e.isComment

/-- The second list has further comments. -/
inductive Commented : List Supertype → List Supertype → Prop where
  | nil : Commented [] []
  | keep (e : Supertype) {es es' : List Supertype} (hes : Commented es es') :
      Commented (e :: es) (e :: es')
  | add (c : Comment) {es es' : List Supertype} (hes : Commented es es') :
      Commented es (.comment c :: es')

namespace Commented

variable {es es' : List Supertype}

theorem sublist (hes : Commented es es') : es.Sublist es' := by
  induction hes with
  | nil => exact .slnil
  | keep e _ ih => exact ih.cons_cons e
  | add c _ ih => exact ih.cons _

theorem eq_of_length_le (hes : Commented es es') (hlength : es'.length ≤ es.length) : es' = es :=
  (hes.sublist.eq_of_length_le hlength).symm

/-- Without its comments a list has the same types. -/
theorem filter_isComment (hes : Commented es es') :
    es'.filter (!·.isComment) = es.filter (!·.isComment) := by
  induction hes with
  | nil => rfl
  | keep e _ ih =>
      rw [List.filter_cons, ih, List.filter_cons]
  | add c _ ih =>
      rw [List.filter_cons_of_neg (by simp [isComment]), ih]

/-- What comes first came first before, or it is a comment. -/
theorem head? (hes : Commented es es') :
    es'.head? = es.head? ∨ ∃ c, es'.head? = some (.comment c) := by
  cases hes with
  | nil => exact .inl rfl
  | keep e _ => exact .inl rfl
  | add c _ => exact .inr ⟨c, rfl⟩

end Commented

end Supertype

open Supertype (Commented)

/-- The second clause has further comments.  A clause that is not there has none. -/
structure InterfaceClause.Commented (clause clause' : InterfaceClause) : Prop where
  lead : clause.lead.Sublist clause'.lead
  entries : Supertype.Commented clause.entries clause'.entries
  absent : clause.entries = [] → clause'.entries = []

/-- The second header has further comments among its supertypes. -/
structure TypeHeader.Commented (h h' : TypeHeader) : Prop where
  superclass : Supertype.Commented h.superclass h'.superclass
  absent : h.superclass = [] → h'.superclass = []
  extended : h.extended.Commented h'.extended
  implemented : h.implemented.Commented h'.implemented

/-- The comments among the supertypes begin with a slash, and the types do not. -/
def TypeHeader.Marked (h : TypeHeader) : Prop :=
  ∀ e ∈ h.superclass ++ h.extended.entries ++ h.implemented.entries, e.Marked

namespace Supertype.Commented

variable {es es' : List Supertype}

/-- The first entry shows the same text exactly if no new comment stands before it. -/
theorem head?_text_eq_iff (hes : Commented es es') (hmarked : ∀ e ∈ es', e.Marked) :
    es'.head?.map text = es.head?.map text ↔
      ∀ c, es'.head? = some (.comment c) →
        ∃ before, es.head? = some (.comment before) ∧ trim before.text = trim c.text := by
  constructor
  · intro htext c hc
    rw [hc, Option.map_some] at htext
    obtain ⟨e, he, hsame⟩ := Option.map_eq_some_iff.mp htext.symm
    -- A text that begins with a slash is that of a comment.
    have hmark := hmarked e (hes.sublist.subset (List.mem_of_mem_head? he))
    have hcomment := hmarked (.comment c) (List.mem_of_mem_head? hc)
    rw [Marked, hsame, hcomment] at hmark
    cases e with
    | type => exact Bool.noConfusion hmark
    | comment before => exact ⟨before, he, hsame⟩
  · intro hfirst
    rcases hes.head? with hsame | ⟨c, hc⟩
    · rw [hsame]
    · obtain ⟨before, hbefore, htext⟩ := hfirst c hc
      rw [hc, hbefore]
      exact congrArg some htext.symm

/-- If the texts of all entries are the same, no comment is a further entry. -/
theorem map_text_eq_iff (hes : Commented es es') (first first' : List Supertype)
    (hfirst : first'.length = first.length) :
    (first' ++ es').map text = (first ++ es).map text ↔
      first'.map text = first.map text ∧ es' = es := by
  constructor
  · intro htexts
    have hlength : (first' ++ es').length = (first ++ es).length := by
      simpa using congrArg List.length htexts
    rw [List.length_append, List.length_append] at hlength
    obtain rfl : es' = es := hes.eq_of_length_le (by omega)
    rw [List.map_append, List.map_append] at htexts
    exact ⟨List.append_cancel_right htexts, rfl⟩
  · rintro ⟨htexts, rfl⟩
    rw [List.map_append, htexts, List.map_append]

/-- Comments begin with a slash when they are shown, and no type does. -/
theorem filter_map_text (hes : Commented es es') (hmarked : ∀ e ∈ es', e.Marked) :
    (es'.map text).filter (!beginsWith "/" ·) = (es.map text).filter (!beginsWith "/" ·) := by
  have hfilter (fs : List Supertype) (hfs : ∀ e ∈ fs, e.Marked) :
      (fs.map text).filter (!beginsWith "/" ·) = (fs.filter (!·.isComment)).map text := by
    rw [List.filter_map]
    refine congrArg (List.map text) (List.filter_congr fun e he => ?_)
    exact congrArg (!·) (hfs e he)
  rw [hfilter es' hmarked, hes.filter_isComment,
    hfilter es fun e he => hmarked e (hes.sublist.subset he)]

end Supertype.Commented

theorem beginsWith_slash_trim {c : Char} (hc : isBlank c = false) {s : String}
    (hs : s.toList.head? = some c) : beginsWith "/" (trim s) = (c == '/') := by
  obtain ⟨more, hmore⟩ := List.head?_eq_some_iff.mp (Text.head?_trim hc hs)
  rw [beginsWith, hmore]
  simp [List.isPrefixOf_cons_cons, eq_comm]

namespace Parser

theorem finds_comments : comments.Finds fun cs => ∀ c ∈ cs, Supertype.Marked (.comment c) := by
  intro pieces hpieces cs rest hrun c hc
  obtain ⟨taken, rfl, hcode, rfl⟩ := takes_comments pieces cs rest hrun
  obtain ⟨q, hq, rfl⟩ := List.mem_map.mp hc
  have hcomment : q.isComment = true := by
    simpa using List.filter_eq_nil_iff.mp hcode q hq
  cases q with
  | group => contradiction
  | token t =>
      have ht : t ∈ Piece.tokensOf (taken ++ rest) :=
        Piece.first_mem_tokensOf (List.mem_append_left rest hq)
      obtain ⟨more, hmore⟩ := Text.beginsWith_iff.mp ((hpieces t ht).comment hcomment)
      have hhead : t.text.toList.head? = some '/' := by simp [hmore]
      exact beginsWith_slash_trim (by decide) hhead

theorem finds_annotatedType : (source annotatedType).Finds fun text =>
    Supertype.Marked (.type text) := by
  intro pieces hpieces text rest hrun
  obtain ⟨t, ht, hkind, more, rfl⟩ := begins_annotatedType.exists_text_eq hrun
  have hhead : ∃ c, (t.text ++ more).toList.head? = some c ∧ isBlank c = false ∧ c ≠ '/' := by
    rcases hkind with hmark | hword
    · exact ⟨'@', by simp [hmark], by decide, by decide⟩
    · obtain ⟨w, hw⟩ := (hpieces t ht).word hword
      obtain ⟨c, letters, hletters⟩ := Text.exists_toList_eq_cons w.nonempty
      have hc : c ∈ w.text.toList := by simp [hletters]
      refine ⟨c, by rw [← hw, String.toList_append, hletters]; rfl, w.isBlank_eq_false hc, ?_⟩
      rintro rfl
      exact w.lacks (by decide) (by decide) hc
  obtain ⟨c, hc, hblank, hslash⟩ := hhead
  exact (beginsWith_slash_trim hblank hc).trans (by simpa [Supertype.isComment] using hslash)

theorem consumes_annotatedType : (source annotatedType).Consumes :=
  begins_annotatedType.source

theorem forall_mem_map_comment {cs : List Comment}
    (hcs : ∀ c ∈ cs, Supertype.Marked (.comment c)) : ∀ e ∈ cs.map Supertype.comment, e.Marked := by
  intro e he
  obtain ⟨c, hc, rfl⟩ := List.mem_map.mp he
  exact hcs c hc

theorem finds_superclassClause : superclassClause.Finds fun es => ∀ e ∈ es, e.Marked := by
  refine .skip (reads_keyword "extends").consumes.accepts fun found => ?_
  split
  · refine .bind finds_comments takes_comments.consumes fun lead hlead => ?_
    refine .bind finds_annotatedType consumes_annotatedType fun type htype => .pure ?_
    exact List.forall_mem_append.mpr
      ⟨forall_mem_map_comment hlead, List.forall_mem_singleton.mpr htype⟩
  · exact .pure fun e he => absurd he List.not_mem_nil

theorem consumes_superclassClause : superclassClause.Consumes := by
  refine .bind (reads_keyword "extends").consumes.accepts fun found => ?_
  split
  · exact .bind takes_comments.consumes fun _ => .bind consumes_annotatedType fun _ => .pure _
  · exact .pure _

theorem consumes_nextSupertype :
    (do
      let before ← comments
      symbol ","
      let after ← comments
      let type ← source annotatedType
      return (before ++ after).map Supertype.comment ++ [.type type] :
        Parser (List Supertype)).Consumes :=
  .bind takes_comments.consumes fun _ => .bind (reads_symbol ",").consumes fun _ =>
    .bind takes_comments.consumes fun _ => .bind consumes_annotatedType fun _ => .pure _

theorem finds_supertypes : supertypes.Finds fun es => ∀ e ∈ es, e.Marked := by
  refine .bind finds_annotatedType consumes_annotatedType fun first hfirst => ?_
  refine .bind (Finds.many (P := fun es => ∀ e ∈ es, e.Marked) ?_ consumes_nextSupertype)
    consumes_nextSupertype.many fun rest hrest => .pure ?_
  · refine .bind finds_comments takes_comments.consumes fun before hbefore => ?_
    refine .skip (reads_symbol ",").consumes fun _ => ?_
    refine .bind finds_comments takes_comments.consumes fun after hafter => ?_
    refine .bind finds_annotatedType consumes_annotatedType fun type htype => .pure ?_
    exact List.forall_mem_append.mpr
      ⟨forall_mem_map_comment (List.forall_mem_append.mpr ⟨hbefore, hafter⟩),
        List.forall_mem_singleton.mpr htype⟩
  · refine List.forall_mem_cons.mpr ⟨hfirst, fun e he => ?_⟩
    obtain ⟨es, hes, he⟩ := List.mem_flatten.mp he
    exact hrest es hes e he

theorem consumes_supertypes : supertypes.Consumes :=
  .bind consumes_annotatedType fun _ => .bind consumes_nextSupertype.many fun _ => .pure _

theorem consumes_interfaceClause (word : String) : (interfaceClause word).Consumes := by
  refine .bind (reads_keyword word).consumes.accepts fun found => ?_
  split
  · exact .bind takes_comments.consumes fun _ => .bind consumes_supertypes fun _ => .pure _
  · exact .pure _

theorem finds_interfaceClause (word : String) :
    (interfaceClause word).Finds fun clause => ∀ e ∈ clause.entries, e.Marked := by
  refine .skip (reads_keyword word).consumes.accepts fun found => ?_
  split
  · refine .skip takes_comments.consumes fun lead => ?_
    exact .bind finds_supertypes consumes_supertypes fun es hes => .pure hes
  · exact .pure fun e he => absurd he List.not_mem_nil

theorem consumes_optionalPermits : optionalPermits.Consumes := by
  refine .bind (reads_keyword "permits").consumes.accepts fun found => ?_
  split
  · exact .bind (consumes_commaSeparated begins_annotatedType.consumes) fun _ => .pure _
  · exact .pure _

theorem consumes_formalParameters : formalParameters.Consumes := by
  refine .bind (reads_group _).consumes fun inner => ?_
  split
  · exact .pure _
  · exact .failure

/-- A header with marked supertypes, before its body is read. -/
def MarkedHead (found : TypeHeader × List Piece) : Prop :=
  found.1.Marked

variable (ms : List Modifier)

theorem finds_classHead : (classHead ms).Finds MarkedHead := by
  refine .skip (reads_keyword "class").consumes fun _ => .skip reads_word.consumes fun name =>
    .skip consumes_optionalTypeParameters fun _ => ?_
  refine .bind finds_superclassClause consumes_superclassClause fun superclass hsuperclass => ?_
  refine .bind (finds_interfaceClause _) (consumes_interfaceClause _) fun clause hclause => ?_
  refine .skip consumes_optionalPermits fun _ => .skip (reads_group _).consumes fun _ => .pure ?_
  exact List.forall_mem_append.mpr ⟨List.forall_mem_append.mpr ⟨hsuperclass, by simp⟩, hclause⟩

theorem finds_recordHead : (recordHead ms).Finds MarkedHead := by
  refine .skip (reads_keyword "record").consumes fun _ => .skip reads_word.consumes fun name =>
    .skip consumes_optionalTypeParameters fun _ => .skip consumes_formalParameters fun _ => ?_
  refine .bind (finds_interfaceClause _) (consumes_interfaceClause _) fun clause hclause => ?_
  exact .skip (reads_group _).consumes fun _ => .pure hclause

theorem finds_interfaceHead : (interfaceHead ms).Finds MarkedHead := by
  refine .skip (reads_keyword "interface").consumes fun _ => .skip reads_word.consumes fun name =>
    .skip consumes_optionalTypeParameters fun _ => ?_
  refine .bind (finds_interfaceClause _) (consumes_interfaceClause _) fun clause hclause => ?_
  refine .skip consumes_optionalPermits fun _ => .skip (reads_group _).consumes fun _ => .pure ?_
  exact List.forall_mem_append.mpr ⟨hclause, by simp⟩

theorem finds_enumHead : (enumHead ms).Finds MarkedHead := by
  refine .skip (reads_keyword "enum").consumes fun _ => .skip reads_word.consumes fun name => ?_
  refine .bind (finds_interfaceClause _) (consumes_interfaceClause _) fun clause hclause => ?_
  exact .skip (reads_group _).consumes fun _ => .pure hclause

theorem finds_annotationHead : (annotationHead ms).Finds MarkedHead := by
  refine .skip (reads_symbol "@interface").consumes fun _ => .skip reads_word.consumes
    fun name => ?_
  exact .skip (reads_group _).consumes fun _ => .pure fun e he => absurd he List.not_mem_nil

/-- Whatever type declaration is read, its comments and types are marked as such. -/
theorem finds_typeDeclaration : typeDeclaration.Finds MarkedHead := by
  have hheads (ms : List Modifier) : (classHead ms <|> interfaceHead ms <|> enumHead ms <|>
      annotationHead ms <|> recordHead ms).Finds MarkedHead :=
    .orElse (finds_classHead ms) (.orElse (finds_interfaceHead ms) (.orElse (finds_enumHead ms)
      (.orElse (finds_annotationHead ms) (finds_recordHead ms))))
  exact .bind_pure (.withPieces (.skip consumes_modifiers hheads))

end Parser

/-- Whether there is a superclass does not depend on comments. -/
theorem TypeHeader.Commented.length_take_superclass {h h' : TypeHeader}
    (hcommented : h.Commented h') :
    (h'.superclass.take 1).length = (h.superclass.take 1).length := by
  have hle := hcommented.superclass.sublist.length_le
  have habsent : h.superclass.length = 0 → h'.superclass.length = 0 := by
    simpa using hcommented.absent
  rw [List.length_take, List.length_take]
  omega

/-- Comments leave what a type extends and implements as it is exactly if none comes to be the first
in the clause of the superclass and none is among the entries of a list.  The types of a list are
kept among the comments. -/
theorem inheritance_eq_iff_of_commented {h h' : TypeHeader} (hcommented : h.Commented h')
    (hmarked : h'.Marked) (o : Origin) (outer : Option String) (before : Option Comment) :
    ((typeUnit o outer before h').extended = (typeUnit o outer before h).extended ∧
        (typeUnit o outer before h').implemented = (typeUnit o outer before h).implemented ↔
      (∀ c, h'.superclass.head? = some (.comment c) →
        ∃ first, h.superclass.head? = some (.comment first) ∧ trim first.text = trim c.text) ∧
      h'.extended.entries = h.extended.entries ∧
      h'.implemented.entries = h.implemented.entries) ∧
    (typeUnit o outer before h').implemented.filter (!beginsWith "/" ·) =
      (typeUnit o outer before h).implemented.filter (!beginsWith "/" ·) ∧
    (h.superclass = [] → (typeUnit o outer before h').extended.filter (!beginsWith "/" ·) =
      (typeUnit o outer before h).extended.filter (!beginsWith "/" ·)) ∧
    ∀ (file : String) (ts : List Token) (pieces rest : List Piece) (read : TypeHeader)
      (body : List Piece), Lexer.tokens file = some ts → Piece.tokensOf pieces <:+: ts →
      Parser.typeDeclaration.run pieces = some ((read, body), rest) → read.Marked := by
  obtain ⟨⟨hsuperclass, hextended⟩, himplemented⟩ :=
    List.forall_mem_append.mp hmarked |>.imp_left List.forall_mem_append.mp
  have htake (es es' : List Supertype) :
      (es'.take 1).map Supertype.text = (es.take 1).map Supertype.text ↔
        es'.head?.map Supertype.text = es.head?.map Supertype.text := by
    cases es <;> cases es' <;> simp
  refine ⟨?_, ?_, ?_, ?_⟩
  · have hfirst := hcommented.extended.entries.map_text_eq_iff _ _
      hcommented.length_take_superclass
    have hsecond := hcommented.implemented.entries.map_text_eq_iff [] [] rfl
    rw [← hcommented.superclass.head?_text_eq_iff hsuperclass, ← and_assoc]
    exact and_congr (hfirst.trans (and_congr_left' (htake _ _))) (hsecond.trans (by simp))
  · exact hcommented.implemented.entries.filter_map_text himplemented
  · intro hnone
    have hread := hcommented.extended.entries.filter_map_text hextended
    simp only [typeUnit, hnone, hcommented.absent hnone]
    exact hread
  · intro file ts pieces rest read body hts hpieces hrun
    exact Parser.finds_typeDeclaration pieces
      (fun t ht => (Lexer.tokens_spec hts).1 t (hpieces.subset ht)) _ rest hrun

/-- A header of a class with the given clauses. -/
def headerOf (superclass : List Supertype) (implemented : InterfaceClause) : TypeHeader :=
  { form := .classForm, modifiers := [], name := "A", superclass, implemented,
    slice := ⟨"", 1, 1⟩ }

theorem inheritance_eq_of_lead_comment : ∃ h h' : TypeHeader,
    h = headerOf [.type "B"] ⟨[], [.type "C", .type "D"]⟩ ∧
    h' = headerOf [.type "B", .comment ⟨"/* b */", true⟩]
      ⟨[⟨"// c", false⟩], [.type "C", .type "D"]⟩ ∧
    h.Commented h' ∧ h'.Marked ∧
    (typeUnit ⟨"", ""⟩ none none h').extended = (typeUnit ⟨"", ""⟩ none none h).extended ∧
    (typeUnit ⟨"", ""⟩ none none h').implemented = (typeUnit ⟨"", ""⟩ none none h).implemented := by
  refine ⟨_, _, rfl, rfl, ?_⟩
  have hlist : Supertype.Commented [.type "C", .type "D"] [.type "C", .type "D"] :=
    .keep _ (.keep _ .nil)
  have hcommented : (headerOf [.type "B"] ⟨[], [.type "C", .type "D"]⟩).Commented
      (headerOf [.type "B", .comment ⟨"/* b */", true⟩]
        ⟨[⟨"// c", false⟩], [.type "C", .type "D"]⟩) :=
    ⟨.keep _ (.add _ .nil), by simp [headerOf], ⟨.refl _, .nil, fun _ => rfl⟩,
      ⟨by simp [headerOf], hlist, by simp [headerOf]⟩⟩
  have hmarked : (headerOf [.type "B", .comment ⟨"/* b */", true⟩]
      ⟨[⟨"// c", false⟩], [.type "C", .type "D"]⟩).Marked := by
    simp only [TypeHeader.Marked, headerOf, Supertype.Marked]
    decide
  refine ⟨hcommented, hmarked, ?_⟩
  exact (inheritance_eq_iff_of_commented hcommented hmarked ⟨"", ""⟩ none none).1.mpr
    ⟨by simp [headerOf], rfl, rfl⟩

/-- The comment is taken for the superclass, and one between interfaces for an interface. -/
theorem comment_among_supertypes :
    (CompilationUnit.ofSource?
        "class A extends /* c */ B implements C, /* d */ D \x7b\x7d").map (fun unit =>
      (unit.units "").map fun u => (u.extended, u.implemented)) =
        some [(["/* c */"], ["C", "/* d */", "D"])] ∧
      (CompilationUnit.ofSource? "class A extends B implements C, D \x7b\x7d").map (fun unit =>
        (unit.units "").map fun u => (u.extended, u.implemented)) = some [(["B"], ["C", "D"])] := by
  decide +kernel

end ClassChart.Java
