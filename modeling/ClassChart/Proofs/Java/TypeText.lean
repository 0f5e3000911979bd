import ClassChart.Proofs.Java.Taken

/-!
How the uses of types are read.  A type begins with a word or with the mark of an annotation.
-/
namespace ClassChart.Java.Parser

variable {α β : Type}

/-- The first token that a parser takes, comments apart, satisfies `T`. -/
def Begins (p : Parser α) (T : Token → Prop) : Prop :=
  p.Reads fun cs _ => ∃ t rest, cs = .token t :: rest ∧ T t

theorem Begins.bind {p : Parser α} {T : Token → Prop} {f : α → Parser β} (hp : p.Begins T)
    (hf : ∀ a, (f a).Consumes) : (p >>= f).Begins T := by
  refine (Reads.bind hp (T := fun _ _ _ => True) hf).mono ?_
  rintro cs b ⟨a, first, second, rfl, ⟨t, rest, rfl, ht⟩, -⟩
  exact ⟨t, rest ++ second, rfl, ht⟩

/-- A parser that may take nothing before one that takes a token. -/
theorem Begins.of_optional {p : Parser α} {T : Token → Prop} {f : α → Parser β}
    (hp : p.Reads fun cs _ => cs = [] ∨ ∃ t rest, cs = .token t :: rest ∧ T t)
    (hf : ∀ a, (f a).Begins T) : (p >>= f).Begins T := by
  refine (Reads.bind hp hf).mono ?_
  rintro cs b ⟨a, first, second, rfl, rfl | ⟨t, rest, rfl, ht⟩, u, more, rfl, hu⟩
  · exact ⟨u, more, rfl, hu⟩
  · exact ⟨t, _, rfl, ht⟩

theorem begins_wordThat (p : String → Bool) : (wordThat p).Begins fun t => t.kind = .word := by
  refine (reads_wordThat p).mono ?_
  rintro cs text ⟨t, rfl, hkind, -⟩
  exact ⟨t, [], rfl, hkind⟩

theorem consumes_commaSeparated {p : Parser α} (hp : p.Consumes) : (commaSeparated p).Consumes :=
  .bind hp fun _ => .bind (.many (.bind (reads_symbol ",").consumes fun _ => hp)) fun _ => .pure _

theorem consumes_qualifiedName : qualifiedName.Consumes :=
  .bind reads_word.consumes fun _ =>
    .bind (.many (.bind (reads_symbol ".").consumes fun _ => reads_word.consumes)) fun _ => .pure ()

/-- An annotation begins with its mark. -/
theorem begins_annotationUse : annotationUse.Begins fun t => t.text = "@" := by
  refine Begins.bind ((reads_symbol "@").mono ?_) fun _ => .bind consumes_qualifiedName fun _ =>
    .bind (reads_group "(").attempt.consumes fun _ => .pure ()
  rintro cs - ⟨t, rfl, -, ht⟩
  exact ⟨t, [], rfl, ht⟩

theorem reads_annotations : annotations.Reads fun cs _ =>
    cs = [] ∨ ∃ t rest, cs = .token t :: rest ∧ t.text = "@" := by
  refine (Reads.bind begins_annotationUse.many fun _ => Reads.pure ()).mono ?_
  rintro cs - ⟨found, first, second, rfl, ⟨parts, rfl, hparts⟩, rfl, -⟩
  rw [List.append_nil]
  cases hparts with
  | nil => exact .inl rfl
  | cons hpart _ =>
      obtain ⟨t, rest, rfl, ht⟩ := hpart
      exact .inr ⟨t, _, rfl, ht⟩

theorem consumes_dimensions : dimensions.Consumes := by
  refine .bind (.many (.bind reads_annotations.consumes fun _ =>
    .bind (reads_group "[").consumes fun inner => ?_)) fun _ => .pure ()
  split
  · exact .pure ()
  · exact .failure

theorem consumes_typeArgument {type : Parser Unit} (htype : type.Consumes) :
    (typeArgument type).Consumes := by
  refine .bind reads_annotations.consumes fun _ => .bind (reads_symbol "?").consumes.accepts
    fun wild => ?_
  split
  · exact .bind (.attempt (.bind (reads_wordThat _).consumes fun _ =>
      .bind reads_annotations.consumes fun _ => htype)) fun _ => .pure _
  · exact htype

theorem consumes_typeArguments {type : Parser Unit} (htype : type.Consumes) :
    (typeArguments type).Consumes :=
  .bind (reads_symbol "<").consumes fun _ =>
    .bind (consumes_commaSeparated (consumes_typeArgument htype)).attempt fun _ =>
      (reads_symbol ">").consumes

theorem begins_classType {type : Parser Unit} (htype : type.Consumes) :
    (classType type).Begins fun t => t.kind = .word :=
  Begins.bind (begins_wordThat _) fun _ =>
    .bind (consumes_typeArguments htype).attempt fun _ =>
      .bind (.many (.bind (reads_symbol ".").consumes fun _ => .bind reads_annotations.consumes
        fun _ => .bind reads_word.consumes fun _ => (consumes_typeArguments htype).attempt))
        fun _ => .pure ()

theorem begins_typeUpTo (fuel : Nat) : (typeUpTo fuel).Begins fun t => t.kind = .word := by
  induction fuel with
  | zero => exact Takes.failure
  | succ n ih =>
      have haccepts : (accepts (wordThat primitives.contains)).Reads fun cs found =>
          if found then ∃ t, cs = [.token t] ∧ t.kind = .word else cs = [] := by
        refine (Reads.bind (reads_wordThat _).attempt fun _ => Reads.pure _).mono ?_
        rintro cs found ⟨name, first, second, rfl, hname, rfl, rfl⟩
        rcases hname with ⟨text, rfl, t, rfl, hkind, -⟩ | ⟨rfl, rfl⟩
        · exact ⟨t, rfl, hkind⟩
        · rfl
      refine (Reads.bind haccepts (T := fun found cs _ =>
        found = false → ∃ t rest, cs = .token t :: rest ∧ t.kind = .word) fun found => ?_).mono ?_
      · cases found with
        | true =>
            refine Takes.mono consumes_dimensions ?_
            rintro cs - - ⟨⟩
        | false =>
            exact (Begins.bind (begins_classType ih.consumes) fun _ => consumes_dimensions).mono
              fun _ _ hbegins _ => hbegins
      · rintro cs - ⟨found, first, second, rfl, hfirst, hsecond⟩
        cases found with
        | true =>
            obtain ⟨t, rfl, hkind⟩ := hfirst
            exact ⟨t, second, rfl, hkind⟩
        | false =>
            obtain rfl : first = [] := hfirst
            exact hsecond rfl

theorem begins_plainType : plainType.Begins fun t => t.kind = .word := by
  intro pieces a rest hrun
  rw [plainType, StateT.run_bind, StateT.run_get] at hrun
  dsimp only [Option.pure_def, Option.bind_eq_bind, Option.bind_some] at hrun
  exact begins_typeUpTo (pieces.length + 1) pieces a rest hrun

theorem begins_annotatedType :
    annotatedType.Begins fun t => t.text = "@" ∨ t.kind = .word := by
  refine Begins.of_optional (reads_annotations.mono ?_) fun _ => begins_plainType.mono ?_
  · rintro cs - (rfl | ⟨t, rest, rfl, ht⟩)
    · exact .inl rfl
    · exact .inr ⟨t, rest, rfl, .inl ht⟩
  · rintro cs - ⟨t, rest, rfl, ht⟩
    exact ⟨t, rest, rfl, .inr ht⟩

theorem consumes_typeParameter : typeParameter.Consumes :=
  .bind reads_annotations.consumes fun _ => .bind reads_word.consumes fun _ =>
    .bind (.attempt (.bind (reads_keyword "extends").consumes fun _ =>
      .bind begins_annotatedType.consumes fun _ => .many (.bind (reads_symbol "&").consumes fun _ =>
        begins_annotatedType.consumes))) fun _ => .pure ()

theorem consumes_optionalTypeParameters : optionalTypeParameters.Consumes := by
  refine .bind (.attempt (.bind (reads_symbol "<").consumes fun _ => ?_)) fun _ => .pure _
  exact .bind (consumes_commaSeparated consumes_typeParameter.source) fun _ =>
    .bind (reads_symbol ">").consumes fun _ => .pure _

theorem consumes_modifiers : modifiers.Consumes := by
  refine .bind takes_comments.consumes fun _ => .bind (.many ?_) fun _ => .pure _
  refine .bind takes_comments.consumes fun _ => .bind ?_ fun _ => .pure _
  refine .orElse ?_ ?_
  · exact .bind begins_annotationUse.source fun _ => .pure _
  · refine .bind (reads_wordThat _).consumes fun _ => ?_
    split
    · refine .bind (.ahead _) fun _ => ?_
      split
      · exact .pure _
      · exact .failure
    · exact .pure _

/-- The source of what a parser takes begins with the first token of it. -/
theorem Begins.exists_text_eq {p : Parser α} {T : Token → Prop} (hp : p.Begins T)
    {pieces rest : List Piece} {text : String} (hrun : (source p).run pieces = some (text, rest)) :
    ∃ t ∈ Piece.tokensOf pieces, T t ∧ ∃ more, text = t.text ++ more := by
  obtain ⟨taken, rfl, lead, body, a, rfl, -, hhead, ⟨t, more, hcode, ht⟩, rfl⟩ :=
    takes_source hp pieces text rest hrun
  cases body with
  | nil => contradiction
  | cons q later =>
      -- What comes first is no comment, so it is the first of the code.
      obtain rfl : q = .token t := by
        rw [code, List.filter_cons_of_pos (by simp [hhead q rfl])] at hcode
        exact (List.cons.inj hcode).1
      exact ⟨t, Piece.first_mem_tokensOf (p := .token t) (by simp), ht, _, rfl⟩

end ClassChart.Java.Parser
