import ClassChart.Proofs.Java.Comments

/-!
Expressions, members and whole files are read from the front: whatever is left of the pieces
stood behind what was taken.
-/
namespace ClassChart.Java.Parser

variable {α : Type}

theorem Consumes.get : (MonadState.get : Parser (List Piece)).Consumes := by
  intro pieces found rest hrun
  obtain ⟨rfl, rfl⟩ := Prod.mk.inj (Option.some.inj hrun)
  exact ⟨[], rfl, trivial⟩

theorem Consumes.withPieces {p : Parser α} (hp : p.Consumes) : (Parser.withPieces p).Consumes :=
  (takes_withPieces hp).consumes

theorem consumes_adjacent (text : String) : (adjacent text).Consumes :=
  .bind (reads_satisfying _).consumes fun _ => .pure _

theorem consumes_binaryOperator : binaryOperator.Consumes := by
  have hassign : (attempt (adjacent "=")).Consumes := (consumes_adjacent "=").attempt
  refine .bind (reads_satisfying _).consumes fun t => ?_
  have hagain : (attempt (adjacent t.text)).Consumes := (consumes_adjacent _).attempt
  dsimp only
  split
  · exact .bind hassign fun _ => .pure _
  split
  · exact consumes_adjacent "="
  split
  · exact .bind hagain fun _ => .bind hassign fun _ => .pure _
  split
  · exact .bind hagain fun _ => .bind hagain fun _ => .bind hassign fun _ => .pure _
  split
  · exact .pure _
  · exact .failure

theorem consumes_optionalBody : optionalBody.Consumes :=
  .bind (reads_group _).consumes.attempt fun _ => .pure _

theorem consumes_plainType : plainType.Consumes :=
  begins_plainType.consumes

theorem consumes_creation : creation.Consumes := by
  have hend : (do
      if ← accepts parentheses then optionalBody
      else
        let sizes ← many do
          annotations
          group "["
        if sizes.isEmpty then failure
        optionalBody : Parser Unit).Consumes := by
    refine .bind (reads_group _).consumes.accepts fun called => ?_
    split
    · exact consumes_optionalBody
    · refine .bind (.many (.bind reads_annotations.consumes fun _ => (reads_group _).consumes))
        fun sizes => ?_
      dsimp only
      split
      · exact .bind .failure fun _ => consumes_optionalBody
      · exact consumes_optionalBody
  refine .bind reads_annotations.consumes fun _ => ?_
  refine .bind (reads_wordThat _).consumes.accepts fun primitive => ?_
  dsimp only
  split
  · exact .bind (begins_classType consumes_plainType).consumes fun _ => hend
  · exact hend

/-- What the parsers of expressions do with one unit less. -/
structure ConsumeUpTo (fuel : Nat) : Prop where
  operand : (operand fuel).Consumes
  lambdaBody : (lambdaBody fuel).Consumes
  continuation : (continuation fuel).Consumes

namespace ConsumeUpTo

variable {fuel : Nat} (h : ConsumeUpTo fuel)

include h

theorem operand_succ : (Parser.operand (fuel + 1)).Consumes := by
  unfold Parser.operand
  refine .bind reads_next.consumes fun p => ?_
  cases p with
  | group t inner closing =>
      dsimp only
      split
      · refine .bind (reads_symbol _).consumes.accepts fun arrow => ?_
        split
        · exact h.lambdaBody
        · refine .bind (.ahead _) fun cast => ?_
          split
          · exact h.operand
          · exact h.continuation
      · exact .failure
  | token t =>
      dsimp only
      split
      · split
        · exact h.operand
        · exact .failure
      · split
        · exact .bind consumes_creation fun _ => h.continuation
        split
        · exact .bind (reads_group _).consumes fun _ => .bind (reads_group _).consumes
            fun _ => h.continuation
        · refine .bind (reads_symbol _).consumes.accepts fun arrow => ?_
          split
          · exact h.lambdaBody
          · exact h.continuation
      · exact h.continuation

theorem lambdaBody_succ : (Parser.lambdaBody (fuel + 1)).Consumes := by
  unfold Parser.lambdaBody
  refine .bind (reads_group _).consumes.accepts fun block => ?_
  split
  · exact .pure _
  · exact h.operand

theorem continuation_succ : (Parser.continuation (fuel + 1)).Consumes := by
  have harguments : (typeArguments plainType).Consumes := consumes_typeArguments consumes_plainType
  have htwice (text : String) : (symbol text *> adjacent text).Consumes :=
    .bind (reads_symbol text).consumes fun _ => consumes_adjacent text
  unfold Parser.continuation
  refine .bind (reads_symbol _).consumes.accepts fun dot => ?_
  split
  · refine .bind harguments.attempt fun _ => .bind (reads_keyword _).consumes.accepts
      fun created => ?_
    dsimp only
    split
    · exact .bind consumes_creation fun _ => h.continuation
    · exact .bind reads_word.consumes fun _ => h.continuation
  refine .bind (reads_symbol _).consumes.accepts fun reference => ?_
  split
  · exact .bind harguments.attempt fun _ => .bind reads_word.consumes fun _ => h.continuation
  refine .bind (reads_group _).consumes.accepts fun called => ?_
  split
  · exact h.continuation
  refine .bind (reads_group _).consumes.accepts fun indexed => ?_
  split
  · exact h.continuation
  refine .bind (htwice "+").accepts fun increment => ?_
  split
  · exact h.continuation
  refine .bind (htwice "-").accepts fun decrement => ?_
  split
  · exact h.continuation
  refine .bind harguments.accepts fun generic => ?_
  split
  · exact h.continuation
  refine .bind (reads_keyword _).consumes.accepts fun tested => ?_
  split
  · exact .bind (reads_keyword _).consumes.attempt fun _ =>
      .bind begins_annotatedType.consumes fun _ => .bind (reads_group _).consumes.attempt fun _ =>
        .bind (reads_wordThat _).consumes.attempt fun _ => h.continuation
  refine .bind consumes_binaryOperator.accepts fun operator => ?_
  split
  · exact h.operand
  · exact .pure _

end ConsumeUpTo

theorem consumeUpTo (fuel : Nat) : ConsumeUpTo fuel := by
  induction fuel with
  | zero => exact ⟨.failure, .failure, .failure⟩
  | succ n ih => exact ⟨ih.operand_succ, ih.lambdaBody_succ, ih.continuation_succ⟩

theorem consumes_expression : expression.Consumes :=
  .bind .get fun _ => (consumeUpTo _).operand

theorem consumes_initialiser : initialiser.Consumes := by
  refine .bind (reads_group _).consumes.accepts fun elements => ?_
  split
  · exact .pure _
  · exact consumes_expression

theorem consumes_declarator : declarator.Consumes := by
  refine .bind reads_word.consumes fun name => .bind consumes_dimensions.source fun dims =>
    .bind (reads_symbol _).consumes.accepts fun assigned => ?_
  dsimp only
  split
  · exact .bind consumes_initialiser fun _ => .pure _
  · exact .pure _

theorem consumes_optionalThrows : optionalThrows.Consumes := by
  refine .bind (reads_keyword _).consumes.accepts fun throws => ?_
  split
  · exact .bind (consumes_commaSeparated begins_annotatedType.consumes) fun _ => .pure _
  · exact .pure _

theorem consumes_typeParameters : typeParameters.Consumes :=
  .bind (reads_symbol _).consumes fun _ =>
    .bind (consumes_commaSeparated consumes_typeParameter.source) fun _ =>
      .bind (reads_symbol _).consumes fun _ => .pure _

theorem consumes_constructor : constructor.Consumes := by
  refine .bind (.withPieces ?_) fun _ => .pure _
  exact .bind consumes_modifiers fun _ => .bind consumes_typeParameters.attempt fun _ =>
    .bind (reads_wordThat _).consumes fun _ => .bind consumes_formalParameters fun _ =>
      .bind consumes_optionalThrows fun _ => .bind (reads_group _).consumes fun _ => .pure _

theorem consumes_compactConstructor : compactConstructor.Consumes :=
  .bind consumes_modifiers fun _ => .bind (reads_wordThat _).consumes fun _ =>
    .bind (reads_group _).consumes fun _ => .pure _

theorem consumes_bodyOrSemicolon : bodyOrSemicolon.Consumes := by
  refine .bind (reads_group _).consumes.accepts fun body => ?_
  split
  · exact .pure _
  · exact .bind (reads_symbol _).consumes fun _ => .pure _

theorem consumes_method : method.Consumes := by
  refine .bind (.withPieces ?_) fun _ => .pure _
  exact .bind consumes_modifiers fun _ => .bind consumes_optionalTypeParameters fun _ =>
    .bind reads_annotations.consumes fun _ => .bind begins_plainType.source fun _ =>
      .bind reads_word.consumes fun _ => .bind consumes_formalParameters fun _ =>
        .bind consumes_dimensions fun _ => .bind consumes_optionalThrows fun _ =>
          .bind consumes_bodyOrSemicolon fun _ => .pure _

theorem consumes_fields (isConstant : Bool) : (fields isConstant).Consumes := by
  refine .bind (.withPieces ?_) fun _ => .pure _
  exact .bind consumes_modifiers fun _ => .bind begins_plainType.source fun _ =>
    .bind (consumes_commaSeparated consumes_declarator) fun _ =>
      .bind (reads_symbol _).consumes fun _ => .pure _

theorem consumes_annotationElement : annotationElement.Consumes := by
  have hend : (do symbol ";"; return Member.other : Parser Member).Consumes :=
    .bind (reads_symbol _).consumes fun _ => .pure _
  have hdefault : (do
      dimensions
      if ← accepts (keyword "default") then
        if !(← accepts annotationUse) then initialiser
      symbol ";"
      return Member.other : Parser Member).Consumes := by
    refine .bind consumes_dimensions fun _ => .bind (reads_keyword _).consumes.accepts
      fun hasDefault => ?_
    dsimp only
    split
    · refine .bind begins_annotationUse.consumes.accepts fun annotated => ?_
      split
      · exact .bind consumes_initialiser fun _ => hend
      · exact hend
    · exact hend
  refine .bind consumes_modifiers fun _ => .bind consumes_plainType fun _ =>
    .bind reads_word.consumes fun _ => .bind (reads_group _).consumes fun inner => ?_
  dsimp only
  split
  · exact .bind .failure fun _ => hdefault
  · exact hdefault

theorem consumes_initialiserBlock : initialiserBlock.Consumes :=
  .bind (reads_keyword _).consumes.attempt fun _ => .bind (reads_group _).consumes fun _ => .pure _

theorem consumes_memberIn (form : TypeForm) : (memberIn form).Consumes := by
  have hmethod : (do return Member.method (← method) : Parser Member).Consumes :=
    .bind consumes_method fun _ => .pure _
  unfold memberIn
  split
  · exact .orElse hmethod (consumes_fields true)
  · exact .orElse consumes_annotationElement (consumes_fields true)
  · exact .orElse consumes_initialiserBlock (.orElse consumes_constructor
      (.orElse consumes_compactConstructor (.orElse hmethod (consumes_fields false))))

theorem consumes_typeDeclaration : typeDeclaration.Consumes := by
  refine .bind (.withPieces (.bind consumes_modifiers fun ms => ?_)) fun _ => .pure _
  refine .orElse ?_ (.orElse ?_ (.orElse ?_ (.orElse ?_ ?_)))
  · exact .bind (reads_keyword _).consumes fun _ => .bind reads_word.consumes fun _ =>
      .bind consumes_optionalTypeParameters fun _ => .bind consumes_superclassClause fun _ =>
        .bind (consumes_interfaceClause _) fun _ => .bind consumes_optionalPermits fun _ =>
          .bind (reads_group _).consumes fun _ => .pure _
  · exact .bind (reads_keyword _).consumes fun _ => .bind reads_word.consumes fun _ =>
      .bind consumes_optionalTypeParameters fun _ => .bind (consumes_interfaceClause _) fun _ =>
        .bind consumes_optionalPermits fun _ => .bind (reads_group _).consumes fun _ => .pure _
  · exact .bind (reads_keyword _).consumes fun _ => .bind reads_word.consumes fun _ =>
      .bind (consumes_interfaceClause _) fun _ => .bind (reads_group _).consumes fun _ => .pure _
  · exact .bind (reads_symbol _).consumes fun _ => .bind reads_word.consumes fun _ =>
      .bind (reads_group _).consumes fun _ => .pure _
  · exact .bind (reads_keyword _).consumes fun _ => .bind reads_word.consumes fun _ =>
      .bind consumes_optionalTypeParameters fun _ => .bind consumes_formalParameters fun _ =>
        .bind (consumes_interfaceClause _) fun _ => .bind (reads_group _).consumes fun _ => .pure _

/-- A step that takes a comment, or else does what another parser does. -/
theorem consumes_step {onComment : Piece → α} {p : Parser α} (hp : p.Consumes) :
    (do
      match ← get with
      | [] => failure
      | q :: rest =>
          if q.isComment then
            set rest
            return onComment q
          else p : Parser α).Consumes := by
  intro pieces a rest hrun
  rw [StateT.run_bind, StateT.run_get] at hrun
  dsimp only [Option.pure_def, Option.bind_eq_bind, Option.bind_some] at hrun
  cases pieces with
  | nil => contradiction
  | cons q more =>
      dsimp only at hrun
      split at hrun
      · obtain ⟨rfl, rfl⟩ := Prod.mk.inj (Option.some.inj hrun)
        exact ⟨[q], rfl, trivial⟩
      · exact hp (q :: more) a rest hrun

theorem consumes_memberStep (nested : TypeForm → List Piece → Option (List Member))
    (form : TypeForm) : (memberStep nested form).Consumes := by
  refine consumes_step ?_
  refine .bind (reads_symbol _).consumes.accepts fun semicolon => ?_
  split
  · exact .pure _
  · refine .bind consumes_typeDeclaration.attempt fun found => ?_
    split
    · split
      · exact .pure _
      · exact .failure
    · exact .bind (consumes_memberIn form) fun _ => .pure _

theorem consumes_statement (fuel : Nat) : (statement fuel).Consumes := by
  induction fuel with
  | zero => exact .failure
  | succ n ih =>
      have hheaded (w : String) : (do keyword w; let _ ← parentheses : Parser Unit).Consumes :=
        .bind (reads_keyword w).consumes fun _ => .bind (reads_group _).consumes fun _ => .pure _
      have hblock : (do let _ ← braces : Parser Unit).Consumes :=
        .bind (reads_group _).consumes fun _ => .pure _
      have htry : tryStatement.Consumes := by
        refine .bind (reads_keyword _).consumes fun _ => .bind (reads_group _).consumes.attempt
          fun _ => .bind (reads_group _).consumes fun _ => .bind (.many ?_) fun _ =>
            .bind (reads_keyword _).consumes.accepts fun finished => ?_
        · exact .bind (reads_keyword _).consumes fun _ => .bind (reads_group _).consumes fun _ =>
            .bind (reads_group _).consumes fun _ => .pure _
        · split
          · exact .bind (reads_group _).consumes fun _ => .pure _
          · exact .pure _
      have hjump : jump.Consumes :=
        .bind (reads_wordThat _).consumes fun _ => .bind consumes_expression.attempt fun _ =>
          (reads_symbol _).consumes
      have hvariables : localVariables.Consumes :=
        .bind consumes_modifiers fun _ => .bind consumes_plainType fun _ =>
          .bind (consumes_commaSeparated consumes_declarator) fun _ => (reads_symbol _).consumes
      have hexpression : expressionStatement.Consumes :=
        .bind consumes_expression fun _ => (reads_symbol _).consumes
      unfold statement
      refine .orElse hblock (.orElse (reads_symbol _).consumes (.orElse ?_ (.orElse ?_
        (.orElse ?_ (.orElse ?_ (.orElse htry (.orElse hjump (.orElse ?_ ?_))))))))
      · refine .bind (hheaded _) fun _ => .bind ih fun _ =>
          .bind (reads_keyword _).consumes.accepts fun hasElse => ?_
        split
        · exact ih
        · exact .pure _
      · exact .bind (.orElse (hheaded _) (hheaded _)) fun _ => ih
      · exact .bind (reads_keyword _).consumes fun _ => .bind ih fun _ => .bind (hheaded _)
          fun _ => (reads_symbol _).consumes
      · exact .bind (.orElse (hheaded _) (hheaded _)) fun _ => hblock
      · exact .bind (reads_wordThat _).consumes fun _ => .bind (reads_symbol _).consumes fun _ => ih
      · refine .bind (.ahead _) fun leading => ?_
        dsimp only
        split
        · exact .bind .failure fun _ => .orElse hvariables hexpression
        · exact .orElse hvariables hexpression

theorem consumes_otherItem : otherItem.Consumes := by
  refine .bind (.orElse ?_ (.orElse ?_ ?_)) fun _ => .pure _
  · exact .bind reads_annotations.consumes fun _ => .bind (reads_keyword _).consumes.attempt
      fun _ => .bind (reads_keyword _).consumes fun _ => .bind consumes_qualifiedName fun _ =>
        .bind (reads_group _).consumes fun _ => .pure _
  · exact .bind consumes_method fun _ => .pure _
  · exact .bind .get fun _ => consumes_statement _

theorem consumes_packageDeclaration : packageDeclaration.Consumes :=
  .bind reads_annotations.consumes fun _ => .bind (reads_keyword _).consumes fun _ =>
    .bind consumes_qualifiedName fun _ => (reads_symbol _).consumes

theorem consumes_importDeclaration : importDeclaration.Consumes :=
  .bind (reads_keyword _).consumes fun _ => .bind (reads_keyword _).consumes.attempt fun _ =>
    .bind consumes_qualifiedName fun _ => .bind (.attempt (.bind (reads_symbol _).consumes fun _ =>
      (reads_symbol _).consumes)) fun _ => (reads_symbol _).consumes

theorem consumes_itemStep : itemStep.Consumes := by
  refine consumes_step ?_
  refine .bind (reads_symbol _).consumes.accepts fun semicolon => ?_
  split
  · exact .pure _
  · refine .bind consumes_typeDeclaration.attempt fun found => ?_
    split
    · split
      · exact .pure _
      · exact .failure
    · refine .bind (.orElse ?_ (.orElse ?_ consumes_otherItem)) fun _ => .pure _
      · exact .bind consumes_packageDeclaration.source fun _ => .pure _
      · exact .bind consumes_importDeclaration.source fun _ => .pure _

end ClassChart.Java.Parser
