import ClassChart.Proofs.Java.Consumed
import ClassChart.Proofs.Java.EnumBody
import ClassChart.Proofs.Java.Listing
import ClassChart.Proofs.Java.Names

/-!
What stands in a source file.  Whatever holds of each member when it is read holds of all that
stands in the file, at any depth.
-/
namespace ClassChart.Java

/-- A member is another one, or stands in the body of that type. -/
inductive Member.StandsIn (m : Member) : Member → Prop where
  | self : StandsIn m m
  | inside {header : TypeHeader} {members : List Member} {n : Member} (hn : n ∈ members)
      (hm : StandsIn m n) : StandsIn m (.type header members)

/-- A member stands at the top of a file, if it is a comment there, or in a type of it. -/
def Item.Has (m : Member) : Item → Prop
  | .type header members => m.StandsIn (.type header members)
  | .comment c => m = .comment c
  | _ => False

/-- A member stands in a file. -/
def CompilationUnit.Has (unit : CompilationUnit) (m : Member) : Prop :=
  ∃ item ∈ unit.items, item.Has m

namespace Member

variable {P : Member → Prop}

/-- A property of a member and of all that stands in it. -/
def Throughout (P : Member → Prop) (n : Member) : Prop :=
  ∀ m, m.StandsIn n → P m

/-- A property of a type and throughout its members holds throughout the type. -/
theorem throughout_type {header : TypeHeader} {members : List Member}
    (hself : P (.type header members)) (hmembers : ∀ n ∈ members, n.Throughout P) :
    (Member.type header members).Throughout P := by
  intro m hm
  cases hm with
  | self => exact hself
  | inside hn hm => exact hmembers _ hn m hm

/-- In a member that is no type nothing else stands. -/
theorem throughout_of_not_type {n : Member} (hn : ∀ header members, n ≠ .type header members)
    (hself : P n) : n.Throughout P := by
  intro m hm
  cases hm with
  | self => exact hself
  | inside => exact absurd rfl (hn _ _)

end Member

namespace Parser

/-- All tokens in some pieces come from the scanner. -/
def AllScanned (pieces : List Piece) : Prop :=
  ∀ t ∈ Piece.tokensOf pieces, t.Scanned

theorem finds_group (opening : String) : (group opening).Finds AllScanned := by
  intro pieces hpieces inner rest hrun t ht
  obtain ⟨taken, rfl, u, closing, hcode, -⟩ := reads_group opening pieces inner rest hrun
  have hmem : Piece.group u inner closing ∈ code taken := by simp [hcode]
  have hgroup : Piece.group u inner closing ∈ taken ++ rest :=
    List.mem_append_left _ (List.mem_of_mem_filter hmem)
  obtain ⟨before, after, hsplit⟩ := List.append_of_mem hgroup
  apply hpieces t
  rw [hsplit, Piece.tokensOf_append, Piece.tokensOf, Piece.tokens]
  simp [ht]

/-- What a parser finds it also finds when it has to take all pieces. -/
theorem finds_complete {α : Type} {p : Parser α} {Q : α → Prop} (hp : p.Finds Q)
    {pieces : List Piece} (hpieces : AllScanned pieces) {a : α}
    (hrun : complete p pieces = some a) : Q a := by
  rw [complete] at hrun
  split at hrun
  · rename_i b rest hb
    split at hrun
    · exact Option.some.inj hrun ▸ hp pieces hpieces b rest hb
    · contradiction
  · contradiction

/-- A type declaration before its body is read. -/
def BodyScanned (found : TypeHeader × List Piece) : Prop :=
  AllScanned found.2

theorem finds_bodyScanned : typeDeclaration.Finds BodyScanned := by
  have hbody {header : TypeHeader} :
      (do return (header, ← braces) : Parser (TypeHeader × List Piece)).Finds BodyScanned :=
    .bind (finds_group _) (reads_group _).consumes fun body hbody => .pure hbody
  have hheads (ms : List Modifier) : (classHead ms <|> interfaceHead ms <|> enumHead ms <|>
      annotationHead ms <|> recordHead ms).Finds BodyScanned := by
    refine .orElse ?_ (.orElse ?_ (.orElse ?_ (.orElse ?_ ?_)))
    · exact .skip (reads_keyword _).consumes fun _ => .skip reads_word.consumes fun _ =>
        .skip consumes_optionalTypeParameters fun _ => .skip consumes_superclassClause fun _ =>
          .skip (consumes_interfaceClause _) fun _ => .skip consumes_optionalPermits fun _ => hbody
    · exact .skip (reads_keyword _).consumes fun _ => .skip reads_word.consumes fun _ =>
        .skip consumes_optionalTypeParameters fun _ => .skip (consumes_interfaceClause _) fun _ =>
          .skip consumes_optionalPermits fun _ => hbody
    · exact .skip (reads_keyword _).consumes fun _ => .skip reads_word.consumes fun _ =>
        .skip (consumes_interfaceClause _) fun _ => hbody
    · exact .skip (reads_symbol _).consumes fun _ => .skip reads_word.consumes fun _ => hbody
    · exact .skip (reads_keyword _).consumes fun _ => .skip reads_word.consumes fun _ =>
        .skip consumes_optionalTypeParameters fun _ => .skip consumes_formalParameters fun _ =>
          .skip (consumes_interfaceClause _) fun _ => hbody
  exact .bind_pure (.withPieces (.skip consumes_modifiers hheads))

/-- The part of a body in which members stand is scanned if the body is. -/
theorem allScanned_memberPieces {form : TypeForm} {body pieces : List Piece}
    (hbody : AllScanned body) (hpieces : memberPieces form body = some pieces) :
    AllScanned pieces := by
  cases form with
  | enumForm =>
      obtain rfl := memberPieces_enumForm hpieces
      intro t ht
      exact hbody t (Piece.tokensOf_subset (declarationsOf_suffix body) ht)
  | _ => exact Option.some.inj hpieces ▸ hbody

/-- A step over a comment finds what holds of comments, and any other step what its parser finds. -/
theorem finds_step {α : Type} {onComment : Piece → α} {p : Parser α} {Q : α → Prop}
    (hcomment : ∀ t : Token, t.Scanned → t.isComment = true → Q (onComment (.token t)))
    (hp : p.Finds Q) :
    (do
      match ← get with
      | [] => failure
      | q :: rest =>
          if q.isComment then
            set rest
            return onComment q
          else p : Parser α).Finds Q := by
  intro pieces hpieces a rest hrun
  rw [StateT.run_bind, StateT.run_get] at hrun
  dsimp only [Option.pure_def, Option.bind_eq_bind, Option.bind_some] at hrun
  cases pieces with
  | nil => contradiction
  | cons q more =>
      dsimp only at hrun
      split at hrun
      · rename_i hq
        obtain ⟨rfl, rfl⟩ := Prod.mk.inj (Option.some.inj hrun)
        cases q with
        | group => contradiction
        | token t => exact hcomment t (hpieces t (by simp [Piece.tokensOf, Piece.tokens])) hq
      · exact hp (q :: more) hpieces a rest hrun

/-- What holds of whatever is read as a member. -/
structure Upholds (P : Member → Prop) : Prop where
  own : ∀ form, (memberIn form).Finds P
  comment : ∀ t : Token, t.Scanned → t.isComment = true → P (.comment (commentOf (.token t)))
  type : ∀ header members, P (.type header members)

theorem yields_ne_type (form : TypeForm) :
    (memberIn form).Yields fun m => ∀ header members, m ≠ .type header members :=
  yields_memberIn (fun _ _ _ => nofun) (fun _ _ _ => nofun) (fun _ _ _ => nofun) (fun _ _ => nofun)
    form

namespace Upholds

variable {P : Member → Prop} (h : Upholds P)

include h

/-- One step preserves a property, given that the bodies of types have it throughout. -/
theorem finds_memberStep {nested : TypeForm → List Piece → Option (List Member)}
    (hnested : ∀ form body ms, AllScanned body → nested form body = some ms →
      ∀ n ∈ ms, n.Throughout P) (form : TypeForm) :
    (memberStep nested form).Finds fun ms => ∀ n ∈ ms, n.Throughout P := by
  refine finds_step (fun t ht hcomment => ?_) ?_
  · exact List.forall_mem_singleton.mpr
      (Member.throughout_of_not_type (by simp) (h.comment t ht hcomment))
  refine .skip (reads_symbol _).consumes.accepts fun semicolon => ?_
  split
  · exact .pure fun n hn => absurd hn List.not_mem_nil
  refine .bind finds_bodyScanned.attempt consumes_typeDeclaration.attempt fun found hfound => ?_
  split
  · rename_i header body
    split
    · rename_i members hmembers
      refine .pure (List.forall_mem_singleton.mpr ?_)
      exact Member.throughout_type (h.type header members)
        (hnested _ body members (hfound _ rfl) hmembers)
    · intro pieces hpieces a rest hrun
      contradiction
  · refine .bind_pure ?_
    intro pieces hpieces m rest hrun
    exact List.forall_mem_singleton.mpr (Member.throughout_of_not_type
      (yields_ne_type form pieces m rest hrun) (h.own form pieces hpieces m rest hrun))

/-- By induction on the nesting, a property of single members holds throughout all that are read. -/
theorem throughout_members (fuel : Nat) (form : TypeForm) (body : List Piece) (ms : List Member)
    (hbody : AllScanned body) (hms : members fuel form body = some ms) :
    ∀ n ∈ ms, n.Throughout P := by
  induction fuel generalizing form body ms with
  | zero => contradiction
  | succ n ih =>
      simp only [members, Option.bind_eq_bind, Option.bind_eq_some_iff, Option.pure_def,
        Option.some.injEq] at hms
      obtain ⟨pieces, hpieces, steps, hsteps, rfl⟩ := hms
      have hall := finds_complete ((h.finds_memberStep ih form).many (consumes_memberStep _ form))
        (allScanned_memberPieces hbody hpieces) hsteps
      intro m hm
      obtain ⟨step, hstep, hmem⟩ := List.mem_flatten.mp hm
      exact hall step hstep m hmem

theorem finds_itemStep : itemStep.Finds fun items => ∀ item ∈ items, ∀ m, item.Has m → P m := by
  refine finds_step (fun t ht hcomment => ?_) ?_
  · refine List.forall_mem_singleton.mpr ?_
    rintro m rfl
    exact h.comment t ht hcomment
  refine .skip (reads_symbol _).consumes.accepts fun semicolon => ?_
  split
  · exact .pure fun item hitem => absurd hitem List.not_mem_nil
  refine .bind finds_bodyScanned.attempt consumes_typeDeclaration.attempt fun found hfound => ?_
  split
  · rename_i header body
    split
    · rename_i members hmembers
      refine .pure (List.forall_mem_singleton.mpr ?_)
      exact Member.throughout_type (h.type header members)
        (h.throughout_members _ _ body members (hfound _ rfl) hmembers)
    · intro pieces hpieces a rest hrun
      contradiction
  · refine .bind_pure (.orElse (.bind_pure ?_) (.orElse (.bind_pure ?_) (.bind_pure ?_)))
    all_goals
      intro pieces hpieces found rest hrun
      refine List.forall_mem_singleton.mpr fun m hm => ?_
      exact False.elim hm

/-- Whatever holds of each member when it is read holds of all that stands in a file. -/
theorem of_has {file : String} {unit : CompilationUnit}
    (hunit : CompilationUnit.ofSource? file = some unit) {m : Member} (hm : unit.Has m) : P m := by
  simp only [CompilationUnit.ofSource?, Option.bind_eq_bind, Option.bind_eq_some_iff,
    Option.pure_def, Option.some.injEq] at hunit
  obtain ⟨ts, hts, pieces, hpieces, steps, hsteps, rfl⟩ := hunit
  have hscanned : AllScanned pieces := by
    rw [AllScanned, Piece.tokensOf_ofTokens hpieces]
    exact (Lexer.tokens_spec hts).1
  have hall := finds_complete (h.finds_itemStep.many consumes_itemStep) hscanned hsteps
  obtain ⟨item, hitem, hm⟩ := hm
  obtain ⟨step, hstep, hmem⟩ := List.mem_flatten.mp hitem
  exact hall step hstep item hmem m hm

end Upholds

end Parser

/-- The member that is a declared method or constructor. -/
def Declaration.member? : Declaration → Option Member
  | .method m => some (.method m)
  | .constructor c => some (.constructor c)
  | _ => none

theorem Member.eq_of_own? {n m : Member} {part : Nat} {d : Declaration}
    (hown : n.own? part = some d) (hm : d.member? = some m) : n = m := by
  unfold own? at hown
  split at hown
  · cases hown
    exact Option.some.inj hm
  · cases hown
    exact Option.some.inj hm
  · obtain ⟨_, -, rfl⟩ := Option.map_eq_some_iff.mp hown
    contradiction
  · contradiction

/-- What stands at a site below a member stands in it. -/
theorem Member.standsIn_of_at? {n m : Member} {site : Site} {outer : List String}
    {d : Declaration} (hfound : n.at? site = some (outer, d)) (hm : d.member? = some m) :
    m.StandsIn n := by
  induction site generalizing n outer with
  | nil =>
      obtain ⟨header, members, rfl⟩ := exists_type_of_at?_eq_some hfound
      cases hfound
      contradiction
  | cons first more ih =>
      obtain ⟨header, members, rfl⟩ := exists_type_of_at?_eq_some hfound
      rcases at?_type_eq_some_iff.mp hfound with
        ⟨hsite, -⟩ | ⟨step, -, -, hdirect⟩ | ⟨i, rest, hsite, within, -, hinner⟩
      · contradiction
      · cases step with
        | component i =>
            obtain ⟨_, -, rfl⟩ := Option.map_eq_some_iff.mp hdirect
            contradiction
        | member i part =>
            obtain ⟨n, hn, hown⟩ := Option.bind_eq_some_iff.mp hdirect
            exact .inside (List.mem_of_getElem? hn) (eq_of_own? hown hm ▸ .self)
        | nested i => contradiction
      · cases hsite
        obtain ⟨n, hn, hinner⟩ := Option.bind_eq_some_iff.mp hinner
        exact .inside (List.mem_of_getElem? hn) (ih hinner)

/-- The listed methods and constructors stand in the file. -/
theorem CompilationUnit.has_of_mem_listing {unit : CompilationUnit} {e : Entry}
    (he : e ∈ unit.listing) {m : Member} (hm : e.declaration.member? = some m) : unit.Has m := by
  have hfound := (unit.mem_listing_iff e).mp he
  unfold at? at hfound
  split at hfound
  · rename_i i rest hsite
    obtain ⟨item, hitem, hfound⟩ := Option.bind_eq_some_iff.mp hfound
    have hin := Member.standsIn_of_at? hfound hm
    refine ⟨item, List.mem_of_getElem? hitem, ?_⟩
    obtain ⟨header, members, htype⟩ := Member.exists_type_of_at?_eq_some hfound
    cases item with
    | type => exact hin
    | _ => contradiction
  · contradiction

end ClassChart.Java
