import ClassChart.Proofs.Java.Contents

/-!
The marks of documentation comments.  A documentation comment opens with two stars, and what
it says stands between its opening and its closing mark.  In the shortest comment these two
share a star, and it is taken for documentation too.
-/
namespace ClassChart.Java

open Text (Bare isBlank trim lines)

namespace Javadoc

/-- What is written between the marks of a comment, without the stars before its lines. -/
def unmarked (between : String) : String :=
  trim ("\n".intercalate ((lines between).map lineText))

/-- A comment begins and ends with a slash, so nothing is trimmed. -/
theorem trim_marks (lead middle : String) (hlead : lead.toList.head? = some '/') :
    trim (lead ++ middle ++ "*/") = lead ++ middle ++ "*/" := by
  have hslash : isBlank '/' = false := by decide
  have hfirst : (lead ++ middle ++ "*/").toList.head? = some '/' := by
    simp [List.head?_append, hlead]
  have hlast : (lead ++ middle ++ "*/").toList.getLast? = some '/' := by
    rw [String.toList_append, List.getLast?_append]
    rfl
  refine Bare.trim_eq_self ⟨fun c hc => ?_, fun c hc => ?_⟩ (by simp)
  · rw [hfirst] at hc
    exact Option.some.inj hc ▸ hslash
  · rw [hlast] at hc
    exact Option.some.inj hc ▸ hslash

theorem content_of_marks (between : String) :
    content ("/**" ++ between ++ "*/") = some (unmarked between) := by
  have htrim : trim ("/**" ++ between ++ "*/") = "/**" ++ (between ++ "*/") := by
    rw [trim_marks _ _ rfl, String.append_assoc]
  have hopens : Text.beginsWith "/**" ("/**" ++ (between ++ "*/")) = true :=
    Text.beginsWith_iff.mpr ⟨_, rfl⟩
  have hcloses : Text.finishesWith "*/" (between ++ "*/") = true :=
    Text.finishesWith_iff.mpr ⟨_, rfl⟩
  have hfirst : Text.dropFirst 3 ("/**" ++ (between ++ "*/")) = between ++ "*/" :=
    Text.dropFirst_append "/**" _
  have hlast : Text.dropLast 2 (between ++ "*/") = between := Text.dropLast_append between "*/"
  unfold content
  rw [htrim]
  dsimp only
  rw [if_pos hopens, hfirst, if_pos hcloses, hlast, unmarked]

/-- Without a second star after the opening mark, a comment is no documentation. -/
theorem content_eq_none (b : BlockComment) (hstar : b.inner.toList.head? ≠ some '*')
    (hempty : b.inner ≠ "") : content b.text = none := by
  have hopens : Text.beginsWith "/**" b.text = false := by
    obtain ⟨c, rest, hrest⟩ := Text.exists_toList_eq_cons hempty
    rw [hrest] at hstar
    have hc : '*' ≠ c := Ne.symm (by simpa using hstar)
    simp [Text.beginsWith, BlockComment.text, hrest, List.isPrefixOf_cons_cons, hc]
  have htrim : trim b.text = b.text := trim_marks "/*" b.inner rfl
  unfold content
  rw [htrim]
  dsimp only
  rw [if_neg (by simp [hopens])]

/-- A comment with the opening mark of documentation and a closing mark apart from it. -/
def IsMarked (comment : String) : Prop :=
  ∃ between, comment = "/**" ++ between ++ "*/"

theorem IsMarked.isSome_content {comment : String} (hmarked : IsMarked comment) :
    (content comment).isSome = true := by
  obtain ⟨between, rfl⟩ := hmarked
  rw [content_of_marks]
  rfl

/-- The marks of the shortest comment share a star. -/
theorem not_isMarked_shortest : ¬ IsMarked "/**/" := by
  rintro ⟨between, hbetween⟩
  have hlength := congrArg String.length hbetween
  have hwhole : "/**/".length = 4 := rfl
  have hopening : "/**".length = 3 := rfl
  have hclosing : "*/".length = 2 := rfl
  rw [String.length_append, String.length_append, hopening, hclosing, hwhole] at hlength
  omega

theorem content_shortest : content "/**/" = some "/" := by
  decide +kernel

/-- A block comment is the shortest one, or has the marks of documentation, or is none. -/
theorem shortest_or_isMarked_or_none (b : BlockComment) :
    b.text = "/**/" ∨ IsMarked b.text ∨ content b.text = none := by
  by_cases hempty : b.inner = ""
  · refine .inl ?_
    rw [BlockComment.text, hempty]
    rfl
  · by_cases hstar : b.inner.toList.head? = some '*'
    · obtain ⟨rest, hrest⟩ := List.head?_eq_some_iff.mp hstar
      refine .inr (.inl ⟨String.ofList rest, String.toList_inj.mp ?_⟩)
      simp [BlockComment.text, hrest]
    · exact .inr (.inr (content_eq_none b hstar hempty))

theorem isSome_content_iff (b : BlockComment) (hshort : b.text ≠ "/**/") :
    (content b.text).isSome = true ↔ IsMarked b.text := by
  constructor
  · intro hsome
    rcases shortest_or_isMarked_or_none b with htext | hmarked | hnone
    · exact absurd htext hshort
    · exact hmarked
    · rw [hnone] at hsome
      exact absurd hsome Bool.false_ne_true
  · exact IsMarked.isSome_content

end Javadoc

/-- Every block comment of a file is one that the scanner takes. -/
theorem upholds_blockComment : Parser.Upholds fun m => ∀ c, m = .comment c → c.isBlock = true →
    ∃ b : BlockComment, b.text = c.text where
  own form := by
    intro pieces _ m rest hrun c hc
    have hcomment : (Parser.memberIn form).Yields fun m => ∀ c, m ≠ .comment c :=
      Parser.yields_memberIn (fun _ _ => nofun) (fun _ _ => nofun) (fun _ _ => nofun)
        (fun _ => nofun) form
    exact absurd hc (hcomment pieces m rest hrun c)
  comment t ht _ c hc hblock := by
    cases hc
    exact ht.block (of_decide_eq_true hblock)
  type _ _ _ hc := nomatch hc

/-- Of the block comments of a file, those with the opening mark of documentation and a closing
mark apart from it are taken for documentation, which is read from what stands between the marks.
No others are, but for the shortest comment, whose only star belongs to both marks. -/
theorem documented_iff_isMarked_iff_ne_shortest {file : String} {unit : CompilationUnit}
    (hunit : CompilationUnit.ofSource? file = some unit) {c : Comment}
    (hc : unit.Has (.comment c)) (hblock : c.isBlock = true) :
    documentation (some c) = Javadoc.parts (Javadoc.content c.text) ∧
      (((Javadoc.content c.text).isSome = true ↔ Javadoc.IsMarked c.text) ↔ c.text ≠ "/**/") ∧
      (∀ between, c.text = "/**" ++ between ++ "*/" →
        Javadoc.content c.text = some (Javadoc.unmarked between)) ∧
      (c.text = "/**/" → Javadoc.content c.text = some "/") := by
  obtain ⟨b, hb⟩ := upholds_blockComment.of_has hunit hc c rfl hblock
  refine ⟨congrArg Javadoc.parts (if_pos hblock), ⟨?_, ?_⟩, ?_, ?_⟩
  · intro hagree htext
    rw [htext, Javadoc.content_shortest] at hagree
    exact Javadoc.not_isMarked_shortest (hagree.mp rfl)
  · rw [← hb]
    exact Javadoc.isSome_content_iff b
  · intro between hbetween
    rw [hbetween, Javadoc.content_of_marks]
  · intro htext
    rw [htext, Javadoc.content_shortest]

/-- The comment at the top of a file is one of its own. -/
theorem CompilationUnit.has_of_head? {unit : CompilationUnit} {c : Comment}
    (hhead : unit.items.head?.bind Item.comment? = some c) : unit.Has (.comment c) := by
  obtain ⟨item, hitem, hcomment⟩ := Option.bind_eq_some_iff.mp hhead
  refine ⟨item, List.mem_of_mem_head? hitem, ?_⟩
  cases item with
  | comment d => exact congrArg Member.comment (Option.some.inj hcomment).symm
  | _ => contradiction

theorem documented_of_isMarked_stars : ∃ unit,
    CompilationUnit.ofSource? "/***/ class A \x7b\x7d" = some unit ∧
      unit.Has (.comment ⟨"/***/", true⟩) ∧ Javadoc.IsMarked "/***/" ∧
      (Javadoc.content "/***/").isSome = true := by
  have hread : (CompilationUnit.ofSource? "/***/ class A \x7b\x7d").map
      (·.items.head?.bind Item.comment?) = some (some ⟨"/***/", true⟩) := by
    decide +kernel
  obtain ⟨unit, hunit, hhead⟩ := Option.map_eq_some_iff.mp hread
  have hc : unit.Has (.comment ⟨"/***/", true⟩) := CompilationUnit.has_of_head? hhead
  have hmarked : Javadoc.IsMarked "/***/" := ⟨"", rfl⟩
  have hagree := (documented_iff_isMarked_iff_ne_shortest hunit hc rfl).2.1.mpr (by decide)
  exact ⟨unit, hunit, hc, hmarked, hagree.mpr hmarked⟩

/-- The comment without content documents the class with a slash. -/
theorem shortest_comment_documents :
    (CompilationUnit.ofSource? "/**/ class A \x7b\x7d").map (fun unit =>
      (unit.units "").map fun u => (u.name, u.description)) = some [("A", some "/")] := by
  decide +kernel

end ClassChart.Java
