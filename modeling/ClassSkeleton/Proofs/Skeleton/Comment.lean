import ClassSkeleton.Proofs.Page.Prose
import ClassSkeleton.Proofs.Skeleton.Lines

/-!
Documentation is written as a block comment, and its prose is copied into it as it stands. So the
comment ends where it is closed exactly if the prose, in plain text, does not hold the mark that
ends a comment: neither the reflow of the prose nor the layout of the comment brings the two
characters of the mark together.
-/
namespace ClassSkeleton.Skeleton

open Text Markup ClassPage

def commentEnd : Text := "*/".toList

/-- The block comment at the front of a text: what it holds, and what follows it. -/
def comment? (text : Text) : Option (Text × Text) :=
  (dropMark? "/*".toList text).bind (breakAt? commentEnd)

def commentBody (documentation : Text) : Text :=
  "*\n".toList ++ unlines ((lines documentation).map commentLine) ++ [' ']

theorem unlines_commentLines {documentation : Text} (h : documentation ≠ []) :
    unlines (commentLines documentation) =
      "/*".toList ++ (commentBody documentation ++ (commentEnd ++ ['\n'])) := by
  rw [commentLines, if_neg (by simpa using h), commentBody, commentEnd]
  simp

theorem commentEnd_infix_commentLine (line : Text) :
    commentEnd <:+: commentLine line ↔ commentEnd <:+: line := by
  rw [commentLine]
  split
  · rename_i hline
    rw [List.isEmpty_iff] at hline
    subst hline
    decide
  · have hline : " * ".toList ++ line = " *".toList ++ ' ' :: line := rfl
    have hlead : ¬ commentEnd <:+: " *".toList := by decide
    rw [hline, infix_append_cons_iff (by decide) (by decide)]
    exact or_iff_right hlead

theorem commentEnd_infix_commentBody (documentation : Text) :
    commentEnd <:+: commentBody documentation ↔ commentEnd <:+: documentation := by
  have hlead : ¬ commentEnd <:+: ['*'] := by decide
  have hend : ¬ commentEnd <:+: [] := by decide
  have hbody : commentBody documentation =
      ['*'] ++ '\n' :: (unlines ((lines documentation).map commentLine) ++ ' ' :: []) := by
    simp [commentBody]
  rw [hbody, infix_append_cons_iff (by decide) (by decide), or_iff_right hlead,
    infix_append_cons_iff (by decide) (by decide), or_iff_left hend,
    infix_unlines_iff (by decide) (by decide),
    ← infix_lines_iff (by decide) (by decide) (by decide)]
  constructor
  · rintro ⟨written, hwritten, hocc⟩
    obtain ⟨line, hline, rfl⟩ := List.mem_map.mp hwritten
    exact ⟨line, hline, (commentEnd_infix_commentLine line).mp hocc⟩
  · rintro ⟨line, hline, hocc⟩
    exact ⟨commentLine line, List.mem_map_of_mem hline,
      (commentEnd_infix_commentLine line).mpr hocc⟩

theorem breakAt?_commentEnd_iff (gap rest : Text) :
    breakAt? commentEnd (gap ++ commentEnd ++ rest) = some (gap, rest) ↔ ¬ commentEnd <:+: gap := by
  constructor
  · intro h hocc
    obtain ⟨front, back, rfl⟩ := hocc
    have hpass := passes_of_breakAt? h
    apply hpass front (commentEnd ++ back) (by simp) (by simp [commentEnd])
    rw [List.append_assoc]
    exact List.prefix_append commentEnd _
  · intro h
    exact breakAt?_of_apart rest (by decide) h (by decide)

/-- The comment of a documentation ends in its own last line exactly if the documentation does
not hold the mark. -/
theorem comment?_iff {documentation : Text} (h : documentation ≠ []) (rest : Text) :
    comment? (unlines (commentLines documentation) ++ rest) =
        some (commentBody documentation, '\n' :: rest) ↔
      ¬ commentEnd <:+: documentation := by
  rw [unlines_commentLines h, ← commentEnd_infix_commentBody,
    ← breakAt?_commentEnd_iff (commentBody documentation) ('\n' :: rest), comment?]
  simp only [List.append_assoc, dropMark?_append, Option.bind_some, List.singleton_append]

def linesBefore (outline : Outline) (before : List Member) : List Text :=
  openingLines outline ++ membersLines outline.entity.ident before ++ [[]]

/-- The source from the line of a member on, which follows the comment of the member. -/
def stubOnward (ident : Text) (member : Member) (after : List Member) : Text :=
  unlines (stubLine ident member :: membersLines ident after)

theorem source_eq_of_members {outline : Outline} {before after : List Member} {member : Member}
    (h : outline.members = before ++ member :: after) :
    (ofOutline outline).source = unlines (linesBefore outline before) ++
      (unlines (commentLines member.documentation) ++
        stubOnward outline.entity.ident member after) := by
  rw [source_eq, h]
  simp [membersLines, linesBefore, stubOnward, memberLines]

/-- Every documentation of a class page is written as a comment directly in front of the line of
its member, and the comment ends where it is closed exactly if the documentation does not hold
the closing mark. It holds the mark exactly if the prose of the page does that it was made from. -/
theorem comment?_of_result {page : Text} {entity : Entity} {outline : Outline}
    (h : result page entity = .ok (.outline outline)) {before after : List Member} {member : Member}
    (hmembers : outline.members = before ++ member :: after) (hdoc : member.documentation ≠ []) :
    (ofOutline outline).source = unlines (linesBefore outline before) ++
        (unlines (commentLines member.documentation) ++
          stubOnward outline.entity.ident member after) ∧
      (comment? (unlines (commentLines member.documentation) ++
            stubOnward outline.entity.ident member after) =
          some (commentBody member.documentation,
            '\n' :: stubOnward outline.entity.ident member after) ↔
        ¬ commentEnd <:+: member.documentation) ∧
      ∃ prose, prose <:+: page ∧ member.documentation = reflow prose ∧
        (commentEnd <:+: member.documentation ↔
          commentEnd <:+: decodeEntities (stripTags prose)) := by
  have hmem : member ∈ outline.members := by
    rw [hmembers]
    simp
  refine ⟨source_eq_of_members hmembers, comment?_iff hdoc _, ?_⟩
  rcases isProseOf_result h hmem with hnone | ⟨prose, hprose, hreflow⟩
  · exact absurd hnone hdoc
  · refine ⟨prose, hprose, hreflow, ?_⟩
    rw [hreflow, reflow_eq, infix_settle_iff (by decide) (forall_mem_of_all (by decide))]

def methodPage (prose : Text) : Text :=
  titleMark ++ "Class X\">X</h2><pre>class X</pre>".toList ++ methodDetail ++ memberHeading ++
    "g</h4><pre>void g()</pre>".toList ++ proseMark ++ prose

def methodOf (documentation : Text) : Member := ⟨"void g()".toList, .pub, false, documentation⟩

def methodEntity : Entity := ⟨"p.X".toList, [], by decide +kernel⟩

def methodOutline (documentation : Text) : Outline where
  entity := methodEntity
  kind := .cls
  modifiers := []
  generics := []
  superType := none
  implemented := []
  constructors := []
  methods := [methodOf documentation]
  fields := []

def plainProse : Text := "Halves <b>*</b> doubles /.".toList

def plainDocumentation : Text := "Halves * doubles /.".toList

theorem result_methodPage_plain : result (methodPage plainProse) methodEntity =
    .ok (.outline (methodOutline plainDocumentation)) := by decide +kernel

theorem comment?_of_result_plain :
    comment? (unlines (commentLines plainDocumentation) ++
        stubOnward methodEntity.ident (methodOf plainDocumentation) []) =
      some (commentBody plainDocumentation,
        '\n' :: stubOnward methodEntity.ident (methodOf plainDocumentation) []) := by
  have hmembers : (methodOutline plainDocumentation).members =
      [] ++ methodOf plainDocumentation :: [] := rfl
  have hdoc : (methodOf plainDocumentation).documentation ≠ [] := by
    change plainDocumentation ≠ []
    decide
  have hfree : ¬ commentEnd <:+: plainDocumentation := by decide +kernel
  exact (comment?_of_result result_methodPage_plain hmembers hdoc).2.1.mpr hfree

def closingProse : Text := "Halves *<b>/</b> doubles.".toList

def closingDocumentation : Text := "Halves */ doubles.".toList

/-- Prose is not escaped: a closing mark in it, here brought together by taking out a tag, ends
the comment. -/
theorem not_comment?_of_closing_prose :
    ¬ ∀ page entity outline, result page entity = .ok (.outline outline) →
      ∀ before member after, outline.members = before ++ member :: after →
        member.documentation ≠ [] →
        comment? (unlines (commentLines member.documentation) ++
            stubOnward outline.entity.ident member after) =
          some (commentBody member.documentation,
            '\n' :: stubOnward outline.entity.ident member after) := by
  intro h
  have hresult : result (methodPage closingProse) methodEntity =
      .ok (.outline (methodOutline closingDocumentation)) := by decide +kernel
  have hmembers : (methodOutline closingDocumentation).members =
      [] ++ methodOf closingDocumentation :: [] := rfl
  have hdoc : closingDocumentation ≠ [] := by decide
  have hcomment : comment? (unlines (commentLines closingDocumentation) ++
        stubOnward methodEntity.ident (methodOf closingDocumentation) []) =
      some (commentBody closingDocumentation,
        '\n' :: stubOnward methodEntity.ident (methodOf closingDocumentation) []) :=
    h (methodPage closingProse) methodEntity (methodOutline closingDocumentation) hresult []
      (methodOf closingDocumentation) [] hmembers hdoc
  rw [comment?_iff hdoc] at hcomment
  have hocc : commentEnd <:+: closingDocumentation :=
    ⟨"Halves ".toList, " doubles.".toList, rfl⟩
  exact hcomment hocc

end ClassSkeleton.Skeleton
