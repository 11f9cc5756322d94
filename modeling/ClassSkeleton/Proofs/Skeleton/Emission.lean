import ClassSkeleton.Proofs.Skeleton.Lines

/-!
What is written of an outline can be read back from it. Annotations open with a mark that the line
behind them does not have, a comment has a last line that none of its other lines repeats, and a
member ends with its own sign for having a body. So two outlines of one entity that are written
alike agree in everything that is written, as long as each part of them stays on its line.
-/
namespace ClassSkeleton.Skeleton

open Text Markup Declaration

/-- The parts of an outline stand on lines of their own, types go by their own identifiers, and
documentation is in the form that reflowing gives it. -/
structure IsLinewise (outline : Outline) : Prop where
  modifiers : ∀ modifier ∈ outline.modifiers, '\n' ∉ modifier
  generics : ∀ generic ∈ outline.generics, '\n' ∉ generic
  types : ∀ type ∈ outline.superType.toList ++ outline.implemented,
    '\n' ∉ type.dotted ∧ type.ident = identifier type.dotted
  signatures : ∀ member ∈ outline.members, '\n' ∉ member.signature
  documentation : ∀ member ∈ outline.members, IsReflowed member.documentation

structure Written where
  documentation : Text
  signature : Text
  hasBody : Bool
  deriving DecidableEq

def writtenOf (ident : Text) (member : Member) : Written :=
  ⟨member.documentation, resolveSelf ident member.signature, member.hasBody⟩

/-- A line that is told from others by its first character. -/
def IsNote (line : Text) : Prop := line.head? = some '/' ∧ '\n' ∉ line

theorem eq_of_unlines_notes {notes notes' : List Text} {rest rest' : Text}
    (hnotes : ∀ note ∈ notes, IsNote note) (hnotes' : ∀ note ∈ notes', IsNote note)
    (hrest : rest.head? ≠ some '/') (hrest' : rest'.head? ≠ some '/')
    (h : unlines notes ++ rest = unlines notes' ++ rest') : notes = notes' ∧ rest = rest' := by
  -- a note in front of one text only would begin the other
  have hopens : ∀ {note : Text} {others : List Text} {back : Text}, IsNote note →
      (unlines (note :: others) ++ back).head? = some '/' := by
    intro note others back hnote
    obtain ⟨tail, rfl⟩ := List.head?_eq_some_iff.mp hnote.1
    simp
  induction notes generalizing notes' with
  | nil =>
    cases notes' with
    | nil => exact ⟨rfl, h⟩
    | cons note' notes' =>
      rw [unlines_nil, List.nil_append] at h
      rw [h] at hrest
      exact absurd (hopens (hnotes' note' List.mem_cons_self)) hrest
  | cons note notes ih =>
    have hnote := hnotes note List.mem_cons_self
    cases notes' with
    | nil =>
      rw [unlines_nil, List.nil_append] at h
      rw [← h] at hrest'
      exact absurd (hopens hnote) hrest'
    | cons note' notes' =>
      have hnote' := hnotes' note' List.mem_cons_self
      rw [unlines_cons, unlines_cons, List.append_assoc, List.append_assoc, List.cons_append,
        List.cons_append] at h
      obtain ⟨rfl, hlater⟩ := split_unique hnote.2 hnote'.2 h
      obtain ⟨rfl, hback⟩ := ih (fun other hother => hnotes other (List.mem_cons_of_mem _ hother))
        (fun other hother => hnotes' other (List.mem_cons_of_mem _ hother)) hlater
      exact ⟨rfl, hback⟩

theorem eq_of_closeGroup {notes notes' : List Text} {rest rest' : Text}
    (hnotes : ∀ note ∈ notes, IsNote note) (hnotes' : ∀ note ∈ notes', IsNote note)
    (hrest : rest.head? ≠ some '/') (hrest' : rest'.head? ≠ some '/')
    (h : unlines (closeGroup notes) ++ rest = unlines (closeGroup notes') ++ rest') :
    notes = notes' ∧ rest = rest' := by
  have hgroup : ∀ (lines : List Text) (back : Text), back.head? ≠ some '/' →
      ∃ gap, unlines (closeGroup lines) ++ back = unlines lines ++ gap ∧ gap.head? ≠ some '/' := by
    intro lines back hback
    rw [closeGroup]
    split
    · rename_i hlines
      rw [List.isEmpty_iff] at hlines
      exact ⟨back, by rw [hlines], hback⟩
    · exact ⟨'\n' :: back, by simp, by simp⟩
  obtain ⟨gap, hgap, hhead⟩ := hgroup notes rest hrest
  obtain ⟨gap', hgap', hhead'⟩ := hgroup notes' rest' hrest'
  rw [hgap, hgap'] at h
  obtain ⟨rfl, rfl⟩ := eq_of_unlines_notes hnotes hnotes' hhead hhead' h
  rw [← hgap'] at hgap
  exact ⟨rfl, List.append_cancel_left hgap⟩

theorem eq_of_map_eq {α β : Type} {f : α → β} {left right : List α}
    (hf : ∀ x ∈ left, ∀ y ∈ right, f x = f y → x = y) (h : left.map f = right.map f) :
    left = right := by
  induction left generalizing right with
  | nil => exact (List.map_eq_nil_iff.mp h.symm).symm
  | cons x left ih =>
    cases right with
    | nil => exact absurd h (by simp)
    | cons y right =>
      rw [List.map_cons, List.map_cons, List.cons.injEq] at h
      have hhead : x = y := hf x List.mem_cons_self y List.mem_cons_self h.1
      have htail : left = right := ih (fun x' hx' y' hy' =>
        hf x' (List.mem_cons_of_mem x hx') y' (List.mem_cons_of_mem y hy')) h.2
      rw [hhead, htail]

theorem length_identifier (dotted : Text) : (identifier dotted).length = dotted.length :=
  List.length_map _

theorem referenceLine_eq (label : Text) (type : TypeRef) : referenceLine label type =
    "// @".toList ++ (label ++ ' ' :: (type.ident ++ (" (".toList ++ (type.dotted ++ [')'])))) := by
  delta referenceLine
  simp only [List.append_assoc, List.cons_append]

/-- A reference repeats the name of its type in two forms of equal length. -/
theorem referenceLine_inj {label : Text} {type type' : TypeRef}
    (htype : type.ident = identifier type.dotted) (htype' : type'.ident = identifier type'.dotted)
    (h : referenceLine label type = referenceLine label type') : type = type' := by
  rw [referenceLine_eq, referenceLine_eq] at h
  obtain ⟨-, h⟩ := List.cons.inj (List.append_cancel_left (List.append_cancel_left h))
  have hlength := congrArg List.length h
  have hshort := length_identifier type.dotted
  have hshort' := length_identifier type'.dotted
  rw [← htype] at hshort
  rw [← htype'] at hshort'
  simp only [List.length_append] at hlength
  obtain ⟨hident, hrest⟩ := List.append_inj h (by omega)
  have hdotted : type.dotted = type'.dotted :=
    List.append_cancel_right (List.append_cancel_left hrest)
  cases type
  cases type'
  simp only at hident hdotted
  rw [hident, hdotted]

theorem filter_annotationLines (outline : Outline) :
    (annotationLines outline).filter ("// @generic ".toList.isPrefixOf ·) =
        outline.generics.map ("// @generic ".toList ++ ·) ∧
      (annotationLines outline).filter ("// @extends ".toList.isPrefixOf ·) =
        outline.superType.toList.map (referenceLine "extends".toList) ∧
      (annotationLines outline).filter ("// @implements ".toList.isPrefixOf ·) =
        outline.implemented.map (referenceLine "implements".toList) := by
  have hall : ∀ {α : Type} {mark : Text} {f : α → Text} (xs : List α),
      (∀ x, mark.isPrefixOf (f x) = true) → (xs.map f).filter (mark.isPrefixOf ·) = xs.map f := by
    intro α mark f xs hf
    rw [List.filter_eq_self]
    intro line hline
    obtain ⟨x, -, rfl⟩ := List.mem_map.mp hline
    exact hf x
  have hnone : ∀ {α : Type} {mark : Text} {f : α → Text} (xs : List α),
      (∀ x, mark.isPrefixOf (f x) = false) → (xs.map f).filter (mark.isPrefixOf ·) = [] := by
    intro α mark f xs hf
    rw [List.filter_eq_nil_iff]
    intro line hline
    obtain ⟨x, -, rfl⟩ := List.mem_map.mp hline
    simp [hf x]
  rw [annotationLines, List.filter_append, List.filter_append, List.filter_append,
    List.filter_append, List.filter_append, List.filter_append]
  refine ⟨?_, ?_, ?_⟩
  · rw [hall outline.generics fun generic => by simp, hnone _ fun type => rfl,
      hnone _ fun type => rfl, List.append_nil, List.append_nil]
  · rw [hnone outline.generics fun generic => rfl, hall _ fun type => rfl, hnone _ fun type => rfl,
      List.nil_append, List.append_nil]
  · rw [hnone outline.generics fun generic => rfl, hnone _ fun type => rfl, hall _ fun type => rfl,
      List.nil_append, List.nil_append]

variable {outline other : Outline}

theorem isNote_annotationLines (h : IsLinewise outline) :
    ∀ line ∈ annotationLines outline, IsNote line := by
  have hreference : ∀ label : Text, '\n' ∉ label →
      ∀ type ∈ outline.superType.toList ++ outline.implemented,
        IsNote (referenceLine label type) := by
    intro label hlabel type htype
    obtain ⟨hdotted, hident⟩ := h.types type htype
    have hnot : '\n' ∉ type.ident := by
      rw [hident, identifier, List.mem_map]
      rintro ⟨c, hc, hfeed⟩
      split at hfeed
      · exact absurd hfeed (by decide)
      · rw [hfeed] at hc
        exact hdotted hc
    exact ⟨rfl, by simp [referenceLine_eq, hlabel, hnot, hdotted]⟩
  intro line hline
  rw [annotationLines] at hline
  rcases List.mem_append.mp hline with hline | hline
  · rcases List.mem_append.mp hline with hline | hline
    · obtain ⟨generic, hgeneric, rfl⟩ := List.mem_map.mp hline
      exact ⟨rfl, by simp [h.generics generic hgeneric]⟩
    · obtain ⟨type, htype, rfl⟩ := List.mem_map.mp hline
      exact hreference _ (by decide) type (List.mem_append_left _ htype)
  · obtain ⟨type, htype, rfl⟩ := List.mem_map.mp hline
    exact hreference _ (by decide) type (List.mem_append_right _ htype)

theorem eq_of_annotationLines (houtline : IsLinewise outline) (hother : IsLinewise other)
    (h : annotationLines outline = annotationLines other) :
    outline.generics = other.generics ∧ outline.superType = other.superType ∧
      outline.implemented = other.implemented := by
  obtain ⟨hgenerics, hsuper, hcontracts⟩ := filter_annotationLines outline
  obtain ⟨hgenerics', hsuper', hcontracts'⟩ := filter_annotationLines other
  rw [h, hgenerics'] at hgenerics
  rw [h, hsuper'] at hsuper
  rw [h, hcontracts'] at hcontracts
  refine ⟨?_, ?_, ?_⟩
  · apply eq_of_map_eq _ hgenerics.symm
    intro generic _ generic' _ heq
    exact List.append_cancel_left heq
  · have hlist : outline.superType.toList = other.superType.toList := by
      apply eq_of_map_eq _ hsuper.symm
      intro type htype type' htype' heq
      exact referenceLine_inj (houtline.types type (List.mem_append_left _ htype)).2
        (hother.types type' (List.mem_append_left _ htype')).2 heq
    simpa using congrArg List.head? hlist
  · apply eq_of_map_eq _ hcontracts.symm
    intro type htype type' htype' heq
    exact referenceLine_inj (houtline.types type (List.mem_append_right _ htype)).2
      (hother.types type' (List.mem_append_right _ htype')).2 heq

def initializerLines (outline : Outline) : List Text :=
  if outline.constructors.isEmpty then
    [outline.entity.ident ++ ' ' :: outline.entity.ident ++ "_init();".toList]
  else []

def handleLine (entity : Entity) : Text :=
  "typedef struct ".toList ++ entity.ident ++ "_S *".toList ++ entity.ident ++ [';']

def guardLines (entity : Entity) : List Text :=
  ["#ifndef ".toList ++ includeGuard entity, "#define ".toList ++ includeGuard entity, []]

theorem headerLines_eq (outline : Outline) :
    headerLines outline = guardLines outline.entity ++ (closeGroup (annotationLines outline) ++
      (handleLine outline.entity :: (initializerLines outline ++ [[], "#endif".toList]))) := by
  have hlines : headerLines outline = guardLines outline.entity ++
      closeGroup (annotationLines outline) ++ [handleLine outline.entity] ++
        initializerLines outline ++ [[], "#endif".toList] := rfl
  rw [hlines, List.append_assoc, List.append_assoc, List.append_assoc, List.singleton_append]

theorem header_eq (outline : Outline) :
    (ofOutline outline).header = unlines (guardLines outline.entity) ++
      (unlines (closeGroup (annotationLines outline)) ++ (handleLine outline.entity ++
        '\n' :: (unlines (initializerLines outline) ++ unlines [[], "#endif".toList]))) := by
  have hheader : (ofOutline outline).header = unlines (headerLines outline) := rfl
  rw [hheader, headerLines_eq, unlines_append, unlines_append, unlines_cons, unlines_append]

/-- The header gives back the annotations, and whether there is a constructor. -/
theorem eq_of_header (hentity : outline.entity = other.entity) (houtline : IsLinewise outline)
    (hother : IsLinewise other) (h : (ofOutline outline).header = (ofOutline other).header) :
    annotationLines outline = annotationLines other ∧
      (outline.constructors = [] ↔ other.constructors = []) := by
  rw [header_eq, header_eq, ← hentity, List.append_cancel_left_eq] at h
  have hhandle : ∀ back : Text, (handleLine outline.entity ++ back).head? ≠ some '/' := by
    intro back
    change some 't' ≠ some '/'
    decide
  obtain ⟨hlines, hrest⟩ := eq_of_closeGroup (isNote_annotationLines houtline)
    (isNote_annotationLines hother) (hhandle _) (hhandle _) h
  refine ⟨hlines, ?_⟩
  have hinitializer : unlines (initializerLines outline) = unlines (initializerLines other) := by
    rw [List.append_cancel_left_eq, List.cons.injEq] at hrest
    exact List.append_cancel_right hrest.2
  have hempty : ∀ shown : Outline,
      unlines (initializerLines shown) = [] ↔ shown.constructors ≠ [] := by
    intro shown
    rw [initializerLines]
    cases shown.constructors <;> simp
  have hiff : outline.constructors ≠ [] ↔ other.constructors ≠ [] := by
    rw [← hempty, ← hempty, hinitializer]
  exact not_iff_not.mp hiff

theorem commentLine_inj {line line' : Text} (h : commentLine line = commentLine line') :
    line = line' := by
  cases line with
  | nil =>
    cases line' with
    | nil => rfl
    | cons c' line' => exact absurd (congrArg List.length h) (by simp [commentLine])
  | cons c line =>
    cases line' with
    | nil => exact absurd (congrArg List.length h) (by simp [commentLine])
    | cons c' line' =>
      have hlines : " * ".toList ++ c :: line = " * ".toList ++ c' :: line' := h
      exact List.append_cancel_left hlines

theorem commentLine_ne_end (line : Text) : commentLine line ≠ " */".toList := by
  intro h
  cases line with
  | nil => exact absurd h (by decide)
  | cons c line =>
    have hthird := congrArg (fun text : Text => text[2]?) h
    exact absurd hthird (by simp [commentLine])

theorem stubLine_inj {ident : Text} {member member' : Member}
    (h : stubLine ident member = stubLine ident member') :
    resolveSelf ident member.signature = resolveSelf ident member'.signature ∧
      member.hasBody = member'.hasBody := by
  have hlast := congrArg List.getLast? h
  rw [stubLine, stubLine] at h hlast
  cases hbody : member.hasBody with
  | true =>
    cases hbody' : member'.hasBody with
    | true =>
      rw [hbody, hbody', if_pos rfl, if_pos rfl] at h
      exact ⟨List.append_cancel_right h, rfl⟩
    | false =>
      rw [hbody, hbody'] at hlast
      exact absurd hlast (by simp)
  | false =>
    cases hbody' : member'.hasBody with
    | true =>
      rw [hbody, hbody'] at hlast
      exact absurd hlast (by simp)
    | false =>
      rw [hbody, hbody'] at h
      exact ⟨List.append_cancel_right h, rfl⟩

theorem stubLine_ne_opening (ident : Text) (member : Member) :
    stubLine ident member ≠ "/**".toList := by
  intro h
  have hlast := congrArg List.getLast? h
  rw [stubLine] at hlast
  cases hbody : member.hasBody with
  | true =>
    rw [hbody] at hlast
    exact absurd hlast (by simp)
  | false =>
    rw [hbody] at hlast
    exact absurd hlast (by simp)

/-- A comment and the line behind it are told apart from what follows. -/
theorem eq_of_commentLines {documentation documentation' stub stub' : Text} {rest rest' : List Text}
    (hdoc : IsReflowed documentation) (hdoc' : IsReflowed documentation')
    (hstub : stub ≠ "/**".toList) (hstub' : stub' ≠ "/**".toList)
    (h : commentLines documentation ++ stub :: rest =
      commentLines documentation' ++ stub' :: rest') :
    documentation = documentation' ∧ stub = stub' ∧ rest = rest' := by
  rw [commentLines, commentLines] at h
  by_cases hnil : documentation = []
  · by_cases hnil' : documentation' = []
    · subst hnil hnil'
      obtain ⟨hhead, hrest⟩ := List.cons.inj h
      exact ⟨rfl, hhead, hrest⟩
    · rw [if_pos (by simpa using hnil), if_neg (by simpa using hnil')] at h
      exact absurd (List.cons.inj h).1 hstub
  · by_cases hnil' : documentation' = []
    · rw [if_neg (by simpa using hnil), if_pos (by simpa using hnil')] at h
      exact absurd (List.cons.inj h).1.symm hstub'
    · rw [if_neg (by simpa using hnil), if_neg (by simpa using hnil')] at h
      have hend : ∀ lines : List Text, " */".toList ∉ lines.map commentLine := by
        intro lines hmem
        obtain ⟨line, -, hline⟩ := List.mem_map.mp hmem
        exact commentLine_ne_end line hline
      simp only [List.cons_append, List.append_assoc, List.nil_append, List.cons.injEq,
        true_and] at h
      obtain ⟨hlines, hback⟩ := split_unique (hend _) (hend _) h
      have hsame : lines documentation = lines documentation' :=
        eq_of_map_eq (fun line _ line' _ => commentLine_inj) hlines
      obtain ⟨hhead, hrest⟩ := List.cons.inj hback
      exact ⟨hdoc.eq_of_lines hdoc' hsame, hhead, hrest⟩

theorem eq_of_membersLines {ident : Text} {members members' : List Member}
    (hmembers : ∀ member ∈ members, IsReflowed member.documentation)
    (hmembers' : ∀ member ∈ members', IsReflowed member.documentation)
    (h : membersLines ident members = membersLines ident members') :
    members.map (writtenOf ident) = members'.map (writtenOf ident) := by
  induction members generalizing members' with
  | nil =>
    cases members' with
    | nil => rfl
    | cons member' members' => exact absurd h (by simp [membersLines])
  | cons member members ih =>
    cases members' with
    | nil => exact absurd h (by simp [membersLines])
    | cons member' members' =>
      have hcons : ∀ (first : Member) (others : List Member),
          membersLines ident (first :: others) = [] :: (commentLines first.documentation ++
            stubLine ident first :: membersLines ident others) := by
        intro first others
        simp [membersLines, memberLines]
      rw [hcons, hcons, List.cons.injEq] at h
      obtain ⟨hdoc, hstub, hrest⟩ := eq_of_commentLines (hmembers member List.mem_cons_self)
        (hmembers' member' List.mem_cons_self) (stubLine_ne_opening ident member)
        (stubLine_ne_opening ident member') h.2
      obtain ⟨hsignature, hbody⟩ := stubLine_inj hstub
      have hlater := ih (fun other hother => hmembers other (List.mem_cons_of_mem _ hother))
        (fun other hother => hmembers' other (List.mem_cons_of_mem _ hother)) hrest
      rw [List.map_cons, List.map_cons, hlater, writtenOf, writtenOf, hdoc, hsignature, hbody]

theorem not_mem_lines {text line : Text} (h : line ∈ lines text) : '\n' ∉ line := by
  rw [lines] at h
  rcases List.mem_append.mp h with h | h
  · obtain ⟨piece, hpiece, rfl⟩ := List.mem_map.mp h
    have hfeed := not_mem_of_mem_splitOn (List.dropLast_subset _ hpiece)
    cases hend : dropEndMark? ['\r'] piece with
    | none => exact hfeed
    | some front =>
      intro hmem
      rw [dropEndMark?] at hend
      split at hend
      · cases hend
        exact hfeed (List.mem_of_mem_take hmem)
      · cases hend
  · obtain ⟨hlast, -⟩ := Option.filter_eq_some_iff.mp (Option.mem_toList.mp h)
    exact not_mem_of_mem_splitOn (List.mem_of_getLast? hlast)

theorem not_mem_membersLines {ident : Text} {members : List Member}
    (h : ∀ member ∈ members, '\n' ∉ resolveSelf ident member.signature) :
    ∀ line ∈ membersLines ident members, '\n' ∉ line := by
  intro line hline
  obtain ⟨member, hmember, hline⟩ := List.mem_flatMap.mp hline
  rcases List.mem_cons.mp hline with rfl | hline
  · simp
  rcases List.mem_append.mp hline with hline | hline
  · rw [commentLines] at hline
    split at hline
    · exact absurd hline List.not_mem_nil
    · rcases List.mem_append.mp hline with hline | hline
      · rcases List.mem_cons.mp hline with rfl | hline
        · decide
        · obtain ⟨written, hwritten, rfl⟩ := List.mem_map.mp hline
          have hfeed := not_mem_lines hwritten
          rw [commentLine]
          split
          · decide
          · simp [hfeed]
      · rw [List.mem_singleton.mp hline]
        decide
  · rw [List.mem_singleton.mp hline, stubLine]
    have hsignature := h member hmember
    split
    · simp [hsignature]
    · simp [hsignature]

def structureLine (entity : Entity) : Text :=
  "struct ".toList ++ entity.ident ++ "_S \x7b".toList

theorem source_eq_of_modifiers (outline : Outline) :
    (ofOutline outline).source =
      unlines (closeGroup (outline.modifiers.map fun modifier => "// @".toList ++ modifier)) ++
        (structureLine outline.entity ++ '\n' :: (unlines ["\x7d;".toList] ++
          unlines (membersLines outline.entity.ident outline.members))) := by
  have hsource : (ofOutline outline).source = unlines
      (closeGroup (outline.modifiers.map fun modifier => "// @".toList ++ modifier) ++
        [structureLine outline.entity, "\x7d;".toList] ++
          membersLines outline.entity.ident outline.members) := rfl
  rw [hsource, List.append_assoc, unlines_append, List.cons_append, unlines_cons, unlines_append]

/-- The source gives back the modifiers and what was written of each member. -/
theorem eq_of_source (hentity : outline.entity = other.entity) (houtline : IsLinewise outline)
    (hother : IsLinewise other)
    (hfilled : ∀ member ∈ outline.members ++ other.members,
      '\n' ∉ resolveSelf outline.entity.ident member.signature)
    (h : (ofOutline outline).source = (ofOutline other).source) :
    outline.modifiers = other.modifiers ∧
      outline.members.map (writtenOf outline.entity.ident) =
        other.members.map (writtenOf outline.entity.ident) := by
  have hnotes : ∀ modifiers : List Text, (∀ modifier ∈ modifiers, '\n' ∉ modifier) →
      ∀ note ∈ modifiers.map fun modifier => "// @".toList ++ modifier, IsNote note := by
    intro modifiers hmodifiers note hnote
    obtain ⟨modifier, hmodifier, rfl⟩ := List.mem_map.mp hnote
    exact ⟨rfl, by simp [hmodifiers modifier hmodifier]⟩
  have hstructure : ∀ back : Text, (structureLine outline.entity ++ back).head? ≠ some '/' := by
    intro back
    change some 's' ≠ some '/'
    decide
  rw [source_eq_of_modifiers, source_eq_of_modifiers, ← hentity] at h
  obtain ⟨hmodifiers, hrest⟩ := eq_of_closeGroup (hnotes _ houtline.modifiers)
    (hnotes _ hother.modifiers) (hstructure _) (hstructure _) h
  have hmembers : membersLines outline.entity.ident outline.members =
      membersLines outline.entity.ident other.members := by
    apply unlines_inj
    · exact not_mem_membersLines fun member hmember =>
        hfilled member (List.mem_append_left _ hmember)
    · exact not_mem_membersLines fun member hmember =>
        hfilled member (List.mem_append_right _ hmember)
    · rw [List.append_cancel_left_eq, List.cons.injEq] at hrest
      exact List.append_cancel_left hrest.2
  refine ⟨?_, eq_of_membersLines houtline.documentation hother.documentation hmembers⟩
  apply eq_of_map_eq _ hmodifiers
  intro modifier _ modifier' _ heq
  exact List.append_cancel_left heq

/-- Two outlines of one entity that are written alike agree in everything that is written, if no
part of them goes beyond its line, also after the identifier of the entity is filled in. -/
theorem eq_of_ofOutline (hentity : outline.entity = other.entity) (houtline : IsLinewise outline)
    (hother : IsLinewise other)
    (hfilled : ∀ member ∈ outline.members ++ other.members,
      '\n' ∉ resolveSelf outline.entity.ident member.signature)
    (h : ofOutline outline = ofOutline other) :
    outline.modifiers = other.modifiers ∧ outline.generics = other.generics ∧
      outline.superType = other.superType ∧ outline.implemented = other.implemented ∧
      (outline.constructors = [] ↔ other.constructors = []) ∧
      outline.members.map (writtenOf outline.entity.ident) =
        other.members.map (writtenOf outline.entity.ident) := by
  have hheader := congrArg Skeleton.header h
  have hsource := congrArg Skeleton.source h
  obtain ⟨hannotations, hconstructors⟩ := eq_of_header hentity houtline hother hheader
  obtain ⟨hgenerics, hsuper, himplemented⟩ := eq_of_annotationLines houtline hother hannotations
  obtain ⟨hmodifiers, hmembers⟩ := eq_of_source hentity houtline hother hfilled hsource
  exact ⟨hmodifiers, hgenerics, hsuper, himplemented, hconstructors, hmembers⟩

def shelf (visibility : Visibility) : Outline where
  entity := ⟨"demo.Shelf".toList, [], by decide +kernel⟩
  kind := .cls
  modifiers := ["final".toList]
  generics := ["T".toList]
  superType := some (TypeRef.ofDotted "demo.Rack".toList)
  implemented := [TypeRef.ofDotted "demo.Store".toList]
  constructors := []
  methods := [⟨"$Self copy()".toList, .pub, false, []⟩]
  fields := [⟨"int size".toList, visibility, false, "How many\n\nfit.".toList⟩]

theorem shelf_isLinewise (visibility : Visibility) : IsLinewise (shelf visibility) where
  modifiers modifier hmodifier := by
    rw [List.mem_singleton.mp hmodifier]
    decide
  generics generic hgeneric := by
    rw [List.mem_singleton.mp hgeneric]
    decide
  types type htype := by
    rcases List.mem_cons.mp htype with rfl | htype
    · exact ⟨by decide, rfl⟩
    · rw [List.mem_singleton.mp htype]
      exact ⟨by decide, rfl⟩
  signatures member hmember := by
    rcases List.mem_cons.mp hmember with rfl | hmember
    · change '\n' ∉ "int size".toList
      decide
    · rw [List.mem_singleton.mp hmember]
      decide
  documentation member hmember := by
    rcases List.mem_cons.mp hmember with rfl | hmember
    · change IsReflowed "How many\n\nfit.".toList
      decide +kernel
    · rw [List.mem_singleton.mp hmember]
      decide

theorem eq_of_ofOutline_shelf :
    (shelf .pub).members.map (writtenOf (shelf .pub).entity.ident) =
      (shelf .prot).members.map (writtenOf (shelf .pub).entity.ident) := by
  have hentity : (shelf .pub).entity = (shelf .prot).entity := rfl
  have hfilled : ∀ member ∈ (shelf .pub).members ++ (shelf .prot).members,
      '\n' ∉ resolveSelf (shelf .pub).entity.ident member.signature := by decide +kernel
  have hwritten : ofOutline (shelf .pub) = ofOutline (shelf .prot) := by decide +kernel
  obtain ⟨-, -, -, -, -, hmembers⟩ := eq_of_ofOutline hentity (shelf_isLinewise .pub)
    (shelf_isLinewise .prot) hfilled hwritten
  exact hmembers

/-- An entity may have a name of several lines, which are then filled in. -/
def brokenEntity : Entity := ⟨"x;\n\ny".toList, [], by decide +kernel⟩

def fieldsOf (signatures : List Text) : Outline where
  entity := brokenEntity
  kind := .cls
  modifiers := []
  generics := []
  superType := none
  implemented := []
  constructors := []
  methods := []
  fields := signatures.map fun signature => ⟨signature, .pub, false, []⟩

theorem fieldsOf_isLinewise {signatures : List Text}
    (h : ∀ signature ∈ signatures, '\n' ∉ signature) : IsLinewise (fieldsOf signatures) := by
  have hmembers : ∀ member ∈ (fieldsOf signatures).members,
      ∃ signature ∈ signatures, member = ⟨signature, .pub, false, []⟩ := by
    intro member hmember
    rw [Outline.members] at hmember
    rcases List.mem_append.mp hmember with hmember | hmember
    · rcases List.mem_append.mp hmember with hmember | hmember
      · obtain ⟨signature, hsignature, rfl⟩ := List.mem_map.mp hmember
        exact ⟨signature, hsignature, rfl⟩
      · exact absurd hmember List.not_mem_nil
    · exact absurd hmember List.not_mem_nil
  refine ⟨?_, ?_, ?_, ?_, ?_⟩
  · exact fun modifier hmodifier => absurd hmodifier List.not_mem_nil
  · exact fun generic hgeneric => absurd hgeneric List.not_mem_nil
  · exact fun type htype => absurd htype List.not_mem_nil
  · intro member hmember
    obtain ⟨signature, hsignature, rfl⟩ := hmembers member hmember
    exact h signature hsignature
  · intro member hmember
    obtain ⟨signature, -, rfl⟩ := hmembers member hmember
    exact (rfl : settle [] = [])

/-- One field that is filled in as two lines is written like two fields. -/
theorem not_eq_of_ofOutline_broken :
    ¬ ∀ outline other : Outline, outline.entity = other.entity → IsLinewise outline →
      IsLinewise other → ofOutline outline = ofOutline other →
      outline.modifiers = other.modifiers ∧ outline.generics = other.generics ∧
        outline.superType = other.superType ∧ outline.implemented = other.implemented ∧
        (outline.constructors = [] ↔ other.constructors = []) ∧
        outline.members.map (writtenOf outline.entity.ident) =
          other.members.map (writtenOf outline.entity.ident) := by
  intro h
  have hsame : ofOutline (fieldsOf [placeholder]) = ofOutline (fieldsOf [['x'], ['y']]) := by
    decide +kernel
  obtain ⟨-, -, -, -, -, hmembers⟩ := h (fieldsOf [placeholder]) (fieldsOf [['x'], ['y']]) rfl
    (fieldsOf_isLinewise (by decide)) (fieldsOf_isLinewise (by decide)) hsame
  exact absurd (congrArg List.length hmembers) (by decide)

end ClassSkeleton.Skeleton
