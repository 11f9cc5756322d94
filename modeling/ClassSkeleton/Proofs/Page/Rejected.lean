import ClassSkeleton.Proofs.Page.Header

/-!
A member that is set aside leaves no trace. Its block stands between two others, so taking it out
of the page moves everything behind it and makes its neighbours meet. No mark reaches across the
seams, the other blocks of its section are cut as before, and the section itself ends where it
ended. What is read of the page is the same with the block and without it.
-/
namespace ClassSkeleton.ClassPage

open Text Markup

/-- The last mark of a section in the text is a heading. -/
def EndsUnder (heading text : Text) : Prop :=
  ∃ front back, text = front ++ heading ++ back ∧ ∀ mark ∈ sectionEnds, ¬ mark <:+: back

/-- A single member block: a heading of its own, and no mark at which the section is cut. -/
structure IsMemberBlock (block : Text) : Prop where
  single : ∃ body, block = memberHeading ++ body ∧ ¬ memberHeading <:+: body
  ends : ∀ mark ∈ sectionEnds, ¬ mark <:+: block

/-- A block that is set aside where it stands behind `before`: it declares nothing, its declaration
is refused, or it is a field or method that no prose follows. -/
inductive Rejected (self before block : Text) : Prop
  | undeclared (h : ∀ declaration,
      extractBetween block declarationOpening declarationClosing 0 ≠ .ok declaration)
  | refused (declaration : Extract) (refusal : Declaration.Refusal)
      (hdeclaration :
        extractBetween block declarationOpening declarationClosing 0 = .ok declaration)
      (hrefusal : Declaration.signature self declaration.inner = .error refusal)
  | undocumented (declaration : Extract)
      (hdeclaration :
        extractBetween block declarationOpening declarationClosing 0 = .ok declaration)
      (hprose : locate block proseMark declaration.after = none)
      (hunder : EndsUnder fieldDetail before ∨ EndsUnder methodDetail before)

theorem EndsUnder.unique {heading other text : Text} (hheading : heading ∈ detailHeadings)
    (hother : other ∈ detailHeadings) (h : EndsUnder heading text) (h' : EndsUnder other text) :
    heading = other := by
  -- The heading that stands further back would have to begin behind the other or inside of it.
  have hlater : ∀ first ∈ detailHeadings, ∀ later ∈ detailHeadings, first ≠ later →
      ∀ back gap rest, (∀ mark ∈ sectionEnds, ¬ mark <:+: back) →
        first ++ back ≠ gap ++ (later ++ rest) := by
    intro first hfirst later hlater hne back gap rest hback heq
    have hpasses : Passes later (first ++ back) [] := by
      rw [passes_append]
      exact ⟨passes_of_clear (clear_detailHeadings hlater hfirst (Ne.symm hne)) _,
        passes_end (hback later (mem_sectionEnds hlater).1)⟩
    apply not_infix_of_passes (mem_sectionEnds hlater).2 hpasses
    rw [heq, ← List.append_assoc]
    exact ⟨gap, rest, rfl⟩
  by_contra hne
  obtain ⟨front, back, rfl, hback⟩ := h
  obtain ⟨front', back', heq, hback'⟩ := h'
  rw [List.append_assoc, List.append_assoc] at heq
  rcases List.append_eq_append_iff.mp heq with ⟨gap, -, hsplit⟩ | ⟨gap, -, hsplit⟩
  · exact hlater heading hheading other hother hne back gap back' hback hsplit
  · exact hlater other hother heading hheading (Ne.symm hne) back' gap back hback' hsplit

theorem exists_readBlock (proseNeeded : Bool) (self block : Text) :
    ∃ reading, readBlock proseNeeded self block = .ok reading := by
  rcases readBlock_cases proseNeeded self block with ⟨-, hread⟩ |
    ⟨declaration, -, ⟨-, -, hread⟩ | ⟨-, -, hread⟩ | ⟨place, prose, -, -, hread⟩⟩ <;>
    exact ⟨_, hread⟩

/-- A block is kept only with a declaration that is not refused, and with prose where that is
needed. -/
theorem Rejected.not_kept {self before block heading : Text} {proseNeeded : Bool} {member : Member}
    (h : Rejected self before block) (hheading : heading ∈ detailHeadings)
    (hunder : EndsUnder heading before)
    (hneeded : heading ≠ constructorDetail → proseNeeded = true) :
    readBlock proseNeeded self block ≠ .ok (.kept member) := by
  intro hread
  cases h with
  | undeclared hnone =>
    obtain ⟨declaration, hdeclaration, -⟩ := kept_of_readBlock hread
    exact hnone declaration hdeclaration
  | refused declaration refusal hdeclaration hrefusal =>
    obtain ⟨found, hfound, hsignature, -⟩ := kept_of_readBlock hread
    cases hdeclaration.symm.trans hfound
    cases hrefusal.symm.trans hsignature
  | undocumented declaration hdeclaration hprose hwhere =>
    have hne : heading ≠ constructorDetail := by
      rcases hwhere with hfield | hmethod
      · rw [hunder.unique hheading (by decide) hfield]
        decide
      · rw [hunder.unique hheading (by decide) hmethod]
        decide
    rw [readBlock, hdeclaration] at hread
    simp only [hprose, hneeded hne] at hread
    cases hread

/-- A rejected block is no member in the section that it stands in. -/
theorem Rejected.member?_eq {self before block heading : Text} {proseNeeded : Bool}
    {reading : BlockReading} (h : Rejected self before block) (hheading : heading ∈ detailHeadings)
    (hunder : EndsUnder heading before) (hneeded : heading ≠ constructorDetail → proseNeeded = true)
    (hread : readBlock proseNeeded self block = .ok reading) : reading.member? = none := by
  cases reading with
  | kept member => exact absurd hread (h.not_kept hheading hunder hneeded)
  | refused refusal => rfl
  | withoutDeclaration => rfl
  | undocumented declaration => rfl

theorem exists_mapM_readBlock (proseNeeded : Bool) (self : Text) (blocks : List Text) :
    ∃ readings, blocks.mapM (readBlock proseNeeded self) = .ok readings := by
  induction blocks with
  | nil => exact ⟨[], rfl⟩
  | cons block blocks ih =>
    obtain ⟨reading, hreading⟩ := exists_readBlock proseNeeded self block
    obtain ⟨readings, hreadings⟩ := ih
    exact ⟨reading :: readings, by rw [List.mapM_cons, hreading, hreadings]; rfl⟩

theorem exists_mapM_without {proseNeeded : Bool} {self block : Text}
    (hblock : ∀ reading, readBlock proseNeeded self block = .ok reading → reading.member? = none)
    (front back : List Text) :
    ∃ readings readings',
      (front ++ block :: back).mapM (readBlock proseNeeded self) = .ok readings ∧
      (front ++ back).mapM (readBlock proseNeeded self) = .ok readings' ∧
      readings.filterMap BlockReading.member? = readings'.filterMap BlockReading.member? := by
  induction front with
  | nil =>
    obtain ⟨reading, hreading⟩ := exists_readBlock proseNeeded self block
    obtain ⟨readings, hreadings⟩ := exists_mapM_readBlock proseNeeded self back
    refine ⟨reading :: readings, readings, ?_, hreadings, ?_⟩
    · rw [List.nil_append, List.mapM_cons, hreading, hreadings]
      rfl
    · rw [List.filterMap_cons, hblock reading hreading]
  | cons other front ih =>
    obtain ⟨reading, hreading⟩ := exists_readBlock proseNeeded self other
    obtain ⟨readings, readings', hreadings, hreadings', hkept⟩ := ih
    refine ⟨reading :: readings, reading :: readings', ?_, ?_, ?_⟩
    · rw [List.cons_append, List.mapM_cons, hreading, hreadings]
      rfl
    · rw [List.cons_append, List.mapM_cons, hreading, hreadings']
      rfl
    · rw [List.filterMap_cons, List.filterMap_cons, hkept]

section Section

variable {block after : Text}

theorem sealed_of_after
    (hafter : after = [] ∨ ∃ opening ∈ memberHeading :: sectionEnds, opening <+: after) :
    Sealed after := by
  rcases hafter with rfl | ⟨opening, hmem, hopens⟩
  · exact sealed_nil
  · exact sealed_of_opens hmem hopens

theorem upTo_of_opens
    (hafter : after = [] ∨ ∃ opening ∈ memberHeading :: sectionEnds, opening <+: after) :
    upTo sectionEnds after = [] ∨ ∃ rest, upTo sectionEnds after = memberHeading ++ rest := by
  rcases hafter with rfl | ⟨opening, hmem, tail, rfl⟩
  · exact .inl rfl
  · rcases List.mem_cons.mp hmem with rfl | hend
    · have hclear : ∀ mark ∈ sectionEnds, Clear mark memberHeading := by decide +kernel
      exact .inr ⟨upTo sectionEnds tail,
        upTo_of_passes fun mark hmark => passes_of_clear (hclear mark hmark) tail⟩
    · exact .inl (upTo_mark hend tail)

theorem blocksOf_append_upTo (front : Text)
    (hafter : after = [] ∨ ∃ opening ∈ memberHeading :: sectionEnds, opening <+: after) :
    blocksOf (front ++ upTo sectionEnds after) =
      blocksOf front ++ blocksOf (upTo sectionEnds after) := by
  rcases upTo_of_opens hafter with hnil | ⟨rest, hrest⟩
  · rw [hnil, List.append_nil]
    exact (List.append_nil _).symm
  · rw [hrest, blocksOf_append]

/-- Either a section is the same without the block, or the block is one of those it is cut into. -/
theorem sectionOf_without (before : Text) {heading : Text} (hheading : heading ∈ detailHeadings)
    (hblock : IsMemberBlock block)
    (hafter : after = [] ∨ ∃ opening ∈ memberHeading :: sectionEnds, opening <+: after) :
    sectionOf heading (before ++ (block ++ after)) = sectionOf heading (before ++ after) ∨
      EndsUnder heading before ∧ ∃ detail detail' blocks blocks',
        sectionOf heading (before ++ (block ++ after)) = some detail ∧
        sectionOf heading (before ++ after) = some detail' ∧
        blocksOf detail = blocks ++ block :: blocks' ∧ blocksOf detail' = blocks ++ blocks' := by
  obtain ⟨body, rfl, hbody⟩ := hblock.single
  have hmark := (mem_sectionEnds hheading).2
  have hend := (mem_sectionEnds hheading).1
  have hsealed : Sealed after := sealed_of_after hafter
  have hsealedBlock : Sealed (memberHeading ++ body ++ after) :=
    sealed_of_opens (show memberHeading ∈ memberHeading :: sectionEnds by decide)
      ((List.prefix_append memberHeading body).trans (List.prefix_append _ after))
  cases hbreak : breakAt? heading before with
  | none =>
    have hbefore := (breakAt?_eq_none_iff hmark before).mp hbreak
    left
    rw [sectionOf_of_passes (hsealedBlock.passes hend hbefore),
      sectionOf_of_passes (hsealed.passes hend (hblock.ends heading hend)),
      sectionOf_of_passes (hsealed.passes hend hbefore)]
  | some parts =>
    obtain ⟨front, back⟩ := parts
    rw [sectionOf, sectionOf, breakAt?_append hmark hbreak, breakAt?_append hmark hbreak]
    simp only [Option.map_some]
    by_cases hfree : ∀ mark ∈ sectionEnds, ¬ mark <:+: back
    · right
      have hdetail : upTo sectionEnds (back ++ (memberHeading ++ body ++ after)) =
          back ++ (memberHeading ++ body ++ upTo sectionEnds after) := by
        rw [upTo_of_passes fun mark hmem => hsealedBlock.passes hmem (hfree mark hmem),
          upTo_of_passes fun mark hmem => hsealed.passes hmem (hblock.ends mark hmem)]
      have hdetail' : upTo sectionEnds (back ++ after) = back ++ upTo sectionEnds after :=
        upTo_of_passes fun mark hmem => hsealed.passes hmem (hfree mark hmem)
      refine ⟨⟨front, back, by rw [eq_of_breakAt? hbreak], hfree⟩, _, _, blocksOf back,
        blocksOf (upTo sectionEnds after), rfl, rfl, ?_, ?_⟩
      · rw [hdetail, ← List.append_assoc, blocksOf_append_upTo _ hafter, blocksOf_append,
          blocksOf_heading hbody, List.append_assoc]
        rfl
      · rw [hdetail', blocksOf_append_upTo _ hafter]
    · left
      simp only [not_forall, not_not] at hfree
      obtain ⟨mark, hmem, hocc⟩ := hfree
      have hne : mark ≠ [] := by
        have hall : ∀ mark ∈ sectionEnds, mark ≠ [] := by decide
        exact hall mark hmem
      rw [upTo_of_occurs hsealedBlock hmem hne hocc, upTo_of_occurs hsealed hmem hne hocc]

/-- The members of a section are the same without a block that it rejects. -/
theorem readSection_without (front before heading self : Text) (proseNeeded : Bool)
    (hheading : heading ∈ detailHeadings)
    (hneeded : heading ≠ constructorDetail → proseNeeded = true)
    (hblock : IsMemberBlock block) (hrejected : Rejected self before block)
    (hafter : after = [] ∨ ∃ opening ∈ memberHeading :: sectionEnds, opening <+: after) :
    ∃ readings readings',
      readSection (front ++ (before ++ (block ++ after))) heading proseNeeded self (width front) =
        .ok readings ∧
      readSection (front ++ (before ++ after)) heading proseNeeded self (width front) =
        .ok readings' ∧
      readings.filterMap BlockReading.member? = readings'.filterMap BlockReading.member? := by
  simp only [readSection_eq]
  rcases sectionOf_without before hheading hblock hafter with
    heq | ⟨hunder, detail, detail', blocks, blocks', hdetail, hdetail', hblocks, hblocks'⟩
  · rw [heq]
    cases sectionOf heading (before ++ after) with
    | none => exact ⟨[], [], rfl, rfl, rfl⟩
    | some detail =>
      obtain ⟨readings, hreadings⟩ := exists_mapM_readBlock proseNeeded self (blocksOf detail)
      exact ⟨readings, readings, hreadings, hreadings, rfl⟩
  · rw [hdetail, hdetail']
    simp only []
    rw [hblocks, hblocks']
    exact exists_mapM_without
      (fun reading hread => hrejected.member?_eq hheading hunder hneeded hread) blocks blocks'

end Section

/-- A rejected member leaves no trace in what a page is read as. -/
theorem result_without_rejected {header : Text} (hheader : ClosedHeader header)
    {before block after : Text} (entity : Entity) (hblock : IsMemberBlock block)
    (hafter : after = [] ∨ ∃ opening ∈ memberHeading :: sectionEnds, opening <+: after)
    (hrejected : Rejected entity.shortName before block) :
    result (header ++ before ++ block ++ after) entity =
      result (header ++ before ++ after) entity := by
  obtain ⟨fields, fields', hfields, hfields', hkeptFields⟩ :=
    readSection_without header before fieldDetail entity.shortName true (by decide) (fun _ => rfl)
      hblock hrejected hafter
  obtain ⟨constructors, constructors', hconstructors, hconstructors', hkeptConstructors⟩ :=
    readSection_without header before constructorDetail entity.shortName false (by decide)
      (fun hne => absurd rfl hne) hblock hrejected hafter
  obtain ⟨methods, methods', hmethods, hmethods', hkeptMethods⟩ :=
    readSection_without header before methodDetail entity.shortName true (by decide) (fun _ => rfl)
      hblock hrejected hafter
  rw [List.append_assoc, List.append_assoc, List.append_assoc]
  apply hheader.result_eq ⟨fields, constructors, methods⟩ ⟨fields', constructors', methods'⟩
  · rw [readDetail, hfields, hconstructors, hmethods]
    rfl
  · rw [readDetail, hfields', hconstructors', hmethods']
    rfl
  · exact hkeptConstructors
  · simp only [Detail.members, List.filterMap_append, hkeptFields, hkeptMethods]

def peekBlock : Text :=
  memberHeading ++ "peek</h4><pre>E peek()</pre>".toList ++ proseMark ++ "Looks.".toList

def spareBlock : Text :=
  memberHeading ++ "spare</h4><pre>private int spare()</pre>".toList ++ proseMark ++
    "Spare room.".toList

theorem spareBlock_isMemberBlock : IsMemberBlock spareBlock where
  single := ⟨"spare</h4><pre>private int spare()</pre>".toList ++ proseMark ++ "Spare room.".toList,
    by simp only [spareBlock, List.append_assoc], by decide +kernel⟩
  ends := by decide +kernel

theorem isQualifiedName_stack : isQualifiedName "java.util.Stack".toList = true := by
  decide +kernel

theorem result_without_rejected_stack :
    result (stackHeader ++ (methodDetail ++ peekBlock) ++ spareBlock ++ classDataEnd)
        ⟨"java.util.Stack".toList, [], isQualifiedName_stack⟩ =
      result (stackHeader ++ (methodDetail ++ peekBlock) ++ classDataEnd)
        ⟨"java.util.Stack".toList, [], isQualifiedName_stack⟩ :=
  result_without_rejected stackHeaderComplete.toClosed _ spareBlock_isMemberBlock
    (.inr ⟨classDataEnd, by decide, List.prefix_refl _⟩)
    (.refused ⟨"private int spare()".toList, 19, 44⟩ .priv rfl (by decide +kernel))

/-- A header with its parts in the same order, whose title need not be the end of a tag. -/
structure UntaggedHeader (header : Text) where
  title : Extract
  headingClose : Nat
  chain : Nat
  description : Nat
  declaration : Extract
  title_eq : extractBetween header titleMark ['"'] 0 = .ok title
  headingClose_eq : locate header headingEnd title.after = some headingClose
  chain_eq : locate header inheritanceMark (headingClose + width headingEnd) = some chain
  description_eq : locate header descriptionMark chain = some description
  declaration_eq : declaration? header = some declaration
  ends : declaration.after = width header
  list_eq : ∀ label, contractsLabel? header = some label → label < declaration.start →
    ∃ list, extractBetween header listOpening listClosing label = .ok list

def untaggedHeader : Text :=
  titleMark ++ "Class X\"".toList ++ headingEnd ++ inheritanceMark ++ descriptionMark ++
    "<pre>class X</pre>".toList

def untaggedHeaderParts : UntaggedHeader untaggedHeader where
  title := ⟨"Class X".toList, 11, 19⟩
  headingClose := 19
  chain := 24
  description := 48
  declaration := ⟨"class X".toList, 78, 91⟩
  title_eq := by rfl
  headingClose_eq := by decide +kernel
  chain_eq := by decide +kernel
  description_eq := by decide +kernel
  declaration_eq := by decide +kernel
  ends := by
    change 91 = width untaggedHeader
    decide +kernel
  list_eq label hlabel _ := by
    have hnone : contractsLabel? untaggedHeader = none := by decide +kernel
    rw [hnone] at hlabel
    cases hlabel

def hiddenBlock : Text := memberHeading ++ "hidden</h4><pre>private void hidden()</pre></h2>".toList

theorem hiddenBlock_isMemberBlock : IsMemberBlock hiddenBlock where
  single := ⟨_, rfl, by decide +kernel⟩
  ends := by decide +kernel

def shownBlock : Text :=
  memberHeading ++ "g</h4><pre>void g()</pre>".toList ++ proseMark ++ "Does.".toList

def methodCount (read : Except Failure PageResult) : Nat :=
  match read with
  | .ok (.outline outline) => outline.methods.length
  | _ => 0

/-- Where the tag of the title is not closed, the heading reaches to the next closing tag, and that
may stand in a rejected block: then the method behind the block is lost. -/
theorem result_changed_by_rejected :
    ¬ ∀ header, UntaggedHeader header → ∀ before block after entity, IsMemberBlock block →
      (after = [] ∨ ∃ opening ∈ memberHeading :: sectionEnds, opening <+: after) →
      Rejected (Entity.shortName entity) before block →
      result (header ++ before ++ block ++ after) entity =
        result (header ++ before ++ after) entity := by
  intro h
  have hsame := h untaggedHeader untaggedHeaderParts methodDetail hiddenBlock shownBlock
    ⟨"p.X".toList, [], by decide +kernel⟩ hiddenBlock_isMemberBlock
    (.inr ⟨memberHeading, by decide, by
      rw [shownBlock, List.append_assoc]
      exact List.prefix_append _ _⟩)
    (.refused ⟨"private void hidden()".toList, 20, 47⟩ .priv rfl (by decide +kernel))
  have hcount := congrArg methodCount hsame
  exact absurd hcount (by decide +kernel)

end ClassSkeleton.ClassPage
