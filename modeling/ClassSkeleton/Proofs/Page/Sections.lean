import ClassSkeleton.Page.Detail
import ClassSkeleton.Proofs.Markup.Offset
import Mathlib.Data.List.Basic

/-!
Sections and blocks without offsets. The section under a heading is what stands between the first
such heading and the first mark that can end it, and the blocks of a section are its cuts at the
member headings. Both depend on nothing but the text from the position on at which they are
looked for.
-/
namespace ClassSkeleton.ClassPage

open Text Markup

/-- The marks that can end a section. -/
def sectionEnds : List Text := [fieldDetail, constructorDetail, methodDetail, classDataEnd]

/-- The headings that open a detail section. -/
def detailHeadings : List Text := [fieldDetail, constructorDetail, methodDetail]

/-- No detail section is opened in the text. -/
def FreeOfDetail (text : Text) : Prop := ∀ heading ∈ detailHeadings, ¬ heading <:+: text

instance (text : Text) : Decidable (FreeOfDetail text) :=
  inferInstanceAs (Decidable (∀ heading ∈ detailHeadings, ¬ heading <:+: text))

theorem apart_sectionEnds {mark next : Text} (hmark : mark ∈ sectionEnds)
    (hnext : next ∈ sectionEnds) : Apart mark next := by
  have hall : ∀ mark ∈ sectionEnds, ∀ next ∈ sectionEnds, Apart mark next := by decide +kernel
  exact hall mark hmark next hnext

theorem clear_detailHeadings {heading other : Text} (hheading : heading ∈ detailHeadings)
    (hother : other ∈ detailHeadings) (hne : heading ≠ other) : Clear heading other := by
  have hall : ∀ heading ∈ detailHeadings, ∀ other ∈ detailHeadings, heading ≠ other →
      Clear heading other := by decide +kernel
  exact hall heading hheading other hother hne

theorem mem_sectionEnds {heading : Text} (h : heading ∈ detailHeadings) :
    heading ∈ sectionEnds ∧ heading ≠ [] := by
  have hall : ∀ heading ∈ detailHeadings, heading ∈ sectionEnds ∧ heading ≠ [] := by
    decide +kernel
  exact hall heading h

/-- The text before the first place at which one of the marks stands. -/
def upTo (marks : List Text) : Text → Text
  | [] => []
  | c :: rest =>
    if marks.any fun mark => mark.isPrefixOf (c :: rest) then [] else c :: upTo marks rest

def sectionOf (heading text : Text) : Option Text :=
  (breakAt? heading text).map fun parts => upTo sectionEnds parts.2

def blocksOf (detail : Text) : List Text :=
  (splitOn memberHeading detail).tail.map (memberHeading ++ ·)

theorem upTo_isPrefix (marks : List Text) (text : Text) : upTo marks text <+: text := by
  induction text with
  | nil => exact List.prefix_refl []
  | cons c rest ih =>
    rw [upTo]
    split
    · exact List.nil_prefix
    · exact (List.prefix_cons_inj c).mpr ih

theorem upTo_of_passes {marks : List Text} {front rest : Text}
    (h : ∀ mark ∈ marks, Passes mark front rest) :
    upTo marks (front ++ rest) = front ++ upTo marks rest := by
  induction front with
  | nil => rfl
  | cons c front ih =>
    have hnone : ¬ (marks.any fun mark => mark.isPrefixOf (c :: (front ++ rest))) = true := by
      rw [List.any_eq_true]
      rintro ⟨mark, hmem, hlead⟩
      rw [List.isPrefixOf_iff_prefix] at hlead
      exact ((passes_cons mark front rest c).mp (h mark hmem)).1 hlead
    rw [List.cons_append, upTo, if_neg hnone,
      ih fun mark hmem => ((passes_cons mark front rest c).mp (h mark hmem)).2, List.cons_append]

theorem upTo_mark {marks : List Text} {mark : Text} (hmem : mark ∈ marks) (rest : Text) :
    upTo marks (mark ++ rest) = [] := by
  cases hcons : mark ++ rest with
  | nil => rfl
  | cons c tail =>
    rw [upTo, if_pos]
    rw [List.any_eq_true]
    refine ⟨mark, hmem, ?_⟩
    rw [List.isPrefixOf_iff_prefix, ← hcons]
    exact List.prefix_append mark rest

theorem upTo_append {marks : List Text} {mark : Text} (hmem : mark ∈ marks)
    (hlen : ∀ other ∈ marks, other.length ≤ mark.length) (before after : Text) :
    upTo marks (before ++ mark ++ after) = upTo marks (before ++ mark) := by
  induction before with
  | nil =>
    have hself := upTo_mark hmem []
    rw [List.append_nil] at hself
    rw [List.nil_append, upTo_mark hmem, hself]
  | cons c before ih =>
    have hany : (marks.any fun other => other.isPrefixOf (c :: (before ++ mark ++ after))) =
        marks.any fun other => other.isPrefixOf (c :: (before ++ mark)) := by
      rw [Bool.eq_iff_iff, List.any_eq_true, List.any_eq_true]
      have hwhole : c :: (before ++ mark) <+: c :: (before ++ mark ++ after) :=
        (List.prefix_cons_inj c).mpr (List.prefix_append _ after)
      constructor
      · rintro ⟨other, hother, hlead⟩
        rw [List.isPrefixOf_iff_prefix] at hlead
        refine ⟨other, hother, List.isPrefixOf_iff_prefix.mpr ?_⟩
        apply List.prefix_of_prefix_length_le hlead hwhole
        have := hlen other hother
        simp only [List.length_cons, List.length_append]
        omega
      · rintro ⟨other, hother, hlead⟩
        rw [List.isPrefixOf_iff_prefix] at hlead
        exact ⟨other, hother, List.isPrefixOf_iff_prefix.mpr (hlead.trans hwhole)⟩
    rw [List.cons_append, List.cons_append, upTo, hany, ih, upTo]

theorem upTo_of_occurs {marks : List Text} {rest : Text}
    (hrest : ∀ mark ∈ marks, ∀ back, back ≠ [] → mark <+: back ++ rest → mark <+: back)
    {mark text : Text} (hmem : mark ∈ marks) (hmark : mark ≠ []) (hocc : mark <:+: text) :
    upTo marks (text ++ rest) = upTo marks text := by
  induction text with
  | nil => exact absurd (List.infix_nil.mp hocc) hmark
  | cons c text ih =>
    have hany : (marks.any fun other => other.isPrefixOf (c :: (text ++ rest))) =
        marks.any fun other => other.isPrefixOf (c :: text) := by
      rw [Bool.eq_iff_iff, List.any_eq_true, List.any_eq_true]
      constructor
      · rintro ⟨other, hother, hlead⟩
        rw [List.isPrefixOf_iff_prefix] at hlead
        exact ⟨other, hother,
          List.isPrefixOf_iff_prefix.mpr (hrest other hother (c :: text) (by simp) hlead)⟩
      · rintro ⟨other, hother, hlead⟩
        rw [List.isPrefixOf_iff_prefix] at hlead
        exact ⟨other, hother, List.isPrefixOf_iff_prefix.mpr
          (hlead.trans (List.prefix_append _ rest))⟩
    rw [List.cons_append, upTo, upTo, hany]
    split
    · rfl
    · rename_i hnone
      rcases List.infix_cons_iff.mp hocc with hlead | hlater
      · exfalso
        apply hnone
        rw [List.any_eq_true]
        exact ⟨mark, hmem, List.isPrefixOf_iff_prefix.mpr hlead⟩
      · rw [ih hlater]

theorem min_findFrom (marks : List Text) (hmarks : ∀ mark ∈ marks, mark ≠ []) (position : Nat)
    (text : Text) :
    (marks.filterMap fun mark => findFrom mark position text).min?.getD (position + width text) =
      position + width (upTo marks text) := by
  induction text generalizing position with
  | nil =>
    have hnone : (marks.filterMap fun mark => findFrom mark position []) = [] := by
      rw [List.filterMap_eq_nil_iff]
      intro mark hmem
      rw [findFrom, if_neg (by simpa using hmarks mark hmem)]
    rw [hnone]
    rfl
  | cons c rest ih =>
    rw [upTo]
    split
    · rename_i hany
      obtain ⟨mark, hmem, hlead⟩ := List.any_eq_true.mp hany
      have hmin : (marks.filterMap fun mark => findFrom mark position (c :: rest)).min? =
          some position := by
        rw [List.min?_eq_some_iff]
        constructor
        · rw [List.mem_filterMap]
          exact ⟨mark, hmem, by rw [findFrom, if_pos hlead]⟩
        · intro place hplace
          obtain ⟨other, -, hfind⟩ := List.mem_filterMap.mp hplace
          obtain ⟨before, after, -, rfl⟩ := eq_of_findFrom hfind
          omega
      rw [hmin]
      rfl
    · rename_i hany
      have hstep : (marks.filterMap fun mark => findFrom mark position (c :: rest)) =
          marks.filterMap fun mark => findFrom mark (position + c.utf8Size) rest := by
        apply List.filterMap_congr
        intro mark hmem
        rw [findFrom, if_neg]
        intro hlead
        exact hany (List.any_eq_true.mpr ⟨mark, hmem, hlead⟩)
      rw [hstep, width_cons, ← Nat.add_assoc, ih, width_cons, Nat.add_assoc]

theorem sectionOf_of_passes {heading front rest : Text} (h : Passes heading front rest) :
    sectionOf heading (front ++ rest) = sectionOf heading rest := by
  rw [sectionOf, sectionOf, breakAt?_of_passes h, Option.map_map]
  rfl

/-- No mark of a section reaches into the text from before it. -/
def Sealed (rest : Text) : Prop :=
  ∀ mark ∈ sectionEnds, ∀ back, back ≠ [] → mark <+: back ++ rest → mark <+: back

theorem sealed_nil : Sealed [] := by
  intro mark _ back _ hlead
  rwa [List.append_nil] at hlead

theorem sealed_of_opens {opening rest : Text} (h : opening ∈ memberHeading :: sectionEnds)
    (hopens : opening <+: rest) : Sealed rest := by
  obtain ⟨tail, rfl⟩ := hopens
  intro mark hmark back hback
  have hall : ∀ left ∈ sectionEnds, ∀ right ∈ memberHeading :: sectionEnds, Apart left right := by
    decide +kernel
  exact prefix_of_apart tail hback (hall mark hmark opening h)

theorem Sealed.passes {rest : Text} (h : Sealed rest) {mark gap : Text} (hmark : mark ∈ sectionEnds)
    (hgap : ¬ mark <:+: gap) : Passes mark gap rest := by
  intro front back heq hne hlead
  apply hgap
  rw [heq]
  exact (h mark hmark back hne hlead).isInfix.trans (List.suffix_append front back).isInfix

theorem detailRange?_eq (front rest heading : Text) :
    detailRange? (front ++ rest) heading (width front) =
      (breakAt? heading rest).map fun parts => (width (front ++ parts.1 ++ heading),
        width (front ++ parts.1 ++ heading ++ upTo sectionEnds parts.2)) := by
  rw [detailRange?, locate_width]
  cases hbreak : breakAt? heading rest with
  | none => rfl
  | some parts =>
    obtain ⟨before, after⟩ := parts
    have hpage : front ++ rest = (front ++ before ++ heading) ++ after := by
      rw [eq_of_breakAt? hbreak]
      simp
    have hfirst : width (front ++ before) + width heading = width (front ++ before ++ heading) := by
      rw [width_append _ heading]
    simp only [Option.map_some, hpage, hfirst]
    have hends : ([fieldDetail, constructorDetail, methodDetail, classDataEnd].filterMap
        fun mark => locate (front ++ before ++ heading ++ after) mark
          (width (front ++ before ++ heading))).min?.getD
          (width (front ++ before ++ heading ++ after)) =
        width (front ++ before ++ heading ++ upTo sectionEnds after) := by
      rw [width_append _ after, width_append _ (upTo sectionEnds after),
        ← min_findFrom sectionEnds (by decide)]
      simp only [locate, dropBytes?_width, Option.bind_some]
      rfl
    rw [hends]

theorem detailSection_eq (front rest heading : Text) :
    detailSection (front ++ rest) heading (width front) = .ok (sectionOf heading rest) := by
  rw [detailSection, detailRange?_eq, sectionOf]
  cases hbreak : breakAt? heading rest with
  | none => rfl
  | some parts =>
    obtain ⟨before, after⟩ := parts
    obtain ⟨back, hback⟩ := upTo_isPrefix sectionEnds after
    have hpage : front ++ rest = (front ++ before ++ heading) ++
        (upTo sectionEnds after ++ back) := by
      rw [hback, eq_of_breakAt? hbreak]
      simp
    have hcut := cut_width (front ++ before ++ heading) (upTo sectionEnds after) back
    rw [← hpage] at hcut
    simp only [Option.map_some, hcut]
    rfl

theorem blocksOf_append (front rest : Text) :
    blocksOf (front ++ (memberHeading ++ rest)) =
      blocksOf front ++ blocksOf (memberHeading ++ rest) := by
  have hmark : memberHeading ≠ [] := by decide
  have hself : Apart memberHeading memberHeading := by decide
  have hblock := splitOn_append_mark hmark hself [] rest
  obtain ⟨first, others, hfront⟩ :=
    List.exists_cons_of_ne_nil (splitFrom_ne_nil memberHeading 0 front)
  rw [← splitOn] at hfront
  rw [blocksOf, blocksOf, blocksOf, splitOn_append_mark hmark hself, hfront]
  rw [List.nil_append] at hblock
  rw [hblock, splitOn_eq hmark []]
  simp [breakAt?, memberHeading]

theorem blocksOf_heading {body : Text} (h : ¬ memberHeading <:+: body) :
    blocksOf (memberHeading ++ body) = [memberHeading ++ body] := by
  have hmark : memberHeading ≠ [] := by decide
  rw [blocksOf, splitOn_eq hmark, breakAt?_mark hmark]
  simp only [List.tail_cons]
  rw [splitOn_eq hmark, (breakAt?_eq_none_iff hmark body).mpr h]
  rfl

theorem blocksFrom_of_none (front : Text) {rest : Text} (h : breakAt? memberHeading rest = none) :
    blocksFrom (front ++ rest) (width front) = .ok [] := by
  have hnone : locate (front ++ rest) memberHeading (width front) = none := by
    rw [locate_width, h]
    rfl
  rw [blocksFrom]
  split
  · rfl
  · rename_i place hplace
    rw [hnone] at hplace
    cases hplace

theorem blocksFrom_of_cut {front rest before after : Text} (block left : Text)
    (hbreak : breakAt? memberHeading rest = some (before, after))
    (hrest : rest = before ++ (block ++ left))
    (hnext : (locate (front ++ rest) memberHeading (width (front ++ before ++ memberHeading))).getD
      (width (front ++ rest)) = width (front ++ before ++ block)) :
    blocksFrom (front ++ rest) (width front) =
      (blocksFrom ((front ++ before ++ block) ++ left) (width (front ++ before ++ block))).map
        (block :: ·) := by
  have hplace : locate (front ++ rest) memberHeading (width front) =
      some (width (front ++ before)) := by
    rw [locate_width, hbreak]
    rfl
  have hcut := cut_width (front ++ before) block left
  rw [List.append_assoc front before, ← hrest] at hcut
  rw [blocksFrom]
  split
  · rename_i hnone
    rw [hplace] at hnone
    cases hnone
  · rename_i place hplace'
    obtain rfl := Option.some.inj (hplace.symm.trans hplace')
    rw [← width_append, hnext]
    have hpage : (front ++ before ++ block) ++ left = front ++ rest := by
      rw [hrest]
      simp
    rw [hpage]
    simp only [hcut, bind, Except.bind]
    cases blocksFrom (front ++ rest) (width (front ++ before ++ block)) <;> rfl

theorem blocksOf_of_break {rest before after : Text}
    (h : breakAt? memberHeading rest = some (before, after)) :
    blocksOf rest = blocksOf (memberHeading ++ after) := by
  have hmark : memberHeading ≠ [] := by decide
  rw [blocksOf, blocksOf, splitOn_eq hmark rest, splitOn_eq hmark (memberHeading ++ after), h,
    breakAt?_mark hmark]
  rfl

theorem blocksFrom_eq (front rest : Text) :
    blocksFrom (front ++ rest) (width front) = .ok (blocksOf rest) := by
  have hmark : memberHeading ≠ [] := by decide
  induction hlength : rest.length using Nat.strongRecOn generalizing front rest with
  | ind length ih =>
  subst hlength
  cases hbreak : breakAt? memberHeading rest with
  | none =>
    rw [blocksFrom_of_none front hbreak, blocksOf, splitOn_eq hmark, hbreak]
    rfl
  | some parts =>
    obtain ⟨before, after⟩ := parts
    have hrest := eq_of_breakAt? hbreak
    have hpage : front ++ rest = (front ++ before ++ memberHeading) ++ after := by
      rw [hrest]
      simp
    rw [blocksOf_of_break hbreak]
    cases hnext : breakAt? memberHeading after with
    | none =>
      have hlast : ¬ memberHeading <:+: after := (breakAt?_eq_none_iff hmark after).mp hnext
      rw [blocksFrom_of_cut (memberHeading ++ after) [] hbreak
        (by rw [hrest]; simp) (by rw [hpage, locate_width, hnext]; simp),
        blocksFrom_of_none _ rfl, blocksOf_heading hlast]
      rfl
    | some more =>
      obtain ⟨inner, back⟩ := more
      have hafter := eq_of_breakAt? hnext
      have hinner : ¬ memberHeading <:+: inner :=
        not_infix_of_passes hmark (passes_of_breakAt? hnext)
      have hshort : (memberHeading ++ back).length < rest.length := by
        have hfour : memberHeading.length = 4 := by decide
        rw [hrest, hafter]
        simp only [List.length_append, hfour]
        omega
      rw [blocksFrom_of_cut (memberHeading ++ inner) (memberHeading ++ back) hbreak
        (by rw [hrest, hafter]; simp) (by rw [hpage, locate_width, hnext]; simp),
        ih _ hshort _ _ rfl, hafter, List.append_assoc, ← List.append_assoc memberHeading,
        blocksOf_append, blocksOf_heading hinner]
      rfl

theorem memberBlocks_eq (detail : Text) : memberBlocks detail = .ok (blocksOf detail) :=
  blocksFrom_eq [] detail

theorem readMember_eq_kept_iff (self fragment documentation : Text) (member : Member) :
    readMember self fragment documentation = .kept member ↔
      ∃ signature, Declaration.signature self fragment = .ok signature ∧
        member = ⟨signature, Declaration.visibility fragment,
          (splitOn [' '] signature).contains "abstract".toList, documentation⟩ := by
  rw [readMember]
  cases Declaration.signature self fragment with
  | error refusal => simp
  | ok signature => simp [eq_comm]

/-- What a block can be read as. Its first declaration decides, with the prose behind it. -/
theorem readBlock_cases (proseNeeded : Bool) (self block : Text) :
    ((∀ declaration,
        extractBetween block declarationOpening declarationClosing 0 ≠ .ok declaration) ∧
      readBlock proseNeeded self block = .ok .withoutDeclaration) ∨
    ∃ declaration,
      extractBetween block declarationOpening declarationClosing 0 = .ok declaration ∧
      ((locate block proseMark declaration.after = none ∧ proseNeeded = true ∧
          readBlock proseNeeded self block = .ok (.undocumented (plainText declaration.inner))) ∨
        (locate block proseMark declaration.after = none ∧ proseNeeded = false ∧
          readBlock proseNeeded self block = .ok (readMember self declaration.inner [])) ∨
        ∃ place prose, locate block proseMark declaration.after = some place ∧
          cut block place (width block) = .ok prose ∧
          readBlock proseNeeded self block =
            .ok (readMember self declaration.inner (reflow prose))) := by
  rw [readBlock]
  cases hdeclaration : extractBetween block declarationOpening declarationClosing 0 with
  | error e =>
    obtain ⟨mark, rfl⟩ := missing_of_extractBetween hdeclaration
    refine .inl ⟨fun declaration hok => ?_, rfl⟩
    cases hok
  | ok declaration =>
    refine .inr ⟨declaration, rfl, ?_⟩
    simp only []
    cases hprose : locate block proseMark declaration.after with
    | none =>
      cases proseNeeded with
      | true => exact .inl ⟨rfl, rfl, rfl⟩
      | false => exact .inr (.inl ⟨rfl, rfl, rfl⟩)
    | some place =>
      obtain ⟨prose, hcut⟩ := exists_cut_to_end hprose
      exact .inr (.inr ⟨place, prose, rfl, hcut, by simp only [hcut]; rfl⟩)

theorem kept_of_readMember {self fragment documentation : Text} {member : Member}
    (h : readMember self fragment documentation = .kept member) :
    Declaration.signature self fragment = .ok member.signature ∧
      member.visibility = Declaration.visibility fragment ∧
      member.documentation = documentation := by
  obtain ⟨signature, hsignature, rfl⟩ := (readMember_eq_kept_iff ..).mp h
  dsimp only
  exact ⟨hsignature, rfl, rfl⟩

/-- A kept member is read from the first declaration of its block, with prose of the block or
none. -/
theorem kept_of_readBlock {proseNeeded : Bool} {self block : Text} {member : Member}
    (h : readBlock proseNeeded self block = .ok (.kept member)) :
    ∃ declaration,
      extractBetween block declarationOpening declarationClosing 0 = .ok declaration ∧
      Declaration.signature self declaration.inner = .ok member.signature ∧
      member.visibility = Declaration.visibility declaration.inner ∧
      (member.documentation = [] ∨ ∃ place prose, cut block place (width block) = .ok prose ∧
        member.documentation = reflow prose) := by
  rcases readBlock_cases proseNeeded self block with ⟨-, hread⟩ |
    ⟨declaration, hdeclaration, ⟨-, -, hread⟩ | ⟨-, -, hread⟩ | ⟨place, prose, -, hcut, hread⟩⟩
  · cases hread.symm.trans h
  · cases hread.symm.trans h
  · obtain ⟨hsignature, hvisibility, hnone⟩ :=
      kept_of_readMember (Except.ok.inj (hread.symm.trans h))
    exact ⟨declaration, hdeclaration, hsignature, hvisibility, .inl hnone⟩
  · obtain ⟨hsignature, hvisibility, hprose⟩ :=
      kept_of_readMember (Except.ok.inj (hread.symm.trans h))
    exact ⟨declaration, hdeclaration, hsignature, hvisibility, .inr ⟨place, prose, hcut, hprose⟩⟩

/-- The readings of a section depend on its text alone. -/
theorem readSection_eq (front rest heading self : Text) (proseNeeded : Bool) :
    readSection (front ++ rest) heading proseNeeded self (width front) =
      match sectionOf heading rest with
      | none => .ok []
      | some detail => (blocksOf detail).mapM (readBlock proseNeeded self) := by
  rw [readSection, detailSection_eq]
  cases sectionOf heading rest with
  | none => rfl
  | some detail =>
    simp only [bind, Except.bind]
    rw [memberBlocks_eq]

end ClassSkeleton.ClassPage
