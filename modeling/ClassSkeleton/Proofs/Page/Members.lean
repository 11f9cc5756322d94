import ClassSkeleton.Page.Reading
import ClassSkeleton.Proofs.Page.Sections

/-!
The detail sections as they are written: each has its heading and its member blocks, each block
its declaration and its prose. What stands between them is free of the marks by which they are
told apart. Reading such sections gives back the members of every one of them, in order.
-/
namespace ClassSkeleton.ClassPage

open Text Markup

/-- A member as it is written under its heading. -/
structure Block where
  lead : Text
  declaration : Text
  gap : Text
  prose : Text

namespace Block

def body (block : Block) : Text :=
  block.lead ++ declarationOpening ++ (block.declaration ++ declarationClosing ++
    (block.gap ++ proseMark ++ block.prose))

def text (block : Block) : Text := memberHeading ++ block.body

/-- The marks of the block stand where they are read. -/
structure IsProper (block : Block) : Prop where
  heading : ¬ memberHeading <:+: block.body
  opening : ¬ declarationOpening <:+: block.lead
  closing : ¬ declarationClosing <:+: block.declaration
  prose : ¬ proseMark <:+: block.gap

/-- The member that the block describes, unless its declaration is refused. -/
def member? (self : Text) (block : Block) : Option Member :=
  match Declaration.signature self block.declaration with
  | .error _ => none
  | .ok signature =>
    some
      { signature
        visibility := Declaration.visibility block.declaration
        isAbstract := (splitOn [' '] signature).contains "abstract".toList
        documentation := reflow (proseMark ++ block.prose) }

end Block

/-- A detail section as it is written under its heading. -/
structure MemberSection where
  lead : Text
  blocks : List Block

namespace MemberSection

def body (members : MemberSection) : Text := members.lead ++ members.blocks.flatMap Block.text

structure IsProper (members : MemberSection) : Prop where
  lead : ¬ memberHeading <:+: members.lead
  blocks : ∀ block ∈ members.blocks, block.IsProper
  ends : ∀ mark ∈ sectionEnds, ¬ mark <:+: members.body

end MemberSection

/-- The members of a section that may be absent. -/
def membersOf (self : Text) (members : Option MemberSection) : List Member :=
  (members.elim [] (·.blocks)).filterMap (Block.member? self)

def sectionsText (sections : List (Text × Option MemberSection)) : Text :=
  sections.flatMap fun part => part.2.elim [] fun members => part.1 ++ members.body

theorem sectionsText_opens {sections : List (Text × Option MemberSection)}
    (hheadings : ∀ part ∈ sections, part.1 ∈ detailHeadings) (after : Text) :
    ∃ mark ∈ sectionEnds, ∃ rest,
      sectionsText sections ++ (classDataEnd ++ after) = mark ++ rest := by
  induction sections with
  | nil => exact ⟨classDataEnd, by decide, after, rfl⟩
  | cons part sections ih =>
    obtain ⟨heading, members⟩ := part
    cases members with
    | none => exact ih fun part hmem => hheadings part (List.mem_cons_of_mem _ hmem)
    | some members =>
      refine ⟨heading, (mem_sectionEnds (hheadings _ List.mem_cons_self)).1,
        members.body ++ (sectionsText sections ++ (classDataEnd ++ after)), ?_⟩
      simp only [sectionsText, List.flatMap_cons, Option.elim_some, List.append_assoc]

theorem sectionOf_sectionsText {heading : Text} {members : MemberSection}
    {sections : List (Text × Option MemberSection)}
    (hheadings : ∀ part ∈ sections, part.1 ∈ detailHeadings)
    (hproper : ∀ part ∈ sections, ∀ members, part.2 = some members → members.IsProper)
    (hnodup : (sections.map (·.1)).Nodup) (hmem : (heading, some members) ∈ sections)
    (after : Text) :
    sectionOf heading (sectionsText sections ++ (classDataEnd ++ after)) = some members.body := by
  have hheading := hheadings _ hmem
  induction sections with
  | nil => exact absurd hmem List.not_mem_nil
  | cons part sections ih =>
    have hrest : ∀ part ∈ sections, part.1 ∈ detailHeadings :=
      fun part hpart => hheadings part (List.mem_cons_of_mem _ hpart)
    obtain ⟨mark, hmark, rest, hopens⟩ := sectionsText_opens hrest after
    have hpasses : ∀ other ∈ sectionEnds, ∀ found : MemberSection, found.IsProper →
        Passes other found.body (sectionsText sections ++ (classDataEnd ++ after)) := by
      intro other hother found hfound
      rw [hopens]
      exact passes_of_apart rest (hfound.ends other hother) (apart_sectionEnds hother hmark)
    rw [List.map_cons, List.nodup_cons] at hnodup
    rcases List.mem_cons.mp hmem with rfl | hlater
    · have hfirst := hproper _ List.mem_cons_self members rfl
      have hbody : upTo sectionEnds
          (members.body ++ (sectionsText sections ++ (classDataEnd ++ after))) = members.body := by
        rw [upTo_of_passes fun other hother => hpasses other hother members hfirst, hopens,
          upTo_mark hmark, List.append_nil]
      simp only [sectionsText, List.flatMap_cons, Option.elim_some, List.append_assoc] at hbody ⊢
      rw [sectionOf, breakAt?_mark (mem_sectionEnds hheading).2]
      exact congrArg some hbody
    · have hskip := ih hrest (fun part hpart => hproper part (List.mem_cons_of_mem _ hpart))
        hnodup.2 hlater
      obtain ⟨other, found⟩ := part
      cases found with
      | none => exact hskip
      | some found =>
        have hne : heading ≠ other := by
          rintro rfl
          exact hnodup.1 (List.mem_map.mpr ⟨_, hlater, rfl⟩)
        have hclear := clear_detailHeadings hheading (hheadings _ List.mem_cons_self) hne
        have hfound := hproper _ List.mem_cons_self found rfl
        rw [← hskip]
        simp only [sectionsText, List.flatMap_cons, Option.elim_some, List.append_assoc]
        rw [sectionOf_of_passes (passes_of_clear hclear _)]
        apply sectionOf_of_passes
        have hpass := hpasses heading (mem_sectionEnds hheading).1 found hfound
        simpa only [sectionsText, List.append_assoc] using hpass

theorem blocksOf_body {members : MemberSection} (h : members.IsProper) :
    blocksOf members.body = members.blocks.map Block.text := by
  have hsplit : splitOn memberHeading
      (members.lead ++ (members.blocks.map Block.body).flatMap (memberHeading ++ ·)) =
      members.lead :: members.blocks.map Block.body := by
    apply splitOn_flatMap (by decide) (by decide) h.lead
    intro piece hmem
    obtain ⟨block, hblock, rfl⟩ := List.mem_map.mp hmem
    exact (h.blocks block hblock).heading
  rw [List.flatMap_map] at hsplit
  rw [blocksOf, MemberSection.body]
  change ((splitOn memberHeading (members.lead ++
    members.blocks.flatMap fun block => memberHeading ++ block.body)).tail).map _ = _
  rw [hsplit, List.tail_cons, List.map_map]
  rfl

theorem readBlock_text {block : Block} (h : block.IsProper) (proseNeeded : Bool) (self : Text) :
    readBlock proseNeeded self block.text =
      .ok (readMember self block.declaration (reflow (proseMark ++ block.prose))) := by
  have hopening : Passes declarationOpening (memberHeading ++ block.lead)
      (declarationOpening ++ (block.declaration ++ declarationClosing ++
        (block.gap ++ proseMark ++ block.prose))) := by
    rw [passes_append]
    exact ⟨passes_of_clear (by decide) _, passes_of_apart _ h.opening (by decide)⟩
  have hclosing : Passes declarationClosing block.declaration
      (declarationClosing ++ (block.gap ++ proseMark ++ block.prose)) :=
    passes_of_apart _ h.closing (by decide)
  have hprose : Passes proseMark block.gap (proseMark ++ block.prose) :=
    passes_of_apart _ h.prose (by decide)
  have hextract := extractBetween_width [] (block.gap ++ proseMark ++ block.prose) (by decide)
    (by decide) hopening hclosing
  have htext : block.text = [] ++ (memberHeading ++ block.lead ++ declarationOpening ++
      (block.declaration ++ declarationClosing ++ (block.gap ++ proseMark ++ block.prose))) := by
    simp [Block.text, Block.body]
  have hafter : block.text = ([] ++ (memberHeading ++ block.lead) ++ declarationOpening ++
      block.declaration ++ declarationClosing) ++ (block.gap ++ proseMark ++ block.prose) := by
    simp [Block.text, Block.body]
  have hlocate : locate block.text proseMark (width ([] ++ (memberHeading ++ block.lead) ++
      declarationOpening ++ block.declaration ++ declarationClosing)) =
      some (width (([] ++ (memberHeading ++ block.lead) ++ declarationOpening ++
        block.declaration ++ declarationClosing) ++ block.gap)) :=
    locate_of_passes hafter (by decide) hprose
  have hcut := cut_width (([] ++ (memberHeading ++ block.lead) ++ declarationOpening ++
    block.declaration ++ declarationClosing) ++ block.gap) (proseMark ++ block.prose) []
  have hwhole : block.text = (([] ++ (memberHeading ++ block.lead) ++ declarationOpening ++
      block.declaration ++ declarationClosing) ++ block.gap) ++
        ((proseMark ++ block.prose) ++ []) := by
    rw [hafter]
    simp
  rw [width_nil, ← htext] at hextract
  rw [readBlock, hextract]
  simp only
  rw [hlocate]
  simp only [bind, Except.bind, pure, Except.pure]
  have hend : width block.text =
      width ((([] ++ (memberHeading ++ block.lead) ++ declarationOpening ++
      block.declaration ++ declarationClosing) ++ block.gap) ++ (proseMark ++ block.prose)) := by
    rw [hwhole, List.append_nil]
  rw [← hwhole, ← hend] at hcut
  rw [hcut]

theorem member?_readMember (self : Text) (block : Block) :
    (readMember self block.declaration (reflow (proseMark ++ block.prose))).member? =
      block.member? self := by
  rw [readMember, Block.member?]
  cases Declaration.signature self block.declaration <;> rfl

theorem mapM_readBlock {blocks : List Block} (h : ∀ block ∈ blocks, block.IsProper)
    (proseNeeded : Bool) (self : Text) :
    ∃ readings, (blocks.map Block.text).mapM (readBlock proseNeeded self) = .ok readings ∧
      readings.filterMap BlockReading.member? = blocks.filterMap (Block.member? self) := by
  induction blocks with
  | nil => exact ⟨[], rfl, rfl⟩
  | cons block blocks ih =>
    obtain ⟨readings, hreadings, hmembers⟩ := ih fun other hmem =>
      h other (List.mem_cons_of_mem _ hmem)
    refine ⟨readMember self block.declaration (reflow (proseMark ++ block.prose)) :: readings,
      ?_, ?_⟩
    · rw [List.map_cons, List.mapM_cons, readBlock_text (h block List.mem_cons_self), hreadings]
      rfl
    · rw [List.filterMap_cons, List.filterMap_cons, member?_readMember, hmembers]

end ClassSkeleton.ClassPage
