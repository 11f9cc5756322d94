import ClassSkeleton.Proofs.Page.Required
import Mathlib.Data.List.Perm.Subperm

/-!
Which parts of a page the members come from. The three detail sections are looked for from the same
place, each by itself, and yet no two of them overlap: where one heading stands, the section under
another ends. The blocks of a section lie one behind the other and fill it from its first member
heading on. So each member has a block of its own, and there are no more members than member
headings behind the class declaration.
-/
namespace ClassSkeleton

namespace Text

/-- The places at which a mark stands in a text that begins at `place`. -/
def placesOf (mark : Text) (place : Nat) : Text → List Nat
  | [] => []
  | c :: rest =>
    if mark.isPrefixOf (c :: rest) then place :: placesOf mark (place + c.utf8Size) rest
    else placesOf mark (place + c.utf8Size) rest

theorem mem_placesOf {mark : Text} (hmark : mark ≠ []) (place : Nat) (front rest : Text) :
    place + width front ∈ placesOf mark place (front ++ (mark ++ rest)) := by
  induction front generalizing place with
  | nil =>
    obtain ⟨c, tail, rfl⟩ := List.exists_cons_of_ne_nil hmark
    have hlead : (c :: tail).isPrefixOf (c :: (tail ++ rest)) = true :=
      List.isPrefixOf_iff_prefix.mpr (List.prefix_append (c :: tail) rest)
    rw [List.nil_append, List.cons_append, placesOf, if_pos hlead]
    exact List.mem_cons_self
  | cons c front ih =>
    have hnext := ih (place + c.utf8Size)
    rw [Nat.add_assoc, ← width_cons] at hnext
    rw [List.cons_append, placesOf]
    split
    · exact List.mem_cons_of_mem place hnext
    · exact hnext

theorem placesOf_of_passes {mark gap rest : Text} (h : Passes mark gap rest) (place : Nat) :
    placesOf mark place (gap ++ rest) = placesOf mark (place + width gap) rest := by
  induction gap generalizing place with
  | nil => rfl
  | cons c gap ih =>
    obtain ⟨hnot, hgap⟩ := (passes_cons mark gap rest c).mp h
    rw [List.cons_append, placesOf, if_neg (by rwa [List.isPrefixOf_iff_prefix]), ih hgap,
      width_cons, Nat.add_assoc]

/-- A mark that cannot overlap with itself stands at as many places as it occurs. -/
theorem length_placesOf {mark : Text} (hmark : mark ≠ []) (hclear : Clear mark mark.tail)
    (place : Nat) (text : Text) : (placesOf mark place text).length = occurrences mark text := by
  induction hn : text.length using Nat.strongRecOn generalizing place text with
  | ind n ih =>
    cases hbreak : breakAt? mark text with
    | none =>
      have hpass :=
        placesOf_of_passes (passes_end ((breakAt?_eq_none_iff hmark text).mp hbreak)) place
      rw [List.append_nil] at hpass
      rw [hpass, occurrences, splitOn_eq hmark, hbreak]
      rfl
    | some parts =>
      obtain ⟨before, after⟩ := parts
      have hpass := passes_of_breakAt? hbreak
      obtain rfl : text = before ++ (mark ++ after) := by
        rw [eq_of_breakAt? hbreak, List.append_assoc]
      rw [placesOf_of_passes hpass, occurrences_of_passes hmark hpass, occurrences_mark hmark]
      have hpos := List.length_pos_iff.mpr hmark
      simp only [List.length_append] at hn
      have hrest := fun start => ih after.length (by omega) start after rfl
      obtain ⟨c, tail, rfl⟩ := List.exists_cons_of_ne_nil hmark
      have hlead : (c :: tail).isPrefixOf (c :: (tail ++ after)) = true :=
        List.isPrefixOf_iff_prefix.mpr (List.prefix_append (c :: tail) after)
      have htail : Passes (c :: tail) tail after := passes_of_clear hclear after
      rw [List.cons_append, placesOf, if_pos hlead, placesOf_of_passes htail, List.length_cons,
        hrest]

theorem not_infix_of_mem_splitOn {mark text piece : Text} (hmark : mark ≠ [])
    (h : piece ∈ splitOn mark text) : ¬ mark <:+: piece := by
  induction hn : text.length using Nat.strongRecOn generalizing text with
  | ind n ih =>
    rw [splitOn_eq hmark] at h
    cases hbreak : breakAt? mark text with
    | none =>
      rw [hbreak] at h
      obtain rfl := List.mem_singleton.mp h
      exact (breakAt?_eq_none_iff hmark piece).mp hbreak
    | some parts =>
      obtain ⟨before, after⟩ := parts
      rw [hbreak] at h
      rcases List.mem_cons.mp h with rfl | h
      · exact not_infix_of_passes hmark (passes_of_breakAt? hbreak)
      · have hpos := List.length_pos_iff.mpr hmark
        rw [eq_of_breakAt? hbreak, List.length_append, List.length_append] at hn
        exact ih after.length (by omega) h rfl

theorem join_eq_flatMap (separator first : Text) (pieces : List Text) :
    join separator (first :: pieces) = first ++ pieces.flatMap (separator ++ ·) := by
  induction pieces generalizing first with
  | nil => simp [join, List.intercalate]
  | cons piece pieces ih =>
    rw [join_cons _ _ (List.cons_ne_nil _ _), ih, List.flatMap_cons, List.append_assoc,
      List.append_assoc]

end Text

namespace ClassPage

open Text Markup

section Ranges

variable {page heading other before after before' after' : Text} {start : Nat}

theorem upTo_prefix_of_mark {marks : List Text} {mark : Text} (hmem : mark ∈ marks)
    (front rest : Text) : upTo marks (front ++ (mark ++ rest)) <+: front := by
  induction front with
  | nil =>
    simp [upTo_mark hmem]
  | cons c front ih =>
    rw [List.cons_append, upTo]
    split
    · exact List.nil_prefix
    · exact (List.prefix_cons_inj c).mpr ih

theorem width_ne_of_headings (hheading : heading ∈ detailHeadings) (hother : other ∈ detailHeadings)
    (hne : heading ≠ other) (h : before ++ (heading ++ after) = before' ++ (other ++ after')) :
    width before ≠ width before' := by
  intro hwidth
  have hdistinct : ∀ left ∈ detailHeadings, ∀ right ∈ detailHeadings,
      left <+: right → left = right := by
    decide +kernel
  obtain ⟨gap, rfl, hrest⟩ := split_of_width_le h (Nat.le_of_eq hwidth)
  rw [width_append] at hwidth
  have hgap : width gap = 0 := by omega
  obtain rfl := eq_nil_of_width hgap
  rw [List.nil_append] at hrest
  have hlead : heading <+: other ++ after' := ⟨after, hrest⟩
  rcases List.prefix_or_prefix_of_prefix hlead (List.prefix_append other after') with hle | hle
  · exact hne (hdistinct heading hheading other hother hle)
  · exact hne (hdistinct other hother heading hheading hle).symm

theorem width_upTo_le (hheading : heading ∈ detailHeadings) (hother : other ∈ detailHeadings)
    (h : before ++ (heading ++ after) = before' ++ (other ++ after'))
    (hlt : width before < width before') :
    width (before ++ heading ++ upTo sectionEnds after) ≤ width before' := by
  obtain ⟨gap, rfl, hrest⟩ := split_of_width_le h (Nat.le_of_lt hlt)
  have hgap : gap ≠ [] := by
    rintro rfl
    rw [List.append_nil] at hlt
    exact absurd hlt (Nat.lt_irrefl _)
  have hapart := apart_sectionEnds (mem_sectionEnds hheading).1 (mem_sectionEnds hother).1
  -- the other heading does not begin inside of this one
  obtain ⟨between, rfl⟩ := prefix_of_apart after' hgap hapart ⟨after, hrest⟩
  rw [List.append_assoc, List.append_cancel_left_eq] at hrest
  obtain ⟨back, hback⟩ := upTo_prefix_of_mark (mem_sectionEnds hother).1 between after'
  have hwidth := congrArg width hback
  simp only [width_append, hrest] at hwidth ⊢
  omega

theorem exists_heading {first last : Nat}
    (h : detailRange? page heading start = some (first, last)) :
    ∃ before after, page = before ++ (heading ++ after) ∧ start ≤ width before ∧
      first = width (before ++ heading) ∧
      last = width (before ++ heading ++ upTo sectionEnds after) := by
  obtain ⟨place, hplace, -⟩ := Option.map_eq_some_iff.mp h
  obtain ⟨front, lead, tail, rfl, rfl, -⟩ := locate_eq_some_iff.mp hplace
  rw [detailRange?_eq] at h
  obtain ⟨⟨before, after⟩, hbreak, hrange⟩ := Option.map_eq_some_iff.mp h
  cases hrange
  refine ⟨front ++ before, after, ?_, ?_, rfl, rfl⟩
  · rw [eq_of_breakAt? hbreak]
    simp only [List.append_assoc]
  · rw [width_append]
    exact Nat.le_add_right _ _

/-- No two sections overlap. -/
theorem detailRange?_apart {first last first' last' : Nat} (hheading : heading ∈ detailHeadings)
    (hother : other ∈ detailHeadings) (hne : heading ≠ other)
    (h : detailRange? page heading start = some (first, last))
    (h' : detailRange? page other start = some (first', last')) :
    last ≤ first' ∨ last' ≤ first := by
  obtain ⟨before, after, hpage, -, rfl, rfl⟩ := exists_heading h
  obtain ⟨before', after', hpage', -, rfl, rfl⟩ := exists_heading h'
  have hsame := hpage.symm.trans hpage'
  rcases Nat.lt_or_gt_of_ne (width_ne_of_headings hheading hother hne hsame) with hlt | hlt
  · left
    rw [width_append before' other]
    exact Nat.le_add_right_of_le (width_upTo_le hheading hother hsame hlt)
  · right
    rw [width_append before heading]
    exact Nat.le_add_right_of_le (width_upTo_le hother hheading hsame.symm hlt)

end Ranges

section Cutting

variable {detail : Text}

theorem flatten_blocksOf (detail : Text) :
    (blocksOf detail).flatten =
      (breakAt? memberHeading detail).elim [] fun parts => memberHeading ++ parts.2 := by
  have hmark : memberHeading ≠ [] := by decide
  rw [blocksOf, splitOn_eq hmark]
  cases breakAt? memberHeading detail with
  | none => rfl
  | some parts =>
    obtain ⟨before, after⟩ := parts
    obtain ⟨first, pieces, hpieces⟩ :=
      List.exists_cons_of_ne_nil (splitFrom_ne_nil memberHeading 0 after)
    have hjoin := join_splitOn hmark after
    rw [splitOn, hpieces, join_eq_flatMap] at hjoin
    simp only [List.tail_cons, Option.elim_some]
    rw [splitOn, hpieces, ← hjoin, List.map_cons, List.flatten_cons, List.flatMap,
      List.append_assoc]

theorem exists_lead (detail : Text) : ∃ lead, detail = lead ++ (blocksOf detail).flatten := by
  obtain ⟨lead, pieces, hpieces⟩ :=
    List.exists_cons_of_ne_nil (splitFrom_ne_nil memberHeading 0 detail)
  have hmark : memberHeading ≠ [] := by decide
  have hjoin := join_splitOn hmark detail
  refine ⟨lead, ?_⟩
  rw [splitOn, hpieces, join_eq_flatMap] at hjoin
  rw [blocksOf, splitOn, hpieces, List.tail_cons, ← List.flatMap, hjoin]

theorem single_of_mem_blocksOf {block : Text} (h : block ∈ blocksOf detail) :
    memberHeading <+: block ∧ ¬ memberHeading <:+: block.tail := by
  obtain ⟨piece, hpiece, rfl⟩ := List.mem_map.mp h
  have hmark : memberHeading ≠ [] := by decide
  refine ⟨List.prefix_append memberHeading piece, ?_⟩
  have hclear : Clear memberHeading "h4>".toList := by decide
  have hnone := not_infix_of_mem_splitOn hmark (List.mem_of_mem_tail hpiece)
  exact not_infix_of_passes hmark ((passes_append memberHeading "h4>".toList piece []).mpr
    ⟨passes_of_clear hclear _, passes_end hnone⟩)

end Cutting

/-- A block of a page: the place at which it begins, and its text. -/
structure PlacedBlock where
  place : Nat
  text : Text

namespace PlacedBlock

def stop (block : PlacedBlock) : Nat := block.place + width block.text

/-- The block lies on the page at its place. It opens with a member heading and holds no other. -/
structure LiesOn (page : Text) (block : PlacedBlock) : Prop where
  cut : cut page block.place block.stop = .ok block.text
  opens : memberHeading <+: block.text
  single : ¬ memberHeading <:+: block.text.tail

def member? (proseNeeded : Bool) (self : Text) (block : PlacedBlock) : Option Member :=
  (readBlock proseNeeded self block.text).toOption.bind BlockReading.member?

end PlacedBlock

/-- Texts that lie one behind the other, from a place on. -/
def placedFrom (place : Nat) : List Text → List PlacedBlock
  | [] => []
  | text :: texts => ⟨place, text⟩ :: placedFrom (place + width text) texts

/-- The member blocks of the section under `heading`, which end where the section does. -/
def placedBlocks (page : Text) (start : Nat) (heading : Text) : List PlacedBlock :=
  match detailRange? page heading start with
  | none => []
  | some (first, last) =>
    match cut page first last >>= memberBlocks with
    | .error _ => []
    | .ok blocks => placedFrom (last - width blocks.flatten) blocks

/-- The member blocks of all sections. -/
def allBlocks (page : Text) (start : Nat) : List PlacedBlock :=
  detailHeadings.flatMap (placedBlocks page start)

section Placed

variable {page : Text} {place : Nat} {texts : List Text}

theorem map_text_placedFrom (place : Nat) (texts : List Text) :
    (placedFrom place texts).map PlacedBlock.text = texts := by
  induction texts generalizing place with
  | nil => rfl
  | cons text texts ih => rw [placedFrom, List.map_cons, ih]

theorem bounds_of_mem_placedFrom {block : PlacedBlock} (h : block ∈ placedFrom place texts) :
    place ≤ block.place ∧ block.stop ≤ place + width texts.flatten := by
  induction texts generalizing place with
  | nil => exact absurd h List.not_mem_nil
  | cons text texts ih =>
    rw [List.flatten_cons, width_append]
    rcases List.mem_cons.mp h with rfl | h
    · exact ⟨Nat.le_refl _, by simp only [PlacedBlock.stop]; omega⟩
    · have hbounds := ih h
      omega

theorem ordered_placedFrom (place : Nat) (texts : List Text) :
    (placedFrom place texts).Pairwise fun block later => block.stop ≤ later.place := by
  induction texts generalizing place with
  | nil => exact List.Pairwise.nil
  | cons text texts ih =>
    exact List.Pairwise.cons (fun later hlater => (bounds_of_mem_placedFrom hlater).1) (ih _)

theorem cut_of_mem_placedFrom {block : PlacedBlock} (front back : Text)
    (h : block ∈ placedFrom (width front) texts) :
    cut (front ++ (texts.flatten ++ back)) block.place block.stop = .ok block.text := by
  induction texts generalizing front with
  | nil => exact absurd h List.not_mem_nil
  | cons text texts ih =>
    rw [List.flatten_cons, List.append_assoc]
    rcases List.mem_cons.mp h with rfl | h
    · rw [PlacedBlock.stop, ← width_append, cut_width]
    · rw [← width_append] at h
      have hcut := ih (front ++ text) h
      rwa [List.append_assoc] at hcut

end Placed

section Sections

variable {page heading : Text} {start first last : Nat}

theorem exists_section (h : detailRange? page heading start = some (first, last)) :
    ∃ front lead detail back, page = front ++ (detail ++ back) ∧ start ≤ first ∧
      width front = first ∧ width (front ++ detail) = last ∧ cut page first last = .ok detail ∧
      detail = lead ++ (blocksOf detail).flatten ∧
      placedBlocks page start heading = placedFrom (width (front ++ lead)) (blocksOf detail) := by
  obtain ⟨before, after, rfl, hstart, rfl, rfl⟩ := exists_heading h
  obtain ⟨back, hback⟩ := upTo_isPrefix sectionEnds after
  obtain ⟨lead, hlead⟩ := exists_lead (upTo sectionEnds after)
  have hpage : before ++ (heading ++ after) =
      before ++ heading ++ (upTo sectionEnds after ++ back) := by
    rw [hback, List.append_assoc]
  have hcut : cut (before ++ (heading ++ after)) (width (before ++ heading))
      (width (before ++ heading ++ upTo sectionEnds after)) = .ok (upTo sectionEnds after) := by
    rw [hpage, cut_width]
  have hplace : width (before ++ heading ++ upTo sectionEnds after) -
      width (blocksOf (upTo sectionEnds after)).flatten = width (before ++ heading ++ lead) := by
    have hwidth := congrArg width hlead
    simp only [width_append] at hwidth ⊢
    omega
  refine ⟨before ++ heading, lead, upTo sectionEnds after, back, hpage, ?_, rfl, rfl, hcut,
    hlead, ?_⟩
  · rw [width_append]
    exact Nat.le_add_right_of_le hstart
  · rw [placedBlocks, h]
    simp only [hcut, bind, Except.bind, memberBlocks_eq, hplace]

theorem placedBlocks_of_none (h : detailRange? page heading start = none) :
    placedBlocks page start heading = [] := by
  rw [placedBlocks, h]

theorem within_of_mem_placedBlocks {block : PlacedBlock}
    (h : block ∈ placedBlocks page start heading) :
    ∃ first last, detailRange? page heading start = some (first, last) ∧ first ≤ block.place ∧
      block.stop ≤ last := by
  cases hrange : detailRange? page heading start with
  | none =>
    rw [placedBlocks_of_none hrange] at h
    exact absurd h List.not_mem_nil
  | some range =>
    obtain ⟨front, lead, detail, back, -, -, hfirst, hlast, -, hdetail, hblocks⟩ :=
      exists_section hrange
    rw [hblocks] at h
    obtain ⟨hplace, hstop⟩ := bounds_of_mem_placedFrom h
    refine ⟨range.1, range.2, rfl, ?_, ?_⟩
    · rw [width_append] at hplace
      omega
    · rwa [← width_append, List.append_assoc, ← hdetail, hlast] at hstop

theorem liesOn_of_mem_placedBlocks {block : PlacedBlock}
    (h : block ∈ placedBlocks page start heading) : start ≤ block.place ∧ block.LiesOn page := by
  obtain ⟨first, last, hrange, hplace, -⟩ := within_of_mem_placedBlocks h
  obtain ⟨front, lead, detail, back, hpage, hstart, -, -, -, hdetail, hblocks⟩ :=
    exists_section hrange
  rw [hblocks] at h
  have htext : block.text ∈ blocksOf detail := by
    rw [← map_text_placedFrom (width (front ++ lead)) (blocksOf detail)]
    exact List.mem_map_of_mem h
  obtain ⟨hopens, hsingle⟩ := single_of_mem_blocksOf htext
  have hcut := cut_of_mem_placedFrom (front ++ lead) back h
  have hwhole : (front ++ lead) ++ ((blocksOf detail).flatten ++ back) = page := by
    calc
      _ = front ++ ((lead ++ (blocksOf detail).flatten) ++ back) := by simp
      _ = page := by rw [← hdetail, hpage]
  rw [hwhole] at hcut
  exact ⟨Nat.le_trans hstart hplace, hcut, hopens, hsingle⟩

theorem ordered_placedBlocks (page heading : Text) (start : Nat) :
    (placedBlocks page start heading).Pairwise fun block later => block.stop ≤ later.place := by
  cases hrange : detailRange? page heading start with
  | none =>
    rw [placedBlocks_of_none hrange]
    exact List.Pairwise.nil
  | some range =>
    obtain ⟨front, lead, detail, -, -, -, -, -, -, -, hblocks⟩ := exists_section hrange
    rw [hblocks]
    exact ordered_placedFrom _ _

theorem apart_allBlocks (page : Text) (start : Nat) :
    (allBlocks page start).Pairwise fun block other =>
      block.stop ≤ other.place ∨ other.stop ≤ block.place := by
  have hheadings : detailHeadings.Pairwise (· ≠ ·) := by decide
  rw [allBlocks, List.pairwise_flatMap]
  refine ⟨fun heading _ => ?_, ?_⟩
  · exact (ordered_placedBlocks page heading start).imp fun hle => .inl hle
  · refine hheadings.imp_of_mem fun hheading hother hne block hblock other hother' => ?_
    obtain ⟨first, last, hrange, hplace, hstop⟩ := within_of_mem_placedBlocks hblock
    obtain ⟨first', last', hrange', hplace', hstop'⟩ := within_of_mem_placedBlocks hother'
    have hapart := detailRange?_apart hheading hother hne hrange hrange'
    omega

theorem liesOn_of_mem_allBlocks {block : PlacedBlock} (h : block ∈ allBlocks page start) :
    start ≤ block.place ∧ block.LiesOn page := by
  obtain ⟨heading, -, hblock⟩ := List.mem_flatMap.mp h
  exact liesOn_of_mem_placedBlocks hblock

/-- Where blocks begin there are member headings, each at a place of its own. -/
theorem length_allBlocks_le (front behind : Text) :
    (allBlocks (front ++ behind) (width front)).length ≤ occurrences memberHeading behind := by
  have hmark : memberHeading ≠ [] := by decide
  have hnodup : ((allBlocks (front ++ behind) (width front)).map PlacedBlock.place).Nodup := by
    rw [List.Nodup, List.pairwise_map]
    refine (apart_allBlocks _ _).imp_of_mem fun hblock hother hapart heq => ?_
    have hpos : ∀ block ∈ allBlocks (front ++ behind) (width front), block.place < block.stop := by
      intro block hblock
      obtain ⟨body, hbody⟩ := (liesOn_of_mem_allBlocks hblock).2.opens
      rw [PlacedBlock.stop, ← hbody, width_append, show width memberHeading = 4 from rfl]
      omega
    have hfirst := hpos _ hblock
    have hsecond := hpos _ hother
    omega
  have hplaces : (allBlocks (front ++ behind) (width front)).map PlacedBlock.place ⊆
      placesOf memberHeading (width front) behind := by
    intro place hplace
    obtain ⟨block, hblock, rfl⟩ := List.mem_map.mp hplace
    obtain ⟨hstart, hlies⟩ := liesOn_of_mem_allBlocks hblock
    obtain ⟨lead, back, hpage, hwidth, -⟩ := eq_of_cut hlies.cut
    obtain ⟨body, hbody⟩ := hlies.opens
    obtain ⟨gap, rfl, rfl⟩ := split_of_width_le hpage (hwidth ▸ hstart)
    rw [← hwidth, width_append, ← hbody, List.append_assoc]
    exact mem_placesOf hmark (width front) gap (body ++ back)
  have hlength := (hnodup.subperm hplaces).length_le
  rwa [List.length_map, length_placesOf hmark (by decide)] at hlength

end Sections

section Members

variable {page self : Text} {start : Nat}

theorem filterMap_mapM {ε α β γ : Type} {step : α → Except ε β} (f : β → Option γ)
    {inputs : List α} {outputs : List β} (h : inputs.mapM step = .ok outputs) :
    outputs.filterMap f = inputs.filterMap fun input => (step input).toOption.bind f := by
  induction inputs generalizing outputs with
  | nil =>
    cases h
    rfl
  | cons input inputs ih =>
    rw [List.mapM_cons] at h
    obtain ⟨first, hfirst, hrest⟩ := eq_ok_of_bind h
    obtain ⟨others, hothers, hcons⟩ := eq_ok_of_bind hrest
    cases hcons
    rw [List.filterMap_cons, List.filterMap_cons, ih hothers, hfirst]
    rfl

theorem members_of_readSection {heading : Text} {proseNeeded : Bool} {readings : List BlockReading}
    (h : readSection page heading proseNeeded self start = .ok readings) :
    readings.filterMap BlockReading.member? =
      (placedBlocks page start heading).filterMap (PlacedBlock.member? proseNeeded self) := by
  obtain ⟨found, hsection, hdetail⟩ := eq_ok_of_bind h
  rw [detailSection] at hsection
  cases hrange : detailRange? page heading start with
  | none =>
    rw [hrange] at hsection
    cases hsection
    cases hdetail
    rw [placedBlocks_of_none hrange]
    rfl
  | some range =>
    obtain ⟨front, lead, detail, -, -, -, -, -, hcut, -, hblocks⟩ := exists_section hrange
    rw [hrange] at hsection
    simp only [hcut] at hsection
    cases hsection
    simp only [memberBlocks_eq] at hdetail
    have htexts := map_text_placedFrom (width (front ++ lead)) (blocksOf detail)
    calc
      _ = (blocksOf detail).filterMap fun block =>
          (readBlock proseNeeded self block).toOption.bind BlockReading.member? :=
        filterMap_mapM BlockReading.member? hdetail
      _ = ((placedFrom (width (front ++ lead)) (blocksOf detail)).map
          PlacedBlock.text).filterMap fun block =>
            (readBlock proseNeeded self block).toOption.bind BlockReading.member? := by rw [htexts]
      _ = _ := by
        rw [List.filterMap_map, hblocks]
        rfl

/-- The members of an outline are those that the blocks behind `start` are kept as, in the order of
their sections and of the blocks in each of these, and every block is a part of the page by
itself. -/
structure StemsFrom (page shortName : Text) (start : Nat) (outline : Outline) : Prop where
  constructors : outline.constructors =
    (placedBlocks page start constructorDetail).filterMap (PlacedBlock.member? false shortName)
  methods : outline.methods =
    ((placedBlocks page start fieldDetail ++ placedBlocks page start methodDetail).filterMap
      (PlacedBlock.member? true shortName)).filter fun member => member.isCallable
  fields : outline.fields =
    ((placedBlocks page start fieldDetail ++ placedBlocks page start methodDetail).filterMap
      (PlacedBlock.member? true shortName)).filter fun member => !member.isCallable
  liesOn : ∀ block ∈ allBlocks page start, start ≤ block.place ∧ block.LiesOn page
  ordered : ∀ heading ∈ detailHeadings,
    (placedBlocks page start heading).Pairwise fun block later =>
    block.stop ≤ later.place
  apart : (allBlocks page start).Pairwise fun block other =>
    block.stop ≤ other.place ∨ other.stop ≤ block.place

theorem stemsFrom_outlineOf {entity : Entity} (front : Front) (declaration : Text) {detail : Detail}
    (h : readDetail page entity.shortName start = .ok detail) :
    StemsFrom page entity.shortName start (outlineOf entity front declaration detail) := by
  obtain ⟨fields, hfields, h⟩ := eq_ok_of_bind h
  obtain ⟨constructors, hconstructors, h⟩ := eq_ok_of_bind h
  obtain ⟨methods, hmethods, h⟩ := eq_ok_of_bind h
  cases h
  have hmembers : (Detail.mk fields constructors methods).members =
      (placedBlocks page start fieldDetail ++ placedBlocks page start methodDetail).filterMap
        (PlacedBlock.member? true entity.shortName) := by
    rw [Detail.members, List.filterMap_append, List.filterMap_append,
      members_of_readSection hfields, members_of_readSection hmethods]
  exact ⟨members_of_readSection hconstructors, by rw [outlineOf, hmembers],
    by rw [outlineOf, hmembers], fun block hblock => liesOn_of_mem_allBlocks hblock,
    fun heading _ => ordered_placedBlocks page heading start, apart_allBlocks page start⟩

theorem StemsFrom.memberCount_le {outline : Outline} (h : StemsFrom page self start outline) :
    outline.memberCount ≤ (allBlocks page start).length := by
  have hconstructors := List.length_filterMap_le (PlacedBlock.member? false self)
    (placedBlocks page start constructorDetail)
  have hothers := List.length_filterMap_le (PlacedBlock.member? true self)
    (placedBlocks page start fieldDetail ++ placedBlocks page start methodDetail)
  have hsplit := List.length_eq_length_filter_add (fun member : Member => member.isCallable)
    (l := (placedBlocks page start fieldDetail ++ placedBlocks page start methodDetail).filterMap
      (PlacedBlock.member? true self))
  rw [Outline.memberCount, h.constructors, h.methods, h.fields, allBlocks, detailHeadings]
  simp only [List.flatMap_cons, List.flatMap_nil, List.length_append, List.length_nil] at hothers ⊢
  omega

end Members

/-- No member block is read twice or cut. The sections under different headings do not overlap,
wherever they are looked for; the blocks of a section make up all of it from its first member
heading on, each under one heading; and so every member of a class stems from a block of its own,
and there are no more of them than member headings behind the class declaration. -/
theorem stemsFrom_result (page : Text) :
    (∀ start, ∀ heading ∈ detailHeadings, ∀ first last,
      detailRange? page heading start = some (first, last) →
        (∃ detail, detailSection page heading start = .ok (some detail) ∧
          cut page first last = .ok detail) ∧
        ∀ other ∈ detailHeadings, heading ≠ other → ∀ first' last',
          detailRange? page other start = some (first', last') → last ≤ first' ∨ last' ≤ first) ∧
      (∀ detail, ∃ blocks, memberBlocks detail = .ok blocks ∧
        blocks.flatten =
          ((breakAt? memberHeading detail).elim [] fun parts => memberHeading ++ parts.2) ∧
        ∀ block ∈ blocks, memberHeading <+: block ∧ ¬ memberHeading <:+: block.tail) ∧
      ∀ entity outline, result page entity = .ok (.outline outline) →
        ∃ declaration front behind, declaration? page = some declaration ∧ page = front ++ behind ∧
          width front = declaration.after ∧
          StemsFrom page entity.shortName declaration.after outline ∧
          outline.memberCount ≤ occurrences memberHeading behind := by
  refine ⟨?_, ?_, ?_⟩
  · intro start heading hheading first last hrange
    refine ⟨?_, fun other hother hne first' last' hrange' => ?_⟩
    · obtain ⟨-, -, detail, -, -, -, -, -, hcut, -⟩ := exists_section hrange
      refine ⟨detail, ?_, hcut⟩
      rw [detailSection, hrange]
      simp only [hcut]
      rfl
    · exact detailRange?_apart hheading hother hne hrange hrange'
  · intro detail
    exact ⟨blocksOf detail, memberBlocks_eq detail, flatten_blocksOf detail,
      fun block hblock => single_of_mem_blocksOf hblock⟩
  · intro entity outline h
    obtain ⟨cursor, front, declaration, detail, -, -, hfound, hextract, hdetail, rfl⟩ :=
      declaration_of_result h
    obtain ⟨lead, behind, rfl, hwidth⟩ := isSeam_of_extractBetween hextract
    have hstems := stemsFrom_outlineOf front declaration.inner hdetail
    refine ⟨declaration, lead, behind, hfound, rfl, hwidth, hstems, ?_⟩
    rw [← hwidth] at hstems
    exact hstems.memberCount_le.trans (length_allBlocks_le lead behind)

/-- A page with methods in front of the fields and once more behind them. -/
def mixedPage : Text :=
  titleMark ++ "Class Box\"><pre>class Box</pre>".toList ++
    methodDetail ++ "Both.<h4>peek</h4><pre>int peek()</pre>".toList ++ proseMark ++
      "Looks.".toList ++
    memberHeading ++ "spare</h4>".toList ++
    fieldDetail ++ "<h4>size</h4><pre>int size</pre>".toList ++ proseMark ++ "Held.".toList ++
    methodDetail ++ "<h4>gone</h4><pre>void gone()</pre>".toList ++ proseMark ++ "Goes.".toList

def mixedEntity : Entity := ⟨"p.Box".toList, [], by decide +kernel⟩

def mixedOutline : Outline where
  entity := mixedEntity
  kind := .cls
  modifiers := []
  generics := []
  superType := none
  implemented := []
  constructors := []
  methods := [⟨"int peek()".toList, .pub, false, "Looks.".toList⟩]
  fields := [⟨"int size".toList, .pub, false, "Held.".toList⟩]

theorem stemsFrom_result_mixed :
    detailRange? mixedPage methodDetail 42 = some (64, 142) ∧
      (∃ detail, detailSection mixedPage methodDetail 42 = .ok (some detail) ∧
        cut mixedPage 64 142 = .ok detail) ∧
      detailRange? mixedPage fieldDetail 42 = some (163, 219) ∧ (142 ≤ 163 ∨ 219 ≤ 64) ∧
      ∃ declaration front behind, declaration? mixedPage = some declaration ∧
        mixedPage = front ++ behind ∧ width front = declaration.after ∧
        StemsFrom mixedPage mixedEntity.shortName declaration.after mixedOutline ∧
        mixedOutline.memberCount ≤ occurrences memberHeading behind := by
  obtain ⟨hsections, -, hresult⟩ := stemsFrom_result mixedPage
  have hmethods : detailRange? mixedPage methodDetail 42 = some (64, 142) := by decide +kernel
  have hfields : detailRange? mixedPage fieldDetail 42 = some (163, 219) := by decide +kernel
  obtain ⟨hcut, hapart⟩ := hsections 42 methodDetail (by decide) 64 142 hmethods
  exact ⟨hmethods, hcut, hfields, hapart fieldDetail (by decide) (by decide) 163 219 hfields,
    hresult mixedEntity mixedOutline (by decide +kernel)⟩

end ClassPage

end ClassSkeleton
