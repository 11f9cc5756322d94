import ClassSkeleton.Proofs.Page.Header

/-!
Where documentation comes from. Every member of an outline is documented by the reflowed prose of
one part of the page, or not at all.
-/
namespace ClassSkeleton

namespace ClassPage

open Text Markup

/-- The documentation is empty, or prose that stands in the text. -/
def IsProseOf (text documentation : Text) : Prop :=
  documentation = [] ∨ ∃ prose, prose <:+: text ∧ documentation = reflow prose

theorem IsProseOf.mono {part text documentation : Text} (h : IsProseOf part documentation)
    (hpart : part <:+: text) : IsProseOf text documentation := by
  rcases h with h | ⟨prose, hprose, h⟩
  · exact .inl h
  · exact .inr ⟨prose, hprose.trans hpart, h⟩

theorem infix_of_cut {text piece : Text} {first last : Nat} (h : cut text first last = .ok piece) :
    piece <:+: text := by
  obtain ⟨front, back, htext, -, -⟩ := eq_of_cut h
  exact ⟨front, back, by rw [htext, List.append_assoc]⟩

theorem infix_of_extractBetween {text opening closing : Text} {start : Nat} {extract : Extract}
    (h : extractBetween text opening closing start = .ok extract) : extract.inner <:+: text := by
  obtain ⟨place, last, -, -, hcut, -, -⟩ := extractBetween_eq_ok_iff.mp h
  exact infix_of_cut hcut

theorem eq_ok_of_bind {ε α β : Type} {step : Except ε α} {next : α → Except ε β} {result : β}
    (h : (step >>= next) = .ok result) : ∃ value, step = .ok value ∧ next value = .ok result := by
  cases step with
  | error e => cases h
  | ok value => exact ⟨value, rfl, h⟩

theorem prefix_join (separator first : Text) (pieces : List Text) :
    first <+: join separator (first :: pieces) := by
  by_cases hpieces : pieces = []
  · subst hpieces
    simp [join, List.intercalate]
  · rw [join_cons _ _ hpieces, List.append_assoc]
    exact List.prefix_append first _

theorem infix_join (separator first : Text) {pieces : List Text} {piece : Text}
    (h : piece ∈ pieces) : separator ++ piece <:+: join separator (first :: pieces) := by
  induction pieces generalizing first with
  | nil => exact absurd h List.not_mem_nil
  | cons next pieces ih =>
    rw [join_cons _ _ (by simp), List.append_assoc]
    rcases List.mem_cons.mp h with rfl | h
    · have hlead : separator ++ piece <+: separator ++ join separator (piece :: pieces) :=
        (List.prefix_append_right_inj separator).mpr (prefix_join separator piece pieces)
      exact hlead.isInfix.trans (List.suffix_append first _).isInfix
    · have hlater := ih next h
      apply hlater.trans
      rw [← List.append_assoc]
      exact (List.suffix_append _ _).isInfix

theorem infix_of_mem_blocksOf {detail block : Text} (h : block ∈ blocksOf detail) :
    block <:+: detail := by
  obtain ⟨piece, hpiece, rfl⟩ := List.mem_map.mp h
  cases hsplit : splitOn memberHeading detail with
  | nil => exact absurd hsplit (splitFrom_ne_nil _ _ _)
  | cons first pieces =>
    rw [hsplit] at hpiece
    have hjoin : memberHeading ++ piece <:+: join memberHeading (first :: pieces) :=
      infix_join memberHeading first hpiece
    rw [← hsplit, join_splitOn (by decide)] at hjoin
    exact hjoin

theorem isProseOf_readBlock {proseNeeded : Bool} {self block : Text} {member : Member}
    (h : readBlock proseNeeded self block = .ok (.kept member)) :
    IsProseOf block member.documentation := by
  obtain ⟨declaration, -, -, -, hnone | ⟨place, prose, hcut, hprose⟩⟩ := kept_of_readBlock h
  · exact .inl hnone
  · exact .inr ⟨prose, infix_of_cut hcut, hprose⟩

theorem exists_of_mem_mapM {ε α β : Type} {step : α → Except ε β} {inputs : List α}
    {outputs : List β} (h : inputs.mapM step = .ok outputs) :
    ∀ output ∈ outputs, ∃ input ∈ inputs, step input = .ok output := by
  induction inputs generalizing outputs with
  | nil =>
    cases h
    simp
  | cons input inputs ih =>
    rw [List.mapM_cons] at h
    obtain ⟨first, hfirst, hrest⟩ := eq_ok_of_bind h
    obtain ⟨others, hothers, hcons⟩ := eq_ok_of_bind hrest
    cases hcons
    intro output houtput
    rcases List.mem_cons.mp houtput with rfl | houtput
    · exact ⟨input, List.mem_cons_self, hfirst⟩
    · obtain ⟨other, hother, hstep⟩ := ih hothers output houtput
      exact ⟨other, List.mem_cons_of_mem _ hother, hstep⟩

/-- The member was read from a block on the page. -/
def IsReadFrom (page self : Text) (member : Member) : Prop :=
  ∃ proseNeeded block, block <:+: page ∧ readBlock proseNeeded self block = .ok (.kept member)

theorem isReadFrom_readSection {page heading self : Text} {proseNeeded : Bool} {start : Nat}
    {readings : List BlockReading}
    (h : readSection page heading proseNeeded self start = .ok readings) {member : Member}
    (hmember : member ∈ readings.filterMap BlockReading.member?) : IsReadFrom page self member := by
  obtain ⟨reading, hreading, hkept⟩ := List.mem_filterMap.mp hmember
  cases reading with
  | kept found =>
    cases hkept
    obtain ⟨detail?, hsection, hdetail⟩ := eq_ok_of_bind h
    cases detail? with
    | none =>
      cases hdetail
      exact absurd hreading List.not_mem_nil
    | some detail =>
      simp only [memberBlocks_eq] at hdetail
      obtain ⟨block, hblock, hread⟩ := exists_of_mem_mapM hdetail _ hreading
      have hinfix : detail <:+: page := by
        rw [detailSection] at hsection
        split at hsection
        · cases hsection
        · obtain ⟨piece, hcut, hpiece⟩ := eq_ok_of_bind hsection
          cases hpiece
          exact infix_of_cut hcut
      exact ⟨proseNeeded, block, (infix_of_mem_blocksOf hblock).trans hinfix, hread⟩
  | _ => cases hkept

theorem text_advanceTo (cursor : Cursor) (position : Nat) :
    (cursor.advanceTo position).text = cursor.text := by
  rw [Cursor.advanceTo]
  split <;> rfl

theorem text_readGenerics {cursor next : Cursor} {generics : List Text}
    (h : readGenerics cursor = .ok (generics, next)) : next.text = cursor.text := by
  rcases readGenerics_cases cursor with ⟨-, hread⟩ | ⟨tagEnd, close, heading, -, -, -, hread⟩
  · cases hread.symm.trans h
    rfl
  · obtain ⟨found, -, hnext⟩ := eq_ok_of_map (hread.symm.trans h)
    cases hnext
    rfl

theorem text_readSuperType {cursor next : Cursor} {superType : Option TypeRef}
    (h : readSuperType cursor = .ok (superType, next)) : next.text = cursor.text := by
  rcases readSuperType_cases cursor with ⟨-, hread⟩ | ⟨chain, region, links, -, -, -, hread⟩
  · cases hread.symm.trans h
    rfl
  · cases hread.symm.trans h
    exact text_advanceTo _ _

theorem text_readFront {cursor : Cursor} {front : Front} (h : readFront cursor = .ok front) :
    front.cursor.text = cursor.text := by
  obtain ⟨second, third, hgenerics, hsuper, hcontracts⟩ := stages_of_readFront h
  rw [(readContracts_moves hcontracts).1, text_readSuperType hsuper, text_readGenerics hgenerics]

theorem declaration_of_result {page : Text} {entity : Entity} {outline : Outline}
    (h : result page entity = .ok (.outline outline)) :
    ∃ cursor front declaration detail, cursor.text = page ∧ readFront cursor = .ok front ∧
      declaration? page = some declaration ∧
      extractBetween page declarationOpening declarationClosing front.cursor.position =
        .ok declaration ∧
      readDetail page entity.shortName declaration.after = .ok detail ∧
      outline = outlineOf entity front declaration.inner detail := by
  rw [result, read] at h
  split at h
  · cases h
  · rename_i title cursor hbetween
    have hcursor : cursor.text = page := by
      rw [(Cursor.eq_of_between hbetween).2]
      rfl
    simp only at h
    split at h
    · cases h
    · simp only [readClass] at h
      split at h
      · cases h
      · rename_i front hfront
        split at h
        · cases h
        · rename_i declaration next hdeclaration
          have htext : front.cursor.text = page := by rw [text_readFront hfront, hcursor]
          obtain ⟨hextract, rfl⟩ := Cursor.eq_of_between hdeclaration
          have hfound : declaration? page = some declaration := by
            rw [declaration?, hbetween]
            simp only [hfront, hdeclaration]
            rfl
          split at h
          · cases h
          · rename_i detail hdetail
            cases h
            rw [htext] at hdetail hextract
            exact ⟨cursor, front, declaration, detail, hcursor, hfront, hfound, hextract,
              hdetail, rfl⟩
    · cases h

theorem parts_of_result {page : Text} {entity : Entity} {outline : Outline}
    (h : result page entity = .ok (.outline outline)) :
    ∃ cursor front declaration detail start, cursor.text = page ∧ readFront cursor = .ok front ∧
      readDetail page entity.shortName start = .ok detail ∧
      outline = outlineOf entity front declaration detail := by
  obtain ⟨cursor, front, declaration, detail, htext, hfront, -, -, hdetail, houtline⟩ :=
    declaration_of_result h
  exact ⟨cursor, front, declaration.inner, detail, _, htext, hfront, hdetail, houtline⟩

/-- Every member of an outline was read from a block on its page. -/
theorem isReadFrom_result {page : Text} {entity : Entity} {outline : Outline}
    (h : result page entity = .ok (.outline outline)) {member : Member}
    (hmember : member ∈ outline.fields ++ outline.constructors ++ outline.methods) :
    IsReadFrom page entity.shortName member := by
  obtain ⟨-, front, declaration, detail, start, -, -, hdetail, rfl⟩ := parts_of_result h
  obtain ⟨fields, hfields, hdetail⟩ := eq_ok_of_bind hdetail
  obtain ⟨constructors, hconstructors, hdetail⟩ := eq_ok_of_bind hdetail
  obtain ⟨methods, hmethods, hdetail⟩ := eq_ok_of_bind hdetail
  cases hdetail
  have hmembers : ∀ found ∈ (Detail.mk fields constructors methods).members,
      IsReadFrom page entity.shortName found := by
    intro found hfound
    rw [Detail.members, List.filterMap_append] at hfound
    rcases List.mem_append.mp hfound with hfound | hfound
    · exact isReadFrom_readSection hfields hfound
    · exact isReadFrom_readSection hmethods hfound
  rcases List.mem_append.mp hmember with hmember | hmember
  · rcases List.mem_append.mp hmember with hmember | hmember
    · exact hmembers member (List.mem_of_mem_filter hmember)
    · exact isReadFrom_readSection hconstructors hmember
  · exact hmembers member (List.mem_of_mem_filter hmember)

/-- Every member is documented by the prose of one part of the page. -/
theorem isProseOf_result {page : Text} {entity : Entity} {outline : Outline}
    (h : result page entity = .ok (.outline outline)) {member : Member}
    (hmember : member ∈ outline.fields ++ outline.constructors ++ outline.methods) :
    IsProseOf page member.documentation := by
  obtain ⟨proseNeeded, block, hblock, hread⟩ := isReadFrom_result h hmember
  exact (isProseOf_readBlock hread).mono hblock

end ClassPage

end ClassSkeleton
