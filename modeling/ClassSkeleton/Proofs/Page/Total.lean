import ClassSkeleton.Proofs.Declaration.Arguments
import ClassSkeleton.Proofs.Markup.Reflow
import ClassSkeleton.Proofs.Page.Prose
import ClassSkeleton.Proofs.Page.Rejected

/-!
Reading a page fails for the want of a mark only. The offsets of every cut come from marks that
have been located, and brackets are counted in pieces of the page that together are no longer than
the page itself, so on a page of fewer than `2 ^ 31` bytes no count leaves its range.
-/
namespace ClassSkeleton

namespace Text

theorem length_le_width (text : Text) : text.length ≤ width text := by
  induction text with
  | nil => exact Nat.le_refl 0
  | cons c rest ih =>
    have hc := Char.utf8Size_pos c
    rw [List.length_cons, width_cons]
    omega

theorem length_join (separator : Text) (pieces : List Text) :
    (join separator pieces).length =
      pieces.flatten.length + (pieces.length - 1) * separator.length := by
  induction pieces with
  | nil => simp [join, List.intercalate]
  | cons piece pieces ih =>
    cases pieces with
    | nil => simp [join, List.intercalate]
    | cons next pieces =>
      rw [join_cons _ _ (List.cons_ne_nil next pieces), List.length_append, List.length_append, ih]
      simp only [List.flatten_cons, List.length_append, List.length_cons, Nat.add_sub_cancel,
        Nat.succ_mul]
      omega

theorem length_splitOn {mark : Text} (hmark : mark ≠ []) (text : Text) :
    (splitOn mark text).flatten.length + occurrences mark text * mark.length = text.length := by
  rw [occurrences, ← length_join, join_splitOn hmark]

theorem occurrences_le {mark : Text} (hmark : mark ≠ []) (text : Text) :
    occurrences mark text ≤ text.length := by
  have hlength := length_splitOn hmark text
  have hle := Nat.le_mul_of_pos_right (occurrences mark text) (List.length_pos_iff.mpr hmark)
  omega

theorem length_replace_le {mark new : Text} (hmark : mark ≠ []) (hnew : new.length ≤ mark.length)
    (text : Text) : (replace mark new text).length ≤ text.length := by
  rw [replace, length_join, ← length_splitOn hmark text]
  exact Nat.add_le_add_left (Nat.mul_le_mul_left _ hnew) _

theorem length_trim_le (text : Text) : (trim text).length ≤ text.length :=
  (trimEnd_isPrefix (trimStart text)).length_le.trans (List.dropWhile_suffix isBlank).length_le

end Text

namespace Markup

open Text

theorem length_stripFrom_le (inside : Bool) (text : Text) :
    (stripFrom inside text).length ≤ text.length := by
  induction text generalizing inside with
  | nil => exact Nat.le_refl 0
  | cons c rest ih =>
    rw [stripFrom]
    split
    · exact Nat.le_succ_of_le (ih _)
    · split
      · split
        · exact Nat.le_succ_of_le (ih _)
        · exact Nat.le_refl _
      · exact Nat.succ_le_succ (ih _)

theorem length_decodeEntities_le (text : Text) : (decodeEntities text).length ≤ text.length := by
  rw [decodeEntities]
  calc
    _ ≤ _ := length_replace_le (by decide) (by decide) _
    _ ≤ _ := length_replace_le (by decide) (by decide) _
    _ ≤ _ := length_replace_le (by decide) (by decide) _

theorem length_plainText_le (text : Text) : (plainText text).length ≤ text.length := by
  rw [plainText]
  calc
    _ ≤ _ := length_trim_le _
    _ ≤ _ := length_collapseFrom_le false _
    _ ≤ _ := length_decodeEntities_le _
    _ ≤ _ := length_stripFrom_le false text

end Markup

namespace Declaration

open Text

theorem length_outerArguments?_le {heading inner : Text}
    (h : outerArguments? heading = some inner) : inner.length ≤ heading.length := by
  unfold outerArguments? at h
  split at h
  · cases h
  · rename_i front rest hbreak
    split at h
    · cases h
      have hdrop := (List.dropWhile_suffix (l := rest.reverse) (· != '>')).length_le
      have hheading := congrArg List.length (eq_of_breakAt? hbreak)
      simp only [List.length_append] at hheading
      simp only [List.length_reverse, List.length_tail] at hdrop ⊢
      omega
    · cases h

/-- Each character moves the depth by one at most. -/
theorem exists_piecesFrom (separator : Char) {depth : Int} {text : Text}
    (h : depth.natAbs + text.length ≤ 2147483647) :
    ∃ pieces, piecesFrom separator depth text = .ok pieces := by
  induction text generalizing depth with
  | nil => exact ⟨_, rfl⟩
  | cons c rest ih =>
    rw [List.length_cons] at h
    have hdeeper : (depth + 1).natAbs + rest.length ≤ 2147483647 := by omega
    have hshallower : (depth + -1).natAbs + rest.length ≤ 2147483647 := by omega
    have hlevel : depth.natAbs + rest.length ≤ 2147483647 := by omega
    rw [piecesFrom]
    split
    · obtain ⟨pieces, hpieces⟩ := ih hdeeper
      rw [nest_eq (by omega) (by omega)]
      exact ⟨consHead c pieces, by simp only [bind, Except.bind, hpieces]; rfl⟩
    · split
      · obtain ⟨pieces, hpieces⟩ := ih hshallower
        rw [nest_eq (by omega) (by omega)]
        exact ⟨consHead c pieces, by simp only [bind, Except.bind, hpieces]; rfl⟩
      · obtain ⟨pieces, hpieces⟩ := ih hlevel
        rw [hpieces]
        split
        · exact ⟨[] :: pieces, rfl⟩
        · exact ⟨consHead c pieces, rfl⟩

theorem exists_splitTopLevel (separator : Char) {text : Text} (h : text.length ≤ 2147483647) :
    ∃ pieces, splitTopLevel text separator = .ok pieces := by
  have hdepth : (0 : Int).natAbs + text.length ≤ 2147483647 := by omega
  obtain ⟨pieces, hpieces⟩ := exists_piecesFrom separator hdepth
  rw [splitTopLevel, hpieces]
  exact ⟨_, rfl⟩

end Declaration

namespace ClassPage

open Text Markup

theorem natAbs_bracketBalance_le (fragment : Text) :
    (bracketBalance fragment).natAbs ≤ fragment.length := by
  have hopened := occurrences_le (show "&lt;".toList ≠ [] by decide) fragment
  have hclosed := occurrences_le (show "&gt;".toList ≠ [] by decide) fragment
  rw [bracketBalance]
  omega

/-- Each piece moves the depth by its length at most. -/
theorem exists_contractLinksFrom {depth : Int} {candidates : List Text}
    (h : depth.natAbs + candidates.flatten.length ≤ 2147483647) :
    ∃ links, contractLinksFrom depth candidates = .ok links := by
  induction candidates generalizing depth with
  | nil => exact ⟨[], rfl⟩
  | cons candidate candidates ih =>
    rw [List.flatten_cons, List.length_append] at h
    have hbalance := natAbs_bracketBalance_le candidate
    have hnext : (depth + bracketBalance candidate).natAbs + candidates.flatten.length ≤
        2147483647 := by omega
    obtain ⟨links, hlinks⟩ := ih hnext
    rw [contractLinksFrom, Declaration.nest_eq (by omega) (by omega)]
    simp only [bind, Except.bind, hlinks]
    exact ⟨_, rfl⟩

theorem exists_contractLinks {interfaces : Text} (h : interfaces.length ≤ 2147483647) :
    ∃ links, contractLinks interfaces = .ok links := by
  have hlength := length_splitOn (show linkMark ≠ [] by decide) interfaces
  rw [contractLinks]
  split
  · exact ⟨[], rfl⟩
  · rename_i front candidates hsplit
    rw [hsplit, List.flatten_cons, List.length_append] at hlength
    have hbalance := natAbs_bracketBalance_le front
    rw [Declaration.nest_eq (by omega) (by omega)]
    exact exists_contractLinksFrom (by omega)

theorem exists_genericsOf {heading : Text} (h : heading.length ≤ 2147483647) :
    ∃ generics, genericsOf heading = .ok generics := by
  rw [genericsOf]
  split
  · exact ⟨[], rfl⟩
  · rename_i inner hinner
    have hinner := Declaration.length_outerArguments?_le hinner
    have hplain := length_plainText_le heading
    exact Declaration.exists_splitTopLevel ',' (by omega)

theorem exists_readGenerics {cursor : Cursor} (h : width cursor.text ≤ 2147483647) :
    ∃ generics next, readGenerics cursor = .ok (generics, next) := by
  rcases readGenerics_cases cursor with
    ⟨-, hread⟩ | ⟨tagEnd, close, heading, -, hclose, hcut, hread⟩
  · exact ⟨[], cursor, hread⟩
  · have hwidth := width_cut hcut
    have hlength := length_le_width heading
    have hbounds := locate_bounds hclose
    have hheading : heading.length ≤ 2147483647 := by omega
    obtain ⟨generics, hgenerics⟩ := exists_genericsOf hheading
    exact ⟨generics, _, by rw [hread, hgenerics]; rfl⟩

theorem exists_readSuperType (cursor : Cursor) :
    ∃ superType next, readSuperType cursor = .ok (superType, next) := by
  rcases readSuperType_cases cursor with ⟨-, hread⟩ | ⟨chain, region, links, -, -, -, hread⟩
  · exact ⟨none, cursor, hread⟩
  · exact ⟨_, _, hread⟩

theorem exists_readContracts {cursor : Cursor} (h : width cursor.text ≤ 2147483647) :
    ∃ contracts next, readContracts cursor = .ok (contracts, next) := by
  rcases readContracts_cases cursor with ⟨-, hread⟩ | ⟨label, interfaces, -, -, hlist, hread⟩
  · exact ⟨[], cursor, hread⟩
  · have hinner := (infix_of_extractBetween hlist).length_le
    have hlength := length_le_width cursor.text
    have hinterfaces : interfaces.inner.length ≤ 2147483647 := by omega
    obtain ⟨links, hlinks⟩ := exists_contractLinks hinterfaces
    exact ⟨links, _, by rw [hread, hlinks]; rfl⟩

theorem exists_readFront {cursor : Cursor} (h : width cursor.text ≤ 2147483647) :
    ∃ front, readFront cursor = .ok front := by
  obtain ⟨generics, second, hgenerics⟩ := exists_readGenerics h
  obtain ⟨superType, third, hsuper⟩ := exists_readSuperType second
  have hthird : width third.text ≤ 2147483647 := by
    rw [text_readSuperType hsuper, text_readGenerics hgenerics]
    exact h
  obtain ⟨contracts, fourth, hcontracts⟩ := exists_readContracts hthird
  exact ⟨_, readFront_eq hgenerics hsuper hcontracts⟩

theorem exists_readSection (page heading self : Text) (proseNeeded : Bool) (start : Nat) :
    ∃ readings, readSection page heading proseNeeded self start = .ok readings := by
  cases hplace : locate page heading start with
  | none =>
    rw [readSection, detailSection, detailRange?, hplace]
    exact ⟨[], rfl⟩
  | some place =>
    obtain ⟨front, before, after, rfl, rfl, -, -⟩ := locate_eq_some_iff.mp hplace
    rw [readSection_eq]
    split
    · exact ⟨[], rfl⟩
    · exact exists_mapM_readBlock proseNeeded self _

theorem exists_readDetail (page self : Text) (start : Nat) :
    ∃ detail, readDetail page self start = .ok detail := by
  obtain ⟨fields, hfields⟩ := exists_readSection page fieldDetail self true start
  obtain ⟨constructors, hconstructors⟩ :=
    exists_readSection page constructorDetail self false start
  obtain ⟨methods, hmethods⟩ := exists_readSection page methodDetail self true start
  rw [readDetail, hfields, hconstructors, hmethods]
  exact ⟨_, rfl⟩

theorem missing_of_between {cursor next : Cursor} {opening closing : Text} {e : ScanError}
    (h : cursor.between opening closing = (.error e, next)) : ∃ mark, e = .missing mark := by
  rw [Cursor.between] at h
  split at h
  · rename_i found hfound
    cases h
    exact missing_of_extractBetween hfound
  · cases h

/-- A page that is not read lacks a mark, or its title opens with no known kind. -/
theorem error_of_result {page : Text} {entity : Entity} {failure : Failure}
    (hpage : width page ≤ 2147483647) (h : result page entity = .error failure) :
    (∃ mark, failure = .structural entity.name (ScanError.missing mark).message) ∨
      ∃ title, failure = .unrecognizedKind entity.name title := by
  rw [result, read] at h
  split at h
  · rename_i e next hbetween
    obtain ⟨mark, rfl⟩ := missing_of_between hbetween
    cases h
    exact .inl ⟨mark, rfl⟩
  · rename_i title cursor hbetween
    have hcursor : width cursor.text ≤ 2147483647 := by
      rw [(Cursor.eq_of_between hbetween).2]
      exact hpage
    simp only at h
    split at h
    · cases h
      exact .inr ⟨_, rfl⟩
    · obtain ⟨front, hfront⟩ := exists_readFront hcursor
      simp only [readClass, hfront] at h
      split at h
      · rename_i e next hdeclaration
        obtain ⟨mark, rfl⟩ := missing_of_between hdeclaration
        cases h
        exact .inl ⟨mark, rfl⟩
      · rename_i declaration next hdeclaration
        obtain ⟨detail, hdetail⟩ := exists_readDetail next.text entity.shortName next.position
        rw [hdetail] at h
        cases h
    · cases h

end ClassPage

end ClassSkeleton
