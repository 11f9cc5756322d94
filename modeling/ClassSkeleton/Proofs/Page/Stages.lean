import ClassSkeleton.Page.Front
import ClassSkeleton.Proofs.Markup.Offset

/-!
The stages of the front of a class page, each as one equation: what a stage returns and where it
leaves the cursor, given the places at which its marks have been found.
-/
namespace ClassSkeleton.ClassPage

open Text Markup

theorem advanceTo_eq {page : Text} {position later : Nat} (hle : position ≤ later)
    (hwidth : later ≤ width page) : (Cursor.mk page position).advanceTo later = ⟨page, later⟩ := by
  rw [Cursor.advanceTo]
  split
  · rw [Nat.min_eq_left hwidth]
  · rename_i hlt
    simp only at hlt
    rw [show position = later by omega]

section Map

variable {ε α β : Type} {step : Except ε α} {f : α → β}

theorem eq_ok_of_map {result : β} (h : step.map f = .ok result) :
    ∃ value, step = .ok value ∧ f value = result := by
  cases step with
  | error e => cases h
  | ok value => exact ⟨value, rfl, Except.ok.inj h⟩

theorem eq_error_of_map {e : ε} (h : step.map f = .error e) : step = .error e := by
  cases step with
  | error e' => exact congrArg Except.error (Except.error.inj h)
  | ok value => cases h

end Map

/-- The type parameters in the text of a heading. -/
def genericsOf (heading : Text) : Except ScanError (List Text) :=
  match Declaration.outerArguments? (plainText heading) with
  | none => .ok []
  | some inner => Declaration.splitTopLevel inner ','

theorem readGenerics_eq {cursor : Cursor} {tagEnd close : Nat} {heading : Text}
    (hopen : cursor.peek ['>'] = some tagEnd)
    (hclose : locate cursor.text headingEnd (tagEnd + 1) = some close)
    (hcut : cut cursor.text (tagEnd + 1) close = .ok heading) :
    readGenerics cursor =
      (genericsOf heading).map (·, ⟨cursor.text, close + width headingEnd⟩) := by
  have hbounds := locate_bounds hclose
  have hstart := locate_bounds hopen
  have hnext : cursor.advanceTo (close + width headingEnd) =
      ⟨cursor.text, close + width headingEnd⟩ := by
    rw [Cursor.advanceTo, if_pos (by omega), Nat.min_eq_left hbounds.2]
  rw [readGenerics, hopen]
  simp only []
  rw [hclose]
  simp only []
  rw [hcut, hnext, genericsOf]
  cases houter : Declaration.outerArguments? (plainText heading) with
  | none => simp [houter, bind, Except.bind, pure, Except.pure, Except.map]
  | some inner =>
    simp only [houter, bind, Except.bind, pure, Except.pure]
    cases Declaration.splitTopLevel inner ',' <;> rfl

/-- Either no heading is closed, or the type parameters are those in the text of the heading. -/
theorem readGenerics_cases (cursor : Cursor) :
    ((∀ tagEnd, cursor.peek ['>'] = some tagEnd →
        locate cursor.text headingEnd (tagEnd + 1) = none) ∧
      readGenerics cursor = .ok ([], cursor)) ∨
    ∃ tagEnd close heading, cursor.peek ['>'] = some tagEnd ∧
      locate cursor.text headingEnd (tagEnd + 1) = some close ∧
      cut cursor.text (tagEnd + 1) close = .ok heading ∧
      readGenerics cursor =
        (genericsOf heading).map (·, ⟨cursor.text, close + width headingEnd⟩) := by
  cases hopen : cursor.peek ['>'] with
  | none =>
    refine .inl ⟨fun tagEnd h => ?_, ?_⟩
    · cases h
    · rw [readGenerics, hopen]
  | some tagEnd =>
    cases hclose : locate cursor.text headingEnd (tagEnd + 1) with
    | none =>
      refine .inl ⟨fun other h => ?_, ?_⟩
      · cases h
        exact hclose
      · rw [readGenerics, hopen]
        simp only [hclose]
    | some close =>
      obtain ⟨heading, hcut⟩ := cut_of_locate hclose
      exact .inr ⟨tagEnd, close, heading, rfl, hclose, hcut, readGenerics_eq hopen hclose hcut⟩

theorem readGenerics_width {page front attributes heading rest : Text}
    (hpage : page = front ++ (attributes ++ ['>'] ++ (heading ++ headingEnd ++ rest)))
    (hattributes : '>' ∉ attributes) (hheading : Passes headingEnd heading (headingEnd ++ rest)) :
    readGenerics ⟨page, width front⟩ =
      (genericsOf heading).map
        (·, ⟨page, width (front ++ attributes ++ ['>'] ++ heading ++ headingEnd)⟩) := by
  have hopen : Cursor.peek ⟨page, width front⟩ ['>'] = some (width (front ++ attributes)) := by
    have hpass : Passes ['>'] attributes (['>'] ++ (heading ++ headingEnd ++ rest)) :=
      passes_of_head _ rfl hattributes
    exact locate_of_passes hpage (by simp) hpass
  have hstart : width (front ++ attributes) + 1 = width (front ++ attributes ++ ['>']) := by
    rw [width_append _ ['>']]
    rfl
  have hbehind : page = (front ++ attributes ++ ['>']) ++ (heading ++ (headingEnd ++ rest)) := by
    rw [hpage]
    simp
  have hclose : locate page headingEnd (width (front ++ attributes) + 1) =
      some (width (front ++ attributes ++ ['>'] ++ heading)) := by
    rw [hstart]
    exact locate_of_passes (by rw [hbehind, List.append_assoc heading]) (by decide) hheading
  have hcut := cut_width (front ++ attributes ++ ['>']) heading (headingEnd ++ rest)
  rw [← hbehind, ← hstart] at hcut
  rw [readGenerics_eq hopen hclose hcut, ← width_append]

/-- Where the reading of a list of links stopped. -/
def readTo (links : List Link) : Nat := (links.getLast?.map (·.after)).getD 0

theorem exists_linksFrom (region : Text) (start : Nat) :
    ∃ links, linksFrom region start = .ok links := by
  fun_induction linksFrom region start with
  | case1 start hnone => exact ⟨[], rfl⟩
  | case2 start place hplace hnone => exact ⟨[], rfl⟩
  | case3 start place hplace close hclose ih =>
    obtain ⟨target, hcut⟩ := cut_of_locate hclose
    obtain ⟨links, hlinks⟩ := ih
    rw [hcut]
    simp only [bind, Except.bind, hlinks]
    exact ⟨_, rfl⟩

theorem exists_cut_chain {text mark : Text} {start chain : Nat}
    (h : locate text mark start = some chain) :
    ∃ region, cut text chain (chainEnd text chain) = .ok region := by
  rw [chainEnd]
  split
  · exact cut_of_locate ‹_›
  · cases hend : locate text declarationOpening chain with
    | none => exact exists_cut_to_end h
    | some bound => exact cut_of_locate hend

/-- Either there is no inheritance list, or its links are read, as far as it reaches. -/
theorem readSuperType_cases (cursor : Cursor) :
    (cursor.peek inheritanceMark = none ∧ readSuperType cursor = .ok (none, cursor)) ∨
    ∃ chain region links, cursor.peek inheritanceMark = some chain ∧
      cut cursor.text chain (chainEnd cursor.text chain) = .ok region ∧
      linksFrom region 0 = .ok links ∧
      readSuperType cursor =
        .ok ((links.filterMap fun link => TypeRef.ofTarget? link.target).getLast?,
          cursor.advanceTo (chain + readTo links)) := by
  rw [readSuperType]
  cases hchain : cursor.peek inheritanceMark with
  | none => exact .inl ⟨rfl, rfl⟩
  | some chain =>
    obtain ⟨region, hcut⟩ := exists_cut_chain hchain
    obtain ⟨links, hlinks⟩ := exists_linksFrom region 0
    refine .inr ⟨chain, region, links, rfl, hcut, hlinks, ?_⟩
    simp only [hcut, hlinks, bind, Except.bind]
    rfl

theorem readSuperType_eq {cursor : Cursor} {chain bound : Nat} {region : Text} {links : List Link}
    (hchain : cursor.peek inheritanceMark = some chain)
    (hbound : locate cursor.text descriptionMark chain = some bound)
    (hcut : cut cursor.text chain bound = .ok region) (hlinks : linksFrom region 0 = .ok links) :
    readSuperType cursor =
      .ok ((links.filterMap fun link => TypeRef.ofTarget? link.target).getLast?,
        cursor.advanceTo (chain + readTo links)) := by
  have hend : chainEnd cursor.text chain = bound := by rw [chainEnd, hbound]
  rw [readSuperType, hchain]
  simp only [hend, hcut, hlinks, bind, Except.bind]
  rfl

theorem mem_linksFrom {region : Text} {start : Nat} {links : List Link}
    (h : linksFrom region start = .ok links) : ∀ link ∈ links, ∃ first place close,
      locate region linkMark first = some place ∧
        locate region ['"'] (place + width linkMark) = some close ∧
        cut region (place + width linkMark) close = .ok link.target ∧ link.after = close + 1 := by
  fun_induction linksFrom region start generalizing links with
  | case1 start hnone =>
    cases h
    simp
  | case2 start place hplace hnone =>
    cases h
    simp
  | case3 start place hplace close hclose ih =>
    obtain ⟨target, hcut⟩ := cut_of_locate hclose
    rw [hcut] at h
    simp only [bind, Except.bind] at h
    split at h
    · cases h
    · rename_i rest hrest
      cases h
      intro link hmem
      rcases List.mem_cons.mp hmem with rfl | hmem
      · exact ⟨start, place, close, hplace, hclose, hcut, rfl⟩
      · exact ih hrest link hmem

theorem readTo_le {region : Text} {start : Nat} {links : List Link}
    (h : linksFrom region start = .ok links) : readTo links ≤ width region := by
  rw [readTo]
  cases hlast : links.getLast? with
  | none => exact Nat.zero_le _
  | some link =>
    obtain ⟨first, place, close, -, hclose, -, hafter⟩ :=
      mem_linksFrom h link (List.mem_of_getLast? hlast)
    rw [Option.map_some, Option.getD_some, hafter]
    exact (locate_bounds hclose).2

theorem readContracts_list {cursor : Cursor} {label : Nat} {interfaces : Extract}
    (hlabel : cursor.peek interfacesMark = some label)
    (hbefore : precedesDeclaration cursor label = true)
    (hlist : extractBetween cursor.text listOpening listClosing label = .ok interfaces) :
    readContracts cursor =
      (contractLinks interfaces.inner).map (·, cursor.advanceTo interfaces.after) := by
  rw [readContracts, hlabel]
  simp only []
  rw [hbefore, if_pos rfl, hlist]
  simp only [bind, Except.bind, pure, Except.pure]
  cases contractLinks interfaces.inner <;> rfl

/-- Either no list is read, or it is the one behind a label before the declaration. -/
theorem readContracts_cases (cursor : Cursor) :
    ((∀ label interfaces, cursor.peek interfacesMark = some label →
        precedesDeclaration cursor label = true →
        extractBetween cursor.text listOpening listClosing label ≠ .ok interfaces) ∧
      readContracts cursor = .ok ([], cursor)) ∨
    ∃ label interfaces, cursor.peek interfacesMark = some label ∧
      precedesDeclaration cursor label = true ∧
      extractBetween cursor.text listOpening listClosing label = .ok interfaces ∧
      readContracts cursor =
        (contractLinks interfaces.inner).map (·, cursor.advanceTo interfaces.after) := by
  cases hlabel : cursor.peek interfacesMark with
  | none =>
    refine .inl ⟨fun label interfaces h => ?_, ?_⟩
    · cases h
    · rw [readContracts, hlabel]
  | some label =>
    cases hbefore : precedesDeclaration cursor label with
    | false =>
      refine .inl ⟨fun other interfaces h hother => ?_, ?_⟩
      · cases h
        rw [hbefore] at hother
        cases hother
      · rw [readContracts, hlabel]
        simp only [hbefore]
        rfl
    | true =>
      cases hlist : extractBetween cursor.text listOpening listClosing label with
      | error e =>
        obtain ⟨mark, rfl⟩ := missing_of_extractBetween hlist
        refine .inl ⟨fun other interfaces h _ hother => ?_, ?_⟩
        · cases h
          rw [hlist] at hother
          cases hother
        · rw [readContracts, hlabel]
          simp only [hbefore, if_true, hlist]
      | ok interfaces =>
        exact .inr ⟨label, interfaces, rfl, hbefore, hlist,
          readContracts_list hlabel hbefore hlist⟩

theorem readContracts_skip {cursor : Cursor}
    (h : ∀ label, cursor.peek interfacesMark = some label →
      precedesDeclaration cursor label = false) : readContracts cursor = .ok ([], cursor) := by
  rcases readContracts_cases cursor with ⟨-, hread⟩ | ⟨label, interfaces, hlabel, hbefore, -, -⟩
  · exact hread
  · rw [h label hlabel] at hbefore
    cases hbefore

theorem readFront_eq {cursor second third fourth : Cursor} {generics : List Text}
    {superType : Option TypeRef} {contracts : List ContractLink}
    (hgenerics : readGenerics cursor = .ok (generics, second))
    (hsuper : readSuperType second = .ok (superType, third))
    (hcontracts : readContracts third = .ok (contracts, fourth)) :
    readFront cursor = .ok ⟨generics, superType, contracts, fourth⟩ := by
  rw [readFront, hgenerics]
  simp only [bind, Except.bind]
  rw [hsuper]
  simp only []
  rw [hcontracts]
  rfl

theorem stages_of_readFront {cursor : Cursor} {front : Front} (h : readFront cursor = .ok front) :
    ∃ second third, readGenerics cursor = .ok (front.generics, second) ∧
      readSuperType second = .ok (front.superType, third) ∧
      readContracts third = .ok (front.contracts, front.cursor) := by
  rw [readFront] at h
  simp only [bind, Except.bind] at h
  split at h
  · cases h
  rename_i first hgenerics
  split at h
  · cases h
  rename_i second hsuper
  split at h
  · cases h
  rename_i third hcontracts
  cases h
  exact ⟨first.2, second.2, hgenerics, hsuper, hcontracts⟩

end ClassSkeleton.ClassPage
