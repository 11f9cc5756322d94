import ClassSkeleton.Page.Reading
import ClassSkeleton.Proofs.Page.Sections
import ClassSkeleton.Proofs.Page.Stages

/-!
What a class page depends on. A complete header holds everything that is read before the detail
sections, and the detail data reaches from the first detail heading to the end of the class data.
What stands between the two, and what follows the class data, does not change the result: every
search that succeeds in the header stops there, no mark reaches across a seam, and the sections
begin and end inside the data.
-/
namespace ClassSkeleton

namespace Markup

open Text

namespace Cursor

/-- The same position with more text at the end. -/
def followedBy (cursor : Cursor) (more : Text) : Cursor :=
  ⟨cursor.text ++ more, cursor.position⟩

theorem eq_of_between {cursor next : Cursor} {opening closing : Text} {extract : Extract}
    (h : cursor.between opening closing = (.ok extract, next)) :
    extractBetween cursor.text opening closing cursor.position = .ok extract ∧
      next = ⟨cursor.text, extract.after⟩ := by
  unfold between at h
  split at h
  · cases h
  · rename_i found hfound
    cases h
    exact ⟨hfound, rfl⟩

theorem between_followedBy {cursor next : Cursor} {opening closing : Text} {extract : Extract}
    (hopening : opening ≠ []) (hclosing : closing ≠ [])
    (h : cursor.between opening closing = (.ok extract, next)) (more : Text) :
    (cursor.followedBy more).between opening closing = (.ok extract, next.followedBy more) := by
  obtain ⟨hfound, rfl⟩ := eq_of_between h
  rw [between, followedBy, extractBetween_append hopening hclosing hfound more]
  rfl

theorem advanceTo_followedBy (cursor : Cursor) {position : Nat}
    (hle : position ≤ width cursor.text) (more : Text) :
    (cursor.followedBy more).advanceTo position = (cursor.advanceTo position).followedBy more := by
  have hmore : position ≤ width (cursor.text ++ more) := by
    rw [width_append]
    omega
  unfold advanceTo followedBy
  simp only [Nat.min_eq_left hle, Nat.min_eq_left hmore]
  split <;> rfl

theorem le_advanceTo (cursor : Cursor) {position : Nat} (hle : position ≤ width cursor.text) :
    (cursor.advanceTo position).text = cursor.text ∧
      cursor.position ≤ (cursor.advanceTo position).position := by
  unfold advanceTo
  split
  · exact ⟨rfl, by simp only; omega⟩
  · exact ⟨rfl, Nat.le_refl _⟩

theorem peek_followedBy {cursor : Cursor} {mark : Text} {place : Nat} (hmark : mark ≠ [])
    (h : cursor.peek mark = some place) (more : Text) :
    (cursor.followedBy more).peek mark = some place :=
  locate_append hmark h more

end Cursor

end Markup

namespace ClassPage

open Text Markup

/-- The text opens with a detail section and ends with the end of the class data. -/
structure IsDetailData (data : Text) : Prop where
  opens : ∃ heading ∈ detailHeadings, heading <+: data
  closes : classDataEnd <:+ data

/-- The class declaration that is found on a page. -/
def declaration? (page : Text) : Option Extract :=
  match (Cursor.start page).between titleMark ['"'] with
  | (.error _, _) => none
  | (.ok _, cursor) =>
    match readFront cursor with
    | .error _ => none
    | .ok front => (front.cursor.between declarationOpening declarationClosing).1.toOption

/-- Where the front of a page finds the label of the interfaces. -/
def contractsLabel? (page : Text) : Option Nat :=
  match (Cursor.start page).between titleMark ['"'] with
  | (.error _, _) => none
  | (.ok _, cursor) =>
    match readGenerics cursor with
    | .error _ => none
    | .ok (_, cursor) =>
      match readSuperType cursor with
      | .error _ => none
      | .ok (_, cursor) => cursor.peek interfacesMark

/-- A header in which each part of the front is found, up to the declaration at its end. The list
of interfaces is one of them if their label is found before the declaration. -/
structure ClosedHeader (header : Text) where
  title : Extract
  tagEnd : Nat
  headingClose : Nat
  chain : Nat
  description : Nat
  declaration : Extract
  title_eq : extractBetween header titleMark ['"'] 0 = .ok title
  tagEnd_eq : locate header ['>'] title.after = some tagEnd
  headingClose_eq : locate header headingEnd (tagEnd + 1) = some headingClose
  chain_eq : locate header inheritanceMark (headingClose + width headingEnd) = some chain
  description_eq : locate header descriptionMark chain = some description
  declaration_eq : declaration? header = some declaration
  ends : declaration.after = width header
  list_eq : ∀ label, contractsLabel? header = some label → label < declaration.start →
    ∃ list, extractBetween header listOpening listClosing label = .ok list

/-- A header with all of its parts one after the other, up to the declaration that is found in
it. A label of interfaces between the heading and the declaration has its list in the header. -/
structure CompleteHeader (header : Text) where
  title : Extract
  tagEnd : Nat
  headingClose : Nat
  chain : Nat
  description : Nat
  declaration : Extract
  title_eq : extractBetween header titleMark ['"'] 0 = .ok title
  tagEnd_eq : locate header ['>'] title.after = some tagEnd
  headingClose_eq : locate header headingEnd (tagEnd + 1) = some headingClose
  chain_eq : locate header inheritanceMark (headingClose + width headingEnd) = some chain
  description_eq : locate header descriptionMark chain = some description
  declaration_eq : declaration? header = some declaration
  ends : declaration.after = width header
  lists : ∀ before after, header = before ++ interfacesMark ++ after →
    headingClose + width headingEnd ≤ width before → width before < declaration.start →
    ∃ gap list rest, after = gap ++ listOpening ++ (list ++ listClosing ++ rest)

theorem not_take_suffix {heading : Text} (h : heading ∈ detailHeadings) :
    ∀ k < classDataEnd.length + 1, classDataEnd.take k <:+ heading → k = 0 := by
  have hall : ∀ other ∈ detailHeadings, ∀ k < classDataEnd.length + 1,
      classDataEnd.take k <:+ other → k = 0 := by decide +kernel
  exact hall heading h

theorem closes_after_heading {heading before after : Text} (hheading : heading ∈ detailHeadings)
    (hcloses : classDataEnd <:+ before ++ heading ++ after) : classDataEnd <:+ after := by
  rcases List.suffix_or_suffix_of_suffix hcloses (List.suffix_append (before ++ heading) after)
    with h | h
  · exact h
  obtain ⟨lead, hlead⟩ := h
  have hback : heading ++ after <:+ before ++ heading ++ after := by
    rw [List.append_assoc]
    exact List.suffix_append before _
  rcases List.suffix_or_suffix_of_suffix hcloses hback with hshort | hlong
  · obtain ⟨front, hfront⟩ := hshort
    rw [← hlead, ← List.append_assoc, List.append_cancel_right_eq] at hfront
    have htake : classDataEnd.take lead.length = lead := by
      rw [← hlead, List.take_left]
    have hzero : lead.length = 0 := by
      apply not_take_suffix hheading
      · rw [← hlead, List.length_append]
        omega
      · rw [htake]
        exact ⟨front, hfront⟩
    rw [List.length_eq_zero_iff] at hzero
    subst hzero
    exact ⟨[], by rw [← hlead]; rfl⟩
  · exfalso
    have hinside : heading <:+: classDataEnd :=
      (List.prefix_append heading after).isInfix.trans hlong.isInfix
    have hnone : ∀ other ∈ detailHeadings, ¬ other <:+: classDataEnd := by decide +kernel
    exact hnone heading hheading hinside

/-- A section is not changed by what stands before and after the detail data. -/
theorem sectionOf_confined {heading before data after : Text}
    (hheading : heading ∈ detailHeadings) (hdata : IsDetailData data)
    (hbefore : FreeOfDetail before) (hafter : FreeOfDetail after) :
    sectionOf heading (before ++ (data ++ after)) = sectionOf heading data := by
  have hmark : heading ≠ [] := by
    have hne : ∀ other ∈ detailHeadings, other ≠ [] := by decide +kernel
    exact hne heading hheading
  obtain ⟨first, hfirst, tail, hopens⟩ := hdata.opens
  have hseam : Apart heading first := by
    have hall : ∀ left ∈ detailHeadings, ∀ right ∈ detailHeadings, Apart left right := by
      decide +kernel
    exact hall heading hheading first hfirst
  have hpass : Passes heading before (data ++ after) := by
    rw [← hopens, List.append_assoc]
    exact passes_of_apart (tail ++ after) (hbefore heading hheading) hseam
  rw [sectionOf_of_passes hpass, sectionOf, sectionOf]
  cases hbreak : breakAt? heading data with
  | none =>
    obtain ⟨lead, hlead⟩ := hdata.closes
    rw [breakAt?_eq_none_iff hmark, ← hlead] at hbreak
    have hend : Passes heading data after := by
      rw [← hlead]
      have hfit : ∀ other ∈ detailHeadings, other.length ≤ classDataEnd.length ∧
          other.head? = some '<' := by decide +kernel
      exact passes_of_tail after hbreak (hfit heading hheading).1 (hfit heading hheading).2
        (by decide +kernel)
    rw [breakAt?_of_passes hend, (breakAt?_eq_none_iff hmark after).mpr (hafter heading hheading)]
    rfl
  | some parts =>
    obtain ⟨front, back⟩ := parts
    rw [breakAt?_append hmark hbreak after]
    have hcloses := hdata.closes
    rw [eq_of_breakAt? hbreak] at hcloses
    obtain ⟨lead, rfl⟩ := closes_after_heading hheading hcloses
    have hends : upTo sectionEnds (lead ++ classDataEnd ++ after) =
        upTo sectionEnds (lead ++ classDataEnd) :=
      upTo_append (by decide +kernel) (by decide +kernel) lead after
    simp only [Option.map_some, hends]

theorem stages_of_declaration? {page : Text} {declaration : Extract}
    (h : declaration? page = some declaration) :
    ∃ title cursor front next, (Cursor.start page).between titleMark ['"'] = (.ok title, cursor) ∧
      readFront cursor = .ok front ∧
      front.cursor.between declarationOpening declarationClosing = (.ok declaration, next) := by
  unfold declaration? at h
  split at h
  · cases h
  rename_i title cursor hbetween
  split at h
  · cases h
  rename_i front hfront
  cases hfound : front.cursor.between declarationOpening declarationClosing with
  | mk found next =>
    rw [hfound] at h
    cases found with
    | error e => cases h
    | ok found =>
      cases h
      exact ⟨title, cursor, front, next, hbetween, hfront, hfound⟩

theorem readContracts_moves {cursor next : Cursor} {contracts : List ContractLink}
    (h : readContracts cursor = .ok (contracts, next)) :
    next.text = cursor.text ∧ cursor.position ≤ next.position := by
  rcases readContracts_cases cursor with ⟨-, hread⟩ | ⟨label, interfaces, -, -, hlist, hread⟩
  · cases hread.symm.trans h
    exact ⟨rfl, Nat.le_refl _⟩
  · obtain ⟨links, -, hnext⟩ := eq_ok_of_map (hread.symm.trans h)
    cases hnext
    obtain ⟨place, -, -, -, hle⟩ := extractBetween_bounds hlist
    exact Cursor.le_advanceTo cursor hle

section Stages

variable (cursor : Cursor) {next : Cursor} (more : Text)

theorem readGenerics_followedBy {generics : List Text} {tagEnd close : Nat}
    (hopen : cursor.peek ['>'] = some tagEnd)
    (hclose : locate cursor.text headingEnd (tagEnd + 1) = some close)
    (h : readGenerics cursor = .ok (generics, next)) :
    readGenerics (cursor.followedBy more) = .ok (generics, next.followedBy more) ∧
      next = ⟨cursor.text, close + width headingEnd⟩ := by
  obtain ⟨heading, hcut⟩ := cut_of_locate hclose
  rw [readGenerics_eq hopen hclose hcut] at h
  rw [readGenerics_eq (Cursor.peek_followedBy (by simp) hopen more)
    (locate_append (by decide) hclose more) (cut_append hcut more)]
  obtain ⟨found, hgenerics, hnext⟩ := eq_ok_of_map h
  cases hnext
  rw [hgenerics]
  exact ⟨rfl, rfl⟩

theorem readSuperType_followedBy {superType : Option TypeRef} {chain bound : Nat}
    (hchain : cursor.peek inheritanceMark = some chain)
    (hbound : locate cursor.text descriptionMark chain = some bound)
    (h : readSuperType cursor = .ok (superType, next)) :
    readSuperType (cursor.followedBy more) = .ok (superType, next.followedBy more) ∧
      next.text = cursor.text ∧ cursor.position ≤ next.position := by
  obtain ⟨region, hcut⟩ := cut_of_locate hbound
  obtain ⟨links, hlinks⟩ := exists_linksFrom region 0
  have hregion : chain + width region ≤ width cursor.text := by
    have hwidth := width_cut hcut
    have hle := locate_bounds hbound
    omega
  have hread : chain + readTo links ≤ width cursor.text := by
    have := readTo_le hlinks
    omega
  rw [readSuperType_eq hchain hbound hcut hlinks] at h
  cases h
  rw [readSuperType_eq (Cursor.peek_followedBy (by decide) hchain more)
    (locate_append (by decide) hbound more) (cut_append hcut more) hlinks,
    Cursor.advanceTo_followedBy cursor hread more]
  exact ⟨rfl, Cursor.le_advanceTo cursor hread⟩

/-- A list whose label comes before the declaration is read in the same way. -/
theorem readContracts_list_followedBy {contracts : List ContractLink} {label first : Nat}
    {list : Extract} (hlabel : cursor.peek interfacesMark = some label)
    (hfirst : cursor.peek declarationOpening = some first) (hlt : label < first)
    (hlist : extractBetween cursor.text listOpening listClosing label = .ok list)
    (h : readContracts cursor = .ok (contracts, next)) :
    readContracts (cursor.followedBy more) = .ok (contracts, next.followedBy more) := by
  have hbefore : precedesDeclaration cursor label = true := by
    rw [precedesDeclaration, hfirst]
    simpa using hlt
  have hbefore' : precedesDeclaration (cursor.followedBy more) label = true := by
    rw [precedesDeclaration, Cursor.peek_followedBy (by decide) hfirst more]
    simpa using hlt
  obtain ⟨-, -, -, -, hafter⟩ := extractBetween_bounds hlist
  rw [readContracts_list hlabel hbefore hlist] at h
  rw [readContracts_list (Cursor.peek_followedBy (by decide) hlabel more) hbefore'
    (extractBetween_append (by decide) (by decide) hlist more),
    Cursor.advanceTo_followedBy cursor hafter more]
  obtain ⟨links, hlinks, hnext⟩ := eq_ok_of_map h
  cases hnext
  rw [hlinks]
  rfl

/-- Where no label comes before the declaration, none does whatever follows. -/
theorem readContracts_skip_followedBy {place : Nat}
    (hplace : cursor.peek declarationOpening = some place)
    (hskip : ∀ label, cursor.peek interfacesMark = some label →
      precedesDeclaration cursor label = false) :
    readContracts (cursor.followedBy more) = .ok ([], cursor.followedBy more) := by
  have hplace' := Cursor.peek_followedBy (by decide) hplace more
  apply readContracts_skip
  intro label hlabel
  rw [precedesDeclaration, hplace']
  simp only [decide_eq_false_iff_not]
  intro hlt
  -- A label before the declaration is one of the header.
  have hfit := locate_disjoint hlabel hplace' hlt rfl (by decide)
  have hbounds := locate_bounds hplace
  have hfound : cursor.peek interfacesMark = some label :=
    locate_of_append (by decide) hlabel (by omega)
  have hbefore := hskip label hfound
  rw [precedesDeclaration, hplace] at hbefore
  simp only [decide_eq_false_iff_not] at hbefore
  exact hbefore hlt

/-- A label that is found before the declaration stands before all that follows the header. -/
theorem readContracts_followedBy {contracts : List ContractLink} {place : Nat}
    (h : readContracts cursor = .ok (contracts, next))
    (hplace : next.peek declarationOpening = some place)
    (hlists : ∀ label, cursor.peek interfacesMark = some label → label < place →
      ∃ list, extractBetween cursor.text listOpening listClosing label = .ok list) :
    readContracts (cursor.followedBy more) = .ok (contracts, next.followedBy more) := by
  obtain ⟨htext, hmoves⟩ := readContracts_moves h
  by_cases hlabelled : ∃ label, cursor.peek interfacesMark = some label ∧
      precedesDeclaration cursor label = true
  · obtain ⟨label, hlabel, hbefore⟩ := hlabelled
    unfold Cursor.peek at hplace
    rw [htext] at hplace
    obtain ⟨first, hfirst, hle⟩ := locate_le (by decide) hlabel hmoves hplace
    have hlt : label < first := by
      rw [precedesDeclaration, Cursor.peek, hfirst] at hbefore
      simpa using hbefore
    obtain ⟨list, hlist⟩ := hlists label hlabel (by omega)
    exact readContracts_list_followedBy cursor more hlabel hfirst hlt hlist h
  · have hskip : ∀ label, cursor.peek interfacesMark = some label →
        precedesDeclaration cursor label = false := by
      intro label hlabel
      rw [← Bool.not_eq_true]
      exact fun hbefore => hlabelled ⟨label, hlabel, hbefore⟩
    rw [readContracts_skip hskip] at h
    cases h
    exact readContracts_skip_followedBy cursor more hplace hskip

end Stages

namespace ClosedHeader

variable {header : Text}

/-- Whatever follows a closed header, the front and the declaration are read in the same way,
and the cursor is left at the end of the header. -/
theorem stages (h : ClosedHeader header) : ∃ (cursor : Cursor) (front : Front), ∀ more,
    (Cursor.start (header ++ more)).between titleMark ['"'] =
        (.ok h.title, cursor.followedBy more) ∧
      readFront (cursor.followedBy more) =
        .ok { front with cursor := front.cursor.followedBy more } ∧
      (front.cursor.followedBy more).between declarationOpening declarationClosing =
        (.ok h.declaration, ⟨header ++ more, width header⟩) := by
  obtain ⟨title, cursor, front, last, htitle, hfront, hdeclaration⟩ :=
    stages_of_declaration? h.declaration_eq
  obtain ⟨hextract, rfl⟩ := Cursor.eq_of_between htitle
  obtain rfl : h.title = title := Except.ok.inj (h.title_eq.symm.trans hextract)
  obtain ⟨second, third, hgenerics, hsuper, hcontracts⟩ := stages_of_readFront hfront
  obtain ⟨-, rfl⟩ := readGenerics_followedBy ⟨header, h.title.after⟩ []
    h.tagEnd_eq h.headingClose_eq hgenerics
  obtain ⟨-, hthird, -⟩ := readSuperType_followedBy
    ⟨header, h.headingClose + width headingEnd⟩ [] h.chain_eq h.description_eq hsuper
  obtain ⟨hfourth, -⟩ := readContracts_moves hcontracts
  obtain ⟨hfound, rfl⟩ := Cursor.eq_of_between hdeclaration
  rw [hfourth, hthird] at hfound hdeclaration
  obtain ⟨place, hplace, hstart, -, -⟩ := extractBetween_bounds hfound
  have hplace' : front.cursor.peek declarationOpening = some place := by
    rw [Cursor.peek, hfourth, hthird]
    exact hplace
  have hlabel : contractsLabel? header = third.peek interfacesMark := by
    rw [contractsLabel?, htitle]
    simp only []
    rw [hgenerics]
    simp only []
    rw [hsuper]
  have hlists : ∀ label, third.peek interfacesMark = some label → label < place →
      ∃ list, extractBetween third.text listOpening listClosing label = .ok list := by
    intro label hfirst hlt
    rw [hthird]
    exact h.list_eq label (hlabel.trans hfirst) (by omega)
  refine ⟨⟨header, h.title.after⟩, front, ?_⟩
  intro more
  refine ⟨?_, ?_, ?_⟩
  · exact Cursor.between_followedBy (by decide) (by simp) htitle more
  · apply readFront_eq (readGenerics_followedBy ⟨header, h.title.after⟩ more h.tagEnd_eq
      h.headingClose_eq hgenerics).1
    · exact (readSuperType_followedBy ⟨header, h.headingClose + width headingEnd⟩ more h.chain_eq
        h.description_eq hsuper).1
    · exact readContracts_followedBy third more hcontracts hplace' hlists
  · have hnext := Cursor.between_followedBy (by decide) (by decide) hdeclaration more
    rw [hnext, h.ends]
    rfl

/-- What a class page is read as, once its detail data has been read. -/
def readingOf (entity : Entity) (front : Front) (declaration : Text) :
    Except ScanError Detail → Reading
  | .error e => ⟨front.contracts.filterMap ContractLink.note?, .error (.ofScan entity.name e)⟩
  | .ok detail => ⟨front.contracts.filterMap ContractLink.note? ++ detail.notes,
      .ok (.outline (outlineOf entity front declaration detail))⟩

/-- Behind a closed header a page is read for its detail data alone, and for the result only the
members matter that are kept of it. -/
theorem read_of_detail (h : ClosedHeader header) (entity : Entity) :
    ∃ finish : Except ScanError Detail → Reading,
      (∀ more, read (header ++ more) entity =
        finish (readDetail (header ++ more) entity.shortName (width header))) ∧
      ∀ detail detail' : Detail,
        detail.constructors.filterMap BlockReading.member? =
          detail'.constructors.filterMap BlockReading.member? →
        detail.members = detail'.members →
        (finish (.ok detail)).outcome = (finish (.ok detail')).outcome := by
  obtain ⟨cursor, front, hstages⟩ := h.stages
  cases hkind : Kind.ofTitle? (decodeEntities h.title.inner) with
  | none =>
    refine ⟨fun _ => ⟨[], .error (.unrecognizedKind entity.name (decodeEntities h.title.inner))⟩,
      fun more => ?_, fun _ _ _ _ => rfl⟩
    rw [read, (hstages more).1]
    simp only [hkind]
  | some kind =>
    cases kind with
    | iface =>
      refine ⟨fun _ => ⟨[], .ok (.notImplemented .iface)⟩, fun more => ?_, fun _ _ _ _ => rfl⟩
      rw [read, (hstages more).1]
      simp only [hkind]
    | enum =>
      refine ⟨fun _ => ⟨[], .ok (.notImplemented .enum)⟩, fun more => ?_, fun _ _ _ _ => rfl⟩
      rw [read, (hstages more).1]
      simp only [hkind]
    | cls =>
      refine ⟨readingOf entity front h.declaration.inner, fun more => ?_,
        fun detail detail' hconstructors hmembers => ?_⟩
      · obtain ⟨htitle, hfront, hdeclaration⟩ := hstages more
        rw [read, htitle]
        simp only [hkind, readClass]
        rw [hfront]
        simp only []
        rw [hdeclaration]
        rfl
      · simp only [readingOf, outlineOf, hconstructors, hmembers]

/-- The outline of a page with a closed header is decided by the members that are read behind
it. -/
theorem result_eq (h : ClosedHeader header) {more other : Text} {entity : Entity}
    (detail detail' : Detail)
    (hdetail : readDetail (header ++ more) entity.shortName (width header) = .ok detail)
    (hdetail' : readDetail (header ++ other) entity.shortName (width header) = .ok detail')
    (hconstructors : detail.constructors.filterMap BlockReading.member? =
      detail'.constructors.filterMap BlockReading.member?)
    (hmembers : detail.members = detail'.members) :
    result (header ++ more) entity = result (header ++ other) entity := by
  obtain ⟨finish, hread, hkept⟩ := h.read_of_detail entity
  rw [result, result, hread, hread, hdetail, hdetail']
  exact hkept detail detail' hconstructors hmembers

end ClosedHeader

namespace CompleteHeader

variable {header : Text}

theorem exists_list (h : CompleteHeader header) {start label : Nat}
    (hstart : h.headingClose + width headingEnd ≤ start)
    (hlabel : locate header interfacesMark start = some label)
    (hlt : label < h.declaration.start) :
    ∃ list, extractBetween header listOpening listClosing label = .ok list := by
  obtain ⟨front, before, after, hheader, rfl, rfl, -⟩ := locate_eq_some_iff.mp hlabel
  have hsplit : header = (front ++ before) ++ interfacesMark ++ after := by
    rw [hheader]
    simp
  obtain ⟨gap, list, rest, rfl⟩ := h.lists (front ++ before) after hsplit
    (by rw [width_append]; omega) hlt
  have hlist := extractBetween_ok listOpening listClosing (by decide) (by decide)
    (front ++ before) (interfacesMark ++ gap) list rest
  rw [hsplit]
  simpa only [List.append_assoc] using hlist

theorem le_contractsLabel? (h : CompleteHeader header) {label : Nat}
    (hlabel : contractsLabel? header = some label) :
    ∃ start, h.headingClose + width headingEnd ≤ start ∧
      locate header interfacesMark start = some label := by
  obtain ⟨title, cursor, front, last, htitle, hfront, -⟩ := stages_of_declaration? h.declaration_eq
  obtain ⟨hextract, rfl⟩ := Cursor.eq_of_between htitle
  obtain rfl : h.title = title := Except.ok.inj (h.title_eq.symm.trans hextract)
  obtain ⟨second, third, hgenerics, hsuper, -⟩ := stages_of_readFront hfront
  obtain ⟨-, rfl⟩ := readGenerics_followedBy ⟨header, h.title.after⟩ []
    h.tagEnd_eq h.headingClose_eq hgenerics
  obtain ⟨-, hthird, hforward⟩ := readSuperType_followedBy
    ⟨header, h.headingClose + width headingEnd⟩ [] h.chain_eq h.description_eq hsuper
  refine ⟨third.position, hforward, ?_⟩
  rw [contractsLabel?, htitle] at hlabel
  simp only [] at hlabel
  rw [hgenerics] at hlabel
  simp only [] at hlabel
  rw [hsuper] at hlabel
  simp only [Cursor.peek] at hlabel
  rwa [hthird] at hlabel

def toClosed (h : CompleteHeader header) : ClosedHeader header :=
  { h with
    list_eq := fun label hlabel hlt => by
      obtain ⟨start, hstart, hfirst⟩ := h.le_contractsLabel? hlabel
      exact h.exists_list hstart hfirst hlt }

/-- What is read of a page with a complete header is decided by its sections behind it. -/
theorem read_eq (h : CompleteHeader header) {more other : Text}
    (hsections : ∀ heading ∈ detailHeadings, sectionOf heading more = sectionOf heading other)
    (entity : Entity) : read (header ++ more) entity = read (header ++ other) entity := by
  obtain ⟨finish, hread, -⟩ := h.toClosed.read_of_detail entity
  have hdetail : readDetail (header ++ more) entity.shortName (width header) =
      readDetail (header ++ other) entity.shortName (width header) := by
    simp only [readDetail, readSection_eq]
    rw [hsections fieldDetail (by decide), hsections constructorDetail (by decide),
      hsections methodDetail (by decide)]
  rw [hread, hread, hdetail]

end CompleteHeader

/-- The summaries between the header and the detail data, and all that follows the class data,
do not change what a page is read as. -/
theorem result_confined {header data : Text} (hheader : CompleteHeader header)
    (hdata : IsDetailData data) {before before' after after' : Text} (hbefore : FreeOfDetail before)
    (hbefore' : FreeOfDetail before') (hafter : FreeOfDetail after)
    (hafter' : FreeOfDetail after') (entity : Entity) :
    result (header ++ before ++ data ++ after) entity =
      result (header ++ before' ++ data ++ after') entity := by
  have hread : read (header ++ (before ++ (data ++ after))) entity =
      read (header ++ (before' ++ (data ++ after'))) entity := by
    apply hheader.read_eq
    intro heading hheading
    rw [sectionOf_confined hheading hdata hbefore hafter,
      sectionOf_confined hheading hdata hbefore' hafter']
  simp only [List.append_assoc, result, hread]

def stackHeader : Text :=
  titleMark ++ "Class Stack\">Stack&lt;E&gt;".toList ++ headingEnd ++ inheritanceMark ++
    "<a href=\"java/util/Vector.html\">".toList ++ descriptionMark ++ interfacesMark ++
    listOpening ++ "<a href=\"java/util/List.html\">".toList ++ listClosing ++
    "<pre>class Stack</pre>".toList

theorem stackHeader_lists (before after : Text)
    (h : stackHeader = before ++ interfacesMark ++ after) :
    ∃ gap list rest, after = gap ++ listOpening ++ (list ++ listClosing ++ rest) := by
  have hone : ∀ k < stackHeader.length + 1,
      interfacesMark <+: stackHeader.drop k → k = 124 := by decide +kernel
  have hbefore : before.length = 124 := by
    apply hone
    · rw [h, List.length_append, List.length_append]
      omega
    · rw [h, List.append_assoc, List.drop_left]
      exact List.prefix_append _ after
  have hafter : after = stackHeader.drop 151 := by
    have hlength : (before ++ interfacesMark).length = 151 := by
      rw [List.length_append, hbefore]
      decide +kernel
    rw [h, ← hlength, List.drop_left]
  refine ⟨[], "<a href=\"java/util/List.html\">".toList, "<pre>class Stack</pre>".toList, ?_⟩
  rw [hafter]
  decide +kernel

def stackHeaderComplete : CompleteHeader stackHeader where
  title := ⟨"Class Stack".toList, 11, 23⟩
  tagEnd := 23
  headingClose := 38
  chain := 43
  description := 99
  declaration := ⟨"class Stack".toList, 195, 212⟩
  title_eq := by rfl
  tagEnd_eq := by decide +kernel
  headingClose_eq := by decide +kernel
  chain_eq := by decide +kernel
  description_eq := by decide +kernel
  declaration_eq := by decide +kernel
  ends := by
    change 212 = width stackHeader
    decide +kernel
  lists before after h _ _ := stackHeader_lists before after h

def stackData : Text :=
  methodDetail ++ "<h4>peek</h4><pre>E peek()</pre>".toList ++ proseMark ++ "Looks.".toList ++
    classDataEnd

theorem stackData_isDetailData : IsDetailData stackData where
  opens := by
    refine ⟨methodDetail, by decide, ?_⟩
    simp only [stackData, List.append_assoc]
    exact List.prefix_append _ _
  closes := List.suffix_append _ classDataEnd

theorem result_confined_stack :
    FreeOfDetail "<h3>Method Summary</h3>".toList ∧
      result (stackHeader ++ "<h3>Method Summary</h3>".toList ++ stackData ++ [])
          ⟨"java.util.Stack".toList, [], by decide +kernel⟩ =
        result (stackHeader ++ [] ++ stackData ++ "<h4>Related</h4>".toList)
          ⟨"java.util.Stack".toList, [], by decide +kernel⟩ :=
  ⟨by decide +kernel, result_confined stackHeaderComplete stackData_isDetailData
    (by decide +kernel) (by decide +kernel) (by decide +kernel) (by decide +kernel) _⟩

end ClassPage

end ClassSkeleton
