import ClassSkeleton.Proofs.Markup.Seam
import ClassSkeleton.Proofs.Page.Total

/-!
What a class page needs besides its title is one preformatted text. The scan goes forward only, so
the text that is taken for the declaration is the first one behind the optional parts that the
scan has read: heading, inheritance list and list of interfaces. It is the first one behind the
title exactly if all that is read of these parts ends before it. Whatever else the page lacks or
has in excess, it is not refused for it.
-/
namespace ClassSkeleton

namespace ClassPage

open Text Markup

/-- Where the scan goes on behind the heading: past its end, if it has one. -/
def pastHeading (page : Text) (start : Nat) : Nat :=
  match (locate page ['>'] start).bind fun tagEnd => locate page headingEnd (tagEnd + 1) with
  | none => start
  | some close => close + width headingEnd

/-- How far the inheritance list that begins at `chain` is read: past its last link. -/
def chainReach (page : Text) (chain : Nat) : Nat :=
  match cut page chain (chainEnd page chain) with
  | .error _ => chain
  | .ok region => chain + (linksFrom region 0).toOption.elim 0 readTo

def pastChain (page : Text) (start : Nat) : Nat :=
  (locate page inheritanceMark start).elim start (chainReach page)

def pastList (page : Text) (start : Nat) : Nat :=
  match locate page interfacesMark start with
  | none => start
  | some label =>
    if precedesDeclaration ⟨page, start⟩ label then
      (extractBetween page listOpening listClosing label).toOption.elim start (·.after)
    else start

/-- Where the scan looks for the declaration. -/
def pastFront (page : Text) (start : Nat) : Nat :=
  pastList page (pastChain page (pastHeading page start))

structure IsClear (page : Text) (start place : Nat) : Prop where
  heading : ∀ tagEnd close, locate page ['>'] start = some tagEnd →
    locate page headingEnd (tagEnd + 1) = some close → close + width headingEnd ≤ place
  chain : ∀ chain, locate page inheritanceMark (pastHeading page start) = some chain →
    chainReach page chain ≤ place
  list : ∀ label list,
    locate page interfacesMark (pastChain page (pastHeading page start)) = some label →
    label < place → extractBetween page listOpening listClosing label = .ok list →
    list.after ≤ place

theorem isSeam_of_linksFrom {region : Text} {start : Nat} {links : List Link}
    (h : linksFrom region start = .ok links) : ∀ link ∈ links, IsSeam region link.after := by
  intro link hlink
  obtain ⟨first, place, close, -, hclose, -, hafter⟩ := mem_linksFrom h link hlink
  rw [hafter]
  exact isSeam_of_locate hclose

section Positions

variable {page : Text} {start : Nat}

/-- A heading that is closed ends at a seam behind `start`. -/
theorem pastHeading_seam (h : IsSeam page start) :
    start ≤ pastHeading page start ∧ IsSeam page (pastHeading page start) := by
  rw [pastHeading]
  split
  · exact ⟨Nat.le_refl _, h⟩
  · rename_i close hfound
    obtain ⟨tagEnd, hopen, hclose⟩ := Option.bind_eq_some_iff.mp hfound
    have hstart := (locate_bounds hopen).1
    have hend := (locate_bounds hclose).1
    exact ⟨by omega, isSeam_of_locate hclose⟩

theorem exists_chainReach {chain : Nat} (h : locate page inheritanceMark start = some chain) :
    ∃ region links, cut page chain (chainEnd page chain) = .ok region ∧
      linksFrom region 0 = .ok links ∧ chainReach page chain = chain + readTo links := by
  obtain ⟨region, hcut⟩ := exists_cut_chain h
  obtain ⟨links, hlinks⟩ := exists_linksFrom region 0
  refine ⟨region, links, hcut, hlinks, ?_⟩
  rw [chainReach, hcut]
  simp only [hlinks]
  rfl

theorem pastChain_seam (h : IsSeam page start) :
    start ≤ pastChain page start ∧ IsSeam page (pastChain page start) := by
  rw [pastChain]
  cases hchain : locate page inheritanceMark start with
  | none => exact ⟨Nat.le_refl _, h⟩
  | some chain =>
    obtain ⟨region, links, hcut, hlinks, hreach⟩ := exists_chainReach hchain
    have hread : IsSeam region (readTo links) := by
      rw [readTo]
      cases hlast : links.getLast? with
      | none => exact isSeam_zero region
      | some link => exact isSeam_of_linksFrom hlinks link (List.mem_of_getLast? hlast)
    have hstart := (locate_bounds hchain).1
    rw [Option.elim_some, hreach]
    exact ⟨by omega, hread.of_cut hcut⟩

theorem pastList_of_list {label : Nat} {list : Extract}
    (hlabel : locate page interfacesMark start = some label)
    (hbefore : precedesDeclaration ⟨page, start⟩ label = true)
    (hlist : extractBetween page listOpening listClosing label = .ok list) :
    pastList page start = list.after := by
  rw [pastList, hlabel]
  simp only [hbefore, if_true, hlist]
  rfl

theorem pastList_of_none (h : ∀ label list, locate page interfacesMark start = some label →
    precedesDeclaration ⟨page, start⟩ label = true →
    extractBetween page listOpening listClosing label ≠ .ok list) :
    pastList page start = start := by
  rw [pastList]
  split
  · rfl
  · rename_i label hlabel
    split
    · rename_i hbefore
      cases hlist : extractBetween page listOpening listClosing label with
      | error e => rfl
      | ok list => exact absurd hlist (h label list hlabel hbefore)
    · rfl

theorem pastList_seam (h : IsSeam page start) :
    start ≤ pastList page start ∧ IsSeam page (pastList page start) := by
  by_cases hread : ∃ label list, locate page interfacesMark start = some label ∧
      precedesDeclaration ⟨page, start⟩ label = true ∧
      extractBetween page listOpening listClosing label = .ok list
  · obtain ⟨label, list, hlabel, hbefore, hlist⟩ := hread
    obtain ⟨place, hplace, hopen, hclose, -⟩ := extractBetween_bounds hlist
    have hstart := (locate_bounds hlabel).1
    have hbehind := (locate_bounds hplace).1
    rw [pastList_of_list hlabel hbefore hlist]
    exact ⟨by omega, isSeam_of_extractBetween hlist⟩
  · rw [pastList_of_none fun label list hlabel hbefore hlist =>
      hread ⟨label, list, hlabel, hbefore, hlist⟩]
    exact ⟨Nat.le_refl _, h⟩

theorem readGenerics_next {generics : List Text} {next : Cursor}
    (h : readGenerics ⟨page, start⟩ = .ok (generics, next)) :
    next = ⟨page, pastHeading page start⟩ := by
  rcases readGenerics_cases ⟨page, start⟩ with ⟨hnone, hread⟩ |
    ⟨tagEnd, close, heading, hopen, hclose, -, hread⟩
  · have hfound : ((locate page ['>'] start).bind fun tagEnd =>
        locate page headingEnd (tagEnd + 1)) = none := Option.bind_eq_none_iff.mpr hnone
    cases hread.symm.trans h
    rw [pastHeading, hfound]
  · have hfound : ((locate page ['>'] start).bind fun tagEnd =>
        locate page headingEnd (tagEnd + 1)) = some close :=
      Option.bind_eq_some_iff.mpr ⟨tagEnd, hopen, hclose⟩
    obtain ⟨found, -, hnext⟩ := eq_ok_of_map (hread.symm.trans h)
    cases hnext
    rw [pastHeading, hfound]

theorem readSuperType_next {superType : Option TypeRef} {next : Cursor} (hseam : IsSeam page start)
    (h : readSuperType ⟨page, start⟩ = .ok (superType, next)) :
    next = ⟨page, pastChain page start⟩ := by
  obtain ⟨hle, hpast⟩ := pastChain_seam hseam
  rcases readSuperType_cases ⟨page, start⟩ with ⟨hnone, hread⟩ |
    ⟨chain, region, links, hchain, hcut, hlinks, hread⟩
  · unfold Cursor.peek at hnone
    cases hread.symm.trans h
    rw [pastChain, hnone, Option.elim_none]
  · unfold Cursor.peek at hchain
    have hreach : pastChain page start = chain + readTo links := by
      rw [pastChain, hchain, Option.elim_some, chainReach, hcut]
      simp only [hlinks]
      rfl
    rw [hreach] at hle hpast ⊢
    cases hread.symm.trans h
    exact advanceTo_eq hle hpast.le_width

theorem readContracts_next {contracts : List ContractLink} {next : Cursor}
    (hseam : IsSeam page start) (h : readContracts ⟨page, start⟩ = .ok (contracts, next)) :
    next = ⟨page, pastList page start⟩ := by
  obtain ⟨hle, hpast⟩ := pastList_seam hseam
  rcases readContracts_cases ⟨page, start⟩ with ⟨hnone, hread⟩ |
    ⟨label, list, hlabel, hbefore, hlist, hread⟩
  · cases hread.symm.trans h
    rw [pastList_of_none hnone]
  · rw [pastList_of_list hlabel hbefore hlist] at hle hpast ⊢
    obtain ⟨links, -, hnext⟩ := eq_ok_of_map (hread.symm.trans h)
    cases hnext
    exact advanceTo_eq hle hpast.le_width

/-- The declaration is looked for behind all that has been read of the optional parts. -/
theorem readFront_next {front : Front} (hseam : IsSeam page start)
    (h : readFront ⟨page, start⟩ = .ok front) : front.cursor = ⟨page, pastFront page start⟩ := by
  obtain ⟨second, third, hgenerics, hsuper, hcontracts⟩ := stages_of_readFront h
  have hheading := (pastHeading_seam hseam).2
  obtain rfl := readGenerics_next hgenerics
  obtain rfl := readSuperType_next hheading hsuper
  exact readContracts_next (pastChain_seam hheading).2 hcontracts

section Clear

variable {place : Nat} (hseam : IsSeam page start)
  (hplace : locate page declarationOpening start = some place)

include hseam hplace

/-- Once the chain ends before the first preformatted text, the label is compared with that. -/
theorem precedesDeclaration_pastChain (hle : pastChain page (pastHeading page start) ≤ place)
    (label : Nat) :
    precedesDeclaration ⟨page, pastChain page (pastHeading page start)⟩ label = true ↔
      label < place := by
  obtain ⟨hheading, hsecond⟩ := pastHeading_seam hseam
  obtain ⟨hchain, hthird⟩ := pastChain_seam hsecond
  have hpeek : locate page declarationOpening (pastChain page (pastHeading page start)) =
      some place := locate_of_isSeam (by decide) hthird hplace (hheading.trans hchain) hle
  rw [precedesDeclaration, Cursor.peek, hpeek]
  simp

omit hseam in
theorem pastChain_le_of_isClear (hclear : IsClear page start place) :
    pastChain page (pastHeading page start) ≤ place := by
  have hfirst : pastHeading page start ≤ place := by
    rw [pastHeading]
    split
    · exact (locate_bounds hplace).1
    · rename_i close hfound
      obtain ⟨tagEnd, hopen, hclose⟩ := Option.bind_eq_some_iff.mp hfound
      exact hclear.heading tagEnd close hopen hclose
  rw [pastChain]
  cases hfound : locate page inheritanceMark (pastHeading page start) with
  | none => exact hfirst
  | some chain => exact hclear.chain chain hfound

theorem pastFront_le_of_isClear (hclear : IsClear page start place) :
    pastFront page start ≤ place := by
  have hle := pastChain_le_of_isClear hplace hclear
  have hlabel := precedesDeclaration_pastChain hseam hplace hle
  rw [pastFront]
  by_cases hread : ∃ label list,
      locate page interfacesMark (pastChain page (pastHeading page start)) = some label ∧
        label < place ∧ extractBetween page listOpening listClosing label = .ok list
  · obtain ⟨label, list, hfound, hlt, hextract⟩ := hread
    rw [pastList_of_list hfound ((hlabel label).mpr hlt) hextract]
    exact hclear.list label list hfound hlt hextract
  · rwa [pastList_of_none fun label list hfound hbefore hextract =>
      hread ⟨label, list, hfound, (hlabel label).mp hbefore, hextract⟩]

theorem isClear_of_pastFront_le (hle : pastFront page start ≤ place) :
    IsClear page start place := by
  obtain ⟨hheading, hsecond⟩ := pastHeading_seam hseam
  obtain ⟨hchain, hthird⟩ := pastChain_seam hsecond
  obtain ⟨hlist, -⟩ := pastList_seam hthird
  rw [pastFront] at hle
  have hnext : pastChain page (pastHeading page start) ≤ place := hlist.trans hle
  have hlabel := precedesDeclaration_pastChain hseam hplace hnext
  constructor
  case heading =>
    intro tagEnd close hopen hclose
    have hpast : pastHeading page start = close + width headingEnd := by
      rw [pastHeading, hopen, Option.bind_some, hclose]
    omega
  case chain =>
    intro chain hfound
    have hpast : pastChain page (pastHeading page start) = chainReach page chain := by
      rw [pastChain, hfound, Option.elim_some]
    omega
  case list =>
    intro label list hfound hlt hextract
    rwa [pastList_of_list hfound ((hlabel label).mpr hlt) hextract] at hle

/-- The optional parts are clear of the first preformatted text exactly if the scan comes to it. -/
theorem isClear_iff : IsClear page start place ↔ pastFront page start ≤ place :=
  ⟨pastFront_le_of_isClear hseam hplace, isClear_of_pastFront_le hseam hplace⟩

end Clear

end Positions

theorem error_of_bind {ε α β : Type} {step : Except ε α} {next : α → Except ε β} {e : ε}
    (h : (step >>= next) = .error e) :
    step = .error e ∨ ∃ value, step = .ok value ∧ next value = .error e := by
  cases step with
  | error e' =>
    cases h
    exact .inl rfl
  | ok value => exact .inr ⟨value, rfl, h⟩

theorem depth_of_nest {depth change : Int} {e : ScanError} (h : nest depth change = .error e) :
    e = .depth := by
  rw [nest] at h
  split at h
  · cases h
  · exact (Except.error.inj h).symm

theorem depth_of_piecesFrom {separator : Char} {depth : Int} {text : Text} {e : ScanError}
    (h : Declaration.piecesFrom separator depth text = .error e) : e = .depth := by
  induction text generalizing depth with
  | nil => cases h
  | cons c rest ih =>
    have hrest : ∀ {deeper : Int} {next : List Text → Except ScanError (List Text)},
        (∀ pieces, next pieces ≠ .error e) →
        (Declaration.piecesFrom separator deeper rest >>= next) = .error e → e = .depth := by
      intro deeper next hnext hstep
      rcases error_of_bind hstep with hfailed | ⟨pieces, -, hdone⟩
      · exact ih hfailed
      · exact absurd hdone (hnext pieces)
    rw [Declaration.piecesFrom] at h
    split at h
    · rcases error_of_bind h with hfailed | ⟨deeper, -, hstep⟩
      · exact depth_of_nest hfailed
      · exact hrest (by simp [pure, Except.pure]) hstep
    · split at h
      · rcases error_of_bind h with hfailed | ⟨shallower, -, hstep⟩
        · exact depth_of_nest hfailed
        · exact hrest (by simp [pure, Except.pure]) hstep
      · split at h
        · exact hrest (by simp [pure, Except.pure]) h
        · exact hrest (by simp [pure, Except.pure]) h

theorem depth_of_genericsOf {heading : Text} {e : ScanError} (h : genericsOf heading = .error e) :
    e = .depth := by
  rw [genericsOf] at h
  split at h
  · cases h
  · rcases error_of_bind h with hfailed | ⟨pieces, -, hdone⟩
    · exact depth_of_piecesFrom hfailed
    · cases hdone

theorem depth_of_readGenerics {cursor : Cursor} {e : ScanError}
    (h : readGenerics cursor = .error e) : e = .depth := by
  rcases readGenerics_cases cursor with ⟨-, hread⟩ | ⟨tagEnd, close, heading, -, -, -, hread⟩
  · cases hread.symm.trans h
  · exact depth_of_genericsOf (eq_error_of_map (hread.symm.trans h))

theorem depth_of_contractLinksFrom {depth : Int} {candidates : List Text} {e : ScanError}
    (h : contractLinksFrom depth candidates = .error e) : e = .depth := by
  induction candidates generalizing depth with
  | nil => cases h
  | cons candidate candidates ih =>
    rw [contractLinksFrom] at h
    rcases error_of_bind h with hfailed | ⟨deeper, -, hnext⟩
    · exact depth_of_nest hfailed
    · rcases error_of_bind hnext with hfailed | ⟨links, -, hdone⟩
      · exact ih hfailed
      · cases hdone

theorem depth_of_contractLinks {interfaces : Text} {e : ScanError}
    (h : contractLinks interfaces = .error e) : e = .depth := by
  rw [contractLinks] at h
  split at h
  · cases h
  · rcases error_of_bind h with hnest | ⟨depth, -, hlinks⟩
    · exact depth_of_nest hnest
    · exact depth_of_contractLinksFrom hlinks

theorem depth_of_readContracts {cursor : Cursor} {e : ScanError}
    (h : readContracts cursor = .error e) : e = .depth := by
  rcases readContracts_cases cursor with ⟨-, hread⟩ | ⟨label, interfaces, -, -, -, hread⟩
  · cases hread.symm.trans h
  · exact depth_of_contractLinks (eq_error_of_map (hread.symm.trans h))

/-- The optional parts are never at fault for what they lack. -/
theorem depth_of_readFront {cursor : Cursor} {e : ScanError} (h : readFront cursor = .error e) :
    e = .depth ∧ 2147483647 < width cursor.text := by
  constructor
  · rcases error_of_bind h with hfailed | ⟨⟨generics, second⟩, -, hnext⟩
    · exact depth_of_readGenerics hfailed
    obtain ⟨superType, third, hsuper⟩ := exists_readSuperType second
    simp only [hsuper, bind, Except.bind] at hnext
    rcases error_of_bind hnext with hfailed | ⟨contracts, -, hdone⟩
    · exact depth_of_readContracts hfailed
    · cases hdone
  · by_contra hwidth
    obtain ⟨front, hfront⟩ := exists_readFront (Nat.le_of_not_lt hwidth)
    rw [hfront] at h
    cases h

section Class

variable {page : Text} (entity : Entity) {title : Extract}

/-- What becomes of a page with the title of a class. Past the optional parts it needs a
declaration, and nothing else. -/
theorem result_of_title (htitle : extractBetween page titleMark ['"'] 0 = .ok title)
    (hkind : Kind.ofTitle? (decodeEntities title.inner) = some .cls) :
    (∃ declaration outline,
        extractBetween page declarationOpening declarationClosing (pastFront page title.after) =
          .ok declaration ∧
        result page entity = .ok (.outline outline) ∧ outline.kind = .cls ∧
        outline.modifiers = classModifiers .cls declaration.inner) ∨
      (∃ mark, extractBetween page declarationOpening declarationClosing
          (pastFront page title.after) = .error (.missing mark) ∧
        result page entity = .error (.ofScan entity.name (.missing mark))) ∨
      (2147483647 < width page ∧ result page entity = .error (.ofScan entity.name .depth)) := by
  have hbetween : (Cursor.start page).between titleMark ['"'] =
      (.ok title, ⟨page, title.after⟩) := by
    rw [Cursor.between, Cursor.start, htitle]
  have hclass : result page entity = (readClass entity ⟨page, title.after⟩).outcome := by
    rw [result, read, hbetween]
    simp only [hkind]
  rw [hclass, readClass]
  cases hfront : readFront ⟨page, title.after⟩ with
  | error e =>
    obtain ⟨rfl, hwidth⟩ := depth_of_readFront hfront
    exact .inr (.inr ⟨hwidth, rfl⟩)
  | ok front =>
    simp only [Cursor.between, readFront_next (isSeam_of_extractBetween htitle) hfront]
    cases hdeclaration : extractBetween page declarationOpening declarationClosing
        (pastFront page title.after) with
    | error e =>
      obtain ⟨mark, rfl⟩ := missing_of_extractBetween hdeclaration
      exact .inr (.inl ⟨mark, rfl, rfl⟩)
    | ok declaration =>
      obtain ⟨detail, hdetail⟩ := exists_readDetail page entity.shortName declaration.after
      simp only [hdetail]
      refine .inl ⟨declaration, outlineOf entity front declaration.inner detail, rfl, rfl, ?_, ?_⟩
      · rw [outlineOf]
      · rw [outlineOf]

/-- The page is read as a class whose modifiers stand in `declaration`. Only a page of `2 ^ 31`
bytes or more can be refused instead, for the number of its brackets. -/
def IsDeclaredBy (page : Text) (entity : Entity) (declaration : Text) : Prop :=
  (∃ outline, result page entity = .ok (.outline outline) ∧ outline.kind = .cls ∧
      outline.modifiers = classModifiers .cls declaration) ∨
    (2147483647 < width page ∧ result page entity = .error (.ofScan entity.name .depth))

theorem isDeclaredBy_of_pastFront {declaration : Extract}
    (htitle : extractBetween page titleMark ['"'] 0 = .ok title)
    (hkind : Kind.ofTitle? (decodeEntities title.inner) = some .cls)
    (hdeclaration : extractBetween page declarationOpening declarationClosing
      (pastFront page title.after) = .ok declaration) :
    IsDeclaredBy page entity declaration.inner := by
  rcases result_of_title entity htitle hkind with
    ⟨found, outline, hfound, h⟩ | ⟨mark, hmissing, -⟩ | h
  · rw [hdeclaration] at hfound
    cases hfound
    exact .inl ⟨outline, h⟩
  · rw [hdeclaration] at hmissing
    cases hmissing
  · exact .inr h

theorem extractBetween_pastFront {start place : Nat} (hseam : IsSeam page start)
    (hplace : locate page declarationOpening start = some place)
    (hclear : IsClear page start place) :
    extractBetween page declarationOpening declarationClosing (pastFront page start) =
      extractBetween page declarationOpening declarationClosing start := by
  obtain ⟨hheading, hsecond⟩ := pastHeading_seam hseam
  obtain ⟨hchain, hthird⟩ := pastChain_seam hsecond
  obtain ⟨hlist, hfourth⟩ := pastList_seam hthird
  have hpast : locate page declarationOpening (pastFront page start) = some place :=
    locate_of_isSeam (by decide) hfourth hplace (hheading.trans (hchain.trans hlist))
      ((isClear_iff hseam hplace).mp hclear)
  rw [extractBetween, extractBetween, hpast, hplace]

/-- A page with the title of a class is read as a class if a preformatted text stands behind what is
read of its optional parts, and the first one there declares it. That is the first one behind the
title if these parts end before it. -/
theorem isDeclaredBy_of_title (htitle : extractBetween page titleMark ['"'] 0 = .ok title)
    (hkind : Kind.ofTitle? (decodeEntities title.inner) = some .cls) :
    (∀ declaration, extractBetween page declarationOpening declarationClosing
        (pastFront page title.after) = .ok declaration →
      IsDeclaredBy page entity declaration.inner) ∧
    ∀ place declaration, locate page declarationOpening title.after = some place →
      extractBetween page declarationOpening declarationClosing title.after = .ok declaration →
      IsClear page title.after place → IsDeclaredBy page entity declaration.inner := by
  refine ⟨fun declaration hdeclaration => ?_,
    fun place declaration hplace hdeclaration hclear => ?_⟩
  · exact isDeclaredBy_of_pastFront entity htitle hkind hdeclaration
  · have hseam := isSeam_of_extractBetween htitle
    refine isDeclaredBy_of_pastFront entity htitle hkind ?_
    rwa [extractBetween_pastFront hseam hplace hclear]

end Class

/-- A page without a closed heading, with a broken link in its inheritance list and a list of
interfaces behind the declaration. -/
def untidyPage : Text :=
  "<h2 title=\"Class X\">".toList ++ inheritanceMark ++
    "<a href=\"p/Y.html\"><a href=\"p/Z<pre>public class X</pre>".toList ++ interfacesMark ++
    listOpening

/-- A page whose inheritance list stands between two preformatted texts. -/
def invertedPage (rest : Text) : Text :=
  "<h2 title=\"Class X\"><pre>public class X</pre>".toList ++ inheritanceMark ++ rest

def untidyEntity : Entity := ⟨"q.X".toList, [], by decide +kernel⟩

theorem isDeclaredBy_of_title_untidy :
    (IsClear untidyPage 19 75 ∧
      ∃ outline, result untidyPage untidyEntity = .ok (.outline outline) ∧ outline.kind = .cls ∧
        outline.modifiers = classModifiers .cls "public class X".toList) ∧
    IsDeclaredBy (invertedPage "<pre>final class X</pre>".toList) untidyEntity
      "final class X".toList := by
  constructor
  · have htitle : extractBetween untidyPage titleMark ['"'] 0 = .ok ⟨"Class X".toList, 11, 19⟩ := by
      decide +kernel
    have hplace : locate untidyPage declarationOpening 19 = some 75 := by decide +kernel
    have hclear : IsClear untidyPage 19 75 :=
      (isClear_iff (isSeam_of_extractBetween htitle) hplace).mpr (by decide +kernel)
    have hdeclaration : extractBetween untidyPage declarationOpening declarationClosing 19 =
        .ok ⟨"public class X".toList, 80, 100⟩ := by decide +kernel
    have hwidth : ¬ 2147483647 < width untidyPage := by decide +kernel
    have hread := (isDeclaredBy_of_title untidyEntity htitle (by decide +kernel)).2 75 _ hplace
      hdeclaration hclear
    exact ⟨hclear, hread.resolve_right fun h => hwidth h.1⟩
  · have htitle :
        extractBetween (invertedPage "<pre>final class X</pre>".toList) titleMark ['"'] 0 =
        .ok ⟨"Class X".toList, 11, 19⟩ := by decide +kernel
    obtain ⟨hread, -⟩ := isDeclaredBy_of_title untidyEntity htitle (by decide +kernel)
    exact hread ⟨"final class X".toList, 74, 93⟩ (by decide +kernel)

/-- The scan does not go back: an inheritance list behind the declaration takes it past it. -/
theorem not_isDeclaredBy_of_inverted :
    ¬ ∀ page entity title declaration, extractBetween page titleMark ['"'] 0 = .ok title →
      Kind.ofTitle? (decodeEntities title.inner) = some .cls →
      extractBetween page declarationOpening declarationClosing title.after = .ok declaration →
      ∃ outline, result page entity = .ok (.outline outline) ∧ outline.kind = .cls ∧
        outline.modifiers = classModifiers .cls declaration.inner := by
  intro h
  have htitle : extractBetween (invertedPage []) titleMark ['"'] 0 =
      .ok ⟨"Class X".toList, 11, 19⟩ := by decide +kernel
  have hdeclaration : extractBetween (invertedPage []) declarationOpening declarationClosing 19 =
      .ok ⟨"public class X".toList, 25, 45⟩ := by decide +kernel
  obtain ⟨outline, hread, -⟩ :=
    h (invertedPage []) untidyEntity _ _ htitle (by decide +kernel) hdeclaration
  have hfails : result (invertedPage []) untidyEntity =
      .error (.ofScan untidyEntity.name (.missing declarationOpening)) := by decide +kernel
  rw [hfails] at hread
  cases hread

end ClassPage

end ClassSkeleton
