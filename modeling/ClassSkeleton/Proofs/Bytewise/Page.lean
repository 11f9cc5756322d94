import ClassSkeleton.Proofs.Bytewise.Declaration
import ClassSkeleton.Proofs.Page.Total

/-!
A class page read by byte offsets and with counts of 32 bits. Every piece of the page is cut out
between two offsets, and every count of brackets is checked, whether it is a depth or a number of
occurrences. A page of fewer than `2 ^ 31` bytes is read in this way as it is without offsets: no
cut fails and no count leaves its range.
-/
namespace ClassSkeleton

open Text Markup ClassPage

namespace Bytewise

def genericsOf (heading : Text) : Except ScanError (List Text) := do
  match ← outerArguments? (← plainText heading) with
  | none => return []
  | some inner => Declaration.splitTopLevel inner ','

theorem genericsOf_eq (heading : Text) : genericsOf heading = ClassPage.genericsOf heading := by
  rw [genericsOf, plainText_eq, ok_bind, outerArguments?_eq, ok_bind, ClassPage.genericsOf]
  cases Declaration.outerArguments? (Markup.plainText heading) <;> rfl

def readGenerics (cursor : Cursor) : Except ScanError (List Text × Cursor) :=
  match cursor.peek ['>'] with
  | none => .ok ([], cursor)
  | some tagEnd =>
    match locate cursor.text headingEnd (tagEnd + width ['>']) with
    | none => .ok ([], cursor)
    | some close => do
      let generics ← genericsOf (← cut cursor.text (tagEnd + width ['>']) close)
      return (generics, cursor.advanceTo (close + width headingEnd))

theorem readGenerics_eq (cursor : Cursor) :
    readGenerics cursor = ClassPage.readGenerics cursor := by
  cases hopen : cursor.peek ['>'] with
  | none => rw [readGenerics, ClassPage.readGenerics, hopen]
  | some tagEnd =>
    have hquote : width ['>'] = 1 := rfl
    cases hclose : locate cursor.text headingEnd (tagEnd + 1) with
    | none =>
      rw [readGenerics, ClassPage.readGenerics, hopen]
      simp only [hquote, hclose]
    | some close =>
      obtain ⟨heading, hcut⟩ := cut_of_locate hclose
      rw [readGenerics, ClassPage.readGenerics, hopen]
      simp only [hquote, hclose, hcut, ok_bind, genericsOf_eq, ClassPage.genericsOf]
      cases Declaration.outerArguments? (Markup.plainText heading) <;> rfl

def readSuperType (cursor : Cursor) : Except ScanError (Option TypeRef × Cursor) :=
  match cursor.peek inheritanceMark with
  | none => .ok (none, cursor)
  | some chain => do
    let region ← cut cursor.text chain (chainEnd cursor.text chain)
    let links ← linksFrom region 0
    let targets ← links.mapM fun link => ofTarget? link.target
    return ((targets.filterMap id).getLast?, cursor.advanceTo (chain + readTo links))

theorem readSuperType_eq (cursor : Cursor) :
    readSuperType cursor = ClassPage.readSuperType cursor := by
  rw [readSuperType, ClassPage.readSuperType]
  cases cursor.peek inheritanceMark with
  | none => rfl
  | some chain =>
    have htargets : ∀ links : List Link,
        (links.mapM fun link => ofTarget? link.target) =
          .ok (links.map fun link => TypeRef.ofTarget? link.target) := by
      intro links
      simp only [ofTarget?_eq]
      exact List.mapM_pure
    simp only [htargets, ok_bind, List.filterMap_map]
    rfl

def contractLink (candidate : Text) : Except ScanError ContractLink :=
  match locate candidate ['"'] 0 with
  | none => .ok .malformed
  | some quote =>
    if 0 < quote then do
      let target ← cut candidate 0 quote
      match ← ofTarget? target with
      | none => return .unusable target
      | some ref => return .type ref
    else .ok .malformed

theorem contractLink_eq (candidate : Text) :
    contractLink candidate = .ok (ClassPage.contractLink candidate) := by
  rw [contractLink, ClassPage.contractLink, locate_zero]
  cases hquote : breakAt? ['"'] candidate with
  | none => rfl
  | some parts =>
    obtain ⟨target, rest⟩ := parts
    obtain rfl := eq_of_breakAt? hquote
    simp only [Option.map_some]
    cases target with
    | nil => rfl
    | cons c target =>
      have hpos : 0 < width (c :: target) := by
        have hc := Char.utf8Size_pos c
        rw [width_cons]
        omega
      rw [if_pos hpos, List.append_assoc, cut_to_width, ok_bind, ofTarget?_eq, ok_bind]
      simp only [List.isEmpty_cons, Bool.false_eq_true, if_false]
      cases TypeRef.ofTarget? (c :: target) <;> rfl

/-- Type argument brackets opened and not closed in a fragment, counted with 32 bits. -/
def bracketBalance (fragment : Text) : Except ScanError Int := do
  let opened ← nest 0 (occurrences "&lt;".toList fragment)
  let closed ← nest 0 (occurrences "&gt;".toList fragment)
  nest opened (-closed)

theorem bracketBalance_eq {fragment : Text} (h : fragment.length ≤ 2147483647) :
    bracketBalance fragment = .ok (ClassPage.bracketBalance fragment) := by
  have hopened := occurrences_le (show "&lt;".toList ≠ [] by decide) fragment
  have hclosed := occurrences_le (show "&gt;".toList ≠ [] by decide) fragment
  rw [bracketBalance, Declaration.nest_eq (by omega) (by omega), ok_bind,
    Declaration.nest_eq (by omega) (by omega), ok_bind,
    Declaration.nest_eq (by omega) (by omega), ClassPage.bracketBalance]
  congr 1
  omega

def contractLinksFrom (depth : Int) : List Text → Except ScanError (List ContractLink)
  | [] => .ok []
  | candidate :: candidates => do
    let balance ← bracketBalance candidate
    let links ← contractLinksFrom (← nest depth balance) candidates
    if depth = 0 then return (← contractLink candidate) :: links else return links

theorem contractLinksFrom_eq (depth : Int) {candidates : List Text}
    (h : candidates.flatten.length ≤ 2147483647) :
    contractLinksFrom depth candidates = ClassPage.contractLinksFrom depth candidates := by
  induction candidates generalizing depth with
  | nil => rfl
  | cons candidate candidates ih =>
    rw [List.flatten_cons, List.length_append] at h
    rw [contractLinksFrom, ClassPage.contractLinksFrom, bracketBalance_eq (by omega), ok_bind,
      contractLink_eq]
    cases nest depth (ClassPage.bracketBalance candidate) with
    | error e => rfl
    | ok deeper =>
      rw [ok_bind, ok_bind, ih deeper (by omega)]
      cases ClassPage.contractLinksFrom deeper candidates with
      | error e => rfl
      | ok links =>
        rw [ok_bind, ok_bind]
        split <;> rfl

def contractLinks (interfaces : Text) : Except ScanError (List ContractLink) :=
  match splitOn linkMark interfaces with
  | [] => .ok []
  | front :: candidates => do
    let balance ← bracketBalance front
    contractLinksFrom (← nest 0 balance) candidates

theorem contractLinks_eq {interfaces : Text} (h : interfaces.length ≤ 2147483647) :
    contractLinks interfaces = ClassPage.contractLinks interfaces := by
  have hlength := length_splitOn (show linkMark ≠ [] by decide) interfaces
  rw [contractLinks, ClassPage.contractLinks]
  cases hsplit : splitOn linkMark interfaces with
  | nil => rfl
  | cons front candidates =>
    rw [hsplit, List.flatten_cons, List.length_append] at hlength
    have hfront : front.length ≤ 2147483647 := by omega
    have hcandidates : ∀ depth, contractLinksFrom depth candidates =
        ClassPage.contractLinksFrom depth candidates :=
      fun depth => contractLinksFrom_eq depth (by omega)
    simp only [bracketBalance_eq hfront, ok_bind, hcandidates]

def readContracts (cursor : Cursor) : Except ScanError (List ContractLink × Cursor) :=
  match cursor.peek interfacesMark with
  | none => .ok ([], cursor)
  | some label =>
    if precedesDeclaration cursor label then
      match extractBetween cursor.text listOpening listClosing label with
      | .error (.missing _) => .ok ([], cursor)
      | .error e => .error e
      | .ok interfaces => do
        let links ← contractLinks interfaces.inner
        return (links, cursor.advanceTo interfaces.after)
    else .ok ([], cursor)

theorem readContracts_eq {cursor : Cursor} (h : width cursor.text ≤ 2147483647) :
    readContracts cursor = ClassPage.readContracts cursor := by
  rw [readContracts, ClassPage.readContracts]
  cases cursor.peek interfacesMark with
  | none => rfl
  | some label =>
    simp only []
    cases hlist : extractBetween cursor.text listOpening listClosing label with
    | error e => cases e <;> rfl
    | ok interfaces =>
      have hinner := (infix_of_extractBetween hlist).length_le
      have hlength := length_le_width cursor.text
      have hinterfaces : interfaces.inner.length ≤ 2147483647 := by omega
      simp only [contractLinks_eq hinterfaces]

def readFront (cursor : Cursor) : Except ScanError Front := do
  let (generics, cursor) ← readGenerics cursor
  let (superType, cursor) ← readSuperType cursor
  let (contracts, cursor) ← readContracts cursor
  return ⟨generics, superType, contracts, cursor⟩

theorem readFront_eq {cursor : Cursor} (h : width cursor.text ≤ 2147483647) :
    readFront cursor = ClassPage.readFront cursor := by
  obtain ⟨front, hfront⟩ := exists_readFront h
  obtain ⟨second, third, hgenerics, hsuper, -⟩ := stages_of_readFront hfront
  have hthird : width third.text ≤ 2147483647 := by
    rw [text_readSuperType hsuper, text_readGenerics hgenerics]
    exact h
  rw [readFront, ClassPage.readFront, readGenerics_eq, hgenerics, ok_bind, ok_bind]
  simp only [readSuperType_eq, hsuper, ok_bind, readContracts_eq hthird]

def classModifiers (kind : Kind) (declaration : Text) : Except ScanError (List Text) := do
  let words := splitOn [' '] (← plainText declaration)
  if words.contains kind.keyword then
    return (words.takeWhile (· != kind.keyword)).filter fun word =>
      !word.isEmpty && ! (['@'].isPrefixOf word)
  else return []

theorem classModifiers_eq (kind : Kind) (declaration : Text) :
    classModifiers kind declaration = .ok (ClassPage.classModifiers kind declaration) := by
  rewrite [classModifiers, ClassPage.classModifiers, plainText_eq, ok_bind]
  simp only [pure, Except.pure, apply_ite Except.ok]

def shortName (name : Text) : Except ScanError Text :=
  match lastPlace? '.' name with
  | none => .ok name
  | some place => cutFrom name (place + width ['.'])

theorem shortName_eq (entity : Entity) : shortName entity.name = .ok entity.shortName := by
  rw [shortName, Entity.shortName, Entity.segments]
  by_cases hdot : '.' ∈ entity.name
  · obtain ⟨package, name, hname, hlast⟩ := exists_last hdot
    have hcut := cutFrom_width (package ++ ['.']) name
    rw [width_append, List.append_assoc, List.singleton_append] at hcut
    rw [hname, lastPlace?_append package hlast, splitOn_append_char, splitOn_eq_self hlast]
    simp only [hcut, List.getLastD_concat]
  · rw [lastPlace?_eq_none hdot, splitOn_eq_self hdot]
    rfl

def readMember (self fragment documentation : Text) : Except ScanError BlockReading := do
  match ← signature self fragment with
  | .error refusal => return .refused refusal
  | .ok signature =>
    return .kept
      { signature
        visibility := ← visibility fragment
        isAbstract := (splitOn [' '] signature).contains "abstract".toList
        documentation }

theorem readMember_eq (self fragment documentation : Text) :
    readMember self fragment documentation =
      .ok (ClassPage.readMember self fragment documentation) := by
  rw [readMember, ClassPage.readMember, signature_eq, ok_bind, visibility_eq]
  cases Declaration.signature self fragment <;> rfl

def readBlock (proseNeeded : Bool) (self block : Text) : Except ScanError BlockReading :=
  match extractBetween block declarationOpening declarationClosing 0 with
  | .error (.missing _) => .ok .withoutDeclaration
  | .error e => .error e
  | .ok declaration =>
    match locate block proseMark declaration.after with
    | none => do
      if proseNeeded then return .undocumented (← plainText declaration.inner)
      else readMember self declaration.inner []
    | some place => do
      let prose ← cut block place (width block)
      readMember self declaration.inner (← reflow prose)

theorem readBlock_eq (proseNeeded : Bool) (self block : Text) :
    readBlock proseNeeded self block = ClassPage.readBlock proseNeeded self block := by
  rw [readBlock, ClassPage.readBlock]
  cases extractBetween block declarationOpening declarationClosing 0 with
  | error e => cases e <;> rfl
  | ok declaration =>
    simp only [plainText_eq, reflow_eq, readMember_eq, ok_bind]
    cases locate block proseMark declaration.after <;> rfl

def readSection (page heading : Text) (proseNeeded : Bool) (self : Text) (start : Nat) :
    Except ScanError (List BlockReading) := do
  match ← detailSection page heading start with
  | none => return []
  | some detail => (← memberBlocks detail).mapM (readBlock proseNeeded self)

theorem readSection_eq (page heading : Text) (proseNeeded : Bool) (self : Text) (start : Nat) :
    readSection page heading proseNeeded self start =
      ClassPage.readSection page heading proseNeeded self start := by
  have hblock : readBlock proseNeeded self = ClassPage.readBlock proseNeeded self :=
    funext (readBlock_eq proseNeeded self)
  rewrite [readSection, ClassPage.readSection, hblock]
  rfl

def readDetail (page self : Text) (start : Nat) : Except ScanError Detail := do
  let fields ← readSection page fieldDetail true self start
  let constructors ← readSection page constructorDetail false self start
  let methods ← readSection page methodDetail true self start
  return ⟨fields, constructors, methods⟩

theorem readDetail_eq (page self : Text) (start : Nat) :
    readDetail page self start = ClassPage.readDetail page self start := by
  simp only [readDetail, ClassPage.readDetail, readSection_eq]

/-- What the declaration of a class and the sections after it come to. -/
def readRest (entity : Entity) (declaration : Text) (cursor : Cursor) :
    Except ScanError (List Text × Detail) := do
  let modifiers ← classModifiers .cls declaration
  let self ← shortName entity.name
  return (modifiers, ← readDetail cursor.text self cursor.position)

def readClass (entity : Entity) (cursor : Cursor) : Reading :=
  let failed (notes : List PageNote) (e : ScanError) : Reading :=
    ⟨notes, .error (.ofScan entity.name e)⟩
  match readFront cursor with
  | .error e => failed [] e
  | .ok front =>
    let notes := front.contracts.filterMap ContractLink.note?
    match front.cursor.between declarationOpening declarationClosing with
    | (.error e, _) => failed notes e
    | (.ok declaration, cursor) =>
      match readRest entity declaration.inner cursor with
      | .error e => failed notes e
      | .ok (modifiers, detail) =>
        let outline := outlineOf entity front declaration.inner detail
        ⟨notes ++ detail.notes, .ok (.outline { outline with modifiers })⟩

theorem readClass_eq (entity : Entity) {cursor : Cursor} (h : width cursor.text ≤ 2147483647) :
    readClass entity cursor = ClassPage.readClass entity cursor := by
  have hrest : ∀ declaration next, readRest entity declaration next =
      (ClassPage.readDetail next.text entity.shortName next.position).map
        (ClassPage.classModifiers .cls declaration, ·) := by
    intro declaration next
    rw [readRest, classModifiers_eq, ok_bind, shortName_eq, ok_bind, readDetail_eq]
    cases ClassPage.readDetail next.text entity.shortName next.position <;> rfl
  obtain ⟨front, hfront⟩ := exists_readFront h
  simp only [readClass, ClassPage.readClass, readFront_eq h, hfront, hrest]
  obtain ⟨reading, next⟩ := front.cursor.between declarationOpening declarationClosing
  cases reading with
  | error e => rfl
  | ok declaration =>
    simp only []
    cases ClassPage.readDetail next.text entity.shortName next.position <;> rfl

/-- A page read by byte offsets. -/
def read (page : Text) (entity : Entity) : Reading :=
  match (Cursor.start page).between titleMark ['"'] with
  | (.error e, _) => ⟨[], .error (.ofScan entity.name e)⟩
  | (.ok title, cursor) =>
    let title := decodeEntities title.inner
    match Kind.ofTitle? title with
    | none => ⟨[], .error (.unrecognizedKind entity.name title)⟩
    | some .cls => readClass entity cursor
    | some kind => ⟨[], .ok (.notImplemented kind)⟩

theorem read_eq {page : Text} (hpage : width page ≤ 2147483647) (entity : Entity) :
    read page entity = ClassPage.read page entity := by
  rewrite [read, ClassPage.read]
  obtain ⟨reading, cursor, hbetween⟩ :
      ∃ reading cursor, (Cursor.start page).between titleMark ['"'] = (reading, cursor) :=
    ⟨_, _, rfl⟩
  rewrite [hbetween]
  cases reading with
  | error e => rfl
  | ok title =>
    have hcursor : width cursor.text ≤ 2147483647 := by
      rw [(Cursor.eq_of_between hbetween).2]
      exact hpage
    dsimp only
    rewrite [readClass_eq entity hcursor]
    cases Kind.ofTitle? (decodeEntities title.inner) with
    | none => rfl
    | some kind => cases kind <;> rfl

/-- With every cut and every count checked a page is read as it is without the checks, and all that
can be wrong with it is a mark that it lacks or a title of no known kind. So every cut has its
offsets in range, in order and between characters, and no count leaves its 32 bits. -/
theorem read_within_bounds {page : Text} (hpage : width page < 2147483648) (entity : Entity) :
    read page entity = ClassPage.read page entity ∧
      ∀ failure, (read page entity).outcome = .error failure →
        (∃ mark, failure = .structural entity.name (ScanError.missing mark).message) ∨
          ∃ title, failure = .unrecognizedKind entity.name title := by
  have hsize : width page ≤ 2147483647 := by omega
  have hread := read_eq hsize entity
  refine ⟨hread, fun failure hfailure => ?_⟩
  rw [hread] at hfailure
  exact error_of_result hsize hfailure

/-- A page with tags, links, entities and brackets that are not closed, among characters of two and
of three bytes. -/
def tornPage : Text :=
  titleMark ++ "Class É\" lang=é>É&lt;&lt;→,É&gt;&gt;&gt;".toList ++ headingEnd ++
    inheritanceMark ++ "<a href=\"../é/É.html\">→</a><a href=\"→\"".toList ++
    interfacesMark ++ "<dd>&gt;<a href=\"\"é<a href=\"→://é/→</dd>".toList ++
    "<pre>final class É<→</pre>".toList ++ methodDetail ++ memberHeading ++
    "<pre>→ <a href=\"é>É&l&gt;É(<→</pre>".toList ++ proseMark ++ "é<→>É&nbsp".toList

def tornEntity : Entity := ⟨"→.É".toList, [], by decide +kernel⟩

theorem read_within_bounds_torn :
    width tornPage < 2147483648 ∧ read tornPage tornEntity = ClassPage.read tornPage tornEntity ∧
      ∀ failure, (read tornPage tornEntity).outcome = .error failure →
        (∃ mark, failure = .structural tornEntity.name (ScanError.missing mark).message) ∨
          ∃ title, failure = .unrecognizedKind tornEntity.name title :=
  ⟨by decide +kernel, read_within_bounds (by decide +kernel) tornEntity⟩

end Bytewise

end ClassSkeleton
