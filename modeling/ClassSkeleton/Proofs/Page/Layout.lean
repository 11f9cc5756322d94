import ClassSkeleton.Proofs.Declaration.Provenance
import ClassSkeleton.Proofs.Page.Heading
import ClassSkeleton.Proofs.Page.Lists
import ClassSkeleton.Proofs.Page.Members

/-!
A class page as it is laid out: title and heading, the inheritance list if there is one, the
description with the interfaces if there are any, the class declaration, the detail sections and
the end of the class data, with arbitrary text in the gaps. The marks stand only where the layout
puts them, or at least not before the place at which they are looked for. Reading such a page
gives back everything that was written into it.
-/
namespace ClassSkeleton.ClassPage

open Text Markup Declaration

structure Layout where
  before : Text
  name : Text
  titleRest : Text
  parameters : List Text
  chain : Option Chain
  gap : Text
  introduction : Text
  contracts : Option ContractList
  modifiers : List Text
  declarationRest : Text
  summary : Text
  fields : Option MemberSection
  constructors : Option MemberSection
  methods : Option MemberSection
  after : Text

namespace Layout

variable (layout : Layout)

def sections : List (Text × Option MemberSection) :=
  [(fieldDetail, layout.fields), (constructorDetail, layout.constructors),
    (methodDetail, layout.methods)]

def detail : Text :=
  layout.summary ++ (sectionsText layout.sections ++ (classDataEnd ++ layout.after))

def declaration : Text := declarationOf layout.modifiers layout.declarationRest

def declared : Text :=
  declarationOpening ++ (layout.declaration ++ declarationClosing ++ layout.detail)

/-- What stands between the last parent and the interfaces or, without them, the declaration. -/
def lead : Text :=
  (layout.chain.elim [] fun chain => if chain.links.isEmpty then inheritanceMark else []) ++
    layout.gap ++ descriptionMark ++ layout.introduction

def body : Text :=
  (layout.chain.elim [] fun chain => chain.lead ++ chain.read) ++
    (layout.lead ++ (layout.contracts.elim [] ContractList.text ++ layout.declared))

def titled : Text := layout.before ++ titleMark ++ titleOf layout.name ++ ['"']

def headed : Text :=
  layout.titled ++ layout.titleRest ++ ['>'] ++ escape (headingOf layout.name layout.parameters) ++
    headingEnd

def print : Text := layout.headed ++ layout.body

/-- The marks stand where the layout puts them. -/
structure IsProper : Prop where
  title : ¬ titleMark <:+: layout.before
  name : '"' ∉ layout.name ∧ '<' ∉ layout.name
  titleRest : '>' ∉ layout.titleRest
  entities : ∀ entity ∈ entities, ¬ entity <:+: headingOf layout.name layout.parameters
  parameters : ∀ parameter ∈ layout.parameters, IsParameter parameter
  noChain : layout.chain = none → ¬ inheritanceMark <:+: layout.print
  chain : ∀ chain, layout.chain = some chain → ¬ inheritanceMark <:+: chain.lead ∧
    (∀ link ∈ chain.links, link.IsProper) ∧ ¬ linkMark <:+: layout.gap ∧
    ¬ descriptionMark <:+: chain.list ++ layout.gap
  label : ¬ interfacesMark <:+: layout.lead
  opening : ¬ declarationOpening <:+: layout.lead
  contracts : ∀ list, layout.contracts = some list → list.IsProper
  modifiers : ∀ word ∈ layout.modifiers, IsModifier word
  closing : ¬ declarationClosing <:+: layout.declaration
  summary : FreeOfDetail layout.summary
  noSection : ∀ heading, (heading, none) ∈ layout.sections → ¬ heading <:+: layout.print
  sections : ∀ heading members, (heading, some members) ∈ layout.sections → members.IsProper

/-- The outline of the class that the page describes. Which members are methods is seen from
their signatures. -/
def outline (entity : Entity) : Outline :=
  let members := membersOf entity.shortName layout.fields ++
    membersOf entity.shortName layout.methods
  { entity
    kind := .cls
    modifiers := layout.modifiers
    generics := layout.parameters
    superType := layout.chain.bind Chain.parent?
    implemented := Outline.contractsOf
      ((layout.contracts.elim [] (·.contracts)).filterMap fun contract =>
        TypeRef.ofTarget? contract.target)
    constructors := membersOf entity.shortName layout.constructors
    methods := members.filter (·.isCallable)
    fields := members.filter fun member => !member.isCallable }

/-- No field has an opening parenthesis, and every method has one outside of tags and links. -/
structure TellsApart : Prop where
  fields : ∀ members, layout.fields = some members →
    ∀ block ∈ members.blocks, '(' ∉ block.declaration
  methods : ∀ members, layout.methods = some members →
    ∀ block ∈ members.blocks, Item.punctuation '(' ∈ items block.declaration

end Layout

variable {layout : Layout}

theorem sectionOf_detail (h : layout.IsProper) {heading : Text} {members : Option MemberSection}
    (hmem : (heading, members) ∈ layout.sections) :
    sectionOf heading layout.detail = members.map (·.body) := by
  have hheadings : ∀ part ∈ layout.sections, part.1 ∈ detailHeadings := by
    intro part hpart
    have hall : part.1 ∈ layout.sections.map (·.1) := List.mem_map_of_mem hpart
    exact hall
  have hheading := hheadings _ hmem
  cases members with
  | none =>
    have hprint : layout.detail <:+ layout.print := by
      refine ⟨layout.headed ++ ((layout.chain.elim [] fun chain => chain.lead ++ chain.read) ++
        (layout.lead ++ (layout.contracts.elim [] ContractList.text ++ (declarationOpening ++
          (layout.declaration ++ declarationClosing))))), ?_⟩
      simp only [Layout.print, Layout.body, Layout.declared, List.append_assoc]
    have hnone : ¬ heading <:+: layout.detail := fun hocc =>
      h.noSection heading hmem (hocc.trans hprint.isInfix)
    rw [sectionOf, (breakAt?_eq_none_iff (mem_sectionEnds hheading).2 _).mpr hnone]
    rfl
  | some members =>
    have hproper : ∀ part ∈ layout.sections, ∀ members, part.2 = some members →
        members.IsProper := by
      rintro ⟨other, found⟩ hpart found' rfl
      exact h.sections other found' hpart
    have hnodup : (layout.sections.map (·.1)).Nodup := by
      change [fieldDetail, constructorDetail, methodDetail].Nodup
      decide
    obtain ⟨mark, hmark, rest, hopens⟩ := sectionsText_opens hheadings layout.after
    have hpass : Passes heading layout.summary
        (sectionsText layout.sections ++ (classDataEnd ++ layout.after)) := by
      rw [hopens]
      exact passes_of_apart rest (h.summary heading hheading)
        (apart_sectionEnds (mem_sectionEnds hheading).1 hmark)
    rw [Layout.detail, sectionOf_of_passes hpass,
      sectionOf_sectionsText hheadings hproper hnodup hmem layout.after]
    rfl

theorem readDetail_detail (h : layout.IsProper) (front self : Text) :
    ∃ detail, readDetail (front ++ layout.detail) self (width front) = .ok detail ∧
      detail.fields.filterMap BlockReading.member? = membersOf self layout.fields ∧
      detail.constructors.filterMap BlockReading.member? = membersOf self layout.constructors ∧
      detail.methods.filterMap BlockReading.member? = membersOf self layout.methods := by
  have hread : ∀ (heading : Text) (members : Option MemberSection) (proseNeeded : Bool),
      (heading, members) ∈ layout.sections → ∃ readings,
        readSection (front ++ layout.detail) heading proseNeeded self (width front) = .ok readings ∧
          readings.filterMap BlockReading.member? = membersOf self members := by
    intro heading members proseNeeded hmem
    rw [readSection_eq, sectionOf_detail h hmem]
    cases members with
    | none => exact ⟨[], rfl, rfl⟩
    | some members =>
      have hproper := h.sections heading members hmem
      simp only [Option.map_some]
      rw [blocksOf_body hproper]
      exact mapM_readBlock hproper.blocks proseNeeded self
  obtain ⟨fields, hfields, hfields'⟩ :=
    hread fieldDetail layout.fields true (by simp [Layout.sections])
  obtain ⟨constructors, hconstructors, hconstructors'⟩ :=
    hread constructorDetail layout.constructors false (by simp [Layout.sections])
  obtain ⟨methods, hmethods, hmethods'⟩ :=
    hread methodDetail layout.methods true (by simp [Layout.sections])
  refine ⟨⟨fields, constructors, methods⟩, ?_, hfields', hconstructors', hmethods'⟩
  rw [readDetail, hfields]
  simp only [bind, Except.bind]
  rw [hconstructors]
  simp only []
  rw [hmethods]
  rfl

theorem between_width {page front gap inner rest opening closing : Text}
    (hpage : page = front ++ (gap ++ opening ++ (inner ++ closing ++ rest)))
    (hopening : opening ≠ [])
    (hclosing : closing ≠ []) (hgap : Passes opening gap (opening ++ (inner ++ closing ++ rest)))
    (hinner : Passes closing inner (closing ++ rest)) :
    (Cursor.mk page (width front)).between opening closing =
      (.ok ⟨inner, width (front ++ gap ++ opening),
          width (front ++ gap ++ opening ++ inner ++ closing)⟩,
        ⟨page, width (front ++ gap ++ opening ++ inner ++ closing)⟩) := by
  rw [Cursor.between, hpage, extractBetween_width front rest hopening hclosing hgap hinner]

theorem between_title (h : layout.IsProper) :
    (Cursor.start layout.print).between titleMark ['"'] =
      (.ok ⟨titleOf layout.name, width (layout.before ++ titleMark), width layout.titled⟩,
        ⟨layout.print, width layout.titled⟩) := by
  have hquote : '"' ∉ titleOf layout.name := not_mem_titleOf (by decide) h.name.1
  have hpage : layout.print = [] ++ (layout.before ++ titleMark ++ (titleOf layout.name ++ ['"'] ++
      (layout.titleRest ++ ['>'] ++ escape (headingOf layout.name layout.parameters) ++
        headingEnd ++ layout.body))) := by
    simp [Layout.print, Layout.headed, Layout.titled]
  exact between_width hpage (by decide) (by simp) (passes_of_apart _ h.title (by decide))
    (passes_of_head _ rfl hquote)

theorem readGenerics_heading (h : layout.IsProper) :
    readGenerics ⟨layout.print, width layout.titled⟩ =
      .ok (layout.parameters, ⟨layout.print, width layout.headed⟩) := by
  have hpage : layout.print = layout.titled ++ (layout.titleRest ++ ['>'] ++
      (escape (headingOf layout.name layout.parameters) ++ headingEnd ++ layout.body)) := by
    simp [Layout.print, Layout.headed]
  rw [readGenerics_width hpage h.titleRest (passes_of_head _ rfl (not_mem_escape (.inl rfl) _)),
    genericsOf_headingOf h.name.2 h.entities h.parameters]
  rfl

/-- Where the reading goes on behind the inheritance list. -/
def Layout.chained (layout : Layout) : Text :=
  layout.headed ++ layout.chain.elim [] fun chain => chain.lead ++ chain.read

theorem print_eq_chained (layout : Layout) : layout.print = layout.chained ++
    (layout.lead ++ (layout.contracts.elim [] ContractList.text ++ layout.declared)) := by
  simp only [Layout.print, Layout.body, Layout.chained, List.append_assoc]

theorem getLast?_usable {chain : Chain} (h : ∀ link ∈ chain.links, link.IsProper) :
    (chain.links.filterMap (TypeRef.ofTarget? ∘ ChainLink.target)).getLast? = chain.parent? := by
  rw [Chain.parent?]
  rcases List.eq_nil_or_concat chain.links with hnil | ⟨others, last, hlast⟩
  · rw [hnil]
    rfl
  · obtain ⟨type, htype⟩ := Option.isSome_iff_exists.mp
      (h last (by rw [hlast]; simp)).usable
    rw [hlast]
    simp [htype]

theorem readSuperType_none (h : layout.IsProper) (hchain : layout.chain = none) :
    readSuperType ⟨layout.print, width layout.headed⟩ =
      .ok (none, ⟨layout.print, width layout.chained⟩) := by
  have hbody : ¬ inheritanceMark <:+: layout.body := fun hocc =>
    h.noChain hchain (hocc.trans (List.suffix_append layout.headed layout.body).isInfix)
  have hnone : Cursor.peek ⟨layout.print, width layout.headed⟩ inheritanceMark = none := by
    rw [Cursor.peek, Layout.print, locate_width,
      (breakAt?_eq_none_iff (by decide) layout.body).mpr hbody]
    rfl
  rw [readSuperType, hnone, Layout.chained, hchain]
  simp

section Chained

variable {chain : Chain} (hchain : layout.chain = some chain)

include hchain

theorem print_of_chain : ∃ rest, layout.print = layout.headed ++ (chain.lead ++ inheritanceMark ++
    (chain.list ++ layout.gap ++ descriptionMark ++ rest)) := by
  refine ⟨layout.introduction ++ (layout.contracts.elim [] ContractList.text ++
    layout.declared), ?_⟩
  rw [Layout.print, Layout.body, Layout.lead, hchain]
  simp only [Option.elim_some, Chain.read]
  split
  · rename_i hempty
    rw [Chain.list, List.isEmpty_iff.mp hempty]
    simp
  · simp

/-- The region from the mark of the chain to the description is cut out of the page. -/
theorem region_of_chain (h : layout.IsProper) :
    Cursor.peek ⟨layout.print, width layout.headed⟩ inheritanceMark =
        some (width (layout.headed ++ chain.lead)) ∧
      ∃ bound, locate layout.print descriptionMark (width (layout.headed ++ chain.lead)) =
          some bound ∧
        cut layout.print (width (layout.headed ++ chain.lead)) bound =
          .ok (inheritanceMark ++ (chain.list ++ layout.gap)) := by
  obtain ⟨hlead, -, -, hdescription⟩ := h.chain chain hchain
  obtain ⟨rest, hprint⟩ := print_of_chain hchain
  have hregion : layout.print = (layout.headed ++ chain.lead) ++
      ((inheritanceMark ++ (chain.list ++ layout.gap)) ++ descriptionMark ++ rest) := by
    rw [hprint]
    simp
  refine ⟨locate_of_passes hprint (by decide) (passes_of_apart _ hlead (by decide)), _,
    locate_of_passes hregion (by decide) ?_, ?_⟩
  · rw [passes_append]
    exact ⟨passes_of_clear (by decide) _, passes_of_apart _ hdescription (by decide)⟩
  · have hcut := cut_width (layout.headed ++ chain.lead)
      (inheritanceMark ++ (chain.list ++ layout.gap)) (descriptionMark ++ rest)
    rwa [← List.append_assoc _ descriptionMark, ← hregion] at hcut

theorem linksFrom_region (h : layout.IsProper) :
    ∃ links, linksFrom (inheritanceMark ++ (chain.list ++ layout.gap)) 0 = .ok links ∧
      (links.filterMap fun link => TypeRef.ofTarget? link.target).getLast? = chain.parent? ∧
      width (layout.headed ++ chain.lead) + readTo links = width layout.chained := by
  obtain ⟨-, hlinks, hgap, -⟩ := h.chain chain hchain
  have hclear : Clear linkMark inheritanceMark := by decide
  obtain ⟨links, hread, htargets, hlast⟩ := linksFrom_chain hlinks hgap hclear []
  rw [List.nil_append, width_nil] at hread
  rw [List.nil_append] at hlast
  refine ⟨links, hread, ?_, ?_⟩
  · have hmap := List.filterMap_map (f := fun link : Link => link.target)
      (g := TypeRef.ofTarget?) (l := links)
    rw [htargets, List.filterMap_map] at hmap
    change (links.filterMap (TypeRef.ofTarget? ∘ fun link => link.target)).getLast? = _
    rw [← hmap]
    exact getLast?_usable hlinks
  · rw [readTo, hlast, Layout.chained, hchain]
    simp only [Option.elim_some, Chain.read]
    split <;> simp [Chain.list, Nat.add_assoc]

end Chained

theorem readSuperType_chain (h : layout.IsProper) :
    readSuperType ⟨layout.print, width layout.headed⟩ =
      .ok (layout.chain.bind Chain.parent?, ⟨layout.print, width layout.chained⟩) := by
  cases hchain : layout.chain with
  | none => exact readSuperType_none h hchain
  | some chain =>
    obtain ⟨hfirst, bound, hbound, hcut⟩ := region_of_chain hchain h
    obtain ⟨links, hlinks, hparent, hstop⟩ := linksFrom_region hchain h
    have hchained : width layout.headed ≤ width layout.chained ∧
        width layout.chained ≤ width layout.print := by
      rw [print_eq_chained, width_append, Layout.chained, width_append]
      omega
    rw [readSuperType_eq hfirst hbound hcut hlinks, hparent, hstop,
      advanceTo_eq hchained.1 hchained.2]
    rfl

/-- A mark that does not stand in the lead is found behind it, if at all. -/
theorem le_of_peek {mark front lead rest : Text} {place : Nat} (hpass : Passes mark lead rest)
    (h : locate (front ++ (lead ++ rest)) mark (width front) = some place) :
    width (front ++ lead) ≤ place := by
  rw [locate_width, breakAt?_of_passes hpass, Option.map_map] at h
  obtain ⟨parts, -, rfl⟩ := Option.map_eq_some_iff.mp h
  simp only [Function.comp, width_append]
  omega

/-- Without a list the label, if there is one at all, is behind the declaration. -/
theorem readContracts_none (h : layout.IsProper) (hcontracts : layout.contracts = none) :
    layout.print = layout.chained ++ (layout.lead ++ layout.declared) ∧
      readContracts ⟨layout.print, width layout.chained⟩ =
        .ok ([], ⟨layout.print, width layout.chained⟩) := by
  have hprint := print_eq_chained layout
  rw [hcontracts, Option.elim_none, List.nil_append] at hprint
  refine ⟨hprint, readContracts_skip fun label hlabel => ?_⟩
  have hdeclared : layout.print = layout.chained ++ (layout.lead ++ declarationOpening ++
      (layout.declaration ++ declarationClosing ++ layout.detail)) := by
    rw [hprint, Layout.declared, List.append_assoc layout.lead]
  have hopening : Cursor.peek ⟨layout.print, width layout.chained⟩ declarationOpening =
      some (width (layout.chained ++ layout.lead)) :=
    locate_of_passes hdeclared (by decide) (passes_of_apart _ h.opening (by decide))
  have hpass : Passes interfacesMark layout.lead layout.declared :=
    passes_of_apart _ h.label (by decide +kernel)
  rw [Cursor.peek, hprint] at hlabel
  have hle := le_of_peek hpass hlabel
  rw [precedesDeclaration, hopening]
  simpa using hle

section Listed

variable {list : ContractList} (hcontracts : layout.contracts = some list)

include hcontracts

theorem print_of_list : layout.print = layout.chained ++ (layout.lead ++ interfacesMark ++
    (list.gap ++ listOpening ++
      (list.inner ++ listClosing ++ (list.after ++ layout.declared)))) := by
  rw [print_eq_chained, hcontracts, Option.elim_some, ContractList.text]
  simp

theorem label_of_list (h : layout.IsProper) :
    Cursor.peek ⟨layout.print, width layout.chained⟩ interfacesMark =
        some (width (layout.chained ++ layout.lead)) ∧
      precedesDeclaration ⟨layout.print, width layout.chained⟩
        (width (layout.chained ++ layout.lead)) = true := by
  have hprint := print_of_list hcontracts
  refine ⟨locate_of_passes hprint (by decide +kernel)
    (passes_of_apart _ h.label (by decide +kernel)), ?_⟩
  rw [precedesDeclaration]
  cases hopening : Cursor.peek ⟨layout.print, width layout.chained⟩ declarationOpening with
  | none => rfl
  | some place =>
    have hpass : Passes declarationOpening (layout.lead ++ interfacesMark) (list.gap ++
        listOpening ++ (list.inner ++ listClosing ++ (list.after ++ layout.declared))) := by
      rw [passes_append]
      exact ⟨passes_of_apart _ h.opening (by decide +kernel),
        passes_of_clear (by decide +kernel) _⟩
    rw [Cursor.peek, hprint] at hopening
    have hle := le_of_peek hpass hopening
    have hlabelled : 0 < width interfacesMark := by decide +kernel
    simp only [width_append] at hle ⊢
    simp only [decide_eq_true_eq]
    omega

theorem readContracts_some (h : layout.IsProper) :
    ∃ links front, readContracts ⟨layout.print, width layout.chained⟩ =
        .ok (links, ⟨layout.print, width front⟩) ∧
      links.filterMap ContractLink.ref? =
        list.contracts.filterMap (fun contract => TypeRef.ofTarget? contract.target) ∧
      layout.print = front ++ (list.after ++ layout.declared) := by
  have hlist := h.contracts list hcontracts
  obtain ⟨links, hlinks, hrefs⟩ := contractLinks_inner hlist
  obtain ⟨hlabel, hbefore⟩ := label_of_list hcontracts h
  have hsplit : layout.print = (layout.chained ++ layout.lead) ++ ((interfacesMark ++ list.gap) ++
      listOpening ++ (list.inner ++ listClosing ++ (list.after ++ layout.declared))) := by
    rw [print_of_list hcontracts]
    simp
  have hgap : Passes listOpening (interfacesMark ++ list.gap)
      (listOpening ++ (list.inner ++ listClosing ++ (list.after ++ layout.declared))) := by
    rw [passes_append]
    exact ⟨passes_of_clear (by decide +kernel) _, passes_of_apart _ hlist.opening (by decide)⟩
  have hextract := extractBetween_width (layout.chained ++ layout.lead)
    (list.after ++ layout.declared) (by decide) (by decide) hgap
    (passes_of_apart (list.after ++ layout.declared) hlist.closing (by decide))
  rw [← hsplit] at hextract
  have hfront : layout.print = (layout.chained ++ layout.lead ++ (interfacesMark ++ list.gap) ++
      listOpening ++ list.inner ++ listClosing) ++ (list.after ++ layout.declared) := by
    rw [hsplit]
    simp
  refine ⟨links, _, ?_, hrefs, hfront⟩
  rw [readContracts_list hlabel hbefore hextract, hlinks, advanceTo_eq]
  · rfl
  · simp only [width_append]
    omega
  · rw [hfront, width_append _ (list.after ++ layout.declared)]
    exact Nat.le_add_right _ _

end Listed

theorem readContracts_lead (h : layout.IsProper) :
    ∃ links front gap, readContracts ⟨layout.print, width layout.chained⟩ =
        .ok (links, ⟨layout.print, width front⟩) ∧
      links.filterMap ContractLink.ref? =
        ((layout.contracts.elim [] (·.contracts)).filterMap fun contract =>
          TypeRef.ofTarget? contract.target) ∧
      layout.print = front ++ (gap ++ layout.declared) ∧ ¬ declarationOpening <:+: gap := by
  cases hcontracts : layout.contracts with
  | none =>
    obtain ⟨hprint, hread⟩ := readContracts_none h hcontracts
    exact ⟨[], layout.chained, layout.lead, hread, rfl, hprint, h.opening⟩
  | some list =>
    obtain ⟨links, front, hread, hrefs, hprint⟩ := readContracts_some hcontracts h
    exact ⟨links, front, list.after, hread, hrefs, hprint, (h.contracts list hcontracts).after⟩

theorem exists_block {self : Text} {section? : Option MemberSection} {member : Member}
    (h : member ∈ membersOf self section?) : ∃ members, section? = some members ∧
      ∃ block ∈ members.blocks,
        Declaration.signature self block.declaration = .ok member.signature := by
  rw [membersOf] at h
  obtain ⟨block, hblock, hmember⟩ := List.mem_filterMap.mp h
  cases section? with
  | none => exact absurd hblock List.not_mem_nil
  | some members =>
    refine ⟨members, rfl, block, hblock, ?_⟩
    rw [Block.member?] at hmember
    split at hmember
    · cases hmember
    · rename_i signature hsignature
      cases hmember
      exact hsignature

/-- Where parentheses tell the sections apart, fields and methods are those of their sections. -/
theorem members_of_tellsApart (h : layout.TellsApart) (entity : Entity) :
    (layout.outline entity).fields = membersOf entity.shortName layout.fields ∧
      (layout.outline entity).methods = membersOf entity.shortName layout.methods := by
  have hfields : ∀ member ∈ membersOf entity.shortName layout.fields,
      member.isCallable = false := by
    intro member hmember
    obtain ⟨members, hsection, block, hblock, hsignature⟩ := exists_block hmember
    rw [Member.isCallable, decide_eq_false_iff_not]
    intro hparen
    rcases mem_signature hsignature hparen with hadded | hparen
    · exact absurd hadded (by decide)
    · exact h.fields members hsection block hblock hparen
  have hmethods : ∀ member ∈ membersOf entity.shortName layout.methods,
      member.isCallable = true := by
    intro member hmember
    obtain ⟨members, hsection, block, hblock, hsignature⟩ := exists_block hmember
    rw [Member.isCallable, decide_eq_true_eq]
    exact punctuation_mem_signature hsignature (h.methods members hsection block hblock)
  constructor
  · simp only [Layout.outline, List.filter_append]
    rw [List.filter_eq_self.mpr, List.filter_eq_nil_iff.mpr, List.append_nil]
    · intro member hmember
      simp [hmethods member hmember]
    · intro member hmember
      simp [hfields member hmember]
  · simp only [Layout.outline, List.filter_append]
    rw [List.filter_eq_nil_iff.mpr, List.filter_eq_self.mpr, List.nil_append]
    · exact hmethods
    · intro member hmember
      simp [hfields member hmember]

theorem result_of_isProper (h : layout.IsProper) (entity : Entity) :
    result layout.print entity = .ok (.outline (layout.outline entity)) := by
  have hkind : Kind.ofTitle? (decodeEntities (titleOf layout.name)) = some .cls := by
    have htitle : decodeEntities (titleOf layout.name) =
        "Class ".toList ++ decodeEntities layout.name := decodeEntities_append _ (by decide)
    rw [htitle]
    rfl
  obtain ⟨links, front, gap, hcontracts, hrefs, hprint, hgap⟩ := readContracts_lead h
  have hfront := readFront_eq (readGenerics_heading h) (readSuperType_chain h) hcontracts
  have hpage : layout.print = front ++ (gap ++ declarationOpening ++
      (layout.declaration ++ declarationClosing ++ layout.detail)) := by
    rw [hprint, Layout.declared]
    simp
  have hdeclaration := between_width hpage (by decide) (by decide)
    (passes_of_apart _ hgap (by decide)) (passes_of_apart _ h.closing (by decide))
  have hsplit : layout.print = (front ++ gap ++ declarationOpening ++ layout.declaration ++
      declarationClosing) ++ layout.detail := by
    rw [hpage]
    simp
  obtain ⟨detail, hdetail, hfields, hconstructors, hmethods⟩ := readDetail_detail h
    (front ++ gap ++ declarationOpening ++ layout.declaration ++ declarationClosing)
    entity.shortName
  rw [← hsplit] at hdetail
  rw [result, read, between_title h]
  simp only []
  rw [hkind]
  simp only [readClass]
  rw [hfront]
  simp only []
  rw [hdeclaration]
  simp only []
  rw [hdetail]
  simp only [outlineOf, Layout.outline, Detail.members, List.filterMap_append]
  rw [hfields, hconstructors, hmethods, hrefs, Layout.declaration,
    classModifiers_declarationOf h.modifiers]

/-- A page that has been laid out is read as the class that it describes. Where parentheses tell
fields and methods apart, each section comes back as it was written. -/
theorem result_print (h : layout.IsProper) (entity : Entity) :
    result layout.print entity = .ok (.outline (layout.outline entity)) ∧
      (layout.TellsApart →
        (layout.outline entity).fields = membersOf entity.shortName layout.fields ∧
          (layout.outline entity).methods = membersOf entity.shortName layout.methods) :=
  ⟨result_of_isProper h entity, fun hapart => members_of_tellsApart hapart entity⟩

def boxLayout : Layout where
  before := "<html>".toList
  name := "Box".toList
  titleRest := " class=\"title\"".toList
  parameters := ["K".toList, "V extends Map<K,V>".toList]
  chain := some
    { lead := "\n".toList
      links := [⟨"<li>".toList, "../Object.html".toList⟩, ⟨"</a>".toList, "Base.html".toList⟩] }
  gap := ">Base</a></ul>".toList
  introduction := "<dl>".toList
  contracts := some
    { gap := "</dt>".toList
      lead := []
      contracts :=
        [⟨"util/List.html".toList, ">List</a>&lt;".toList, ["K.html\">K</a>&gt;, ".toList]⟩]
      after := "<br>".toList }
  modifiers := ["public".toList, "final".toList]
  declarationRest := "Box&lt;K,V&gt;".toList
  summary := "<h3>Summary</h3>".toList
  fields := some ⟨"\n".toList, [⟨"MAX</h4>".toList, "int MAX".toList, [], "Largest.</div>".toList⟩]⟩
  constructors := none
  methods := some ⟨[], [⟨"size</h4>".toList, "int size()".toList, [], "Items.</div>".toList⟩]⟩
  after := "</html>".toList

theorem boxLayout_lacks {members : MemberSection} {heading : Text}
    (h : (heading, none) ∈ { boxLayout with methods := some members }.sections) :
    heading = constructorDetail := by
  simp only [Layout.sections, List.mem_cons, Prod.mk.injEq, List.not_mem_nil, or_false] at h
  rcases h with ⟨-, hmembers⟩ | ⟨rfl, -⟩ | ⟨-, hmembers⟩
  · cases hmembers
  · rfl
  · cases hmembers

theorem boxLayout_isProper : boxLayout.IsProper where
  title := by decide +kernel
  name := by decide +kernel
  titleRest := by decide +kernel
  entities := by decide +kernel
  parameters := by
    intro parameter hmem
    rcases List.mem_pair.mp hmem with rfl | rfl
    · exact ⟨by decide, by decide +kernel, by decide +kernel, by decide +kernel⟩
    · exact ⟨by decide, by decide +kernel, by decide +kernel, by decide +kernel⟩
  noChain h := absurd h (Option.some_ne_none _)
  chain := by
    intro chain hchain
    cases hchain
    refine ⟨by decide +kernel, ?_, by decide +kernel, by decide +kernel⟩
    intro link hmem
    simp only [List.mem_cons, List.not_mem_nil, or_false] at hmem
    rcases hmem with rfl | rfl
    · exact ⟨by decide +kernel, by decide +kernel, by decide +kernel⟩
    · exact ⟨by decide +kernel, by decide +kernel, by decide +kernel⟩
  label := by decide +kernel
  opening := by decide +kernel
  contracts := by
    intro list hlist
    cases hlist
    refine ⟨by decide +kernel, by decide +kernel, by decide +kernel, by decide +kernel, ?_,
      by decide +kernel⟩
    intro contract hmem
    obtain rfl := List.mem_singleton.mp hmem
    exact ⟨by decide +kernel, by decide +kernel, by decide +kernel, by decide +kernel,
      by decide +kernel⟩
  modifiers := by
    intro word hmem
    rcases List.mem_pair.mp hmem with rfl | rfl
    · exact ⟨by decide, forall_mem_of_all (by decide), by decide, by decide⟩
    · exact ⟨by decide, forall_mem_of_all (by decide), by decide, by decide⟩
  closing := by decide +kernel
  summary := by decide +kernel
  noSection := by
    intro heading hmem
    obtain rfl := boxLayout_lacks hmem
    decide +kernel
  sections := by
    intro heading members hmem
    simp only [Layout.sections, List.mem_cons, Prod.mk.injEq, List.not_mem_nil, or_false] at hmem
    rcases hmem with ⟨-, hmembers⟩ | ⟨-, hmembers⟩ | ⟨-, hmembers⟩
    · cases hmembers
      refine ⟨by decide +kernel, ?_, by decide +kernel⟩
      intro block hmem
      obtain rfl := List.mem_singleton.mp hmem
      exact ⟨by decide +kernel, by decide +kernel, by decide +kernel, by decide +kernel⟩
    · cases hmembers
    · cases hmembers
      refine ⟨by decide +kernel, ?_, by decide +kernel⟩
      intro block hmem
      obtain rfl := List.mem_singleton.mp hmem
      exact ⟨by decide +kernel, by decide +kernel, by decide +kernel, by decide +kernel⟩

theorem boxLayout_tellsApart : boxLayout.TellsApart where
  fields := by
    intro members hmembers block hmem
    cases hmembers
    obtain rfl := List.mem_singleton.mp hmem
    decide
  methods := by
    intro members hmembers block hmem
    cases hmembers
    obtain rfl := List.mem_singleton.mp hmem
    decide +kernel

theorem result_print_box :
    let entity : Entity := ⟨"demo.Box".toList, [], by decide +kernel⟩
    result boxLayout.print entity = .ok (.outline (boxLayout.outline entity)) ∧
      (boxLayout.outline entity).fields.map (·.signature) = ["int MAX".toList] ∧
      (boxLayout.outline entity).methods.map (·.signature) = ["int size()".toList] := by
  intro entity
  obtain ⟨hresult, happart⟩ := result_print boxLayout_isProper entity
  obtain ⟨hfields, hmethods⟩ := happart boxLayout_tellsApart
  refine ⟨hresult, ?_, ?_⟩
  · rw [hfields]
    decide +kernel
  · rw [hmethods]
    decide +kernel

section Linked

/-! A method whose only parenthesis stands in the title of a link, of which nothing but the target
is kept. -/

/-- Other methods may be put into a page that stays proper without the sections that it lacks. -/
theorem Layout.IsProper.setMethods {members : MemberSection} (h : layout.IsProper)
    (hmembers : members.IsProper) (hchain : layout.chain ≠ none)
    (hnone : ∀ heading, (heading, none) ∈ { layout with methods := some members }.sections →
      ¬ heading <:+: { layout with methods := some members }.print) :
    { layout with methods := some members }.IsProper where
  title := h.title
  name := h.name
  titleRest := h.titleRest
  entities := h.entities
  parameters := h.parameters
  noChain hlacks := absurd hlacks hchain
  chain := h.chain
  label := h.label
  opening := h.opening
  contracts := h.contracts
  modifiers := h.modifiers
  closing := h.closing
  summary := h.summary
  noSection := hnone
  sections := by
    intro heading found hmem
    simp only [Layout.sections, List.mem_cons, Prod.mk.injEq, List.not_mem_nil, or_false] at hmem
    rcases hmem with ⟨rfl, hfound⟩ | ⟨rfl, hfound⟩ | ⟨-, hfound⟩
    · exact h.sections fieldDetail found (by simp [Layout.sections, hfound])
    · exact h.sections constructorDetail found (by simp [Layout.sections, hfound])
    · cases hfound
      exact hmembers

def linkedMethods : MemberSection :=
  ⟨[], [⟨"x</h4>".toList, "int <a href=\"p/X.html\" title=\"f()\">x</a>".toList, [],
    "Counts.</div>".toList⟩]⟩

theorem linkedMethods_isProper : linkedMethods.IsProper := by
  refine ⟨by decide +kernel, ?_, by decide +kernel⟩
  intro block hmem
  obtain rfl := List.mem_singleton.mp hmem
  exact ⟨by decide +kernel, by decide +kernel, by decide +kernel, by decide +kernel⟩

/-- A parenthesis somewhere in its declaration does not make a method. -/
theorem not_result_print_linked :
    ¬ ∀ (layout : Layout) (entity : Entity) (outline : Outline), layout.IsProper →
      (∀ members, layout.fields = some members →
        ∀ block ∈ members.blocks, '(' ∉ block.declaration) →
      (∀ members, layout.methods = some members →
        ∀ block ∈ members.blocks, '(' ∈ block.declaration) →
      result layout.print entity = .ok (.outline outline) →
        outline.fields = membersOf entity.shortName layout.fields ∧
          outline.methods = membersOf entity.shortName layout.methods := by
  intro hall
  have hnone : ∀ heading,
      (heading, none) ∈ { boxLayout with methods := some linkedMethods }.sections →
        ¬ heading <:+: { boxLayout with methods := some linkedMethods }.print := by
    intro heading hmem
    obtain rfl := boxLayout_lacks hmem
    decide +kernel
  have hproper := boxLayout_isProper.setMethods linkedMethods_isProper (Option.some_ne_none _) hnone
  obtain ⟨-, hmethods⟩ := hall _ ⟨"demo.Box".toList, [], by decide +kernel⟩ _ hproper
    boxLayout_tellsApart.fields
    (fun members hmembers block hmem => by
      cases hmembers
      obtain rfl := List.mem_singleton.mp hmem
      decide)
    (result_of_isProper hproper _)
  exact absurd (congrArg List.length hmethods) (by decide +kernel)

end Linked

end ClassSkeleton.ClassPage
