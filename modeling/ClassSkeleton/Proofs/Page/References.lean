import ClassSkeleton.Proofs.Catalog.Links
import ClassSkeleton.Proofs.Declaration.Gathering
import ClassSkeleton.Proofs.Page.Prose

/-!
Links on a page and the names that they come to. Parent, interfaces and the words of a signature
are read from links by one reader of targets, so that a link to a page of the index comes to the
identifier that the skeleton of that page declares. In a signature two kinds of links do not: a
type parameter goes by its anchor, and an annotation keeps its `@`.
-/
namespace ClassSkeleton

open Text Markup

namespace Declaration

def linkTarget? (tag : Text) : Option Text :=
  (breakAt? "href=\"".toList tag).bind fun parts => (breakAt? ['"'] parts.2).map (·.1)

def wordFor (ident tag : Text) (anchor : Option Text) : Option Text :=
  if contains "title=\"type parameter in".toList tag then
    match plainText (anchor.getD []) with
    | [] => none
    | name => some name
  else some (if contains "title=\"annotation in".toList tag then '@' :: ident else ident)

def Lexeme.name? : Lexeme → Option Text
  | .name text => some text
  | _ => none

def Item.name? : Item → Option Text
  | .link opening anchor => linkName? opening anchor
  | _ => none

/-- The names among tokens. -/
def namesOf (tokens : List Token) : List Text := tokens.filterMap fun token => token.lexeme.name?

theorem ofFragment?_of_linkTarget? {tag link : Text} (h : linkTarget? tag = some link) :
    TypeRef.ofFragment? tag = TypeRef.ofTarget? link := by
  obtain ⟨⟨before, rest⟩, hopen, hclose⟩ := Option.bind_eq_some_iff.mp h
  obtain ⟨⟨target, after⟩, hquote, rfl⟩ := Option.map_eq_some_iff.mp hclose
  rw [TypeRef.ofFragment?, hopen]
  simp only [hquote, Option.bind_some]

theorem linkName?_eq_wordFor {tag link : Text} {type : TypeRef} (anchor : Option Text)
    (hlink : linkTarget? tag = some link) (htype : TypeRef.ofTarget? link = some type) :
    linkName? tag anchor = wordFor type.ident tag anchor := by
  rewrite [linkName?, wordFor, ofFragment?_of_linkTarget? hlink, htype]
  split
  · cases plainText (anchor.getD []) <;> rfl
  · rfl

theorem namesOf_append (front back : List Token) :
    namesOf (front ++ back) = namesOf front ++ namesOf back := List.filterMap_append

theorem namesOf_closeWord (word : Text) (spaced : Bool) :
    namesOf (closeWord word spaced).1 = [] := by
  unfold closeWord
  split <;> rfl

theorem namesOf_own (item : Item) (spaced : Bool) :
    namesOf (item.own spaced) = item.name?.toList := by
  cases item with
  | link opening anchor =>
    cases hname : linkName? opening anchor <;>
      simp [namesOf, Item.own, Item.lexeme?, Item.name?, Lexeme.name?, hname]
  | _ => rfl

/-- Gathering makes names of the links alone, one after the other. -/
theorem namesOf_gather (word : Text) (spaced : Bool) (items : List Item) :
    namesOf (gather word spaced items) = items.filterMap Item.name? := by
  induction items generalizing word spaced with
  | nil => exact namesOf_closeWord word spaced
  | cons item items ih =>
    rcases item.letter_or_not with ⟨c, rfl⟩ | hitem
    · rw [gather_letter, ih, List.filterMap_cons_none rfl]
    · rw [gather_cons hitem, namesOf_append, namesOf_append, namesOf_closeWord, namesOf_own, ih,
        List.nil_append]
      cases hname : item.name? <;> simp [hname]

theorem namesOf_holdSelf (self : Text) (tokens : List Token) :
    namesOf (tokens.map (Token.holdSelf self)) = namesOf tokens := by
  rw [namesOf, List.filterMap_map]
  refine List.filterMap_congr fun token _ => ?_
  obtain ⟨lexeme, spaced⟩ := token
  cases lexeme <;> rfl

/-- The text is put together from tokens whose names are, in order, those of the links in the
fragment. -/
def NamesLinks (fragment text : Text) : Prop :=
  ∃ tokens, text = render tokens ∧ namesOf tokens = (items fragment).filterMap Item.name?

theorem namesLinks_signature {self fragment signature : Text}
    (h : Declaration.signature self fragment = .ok signature) : NamesLinks fragment signature := by
  obtain ⟨-, -, htext⟩ := signature_eq_ok_iff.mp h
  exact ⟨_, htext, by rw [namesOf_holdSelf, tokens, namesOf_gather]⟩

end Declaration

namespace ClassPage

/-- The type was read from a link on the page. -/
def IsLinkedFrom (page : Text) (type : TypeRef) : Prop :=
  ∃ link, linkMark ++ link ++ ['"'] <:+: page ∧ TypeRef.ofTarget? link = some type

theorem IsLinkedFrom.mono {part page : Text} {type : TypeRef} (h : IsLinkedFrom part type)
    (hpart : part <:+: page) : IsLinkedFrom page type := by
  obtain ⟨link, hlink, htype⟩ := h
  exact ⟨link, hlink.trans hpart, htype⟩

theorem infix_of_marks {text opening closing inner : Text} {start place close : Nat}
    (hopen : locate text opening start = some place)
    (hclose : locate text closing (place + width opening) = some close)
    (hcut : cut text (place + width opening) close = .ok inner) :
    opening ++ inner ++ closing <:+: text := by
  obtain ⟨before, after, htext, hbefore, -⟩ := eq_of_locate hopen
  obtain ⟨front, between, rest, hsplit, hfront, hplace, -⟩ := locate_eq_some_iff.mp hclose
  obtain rfl : front = before ++ opening := by
    have hsame : front ++ (between ++ closing ++ rest) = before ++ opening ++ after :=
      hsplit.symm.trans htext
    have hwidth : width front = width (before ++ opening) := by rw [hfront, width_append, hbefore]
    obtain ⟨middle, hmiddle, -⟩ := split_of_width_le hsame hwidth.le
    rw [hmiddle, width_append] at hwidth
    have hnil : middle = [] := eq_nil_of_width (by omega)
    rw [hmiddle, hnil, List.append_nil]
  rw [hsplit, List.append_assoc between, ← hfront, ← hplace, cut_width] at hcut
  obtain rfl := Except.ok.inj hcut
  exact ⟨before, rest, by rw [hsplit]; simp⟩

theorem isLinkedFrom_linksFrom {region : Text} {start : Nat} {links : List Link}
    (h : linksFrom region start = .ok links) :
    ∀ link ∈ links, linkMark ++ link.target ++ ['"'] <:+: region := by
  intro link hlink
  obtain ⟨first, place, close, hplace, hclose, hcut, -⟩ := mem_linksFrom h link hlink
  exact infix_of_marks hplace hclose hcut

theorem isLinkedFrom_readSuperType {cursor next : Cursor} {type : TypeRef}
    (h : readSuperType cursor = .ok (some type, next)) : IsLinkedFrom cursor.text type := by
  rcases readSuperType_cases cursor with ⟨-, hread⟩ |
    ⟨chain, region, links, -, hregion, hlinks, hread⟩
  · cases hread.symm.trans h
  · obtain ⟨hlast, -⟩ := Prod.mk.inj (Except.ok.inj (hread.symm.trans h))
    obtain ⟨link, hlink, htype⟩ := List.mem_filterMap.mp (List.mem_of_getLast? hlast)
    exact ⟨link.target,
      (isLinkedFrom_linksFrom hlinks link hlink).trans (infix_of_cut hregion), htype⟩

theorem mem_of_contractLinksFrom {depth : Int} {candidates : List Text} {links : List ContractLink}
    (h : contractLinksFrom depth candidates = .ok links) :
    ∀ link ∈ links, ∃ candidate ∈ candidates, link = contractLink candidate := by
  induction candidates generalizing depth links with
  | nil =>
    cases h
    exact fun link hmem => absurd hmem List.not_mem_nil
  | cons candidate candidates ih =>
    rw [contractLinksFrom] at h
    obtain ⟨deeper, -, hrest⟩ := eq_ok_of_bind h
    obtain ⟨others, hothers, hdone⟩ := eq_ok_of_bind hrest
    have hlater : ∀ link ∈ others,
        ∃ other ∈ candidate :: candidates, link = contractLink other := by
      intro link hmem
      obtain ⟨other, hother, hlink⟩ := ih hothers link hmem
      exact ⟨other, List.mem_cons_of_mem candidate hother, hlink⟩
    intro link hmem
    split at hdone
    · cases hdone
      rcases List.mem_cons.mp hmem with rfl | hmem
      · exact ⟨candidate, List.mem_cons_self, rfl⟩
      · exact hlater link hmem
    · cases hdone
      exact hlater link hmem

theorem isLinkedFrom_contractLinks {interfaces : Text} {links : List ContractLink}
    (h : contractLinks interfaces = .ok links) {type : TypeRef}
    (hmem : ContractLink.type type ∈ links) : IsLinkedFrom interfaces type := by
  rw [contractLinks] at h
  split at h
  · cases h
    exact absurd hmem List.not_mem_nil
  · rename_i front candidates hsplit
    obtain ⟨depth, -, hlinks⟩ := eq_ok_of_bind h
    obtain ⟨candidate, hcandidate, hlink⟩ := mem_of_contractLinksFrom hlinks _ hmem
    have hinfix : linkMark ++ candidate <:+: interfaces := by
      have hjoin := infix_join linkMark front hcandidate
      rwa [← hsplit, join_splitOn (by decide)] at hjoin
    rw [contractLink] at hlink
    split at hlink
    · cases hlink
    · rename_i target rest hquote
      split at hlink
      · cases hlink
      split at hlink
      · cases hlink
      · rename_i ref href
        cases hlink
        refine ⟨target, List.IsInfix.trans ⟨[], rest, ?_⟩ hinfix, href⟩
        rw [eq_of_breakAt? hquote]
        simp

theorem isLinkedFrom_readContracts {cursor next : Cursor} {links : List ContractLink}
    (h : readContracts cursor = .ok (links, next)) {type : TypeRef}
    (hmem : ContractLink.type type ∈ links) : IsLinkedFrom cursor.text type := by
  rcases readContracts_cases cursor with ⟨-, hread⟩ | ⟨label, interfaces, -, -, hlist, hread⟩
  · cases hread.symm.trans h
    exact absurd hmem List.not_mem_nil
  · obtain ⟨found, hfound, hdone⟩ := eq_ok_of_map (hread.symm.trans h)
    cases hdone
    exact (isLinkedFrom_contractLinks hfound hmem).mono (infix_of_extractBetween hlist)

theorem mem_of_contractsOf {types : List TypeRef} {type : TypeRef}
    (h : type ∈ Outline.contractsOf types) : type ∈ types := by
  have hfold : ∀ types known : List TypeRef, type ∈ types.foldl Outline.addContract known →
      type ∈ known ∨ type ∈ types := by
    intro types
    induction types with
    | nil => exact fun known hmem => .inl hmem
    | cons next types ih =>
      intro known hmem
      rcases ih _ hmem with hmem | hmem
      · rw [Outline.addContract] at hmem
        split at hmem
        · exact .inl hmem
        · rcases List.mem_append.mp hmem with hmem | hmem
          · exact .inl hmem
          · exact .inr (List.mem_cons.mpr (.inl (List.mem_singleton.mp hmem)))
      · exact .inr (List.mem_cons_of_mem next hmem)
  exact (hfold types [] h).resolve_left List.not_mem_nil

/-- Parent and interfaces of an outline were read from links on its page. -/
theorem isLinkedFrom_result {page : Text} {entity : Entity} {outline : Outline}
    (h : result page entity = .ok (.outline outline)) :
    ∀ type ∈ outline.superType.toList ++ outline.implemented, IsLinkedFrom page type := by
  obtain ⟨cursor, front, declaration, detail, start, rfl, hfront, -, rfl⟩ := parts_of_result h
  obtain ⟨second, third, hgenerics, hsuper, hcontracts⟩ := stages_of_readFront hfront
  have hsecond : second.text = cursor.text := text_readGenerics hgenerics
  have hthird : third.text = cursor.text := (text_readSuperType hsuper).trans hsecond
  intro type hmem
  rcases List.mem_append.mp hmem with hmem | hmem
  · have hparent : front.superType = some type := by simpa [outlineOf] using hmem
    rw [hparent] at hsuper
    exact hsecond ▸ isLinkedFrom_readSuperType hsuper
  · obtain ⟨link, hlink, href⟩ := List.mem_filterMap.mp (mem_of_contractsOf hmem)
    cases link with
    | type ref =>
      cases href
      exact hthird ▸ isLinkedFrom_readContracts hcontracts hlink
    | unusable target => cases href
    | malformed => cases href

theorem signature_of_isReadFrom {page self : Text} {member : Member}
    (h : IsReadFrom page self member) : ∃ fragment, fragment <:+: page ∧
      Declaration.signature self fragment = .ok member.signature := by
  obtain ⟨proseNeeded, block, hblock, hread⟩ := h
  obtain ⟨declaration, hdeclaration, hsignature, -⟩ := kept_of_readBlock hread
  exact ⟨declaration.inner, (infix_of_extractBetween hdeclaration).trans hblock, hsignature⟩

section Handle

open Catalog Declaration

/-- Every link to a page of the index is read as the name and the identifier of its type, which
the skeleton of the type declares. Parent and interfaces of any page are what its links are read
as, and so are the names in its signatures, but for those of type parameters and annotations. -/
theorem links_name_handle {baseUrl target : Text} {entity : Entity}
    (hentity : indexEntity baseUrl target = .ok entity) (htarget : IsPlainTarget target) :
    (∀ link, IsLinkTo target link →
      TypeRef.ofTarget? link = some ⟨entity.name, entity.ident⟩) ∧
    (∀ outline : Outline, outline.entity = entity →
      "typedef struct ".toList ++ entity.ident ++ "_S *".toList ++ entity.ident ++ [';'] ∈
        Skeleton.headerLines outline) ∧
    (∀ page other outline, result page other = .ok (.outline outline) →
      (∀ type ∈ outline.superType.toList ++ outline.implemented,
        ∃ link, linkMark ++ link ++ ['"'] <:+: page ∧ TypeRef.ofTarget? link = some type ∧
          (IsLinkTo target link → type = ⟨entity.name, entity.ident⟩)) ∧
      ∀ member ∈ outline.fields ++ outline.constructors ++ outline.methods,
        ∃ fragment, fragment <:+: page ∧ NamesLinks fragment member.signature) ∧
    (∀ self fragment signature, Declaration.signature self fragment = .ok signature →
      NamesLinks fragment signature) ∧
    ∀ tag anchor link, linkTarget? tag = some link → IsLinkTo target link →
      linkName? tag anchor = wordFor entity.ident tag anchor := by
  have hread : ∀ link, IsLinkTo target link →
      TypeRef.ofTarget? link = some ⟨entity.name, entity.ident⟩ := by
    rintro link ⟨depth, anchor, hanchor, rfl⟩
    exact ofTarget?_linkTo hentity htarget depth fun text htext => (hanchor text htext).2
  refine ⟨hread, ?_, fun page other outline hresult => ⟨?_, ?_⟩, ?_, ?_⟩
  · rintro outline rfl
    unfold Skeleton.headerLines
    exact List.mem_append_left _
      (List.mem_append_left _ (List.mem_append_right _ List.mem_cons_self))
  · intro type hmem
    obtain ⟨link, hlink, htype⟩ := isLinkedFrom_result hresult type hmem
    exact ⟨link, hlink, htype, fun hto => Option.some.inj (htype.symm.trans (hread link hto))⟩
  · intro member hmember
    obtain ⟨fragment, hfragment, hsignature⟩ :=
      signature_of_isReadFrom (isReadFrom_result hresult hmember)
    exact ⟨fragment, hfragment, namesLinks_signature hsignature⟩
  · exact fun self fragment signature => namesLinks_signature
  · exact fun tag anchor link hlink hto => linkName?_eq_wordFor anchor hlink (hread link hto)

def entryTarget : Text := "java/util/Map.Entry.html".toList

def mapEntry : Entity := ⟨"java.util.Map.Entry".toList, entryTarget, by decide +kernel⟩

def entryTag : Text :=
  "<a href=\"../../java/util/Map.Entry.html\" title=\"interface in java.util\">".toList

/-- Links to a nested type, one by its target and one in a declaration. -/
theorem links_name_handle_entry :
    TypeRef.ofTarget? "../../java/util/Map.Entry.html#getKey--".toList =
        some ⟨"java.util.Map.Entry".toList, "java_util_Map_Entry".toList⟩ ∧
      linkName? entryTag (some "Map.Entry".toList) = some "java_util_Map_Entry".toList := by
  have hname : dottedName entryTarget = mapEntry.name := by decide +kernel
  have hentry : indexEntity [] entryTarget = .ok mapEntry := by
    rw [indexEntity, hname]
    exact dif_pos mapEntry.qualified
  have hplain : IsPlainTarget entryTarget := by
    refine ⟨by decide, ?_, by decide +kernel⟩
    rw [← contains_eq_false_iff (by decide)]
    decide +kernel
  obtain ⟨hread, -, -, -, hword⟩ := links_name_handle hentry hplain
  refine ⟨hread _ ⟨2, some "getKey--".toList, ?_, by decide +kernel⟩,
    (hword entryTag _ "../../java/util/Map.Entry.html".toList (by decide +kernel)
      ⟨2, none, by simp, by decide +kernel⟩).trans (by decide +kernel)⟩
  intro text htext
  obtain rfl := Option.some.inj htext
  refine ⟨by decide, ?_⟩
  rw [← contains_eq_false_iff (by decide)]
  decide +kernel

def variableTarget : Text := "java/util/ArrayList.html".toList

def arrayList : Entity := ⟨"java.util.ArrayList".toList, variableTarget, by decide +kernel⟩

def variableTag : Text :=
  "<a href=\"../../java/util/ArrayList.html\" title=\"type parameter in ArrayList\">".toList

def variableDeclaration : Text :=
  "public&nbsp;".toList ++ variableTag ++ "E</a>&nbsp;get(int&nbsp;index)".toList

/-- A type parameter links to the type that declares it, and keeps its own name all the same. -/
theorem not_links_name_handle : ¬ ∀ (baseUrl target : Text) (entity : Entity),
    indexEntity baseUrl target = .ok entity → IsPlainTarget target →
      ∀ self fragment signature tag anchor link,
        Declaration.signature self fragment = .ok signature →
          Item.link tag anchor ∈ items fragment → linkTarget? tag = some link →
            IsLinkTo target link → entity.ident <:+: signature := by
  intro hclaim
  have hname : dottedName variableTarget = arrayList.name := by decide +kernel
  have hentry : indexEntity [] variableTarget = .ok arrayList := by
    rw [indexEntity, hname]
    exact dif_pos arrayList.qualified
  have hplain : IsPlainTarget variableTarget := by
    refine ⟨by decide, ?_, by decide +kernel⟩
    rw [← contains_eq_false_iff (by decide)]
    decide +kernel
  have hsignature : Declaration.signature "ArrayList".toList variableDeclaration =
      .ok "public E get(int index)".toList := by decide +kernel
  have hword := hclaim [] variableTarget arrayList hentry hplain "ArrayList".toList
    variableDeclaration _ variableTag (some "E".toList) "../../java/util/ArrayList.html".toList
      hsignature
    (by decide +kernel) (by decide +kernel) ⟨2, none, by simp, by decide +kernel⟩
  revert hword
  rw [imp_false, ← contains_eq_false_iff (by decide)]
  decide +kernel

end Handle

end ClassPage

end ClassSkeleton
