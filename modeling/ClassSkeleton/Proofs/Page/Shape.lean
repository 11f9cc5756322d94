import ClassSkeleton.Proofs.Declaration.Provenance
import ClassSkeleton.Proofs.Markup.Spacing
import ClassSkeleton.Proofs.Page.References

/-!
The shape of an outline. Whatever the page, an outline that was read from it has the properties
that its skeleton is written from: members that are published, and told apart by whether they can
be called; contracts under different names; and texts without the blanks of the page. Each part is
checked where it is read, and nothing is added to it later.
-/
namespace ClassSkeleton

open Text Markup

/-- The type has a dotted name, and goes by the identifier of that name. -/
structure TypeRef.IsNamed (type : TypeRef) : Prop where
  named : type.dotted ≠ []
  ident : type.ident = identifier type.dotted

structure IsModifierWord (word : Text) : Prop where
  nonempty : word ≠ []
  solid : ∀ c ∈ word, isBlank c = false
  plain : word.head? ≠ some '@'

def Outline.allMembers (outline : Outline) : List Member :=
  outline.fields ++ outline.constructors ++ outline.methods

/-- What holds of the outline of a class, as it is read for `entity`. -/
structure Outline.IsShaped (entity : Entity) (outline : Outline) : Prop where
  entity_eq : outline.entity = entity
  kind_eq : outline.kind = .cls
  published : ∀ member ∈ outline.allMembers, member.visibility ≠ .priv
  callable : ∀ method ∈ outline.methods, '(' ∈ method.signature
  bodiless : ∀ field ∈ outline.fields, '(' ∉ field.signature ∧ field.hasBody = false
  distinct : (outline.implemented.map (·.dotted)).Nodup
  named : ∀ type ∈ outline.superType.toList ++ outline.implemented, type.IsNamed
  generics : ∀ generic ∈ outline.generics, generic ≠ [] ∧ trim generic = generic
  modifiers : ∀ word ∈ outline.modifiers, IsModifierWord word
  laidOut : ∀ member ∈ outline.allMembers, IsLaidOut member.documentation

theorem TypeRef.isNamed_of_ofTarget? {target : Text} {type : TypeRef}
    (h : TypeRef.ofTarget? target = some type) : type.IsNamed := by
  obtain ⟨path, -, htype⟩ := Option.bind_eq_some_iff.mp h
  split at htype
  · cases htype
  · rename_i segments hnonempty
    cases htype
    refine ⟨?_, rfl⟩
    obtain ⟨first, others, hsegments⟩ := List.exists_cons_of_ne_nil (l := targetSegments path)
      fun hnil => hnonempty hnil
    have hfirst : first ≠ [] := by
      have hmem : first ∈ targetSegments path := hsegments ▸ List.mem_cons_self
      have hkept := List.of_mem_filter hmem
      simp only [Bool.and_eq_true, Bool.not_eq_true', List.isEmpty_eq_false_iff] at hkept
      exact hkept.1.1
    rw [hsegments]
    intro hnil
    obtain ⟨tail, htail⟩ := ClassPage.prefix_join ['.'] first others
    change join ['.'] (first :: others) = [] at hnil
    rw [hnil, List.append_eq_nil_iff] at htail
    exact hfirst htail.1

namespace Outline

theorem nodup_addContract {contracts : List TypeRef} (type : TypeRef)
    (h : (contracts.map (·.dotted)).Nodup) :
    ((addContract contracts type).map (·.dotted)).Nodup := by
  rw [addContract]
  split
  · exact h
  · rename_i hnew
    rw [List.map_append, List.map_singleton, List.nodup_append]
    refine ⟨h, by simp, ?_⟩
    rintro name hname other hother rfl
    obtain ⟨known, hknown, rfl⟩ := List.mem_map.mp hname
    apply hnew
    rw [List.any_eq_true]
    exact ⟨known, hknown, by simpa using hother⟩

theorem nodup_contractsOf (types : List TypeRef) : ((contractsOf types).map (·.dotted)).Nodup := by
  have hfold : ∀ known : List TypeRef, (known.map (·.dotted)).Nodup →
      ((types.foldl addContract known).map (·.dotted)).Nodup := by
    induction types with
    | nil => exact fun known h => h
    | cons type types ih => exact fun known h => ih _ (nodup_addContract type h)
  exact hfold [] List.nodup_nil

end Outline

namespace Declaration

theorem trimmed_of_splitTopLevel {text : Text} {separator : Char} {pieces : List Text}
    (h : splitTopLevel text separator = .ok pieces) :
    ∀ piece ∈ pieces, piece ≠ [] ∧ trim piece = piece := by
  obtain ⟨found, -, hpieces⟩ := ClassPage.eq_ok_of_bind h
  cases hpieces
  intro piece hpiece
  obtain ⟨hmem, hkept⟩ := List.mem_filter.mp hpiece
  obtain ⟨source, -, rfl⟩ := List.mem_map.mp hmem
  exact ⟨by simpa [List.isEmpty_iff] using hkept, trim_trim source⟩

/-- A signature is made for published members only. -/
theorem visibility_of_signature {self fragment text : Text}
    (h : Declaration.signature self fragment = .ok text) : visibility fragment ≠ .priv :=
  (signature_eq_ok_iff.mp h).2.1

end Declaration

namespace ClassPage

theorem isModifierWord_of_classModifiers {kind : Kind} {declaration word : Text}
    (h : word ∈ classModifiers kind declaration) : IsModifierWord word := by
  rw [classModifiers] at h
  split at h
  · obtain ⟨hmem, hkept⟩ := List.mem_filter.mp h
    have hword : word ∈ splitOn [' '] (plainText declaration) :=
      (List.takeWhile_prefix _).subset hmem
    simp only [Bool.and_eq_true, Bool.not_eq_true', List.isEmpty_eq_false_iff] at hkept
    refine ⟨hkept.1, fun c hc => ?_, fun hhead => ?_⟩
    · by_contra hblank
      have hspace : c ≠ ' ' := by
        rintro rfl
        exact not_mem_of_mem_splitOn hword hc
      have hplain : c ∈ plainText declaration := mem_of_mem_splitOn (by simp) hword hc
      exact not_mem_tidy (by simpa using hblank) hspace _ hplain
    · obtain ⟨rest, rfl⟩ := List.head?_eq_some_iff.mp hhead
      simp at hkept
  · exact absurd h List.not_mem_nil

theorem trimmed_of_readGenerics {cursor next : Cursor} {generics : List Text}
    (h : readGenerics cursor = .ok (generics, next)) :
    ∀ generic ∈ generics, generic ≠ [] ∧ trim generic = generic := by
  rcases readGenerics_cases cursor with ⟨-, hread⟩ | ⟨tagEnd, close, heading, -, -, -, hread⟩
  · cases hread.symm.trans h
    simp
  · obtain ⟨found, hfound, hnext⟩ := eq_ok_of_map (hread.symm.trans h)
    cases hnext
    rw [genericsOf] at hfound
    split at hfound
    · cases hfound
      simp
    · exact Declaration.trimmed_of_splitTopLevel hfound

theorem visibility_of_isReadFrom {page self : Text} {member : Member}
    (h : IsReadFrom page self member) : member.visibility ≠ .priv := by
  obtain ⟨proseNeeded, block, -, hread⟩ := h
  obtain ⟨declaration, -, hsignature, hvisibility, -⟩ := kept_of_readBlock hread
  rw [hvisibility]
  exact Declaration.visibility_of_signature hsignature

theorem IsProseOf.isLaidOut {page documentation : Text} (h : IsProseOf page documentation) :
    IsLaidOut documentation := by
  rcases h with hnone | ⟨prose, -, hprose⟩
  · rw [hnone]
    exact isLaidOut_nil
  · rw [hprose]
    exact isLaidOut_reflow prose

/-- Every outline that is read from a page has the shape. -/
theorem isShaped_of_result {page : Text} {entity : Entity} {outline : Outline}
    (h : result page entity = .ok (.outline outline)) : outline.IsShaped entity := by
  have hread : ∀ member ∈ outline.allMembers, IsReadFrom page entity.shortName member :=
    fun member hmember => isReadFrom_result h hmember
  have hprose : ∀ member ∈ outline.allMembers, IsProseOf page member.documentation :=
    fun member hmember => isProseOf_result h hmember
  have hlinked := isLinkedFrom_result h
  obtain ⟨cursor, front, declaration, detail, start, -, hfront, -, houtline⟩ := parts_of_result h
  obtain ⟨second, third, hgenerics, -, -⟩ := stages_of_readFront hfront
  constructor
  case entity_eq => rw [houtline, outlineOf]
  case kind_eq => rw [houtline, outlineOf]
  case published => exact fun member hmember => visibility_of_isReadFrom (hread member hmember)
  case callable =>
    rw [houtline, outlineOf]
    intro method hmethod
    simpa [Member.isCallable] using List.of_mem_filter hmethod
  case bodiless =>
    rw [houtline, outlineOf]
    intro field hfield
    have hcall : field.isCallable = false := by simpa using List.of_mem_filter hfield
    exact ⟨by simpa [Member.isCallable] using hcall, by rw [Member.hasBody, hcall, Bool.and_false]⟩
  case distinct =>
    rw [houtline, outlineOf]
    exact Outline.nodup_contractsOf _
  case named =>
    intro type htype
    obtain ⟨link, -, htarget⟩ := hlinked type htype
    exact TypeRef.isNamed_of_ofTarget? htarget
  case generics =>
    rw [houtline, outlineOf]
    exact trimmed_of_readGenerics hgenerics
  case modifiers =>
    have hmodifiers : outline.modifiers = classModifiers .cls declaration := by
      rw [houtline, outlineOf]
    rw [hmodifiers]
    exact fun word hword => isModifierWord_of_classModifiers hword
  case laidOut => exact fun member hmember => (hprose member hmember).isLaidOut

def dequePage : Text :=
  titleMark ++ "Class Deque\">Class Deque&lt; E &gt;".toList ++ headingEnd ++ inheritanceMark ++
    "<a href=\"../lang/Object.html\">".toList ++ descriptionMark ++ interfacesMark ++
    listOpening ++ "<a href=\"Queue.html\">,<a href=\"./Queue.html\">".toList ++ listClosing ++
    "<pre>public  class Deque</pre>".toList ++
    fieldDetail ++ "<h4>size</h4><pre>int size</pre>".toList ++ proseMark ++
    "\n Held \n\n\n now.\n".toList ++
    methodDetail ++ "<h4>peek</h4><pre>E peek()</pre>".toList ++ proseMark ++ "Looks.".toList

def dequeEntity : Entity := ⟨"java.util.Deque".toList, [], by decide +kernel⟩

def dequeOutline : Outline where
  entity := dequeEntity
  kind := .cls
  modifiers := ["public".toList]
  generics := ["E".toList]
  superType := some (.ofDotted "lang.Object".toList)
  implemented := [.ofDotted "Queue".toList]
  constructors := []
  methods := [⟨"E peek()".toList, .pub, false, "Looks.".toList⟩]
  fields := [⟨"int size".toList, .pub, false, "Held\n\nnow.".toList⟩]

theorem isShaped_of_result_deque :
    result dequePage dequeEntity = .ok (.outline dequeOutline) ∧
      dequeOutline.IsShaped dequeEntity :=
  have h : result dequePage dequeEntity = .ok (.outline dequeOutline) := by decide +kernel
  ⟨h, isShaped_of_result h⟩

end ClassPage

end ClassSkeleton
