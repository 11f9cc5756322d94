import ClassSkeleton.Page.Front
import ClassSkeleton.Proofs.Declaration.Annotation
import ClassSkeleton.Proofs.Page.Members

/-!
Annotations on a page. In front of a class declaration they are no modifiers, and in front of a
member they change neither its visibility nor its documentation. Which members are fields is seen
from the parentheses of their declarations, though, and the parentheses of an annotation count.
-/
namespace ClassSkeleton.ClassPage

open Text Markup Declaration

theorem classModifiers_before {marker : Marker} (h : marker.IsWord) (kind : Kind)
    (fragment : Text) :
    classModifiers kind (marker.before fragment) = classModifiers kind fragment := by
  obtain ⟨tail, hsplit⟩ := Marker.splitOn_before h fragment
  have hkeyword : '@' :: tail ≠ kind.keyword := by
    have hhead : kind.keyword.head? ≠ some '@' := by cases kind <;> decide
    intro heq
    apply hhead
    rw [← heq]
    rfl
  rw [classModifiers, classModifiers, hsplit]
  split
  · rename_i hnil
    have hnone : (splitOn [' '] (plainText fragment)).contains kind.keyword = false := by
      rw [hnil]
      cases kind <;> decide
    simp only [hnone]
    simp [hkeyword.symm]
  · have hcontains : (('@' :: tail) :: splitOn [' '] (plainText fragment)).contains kind.keyword =
        (splitOn [' '] (plainText fragment)).contains kind.keyword := by
      simp [hkeyword.symm]
    simp only [hcontains]
    simp [hkeyword]

namespace Block

/-- The block with an annotation in front of its declaration. -/
def annotated (block : Block) (marker : Marker) : Block :=
  { block with declaration := marker.before block.declaration }

@[simp] theorem annotated_declaration (block : Block) (marker : Marker) :
    (block.annotated marker).declaration = marker.before block.declaration := rfl

@[simp] theorem annotated_prose (block : Block) (marker : Marker) :
    (block.annotated marker).prose = block.prose := rfl

theorem isProper_annotated {block : Block} {marker : Marker} (h : block.IsProper)
    (hheading : ¬ memberHeading <:+: marker.text)
    (hclosing : ¬ declarationClosing <:+: marker.text) :
    (block.annotated marker).IsProper where
  heading := by
    have hbody : block.body = (block.lead ++ declarationOpening) ++
        (block.declaration ++ declarationClosing ++ (block.gap ++ proseMark ++ block.prose)) := rfl
    have hannotated : (block.annotated marker).body =
        (block.lead ++ declarationOpening) ++ '@' :: (marker.text.tail ++ ' ' ::
          (block.declaration ++ declarationClosing ++
            (block.gap ++ proseMark ++ block.prose))) := by
      simp [Block.body, annotated, Marker.before, Marker.text]
    have hheading' := h.heading
    rw [hbody] at hheading'
    rw [hannotated, infix_append_cons_iff (by decide) (by decide),
      infix_append_cons_iff (by decide) (by decide)]
    rintro (hfront | hname | hback)
    · exact hheading' (hfront.trans (List.prefix_append _ _).isInfix)
    · exact hheading (hname.trans (List.suffix_cons '@' _).isInfix)
    · exact hheading' (hback.trans (List.suffix_append _ _).isInfix)
  opening := h.opening
  closing := by
    change ¬ declarationClosing <:+: marker.text ++ ' ' :: block.declaration
    rw [infix_append_cons_iff (by decide) (by decide)]
    rintro (hfront | hback)
    · exact hclosing hfront
    · exact h.closing hback
  prose := h.prose

end Block

/-- A block that is read as a field is read as the same member with an annotation in front of its
declaration, but as a method if the annotation has arguments. -/
theorem readBlock_annotated {marker : Marker} (h : marker.IsProper)
    (hword : marker.IsWord) {block : Block} (hblock : block.IsProper)
    (hheading : ¬ memberHeading <:+: marker.text)
    (hclosing : ¬ declarationClosing <:+: marker.text) {proseNeeded : Bool} {self : Text}
    {field : Member} (hread : readBlock proseNeeded self block.text = .ok (.kept field))
    (hfield : field.isCallable = false) :
    ∃ member, readBlock proseNeeded self (block.annotated marker).text = .ok (.kept member) ∧
      member.isCallable = marker.arguments.isSome ∧ member.visibility = field.visibility ∧
      member.documentation = field.documentation := by
  rw [readBlock_text hblock, Except.ok.injEq, readMember_eq_kept_iff] at hread
  obtain ⟨signature, hsignature, rfl⟩ := hread
  have hplain : '(' ∉ signature := by simpa [Member.isCallable] using hfield
  obtain ⟨found, hfound, hparen⟩ := Marker.signature_before h hword hsignature hplain
  have hproper := Block.isProper_annotated hblock hheading hclosing
  refine ⟨⟨found, visibility (marker.before block.declaration),
    (splitOn [' '] found).contains "abstract".toList, reflow (proseMark ++ block.prose)⟩,
    ?_, ?_, ?_, ?_⟩
  · rw [readBlock_text hproper, Except.ok.injEq, readMember_eq_kept_iff,
      Block.annotated_declaration, Block.annotated_prose]
    exact ⟨found, hfound, rfl⟩
  · rw [Member.isCallable, Bool.eq_iff_iff, decide_eq_true_eq]
    exact hparen
  · simp only [Marker.visibility_before hword]
  · rfl

/-- What an annotation could leave unchanged: the visibility and the refusal of what stands behind
it, the modifiers of a class, and that a member is a field. -/
structure IsUnseen (marker : Marker) : Prop where
  visibility : ∀ fragment, visibility (marker.before fragment) = visibility fragment
  refusal : ∀ self fragment,
    Declaration.signature self (marker.before fragment) = .error .priv ↔
      Declaration.signature self fragment = .error .priv
  modifiers : ∀ kind fragment,
    classModifiers kind (marker.before fragment) = classModifiers kind fragment
  field : ∀ block proseNeeded self field, Block.IsProper block →
    readBlock proseNeeded self block.text = .ok (.kept field) → field.isCallable = false →
    ∃ member, readBlock proseNeeded self (block.annotated marker).text = .ok (.kept member) ∧
      member.isCallable = false

/-- An annotation that is one word is not seen, except for the parentheses of its arguments, which
make a field a method. -/
theorem annotation_passed_over {marker : Marker} (h : marker.IsProper)
    (hword : marker.IsWord) :
    (∀ fragment, visibility (marker.before fragment) = visibility fragment) ∧
      (∀ self fragment,
        Declaration.signature self (marker.before fragment) = .error .priv ↔
          Declaration.signature self fragment = .error .priv) ∧
      (∀ kind fragment,
        classModifiers kind (marker.before fragment) = classModifiers kind fragment) ∧
      ∀ block proseNeeded self field, Block.IsProper block →
        ¬ memberHeading <:+: marker.text → ¬ declarationClosing <:+: marker.text →
        readBlock proseNeeded self block.text = .ok (.kept field) → field.isCallable = false →
        ∃ member, readBlock proseNeeded self (block.annotated marker).text = .ok (.kept member) ∧
          member.isCallable = marker.arguments.isSome ∧ member.visibility = field.visibility ∧
          member.documentation = field.documentation := by
  refine ⟨Marker.visibility_before hword, Marker.signature_before_eq_priv_iff h hword,
    classModifiers_before hword, ?_⟩
  intro block proseNeeded self field hblock hheading hclosing hread hfield
  exact readBlock_annotated h hword hblock hheading hclosing hread hfield

def sizeMarker : Marker := ⟨"Size".toList, some ['1']⟩

theorem sizeMarker_isProper : sizeMarker.IsProper where
  name := forall_mem_of_all (by decide)
  entity := by decide
  balanced := by
    rintro arguments ⟨⟩
    decide
  published := by decide +kernel

theorem sizeMarker_isWord : sizeMarker.IsWord where
  closed := by decide
  solid := forall_mem_of_all (by decide +kernel)

def sizeBlock : Block := ⟨"z</h4>".toList, "int z".toList, [], "How many.".toList⟩

def sizeField : Member := ⟨"int z".toList, .pub, false, "How many.".toList⟩

theorem sizeBlock_isProper : sizeBlock.IsProper where
  heading := by decide +kernel
  opening := by decide +kernel
  closing := by decide +kernel
  prose := by decide +kernel

theorem readBlock_sizeBlock :
    readBlock true "Box".toList sizeBlock.text = .ok (.kept sizeField) := by decide +kernel

theorem annotation_passed_over_size :
    visibility (sizeMarker.before "private int z".toList) = visibility "private int z".toList ∧
      classModifiers .cls (sizeMarker.before "final class Box".toList) =
        classModifiers .cls "final class Box".toList ∧
      ∃ member,
        readBlock true "Box".toList (sizeBlock.annotated sizeMarker).text = .ok (.kept member) ∧
          member.isCallable = true ∧ member.visibility = .pub := by
  obtain ⟨hvisibility, -, hmodifiers, hblock⟩ :=
    annotation_passed_over sizeMarker_isProper sizeMarker_isWord
  obtain ⟨member, hread, hcallable, hvisible, -⟩ := hblock sizeBlock true "Box".toList sizeField
    sizeBlock_isProper (by decide +kernel) (by decide +kernel) readBlock_sizeBlock (by decide)
  exact ⟨hvisibility _, hmodifiers _ _, member, hread, hcallable, hvisible⟩

def rangeMarker : Marker := ⟨"Range".toList, some "min = 1".toList⟩

theorem rangeMarker_isProper : rangeMarker.IsProper where
  name := forall_mem_of_all (by decide)
  entity := by decide
  balanced := by
    rintro arguments ⟨⟩
    decide
  published := by decide +kernel

/-- The arguments of an annotation are seen, though no word in them is one for a visibility. They
make a method of a field, and if there are blanks in them, the words behind the first blank are
taken for those of the declaration. -/
theorem not_isUnseen_arguments :
    (¬ ∀ marker : Marker, marker.IsProper → marker.IsSilent → marker.IsWord → IsUnseen marker) ∧
      ¬ ∀ marker : Marker, marker.IsProper → marker.IsSilent →
        ∀ fragment, visibility (marker.before fragment) = visibility fragment := by
  constructor
  · intro h
    have hunseen := h sizeMarker sizeMarker_isProper (by decide +kernel) sizeMarker_isWord
    obtain ⟨member, hread, hfield⟩ := hunseen.field sizeBlock true "Box".toList sizeField
      sizeBlock_isProper readBlock_sizeBlock (by decide)
    have hmethod : readBlock true "Box".toList (sizeBlock.annotated sizeMarker).text =
        .ok (.kept ⟨"@Size(1) int z".toList, .pub, false, "How many.".toList⟩) := by decide +kernel
    rw [hmethod] at hread
    cases hread
    exact absurd hfield (by decide)
  · intro h
    have hsame := h rangeMarker rangeMarker_isProper (by decide +kernel) "private int z".toList
    have hpublic : visibility (rangeMarker.before "private int z".toList) = .pub := by
      decide +kernel
    have hprivate : visibility "private int z".toList = .priv := by decide +kernel
    rw [hpublic, hprivate] at hsame
    cases hsame

end ClassSkeleton.ClassPage
