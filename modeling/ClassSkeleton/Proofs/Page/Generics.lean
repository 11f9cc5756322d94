import ClassSkeleton.Proofs.Markup.Reflow
import ClassSkeleton.Proofs.Page.Stages
import ClassSkeleton.Proofs.Declaration.Arguments
import Mathlib.Data.List.Infix

/-!
The type parameters of a class as its heading shows them, with blanks around each of them and with
tags anywhere in the heading. They may be bounded by types that have brackets and commas of their
own, nested to any depth.
-/
namespace ClassSkeleton.ClassPage

open Text Markup Declaration

/-- A type parameter as it stands between commas, with the blanks on both sides of it. -/
structure Slot where
  before : Text
  parameter : Text
  after : Text

namespace Slot

def print (slot : Slot) : Text := slot.before ++ (slot.parameter ++ slot.after)

/-- The parameter is not blank, trimmed and single-spaced, it holds no entity, its brackets match
and its commas stand inside of them. -/
structure IsProper (slot : Slot) : Prop where
  before : ∀ c ∈ slot.before, isBlank c = true
  after : ∀ c ∈ slot.after, isBlank c = true
  nonempty : slot.parameter ≠ []
  trimmed : trim slot.parameter = slot.parameter
  spaced : collapse slot.parameter = slot.parameter
  plain : ∀ entity ∈ entities, ¬ entity <:+: slot.parameter
  matched : Matched 0 slot.parameter

instance (slot : Slot) : Decidable slot.IsProper :=
  decidable_of_iff (slot.before.all isBlank = true ∧ slot.after.all isBlank = true ∧
      slot.parameter ≠ [] ∧ trim slot.parameter = slot.parameter ∧
      collapse slot.parameter = slot.parameter ∧
      (∀ entity ∈ entities, ¬ entity <:+: slot.parameter) ∧ Matched 0 slot.parameter)
    ⟨fun ⟨hbefore, hafter, hne, htrimmed, hspaced, hplain, hmatched⟩ =>
        ⟨List.all_eq_true.mp hbefore, List.all_eq_true.mp hafter, hne, htrimmed, hspaced, hplain,
          hmatched⟩,
      fun h => ⟨List.all_eq_true.mpr h.before, List.all_eq_true.mpr h.after, h.nonempty, h.trimmed,
        h.spaced, h.plain, h.matched⟩⟩

variable {slot : Slot}

theorem trim_print (h : slot.IsProper) : trim slot.print = slot.parameter := by
  rw [print, trim_padded h.before h.after, h.trimmed]

theorem tidy_print (h : slot.IsProper) : trim (collapse slot.print) = slot.parameter := by
  have htidy := tidy_padded h.before h.after slot.parameter
  rw [tidy, tidy, h.spaced, h.trimmed] at htidy
  exact htidy

theorem filter_print (h : slot.IsProper) :
    (slot.print.filter fun c => !isBlank c) = slot.parameter.filter fun c => !isBlank c := by
  have hbefore : (slot.before.filter fun c => !isBlank c) = [] := by
    simpa using h.before
  have hafter : (slot.after.filter fun c => !isBlank c) = [] := by
    simpa using h.after
  rw [print, List.filter_append, List.filter_append, hbefore, hafter, List.nil_append,
    List.append_nil]

theorem balanced_iff (h : slot.IsProper) {text : Text}
    (htext : (text.filter fun c => !isBlank c) = slot.print.filter fun c => !isBlank c) :
    Matched 0 text ∧ (Balanced 0 text ↔ Balanced 0 slot.parameter) := by
  rw [← matched_filter, ← balanced_filter, ← balanced_filter 0 slot.parameter, htext,
    filter_print h, matched_filter]
  exact ⟨h.matched, Iff.rfl⟩

theorem not_infix_print (h : slot.IsProper) : ∀ entity ∈ entities, ¬ entity <:+: slot.print := by
  intro entity hentity
  have hall : ∀ entity ∈ entities, entity ≠ [] ∧ entity.any isBlank = false := by decide
  obtain ⟨hne, hblank⟩ := hall entity hentity
  rw [← infix_tidy_iff hne (by simpa using hblank), tidy, tidy_print h]
  exact h.plain entity hentity

/-- Between commas the parameters are found again, from what `shape` makes of the slots, unless
brackets are nested deeper than can be counted. -/
theorem splitTopLevel_slots {slots : List Slot} (hne : slots ≠ [])
    (h : ∀ slot ∈ slots, slot.IsProper) (shape : Slot → Text)
    (htrim : ∀ slot ∈ slots, trim (shape slot) = slot.parameter)
    (hfilter : ∀ slot ∈ slots, ((shape slot).filter fun c => !isBlank c) =
      slot.print.filter fun c => !isBlank c) :
    splitTopLevel (join [','] (slots.map shape)) ',' =
      if ∀ slot ∈ slots, Balanced 0 slot.parameter then .ok (slots.map parameter)
      else .error .depth := by
  have hmatched : ∀ piece ∈ slots.map shape, Matched 0 piece := by
    intro piece hpiece
    obtain ⟨slot, hslot, rfl⟩ := List.mem_map.mp hpiece
    exact (balanced_iff (h slot hslot) (hfilter slot hslot)).1
  have hparameters : (slots.map shape).map trim = slots.map parameter := by
    rw [List.map_map]
    exact List.map_congr_left htrim
  have hkept : ∀ text ∈ slots.map parameter, text ≠ [] := by
    intro text htext
    obtain ⟨slot, hslot, rfl⟩ := List.mem_map.mp htext
    exact (h slot hslot).nonempty
  have hfits : (∀ piece ∈ slots.map shape, Balanced 0 piece) ↔
      ∀ slot ∈ slots, Balanced 0 slot.parameter := by
    rw [List.forall_mem_map]
    exact forall₂_congr fun slot hslot => (balanced_iff (h slot hslot) (hfilter slot hslot)).2
  rw [splitTopLevel_pieces (by simpa using hne) hmatched hparameters hkept]
  exact if_congr hfits rfl rfl

end Slot

/-- A part of a heading: text that is shown, or a tag, which is given without its brackets. -/
inductive Part where
  | shown (text : Text)
  | tag (inside : Text)

namespace Part

def print : Part → Text
  | shown text => text
  | tag inside => '<' :: (inside ++ ['>'])

def text : Part → Text
  | shown text => text
  | tag _ => []

/-- Shown text opens no tag; a tag ends at its first closing bracket and does not close the
heading. -/
def IsProper : Part → Prop
  | shown text => '<' ∉ text
  | tag inside => '>' ∉ inside ∧ ¬ headingEnd <:+: '<' :: (inside ++ ['>'])

instance : (part : Part) → Decidable part.IsProper
  | shown text => inferInstanceAs (Decidable ('<' ∉ text))
  | tag inside =>
    inferInstanceAs (Decidable ('>' ∉ inside ∧ ¬ headingEnd <:+: '<' :: (inside ++ ['>'])))

theorem stripTags_print {parts : List Part} (h : ∀ part ∈ parts, part.IsProper) :
    stripTags (parts.flatMap print) = parts.flatMap text := by
  rw [stripTags]
  induction parts with
  | nil => rfl
  | cons part parts ih =>
    obtain ⟨hpart, hparts⟩ := List.forall_mem_cons.mp h
    rw [List.flatMap_cons, List.flatMap_cons, ← ih hparts]
    cases part with
    | shown text => exact stripFrom_append _ hpart
    | tag inside =>
      rw [print, List.cons_append, List.append_assoc, List.singleton_append, stripFrom,
        if_neg (by simp), if_pos rfl, if_pos (by simp), stripFrom_tag _ _ hpart.1]
      rfl

theorem passes_print {parts : List Part} (h : ∀ part ∈ parts, part.IsProper) (rest : Text) :
    Passes headingEnd (parts.flatMap print) rest := by
  induction parts with
  | nil => exact passes_nil _ _
  | cons part parts ih =>
    obtain ⟨hpart, hparts⟩ := List.forall_mem_cons.mp h
    rw [List.flatMap_cons]
    refine (passes_append _ _ _ _).mpr ⟨?_, ih hparts⟩
    cases part with
    | shown text => exact passes_of_head _ rfl hpart
    | tag inside =>
      have hpass : Passes headingEnd ('<' :: inside ++ ['>']) (parts.flatMap print ++ rest) :=
        passes_of_last _ hpart.2 (by decide)
      exact hpass

end Part

/-- The visible heading of a class with type parameters, before it is escaped. -/
def slottedHeading (name : Text) (slots : List Slot) : Text :=
  name ++ '<' :: (join [','] (slots.map Slot.print) ++ ['>'])

theorem not_infix_slottedHeading {name : Text} {slots : List Slot}
    (hname : ∀ entity ∈ entities, ¬ entity <:+: name) (hslots : ∀ slot ∈ slots, slot.IsProper) :
    ∀ entity ∈ entities, ¬ entity <:+: slottedHeading name slots := by
  intro entity hentity
  have hall : ∀ entity ∈ entities, entity ≠ [] ∧ '<' ∉ entity ∧ '>' ∉ entity ∧ ',' ∉ entity := by
    decide
  obtain ⟨hne, hopen, hclose, hcomma⟩ := hall entity hentity
  rw [slottedHeading, infix_append_cons_iff hne hopen, infix_append_cons_iff hne hclose,
    infix_join_iff hne hcomma]
  rintro (hocc | ⟨piece, hpiece, hocc⟩ | hocc)
  · exact hname entity hentity hocc
  · obtain ⟨slot, hslot, rfl⟩ := List.mem_map.mp hpiece
    exact Slot.not_infix_print (hslots slot hslot) entity hentity hocc
  · exact hne (List.infix_nil.mp hocc)

theorem genericsOf_parts {name : Text} {slots : List Slot} {parts : List Part} (hne : slots ≠ [])
    (hslots : ∀ slot ∈ slots, slot.IsProper) (hname : '<' ∉ name)
    (hplain : ∀ entity ∈ entities, ¬ entity <:+: name) (hparts : ∀ part ∈ parts, part.IsProper)
    (hshown : parts.flatMap Part.text = escape (slottedHeading name slots)) :
    genericsOf (parts.flatMap Part.print) =
      if ∀ slot ∈ slots, Balanced 0 slot.parameter then .ok (slots.map Slot.parameter)
      else .error .depth := by
  have hheading : plainText (parts.flatMap Part.print) =
      trim (collapse (slottedHeading name slots)) := by
    rw [plainText, Part.stripTags_print hparts, hshown,
      decodeEntities_escape (not_infix_slottedHeading hplain hslots)]
  rw [genericsOf, hheading, slottedHeading, outerArguments?_plain _ hname]
  simp only
  rw [collapse_join, List.map_map]
  exact Slot.splitTopLevel_slots hne hslots (collapse ∘ Slot.print)
    (fun slot hslot => Slot.tidy_print (hslots slot hslot)) fun slot _ =>
      filter_collapseFrom false slot.print

/-- Type parameters are taken apart at the commas between them, whatever their bounds look like,
and the heading of a class gives back the parameters that it shows, and where it ends. The one
exception is a parameter with brackets nested 2^31 deep or deeper: there the count of 32 bits leaves
its range, and both are refused. It takes a parameter of more than 2147483647 characters. -/
theorem readGenerics_slotted {slots : List Slot} (hne : slots ≠ [])
    (hslots : ∀ slot ∈ slots, slot.IsProper) :
    splitTopLevel (join [','] (slots.map Slot.print)) ',' =
        (if ∀ slot ∈ slots, Balanced 0 slot.parameter then .ok (slots.map Slot.parameter)
        else .error .depth) ∧
      (∀ (front attributes name rest : Text) (parts : List Part), '>' ∉ attributes → '<' ∉ name →
        (∀ entity ∈ entities, ¬ entity <:+: name) → (∀ part ∈ parts, part.IsProper) →
        parts.flatMap Part.text = escape (slottedHeading name slots) →
        ∀ page, page = front ++ (attributes ++ ['>'] ++
            (parts.flatMap Part.print ++ headingEnd ++ rest)) →
          readGenerics ⟨page, width front⟩ =
            if ∀ slot ∈ slots, Balanced 0 slot.parameter then
              .ok (slots.map Slot.parameter, ⟨page, width (front ++ attributes ++ ['>'] ++
                parts.flatMap Part.print ++ headingEnd)⟩)
            else .error .depth) ∧
      ∀ slot ∈ slots, slot.parameter.length ≤ 2147483647 → Balanced 0 slot.parameter := by
  refine ⟨?_, ?_, ?_⟩
  · exact Slot.splitTopLevel_slots hne hslots Slot.print
      (fun slot hslot => Slot.trim_print (hslots slot hslot)) fun slot _ => rfl
  · intro front attributes name rest parts hattributes hname hplain hparts hshown page hpage
    rw [readGenerics_width hpage hattributes (Part.passes_print hparts _),
      genericsOf_parts hne hslots hname hplain hparts hshown]
    split <;> rfl
  · intro slot hslot hlength
    exact (hslots slot hslot).matched.balanced (by omega)

def boundedSlots : List Slot :=
  [⟨[], "E extends Comparable<? super Map<K,V>>".toList, [' ']⟩, ⟨"\n  ".toList, ['T'], []⟩]

def boundedParts : List Part :=
  [.shown "Class Sorter".toList, .tag "br".toList, .shown "&l".toList, .tag "b".toList,
    .shown "t;E extends Comparable&lt;? super Map&lt;K,V&gt;&gt; ,\n  T".toList, .tag "/b".toList,
    .shown "&gt;".toList]

def boundedPage : Text :=
  "<h2 title=\"Class Sorter\" class=\"title\">".toList ++
    (boundedParts.flatMap Part.print ++ "</h2>\n<pre>".toList)

theorem readGenerics_slotted_bounded :
    splitTopLevel "E extends Comparable<? super Map<K,V>> ,\n  T".toList ',' =
        .ok ["E extends Comparable<? super Map<K,V>>".toList, ['T']] ∧
      readGenerics ⟨boundedPage, 24⟩ =
        .ok (["E extends Comparable<? super Map<K,V>>".toList, ['T']], ⟨boundedPage, 131⟩) := by
  have hproper : ∀ slot ∈ boundedSlots, slot.IsProper := by decide +kernel
  obtain ⟨hsplit, hheading, hfits⟩ := readGenerics_slotted (by decide) hproper
  have hlength : ∀ slot ∈ boundedSlots, slot.parameter.length ≤ 38 := by decide
  have hbalanced : ∀ slot ∈ boundedSlots, Balanced 0 slot.parameter :=
    fun slot hslot => hfits slot hslot ((hlength slot hslot).trans (by omega))
  have hread := hheading "<h2 title=\"Class Sorter\"".toList " class=\"title\"".toList
    "Class Sorter".toList "\n<pre>".toList boundedParts (by decide) (by decide)
    (by decide +kernel) (by decide +kernel) (by decide +kernel) boundedPage (by decide +kernel)
  have hjoin : join [','] (boundedSlots.map Slot.print) =
      "E extends Comparable<? super Map<K,V>> ,\n  T".toList := by decide +kernel
  have hstart : width "<h2 title=\"Class Sorter\"".toList = 24 := by decide +kernel
  have hend : width ("<h2 title=\"Class Sorter\"".toList ++ " class=\"title\"".toList ++ ['>'] ++
      boundedParts.flatMap Part.print ++ headingEnd) = 131 := by decide +kernel
  rw [if_pos hbalanced, hjoin] at hsplit
  rw [if_pos hbalanced, hstart, hend] at hread
  exact ⟨hsplit, hread⟩

end ClassSkeleton.ClassPage
