import ClassSkeleton.Skeleton
import ClassSkeleton.Proofs.Markup.Reflow

/-!
A skeleton is written line by line. The source opens with the modifiers and the structure of the
class, and goes on with the members, each behind an empty line.
-/
namespace ClassSkeleton

namespace Text

@[simp] theorem unlines_nil : unlines [] = [] := rfl

@[simp] theorem unlines_cons (line : Text) (lines : List Text) :
    unlines (line :: lines) = line ++ '\n' :: unlines lines := by
  simp [unlines]

@[simp] theorem unlines_append (front back : List Text) :
    unlines (front ++ back) = unlines front ++ unlines back := by
  simp [unlines]

theorem splitOn_unlines {lines : List Text} (h : ∀ line ∈ lines, '\n' ∉ line) :
    splitOn ['\n'] (unlines lines) = lines ++ [[]] := by
  induction lines with
  | nil => rfl
  | cons line lines ih =>
    rw [unlines_cons, splitOn_cons_char _ (h line List.mem_cons_self),
      ih fun other hother => h other (List.mem_cons_of_mem line hother), List.cons_append]

theorem unlines_inj {lines lines' : List Text} (h : ∀ line ∈ lines, '\n' ∉ line)
    (h' : ∀ line ∈ lines', '\n' ∉ line) (heq : unlines lines = unlines lines') :
    lines = lines' := by
  have hsplit := splitOn_unlines h
  rw [heq, splitOn_unlines h'] at hsplit
  exact (List.append_cancel_right hsplit).symm

/-- A mark without a line feed stands in written lines exactly if it stands in one of them. -/
theorem infix_unlines_iff {mark : Text} (hmark : mark ≠ []) (hfeed : '\n' ∉ mark)
    (lines : List Text) : mark <:+: unlines lines ↔ ∃ line ∈ lines, mark <:+: line := by
  induction lines with
  | nil => simpa using hmark
  | cons line lines ih =>
    rw [unlines_cons, infix_append_cons_iff hmark hfeed, ih, List.exists_mem_cons_iff]

end Text

namespace Outline

def members (outline : Outline) : List Member :=
  outline.fields ++ outline.constructors ++ outline.methods

end Outline

namespace Skeleton

open Text

def openingLines (outline : Outline) : List Text :=
  closeGroup (outline.modifiers.map fun modifier => "// @".toList ++ modifier) ++
    ["struct ".toList ++ outline.entity.ident ++ "_S \x7b".toList, "\x7d;".toList]

def membersLines (ident : Text) (members : List Member) : List Text :=
  members.flatMap fun member => [] :: memberLines ident member

theorem source_eq (outline : Outline) :
    (ofOutline outline).source = unlines (openingLines outline) ++
      unlines (membersLines outline.entity.ident outline.members) := by
  rw [← unlines_append]
  rfl

end Skeleton

end ClassSkeleton
