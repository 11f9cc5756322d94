import ClassSkeleton.Text.Quoted

/-!
Search in marked-up text. Marks are exact and case-sensitive, and every position is a byte
offset. A search from an offset that addresses nothing finds nothing; a cut at such an offset is
refused with an error of its own, so that a reader of pages has to show that it never makes one.
-/
namespace ClassSkeleton

/-- Why a piece of marked-up text could not be read. -/
inductive ScanError where
  /-- The mark does not stand where it is needed. -/
  | missing (mark : Text)
  /-- The two offsets are out of order, past the end or inside a character. -/
  | cut (first last : Nat)
  /-- The nesting of brackets leaves the range of a 32-bit count. -/
  | depth
  deriving DecidableEq, Repr

def ScanError.message : ScanError → Text
  | .missing mark => "marker ".toList ++ Text.quoted mark ++ " not found".toList
  | .cut first last =>
    "no text between bytes ".toList ++ Text.decimal first ++ " and ".toList ++ Text.decimal last
  | .depth => "brackets nested too deep".toList

namespace Markup

/-- Where `mark` first stands at or after byte `start`. -/
def locate (text mark : Text) (start : Nat) : Option Nat :=
  (Text.dropBytes? start text).bind (Text.findFrom mark start)

/-- A mark that is located stands in the text at that offset. -/
theorem eq_of_locate {text mark : Text} {start place : Nat}
    (h : locate text mark start = some place) :
    ∃ before after, text = before ++ mark ++ after ∧ Text.width before = place ∧
      start ≤ place := by
  obtain ⟨rest, hrest, hfind⟩ := Option.bind_eq_some_iff.mp h
  obtain ⟨front, rfl, rfl⟩ := Text.eq_of_dropBytes? hrest
  obtain ⟨before, after, rfl, rfl⟩ := Text.eq_of_findFrom hfind
  exact ⟨front ++ before, after, by simp, by simp, by omega⟩

theorem locate_bounds {text mark : Text} {start place : Nat}
    (h : locate text mark start = some place) :
    start ≤ place ∧ place + Text.width mark ≤ Text.width text := by
  obtain ⟨before, after, rfl, rfl, hle⟩ := eq_of_locate h
  exact ⟨hle, by simp only [Text.width_append]; omega⟩

def cut (text : Text) (first last : Nat) : Except ScanError Text :=
  match Text.slice? first last text with
  | some piece => .ok piece
  | none => .error (.cut first last)

/-- Text found between two marks: `start` is the offset of its first byte and `after` the offset
past the closing mark. -/
structure Extract where
  inner : Text
  start : Nat
  after : Nat
  deriving DecidableEq, Repr

def Extract.describe (extract : Extract) : Text :=
  "Extract(".toList ++ Text.decimal extract.start ++ "..".toList ++ Text.decimal extract.after ++
    [' '] ++ Text.quoted extract.inner ++ [')']

/-- The text between the first `opening` at or after `start` and the next `closing` past it. -/
def extractBetween (text opening closing : Text) (start : Nat) : Except ScanError Extract :=
  match locate text opening start with
  | none => .error (.missing opening)
  | some place =>
    let first := place + Text.width opening
    match locate text closing first with
    | none => .error (.missing closing)
    | some last =>
      match cut text first last with
      | .error e => .error e
      | .ok inner => .ok ⟨inner, first, last + Text.width closing⟩

/-- Offsets of the next `opening` and of the end of the `closing` that follows it. -/
def nextBlock (text opening closing : Text) (start : Nat) : Option (Nat × Nat) :=
  match locate text opening start with
  | none => none
  | some first =>
    match locate text closing (first + Text.width opening) with
    | none => none
    | some last => some (first, last + Text.width closing)

end Markup

end ClassSkeleton
