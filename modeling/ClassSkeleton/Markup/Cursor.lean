import ClassSkeleton.Markup.Search

/-!
A cursor is a position in an immutable text that only moves forward: each stage of a page scan
goes on from where the one before it stopped. It may be put inside a character, and from there
every search fails.
-/
namespace ClassSkeleton.Markup

structure Cursor where
  text : Text
  position : Nat
  deriving DecidableEq, Repr

namespace Cursor

def start (text : Text) : Cursor := ⟨text, 0⟩

/-- Where `mark` next stands, without moving. -/
def peek (cursor : Cursor) (mark : Text) : Option Nat := locate cursor.text mark cursor.position

/-- Move to the next `mark`; without one the cursor stays. -/
def seek (cursor : Cursor) (mark : Text) : Option Nat × Cursor :=
  match cursor.peek mark with
  | none => (none, cursor)
  | some place => (some place, { cursor with position := place })

/-- Extract from the current position and move past the closing mark; a failure leaves the
cursor in place. -/
def between (cursor : Cursor) (opening closing : Text) : Except ScanError Extract × Cursor :=
  match extractBetween cursor.text opening closing cursor.position with
  | .error e => (.error e, cursor)
  | .ok extract => (.ok extract, { cursor with position := extract.after })

/-- Move forward to `position`, at most to the end of the text. -/
def advanceTo (cursor : Cursor) (position : Nat) : Cursor :=
  if cursor.position < position then
    { cursor with position := min position (Text.width cursor.text) }
  else cursor

end Cursor

end ClassSkeleton.Markup
