import ClassSkeleton.Text.Digit

/-!
Tables that say which text each of many characters stands for, in a short notation. A row gives the
forms of consecutive characters, one word after the other. In a word the code points of a form are
written in hexadecimal and joined by plus signs; two dots stand between the first and the last of
consecutive forms of one character each; a hyphen passes over a character that has no form.
-/
namespace ClassSkeleton.Text

/-- Forms for the characters from the code point `first` on. -/
structure FormRow where
  first : Nat
  words : String

def charOf (digits : Text) : Char := Char.ofNat ((valueIn? 16 digits).getD 0)

def wordForms (word : Text) : List (Option Text) :=
  if word = ['-'] then [none]
  else
    match breakAt? ['.', '.'] word with
    | some (first, last) =>
      let (first, last) := ((charOf first).toNat, (charOf last).toNat)
      (List.range' first (last + 1 - first)).map fun code => some [Char.ofNat code]
    | none => [some ((splitOn ['+'] word).map charOf)]

def FormRow.forms (row : FormRow) : List (Nat × Text) :=
  let forms := (splitOn [' '] row.words.toList).flatMap wordForms
  (forms.zipIdx row.first).filterMap fun entry => entry.1.map fun form => (entry.2, form)

/-- Does each row begin at a higher code point than the one before? -/
def areAscending : List FormRow → Bool
  | row :: next :: rows => row.first < next.first && areAscending (next :: rows)
  | _ => true

/-- The form of a character in ascending rows. -/
def formIn? (rows : List FormRow) (c : Char) : Option Text :=
  match (rows.takeWhile fun row => row.first ≤ c.toNat).getLast? with
  | none => none
  | some row => (row.forms.find? fun entry => entry.1 == c.toNat).map (·.2)

example : (FormRow.mk 0x2160 "69 69+69 - 78..7A").forms =
    [(0x2160, "i".toList), (0x2161, "ii".toList), (0x2163, "x".toList), (0x2164, "y".toList),
      (0x2165, "z".toList)] := by
  decide +kernel

end ClassSkeleton.Text
