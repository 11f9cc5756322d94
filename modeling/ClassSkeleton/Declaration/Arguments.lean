import ClassSkeleton.Failure
import ClassSkeleton.Text.Blank

/-!
Lists of type parameters are split at separators outside of all angle brackets. The nesting is a
signed 32-bit count: closing brackets without a partner take it below zero, and only at zero does
a separator count.
-/
namespace ClassSkeleton

/-- A nesting count changed by `change`, as long as it stays in range. -/
def nest (depth change : Int) : Except ScanError Int :=
  if -2147483648 ≤ depth + change ∧ depth + change ≤ 2147483647 then .ok (depth + change)
  else .error .depth

namespace Declaration

/-- Pieces between the separators at depth zero, starting at `depth`. -/
def piecesFrom (separator : Char) (depth : Int) : Text → Except ScanError (List Text)
  | [] => .ok [[]]
  | c :: rest =>
    if c = '<' then do
      let deeper ← nest depth 1
      return Text.consHead c (← piecesFrom separator deeper rest)
    else if c = '>' then do
      let shallower ← nest depth (-1)
      return Text.consHead c (← piecesFrom separator shallower rest)
    else if c = separator ∧ depth = 0 then
      return [] :: (← piecesFrom separator depth rest)
    else
      return Text.consHead c (← piecesFrom separator depth rest)

/-- The trimmed nonempty pieces between separators outside of all angle brackets. -/
def splitTopLevel (text : Text) (separator : Char) : Except ScanError (List Text) := do
  let pieces ← piecesFrom separator 0 text
  return (pieces.map Text.trim).filter fun piece => !piece.isEmpty

/-- What stands between the first `<` and the last `>` after it. -/
def outerArguments? (heading : Text) : Option Text :=
  match Text.breakAt? ['<'] heading with
  | none => none
  | some (_, rest) =>
    if '>' ∈ rest then some (rest.reverse.dropWhile (· != '>')).tail.reverse else none

end Declaration

end ClassSkeleton
