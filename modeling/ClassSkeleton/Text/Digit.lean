import ClassSkeleton.Text.Basic

/-!
Numbers in a base up to 16, read from the digits 0 to 9 and the letters a to f in either case.
There is no sign, and nothing but digits of the base is read.
-/
namespace ClassSkeleton.Text

def digitValue? (c : Char) : Option Nat :=
  if '0' ≤ c ∧ c ≤ '9' then some (c.toNat - 48)
  else if 'a' ≤ c ∧ c ≤ 'f' then some (c.toNat - 87)
  else if 'A' ≤ c ∧ c ≤ 'F' then some (c.toNat - 55)
  else none

def valueFrom? (base value : Nat) : Text → Option Nat
  | [] => some value
  | c :: rest =>
    match digitValue? c with
    | none => none
    | some digit => if digit < base then valueFrom? base (value * base + digit) rest else none

/-- The number that a text of digits stands for; no digits stand for zero. -/
def valueIn? (base : Nat) (text : Text) : Option Nat := valueFrom? base 0 text

end ClassSkeleton.Text
