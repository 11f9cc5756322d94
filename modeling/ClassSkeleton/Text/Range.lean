/-!
Sets of code points as lists of ranges, each given by its first and its last member.
-/
namespace ClassSkeleton.Text

def inRanges (ranges : List (Nat × Nat)) (code : Nat) : Bool :=
  ranges.any fun range => range.1 ≤ code && code ≤ range.2

end ClassSkeleton.Text
