import ClassSkeleton.Text.Basic

/-!
Punycode: a label of a host name written in ASCII alone. The ASCII characters come first, closed by
a hyphen; then one number for every other character, in ascending order of code points, that says
how far it lies from the one before in an enumeration of all pairs of a code point and a position.
Numbers have digits to base 36, lowest first, and end at the first digit below a threshold that
follows the sizes of the numbers before.
-/
namespace ClassSkeleton.Url.Punycode

/-- What a digit may reach without ending the number, for the digit at a position. -/
def threshold (bias position : Nat) : Nat := max 1 (min 26 (36 * (position + 1) - bias))

theorem threshold_pos (bias position : Nat) : 0 < threshold bias position := by
  unfold threshold
  omega

def biasOf (size : Nat) : Nat :=
  if 455 < size then 36 + biasOf (size / 35) else 36 * size / (size + 38)
termination_by size

/-- The bias after a number of the given size, when `count` characters are in place. -/
def nextBias (size count : Nat) (isFirst : Bool) : Nat :=
  let size := if isFirst then size / 700 else size / 2
  biasOf (size + size / count)

def firstBias : Nat := 72

def digitChar (n : Nat) : Char := Char.ofNat (if n < 26 then 97 + n else 22 + n)

def digitOf? (c : Char) : Option Nat :=
  if 'a' ≤ c ∧ c ≤ 'z' then some (c.toNat - 97)
  else if '0' ≤ c ∧ c ≤ '9' then some (c.toNat - 22)
  else none

def writeNumber (bias position n : Nat) : Text :=
  let t := threshold bias position
  if n < t then [digitChar n]
  else digitChar (t + (n - t) % (36 - t)) :: writeNumber bias (position + 1) ((n - t) / (36 - t))
termination_by n
decreasing_by
  have hpos := threshold_pos bias position
  exact Nat.lt_of_le_of_lt (Nat.div_le_self _ _) (by omega)

/-- A number in front of a text, added to `sum` digit by digit, and what follows it. -/
def readNumber? (bias position weight sum : Nat) : Text → Option (Nat × Text)
  | [] => none
  | c :: rest =>
    match digitOf? c with
    | none => none
    | some digit =>
      let t := threshold bias position
      if digit < t then some (sum + digit * weight, rest)
      else readNumber? bias (position + 1) (weight * (36 - t)) (sum + digit * weight) rest

theorem length_readNumber? {bias position weight sum n : Nat} {text rest : Text}
    (h : readNumber? bias position weight sum text = some (n, rest)) :
    rest.length < text.length := by
  induction text generalizing position weight sum with
  | nil => simp [readNumber?] at h
  | cons c tail ih =>
    simp only [readNumber?] at h
    split at h
    · simp at h
    · split at h
      · obtain ⟨-, rfl⟩ := Prod.mk.inj (Option.some.inj h)
        simp
      · exact Nat.lt_succ_of_lt (ih h)

/-- How far the enumeration has come since the last number, and how many characters are in
place. -/
structure Placement where
  written : Text
  distance : Nat
  bias : Nat
  count : Nat

/-- Pass a character of the text while those with code point `code` are put in place. -/
def pass (code basicCount : Nat) (placement : Placement) (c : Char) : Placement :=
  if c.toNat < code then { placement with distance := placement.distance + 1 }
  else if c.toNat = code then
    { written := placement.written ++ writeNumber placement.bias 0 placement.distance
      distance := 0
      bias := nextBias placement.distance (placement.count + 1) (placement.count == basicCount)
      count := placement.count + 1 }
  else placement

/-- Put all characters in place from the code point `next` on; `codes` are those that occur. -/
def encodeFrom (text : Text) (basicCount next : Nat) (placement : Placement) : List Nat → Text
  | [] => placement.written
  | code :: codes =>
    let skipped := (code - next) * (placement.count + 1)
    let passed := text.foldl (pass code basicCount)
      { placement with distance := placement.distance + skipped }
    encodeFrom text basicCount (code + 1) { passed with distance := passed.distance + 1 } codes

def encode (text : Text) : Text :=
  let basic := text.filter fun c => c.toNat < 128
  let codes := (text.map (·.toNat)).filter fun code => 128 ≤ code
  let closed := if basic.isEmpty then [] else basic ++ ['-']
  encodeFrom text basic.length 128 ⟨closed, 0, firstBias, basic.length⟩
    (codes.mergeSort fun a b => a ≤ b).eraseDups

/-- Put characters in place as the numbers say, the next of them at `index` or later with a code
point from `code` on. -/
def decodeFrom? (bias code index : Nat) (isFirst : Bool) (placed rest : Text) : Option Text :=
  if rest.isEmpty then some placed
  else
    match _h : readNumber? bias 0 1 index rest with
    | none => none
    | some (sum, rest') =>
      let count := placed.length + 1
      let code := code + sum / count
      if code.isValidChar then
        decodeFrom? (nextBias (sum - index) count isFirst) code (sum % count + 1) false
          (placed.insertIdx (sum % count) (Char.ofNat code)) rest'
      else none
termination_by rest.length
decreasing_by exact length_readNumber? _h

/-- The text that a text in ASCII stands for; its last hyphen closes the characters in ASCII. -/
def decode? (text : Text) : Option Text :=
  match text.reverse.span fun c => c != '-' with
  | (numbers, []) => decodeFrom? firstBias 128 0 true [] numbers.reverse
  | (numbers, _ :: basic) => decodeFrom? firstBias 128 0 true basic.reverse numbers.reverse

example : encode "bücher".toList = "bcher-kva".toList := by decide +kernel

example : decode? "bcher-kva".toList = some "bücher".toList := by decide +kernel

end ClassSkeleton.Url.Punycode
