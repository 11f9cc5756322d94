import ClassSkeleton.Text.Digit

/-!
Network addresses that stand in place of a name. One of version 4 is written as one to four numbers
with dots between them, each decimal, octal behind a zero or hexadecimal behind `0x`; the last
number fills all bytes that are left. One of version 6 is eight pieces of 16 bits, written in
hexadecimal with colons between them; two colons once stand for zero pieces, and the last two
pieces may be a dotted quad.
-/
namespace ClassSkeleton.Url

/-- A number in the base that its first characters tell. -/
def number? : Text → Option Nat
  | [] => none
  | '0' :: 'x' :: digits => Text.valueIn? 16 digits
  | '0' :: 'X' :: digits => Text.valueIn? 16 digits
  | '0' :: c :: digits => Text.valueIn? 8 (c :: digits)
  | digits => Text.valueIn? 10 digits

def isNumber (part : Text) : Bool :=
  (!part.isEmpty && part.all (·.isDigit)) || (number? part).isSome

/-- The parts of a domain name; a dot at the end closes the last. -/
def dottedParts (domain : Text) : List Text :=
  let parts := Text.splitOn ['.'] domain
  if parts.getLast? = some [] then parts.dropLast else parts

/-- A name that ends in a number is no name but an address. -/
def endsInNumber (domain : Text) : Bool := (dottedParts domain).getLast?.any isNumber

/-- The number whose bytes are given, highest first. -/
def ofBytes (bytes : List Nat) : Nat := bytes.foldl (fun n byte => n * 256 + byte) 0

/-- The address of version 4 that is written as the given parts. -/
def ipv4OfParts? (parts : List Text) : Option Nat :=
  match (parts.mapM number?).map (·.reverse) with
  | some (last :: above) =>
    let unit := Nat.pow 256 (4 - above.length)
    if above.length < 4 && above.all (· < 256) && last < unit then
      some (ofBytes above.reverse * unit + last)
    else none
  | _ => none

def ipv4? (domain : Text) : Option Nat := ipv4OfParts? (dottedParts domain)

def ipv4Text (address : Nat) : Text :=
  Text.join ['.'] ([24, 16, 8, 0].map fun shift => Text.decimal ((address >>> shift) % 256))

/-- A byte of a dotted quad, without needless zeros. -/
def quadByte? (part : Text) : Option Nat :=
  if part.isEmpty || (part.length != 1 && part.head? == some '0') then none
  else (Text.valueIn? 10 part).filter (· < 256)

def quad? (text : Text) : Option (List Nat) :=
  match (Text.splitOn ['.'] text).mapM quadByte? with
  | some [a, b, c, d] => some [a * 256 + b, c * 256 + d]
  | _ => none

def piece? (text : Text) : Option (List Nat) :=
  if text.isEmpty || 4 < text.length then none else (Text.valueIn? 16 text).map ([·])

/-- The pieces of a text without two colons; a dotted quad may close them if `mayDot`. -/
def pieces? (mayDot : Bool) (text : Text) : Option (List Nat) :=
  if text.isEmpty then some []
  else
    let groups := Text.splitOn [':'] text
    let last? (group : Text) := if mayDot && '.' ∈ group then quad? group else piece? group
    match groups.dropLast.mapM piece?, groups.getLast?.bind last? with
    | some above, some last => some (above.flatten ++ last)
    | _, _ => none

/-- The eight pieces of an address of version 6. -/
def ipv6? (text : Text) : Option (List Nat) :=
  match Text.breakAt? "::".toList text with
  | none => (pieces? true text).filter (·.length == 8)
  | some (front, back) =>
    match pieces? false front, pieces? true back with
    | some front, some back =>
      if front.length + back.length < 8 then
        some (front ++ List.replicate (8 - front.length - back.length) 0 ++ back)
      else none
    | _, _ => none

/-- How many zeros begin a list. -/
def leadingZeros (pieces : List Nat) : Nat := (pieces.takeWhile (· == 0)).length

/-- Where the first of the longest runs of zeros begins, and its length. -/
def zeroRun (pieces : List Nat) : Nat × Nat :=
  (List.range pieces.length).foldl
    (fun best start =>
      let length := leadingZeros (pieces.drop start)
      if best.2 < length then (start, length) else best)
    (0, 0)

/-- Two colons stand for the first of the longest runs of zeros, unless it is a single one. -/
def ipv6Text (pieces : List Nat) : Text :=
  let hex (pieces : List Nat) := Text.join [':'] (pieces.map (Nat.toDigits 16))
  let (start, length) := zeroRun pieces
  if length < 2 then hex pieces
  else hex (pieces.take start) ++ "::".toList ++ hex (pieces.drop (start + length))

example : (ipv4? "0x7f.1".toList).map ipv4Text = some "127.0.0.1".toList := by decide +kernel

example : (ipv6? "1:0:0::FF:1.2.3.4".toList).map ipv6Text = some "1::ff:102:304".toList := by
  decide +kernel

end ClassSkeleton.Url
