import ClassSkeleton.Url.Address
import ClassSkeleton.Url.Domain
import ClassSkeleton.Url.Percent

/-!
The host of an address: a name, or a network address in place of one. Schemes whose hosts are
domains take encoded bytes in a name for what they mean and bring the name into ASCII; all others
keep a name as it is written, short of a few marks.
-/
namespace ClassSkeleton.Url

inductive Host where
  | name (text : Text)
  | ipv4 (address : Nat)
  | ipv6 (pieces : List Nat)
  deriving DecidableEq, Repr

namespace Host

def text : Host → Text
  | .name text => text
  | .ipv4 address => ipv4Text address
  | .ipv6 pieces => '[' :: ipv6Text pieces ++ [']']

/-- An address of version 6 stands in brackets. -/
def bracketed? (text : Text) : Option Host :=
  (Text.dropEndMark? [']'] text).bind fun inner => (ipv6? inner).map .ipv6

/-- The host that a name in ASCII stands for. -/
def ofDomain? (domain : Text) : Option Host :=
  if domain.isEmpty then none
  else if endsInNumber domain then (ipv4? domain).map .ipv4
  else some (.name domain)

def domain? : Text → Option Host
  | '[' :: text => bracketed? text
  | text => ((decodeText? text).bind asciiDomain?).bind ofDomain?

/-- Characters that a name kept as it is written may not hold. -/
def plainMarks : List Char := [Char.ofNat 0, '\t', '\n', '\r'] ++ " #/:<>?@[\\]^|".toList

def plain? : Text → Option Host
  | '[' :: text => bracketed? text
  | text => if text.any (· ∈ plainMarks) then none else some (.name (encode [] text))

end Host

end ClassSkeleton.Url
