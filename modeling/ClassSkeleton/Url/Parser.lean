import ClassSkeleton.Url.Basic

/-!
Addresses read from text. Controls and spaces around the text do not count, nor do tabs and line
breaks inside it, short of one that ends a drive. A scheme is one of three kinds: for a network
scheme everything after the colon is an authority and a path; a file scheme has a path and may have
a host; any other scheme has an authority only behind two slashes, and segments only behind a slash.
The first two kinds take a backslash for a slash. Dot segments are resolved as they are read.
-/
namespace ClassSkeleton.Url

inductive SchemeKind where
  /-- A scheme of the network, with the number of its service. -/
  | network (service : Nat)
  | file
  | other
  deriving DecidableEq, Repr

namespace SchemeKind

def networkServices : List (Text × Nat) :=
  [ ("http".toList, 80), ("https".toList, 443), ("ws".toList, 80), ("wss".toList, 443),
    ("ftp".toList, 21) ]

def ofScheme (scheme : Text) : SchemeKind :=
  if scheme = "file".toList then .file
  else
    match networkServices.find? fun entry => entry.1 == scheme with
    | some entry => .network entry.2
    | none => .other

def isSlash (kind : SchemeKind) (c : Char) : Bool := c == '/' || (c == '\\' && kind != .other)

/-- Does a path, a query or a fragment begin here? -/
def isBoundary (kind : SchemeKind) (c : Char) : Bool := kind.isSlash c || c == '?' || c == '#'

end SchemeKind

/-- The text without controls and spaces around it. -/
def trimmed (text : Text) : Text :=
  let isEdge (c : Char) : Bool := c.toNat ≤ 0x20
  (((text.dropWhile isEdge).reverse).dropWhile isEdge).reverse

def isBreak (c : Char) : Bool := c == '\t' || c == '\n' || c == '\r'

def dropBreaks (text : Text) : Text := text.filter fun c => !isBreak c

/-- The scheme in lower case, and what follows its colon. -/
def scheme? (text : Text) : Option (Text × Text) :=
  match Text.breakAt? [':'] text with
  | none => none
  | some (before, after) =>
    match dropBreaks before with
    | [] => none
    | first :: rest =>
      if first.isAlpha && rest.all (fun c => c.isAlphanum || c == '+' || c == '-' || c == '.') then
        some ((first :: rest).map (·.toLower), after)
      else none

/-- A letter with a colon or a bar: the name of a drive. -/
def isDrive : Text → Bool
  | [letter, mark] => letter.isAlpha && (mark == ':' || mark == '|')
  | _ => false

def isDot (segment : Text) : Bool :=
  segment.map (·.toLower) ∈ [".", "%2e"].map (·.toList)

def isTwoDots (segment : Text) : Bool :=
  segment.map (·.toLower) ∈ ["..", ".%2e", "%2e.", "%2e%2e"].map (·.toList)

/-- Does the segment begin as a drive that a slash of either kind, or nothing, closes? -/
def beginsWithDrive (segment : Text) : Bool :=
  isDrive (segment.take 2) && (segment.drop 2).head?.all (· == '\\')

/-- A drive at the front of a segment, closed by a break alone, and what follows the break. -/
def brokenDrive? (segment : Text) : Option (Text × Text) :=
  let (drive, rest) := (dropBreaks segment).splitAt 2
  match Text.breakAt? [':'] segment, rest with
  | some (_, c :: _), _ :: _ =>
    if isBreak c && isDrive drive && drive.getLast? = some ':' then some (drive, rest) else none
  | _, _ => none

/-- Where the reading of a path stands: at the segments entered so far, given backward, and below a
drive that takes the place of a host or not. -/
structure Position where
  above : List Text
  hasDrive : Bool

namespace Position

def top : Position := ⟨[], false⟩

/-- Leave the last segment, unless it names a drive. -/
def leave (position : Position) : Position :=
  match position.above with
  | [] => position
  | segment :: above =>
    if beginsWithDrive segment then position else { position with above }

def push (position : Position) (segment : Text) : Position :=
  { position with above := segment :: position.above }

/-- Enter a segment. A drive at the top of a file path is written with a colon. -/
def enter (kind : SchemeKind) (segment : Text) (position : Position) : Position :=
  if kind = .file ∧ position.above.isEmpty ∧ isDrive segment then
    ⟨[segment.take 1 ++ [':']], true⟩
  else position.push segment

/-- Take a segment as it is meant. A path that ends in a dot segment ends in a slash. -/
def take (kind : SchemeKind) (isLast : Bool) (segment : Text) (position : Position) : Position :=
  let close (position : Position) := if isLast then position.push [] else position
  if isTwoDots segment then close position.leave
  else if isDot segment then close position
  else position.enter kind segment

/-- Follow a path. A drive at the top of a file path that a break closes is a segment of its own,
and the segment after it has no meaning beyond its text. -/
def follow (kind : SchemeKind) (position : Position) : List Text → Position
  | [] => position
  | segment :: rest =>
    let broken? := if kind = .file ∧ position.above.isEmpty then brokenDrive? segment else none
    match broken? with
    | some (drive, text) => ((position.push drive).push (encode pathMarks text)).follow kind rest
    | none =>
      (position.take kind rest.isEmpty (encode pathMarks (dropBreaks segment))).follow kind rest

end Position

/-- Where a path without its first slash leads to. -/
def positionOf (kind : SchemeKind) (path : Text) : Position :=
  let slashed := path.map fun c => if kind.isSlash c then '/' else c
  Position.top.follow kind (Text.splitOn ['/'] slashed)

def segmentsOf (kind : SchemeKind) (path : Text) : List Text := (positionOf kind path).above.reverse

/-- The text behind a slash that begins it. -/
def afterSlash? (kind : SchemeKind) (text : Text) : Option Text :=
  match text.dropWhile isBreak with
  | c :: rest => if kind.isSlash c then some rest else none
  | [] => none

/-- What stands behind an authority. Only outside network and file schemes the path can be empty. -/
def locationOf (kind : SchemeKind) (path : Text) : Location :=
  if kind = .other ∧ path.isEmpty then .steps []
  else .steps (segmentsOf kind ((afterSlash? kind path).getD path))

/-- A text cut before the first character that ends it. -/
def cut (ends : Char → Bool) (text : Text) : Text × Text := text.span fun c => !ends c

/-- User name and password in front of a host, and the host with all that follows it. The sign of a
user with nothing before it needs a host behind it. -/
def credentials? (kind : SchemeKind) (text : Text) : Option (Text × Text × Text) :=
  let (authority, rest) := cut kind.isBoundary text
  match authority.reverse.span fun c => c != '@' with
  | (_, []) => some ([], [], text)
  | (host, _ :: user) =>
    if user.isEmpty then
      if host.isEmpty then none else some ([], [], host.reverse ++ rest)
    else
      let (username, password) := cut (· == ':') user.reverse
      some (encode userMarks username, encode userMarks (password.drop 1), host.reverse ++ rest)

/-- The text of a host up to its service number or its path. A colon in brackets belongs to the
host. -/
def hostText (kind : SchemeKind) (inBrackets : Bool) : Text → Text × Text
  | [] => ([], [])
  | c :: rest =>
    if kind.isBoundary c || (c == ':' && !inBrackets) then ([], c :: rest)
    else
      let (host, after) := hostText kind (c == '[' || (inBrackets && c != ']')) rest
      (c :: host, after)

def serviceLimit : Nat := 65536

/-- The service number in front of a path; that of the scheme need not be given and is not kept. -/
def service? (kind : SchemeKind) (text : Text) : Option (Option Nat × Text) :=
  let (digits, rest) := text.span (·.isDigit)
  let isClosed := rest.head?.all fun c => kind.isBoundary c || c == '\\'
  match Text.valueIn? 10 digits with
  | none => none
  | some number =>
    if !isClosed || serviceLimit ≤ number then none
    else if digits.isEmpty || kind = .network number then some (none, rest)
    else some (some number, rest)

/-- Host and service number, and what follows them. The host may be missing only outside network
schemes, and only without a service number. -/
def endpoint? (kind : SchemeKind) (text : Text) : Option (Option Host × Option Nat × Text) :=
  let (host, rest) := hostText kind false text
  let host? : Option (Option Host) :=
    if !host.isEmpty then (if kind = .other then Host.plain? host else Host.domain? host).map some
    else if kind = .other ∧ rest.head? ≠ some ':' then some none
    else none
  match host?, rest with
  | none, _ => none
  | some host, ':' :: rest => (service? kind rest).map fun found => (host, found.1, found.2)
  | some host, rest => some (host, none, rest)

/-- An authority and the path behind it. -/
def authority? (kind : SchemeKind) (text : Text) : Option (Authority × Location) :=
  match credentials? kind text with
  | none => none
  | some (username, password, text) =>
    match endpoint? kind text with
    | none => none
    | some (host, service, path) =>
      if host.isNone && !(username.isEmpty && password.isEmpty) then none
      else some (⟨username, password, host, service⟩, locationOf kind path)

/-- The path of a file below its host, without its first slash. A drive takes the place of the host,
and slashes without anything between them do not begin the path. -/
def fileAt (host : Option Host) (path : Text) : Authority × Location :=
  let position := positionOf .file path
  let segments := position.above.reverse
  let host := if position.hasDrive then none else host
  let segments := if segments.all (·.isEmpty) then [[]] else segments.dropWhile (·.isEmpty)
  (⟨[], [], host, none⟩, .steps segments)

/-- The path of a file on this machine or on the host named in front of it. A drive is no host. This
machine is known by either of two names, and after it the path keeps its first slash. -/
def hostedFile? (text : Text) : Option (Authority × Location) :=
  let (host, path) := cut SchemeKind.file.isBoundary text
  let host := dropBreaks host
  if isDrive host then some (fileAt none text)
  else if host.isEmpty then some (fileAt none path)
  else
    (Host.domain? host).map fun found =>
      if found = .name "localhost".toList then fileAt none path
      else fileAt (some found) ((afterSlash? .file path).getD path)

/-- Host and path of a file. The host needs two slashes. -/
def file? (text : Text) : Option (Authority × Location) :=
  match afterSlash? .file text with
  | none => some (fileAt none text)
  | some rest =>
    match afterSlash? .file rest with
    | none => some (fileAt none rest)
    | some text => hostedFile? text

/-- All of an address between the colon of its scheme and its query. -/
def hierarchy? (kind : SchemeKind) (text : Text) : Option (Option Authority × Location) :=
  match kind with
  | .network _ =>
    (authority? kind ((dropBreaks text).dropWhile kind.isSlash)).map fun found =>
      (some found.1, found.2)
  | .file => (file? text).map fun found => (some found.1, found.2)
  | .other =>
    match dropBreaks text with
    | '/' :: '/' :: text => (authority? kind text).map fun found => (some found.1, found.2)
    | '/' :: path => some (none, .steps (segmentsOf kind path))
    | path => some (none, .flat (encode [] path))

/-- An address by itself, if the text is one. -/
def parse? (text : Text) : Option Url :=
  match scheme? (trimmed text) with
  | none => none
  | some (scheme, text) =>
    let kind := SchemeKind.ofScheme scheme
    let (text, fragment) := cut (· == '#') text
    let (text, query) := cut (· == '?') text
    let queryMarks := if kind = .other then queryMarks else '\'' :: queryMarks
    let part? (marks : List Char) (part : Text) : Option Text :=
      if part.isEmpty then none else some (encode marks (dropBreaks (part.drop 1)))
    (hierarchy? kind text).map fun (authority, location) =>
      ⟨scheme, authority, location, part? queryMarks query, part? fragmentMarks fragment⟩

example : (parse? " FTP:\\user@H:021/a/../b c".toList).map (·.anonymous.text) =
    some "ftp://h/b%20c".toList := by
  decide +kernel

end ClassSkeleton.Url
