import ClassSkeleton.Log
import ClassSkeleton.Options
import ClassSkeleton.Site
import ClassSkeleton.Storage

/-!
The catalog is the list of classes to work on. It comes from the index page of the documentation,
one entry a line, or from the pages that are in the cache already. A line or a file that gives no
qualified name is passed over with a note; a catalog without any entry is a failure.
-/
namespace ClassSkeleton

inductive CatalogCause where
  | unfetched (cause : Failure)
  | noEntries (url : Text)
  | unreadable (root : Path) (cause : IoCause)
  | noPages (root : Path)
  deriving DecidableEq, Repr

namespace CatalogCause

def message : CatalogCause → Text
  | .unfetched cause => cause.message
  | .noEntries url => "no entries in ".toList ++ url
  | .unreadable root cause => root.text ++ ": ".toList ++ cause.message
  | .noPages root => "no cached pages under ".toList ++ root.text

def failure (cause : CatalogCause) : Failure := .catalog cause.message

end CatalogCause

/-- A catalog with what was noted on the way. -/
structure Listing where
  log : List LogEntry
  outcome : Except CatalogCause (List Entity)

namespace Catalog

def pageEnding : Text := ".html".toList

/-- The dotted name of a page: its path without the ending, dots for slashes. -/
def dottedName (target : Text) : Text :=
  ((Text.dropEndMark? pageEnding target).getD target).map fun c => if c = '/' then '.' else c

/-- The link target of a line of the index. -/
def indexTarget? (line : Text) : Option Text :=
  (Text.dropMark? "<li><a href=\"".toList (Text.trimStart line)).bind fun rest =>
    (Text.breakAt? ['"'] rest).map (·.1)

def indexTargets (html : Text) : List Text := (Text.lines html).filterMap indexTarget?

def indexEntity (baseUrl target : Text) : Except Failure Entity :=
  Entity.ofName? (dottedName target) (baseUrl ++ target)

/-- The entities of the index, in page order. -/
def parseIndex (html baseUrl : Text) : List Entity :=
  (indexTargets html).filterMap fun target => (indexEntity baseUrl target).toOption

def skipNote (source target : Text) : Except Failure Entity → Option LogEntry
  | .ok _ => none
  | .error e =>
    some (.debug (source ++ ": skipping ".toList ++ Text.quoted target ++ ": ".toList ++ e.message))

def indexNotes (html baseUrl : Text) : List LogEntry :=
  (indexTargets html).filterMap fun target =>
    skipNote "index".toList target (indexEntity baseUrl target)

/-- The catalog of a site, as far as the options accept it. -/
def load (site : Site) (options : Options) : Listing :=
  match site.fetch options.indexUrl with
  | .error e => ⟨[], .error (.unfetched e)⟩
  | .ok html =>
    let notes := indexNotes html options.baseUrl
    let all := parseIndex html options.baseUrl
    if all.isEmpty then ⟨notes, .error (.noEntries options.indexUrl)⟩
    else
      let kept := all.filter fun entity => options.accepts entity.name
      let summary := "index: ".toList ++ Text.decimal kept.length ++ " of ".toList ++
        Text.decimal all.length ++ " entries selected".toList
      ⟨notes ++ [.info summary], .ok kept⟩

/-- The index target of a cached page. Nested types have a directory for each enclosing type in
the cache and a dotted page name in the documentation; the first segment with a capital in front
begins the type. -/
def pageTarget (cached : Text) : Text :=
  let segments := Text.splitOn ['/'] cached
  let isType : Text → Bool
    | c :: _ => c.isUpper
    | [] => false
  let package := segments.takeWhile fun segment => !isType segment
  match segments.dropWhile fun segment => !isType segment with
  | [] => cached
  | type => Text.join ['/'] (package ++ [Text.join ['.'] type])

def isPage (place : Place) : Bool :=
  match place.getLast? with
  | none => false
  | some name => (Path.splitExtension name).2 == some "html".toList

def cachedEntity (baseUrl target : Text) : Except Failure Entity :=
  Entity.ofName? (dottedName target) (baseUrl ++ pageTarget target)

/-- The catalog of the pages below the cache root, sorted by their paths. Every name below it is
Unicode text, so the listing is without replacement characters. -/
def ofCache (tree : Tree) (root : Path) (options : Options) : Listing :=
  match tree.filesBelow root with
  | .error cause => ⟨[], .error (.unreadable root cause)⟩
  | .ok places =>
    let targets := Text.sort ((places.filter isPage).map (Text.join ['/']))
    let notes := targets.filterMap fun target =>
      skipNote "cache".toList target (cachedEntity options.baseUrl target)
    let entities :=
      (targets.filterMap fun target => (cachedEntity options.baseUrl target).toOption).filter
        fun entity => options.accepts entity.name
    if entities.isEmpty then ⟨notes, .error (.noPages root)⟩
    else
      let summary := "cache: ".toList ++ Text.decimal entities.length ++
        " cached entities selected".toList
      ⟨notes ++ [.info summary], .ok entities⟩

end Catalog

end ClassSkeleton
