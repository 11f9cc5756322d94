import ClassSkeleton.Catalog
import ClassSkeleton.Stage.Fetch
import ClassSkeleton.Stage.Parse

/-!
A whole run: the catalog, then both stages on it. Only a missing catalog fails a run. The stages
share nothing but the page cache and the flag that ends the fetch, and the order of their steps
does not matter; here the parse stage follows the fetch stage.
-/
namespace ClassSkeleton

structure Summary where
  fetch : FetchReport
  parse : ParseReport
  deriving DecidableEq, Repr

/-- A run with everything that can be seen of it. -/
structure Run where
  outcome : Except CatalogCause Summary
  log : List LogLine
  fetchEvents : List Event
  parseEvents : List Event
  tree : Tree

namespace Run

/-- What the fetch stage has to show for a run that downloads nothing. -/
def cachedOnlyEvents : List Event := [.log "Using cached pages only".toList, .finish]

def catalog (site : Site) (options : Options) (tree : Tree) : Listing :=
  if options.parseOnly then Catalog.ofCache tree options.cacheRoot options
  else Catalog.load site options

/-- Both stages on the entities of a catalog; `thread` writes the log of the run itself. -/
def stages (site : Site) (options : Options) (refs : List Entity) (tree : Tree) :
    Summary × List LogLine × List Event × List Event × Tree :=
  let limits : ParseLimits := ⟨none, some true⟩
  let parse := parseAll options.cacheRoot options.outRoot limits refs
  let parseLog (stage : ParseEnd) := stage.state.log.map (LogLine.mk "parse".toList)
  if options.parseOnly then
    let stage := parse tree
    (⟨⟨0, 0, []⟩, stage.state.report⟩, parseLog stage, cachedOnlyEvents, stage.state.events,
      stage.tree)
  else
    let fetch := fetchAll site options.cacheRoot refs tree
    let stage := parse fetch.tree
    (⟨fetch.report, stage.state.report⟩,
      fetch.log.map (LogLine.mk "fetch".toList) ++ parseLog stage, fetch.events,
      stage.state.events, stage.tree)

/-- The run as written down by the thread that starts it. -/
def perform (site : Site) (options : Options) (thread : Text) (tree : Tree) : Run :=
  let listing := catalog site options tree
  let noted := listing.log.map (LogLine.mk thread)
  match listing.outcome with
  | .error cause => ⟨.error cause, noted, [], [], tree⟩
  | .ok refs =>
    let opening := "run: ".toList ++ Text.decimal refs.length ++ " entities, cache at ".toList ++
      options.cacheRoot.text
    let (summary, log, fetchEvents, parseEvents, tree) := stages site options refs tree
    ⟨.ok summary, noted ++ ⟨thread, .info opening⟩ :: log, fetchEvents, parseEvents, tree⟩

end Run

end ClassSkeleton
