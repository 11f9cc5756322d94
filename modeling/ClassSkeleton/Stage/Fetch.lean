import ClassSkeleton.Log
import ClassSkeleton.Progress
import ClassSkeleton.Site
import ClassSkeleton.Storage

/-!
The fetch stage brings every page into the cache, in the order of the catalog. A page that is
there is left alone; a page that cannot be had leaves nothing behind.
-/
namespace ClassSkeleton

structure FetchReport where
  fetched : Nat
  alreadyCached : Nat
  failed : List Text
  deriving DecidableEq, Repr

structure FetchState where
  report : FetchReport
  events : List Event
  log : List LogEntry
  tree : Tree

namespace FetchState

def start (count : Nat) (tree : Tree) : FetchState := ⟨⟨0, 0, []⟩, [.begin count], [], tree⟩

def found (state : FetchState) (entity : Entity) : FetchState :=
  { state with
    report := { state.report with alreadyCached := state.report.alreadyCached + 1 }
    events := state.events ++ [.done entity.name] }

def stored (state : FetchState) (entity : Entity) (path : Path) (tree : Tree) : FetchState :=
  { report := { state.report with fetched := state.report.fetched + 1 }
    events := state.events ++ [.done entity.name]
    log := state.log ++ [.debug ("fetch: ".toList ++ entity.name ++ " → ".toList ++ path.text)]
    tree }

def failed (state : FetchState) (entity : Entity) (cause : Failure) (tree : Tree) : FetchState :=
  { report := { state.report with failed := state.report.failed ++ [entity.name] }
    events := state.events ++ [.failed entity.name cause.message]
    log := state.log ++ [.error ("fetch: ".toList ++ entity.name ++ ": ".toList ++ cause.message)]
    tree }

def download (site : Site) (root : Path) (state : FetchState) (entity : Entity) : FetchState :=
  match site.fetch entity.url with
  | .error e => state.failed entity e state.tree
  | .ok body =>
    match (Storage.writePage entity root body).run state.tree with
    | (.ok path, tree) => state.stored entity path tree
    | (.error e, tree) => state.failed entity (.io e) tree

def visit (site : Site) (root : Path) (state : FetchState) (entity : Entity) : FetchState :=
  if Storage.isCached state.tree root entity then state.found entity
  else state.download site root entity

def close (state : FetchState) : FetchState :=
  let summary := "fetch: ".toList ++ Text.decimal state.report.fetched ++ " downloaded, ".toList ++
    Text.decimal state.report.alreadyCached ++ " already cached, ".toList ++
    Text.decimal state.report.failed.length ++ " failed".toList
  { state with
    events := state.events ++ [.finish]
    log := state.log ++ [.info summary] }

end FetchState

/-- The whole stage, undisturbed. -/
def fetchAll (site : Site) (root : Path) (refs : List Entity) (tree : Tree) : FetchState :=
  (refs.foldl (FetchState.visit site root) (FetchState.start refs.length tree)).close

end ClassSkeleton
