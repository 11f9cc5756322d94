import ClassSkeleton.Log
import ClassSkeleton.Page.Reading
import ClassSkeleton.Progress
import ClassSkeleton.Storage

/-!
The parse stage works through a queue of entities. If the page of the one in front is in the
cache, its skeleton is built and the entity leaves the queue; otherwise it goes to the back. The
stage ends with an empty queue, at a cap on its turns, or once a whole rotation that began after
the end of the fetch stage has found no page: what is still queued then will never be there.
-/
namespace ClassSkeleton

/-- What became of a page that could be read. -/
inductive Outcome where
  | written
  | notImplemented (kind : Kind)
  deriving DecidableEq, Repr

/-- A skeleton built from one page: the outcome, what was logged, and the tree it left. -/
structure Built where
  outcome : Except Failure Outcome
  log : List LogEntry
  tree : Tree

/-- Read the cached page of an entity and write its skeleton. -/
def buildCached (cacheRoot outRoot : Path) (entity : Entity) (tree : Tree) : Built :=
  match tree.readText (entity.cachePath cacheRoot) with
  | .error e => ⟨.error (.io e), [], tree⟩
  | .ok page =>
    let reading := ClassPage.read page entity
    let notes := reading.notes.map fun note => LogEntry.debug (note.message entity.name)
    match reading.outcome with
    | .error e => ⟨.error e, notes, tree⟩
    | .ok (.notImplemented kind) => ⟨.ok (.notImplemented kind), notes, tree⟩
    | .ok (.outline outline) =>
      let skeleton := Skeleton.ofOutline outline
      let (write, tree) := (Storage.writeSkeleton entity outRoot skeleton).run tree
      let notes := notes ++ write.log entity
      match write.outcome with
      | .error e => ⟨.error (.io e), notes, tree⟩
      | .ok (header, _) =>
        let summary := "parse: ".toList ++ entity.name ++ ": ".toList ++
          Text.decimal outline.memberCount ++ " members → ".toList ++ header.text
        ⟨.ok .written, notes ++ [.debug summary], tree⟩

structure ParseReport where
  written : List Text
  notImplemented : List Text
  failed : List Text
  /-- Still queued when the stage ended. -/
  pending : List Text
  turns : Nat
  deriving DecidableEq, Repr

/-- When the stage may end before its queue is empty: a cap on the turns, and the flag by which
the fetch stage says that it is over. Without a flag it never is. -/
structure ParseLimits where
  maxTurns : Option Nat
  fetchDone : Option Bool
  deriving DecidableEq, Repr

def ParseLimits.fetchFinished (limits : ParseLimits) : Bool := limits.fetchDone.getD false

/-- The parse stage between two turns. -/
structure ParseState where
  queue : List Entity
  /-- Entities put back in a row. -/
  idle : Nat
  /-- The fetch stage was over when this rotation began. -/
  finishedAtStart : Bool
  report : ParseReport
  events : List Event
  log : List LogEntry

namespace ParseState

def start (refs : List Entity) (finished : Bool) : ParseState :=
  ⟨refs, 0, finished, ⟨[], [], [], [], 0⟩, [.begin refs.length], []⟩

def countTurn (state : ParseState) : ParseState :=
  { state with report := { state.report with turns := state.report.turns + 1 } }

/-- The entity in front has no page and goes behind the others. A rotation is whole when as many
have been put back in a row as are queued; the next one begins with another look at the flag. -/
def postpone (state : ParseState) (entity : Entity) (rest : List Entity) (finished : Bool) :
    ParseState :=
  if rest.length ≤ state.idle then
    { state with queue := rest ++ [entity], idle := 0, finishedAtStart := finished }
  else { state with queue := rest ++ [entity], idle := state.idle + 1 }

/-- The stage gives up when a whole rotation has found nothing after the end of the fetch. -/
def givesUp (state : ParseState) (rest : List Entity) : Bool :=
  rest.length ≤ state.idle && state.finishedAtStart

/-- The page of the entity in front has been read and the entity leaves the queue. -/
def retire (state : ParseState) (entity : Entity) (rest : List Entity) (finished : Bool)
    (outcome : Except Failure Outcome) : ParseState :=
  let state := { state with queue := rest, idle := 0, finishedAtStart := finished }
  match outcome with
  | .ok .written =>
    { state with
      report := { state.report with written := state.report.written ++ [entity.name] }
      events := state.events ++ [.done entity.name] }
  | .ok (.notImplemented kind) =>
    { state with
      report := { state.report with
        notImplemented := state.report.notImplemented ++ [entity.name] }
      events := state.events ++ [.failed entity.name "not implemented".toList]
      log := state.log ++ [.info ("parse: ".toList ++ entity.name ++ ": ".toList ++ kind.label ++
        " pages are not implemented yet".toList)] }
  | .error e =>
    { state with
      report := { state.report with failed := state.report.failed ++ [entity.name] }
      events := state.events ++ [.failed entity.name e.message]
      log := state.log ++ [.error ("parse: ".toList ++ e.message)] }

/-- What is left in the queue is reported as pending. -/
def close (state : ParseState) : ParseState :=
  let pending := state.queue.map (·.name)
  let report := { state.report with pending }
  let surrender : LogEntry := .info ("parse: giving up on ".toList ++ Text.decimal pending.length ++
    " never-cached page(s)".toList)
  let summary : LogEntry := .info ("parse: ".toList ++ Text.decimal report.written.length ++
    " written, ".toList ++ Text.decimal report.notImplemented.length ++
    " not implemented, ".toList ++ Text.decimal report.failed.length ++ " failed".toList)
  { state with
    report
    events := state.events ++ [.finish]
    log := state.log ++ (if pending.isEmpty then [] else [surrender]) ++ [summary] }

end ParseState

/-- The state after a turn, or the state in which the stage has ended. -/
inductive Turn where
  | ended (state : ParseState) (tree : Tree)
  | taken (state : ParseState) (tree : Tree)

/-- One turn against a tree, with the flag of the fetch stage at `limits.fetchFinished`. -/
def takeTurn (cacheRoot outRoot : Path) (limits : ParseLimits) (state : ParseState) (tree : Tree) :
    Turn :=
  match state.queue with
  | [] => .ended state tree
  | entity :: rest =>
    if limits.maxTurns.any fun cap => cap ≤ state.report.turns then .ended state tree
    else
      let state := state.countTurn
      if Storage.isCached tree cacheRoot entity then
        let built := buildCached cacheRoot outRoot entity tree
        .taken
          (({ state with log := state.log ++ built.log }).retire entity rest limits.fetchFinished
            built.outcome)
          built.tree
      else if state.givesUp rest then
        .ended { state with queue := rest ++ [entity], idle := state.idle + 1 } tree
      else .taken (state.postpone entity rest limits.fetchFinished) tree

/-- The end of the stage: its closed state, the tree, and whether it came to an end by itself. -/
structure ParseEnd where
  state : ParseState
  tree : Tree
  ended : Bool

def takeTurns (cacheRoot outRoot : Path) (limits : ParseLimits) :
    Nat → ParseState → Tree → ParseEnd
  | 0, state, tree => ⟨state, tree, false⟩
  | turns + 1, state, tree =>
    match takeTurn cacheRoot outRoot limits state tree with
    | .ended state tree => ⟨state, tree, true⟩
    | .taken state tree => takeTurns cacheRoot outRoot limits turns state tree

/-- Turns within which the stage ends if it ends at all while nothing else touches the tree: a
rotation that changes nothing is the last one or is repeated for ever, so each of the entities
takes at most one rotation to retire. -/
def ParseLimits.turnBound (limits : ParseLimits) (refs : Nat) : Nat :=
  match limits.maxTurns with
  | some cap => cap + 1
  | none => (refs + 1) * (refs + 1)

/-- The whole stage, undisturbed. -/
def parseAll (cacheRoot outRoot : Path) (limits : ParseLimits) (refs : List Entity) (tree : Tree) :
    ParseEnd :=
  let stage := takeTurns cacheRoot outRoot limits (limits.turnBound refs.length)
    (ParseState.start refs limits.fetchFinished) tree
  { stage with state := stage.state.close }

end ClassSkeleton
