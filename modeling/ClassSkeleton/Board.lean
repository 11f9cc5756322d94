import ClassSkeleton.Progress

/-!
The status board of the window: one line for each stage and a log of limited length. The stages
write their own lines and share the log.
-/
namespace ClassSkeleton

structure Board where
  fetch : Text
  parse : Text
  log : List Text
  running : Bool
  logLimit : Nat
  deriving DecidableEq, Repr

namespace Board

def idle (logLimit : Nat) : Board := ⟨"Idle".toList, "Idle".toList, [], false, logLimit⟩

/-- A line joins the log, and the oldest go as far as the log is too long. -/
def pushLog (board : Board) (line : Text) : Board :=
  let log := board.log ++ [line]
  { board with log := log.drop (log.length - board.logLimit) }

end Board

inductive StageName where
  | fetch
  | parse
  deriving DecidableEq, Repr

namespace StageName

def label : StageName → Text
  | .fetch => "Fetch".toList
  | .parse => "Parse".toList

end StageName

def Board.setStatus (board : Board) (stage : StageName) (status : Text) : Board :=
  match stage with
  | .fetch => { board with fetch := status }
  | .parse => { board with parse := status }

/-- The counts of one stage, from which it writes on the board. -/
structure StageDisplay where
  stage : StageName
  done : Nat
  failed : Nat
  total : Nat
  deriving DecidableEq, Repr

namespace StageDisplay

def start (stage : StageName) : StageDisplay := ⟨stage, 0, 0, 0⟩

def line (display : StageDisplay) (text : Text) : Text :=
  display.stage.label ++ ": ".toList ++ text

def counts (display : StageDisplay) : Text :=
  Text.decimal (display.done + display.failed) ++ '/' :: Text.decimal display.total

def logLine (display : StageDisplay) (message : Text) : Text :=
  '[' :: display.stage.label ++ "] ".toList ++ message

def closing (display : StageDisplay) : Text :=
  if display.total = 0 then "complete".toList
  else "complete (".toList ++ Text.decimal display.done ++ " ok, ".toList ++
    Text.decimal display.failed ++ " not ok)".toList

def receive (display : StageDisplay) (board : Board) : Event → StageDisplay × Board
  | .begin total =>
    let display := { display with total }
    (display, board.setStatus display.stage (display.line ("0/".toList ++ Text.decimal total)))
  | .log message => (display, board.pushLog (display.logLine message))
  | .done name =>
    let display := { display with done := display.done + 1 }
    let status := display.counts ++ " (".toList ++ name ++ [')']
    (display, board.setStatus display.stage (display.line status))
  | .failed name reason =>
    let display := { display with failed := display.failed + 1 }
    let board := board.pushLog (display.logLine (name ++ ": ".toList ++ reason))
    (display, board.setStatus display.stage (display.line display.counts))
  | .finish => (display, board.setStatus display.stage (display.line display.closing))

/-- The board after all events of a stage. -/
def receiveAll (display : StageDisplay) (board : Board) (events : List Event) : Board :=
  (events.foldl (fun state event => receive state.1 state.2 event) (display, board)).2

end StageDisplay

end ClassSkeleton
