import ClassSkeleton.Progress

/-!
Progress on the console: the size of a stage, its messages and failures as they happen, a count
after every 250 successes, and the totals at the end.
-/
namespace ClassSkeleton.Console

structure Counts where
  total : Nat
  done : Nat
  failed : Nat
  deriving DecidableEq, Repr

def Counts.zero : Counts := ⟨0, 0, 0⟩

/-- Successes between two counts. -/
def countInterval : Nat := 250

def line (stage message : Text) : Text := '[' :: stage ++ "] ".toList ++ message ++ ['\n']

/-- The counts after an event, and what is printed for it. -/
def render (stage : Text) (counts : Counts) : Event → Counts × Text
  | .begin total =>
    ({ counts with total }, line stage (Text.decimal total ++ " item(s)".toList))
  | .log message => (counts, line stage message)
  | .done _ =>
    let counts := { counts with done := counts.done + 1 }
    (counts,
      if counts.done % countInterval = 0 then
        line stage (Text.decimal (counts.done + counts.failed) ++ '/' :: Text.decimal counts.total)
      else [])
  | .failed name reason =>
    ({ counts with failed := counts.failed + 1 }, line stage (name ++ ": ".toList ++ reason))
  | .finish =>
    (counts, line stage ("done: ".toList ++ Text.decimal counts.done ++ " ok, ".toList ++
      Text.decimal counts.failed ++ " not ok".toList))

def printFrom (stage : Text) (counts : Counts) : List Event → Text
  | [] => []
  | event :: events =>
    let (counts, text) := render stage counts event
    text ++ printFrom stage counts events

/-- All that a stage prints. -/
def print (stage : Text) (events : List Event) : Text := printFrom stage Counts.zero events

end ClassSkeleton.Console
