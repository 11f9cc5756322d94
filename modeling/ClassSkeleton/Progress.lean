import ClassSkeleton.Text.Basic

/-!
What a stage reports while it works: how many items there are, what became of each, and the end.
Every display of progress is a fold over these events; `Tally` is the plainest.
-/
namespace ClassSkeleton

inductive Event where
  | begin (total : Nat)
  | log (message : Text)
  | done (name : Text)
  | failed (name reason : Text)
  | finish
  deriving DecidableEq, Repr

structure Tally where
  total : Nat
  done : List Text
  failed : List Text
  finished : Bool
  deriving DecidableEq, Repr

namespace Tally

def empty : Tally := ⟨0, [], [], false⟩

def add (tally : Tally) : Event → Tally
  | .begin total => { tally with total }
  | .log _ => tally
  | .done name => { tally with done := tally.done ++ [name] }
  | .failed name _ => { tally with failed := tally.failed ++ [name] }
  | .finish => { tally with finished := true }

def ofEvents (events : List Event) : Tally := events.foldl add empty

end Tally

end ClassSkeleton
