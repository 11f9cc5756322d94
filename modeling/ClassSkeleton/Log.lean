import ClassSkeleton.Text.Basic

/-!
Lines of the debug log. A line carries the time since the start, its level and the thread that
wrote it; the message stands at the end and may itself hold line feeds.
-/
namespace ClassSkeleton

structure LogEntry where
  level : Text
  message : Text
  deriving DecidableEq, Repr

namespace LogEntry

def debug (message : Text) : LogEntry := ⟨"DEBUG".toList, message⟩

def info (message : Text) : LogEntry := ⟨"INFO".toList, message⟩

def error (message : Text) : LogEntry := ⟨"ERROR".toList, message⟩

end LogEntry

/-- An entry with the thread that wrote it. -/
structure LogLine where
  thread : Text
  entry : LogEntry
  deriving DecidableEq, Repr

namespace LogLine

def padded (width n : Nat) : Text :=
  let digits := Text.decimal n
  List.replicate (width - digits.length) '0' ++ digits

def stamp (milliseconds : Nat) : Text :=
  padded 2 (milliseconds / 3600000) ++ ':' :: padded 2 (milliseconds % 3600000 / 60000) ++
    ':' :: padded 2 (milliseconds % 60000 / 1000) ++ '.' :: padded 3 (milliseconds % 1000)

def render (milliseconds : Nat) (line : LogLine) : Text :=
  '[' :: stamp milliseconds ++ "][".toList ++ line.entry.level ++ "][".toList ++ line.thread ++
    "] ".toList ++ line.entry.message ++ ['\n']

example : stamp 3723004 = "01:02:03.004".toList := by decide

end LogLine

def mainThread : Text := "main".toList

end ClassSkeleton
