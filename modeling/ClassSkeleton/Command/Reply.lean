import ClassSkeleton.Command.Arguments
import ClassSkeleton.Command.Console
import ClassSkeleton.LogFile
import ClassSkeleton.Run

/-!
What the command replies: help, the names of the selected classes, or a whole run with its
progress on standard error and one line of totals on standard output.
-/
namespace ClassSkeleton

/-- The reply of a command with everything it printed, logged and wrote. -/
structure Reply where
  outcome : Except Failure (Option Summary)
  stdout : Text
  stderr : Text
  log : List LogLine
  tree : Tree

namespace Command

def helpLines : List Text :=
  [ "docskel - C-style skeletons from javadoc 8 class pages",
    "",
    "Usage:",
    "  cli [options]",
    "",
    "Options:",
    "  -o, --out <dir>        Where .h/.c files go (default: out). Also the page",
    "                         cache unless --cache is given.",
    "  --cache <dir>          Where downloaded pages are kept.",
    "  --base-url <url>       Documentation root",
    "                         (default: https://docs.oracle.com/javase/8/docs/api/)",
    "  --only <prefix>        Only names starting with <prefix>. Repeatable, or",
    "                         comma-separated: --only java.lang.,java.util.",
    "  --parse-only           No downloads; translate what is already cached.",
    "  --list                 Print the selected class names and exit.",
    "  -h, --help             This text.",
    "",
    "Pages already in the cache are never downloaded again.",
    "Interfaces and enums are recognized but not generated yet.",
    "Debug log: .docskel/debug.log" ].map (·.toList)

/-- The totals of a run, in words. -/
def totals (report : ParseReport) : Text :=
  Text.decimal report.written.length ++ " written, ".toList ++
    Text.decimal report.notImplemented.length ++ " not implemented, ".toList ++
    Text.decimal report.failed.length ++ " failed, ".toList ++
    Text.decimal report.pending.length ++ " never fetched".toList

def perform (site : Site) (tree : Tree) : Mode → Reply
  | .help => ⟨.ok none, [], Text.unlines (helpLines ++ [[]]), [], tree⟩
  | .list options =>
    let listing := Run.catalog site options tree
    let log := listing.log.map (LogLine.mk mainThread)
    match listing.outcome with
    | .error cause => ⟨.error cause.failure, [], [], log, tree⟩
    | .ok refs => ⟨.ok none, Text.unlines (refs.map (·.name)), [], log, tree⟩
  | .generate options =>
    let run := Run.perform site options mainThread tree
    match run.outcome with
    | .error cause => ⟨.error cause.failure, [], [], run.log, run.tree⟩
    | .ok summary =>
      let progress := Console.print "fetch".toList run.fetchEvents ++
        Console.print "parse".toList run.parseEvents
      let line := totals summary.parse ++ " → ".toList ++ options.outRoot.text
      ⟨.ok (some summary), Text.unlines [line], progress, run.log, run.tree⟩

/-- The lines after the first, each put below the text of the first. An empty line stays empty
unless it is the last. -/
def indented : List Text → Text
  | [] => []
  | [line] => '\n' :: List.replicate 6 ' ' ++ line
  | line :: lines =>
    '\n' :: (if line.isEmpty then [] else List.replicate 6 ' ' ++ line) ++ indented lines

/-- A failure as the first and only item of a report. -/
def report (failure : Failure) : Text :=
  let lines := Text.splitOn ['\n'] failure.message
  "Error: \n   0: ".toList ++ lines.headD [] ++ indented lines.tail

/-- The command as a process: its arguments are read first, and a failure of either step ends it
with status 1 and a report after all that was printed before. What it logs goes to the log file. -/
def process (site : Site) (tree : Tree) (milliseconds : Nat) (arguments : List Text) :
    Nat × Reply :=
  match Arguments.read arguments with
  | .error cause => (1, ⟨.error cause.failure, [], report cause.failure, [], tree⟩)
  | .ok mode =>
    let reply := perform site tree mode
    let reply := { reply with tree := LogFile.append reply.tree milliseconds reply.log }
    match reply.outcome with
    | .error failure => (1, { reply with stderr := reply.stderr ++ report failure })
    | .ok _ => (0, reply)

example : report (.usage "a\n\nb".toList) = "Error: \n   0: a\n\n      b".toList := by
  decide +kernel

end Command

end ClassSkeleton
