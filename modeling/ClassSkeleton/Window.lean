import ClassSkeleton.Board
import ClassSkeleton.Command.Reply

/-!
The window: two text fields, a checkbox and a button over the status board. While a run goes on
its controls are disabled, and an action on a disabled one does nothing.
-/
namespace ClassSkeleton

structure Window where
  destination : Text
  only : Text
  options : Options
  board : Board
  deriving DecidableEq, Repr

inductive Widget where
  | label (text : Text)
  | input (text : Text) (enabled : Bool)
  | button (text : Text) (enabled : Bool)
  | spinner
  | checkbox (text : Text) (enabled checked : Bool)
  deriving DecidableEq, Repr

inductive Field where
  | destination
  | only
  deriving DecidableEq, Repr

inductive Action where
  | generate
  | togglePages
  | type (field : Field) (text : Text)
  deriving DecidableEq, Repr

namespace Window

/-- Lines that the log of a window can hold. -/
def logLimit : Nat := 5000

/-- A new window with the default settings. -/
def new : Window := ⟨Options.defaultRoot.text, [], Options.default, Board.idle logLimit⟩

/-- What the opening of a window writes to the log. -/
def openingLog (window : Window) : LogLine :=
  ⟨mainThread, .info ("Init: destination=".toList ++ Text.quoted window.destination)⟩

/-- The options as the text fields have them; the checkbox works on the options themselves. -/
def sync (window : Window) : Window :=
  { window with
    options :=
      { Options.inDirectory (Path.ofTyped window.destination) with
        parseOnly := window.options.parseOnly
        only := Text.commaPieces window.only } }

/-- Without a destination nothing is generated. -/
def hasDestination (window : Window) : Bool := !(Text.trim window.destination).isEmpty

/-- A whole run from the window, with its log and the tree it leaves. -/
def generate (site : Site) (tree : Tree) (window : Window) : Window × List LogLine × Tree :=
  if !window.hasDestination then
    ({ window with board := window.board.pushLog "Pick a destination folder first".toList }, [],
      tree)
  else
    let window := window.sync
    let options := window.options
    let board := { window.board with log := [], running := true }.pushLog
      ("Generating into ".toList ++ options.outRoot.text)
    let opening : LogLine := ⟨mainThread, .info ("Generate: begin out=".toList ++
      options.outRoot.text ++ " only=".toList ++ Text.quotedList options.only)⟩
    let runner := "run".toList
    let run := Run.perform site options runner tree
    match run.outcome with
    | .error cause =>
      let message := cause.failure.message
      let board := board.pushLog ("Error: ".toList ++ message)
      ({ window with board := { board with running := false } },
        opening :: run.log ++ [⟨runner, .error ("Generate: ".toList ++ message)⟩], run.tree)
    | .ok summary =>
      let board := (StageDisplay.start .fetch).receiveAll board run.fetchEvents
      let board := (StageDisplay.start .parse).receiveAll board run.parseEvents
      let board := board.pushLog ("Done: ".toList ++ Command.totals summary.parse)
      ({ window with board := { board with running := false } }, opening :: run.log, run.tree)

def act (site : Site) (tree : Tree) (window : Window) (action : Action) :
    Window × List LogLine × Tree :=
  if window.board.running then (window, [], tree)
  else
    match action with
    | .generate => window.generate site tree
    | .togglePages =>
      ({ window with options := { window.options with parseOnly := !window.options.parseOnly } },
        [], tree)
    | .type .destination text => ({ window with destination := text }, [], tree)
    | .type .only text => ({ window with only := text }, [], tree)

/-- The widgets in their order; every line of the log is one of them. -/
def view (window : Window) : List Widget :=
  let enabled := !window.board.running
  [.label "Destination:".toList, .input window.destination enabled,
      .button "Generate".toList enabled] ++
    (if window.board.running then [.spinner] else []) ++
    [.label "Only:".toList, .input window.only enabled,
      .checkbox "Cached pages only".toList enabled window.options.parseOnly,
      .label window.board.fetch, .label window.board.parse] ++
    window.board.log.map .label

end Window

end ClassSkeleton
