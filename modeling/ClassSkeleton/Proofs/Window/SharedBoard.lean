import ClassSkeleton.Board
import Mathlib.Data.List.DropRight
import Mathlib.Logic.Function.Basic

/-!
The board shared by two stages and by whoever else writes to its log. Each stage counts for itself
and writes whole lines of text, so what it writes depends on its own events only. A failure is
written in two goes, first into the log and then as the status, and others may write in between.
In whatever order the writes come, each stage has the status line that it would have alone, and the
log holds the last lines that anyone has pushed.
-/
namespace ClassSkeleton

/-- A change of the board that is made in one go. A line may come from neither stage. -/
inductive Write where
  | status (stage : StageName) (text : Text)
  | line (writer : Option StageName) (text : Text)
  deriving DecidableEq, Repr

namespace Write

def writer : Write → Option StageName
  | .status stage _ => some stage
  | .line writer _ => writer

def logged? : Write → Option Text
  | .status _ _ => none
  | .line _ text => some text

end Write

namespace Board

def status (board : Board) : StageName → Text
  | .fetch => board.fetch
  | .parse => board.parse

def apply (board : Board) : Write → Board
  | .status stage text => board.setStatus stage text
  | .line _ text => board.pushLog text

def applyAll (board : Board) (writes : List Write) : Board := writes.foldl apply board

theorem applyAll_cons (board : Board) (write : Write) (writes : List Write) :
    board.applyAll (write :: writes) = (board.apply write).applyAll writes := rfl

theorem applyAll_append (board : Board) (writes more : List Write) :
    board.applyAll (writes ++ more) = (board.applyAll writes).applyAll more := List.foldl_append

theorem status_apply_of_ne {board : Board} {write : Write} {stage : StageName}
    (h : write.writer ≠ some stage) : (board.apply write).status stage = board.status stage := by
  cases write with
  | line => cases stage <;> rfl
  | status writer text =>
    cases writer <;> cases stage
    · exact absurd rfl h
    · rfl
    · rfl
    · exact absurd rfl h

theorem status_apply_congr {board other : Board} {stage : StageName}
    (h : board.status stage = other.status stage) (write : Write) :
    (board.apply write).status stage = (other.apply write).status stage := by
  cases write with
  | line => cases stage <;> exact h
  | status writer text =>
    cases writer <;> cases stage
    · rfl
    · exact h
    · exact h
    · rfl

theorem status_applyAll {board other : Board} {stage : StageName}
    (h : board.status stage = other.status stage) (writes : List Write) :
    (board.applyAll writes).status stage =
      (other.applyAll (writes.filter fun write => write.writer = some stage)).status stage := by
  -- The boards may differ in all but this line, so that one can do without a write of others.
  induction writes generalizing board other with
  | nil => exact h
  | cons write writes ih =>
    by_cases hwriter : write.writer = some stage
    · rw [List.filter_cons_of_pos (by simpa using hwriter), applyAll_cons, applyAll_cons]
      exact ih (status_apply_congr h write)
    · rw [List.filter_cons_of_neg (by simpa using hwriter), applyAll_cons]
      exact ih ((status_apply_of_ne hwriter).trans h)

theorem logLimit_apply (board : Board) (write : Write) :
    (board.apply write).logLimit = board.logLimit := by
  cases write with
  | line => rfl
  | status stage => cases stage <;> rfl

theorem logLimit_applyAll (board : Board) (writes : List Write) :
    (board.applyAll writes).logLimit = board.logLimit := by
  induction writes generalizing board with
  | nil => rfl
  | cons write writes ih => rw [applyAll_cons, ih, logLimit_apply]

/-- Of lines that have been dropped, none is wanted when one more is pushed. -/
theorem rtake_rtake_concat (limit : Nat) (lines : List Text) (line : Text) :
    (lines.rtake limit ++ [line]).rtake limit = (lines ++ [line]).rtake limit := by
  cases limit with
  | zero => simp
  | succ limit =>
    have htake : (lines.rtake (limit + 1)).rtake limit = lines.rtake limit := by
      simp [List.rtake_eq_reverse_take_reverse, List.take_take]
    rw [List.rtake_concat_succ, List.rtake_concat_succ, htake]

theorem log_applyAll (limit : Nat) (writes : List Write) :
    ((idle limit).applyAll writes).log = (writes.filterMap Write.logged?).rtake limit := by
  induction writes using List.reverseRecOn with
  | nil => simp [applyAll, idle]
  | append_singleton writes write ih =>
    have hlimit : ((idle limit).applyAll writes).logLimit = limit := logLimit_applyAll _ writes
    rw [applyAll_append, List.filterMap_append]
    cases write with
    | status stage text =>
      have hlog : (((idle limit).applyAll writes).setStatus stage text).log =
          ((idle limit).applyAll writes).log := by cases stage <;> rfl
      rw [List.filterMap_cons_none rfl, List.filterMap_nil, List.append_nil]
      exact hlog.trans ih
    | line writer text =>
      have hpush : (((idle limit).applyAll writes).pushLog text).log =
          (((idle limit).applyAll writes).log ++ [text]).rtake limit := by
        rw [pushLog, hlimit]
        rfl
      rw [ih, rtake_rtake_concat] at hpush
      exact hpush

end Board

namespace StageDisplay

def heed (display : StageDisplay) : Event → StageDisplay
  | .begin total => { display with total }
  | .log _ => display
  | .done _ => { display with done := display.done + 1 }
  | .failed _ _ => { display with failed := display.failed + 1 }
  | .finish => display

def writes (display : StageDisplay) (event : Event) : List Write :=
  let after := display.heed event
  match event with
  | .begin total => [.status display.stage (after.line ("0/".toList ++ Text.decimal total))]
  | .log message => [.line display.stage (after.logLine message)]
  | .done name =>
    [.status display.stage (after.line (after.counts ++ " (".toList ++ name ++ [')']))]
  | .failed name reason =>
    [.line display.stage (after.logLine (name ++ ": ".toList ++ reason)),
      .status display.stage (after.line after.counts)]
  | .finish => [.status display.stage (after.line after.closing)]

def writesAll (display : StageDisplay) : List Event → List Write
  | [] => []
  | event :: events => display.writes event ++ writesAll (display.heed event) events

theorem receive_eq (display : StageDisplay) (board : Board) (event : Event) :
    display.receive board event = (display.heed event, board.applyAll (display.writes event)) := by
  cases event <;> rfl

theorem receiveAll_eq (display : StageDisplay) (board : Board) (events : List Event) :
    display.receiveAll board events = board.applyAll (display.writesAll events) := by
  induction events generalizing display board with
  | nil => rfl
  | cons event events ih =>
    have hstep : display.receiveAll board (event :: events) =
        (display.receive board event).1.receiveAll (display.receive board event).2 events := rfl
    rw [hstep, receive_eq, ih, writesAll, Board.applyAll_append]

theorem stage_heed (display : StageDisplay) (event : Event) :
    (display.heed event).stage = display.stage := by
  cases event <;> rfl

theorem writer_of_mem_writes {display : StageDisplay} {event : Event} :
    ∀ write ∈ display.writes event, write.writer = some display.stage := by
  cases event <;> simp [writes, Write.writer]

end StageDisplay

/-- What comes to the board: an event of a stage, or a line from elsewhere. -/
inductive Call where
  | report (stage : StageName) (event : Event)
  | line (text : Text)
  deriving DecidableEq, Repr

namespace Call

def eventOf? (stage : StageName) : Call → Option Event
  | .report sender event => if sender = stage then some event else none
  | .line _ => none

def lines : Call → List Text
  | .report stage (.log message) => ['[' :: stage.label ++ "] ".toList ++ message]
  | .report stage (.failed name reason) =>
    ['[' :: stage.label ++ "] ".toList ++ (name ++ ": ".toList ++ reason)]
  | .report _ _ => []
  | .line text => [text]

end Call

/-- The displays of both stages, and the board that they share. -/
structure SharedBoard where
  displays : StageName → StageDisplay
  board : Board

namespace SharedBoard

def start (logLimit : Nat) : SharedBoard := ⟨StageDisplay.start, Board.idle logLimit⟩

def take (shared : SharedBoard) : Call → SharedBoard
  | .report stage event =>
    let (display, board) := (shared.displays stage).receive shared.board event
    ⟨Function.update shared.displays stage display, board⟩
  | .line text => { shared with board := shared.board.pushLog text }

def takeAll (shared : SharedBoard) (calls : List Call) : SharedBoard := calls.foldl take shared

def writes (displays : StageName → StageDisplay) : List Call → List Write
  | [] => []
  | .report stage event :: calls =>
    (displays stage).writes event ++
      writes (Function.update displays stage ((displays stage).heed event)) calls
  | .line text :: calls => .line none text :: writes displays calls

theorem board_takeAll (shared : SharedBoard) (calls : List Call) :
    (shared.takeAll calls).board = shared.board.applyAll (writes shared.displays calls) := by
  induction calls generalizing shared with
  | nil => rfl
  | cons call calls ih =>
    have hstep : shared.takeAll (call :: calls) = (shared.take call).takeAll calls := rfl
    rw [hstep, ih]
    cases call with
    | line => rfl
    | report stage event =>
      rw [take, StageDisplay.receive_eq, writes, Board.applyAll_append]

def Assigned (displays : StageName → StageDisplay) : Prop := ∀ stage, (displays stage).stage = stage

theorem Assigned.update {displays : StageName → StageDisplay} (h : Assigned displays)
    (stage : StageName) (event : Event) :
    Assigned (Function.update displays stage ((displays stage).heed event)) := by
  intro other
  by_cases hother : other = stage
  · subst hother
    rw [Function.update_self, StageDisplay.stage_heed, h]
  · rw [Function.update_of_ne hother, h]

theorem filter_writes {displays : StageName → StageDisplay} (h : Assigned displays)
    (calls : List Call) (stage : StageName) :
    ((writes displays calls).filter fun write => write.writer = some stage) =
      (displays stage).writesAll (calls.filterMap (Call.eventOf? stage)) := by
  induction calls generalizing displays with
  | nil => rfl
  | cons call calls ih =>
    cases call with
    | line text => exact ih h
    | report sender event =>
      rw [writes, List.filter_append, ih (h.update sender event)]
      have hwriter : ∀ write ∈ (displays sender).writes event, write.writer = some sender := by
        intro write hwrite
        rw [StageDisplay.writer_of_mem_writes write hwrite, h]
      by_cases hsender : sender = stage
      · subst hsender
        have hevent : Call.eventOf? sender (.report sender event) = some event := if_pos rfl
        rw [List.filter_eq_self.mpr fun write hwrite => by simpa using hwriter write hwrite,
          Function.update_self, List.filterMap_cons_some hevent, StageDisplay.writesAll]
      · have hevent : Call.eventOf? stage (.report sender event) = none := if_neg hsender
        have hothers : ((displays sender).writes event).filter
            (fun write => write.writer = some stage) = [] := by
          apply List.filter_eq_nil_iff.mpr
          intro write hwrite
          simpa [hwriter write hwrite] using hsender
        rw [hothers, Function.update_of_ne (Ne.symm hsender), List.filterMap_cons_none hevent,
          List.nil_append]

theorem filterMap_writes {displays : StageName → StageDisplay} (h : Assigned displays)
    (calls : List Call) :
    (writes displays calls).filterMap Write.logged? = calls.flatMap Call.lines := by
  induction calls generalizing displays with
  | nil => rfl
  | cons call calls ih =>
    cases call with
    | line text => exact congrArg (List.cons text) (ih h)
    | report sender event =>
      rw [writes, List.filterMap_append, ih (h.update sender event), List.flatMap_cons]
      apply congrArg (· ++ calls.flatMap Call.lines)
      cases event <;>
        simp [StageDisplay.writes, Write.logged?, Call.lines, StageDisplay.logLine,
          StageDisplay.heed, h sender]

end SharedBoard

/-- The board shows for each stage what the stage's events alone would leave, and the last of the
lines in its log. -/
structure Board.Shows (limit : Nat) (events : StageName → List Event) (lines : List Text)
    (board : Board) : Prop where
  status : ∀ stage, board.status stage =
    ((StageDisplay.start stage).receiveAll (Board.idle limit) (events stage)).status stage
  log : board.log = lines.rtake limit

theorem Board.shows_applyAll {limit : Nat} {events : StageName → List Event} {writes : List Write}
    (h : ∀ stage, (writes.filter fun write => write.writer = some stage) =
      (StageDisplay.start stage).writesAll (events stage)) :
    ((Board.idle limit).applyAll writes).Shows limit events (writes.filterMap Write.logged?) where
  status := by
    intro stage
    rw [StageDisplay.receiveAll_eq, ← h stage]
    exact status_applyAll rfl writes
  log := log_applyAll limit writes

/-- Both stages and others call the board in any order, and the writes of all these calls may come
in any order that keeps those of each stage in its own. Each stage's line is what its own calls
would leave, and the log holds as many of the last pushed lines as it may. -/
theorem SharedBoard.shows (limit : Nat) :
    (∀ calls, ((SharedBoard.start limit).takeAll calls).board.Shows limit
      (fun stage => calls.filterMap (Call.eventOf? stage)) (calls.flatMap Call.lines)) ∧
    ∀ (events : StageName → List Event) (writes : List Write),
      (∀ stage, (writes.filter fun write => write.writer = some stage) =
        (StageDisplay.start stage).writesAll (events stage)) →
      ((Board.idle limit).applyAll writes).Shows limit events (writes.filterMap Write.logged?) := by
  refine ⟨?_, fun events writes h => Board.shows_applyAll h⟩
  intro calls
  have hassigned : Assigned (SharedBoard.start limit).displays := fun stage => rfl
  rw [board_takeAll, ← filterMap_writes hassigned]
  exact Board.shows_applyAll fun stage => filter_writes hassigned calls stage

/-- A failure of the fetch stage is logged, and before the stage's line says so the parse stage
begins and somebody else pushes a line. The log has room for one. -/
theorem SharedBoard.shows_torn :
    let events : StageName → List Event
      | .fetch => [.begin 2, .failed "a.B".toList "gone".toList]
      | .parse => [.begin 1, .done "a.C".toList]
    let writes : List Write :=
      [.status .fetch "Fetch: 0/2".toList, .line (some .fetch) "[Fetch] a.B: gone".toList,
        .status .parse "Parse: 0/1".toList, .line none "Go on".toList,
        .status .fetch "Fetch: 1/2".toList, .status .parse "Parse: 1/1 (a.C)".toList]
    (∀ stage, (writes.filter fun write => write.writer = some stage) =
      (StageDisplay.start stage).writesAll (events stage)) ∧
      ((Board.idle 1).applyAll writes).Shows 1 events (writes.filterMap Write.logged?) ∧
      (Board.idle 1).applyAll writes =
        ⟨"Fetch: 1/2".toList, "Parse: 1/1 (a.C)".toList, ["Go on".toList], false, 1⟩ := by
  intro events writes
  have hwrites : ∀ stage, (writes.filter fun write => write.writer = some stage) =
      (StageDisplay.start stage).writesAll (events stage) := by
    intro stage
    cases stage <;> decide +kernel
  exact ⟨hwrites, (SharedBoard.shows 1).2 events writes hwrites, by decide +kernel⟩

end ClassSkeleton
