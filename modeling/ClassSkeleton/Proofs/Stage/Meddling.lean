import ClassSkeleton.Proofs.Stage.Balance
import ClassSkeleton.Proofs.Stage.Presence
import Mathlib.Data.List.Rotate

/-!
The parse stage among others who touch the tree. They can do so before the page of the entity in
front is looked for and again before its skeleton is built, so a run is given by what they do in
each of its turns; a run in which they do nothing is the undisturbed one. Once the fetch stage is
over and none of the queued entities has a page, the stage only turns its queue, and it gives up
after a number of turns that is known beforehand.
-/
namespace ClassSkeleton

open Storage

/-- What others do to the tree in a turn: before the page of the entity in front is looked for, and
between that and the building of its skeleton. On trees that the turn never meets they may be taken
to do nothing. -/
structure Meddling where
  before : Tree → Tree
  between : Tree → Tree

namespace Meddling

protected def none : Meddling := ⟨id, id⟩

/-- No page of the entities appears. -/
structure AddsNoPage (cacheRoot : Path) (entities : List Entity) (meddling : Meddling) : Prop where
  before : ∀ tree, ∀ entity ∈ entities,
    isCached tree cacheRoot entity = false →
      isCached (meddling.before tree) cacheRoot entity = false
  between : ∀ tree, ∀ entity ∈ entities,
    isCached tree cacheRoot entity = false →
      isCached (meddling.between tree) cacheRoot entity = false

/-- No page of the entities appears or goes away. -/
structure KeepsPages (cacheRoot : Path) (entities : List Entity) (meddling : Meddling) : Prop where
  before : ∀ tree, ∀ entity ∈ entities,
    isCached (meddling.before tree) cacheRoot entity = isCached tree cacheRoot entity
  between : ∀ tree, ∀ entity ∈ entities,
    isCached (meddling.between tree) cacheRoot entity = isCached tree cacheRoot entity

variable {cacheRoot : Path} {entities : List Entity} {meddling : Meddling}

theorem KeepsPages.addsNoPage (h : meddling.KeepsPages cacheRoot entities) :
    meddling.AddsNoPage cacheRoot entities where
  before tree entity hmem hmissing := (h.before tree entity hmem).trans hmissing
  between tree entity hmem hmissing := (h.between tree entity hmem).trans hmissing

theorem keepsPages_none (cacheRoot : Path) (entities : List Entity) :
    Meddling.none.KeepsPages cacheRoot entities := ⟨fun _ _ _ => rfl, fun _ _ _ => rfl⟩

/-- Another program builds a skeleton, the last time right before this one does. -/
def building (cacheRoot outRoot : Path) (entity : Entity) : Meddling where
  before tree := (buildCached cacheRoot outRoot entity tree).tree
  between tree := (buildCached cacheRoot outRoot entity tree).tree

/-- Other programs that build skeletons keep the pages. -/
theorem keepsPages_building (cacheRoot outRoot : Path) (entity : Entity) (entities : List Entity) :
    (building cacheRoot outRoot entity).KeepsPages cacheRoot entities :=
  ⟨fun _ _ _ => isCached_buildCached .., fun _ _ _ => isCached_buildCached ..⟩

end Meddling

namespace ParseState

def isOver (maxTurns : Option Nat) (state : ParseState) : Bool :=
  state.queue.isEmpty || maxTurns.any fun cap => cap ≤ state.report.turns

section Run

variable (cacheRoot outRoot : Path) (limits : ParseLimits)

/-- What a turn meets at an entity while others touch the tree. -/
def met (meddling : Meddling) (tree : Tree) (entity : Entity) : Encounter :=
  let looked := meddling.before tree
  let built := buildCached cacheRoot outRoot entity (meddling.between looked)
  ⟨isCached looked cacheRoot entity, limits.fetchFinished, built.outcome, built.log⟩

/-- One turn while others touch the tree. -/
def takeTurnAmid (meddling : Meddling) (state : ParseState) (tree : Tree) : Turn :=
  if state.isOver limits.maxTurns then .ended state tree
  else (state.move limits.maxTurns (met cacheRoot outRoot limits meddling tree)).turn
    cacheRoot outRoot (meddling.between (meddling.before tree))

/-- As many turns as there are meddlings, or fewer if the stage ends before. -/
def turnsAmid : List Meddling → ParseState → Tree → ParseEnd
  | [], state, tree => ⟨state, tree, false⟩
  | meddling :: later, state, tree =>
    match takeTurnAmid cacheRoot outRoot limits meddling state tree with
    | .ended state tree => ⟨state, tree, true⟩
    | .taken state tree => turnsAmid later state tree

/-- The stage over `refs` while others touch the tree. -/
def stageAmid (meddlings : List Meddling) (refs : List Entity) (tree : Tree) : ParseEnd :=
  let stage := turnsAmid cacheRoot outRoot limits meddlings
    (.start refs limits.fetchFinished) tree
  { stage with state := stage.state.close }

variable {cacheRoot outRoot limits}

theorem move_of_isOver {maxTurns : Option Nat} {state : ParseState}
    (h : state.isOver maxTurns = true) (met : Entity → Encounter) :
    state.move maxTurns met = .ends state := by
  rw [move]
  cases hqueue : state.queue with
  | nil => rfl
  | cons entity rest =>
    have hcap : (maxTurns.any fun cap => cap ≤ state.report.turns) = true := by
      simpa [isOver, hqueue] using h
    simp only [hcap, if_true]

theorem takeTurnAmid_none (state : ParseState) (tree : Tree) :
    takeTurnAmid cacheRoot outRoot limits .none state tree =
      takeTurn cacheRoot outRoot limits state tree := by
  rw [takeTurnAmid, takeTurn_eq_move]
  by_cases hover : state.isOver limits.maxTurns = true
  · rw [if_pos hover, move_of_isOver hover]
    rfl
  · rw [if_neg hover]
    rfl

theorem turnsAmid_replicate (turns : Nat) (state : ParseState) (tree : Tree) :
    turnsAmid cacheRoot outRoot limits (List.replicate turns .none) state tree =
      takeTurns cacheRoot outRoot limits turns state tree := by
  induction turns generalizing state tree with
  | zero => rfl
  | succ turns ih =>
    rw [List.replicate_succ, turnsAmid, takeTurns, takeTurnAmid_none]
    cases takeTurn cacheRoot outRoot limits state tree with
    | ended last left => rfl
    | taken next left => exact ih next left

/-- The undisturbed stage is one in which nobody else does anything. -/
theorem parseAll_eq_stageAmid (cacheRoot outRoot : Path) (limits : ParseLimits)
    (refs : List Entity) (tree : Tree) :
    parseAll cacheRoot outRoot limits refs tree =
      stageAmid cacheRoot outRoot limits
        (List.replicate (limits.turnBound refs.length) .none) refs tree := by
  rw [parseAll, stageAmid, turnsAmid_replicate]

end Run

/-! ### What a turn without a cap can do -/

inductive Goes (state : ParseState) (met : Entity → Encounter) : Move → Prop
  /-- The queue is empty. -/
  | empty (hqueue : state.queue = []) : Goes state met (.ends state)
  /-- The entity in front leaves the queue. -/
  | leaves {entity : Entity} {rest : List Entity} {next : ParseState}
      (hqueue : state.queue = entity :: rest) (hcached : (met entity).cached = true)
      (hrest : next.queue = rest) (hidle : next.idle = 0)
      (hflag : next.finishedAtStart = (met entity).finished)
      (hturns : next.report.turns = state.report.turns + 1) :
      Goes state met (.retires ⟨entity, (met entity).outcome⟩ next)
  /-- A whole rotation has found nothing after the end of the fetch stage. -/
  | givesUp {entity : Entity} {rest : List Entity} {last : ParseState}
      (hqueue : state.queue = entity :: rest) (hmissing : (met entity).cached = false)
      (hwhole : rest.length ≤ state.idle) (hfinished : state.finishedAtStart = true)
      (hrest : last.queue = rest ++ [entity])
      (hturns : last.report.turns = state.report.turns + 1) : Goes state met (.ends last)
  /-- A whole rotation has found nothing, and another one begins. -/
  | begins {entity : Entity} {rest : List Entity} {next : ParseState}
      (hqueue : state.queue = entity :: rest) (hmissing : (met entity).cached = false)
      (hwhole : rest.length ≤ state.idle) (hunfinished : state.finishedAtStart = false)
      (hrest : next.queue = rest ++ [entity]) (hidle : next.idle = 0)
      (hflag : next.finishedAtStart = (met entity).finished)
      (hturns : next.report.turns = state.report.turns + 1) : Goes state met (.waits next)
  /-- The rotation goes on. -/
  | goesOn {entity : Entity} {rest : List Entity} {next : ParseState}
      (hqueue : state.queue = entity :: rest) (hmissing : (met entity).cached = false)
      (hpart : state.idle < rest.length)
      (hrest : next.queue = rest ++ [entity]) (hidle : next.idle = state.idle + 1)
      (hflag : next.finishedAtStart = state.finishedAtStart)
      (hturns : next.report.turns = state.report.turns + 1) : Goes state met (.waits next)

@[simp] theorem turns_retire (state : ParseState) (entity : Entity) (rest : List Entity)
    (finished : Bool) (outcome : Except Failure Outcome) :
    (state.retire entity rest finished outcome).report.turns = state.report.turns := by
  rcases outcome with e | (_ | kind) <;> rfl

theorem goes (state : ParseState) (met : Entity → Encounter) :
    Goes state met (state.move none met) := by
  rw [move]
  cases hqueue : state.queue with
  | nil => exact .empty hqueue
  | cons entity rest =>
    simp only [Option.any_none, Bool.false_eq_true, if_false]
    cases hcached : (met entity).cached with
    | true => exact .leaves hqueue hcached (by simp) (by simp) (by simp) (by simp [countTurn])
    | false =>
      rw [if_neg Bool.false_ne_true]
      by_cases hwhole : rest.length ≤ state.countTurn.idle
      · cases hfinished : state.finishedAtStart with
        | true =>
          have hgivesUp : state.countTurn.givesUp rest = true := by
            simp only [ParseState.givesUp, hwhole, decide_true, Bool.true_and]
            exact hfinished
          rw [if_pos hgivesUp]
          exact .givesUp hqueue hcached hwhole hfinished rfl rfl
        | false =>
          have hgivesUp : ¬ state.countTurn.givesUp rest = true := by
            simp [ParseState.givesUp, countTurn, hfinished]
          rw [if_neg hgivesUp, postpone, if_pos hwhole]
          exact .begins hqueue hcached hwhole hfinished rfl rfl rfl rfl
      · have hgivesUp : ¬ state.countTurn.givesUp rest = true := by
          simp [ParseState.givesUp, hwhole]
        rw [if_neg hgivesUp, postpone, if_neg hwhole]
        exact .goesOn hqueue hcached (Nat.lt_of_not_le hwhole) rfl rfl rfl rfl

theorem exists_goes (state : ParseState) (met : Entity → Encounter) :
    ∃ move, state.move none met = move ∧ Goes state met move := ⟨_, rfl, goes state met⟩

theorem Move.state_of_turn {move : Move} {next : ParseState} {cacheRoot outRoot : Path}
    {tree left : Tree} (h : move.turn cacheRoot outRoot tree = .taken next left) :
    move.state = next := by
  cases move with
  | ends last => cases h
  | waits last | retires _ last => exact (Turn.taken.inj h).1

theorem turns_of_taken {state next : ParseState} {met : Entity → Encounter}
    {cacheRoot outRoot : Path}
    {tree left : Tree} (h : (state.move none met).turn cacheRoot outRoot tree = .taken next left) :
    next.report.turns = state.report.turns + 1 := by
  obtain ⟨move, hmove, hgoes⟩ := exists_goes state met
  rw [hmove] at h
  cases hgoes with
  | empty | givesUp => cases h
  | leaves _ _ _ _ _ hturns | begins _ _ _ _ _ _ _ hturns | goesOn _ _ _ _ _ _ hturns =>
    rwa [← (Turn.taken.inj h).1]

/-! ### Stages that have come to an end -/

/-- A stage that began in `state` has ended after `turns` turns, with `queue` left. -/
structure Ends (state : ParseState) (turns : Nat) (retired : List Retirement) (queue : List Entity)
    (stage : ParseEnd) : Prop where
  ended : stage.ended = true
  turns : stage.state.report.turns = state.report.turns + turns
  queue : stage.state.queue = queue
  balance : Balance none state retired stage.state

section Ends

variable {cacheRoot outRoot : Path} {limits : ParseLimits} {meddling : Meddling}
  {later : List Meddling} {state next : ParseState} {tree left : Tree} {turns : Nat}
  {retired : List Retirement} {retirement : Retirement} {queue : List Entity}

theorem turnsAmid_of_ends (later : List Meddling) (hcap : limits.maxTurns = none)
    {last : ParseState}
    (hmove : state.move none (met cacheRoot outRoot limits meddling tree) = .ends last) :
    (turnsAmid cacheRoot outRoot limits (meddling :: later) state tree).ended = true ∧
      (turnsAmid cacheRoot outRoot limits (meddling :: later) state tree).state = last := by
  rw [turnsAmid, takeTurnAmid, hcap]
  by_cases hover : state.isOver none = true
  · rw [move_of_isOver hover, Move.ends.injEq] at hmove
    rw [if_pos hover]
    exact ⟨rfl, hmove⟩
  · rw [if_neg hover, hmove]
    exact ⟨rfl, rfl⟩

theorem turnsAmid_of_taken (hcap : limits.maxTurns = none)
    (hturn : (state.move none (met cacheRoot outRoot limits meddling tree)).turn cacheRoot outRoot
      (meddling.between (meddling.before tree)) = .taken next left) :
    turnsAmid cacheRoot outRoot limits (meddling :: later) state tree =
      turnsAmid cacheRoot outRoot limits later next left := by
  have hover : ¬ state.isOver none = true := by
    intro hover
    rw [move_of_isOver hover] at hturn
    cases hturn
  rw [turnsAmid, takeTurnAmid, hcap, if_neg hover, hturn]

theorem turnsAmid_of_waits (hcap : limits.maxTurns = none)
    (hmove : state.move none (met cacheRoot outRoot limits meddling tree) = .waits next) :
    turnsAmid cacheRoot outRoot limits (meddling :: later) state tree =
      turnsAmid cacheRoot outRoot limits later next (meddling.between (meddling.before tree)) :=
  turnsAmid_of_taken hcap (by rw [hmove, Move.turn])

theorem turnsAmid_of_retires (hcap : limits.maxTurns = none)
    (hmove : state.move none (met cacheRoot outRoot limits meddling tree) =
      .retires retirement next) :
    turnsAmid cacheRoot outRoot limits (meddling :: later) state tree =
      turnsAmid cacheRoot outRoot limits later next (buildCached cacheRoot outRoot retirement.entity
        (meddling.between (meddling.before tree))).tree :=
  turnsAmid_of_taken hcap (by rw [hmove, Move.turn])

theorem Ends.of_ends (hcap : limits.maxTurns = none) {last : ParseState}
    (hmove : state.move none (met cacheRoot outRoot limits meddling tree) = .ends last)
    (hturns : last.report.turns = state.report.turns + turns) :
    Ends state turns [] last.queue
      (turnsAmid cacheRoot outRoot limits (meddling :: later) state tree) := by
  obtain ⟨hended, hstate⟩ := turnsAmid_of_ends later hcap hmove
  have hbalance : Balance none state _ _ :=
    move_balances state (met cacheRoot outRoot limits meddling tree)
  rw [hmove] at hbalance
  exact ⟨hended, by rw [hstate, hturns], by rw [hstate], by rwa [hstate]⟩

theorem Ends.of_taken (hcap : limits.maxTurns = none)
    (hturn : (state.move none (met cacheRoot outRoot limits meddling tree)).turn cacheRoot outRoot
      (meddling.between (meddling.before tree)) = .taken next left)
    (h : Ends next turns retired queue (turnsAmid cacheRoot outRoot limits later next left)) :
    Ends state (turns + 1)
      ((state.move none (met cacheRoot outRoot limits meddling tree)).retired ++ retired) queue
      (turnsAmid cacheRoot outRoot limits (meddling :: later) state tree) := by
  have hturns := turns_of_taken hturn
  have hbalance : Balance none state _ _ :=
    move_balances state (met cacheRoot outRoot limits meddling tree)
  rw [Move.state_of_turn hturn] at hbalance
  rw [turnsAmid_of_taken hcap hturn]
  exact ⟨h.ended, by rw [h.turns, hturns]; omega, h.queue, hbalance.trans h.balance⟩

theorem Ends.of_waits (hcap : limits.maxTurns = none)
    (hmove : state.move none (met cacheRoot outRoot limits meddling tree) = .waits next)
    (h : Ends next turns retired queue (turnsAmid cacheRoot outRoot limits later next
      (meddling.between (meddling.before tree)))) :
    Ends state (turns + 1) retired queue
      (turnsAmid cacheRoot outRoot limits (meddling :: later) state tree) := by
  have hends := Ends.of_taken hcap (by rw [hmove, Move.turn]) h
  rwa [hmove] at hends

theorem Ends.of_retires (hcap : limits.maxTurns = none)
    (hmove : state.move none (met cacheRoot outRoot limits meddling tree) =
      .retires retirement next)
    (h : Ends next turns retired queue (turnsAmid cacheRoot outRoot limits later next
      (buildCached cacheRoot outRoot retirement.entity
        (meddling.between (meddling.before tree))).tree)) :
    Ends state (turns + 1) (retirement :: retired) queue
      (turnsAmid cacheRoot outRoot limits (meddling :: later) state tree) := by
  have hends := Ends.of_taken hcap (by rw [hmove, Move.turn]) h
  rwa [hmove] at hends

end Ends

/-! ### When no queued entity has a page -/

/-- How many turns the stage still takes when no queued entity has a page and the fetch stage is
over: what is left of the rotation, and another one if this one began too early. -/
def lastTurns (state : ParseState) : Nat :=
  max (state.queue.length - state.idle) 1 +
    if state.finishedAtStart then 0 else state.queue.length

theorem lastTurns_le (state : ParseState) (hqueue : state.queue ≠ []) :
    state.lastTurns ≤ 2 * state.queue.length := by
  have hlength := List.length_pos_iff.mpr hqueue
  rw [lastTurns]
  split <;> omega

section LastTurns

/-! Each of the last turns is one less to come. -/

variable {state next : ParseState} {entity : Entity} {rest : List Entity}
  (hfront : state.queue = entity :: rest)

include hfront

theorem lastTurns_of_givesUp (hwhole : rest.length ≤ state.idle)
    (hfinished : state.finishedAtStart = true) : state.lastTurns = 1 := by
  rw [lastTurns, hfront, hfinished, List.length_cons, if_pos rfl]
  omega

theorem lastTurns_of_begins (hwhole : rest.length ≤ state.idle)
    (hunfinished : state.finishedAtStart = false) (hrest : next.queue = rest ++ [entity])
    (hidle : next.idle = 0) (hfinished : next.finishedAtStart = true) :
    state.lastTurns = next.lastTurns + 1 := by
  rw [lastTurns, lastTurns, hidle, hfinished, hunfinished, hfront, hrest, if_pos rfl,
    if_neg Bool.false_ne_true, List.length_append, List.length_cons, List.length_singleton]
  omega

theorem lastTurns_of_goesOn (hpart : state.idle < rest.length)
    (hrest : next.queue = rest ++ [entity]) (hidle : next.idle = state.idle + 1)
    (hflag : next.finishedAtStart = state.finishedAtStart) :
    state.lastTurns = next.lastTurns + 1 := by
  rw [lastTurns, lastTurns, hidle, hflag, hfront, hrest, List.length_append, List.length_cons,
    List.length_singleton]
  omega

end LastTurns

section Missing

variable {cacheRoot outRoot : Path} {limits : ParseLimits} {entities : List Entity}
  {meddlings : List Meddling} {state : ParseState} {tree : Tree}

theorem ends_of_empty (hlimits : limits.maxTurns = none) (hqueue : state.queue = [])
    (hlength : 0 < meddlings.length) :
    Ends state 0 [] [] (turnsAmid cacheRoot outRoot limits meddlings state tree) := by
  obtain ⟨meddling, later, rfl⟩ := List.exists_cons_of_length_pos hlength
  have hmove : state.move none (met cacheRoot outRoot limits meddling tree) = .ends state :=
    move_of_isOver (by simp [isOver, hqueue]) _
  rw [← hqueue]
  exact .of_ends hlimits hmove rfl

variable (outRoot) in
/-- Without pages the stage turns its queue until it gives up. -/
theorem ends_of_missing (hlimits : limits.maxTurns = none) (hover : limits.fetchFinished = true)
    (hadds : ∀ meddling ∈ meddlings, meddling.AddsNoPage cacheRoot entities)
    (hqueue : state.queue ≠ []) (hmem : ∀ entity ∈ state.queue, entity ∈ entities)
    (hmissing : ∀ entity ∈ state.queue, isCached tree cacheRoot entity = false)
    (hlength : state.lastTurns ≤ meddlings.length) :
    Ends state state.lastTurns [] (state.queue.rotate state.lastTurns)
      (turnsAmid cacheRoot outRoot limits meddlings state tree) := by
  induction meddlings generalizing state tree with
  | nil =>
    rw [lastTurns, List.length_nil] at hlength
    omega
  | cons meddling later ih =>
    obtain ⟨hmeddling, hlater⟩ := List.forall_mem_cons.mp hadds
    have hlooked : ∀ entity ∈ state.queue,
        isCached (meddling.before tree) cacheRoot entity = false :=
      fun entity hentity => hmeddling.before _ _ (hmem _ hentity) (hmissing _ hentity)
    have hleft : ∀ entity ∈ state.queue,
        isCached (meddling.between (meddling.before tree)) cacheRoot entity = false :=
      fun entity hentity => hmeddling.between _ _ (hmem _ hentity) (hlooked _ hentity)
    obtain ⟨move, hmove, hgoes⟩ :=
      exists_goes state (met cacheRoot outRoot limits meddling tree)
    -- Whether the rotation goes on or another one begins, one of the last turns has been taken.
    have hwaits : ∀ {entity rest next}, state.queue = entity :: rest →
        next.queue = rest ++ [entity] →
        state.move none (met cacheRoot outRoot limits meddling tree) = .waits next →
        state.lastTurns = next.lastTurns + 1 →
        Ends state state.lastTurns [] (state.queue.rotate state.lastTurns)
          (turnsAmid cacheRoot outRoot limits (meddling :: later) state tree) := by
      intro entity rest next hfront hrest hwait hlast
      have hsame : ∀ other ∈ next.queue, other ∈ state.queue := by
        rw [hrest, hfront]
        exact (List.perm_append_singleton entity rest).subset
      rw [hlast, List.length_cons] at hlength
      rw [hlast, hfront, List.rotate_cons_succ, ← hrest]
      exact .of_waits hlimits hwait (ih hlater (by simp [hrest])
        (fun other hother => hmem other (hsame other hother))
        (fun other hother => hleft other (hsame other hother)) (Nat.le_of_succ_le_succ hlength))
    cases hgoes with
    | empty hempty => exact absurd hempty hqueue
    | @leaves entity rest next hfront hcached =>
      have hnot := hlooked entity (by simp [hfront])
      exact absurd (hcached.symm.trans hnot) (by simp)
    | @givesUp entity rest last hfront _ hwhole hfinished hrest hturns =>
      rw [lastTurns_of_givesUp hfront hwhole hfinished, hfront, List.rotate_cons_succ,
        List.rotate_zero, ← hrest]
      exact .of_ends hlimits hmove hturns
    | @begins entity rest next hfront _ hwhole hunfinished hrest hidle hflag _ =>
      exact hwaits hfront hrest hmove
        (lastTurns_of_begins hfront hwhole hunfinished hrest hidle (hflag.trans hover))
    | @goesOn entity rest next hfront _ hpart hrest hidle hflag _ =>
      exact hwaits hfront hrest hmove (lastTurns_of_goesOn hfront hpart hrest hidle hflag)

end Missing

end ParseState

end ClassSkeleton
