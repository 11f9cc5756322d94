import ClassSkeleton.Board
import ClassSkeleton.Stage.Fetch
import ClassSkeleton.Stage.Parse

/-!
Both stages at work on one tree. A stage is cut into steps, and between two steps of one stage the
other may take any number of its own. The fetch stage looks for a page, downloads it and makes it
visible, and the last thing it does is to raise its flag. The parse stage looks for the page of
the entity in front, looks at the flag, and builds a skeleton; what it has read is kept for the
record. That one stage follows the other is one of these interleavings.
-/
namespace ClassSkeleton

inductive FetchPoint where
  | next (refs : List Entity)
  /-- The page of the entity was not in the cache. -/
  | absent (entity : Entity) (rest : List Entity)
  | downloaded (entity : Entity) (body : Text) (rest : List Entity)
  /-- The stage has returned, and its flag is up. -/
  | returned

/-- The fetch stage at a point; the tree in its state is the one that both stages work on. -/
structure FetchStage where
  point : FetchPoint
  state : FetchState

inductive ParsePoint where
  /-- The flag has not been looked at yet. -/
  | begin (refs : List Entity)
  | turn (state : ParseState)
  /-- The page of the entity in front was not in the cache. -/
  | missing (state : ParseState) (entity : Entity) (rest : List Entity)
  /-- The page of the entity in front was in the cache. -/
  | found (state : ParseState) (entity : Entity) (rest : List Entity)
  /-- The flag has been looked at before the skeleton is built. -/
  | ready (state : ParseState) (entity : Entity) (rest : List Entity) (finished : Bool)
  | returned (state : ParseState)

/-- An entity that has left the queue, and what was read as its page. -/
structure Translation where
  entity : Entity
  page : Except IoCause Text

/-- Both stages. -/
structure Joint where
  fetch : FetchStage
  parse : ParsePoint
  translations : List Translation

namespace FetchStage

/-- A downloaded page is made visible. -/
def store (root : Path) (state : FetchState) (entity : Entity) (body : Text) : FetchState :=
  match (Storage.writePage entity root body).run state.tree with
  | (.ok path, tree) => state.stored entity path tree
  | (.error e, tree) => state.failed entity (.io e) tree

theorem download_of_ok {site : Site} {entity : Entity} {body : Text}
    (h : site.fetch entity.url = .ok body) (root : Path) (state : FetchState) :
    state.download site root entity = store root state entity body := by
  cases hrun : (Storage.writePage entity root body).run state.tree with
  | mk result left => cases result <;> simp only [FetchState.download, h, store, hrun]

theorem download_of_error {site : Site} {entity : Entity} {e : Failure}
    (h : site.fetch entity.url = .error e) (root : Path) (state : FetchState) :
    state.download site root entity = state.failed entity e state.tree := by
  rw [FetchState.download, h]

def step (site : Site) (root : Path) (stage : FetchStage) : FetchStage :=
  match stage.point with
  | .next [] => ⟨.returned, stage.state.close⟩
  | .next (entity :: rest) =>
    if Storage.isCached stage.state.tree root entity then ⟨.next rest, stage.state.found entity⟩
    else ⟨.absent entity rest, stage.state⟩
  | .absent entity rest =>
    match site.fetch entity.url with
    | .error e => ⟨.next rest, stage.state.failed entity e stage.state.tree⟩
    | .ok body => ⟨.downloaded entity body rest, stage.state⟩
  | .downloaded entity body rest => ⟨.next rest, store root stage.state entity body⟩
  | .returned => stage

/-- The flag of the stage. -/
def isEnded (stage : FetchStage) : Bool :=
  match stage.point with
  | .returned => true
  | _ => false

/-- What the stage comes to if it is left alone. -/
def outlook (site : Site) (root : Path) (stage : FetchStage) : FetchState :=
  match stage.point with
  | .next refs => (refs.foldl (FetchState.visit site root) stage.state).close
  | .absent entity rest =>
    (rest.foldl (FetchState.visit site root) (stage.state.download site root entity)).close
  | .downloaded entity body rest =>
    (rest.foldl (FetchState.visit site root) (store root stage.state entity body)).close
  | .returned => stage.state

/-- A step keeps to what the stage comes to. -/
theorem outlook_step (site : Site) (root : Path) (stage : FetchStage) :
    (stage.step site root).outlook site root = stage.outlook site root := by
  obtain ⟨point, state⟩ := stage
  cases point with
  | next refs =>
    cases refs with
    | nil => rfl
    | cons entity rest =>
      cases hcached : Storage.isCached state.tree root entity with
      | true => simp [step, outlook, FetchState.visit, hcached]
      | false => simp [step, outlook, FetchState.visit, hcached]
  | absent entity rest =>
    cases hfetch : site.fetch entity.url with
    | error e => simp only [step, outlook, hfetch, download_of_error hfetch]
    | ok body => simp only [step, outlook, hfetch, download_of_ok hfetch]
  | downloaded entity body rest => simp only [step, outlook]
  | returned => rfl

end FetchStage

namespace ParseState

variable (state : ParseState) (entity : Entity) (rest : List Entity) (finished : Bool)
  (outcome : Except Failure Outcome)

/-! Whatever its outcome, an entity that leaves the queue begins a new rotation. -/

@[simp] theorem queue_retire : (state.retire entity rest finished outcome).queue = rest := by
  rcases outcome with e | (_ | kind) <;> rfl

@[simp] theorem idle_retire : (state.retire entity rest finished outcome).idle = 0 := by
  rcases outcome with e | (_ | kind) <;> rfl

@[simp] theorem finishedAtStart_retire :
    (state.retire entity rest finished outcome).finishedAtStart = finished := by
  rcases outcome with e | (_ | kind) <;> rfl

end ParseState

namespace Joint

variable (site : Site) (cacheRoot outRoot : Path)

def start (refs : List Entity) (tree : Tree) : Joint :=
  ⟨⟨.next refs, .start refs.length tree⟩, .begin refs, []⟩

def tree (joint : Joint) : Tree := joint.fetch.state.tree

def parseStep (joint : Joint) : Joint :=
  match joint.parse with
  | .begin refs => { joint with parse := .turn (.start refs joint.fetch.isEnded) }
  | .turn state =>
    match state.queue with
    | [] => { joint with parse := .returned state.close }
    | entity :: rest =>
      if Storage.isCached joint.tree cacheRoot entity then
        { joint with parse := .found state.countTurn entity rest }
      else { joint with parse := .missing state.countTurn entity rest }
  | .missing state entity rest =>
    if state.givesUp rest then
      let state := { state with queue := rest ++ [entity], idle := state.idle + 1 }
      { joint with parse := .returned state.close }
    else { joint with parse := .turn (state.postpone entity rest joint.fetch.isEnded) }
  | .found state entity rest => { joint with parse := .ready state entity rest joint.fetch.isEnded }
  | .ready state entity rest finished =>
    let built := buildCached cacheRoot outRoot entity joint.tree
    let state := { state with log := state.log ++ built.log }
    { fetch := { joint.fetch with state := { joint.fetch.state with tree := built.tree } }
      parse := .turn (state.retire entity rest finished built.outcome)
      translations :=
        joint.translations ++ [⟨entity, joint.tree.readText (entity.cachePath cacheRoot)⟩] }
  | .returned _ => joint

/-- One of the stages takes a step; one that has returned does nothing. -/
def step (joint : Joint) : StageName → Joint
  | .fetch => { joint with fetch := joint.fetch.step site cacheRoot }
  | .parse => joint.parseStep cacheRoot outRoot

/-- The stages take their steps in a given order. -/
def run (schedule : List StageName) (joint : Joint) : Joint :=
  schedule.foldl (step site cacheRoot outRoot) joint

/-- The report of the parse stage, once both stages have returned. -/
def report? (joint : Joint) : Option ParseReport :=
  match joint.fetch.point, joint.parse with
  | .returned, .returned state => some state.report
  | _, _ => none

variable {site cacheRoot outRoot}

theorem run_append (first second : List StageName) (joint : Joint) :
    run site cacheRoot outRoot (first ++ second) joint =
      run site cacheRoot outRoot second (run site cacheRoot outRoot first joint) := by
  simp [run]

/-- What holds at the start and is kept by each step holds after every run. -/
theorem run_induction (holds : Joint → Prop) {joint : Joint} (hstart : holds joint)
    (hstep : ∀ joint stage, holds joint → holds (joint.step site cacheRoot outRoot stage))
    (schedule : List StageName) : holds (run site cacheRoot outRoot schedule joint) := by
  induction schedule generalizing joint with
  | nil => exact hstart
  | cons stage schedule ih => exact ih (hstep joint stage hstart)

theorem fetch_alone (site : Site) (cacheRoot outRoot : Path) (refs : List Entity)
    (state : FetchState) (parse : ParsePoint)
    (translations : List Translation) :
    ∃ schedule, run site cacheRoot outRoot schedule ⟨⟨.next refs, state⟩, parse, translations⟩ =
      ⟨⟨.returned, (refs.foldl (FetchState.visit site cacheRoot) state).close⟩, parse,
        translations⟩ := by
  induction refs generalizing state with
  | nil => exact ⟨[.fetch], rfl⟩
  | cons entity rest ih =>
    obtain ⟨schedule, hschedule⟩ := ih (FetchState.visit site cacheRoot state entity)
    rw [List.foldl_cons, ← hschedule]
    cases hcached : Storage.isCached state.tree cacheRoot entity with
    | true =>
      refine ⟨.fetch :: schedule, ?_⟩
      simp [run, step, FetchStage.step, FetchState.visit, hcached]
    | false =>
      cases hfetch : site.fetch entity.url with
      | error e =>
        refine ⟨.fetch :: .fetch :: schedule, ?_⟩
        simp [run, step, FetchStage.step, FetchState.visit, hcached, hfetch,
          FetchStage.download_of_error hfetch]
      | ok body =>
        refine ⟨.fetch :: .fetch :: .fetch :: schedule, ?_⟩
        simp [run, step, FetchStage.step, FetchState.visit, hcached, hfetch,
          FetchStage.download_of_ok hfetch]

/-- The limits of a parse stage that follows the fetch stage. -/
def afterFetch : ParseLimits := ⟨none, some true⟩

section Turn

/-! A turn taken after the fetch stage has returned is made of steps of the parse stage. -/

variable {fetch : FetchState} {state next : ParseState} {left : Tree}
  (site : Site) (translations : List Translation)

theorem ended_alone
    (h : takeTurn cacheRoot outRoot afterFetch state fetch.tree = .ended next left) :
    ∃ schedule,
      run site cacheRoot outRoot schedule ⟨⟨.returned, fetch⟩, .turn state, translations⟩ =
      ⟨⟨.returned, { fetch with tree := left }⟩, .returned next.close, translations⟩ := by
  cases hqueue : state.queue with
  | nil =>
    simp only [takeTurn, hqueue, Turn.ended.injEq] at h
    obtain ⟨rfl, rfl⟩ := h
    exact ⟨[.parse], by simp [run, step, parseStep, hqueue]⟩
  | cons entity rest =>
    cases hcached : Storage.isCached fetch.tree cacheRoot entity with
    | true => simp [takeTurn, hqueue, afterFetch, hcached] at h
    | false =>
      cases hgivesUp : state.countTurn.givesUp rest with
      | true =>
        simp only [takeTurn, hqueue, afterFetch, Option.any_none, Bool.false_eq_true, if_false,
          hcached, hgivesUp, if_true, Turn.ended.injEq] at h
        obtain ⟨rfl, rfl⟩ := h
        exact ⟨[.parse, .parse], by simp [run, step, parseStep, tree, hqueue, hcached, hgivesUp]⟩
      | false => simp [takeTurn, hqueue, afterFetch, hcached, hgivesUp] at h

theorem taken_alone
    (h : takeTurn cacheRoot outRoot afterFetch state fetch.tree = .taken next left) :
    ∃ schedule translations',
      run site cacheRoot outRoot schedule ⟨⟨.returned, fetch⟩, .turn state, translations⟩ =
        ⟨⟨.returned, { fetch with tree := left }⟩, .turn next, translations'⟩ := by
  cases hqueue : state.queue with
  | nil => simp [takeTurn, hqueue] at h
  | cons entity rest =>
    cases hcached : Storage.isCached fetch.tree cacheRoot entity with
    | true =>
      simp only [takeTurn, hqueue, afterFetch, Option.any_none, Bool.false_eq_true, if_false,
        hcached, if_true, Turn.taken.injEq] at h
      obtain ⟨rfl, rfl⟩ := h
      refine ⟨[.parse, .parse, .parse],
        translations ++ [⟨entity, fetch.tree.readText (entity.cachePath cacheRoot)⟩], ?_⟩
      simp only [run, List.foldl_cons, List.foldl_nil, step, parseStep, tree, hqueue, hcached,
        if_true]
      rfl
    | false =>
      cases hgivesUp : state.countTurn.givesUp rest with
      | true => simp [takeTurn, hqueue, afterFetch, hcached, hgivesUp] at h
      | false =>
        simp only [takeTurn, hqueue, afterFetch, Option.any_none, Bool.false_eq_true, if_false,
          hcached, hgivesUp, Turn.taken.injEq] at h
        obtain ⟨rfl, rfl⟩ := h
        refine ⟨[.parse, .parse], translations, ?_⟩
        simp [run, step, parseStep, tree, hqueue, hcached, hgivesUp, FetchStage.isEnded,
          ParseLimits.fetchFinished]

end Turn

theorem turns_alone (site : Site) (turns : Nat) (fetch : FetchState) (state : ParseState)
    (translations : List Translation)
    (hended : (takeTurns cacheRoot outRoot afterFetch turns state fetch.tree).ended = true) :
    ∃ schedule translations',
      run site cacheRoot outRoot schedule ⟨⟨.returned, fetch⟩, .turn state, translations⟩ =
        ⟨⟨.returned, { fetch with
            tree := (takeTurns cacheRoot outRoot afterFetch turns state fetch.tree).tree }⟩,
          .returned (takeTurns cacheRoot outRoot afterFetch turns state fetch.tree).state.close,
          translations'⟩ := by
  induction turns generalizing fetch state translations with
  | zero => simp [takeTurns] at hended
  | succ turns ih =>
    rw [takeTurns] at hended ⊢
    cases hturn : takeTurn cacheRoot outRoot afterFetch state fetch.tree with
    | ended next left =>
      obtain ⟨schedule, hschedule⟩ := ended_alone site translations hturn
      exact ⟨schedule, translations, hschedule⟩
    | taken next left =>
      simp only [hturn] at hended ⊢
      obtain ⟨schedule, middle, hschedule⟩ := taken_alone site translations hturn
      obtain ⟨rest, translations', hrest⟩ :=
        ih { fetch with tree := left } next middle hended
      exact ⟨schedule ++ rest, translations', by rw [run_append, hschedule, hrest]⟩

/-- Enough turns for a queue whose entities have been put back `idle` times in a row. -/
def turnsFor (queued idle : Nat) : Nat := queued * queued + (queued - idle) + 1

theorem square_succ (count : Nat) :
    (count + 1) * (count + 1) = count * count + count + count + 1 := by
  simp only [Nat.add_mul, Nat.mul_add]
  omega

theorem takeTurns_ended (turns : Nat) (state : ParseState) (tree : Tree)
    (hfinished : state.finishedAtStart = true)
    (hturns : turnsFor state.queue.length state.idle ≤ turns) :
    (takeTurns cacheRoot outRoot afterFetch turns state tree).ended = true := by
  induction turns generalizing state tree with
  | zero => simp [turnsFor] at hturns
  | succ turns ih =>
    rw [takeTurns]
    cases hqueue : state.queue with
    | nil => simp [takeTurn, hqueue]
    | cons entity rest =>
      rw [hqueue, List.length_cons, turnsFor] at hturns
      cases hcached : Storage.isCached tree cacheRoot entity with
      | true =>
        simp only [takeTurn, hqueue, afterFetch, Option.any_none, Bool.false_eq_true, if_false,
          hcached, if_true]
        refine ih _ _ (by simp [ParseLimits.fetchFinished]) ?_
        simp only [ParseState.queue_retire, ParseState.idle_retire, turnsFor]
        rw [square_succ] at hturns
        omega
      | false =>
        cases hgivesUp : state.countTurn.givesUp rest with
        | true => simp [takeTurn, hqueue, afterFetch, hcached, hgivesUp]
        | false =>
          simp only [takeTurn, hqueue, afterFetch, Option.any_none, Bool.false_eq_true, if_false,
            hcached, hgivesUp]
          have hidle : state.idle < rest.length := by
            simpa [ParseState.givesUp, ParseState.countTurn, hfinished] using hgivesUp
          have hstill : ¬ rest.length ≤ state.countTurn.idle := Nat.not_le.mpr hidle
          refine ih _ _ ?_ ?_
          · rw [ParseState.postpone, if_neg hstill]
            exact hfinished
          · rw [ParseState.postpone, if_neg hstill]
            simp only [List.length_append, List.length_singleton, ParseState.countTurn, turnsFor]
            omega

theorem parseAll_ended (cacheRoot outRoot : Path) (refs : List Entity) (tree : Tree) :
    (parseAll cacheRoot outRoot afterFetch refs tree).ended = true := by
  refine takeTurns_ended _ _ _ rfl ?_
  simp only [turnsFor, ParseState.start, ParseLimits.turnBound, afterFetch, square_succ]
  omega

/-- That the parse stage follows the fetch stage is one of the interleavings. -/
theorem run_sequential (site : Site) (cacheRoot outRoot : Path) (refs : List Entity)
    (tree : Tree) :
    ∃ schedule translations,
      run site cacheRoot outRoot schedule (start refs tree) =
        ⟨⟨.returned, { fetchAll site cacheRoot refs tree with
            tree := (parseAll cacheRoot outRoot afterFetch refs
              (fetchAll site cacheRoot refs tree).tree).tree }⟩,
          .returned (parseAll cacheRoot outRoot afterFetch refs
            (fetchAll site cacheRoot refs tree).tree).state, translations⟩ := by
  obtain ⟨first, hfirst⟩ := fetch_alone site cacheRoot outRoot refs (.start refs.length tree)
    (.begin refs) []
  obtain ⟨second, translations, hsecond⟩ := turns_alone site _
    (fetchAll site cacheRoot refs tree) (.start refs true) []
    (parseAll_ended cacheRoot outRoot refs (fetchAll site cacheRoot refs tree).tree)
  refine ⟨first ++ .parse :: second, translations, ?_⟩
  rw [run_append, start, hfirst]
  exact hsecond

end Joint

end ClassSkeleton
