import ClassSkeleton.Proofs.Stage.Rotation

/-!
The books of the parse stage. Other programs may touch the cache at any time, so a turn takes what
it meets as it comes: a page that is there or not, a flag that is up or not, a skeleton that can be
built or not. Whatever that is, every ref leaves the queue at most once and is reported once, with
one event, and what has not left it is pending. A turn against a tree is one that meets what the
tree shows.
-/
namespace ClassSkeleton

/-- What a turn meets at an entity: whether its page is in the cache, what the flag of the fetch
stage shows after that, how the building of its skeleton ends, and what is logged meanwhile. -/
structure Encounter where
  cached : Bool
  finished : Bool
  outcome : Except Failure Outcome
  log : List LogEntry

/-- An entity that has left the queue, and how the building of its skeleton ended. -/
structure Retirement where
  entity : Entity
  outcome : Except Failure Outcome

namespace Retirement

def name (retirement : Retirement) : Text := retirement.entity.name

def verdict (retirement : Retirement) : Verdict := Verdict.of retirement.outcome

def event (retirement : Retirement) : Event :=
  match retirement.outcome with
  | .ok .written => .done retirement.name
  | .ok (.notImplemented _) => .failed retirement.name "not implemented".toList
  | .error e => .failed retirement.name e.message

def under (retired : List Retirement) (verdict : Verdict) : List Text :=
  (retired.filter fun retirement => retirement.verdict == verdict).map name

theorem under_cons (retirement : Retirement) (retired : List Retirement) (verdict : Verdict) :
    under (retirement :: retired) verdict =
      if retirement.verdict = verdict then retirement.name :: under retired verdict
      else under retired verdict := by
  by_cases h : retirement.verdict = verdict <;> simp [under, h]

theorem under_append (first second : List Retirement) (verdict : Verdict) :
    under (first ++ second) verdict = under first verdict ++ under second verdict := by
  simp [under]

theorem under_perm (retired : List Retirement) :
    (under retired .written ++ under retired .notImplemented ++ under retired .failed).Perm
      (retired.map name) := by
  induction retired with
  | nil => exact .nil
  | cons retirement retired ih =>
    simp only [under_cons, List.map_cons, List.append_assoc] at ih ⊢
    cases retirement.verdict with
    | written => simpa using ih
    | notImplemented => simpa using List.perm_middle.trans (ih.cons _)
    | failed =>
      simp only [reduceCtorEq, if_false, if_true]
      rw [← List.append_assoc]
      refine List.perm_middle.trans (.cons _ ?_)
      rwa [List.append_assoc]

end Retirement

/-- `whole` holds the items of both lists, and those of each list in their order. -/
inductive Merges {α : Type} : List α → List α → List α → Prop
  | nil : Merges [] [] []
  | left {first second whole : List α} (item : α) (h : Merges first second whole) :
      Merges (item :: first) second (item :: whole)
  | right {first second whole : List α} (item : α) (h : Merges first second whole) :
      Merges first (item :: second) (item :: whole)

/-- A tally of the events of those that left takes up the names of the written as done and the
others, refused or failed, as failed. -/
theorem Tally.foldl_retired (retired : List Retirement) (tally : Tally) :
    ∃ failed, Merges (Retirement.under retired .notImplemented) (Retirement.under retired .failed)
        failed ∧
      (retired.map Retirement.event).foldl add tally =
        { tally with done := tally.done ++ Retirement.under retired .written
                     failed := tally.failed ++ failed } := by
  induction retired generalizing tally with
  | nil => exact ⟨[], .nil, by simp [Retirement.under]⟩
  | cons retirement retired ih =>
    obtain ⟨failed, hmerges, hfold⟩ := ih (tally.add retirement.event)
    simp only [Retirement.under_cons, List.map_cons, List.foldl_cons, hfold]
    rcases hout : retirement.outcome with e | (_ | kind)
    · refine ⟨retirement.name :: failed, ?_, ?_⟩
      · simpa [Retirement.verdict, hout, Verdict.of] using hmerges.right retirement.name
      · simp [Retirement.verdict, Retirement.event, hout, Verdict.of, add]
    · refine ⟨failed, ?_, ?_⟩
      · simpa [Retirement.verdict, hout, Verdict.of] using hmerges
      · simp [Retirement.verdict, Retirement.event, hout, Verdict.of, add]
    · refine ⟨retirement.name :: failed, ?_, ?_⟩
      · simpa [Retirement.verdict, hout, Verdict.of] using hmerges.left retirement.name
      · simp [Retirement.verdict, Retirement.event, hout, Verdict.of, add]

namespace ParseState

/-- How a turn goes. -/
inductive Move where
  | ends (last : ParseState)
  | waits (next : ParseState)
  | retires (retirement : Retirement) (next : ParseState)

def Move.retired : Move → List Retirement
  | .retires retirement _ => [retirement]
  | _ => []

def Move.state : Move → ParseState
  | .ends state | .waits state | .retires _ state => state

/-- A turn against whatever the entity in front meets. -/
def move (maxTurns : Option Nat) (state : ParseState) (met : Entity → Encounter) : Move :=
  match state.queue with
  | [] => .ends state
  | entity :: rest =>
    if maxTurns.any fun cap => cap ≤ state.report.turns then .ends state
    else
      let state := state.countTurn
      if (met entity).cached then
        .retires ⟨entity, (met entity).outcome⟩
          (({ state with log := state.log ++ (met entity).log }).retire entity rest
            (met entity).finished (met entity).outcome)
      else if state.givesUp rest then
        .ends { state with queue := rest ++ [entity], idle := state.idle + 1 }
      else .waits (state.postpone entity rest (met entity).finished)

/-- The turns of a stage, each against what it meets: who leaves the queue, and the state in which
the stage ends, if that comes to pass. -/
def course (maxTurns : Option Nat) :
    List (Entity → Encounter) → ParseState → Option (List Retirement × ParseState)
  | [], _ => none
  | met :: later, state =>
    match state.move maxTurns met with
    | .ends last => some ([], last)
    | .waits next => course maxTurns later next
    | .retires retirement next =>
      (course maxTurns later next).map fun ended => (retirement :: ended.1, ended.2)

section Shown

/-! What a turn against a tree meets. -/

variable (cacheRoot outRoot : Path) (limits : ParseLimits)

/-- What a tree shows of an entity. -/
def shown (tree : Tree) (entity : Entity) : Encounter :=
  let built := buildCached cacheRoot outRoot entity tree
  ⟨Storage.isCached tree cacheRoot entity, limits.fetchFinished, built.outcome, built.log⟩

/-- The turn a move stands for; an entity that leaves the queue leaves its skeleton in the tree. -/
def Move.turn (tree : Tree) : Move → Turn
  | .ends last => .ended last tree
  | .waits next => .taken next tree
  | .retires retirement next =>
    .taken next (buildCached cacheRoot outRoot retirement.entity tree).tree

/-- A turn against a tree is a move that meets what the tree shows. -/
theorem takeTurn_eq_move (state : ParseState) (tree : Tree) :
    takeTurn cacheRoot outRoot limits state tree =
      (state.move limits.maxTurns (shown cacheRoot outRoot limits tree)).turn
        cacheRoot outRoot tree := by
  rw [takeTurn, move]
  cases state.queue with
  | nil => rfl
  | cons entity rest =>
    simp only [shown]
    by_cases hcap : (limits.maxTurns.any fun cap => cap ≤ state.report.turns) = true
    · simp only [hcap, if_true, Move.turn]
    · by_cases hcached : Storage.isCached tree cacheRoot entity = true
      · simp only [hcap, hcached, if_true, if_false, Bool.false_eq_true, Move.turn]
      · by_cases hgivesUp : state.countTurn.givesUp rest = true
        · simp only [hcap, hcached, hgivesUp, if_true, if_false, Bool.false_eq_true, Move.turn]
        · simp only [hcap, hcached, hgivesUp, if_false, Bool.false_eq_true, Move.turn]

variable {cacheRoot outRoot limits}

theorem exists_course {turns : Nat} {state : ParseState} {tree : Tree}
    (hended : (takeTurns cacheRoot outRoot limits turns state tree).ended = true) :
    ∃ mets retired, course limits.maxTurns mets state =
      some (retired, (takeTurns cacheRoot outRoot limits turns state tree).state) := by
  induction turns generalizing state tree with
  | zero => simp [takeTurns] at hended
  | succ turns ih =>
    rw [takeTurns, takeTurn_eq_move] at hended ⊢
    cases hmove : state.move limits.maxTurns (shown cacheRoot outRoot limits tree) with
    | ends last =>
      exact ⟨[shown cacheRoot outRoot limits tree], [], by rw [course, hmove]; rfl⟩
    | waits next =>
      rw [hmove] at hended
      obtain ⟨later, retired, hlater⟩ := ih hended
      exact ⟨shown cacheRoot outRoot limits tree :: later, retired, by
        rw [course, hmove]
        exact hlater⟩
    | retires retirement next =>
      rw [hmove] at hended
      obtain ⟨later, retired, hlater⟩ := ih hended
      exact ⟨shown cacheRoot outRoot limits tree :: later, retirement :: retired, by
        rw [course, hmove]
        simp only [hlater, Option.map_some, Move.turn]⟩

end Shown

/-- What lies between two states of a stage: the entities that have left the queue meanwhile are
in the report, each with its event, and each took a turn within the cap. -/
structure Balance (maxTurns : Option Nat) (before : ParseState) (retired : List Retirement)
    (after : ParseState) : Prop where
  queue : (retired.map (·.entity) ++ after.queue).Perm before.queue
  under : ∀ verdict, after.report.under verdict =
    before.report.under verdict ++ Retirement.under retired verdict
  events : after.events = before.events ++ retired.map Retirement.event
  turns : before.report.turns + retired.length ≤ after.report.turns
  capped : ∀ cap ∈ maxTurns, before.report.turns ≤ cap → after.report.turns ≤ cap

namespace Balance

variable {maxTurns : Option Nat} {before middle after : ParseState}
  {first second : List Retirement} {entity : Entity} {rest : List Entity}

theorem trans (h : Balance maxTurns before first middle)
    (hthen : Balance maxTurns middle second after) :
    Balance maxTurns before (first ++ second) after where
  queue := by
    rw [List.map_append, List.append_assoc]
    exact (hthen.queue.append_left _).trans h.queue
  under verdict := by
    rw [hthen.under, h.under, List.append_assoc, Retirement.under_append]
  events := by rw [hthen.events, h.events, List.append_assoc, List.map_append]
  turns := by
    have hfirst := h.turns
    have hsecond := hthen.turns
    rw [List.length_append]
    omega
  capped cap hcap hle := hthen.capped cap hcap (h.capped cap hcap hle)

theorem of_perm (hqueue : after.queue.Perm before.queue)
    (hreport : ∀ verdict, after.report.under verdict = before.report.under verdict)
    (hevents : after.events = before.events) (hturns : before.report.turns ≤ after.report.turns)
    (hcapped : ∀ cap ∈ maxTurns, before.report.turns ≤ cap → after.report.turns ≤ cap) :
    Balance maxTurns before [] after where
  queue := hqueue
  under verdict := by simp [hreport verdict, Retirement.under]
  events := by simp [hevents]
  turns := hturns
  capped := hcapped

theorem refl (state : ParseState) : Balance maxTurns state [] state :=
  of_perm (.refl _) (fun _ => rfl) rfl (Nat.le_refl _) fun _ _ hle => hle

theorem rotate (hqueue : before.queue = entity :: rest)
    (hafter : after.queue = rest ++ [entity])
    (hreport : after.report = { before.report with turns := before.report.turns + 1 })
    (hevents : after.events = before.events)
    (hroom : ∀ cap ∈ maxTurns, before.report.turns < cap) :
    Balance maxTurns before [] after := by
  refine of_perm ?_ (fun verdict => ?_) hevents ?_ fun cap hcap _ => ?_
  · rw [hqueue, hafter]
    exact List.perm_append_singleton entity rest
  · rw [hreport]
    cases verdict <;> rfl
  · rw [hreport]
    exact Nat.le_succ _
  · rw [hreport]
    exact hroom cap hcap

theorem retire (hqueue : before.queue = entity :: rest) (log : List LogEntry) (finished : Bool)
    (outcome : Except Failure Outcome) (hroom : ∀ cap ∈ maxTurns, before.report.turns < cap) :
    Balance maxTurns before [⟨entity, outcome⟩]
      (({ before.countTurn with log := log }).retire entity rest finished outcome) where
  queue := by
    rw [hqueue]
    rcases outcome with e | (_ | kind) <;> exact .refl _
  under verdict := by
    rcases outcome with e | (_ | kind) <;> cases verdict <;>
      simp [ParseState.retire, ParseReport.under, Retirement.under, Retirement.verdict,
        Retirement.name, Verdict.of, countTurn]
  events := by
    rcases outcome with e | (_ | kind) <;> rfl
  turns := by
    rcases outcome with e | (_ | kind) <;> exact Nat.le_refl _
  capped cap hcap _ := by
    have hlt := hroom cap hcap
    rcases outcome with e | (_ | kind) <;> exact hlt

end Balance

variable {maxTurns : Option Nat}

/-- A turn keeps the books, however it goes. -/
theorem move_balances (state : ParseState) (met : Entity → Encounter) :
    Balance maxTurns state (state.move maxTurns met).retired (state.move maxTurns met).state := by
  rw [move]
  cases hqueue : state.queue with
  | nil => exact .refl state
  | cons entity rest =>
    by_cases hcap : (maxTurns.any fun cap => cap ≤ state.report.turns) = true
    · simp only [hcap, if_true]
      exact .refl state
    have hroom : ∀ cap ∈ maxTurns, state.report.turns < cap := by
      intro cap hmem
      obtain rfl := hmem
      simpa using hcap
    by_cases hcached : (met entity).cached = true
    · simp only [hcap, hcached, if_true, if_false, Bool.false_eq_true]
      exact .retire hqueue _ _ _ hroom
    by_cases hgivesUp : state.countTurn.givesUp rest = true
    · simp only [hcap, hcached, hgivesUp, if_true, if_false, Bool.false_eq_true]
      exact .rotate hqueue rfl rfl rfl hroom
    · simp only [hcap, hcached, hgivesUp, if_false, Bool.false_eq_true]
      -- Whether a new rotation begins changes the count of those put back, not the books.
      have hpostpone : ∀ finished, Balance maxTurns state []
          (state.countTurn.postpone entity rest finished) := by
        intro finished
        rw [postpone]
        split
        · exact .rotate hqueue rfl rfl rfl hroom
        · exact .rotate hqueue rfl rfl rfl hroom
      exact hpostpone _

theorem course_balances {mets : List (Entity → Encounter)} {state last : ParseState}
    {retired : List Retirement} (h : course maxTurns mets state = some (retired, last)) :
    Balance maxTurns state retired last := by
  induction mets generalizing state retired with
  | nil => cases h
  | cons met later ih =>
    have hmove : Balance maxTurns state (state.move maxTurns met).retired
        (state.move maxTurns met).state := move_balances state met
    rw [course] at h
    cases hmet : state.move maxTurns met with
    | ends closed =>
      rw [hmet] at h hmove
      obtain ⟨rfl, rfl⟩ := Prod.mk.inj (Option.some.inj h)
      exact hmove
    | waits next =>
      rw [hmet] at h hmove
      exact hmove.trans (ih h)
    | retires retirement next =>
      rw [hmet] at h hmove
      obtain ⟨⟨gone, state'⟩, hlater, heq⟩ := Option.map_eq_some_iff.mp h
      obtain ⟨rfl, rfl⟩ := Prod.mk.inj heq
      exact hmove.trans (ih hlater)

end ParseState

/-- The books of a stage over `refs` that has returned: what it reports, and what it has told the
display of progress. -/
structure Books (maxTurns : Option Nat) (refs : List Entity) (retired : List Retirement)
    (report : ParseReport) (events : List Event) : Prop where
  names : (report.written ++ report.notImplemented ++ report.failed ++ report.pending).Perm
    (refs.map (·.name))
  count : retired.length =
    report.written.length + report.notImplemented.length + report.failed.length
  turns : retired.length ≤ report.turns
  capped : ∀ cap ∈ maxTurns, report.turns ≤ cap
  under : ∀ verdict, report.under verdict = Retirement.under retired verdict
  told : events = .begin refs.length :: retired.map Retirement.event ++ [.finish]
  done : (Tally.ofEvents events).done = report.written
  refused : Merges report.notImplemented report.failed (Tally.ofEvents events).failed

namespace ParseState

variable {maxTurns : Option Nat} {refs : List Entity} {finished : Bool}
  {retired : List Retirement} {last : ParseState}

theorem Balance.books (h : Balance maxTurns (.start refs finished) retired last) :
    Books maxTurns refs retired last.close.report last.close.events := by
  have hunder : ∀ verdict, last.close.report.under verdict =
      Retirement.under retired verdict := by
    intro verdict
    have hverdict := h.under verdict
    cases verdict with
    | written => exact hverdict
    | notImplemented => exact hverdict
    | failed => exact hverdict
  have htold : last.close.events =
      .begin refs.length :: retired.map Retirement.event ++ [.finish] :=
    congrArg (· ++ [Event.finish]) h.events
  have hperm : (last.close.report.written ++ last.close.report.notImplemented ++
      last.close.report.failed).Perm (retired.map Retirement.name) := by
    have hretired := Retirement.under_perm retired
    rwa [← hunder, ← hunder, ← hunder] at hretired
  obtain ⟨failed, hmerges, hfold⟩ :=
    Tally.foldl_retired retired (Tally.empty.add (.begin refs.length))
  have htally : Tally.ofEvents last.close.events =
      ⟨refs.length, Retirement.under retired .written, failed, true⟩ := by
    rw [htold, Tally.ofEvents, List.cons_append, List.foldl_cons, List.foldl_append, hfold]
    rfl
  refine ⟨?names, ?count, ?turns, fun cap hcap => h.capped cap hcap (Nat.zero_le cap), hunder,
    htold, ?done, ?refused⟩
  case names =>
    have hqueue := h.queue.map (·.name)
    rw [List.map_append, List.map_map] at hqueue
    exact (hperm.append_right _).trans hqueue
  case count =>
    have hlength := hperm.length_eq
    rw [List.length_append, List.length_append, List.length_map] at hlength
    exact hlength.symm
  case turns =>
    have hturns := h.turns
    exact Nat.le_trans (Nat.le_add_left _ _) hturns
  case done =>
    rw [htally]
    exact (hunder .written).symm
  case refused =>
    rw [htally, show last.close.report.notImplemented = _ from hunder .notImplemented,
      show last.close.report.failed = _ from hunder .failed]
    exact hmerges

/-- Whenever a stage returns its books are right, whatever its turns have met. -/
theorem books_of_course {mets : List (Entity → Encounter)}
    (h : course maxTurns mets (.start refs finished) = some (retired, last)) :
    Books maxTurns refs retired last.close.report last.close.events :=
  (course_balances h).books

/-- Three turns on three refs, two of them the same: the first ref waits, the second is written,
and the page of the third turns out broken. Then the cap ends the stage. -/
theorem books_of_three_turns :
    let t : Entity := ⟨"p.T".toList, [], by decide⟩
    let u : Entity := ⟨"p.U".toList, [], by decide⟩
    let wait : Entity → Encounter := fun _ => ⟨false, false, .ok .written, []⟩
    let write : Entity → Encounter := fun _ => ⟨true, false, .ok .written, []⟩
    let broken : Entity → Encounter := fun _ => ⟨true, true, .error (.io .notFound), []⟩
    ∃ retired last,
      course (some 3) [wait, write, broken, wait] (.start [t, u, t] false) = some (retired, last) ∧
      last.close.report = ⟨[u.name], [], [t.name], [t.name], 3⟩ ∧
      Books (some 3) [t, u, t] retired last.close.report last.close.events := by
  intro t u wait write broken
  obtain ⟨retired, last, hcourse, hreport⟩ : ∃ retired last,
      course (some 3) [wait, write, broken, wait] (.start [t, u, t] false) = some (retired, last) ∧
      last.close.report = ⟨[u.name], [], [t.name], [t.name], 3⟩ := ⟨_, _, rfl, rfl⟩
  exact ⟨retired, last, hcourse, hreport, books_of_course hcourse⟩

/-- A stage that nothing disturbs returns with its books right. -/
theorem parseAll_books {cacheRoot outRoot : Path} {limits : ParseLimits} {tree : Tree}
    (hended : (parseAll cacheRoot outRoot limits refs tree).ended = true) :
    ∃ retired, Books limits.maxTurns refs retired
      (parseAll cacheRoot outRoot limits refs tree).state.report
      (parseAll cacheRoot outRoot limits refs tree).state.events := by
  obtain ⟨mets, retired, hcourse⟩ := exists_course hended
  exact ⟨retired, (course_balances hcourse).books⟩

end ParseState

end ClassSkeleton
