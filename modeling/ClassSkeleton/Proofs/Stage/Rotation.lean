import ClassSkeleton.Proofs.Stage.Interleaving
import ClassSkeleton.Proofs.Stage.Work

/-!
What is true of the parse stage at each of its points, whatever the fetch stage does between them.
Entities leave the queue only with a page in the cache. A rotation that began after the end of the
fetch stage has found no page for any entity that it put back, and none can come any more; so when
the stage gives up, nothing that is still queued has a page.
-/
namespace ClassSkeleton

/-- What the parse stage has to reckon with: which pages are in the cache, what becomes of an
entity whose skeleton is built, and whether the fetch stage is over. -/
structure Prospect where
  cached : Entity → Bool
  verdict : Entity → Verdict
  ended : Bool

def ParseReport.under (report : ParseReport) : Verdict → List Text
  | .written => report.written
  | .notImplemented => report.notImplemented
  | .failed => report.failed

def Prospect.names (prospect : Prospect) (entities : List Entity) (verdict : Verdict) : List Text :=
  (entities.filter fun entity => prospect.verdict entity == verdict).map (·.name)

/-- Every ref has left the queue, and is in the report, or is still in it. -/
structure Prospect.Accounts (prospect : Prospect) (refs entities queue : List Entity)
    (report : ParseReport) : Prop where
  perm : (entities ++ queue).Perm refs
  under : ∀ verdict, report.under verdict = prospect.names entities verdict

/-- What has been put back since a rotation began has no page, if the rotation began after the end
of the fetch stage. -/
def Prospect.Rotates (prospect : Prospect) (state : ParseState) (queue : List Entity) : Prop :=
  state.finishedAtStart = true → prospect.ended = true ∧
    ∀ entity ∈ queue.drop (queue.length - state.idle), prospect.cached entity = false

/-- What is true at a point when `entities` have left the queue. -/
def Prospect.HoldsAt (prospect : Prospect) (refs entities : List Entity) : ParsePoint → Prop
  | .begin queue => queue = refs ∧ entities = []
  | .turn state =>
    prospect.Accounts refs entities state.queue state.report ∧ prospect.Rotates state state.queue
  | .missing state entity rest =>
    prospect.Accounts refs entities (entity :: rest) state.report ∧
      prospect.Rotates state (entity :: rest) ∧
      (state.finishedAtStart = true → prospect.cached entity = false)
  | .found state entity rest =>
    prospect.Accounts refs entities (entity :: rest) state.report ∧ prospect.cached entity = true
  | .ready state entity rest finished =>
    prospect.Accounts refs entities (entity :: rest) state.report ∧
      prospect.cached entity = true ∧ (finished = true → prospect.ended = true)
  | .returned state =>
    prospect.Accounts refs entities state.queue state.report ∧
      (∀ entity ∈ state.queue, prospect.ended = true ∧ prospect.cached entity = false) ∧
      state.report.pending = state.queue.map (·.name)

namespace Prospect

variable {prospect next : Prospect} {refs entities queue rest : List Entity} {entity : Entity}
  {state : ParseState} {report : ParseReport} {finished : Bool}

theorem names_congr (h : ∀ entity ∈ entities, next.verdict entity = prospect.verdict entity)
    (verdict : Verdict) : next.names entities verdict = prospect.names entities verdict := by
  rw [names, names]
  congr 1
  exact List.filter_congr fun entity hmem => by rw [h entity hmem]

theorem names_concat (entities : List Entity) (entity : Entity) (verdict : Verdict) :
    prospect.names (entities ++ [entity]) verdict = prospect.names entities verdict ++
      if prospect.verdict entity = verdict then [entity.name] else [] := by
  rw [names, names, List.filter_append, List.map_append, List.append_cancel_left_eq]
  by_cases h : prospect.verdict entity = verdict
  · simp [h]
  · simp [h]

theorem Accounts.congr (h : prospect.Accounts refs entities queue report)
    (hverdict : ∀ entity ∈ entities, next.verdict entity = prospect.verdict entity) :
    next.Accounts refs entities queue report :=
  ⟨h.perm, fun verdict => (h.under verdict).trans (names_congr hverdict verdict).symm⟩

theorem Accounts.mem (h : prospect.Accounts refs entities queue report) (hmem : entity ∈ queue) :
    entity ∈ refs := h.perm.subset (List.mem_append_right _ hmem)

theorem Accounts.putBack (h : prospect.Accounts refs entities (entity :: rest) report) :
    prospect.Accounts refs entities (rest ++ [entity]) report :=
  ⟨((List.perm_append_singleton entity rest).append_left entities).trans h.perm, h.under⟩

theorem Accounts.retire (h : prospect.Accounts refs entities (entity :: rest) state.report)
    {outcome : Except Failure Outcome} (hverdict : Verdict.of outcome = prospect.verdict entity)
    (log : List LogEntry) :
    prospect.Accounts refs (entities ++ [entity]) rest
      (({ state with log }).retire entity rest finished outcome).report := by
  refine ⟨by simpa using h.perm, fun verdict => ?_⟩
  rw [names_concat, ← hverdict, ← h.under verdict]
  rcases outcome with e | (_ | kind)
  · cases verdict <;> simp [Verdict.of, ParseState.retire, ParseReport.under]
  · cases verdict <;> simp [Verdict.of, ParseState.retire, ParseReport.under]
  · cases verdict <;> simp [Verdict.of, ParseState.retire, ParseReport.under]

/-- As long as the fetch stage is not over, new pages and its end change nothing. -/
theorem HoldsAt.mono {point : ParsePoint} (h : prospect.HoldsAt refs entities point)
    (hended : prospect.ended = false)
    (hcached : ∀ entity ∈ refs, prospect.cached entity = true → next.cached entity = true)
    (hverdict : ∀ entity ∈ entities, next.verdict entity = prospect.verdict entity) :
    next.HoldsAt refs entities point := by
  have hnot : prospect.ended ≠ true := by simp [hended]
  have hrotates : ∀ state queue, prospect.Rotates state queue → next.Rotates state queue :=
    fun state queue hrotates hfinished => absurd (hrotates hfinished).1 hnot
  cases point with
  | begin queue => exact h
  | turn state => exact ⟨h.1.congr hverdict, hrotates _ _ h.2⟩
  | missing state entity rest =>
    obtain ⟨haccounts, hrotation, -⟩ := h
    exact ⟨haccounts.congr hverdict, hrotates _ _ hrotation, fun hfinished =>
      absurd (hrotation hfinished).1 hnot⟩
  | found state entity rest =>
    exact ⟨h.1.congr hverdict, hcached _ (h.1.mem List.mem_cons_self) h.2⟩
  | ready state entity rest finished =>
    obtain ⟨haccounts, hpage, hflag⟩ := h
    exact ⟨haccounts.congr hverdict, hcached _ (haccounts.mem List.mem_cons_self) hpage,
      fun hfinished => absurd (hflag hfinished) hnot⟩
  | returned state =>
    obtain ⟨haccounts, hleft, hpending⟩ := h
    exact ⟨haccounts.congr hverdict, fun entity hmem => absurd (hleft entity hmem).1 hnot, hpending⟩

section Steps

/-! From one point to the next. -/

theorem holdsAt_start (refs : List Entity) :
    prospect.HoldsAt refs [] (.turn (.start refs prospect.ended)) := by
  refine ⟨⟨by simp [ParseState.start], fun verdict => ?_⟩, fun hfinished => ⟨hfinished, ?_⟩⟩
  · cases verdict <;> rfl
  · simp [ParseState.start]

theorem HoldsAt.close (haccounts : prospect.Accounts refs entities state.queue state.report)
    (hleft : ∀ entity ∈ state.queue, prospect.ended = true ∧ prospect.cached entity = false) :
    prospect.HoldsAt refs entities (.returned state.close) := by
  refine ⟨⟨haccounts.perm, fun verdict => ?_⟩, hleft, rfl⟩
  rw [← haccounts.under verdict]
  cases verdict <;> rfl

theorem Accounts.countTurn (h : prospect.Accounts refs entities queue state.report) :
    prospect.Accounts refs entities queue state.countTurn.report := by
  refine ⟨h.perm, fun verdict => ?_⟩
  rw [← h.under verdict]
  cases verdict <;> rfl

theorem HoldsAt.find (h : prospect.HoldsAt refs entities (.turn state))
    (hqueue : state.queue = entity :: rest) (hcached : prospect.cached entity = true) :
    prospect.HoldsAt refs entities (.found state.countTurn entity rest) := by
  obtain ⟨haccounts, -⟩ := h
  rw [hqueue] at haccounts
  exact ⟨haccounts.countTurn, hcached⟩

theorem HoldsAt.miss (h : prospect.HoldsAt refs entities (.turn state))
    (hqueue : state.queue = entity :: rest) (hcached : prospect.cached entity = false) :
    prospect.HoldsAt refs entities (.missing state.countTurn entity rest) := by
  obtain ⟨haccounts, hrotates⟩ := h
  rw [hqueue] at haccounts hrotates
  exact ⟨haccounts.countTurn, hrotates, fun _ => hcached⟩

/-- Giving up leaves nothing behind that has a page. -/
theorem HoldsAt.giveUp (h : prospect.HoldsAt refs entities (.missing state entity rest))
    (hgivesUp : state.givesUp rest = true) :
    prospect.HoldsAt refs entities
      (.returned ({ state with queue := rest ++ [entity], idle := state.idle + 1 }.close)) := by
  obtain ⟨haccounts, hrotates, hentity⟩ := h
  obtain ⟨hidle, hfinished⟩ : rest.length ≤ state.idle ∧ state.finishedAtStart = true := by
    simpa [ParseState.givesUp] using hgivesUp
  obtain ⟨hended, hrest⟩ := hrotates hfinished
  refine HoldsAt.close haccounts.putBack fun other hother => ⟨hended, ?_⟩
  rcases List.mem_append.mp hother with hother | hother
  · -- A whole rotation has put back all of the others.
    have hdrop : (entity :: rest).length - state.idle ≤ 1 := by
      simp only [List.length_cons]
      omega
    exact hrest other (List.drop_subset_drop_left (entity :: rest) hdrop hother)
  · rw [List.mem_singleton.mp hother]
    exact hentity hfinished

/-- Putting an entity back continues the rotation or begins another one. -/
theorem HoldsAt.postpone (h : prospect.HoldsAt refs entities (.missing state entity rest)) :
    prospect.HoldsAt refs entities (.turn (state.postpone entity rest prospect.ended)) := by
  obtain ⟨haccounts, hrotates, hentity⟩ := h
  unfold ParseState.postpone
  split
  · exact ⟨haccounts.putBack, fun hfinished => ⟨hfinished, by simp⟩⟩
  · rename_i hidle
    refine ⟨haccounts.putBack, fun hfinished => ?_⟩
    obtain ⟨hended, hrest⟩ := hrotates hfinished
    refine ⟨hended, fun other hother => ?_⟩
    have hlate : rest.length + 1 - (state.idle + 1) ≤ rest.length := by omega
    simp only [List.length_append, List.length_singleton,
      List.drop_append_of_le_length hlate] at hother
    rcases List.mem_append.mp hother with hother | hother
    · refine hrest other ?_
      have hfront : (entity :: rest).length - state.idle =
          rest.length + 1 - (state.idle + 1) + 1 := by
        simp only [List.length_cons]
        omega
      rwa [hfront, List.drop_succ_cons]
    · rw [List.mem_singleton.mp hother]
      exact hentity hfinished

theorem HoldsAt.load (h : prospect.HoldsAt refs entities (.found state entity rest)) :
    prospect.HoldsAt refs entities (.ready state entity rest prospect.ended) :=
  ⟨h.1, h.2, fun hfinished => hfinished⟩

theorem HoldsAt.build (h : prospect.HoldsAt refs entities (.ready state entity rest finished))
    {outcome : Except Failure Outcome} (hverdict : Verdict.of outcome = prospect.verdict entity)
    (log : List LogEntry) :
    prospect.HoldsAt refs (entities ++ [entity])
      (.turn (({ state with log }).retire entity rest finished outcome)) := by
  obtain ⟨haccounts, -, hflag⟩ := h
  refine ⟨?_, fun hfinished => ⟨hflag (by simpa using hfinished), by simp⟩⟩
  rw [ParseState.queue_retire]
  exact haccounts.retire hverdict log

end Steps

/-- At the end everything with a page has left the queue, and the rest is pending. -/
theorem HoldsAt.settled (h : prospect.HoldsAt refs entities (.returned state))
    (hcached : ∀ entity ∈ entities, prospect.cached entity = true) :
    entities.Perm (refs.filter prospect.cached) ∧
      state.report.pending.Perm
        ((refs.filter fun entity => !prospect.cached entity).map (·.name)) := by
  obtain ⟨haccounts, hleft, hpending⟩ := h
  have hmissing : ∀ entity ∈ state.queue, prospect.cached entity = false :=
    fun entity hmem => (hleft entity hmem).2
  constructor
  · have hfilter := haccounts.perm.filter prospect.cached
    rwa [List.filter_append, List.filter_eq_self.mpr hcached,
      List.filter_eq_nil_iff.mpr (fun entity hmem => by simp [hmissing entity hmem]),
      List.append_nil] at hfilter
  · have hfilter := haccounts.perm.filter fun entity => !prospect.cached entity
    rw [List.filter_append,
      List.filter_eq_nil_iff.mpr (fun entity hmem => by simp [hcached entity hmem]),
      List.filter_eq_self.mpr (fun entity hmem => by simp [hmissing entity hmem]),
      List.nil_append] at hfilter
    rw [hpending]
    exact hfilter.map _

end Prospect

end ClassSkeleton
