import ClassSkeleton.Proofs.Stage.Meddling

/-!
The parse stage after the end of the fetch stage. The flag is only looked at when a rotation begins
or an entity has left the queue, so the stage may learn late that no page will come any more; but
once every queued entity has been in front, what is left has no page, and then the stage needs what
is left of one rotation to look at the flag, and another one to give up.
-/
namespace ClassSkeleton

open Storage

namespace ParseState

def Move.next? : Move → Option ParseState
  | .ends _ => none
  | .waits next | .retires _ next => some next

inductive BeforeStore (refs : List Entity) : ParseState → Prop
  | start : BeforeStore refs (.start refs false)
  | turn {state next : ParseState} (h : BeforeStore refs state) (met : Entity → Encounter)
      (hdown : ∀ entity, (met entity).finished = false)
      (hnext : (state.move none met).next? = some next) : BeforeStore refs next

/-- A state in which the first whole turn after the store begins. The store may have come before
the stage began, between two turns, or in the middle of a turn, before or after a look at the
flag. -/
inductive AtStore (refs : List Entity) : ParseState → Prop
  | start : AtStore refs (.start refs true)
  | between {state : ParseState} (h : BeforeStore refs state) : AtStore refs state
  | during {state next : ParseState} (h : BeforeStore refs state) (met : Entity → Encounter)
      (hnext : (state.move none met).next? = some next) : AtStore refs next

def missed (state : ParseState) (met : Entity → Encounter) : List Entity :=
  (state.queue.take 1).filter fun entity => !(met entity).cached

section Misses

variable (cacheRoot outRoot : Path) (limits : ParseLimits)

/-- The entities that the turns of a run find without a page, in the order of the turns. -/
def missesAmid : List Meddling → ParseState → Tree → List Entity
  | [], _, _ => []
  | meddling :: later, state, tree =>
    if state.isOver limits.maxTurns then []
    else
      state.missed (met cacheRoot outRoot limits meddling tree) ++
        match takeTurnAmid cacheRoot outRoot limits meddling state tree with
        | .ended _ _ => []
        | .taken state tree => missesAmid later state tree

end Misses

section Store

variable {refs : List Entity} {state next : ParseState} {met : Entity → Encounter}

/-- A turn that saw the flag up has begun a rotation, or an entity has left the queue. -/
theorem idle_of_seen (hnext : (state.move none met).next? = some next)
    (hdown : state.finishedAtStart = false) : next.finishedAtStart = true → next.idle = 0 := by
  intro hseen
  obtain ⟨move, hmove, hgoes⟩ := exists_goes state met
  rw [hmove] at hnext
  cases hgoes with
  | empty | givesUp => cases hnext
  | leaves _ _ _ hidle | begins _ _ _ _ _ hidle =>
    cases hnext
    exact hidle
  | goesOn _ _ _ _ _ hflag =>
    cases hnext
    rw [hflag, hdown] at hseen
    cases hseen

theorem BeforeStore.down (h : BeforeStore refs state) : state.finishedAtStart = false := by
  induction h with
  | start => rfl
  | @turn state next _ met hdown hnext ih =>
    obtain ⟨move, hmove, hgoes⟩ := exists_goes state met
    rw [hmove] at hnext
    cases hgoes with
    | empty | givesUp => cases hnext
    | leaves _ _ _ _ hflag | begins _ _ _ _ _ _ hflag =>
      cases hnext
      rw [hflag, hdown]
    | goesOn _ _ _ _ _ hflag =>
      cases hnext
      rw [hflag, ih]

theorem AtStore.idle (h : AtStore refs state) (hseen : state.finishedAtStart = true) :
    state.idle = 0 := by
  cases h with
  | start => rfl
  | between h =>
    rw [h.down] at hseen
    cases hseen
  | during h met hnext => exact idle_of_seen hnext h.down hseen

end Store

/-! ### How long it takes -/

/-- The queue of a state after the store: `fresh` has not been in front since, `known` has, and has
no page. -/
structure Sifted (cacheRoot : Path) (entities : List Entity) (state : ParseState) (tree : Tree)
    (fresh known : List Entity) : Prop where
  queue : state.queue = fresh ++ known
  mem : ∀ entity ∈ state.queue, entity ∈ entities
  missing : ∀ entity ∈ known, isCached tree cacheRoot entity = false

section Bound

variable {cacheRoot outRoot : Path} {limits : ParseLimits} {entities fresh known : List Entity}
  {entity : Entity} {meddling : Meddling} {meddlings : List Meddling} {state next : ParseState}
  {tree : Tree}

namespace Sifted

theorem missing_amid (h : Sifted cacheRoot entities state tree fresh known)
    (hadds : meddling.AddsNoPage cacheRoot entities) (hmem : entity ∈ known) :
    isCached (meddling.between (meddling.before tree)) cacheRoot entity = false := by
  have hentity : entity ∈ entities :=
    h.mem entity (by rw [h.queue]; exact List.mem_append_right fresh hmem)
  exact hadds.between _ _ hentity (hadds.before _ _ hentity (h.missing entity hmem))

theorem leaves (outRoot : Path) (h : Sifted cacheRoot entities state tree (entity :: fresh) known)
    (hadds : meddling.AddsNoPage cacheRoot entities) (hrest : next.queue = fresh ++ known) :
    Sifted cacheRoot entities next (buildCached cacheRoot outRoot entity
      (meddling.between (meddling.before tree))).tree fresh known where
  queue := hrest
  mem other hother := h.mem other (by
    rw [h.queue, List.cons_append, ← hrest]
    exact List.mem_cons_of_mem entity hother)
  missing other hother := (isCached_buildCached ..).trans (h.missing_amid hadds hother)

theorem waits (h : Sifted cacheRoot entities state tree (entity :: fresh) known)
    (hadds : meddling.AddsNoPage cacheRoot entities)
    (hmissing : isCached (meddling.before tree) cacheRoot entity = false)
    (hrest : next.queue = fresh ++ known ++ [entity]) :
    Sifted cacheRoot entities next (meddling.between (meddling.before tree)) fresh
      (known ++ [entity]) where
  queue := by rw [hrest, List.append_assoc]
  mem other hother := h.mem other (by
    rw [hrest] at hother
    rw [h.queue, List.cons_append]
    exact (List.perm_append_singleton entity _).subset hother)
  missing other hother := by
    rcases List.mem_append.mp hother with hother | hother
    · exact h.missing_amid hadds hother
    · rw [List.mem_singleton.mp hother]
      exact hadds.between _ _ (h.mem entity (by simp [h.queue])) hmissing

end Sifted

/-- Once nothing is fresh, two rotations are enough. -/
theorem surrender_of_known (hlimits : limits.maxTurns = none) (hover : limits.fetchFinished = true)
    (hadds : ∀ meddling ∈ meddlings, meddling.AddsNoPage cacheRoot entities)
    (h : Sifted cacheRoot entities state tree [] known)
    (hlength : 2 * state.queue.length < meddlings.length) :
    (turnsAmid cacheRoot outRoot limits meddlings state tree).ended = true ∧
      (turnsAmid cacheRoot outRoot limits meddlings state tree).state.report.turns ≤
        state.report.turns + 2 * state.queue.length := by
  have hknown : state.queue = known := h.queue
  by_cases hempty : state.queue = []
  · have hends : Ends state 0 [] [] (turnsAmid cacheRoot outRoot limits meddlings state tree) :=
      ends_of_empty hlimits hempty (Nat.zero_lt_of_lt hlength)
    exact ⟨hends.ended, by rw [hends.turns]; omega⟩
  · have hlast := lastTurns_le state hempty
    have hends := ends_of_missing outRoot hlimits hover hadds hempty h.mem
      (fun entity hmem => h.missing entity (hknown ▸ hmem)) (by omega)
    exact ⟨hends.ended, by rw [hends.turns]; omega⟩

/-- Every fresh entity takes a turn, and then two rotations are enough. -/
theorem surrender_bound (hlimits : limits.maxTurns = none) (hover : limits.fetchFinished = true)
    (hadds : ∀ meddling ∈ meddlings, meddling.AddsNoPage cacheRoot entities)
    (h : Sifted cacheRoot entities state tree fresh known)
    (hlength : fresh.length + 2 * state.queue.length < meddlings.length) :
    (turnsAmid cacheRoot outRoot limits meddlings state tree).ended = true ∧
      (turnsAmid cacheRoot outRoot limits meddlings state tree).state.report.turns ≤
        state.report.turns + (fresh.length + 2 * state.queue.length) := by
  induction meddlings generalizing state tree fresh known with
  | nil => cases hlength
  | cons meddling later ih =>
    cases fresh with
    | nil =>
      rw [List.length_nil, Nat.zero_add] at hlength ⊢
      exact surrender_of_known hlimits hover hadds h hlength
    | cons entity fresh =>
      obtain ⟨hmeddling, hlater⟩ := List.forall_mem_cons.mp hadds
      have hqueue := h.queue
      rw [List.cons_append] at hqueue
      rw [hqueue, List.length_cons, List.length_cons, List.length_cons] at hlength
      rw [hqueue, List.length_cons, List.length_cons]
      obtain ⟨move, hmove, hgoes⟩ :=
        exists_goes state (met cacheRoot outRoot limits meddling tree)
      -- Whether a rotation begins or goes on, the entity in front is known from now on.
      have hwaits : ∀ {next}, isCached (meddling.before tree) cacheRoot entity = false →
          next.queue = fresh ++ known ++ [entity] → next.report.turns = state.report.turns + 1 →
          state.move none (met cacheRoot outRoot limits meddling tree) = .waits next →
          (turnsAmid cacheRoot outRoot limits (meddling :: later) state tree).ended = true ∧
            (turnsAmid cacheRoot outRoot limits (meddling :: later) state tree).state.report.turns ≤
              state.report.turns + (fresh.length + 1 + 2 * ((fresh ++ known).length + 1)) := by
        intro next hmissing hrest hturns hwait
        obtain ⟨hended, hbound⟩ := ih hlater (h.waits hmeddling hmissing hrest) (by
          rw [hrest, List.length_append, List.length_singleton]
          omega)
        rw [turnsAmid_of_waits hlimits hwait]
        rw [hrest, List.length_append, List.length_singleton, hturns] at hbound
        exact ⟨hended, by omega⟩
      cases hgoes with
      | empty hempty => simp [hqueue] at hempty
      | @leaves front rest next hfront _ hrest _ _ hturns =>
        obtain ⟨rfl, rfl⟩ := List.cons.inj (hqueue.symm.trans hfront)
        obtain ⟨hended, hbound⟩ := ih hlater (h.leaves outRoot hmeddling hrest) (by
          rw [hrest]
          omega)
        rw [turnsAmid_of_retires hlimits hmove]
        rw [hrest, hturns] at hbound
        exact ⟨hended, Nat.le_trans hbound (by omega)⟩
      | @givesUp front rest last hfront _ _ _ _ hturns =>
        obtain ⟨hended, hlast⟩ := turnsAmid_of_ends later hlimits hmove
        exact ⟨hended, by rw [hlast, hturns]; omega⟩
      | @begins front rest next hfront hpage _ _ hrest _ _ hturns
      | @goesOn front rest next hfront hpage _ hrest _ _ hturns =>
        obtain ⟨rfl, rfl⟩ := List.cons.inj (hqueue.symm.trans hfront)
        exact hwaits hpage hrest hturns hmove

end Bound

/-! ### What is pending -/

section Misses

/-! What one turn adds to the misses. -/

variable {cacheRoot outRoot : Path} {limits : ParseLimits} {rest : List Entity} {entity : Entity}
  {meddling : Meddling} {later : List Meddling} {state last next : ParseState}
  {retirement : Retirement} {tree : Tree} (hlimits : limits.maxTurns = none)
  (hfront : state.queue = entity :: rest)

include hlimits hfront

theorem missesAmid_cons : missesAmid cacheRoot outRoot limits (meddling :: later) state tree =
    (if isCached (meddling.before tree) cacheRoot entity then [] else [entity]) ++
      match (state.move none (met cacheRoot outRoot limits meddling tree)).turn cacheRoot outRoot
        (meddling.between (meddling.before tree)) with
      | .ended _ _ => []
      | .taken state tree => missesAmid cacheRoot outRoot limits later state tree := by
  have hover : ¬ state.isOver none = true := by simp [isOver, hfront]
  rw [missesAmid, takeTurnAmid, hlimits, if_neg hover, if_neg hover, missed, hfront]
  cases hcached : isCached (meddling.before tree) cacheRoot entity <;> simp [met, hcached]

theorem missesAmid_of_retires (hcached : isCached (meddling.before tree) cacheRoot entity = true)
    (hmove : state.move none (met cacheRoot outRoot limits meddling tree) =
      .retires retirement next) :
    missesAmid cacheRoot outRoot limits (meddling :: later) state tree =
      missesAmid cacheRoot outRoot limits later next (buildCached cacheRoot outRoot
        retirement.entity (meddling.between (meddling.before tree))).tree := by
  rw [missesAmid_cons hlimits hfront, if_pos hcached, hmove]
  rfl

variable (hmissing : isCached (meddling.before tree) cacheRoot entity = false)

include hmissing

theorem missesAmid_of_waits
    (hmove : state.move none (met cacheRoot outRoot limits meddling tree) = .waits next) :
    missesAmid cacheRoot outRoot limits (meddling :: later) state tree =
      entity :: missesAmid cacheRoot outRoot limits later next
        (meddling.between (meddling.before tree)) := by
  rw [missesAmid_cons hlimits hfront, hmissing, hmove]
  rfl

theorem missesAmid_of_ends
    (hmove : state.move none (met cacheRoot outRoot limits meddling tree) = .ends last) :
    missesAmid cacheRoot outRoot limits (meddling :: later) state tree = [entity] := by
  rw [missesAmid_cons hlimits hfront, hmissing, hmove]
  rfl

end Misses

/-- What has been put back since a rotation began after the store was found without a page then:
it makes up the end of `seen`. -/
def Counted (seen : List Entity) (state : ParseState) : Prop :=
  state.finishedAtStart = true → state.queue.drop (state.queue.length - state.idle) <:+ seen

namespace Counted

variable {seen rest : List Entity} {entity : Entity} {state next : ParseState}

theorem concat_suffix {first second : List Entity} (h : first <:+ second) (entity : Entity) :
    first ++ [entity] <:+ second ++ [entity] := by
  obtain ⟨front, rfl⟩ := h
  exact ⟨front, List.append_assoc .. |>.symm⟩

theorem of_idle (hidle : state.idle = 0) : Counted seen state := by
  intro _
  rw [hidle, Nat.sub_zero, List.drop_length]
  exact List.nil_suffix

theorem goesOn (h : Counted seen state) (hfront : state.queue = entity :: rest)
    (hpart : state.idle < rest.length) (hrest : next.queue = rest ++ [entity])
    (hidle : next.idle = state.idle + 1) (hflag : next.finishedAtStart = state.finishedAtStart) :
    Counted (seen ++ [entity]) next := by
  intro hfinished
  have hbefore := h (hflag ▸ hfinished)
  have hback : (entity :: rest).length - state.idle = rest.length - state.idle + 1 := by
    rw [List.length_cons]
    omega
  rw [hfront, hback, List.drop_succ_cons] at hbefore
  have hdrop : next.queue.drop (next.queue.length - next.idle) =
      rest.drop (rest.length - state.idle) ++ [entity] := by
    rw [hrest, hidle, List.length_append, List.length_singleton, Nat.add_sub_add_right,
      List.drop_append_of_le_length (Nat.sub_le _ _)]
  rw [hdrop]
  exact concat_suffix hbefore entity

theorem givesUp (h : Counted seen state) (hfront : state.queue = entity :: rest)
    (hwhole : rest.length ≤ state.idle) (hfinished : state.finishedAtStart = true) :
    rest ++ [entity] <:+ seen ++ [entity] := by
  have hbefore := h hfinished
  have hrest : rest <:+ (entity :: rest).drop ((entity :: rest).length - state.idle) := by
    have hfew : (entity :: rest).length - state.idle ≤ 1 := by
      rw [List.length_cons]
      omega
    exact List.drop_suffix_drop_left (entity :: rest) hfew
  rw [hfront] at hbefore
  exact concat_suffix (hrest.trans hbefore) entity

end Counted

/-- When the stage gives up, the entities in the queue are the last that it has found without a
page. -/
theorem suffix_missesAmid {cacheRoot outRoot : Path} {limits : ParseLimits} {seen : List Entity}
    {meddlings : List Meddling} {state : ParseState} {tree : Tree}
    (hlimits : limits.maxTurns = none) (hcounted : Counted seen state)
    (hended : (turnsAmid cacheRoot outRoot limits meddlings state tree).ended = true) :
    (turnsAmid cacheRoot outRoot limits meddlings state tree).state.queue <:+
      seen ++ missesAmid cacheRoot outRoot limits meddlings state tree := by
  induction meddlings generalizing state tree seen with
  | nil => cases hended
  | cons meddling later ih =>
    obtain ⟨move, hmove, hgoes⟩ :=
      exists_goes state (met cacheRoot outRoot limits meddling tree)
    cases hgoes with
    | empty hempty =>
      rw [(turnsAmid_of_ends later hlimits hmove).2, hempty]
      exact List.nil_suffix
    | leaves hfront hpage _ hidle _ _ =>
      rw [turnsAmid_of_retires hlimits hmove] at hended ⊢
      rw [missesAmid_of_retires hlimits hfront hpage hmove]
      exact ih (.of_idle hidle) hended
    | givesUp hfront hpage hwhole hfinished hrest _ =>
      rw [(turnsAmid_of_ends later hlimits hmove).2, hrest,
        missesAmid_of_ends hlimits hfront hpage hmove]
      exact hcounted.givesUp hfront hwhole hfinished
    | begins hfront hpage _ _ _ hidle _ _ =>
      rw [turnsAmid_of_waits hlimits hmove] at hended ⊢
      rw [missesAmid_of_waits hlimits hfront hpage hmove, List.append_cons]
      exact ih (.of_idle hidle) hended
    | goesOn hfront hpage hpart hrest hidle hflag _ =>
      rw [turnsAmid_of_waits hlimits hmove] at hended ⊢
      rw [missesAmid_of_waits hlimits hfront hpage hmove, List.append_cons]
      exact ih (hcounted.goesOn hfront hpart hrest hidle hflag) hended

/-- Once the fetch stage has stored its flag and nobody adds a page any more, the parse stage stops
within three times as many turns as entities are queued, and what it reports as pending it has found
without a page since. -/
theorem surrenders {cacheRoot outRoot : Path} {refs : List Entity} {meddlings : List Meddling}
    {state : ParseState} {tree : Tree} (hstate : AtStore refs state)
    (hadds : ∀ meddling ∈ meddlings, meddling.AddsNoPage cacheRoot state.queue)
    (hlength : 3 * state.queue.length < meddlings.length) :
    let stage := turnsAmid cacheRoot outRoot ⟨none, some true⟩ meddlings state tree
    stage.ended = true ∧
      stage.state.report.turns ≤ state.report.turns + 3 * state.queue.length ∧
      ∃ pending, stage.state.close.report.pending = pending.map (·.name) ∧
        pending <:+ missesAmid cacheRoot outRoot ⟨none, some true⟩ meddlings state tree := by
  intro stage
  have hsifted : Sifted cacheRoot state.queue state tree state.queue [] :=
    ⟨(List.append_nil _).symm, fun _ hmem => hmem, by simp⟩
  obtain ⟨hended, hturns⟩ : stage.ended = true ∧ stage.state.report.turns ≤
      state.report.turns + (state.queue.length + 2 * state.queue.length) :=
    surrender_bound rfl rfl hadds hsifted (by omega)
  have hcounted : Counted [] state := fun hseen => Counted.of_idle (hstate.idle hseen) hseen
  exact ⟨hended, by omega, stage.state.queue, rfl, suffix_missesAmid rfl hcounted hended⟩

/-- The store comes after a first turn that has put `a` back; of the other two refs one has a page,
while another program builds its skeleton over and over. -/
theorem surrenders_after_miss :
    let a : Entity := ⟨"p.A".toList, [], by decide⟩
    let b : Entity := ⟨"p.B".toList, [], by decide⟩
    let c : Entity := ⟨"p.C".toList, [], by decide⟩
    let cache : Path := ⟨"cache".toList⟩
    let out : Path := ⟨"out".toList⟩
    let tree := ((writePage b cache "<h2 title=\"Enum B\">".toList).run (Tree.bare [])).2
    let meddlings := List.replicate 10 (Meddling.building cache out b)
    let state : ParseState := ⟨[b, c, a], 1, false, ⟨[], [], [], [], 1⟩, [.begin 3], []⟩
    AtStore [a, b, c] state ∧
      (∀ meddling ∈ meddlings, meddling.AddsNoPage cache state.queue) ∧
      3 * state.queue.length < meddlings.length ∧
      let stage := turnsAmid cache out ⟨none, some true⟩ meddlings state tree
      stage.ended = true ∧
        stage.state.report.turns ≤ state.report.turns + 3 * state.queue.length ∧
        ∃ pending, stage.state.close.report.pending = pending.map (·.name) ∧
          pending <:+ missesAmid cache out ⟨none, some true⟩ meddlings state tree := by
  intro a b c cache out tree meddlings state
  have hstate : AtStore [a, b, c] state :=
    .between (.turn .start (fun _ => ⟨false, false, .ok .written, []⟩) (fun _ => rfl) rfl)
  have hadds : ∀ meddling ∈ meddlings, meddling.AddsNoPage cache state.queue :=
    fun meddling hmem => by
      rw [List.eq_of_mem_replicate hmem]
      exact (Meddling.keepsPages_building cache out b state.queue).addsNoPage
  have hlength : 3 * state.queue.length < meddlings.length := by decide
  exact ⟨hstate, hadds, hlength, surrenders hstate hadds hlength⟩

end ParseState

end ClassSkeleton
