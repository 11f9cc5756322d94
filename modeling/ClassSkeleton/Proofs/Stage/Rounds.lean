import ClassSkeleton.Proofs.Stage.Meddling
import Mathlib.Data.List.DropRight

/-!
What the parse stage does after the end of the fetch stage, turn by turn. In a first round every
entity is in front once, and those with a page leave; after the last of them the others are counted,
and the stage gives up as soon as all have been counted in a row: those that were behind the last
page need no second turn. A cap cuts this run short and changes nothing else about it.
-/
namespace ClassSkeleton

open Storage

def ParseEnd.stopped (stage : ParseEnd) : ParseEnd := { stage with ended := true }

theorem ParseEnd.stopped_of_ended {stage : ParseEnd} (h : stage.ended = true) :
    stage.stopped = stage := by
  rw [stopped, ← h]

def ParseEnd.closed (stage : ParseEnd) : ParseEnd := { stage with state := stage.state.close }

/-- The entities without a page that stand behind the last one with a page. -/
def trailing (cached : Entity → Bool) (queue : List Entity) : List Entity :=
  queue.rtakeWhile fun entity => !cached entity

/-- The entities without a page that stand before the last one with a page. -/
def leading (cached : Entity → Bool) (queue : List Entity) : List Entity :=
  (queue.rdropWhile fun entity => !cached entity).filter fun entity => !cached entity

/-- The turns that a queue takes: one for everybody, and another one for those without a page that
do not stand behind the last page. -/
def roundTurns (cached : Entity → Bool) (queue : List Entity) : Nat :=
  queue.length +
    ((queue.filter fun entity => !cached entity).length - (trailing cached queue).length)

/-- What is left after these turns. -/
def leftOver (cached : Entity → Bool) (queue : List Entity) : List Entity :=
  trailing cached queue ++ leading cached queue

section Positions

variable {cached : Entity → Bool} {entity : Entity} {queue rest : List Entity}

theorem not_cached_of_mem_trailing (hmem : entity ∈ trailing cached queue) :
    cached entity = false := by
  have hnot := List.mem_rtakeWhile_imp (p := fun entity => !cached entity) hmem
  simpa using hnot

theorem leading_append_trailing (cached : Entity → Bool) (queue : List Entity) :
    leading cached queue ++ trailing cached queue = queue.filter fun entity => !cached entity := by
  have hself : (trailing cached queue).filter (fun entity => !cached entity) =
      trailing cached queue :=
    List.filter_eq_self.mpr fun entity hmem => by rw [not_cached_of_mem_trailing hmem]; rfl
  have hwhole := congrArg (List.filter fun entity => !cached entity)
    (List.rdropWhile_append_rtakeWhile (p := fun entity => !cached entity) (l := queue))
  rw [List.filter_append] at hwhole
  rw [← hwhole]
  exact congrArg _ hself.symm

theorem roundTurns_eq (cached : Entity → Bool) (queue : List Entity) :
    roundTurns cached queue = queue.length + (leading cached queue).length := by
  rw [roundTurns, ← leading_append_trailing, List.length_append, Nat.add_sub_cancel]

theorem roundTurns_le (cached : Entity → Bool) (queue : List Entity) :
    roundTurns cached queue ≤ 2 * queue.length := by
  have hfilter := List.length_filter_le (fun entity => !cached entity) queue
  rw [roundTurns]
  omega

theorem trailing_of_missing (h : ∀ entity ∈ queue, cached entity = false) :
    trailing cached queue = queue :=
  List.rtakeWhile_eq_self_iff.mpr fun entity hmem => by rw [h entity hmem]; rfl

theorem leading_of_missing (h : ∀ entity ∈ queue, cached entity = false) :
    leading cached queue = [] := by
  rw [leading, List.rdropWhile_eq_nil_iff.mpr fun entity hmem => by rw [h entity hmem]; rfl,
    List.filter_nil]

theorem length_trailing_lt (h : ∃ entity ∈ queue, cached entity = true) :
    (trailing cached queue).length < queue.length := by
  refine Nat.lt_of_le_of_ne (List.rtakeWhile_suffix _ _).length_le fun hlength => ?_
  obtain ⟨entity, hmem, hcached⟩ := h
  have hwhole : trailing cached queue = queue := (List.rtakeWhile_suffix _ _).eq_of_length hlength
  rw [← hwhole] at hmem
  rw [not_cached_of_mem_trailing hmem] at hcached
  cases hcached

section Front

/-! There is a page behind the entity in front. -/

variable (entity) (h : ∃ other ∈ rest, cached other = true)

include h

theorem trailing_cons : trailing cached (entity :: rest) = trailing cached rest := by
  have hlong : ¬ (rest.reverse.takeWhile fun entity => !cached entity).length =
      rest.reverse.length := by
    intro hlong
    obtain ⟨other, hother, hcached⟩ := h
    have hself := (List.takeWhile_prefix fun entity => !cached entity).eq_of_length hlong
    have hall := List.takeWhile_eq_self_iff.mp hself other (List.mem_reverse.mpr hother)
    simp [hcached] at hall
  rw [trailing, trailing, List.rtakeWhile, List.reverse_cons, List.takeWhile_append, if_neg hlong]
  rfl

theorem leading_cons : leading cached (entity :: rest) =
    if cached entity then leading cached rest else entity :: leading cached rest := by
  have hleft : ¬ (rest.reverse.dropWhile fun entity => !cached entity).isEmpty = true := by
    intro hleft
    obtain ⟨other, hother, hcached⟩ := h
    have hall := List.dropWhile_eq_nil_iff.mp (List.isEmpty_iff.mp hleft) other
      (List.mem_reverse.mpr hother)
    simp [hcached] at hall
  have hdrop : (entity :: rest).rdropWhile (fun entity => !cached entity) =
      entity :: rest.rdropWhile fun entity => !cached entity := by
    rw [List.rdropWhile, List.reverse_cons, List.dropWhile_append, if_neg hleft,
      List.reverse_append]
    rfl
  rw [leading, hdrop, List.filter_cons]
  cases cached entity <;> rfl

/-- If the entity in front has a page too, the others take their turns without it. -/
theorem round_cons_found (hcached : cached entity = true) :
    roundTurns cached (entity :: rest) = roundTurns cached rest + 1 ∧
      leftOver cached (entity :: rest) = leftOver cached rest := by
  rw [roundTurns_eq, roundTurns_eq, leftOver, trailing_cons entity h, leading_cons entity h,
    if_pos hcached, List.length_cons, Nat.add_right_comm]
  exact ⟨rfl, rfl⟩

/-- Without a page it takes its second turn behind the others. -/
theorem round_cons_missing (hmissing : cached entity = false) :
    roundTurns cached (entity :: rest) = roundTurns cached (rest ++ [entity]) + 1 ∧
      leftOver cached (entity :: rest) = leftOver cached (rest ++ [entity]) ∧
      trailing cached (rest ++ [entity]) = trailing cached (entity :: rest) ++ [entity] := by
  have htrailing : trailing cached (rest ++ [entity]) = trailing cached rest ++ [entity] :=
    List.rtakeWhile_concat_pos _ _ _ (by simp [hmissing])
  have hleading : leading cached (rest ++ [entity]) = leading cached rest := by
    rw [leading, List.rdropWhile_concat_pos _ _ _ (by simp [hmissing])]
    rfl
  rw [roundTurns_eq, roundTurns_eq, leftOver, leftOver, trailing_cons entity h,
    leading_cons entity h, htrailing, hleading, hmissing]
  simp only [Bool.false_eq_true, if_false, List.length_cons, List.length_append, List.length_nil,
    List.append_assoc, List.singleton_append, and_true]
  omega

end Front

/-- After the last page has gone from the front every other entity takes one more turn. -/
theorem round_cons_last (hcached : cached entity = true)
    (h : ∀ other ∈ rest, cached other = false) :
    roundTurns cached (entity :: rest) = rest.length + 1 ∧
      leftOver cached (entity :: rest) = rest := by
  have hself : rest.reverse.takeWhile (fun entity => !cached entity) = rest.reverse :=
    List.takeWhile_eq_self_iff.mpr fun other hother => by
      rw [h other (List.mem_reverse.mp hother)]
      rfl
  have htrailing : trailing cached (entity :: rest) = rest := by
    rw [trailing, List.rtakeWhile, List.reverse_cons, List.takeWhile_append, if_pos (by rw [hself]),
      List.takeWhile_cons, hcached]
    simp
  have hrest : rest.filter (fun entity => !cached entity) = rest :=
    List.filter_eq_self.mpr fun other hother => by rw [h other hother]; rfl
  have hleading : leading cached (entity :: rest) = [] := by
    have hwhole := leading_append_trailing cached (entity :: rest)
    rw [htrailing, List.filter_cons, hcached, hrest] at hwhole
    exact List.append_left_eq_self.mp hwhole
  rw [roundTurns_eq, leftOver, htrailing, hleading, List.append_nil]
  exact ⟨rfl, rfl⟩

end Positions

namespace ParseState

/-! ### The rounds of the uncapped stage -/

/-- The pages of the entities are as they were, and those put back in a row are trailing ones. -/
structure Steady (cacheRoot : Path) (refs : List Entity) (cached : Entity → Bool)
    (state : ParseState) (tree : Tree) : Prop where
  mem : ∀ entity ∈ state.queue, entity ∈ refs
  status : ∀ entity ∈ refs, isCached tree cacheRoot entity = cached entity
  idle : state.idle ≤ (trailing cached state.queue).length

section Uncapped

variable {cacheRoot outRoot : Path} {limits : ParseLimits} {refs rest : List Entity}
  {cached : Entity → Bool} {meddling : Meddling} {meddlings : List Meddling} {entity : Entity}
  {state next : ParseState} {tree : Tree}

namespace Steady

theorem status_amid (h : Steady cacheRoot refs cached state tree)
    (hkeeps : meddling.KeepsPages cacheRoot refs) (hmem : entity ∈ refs) :
    isCached (meddling.before tree) cacheRoot entity = cached entity ∧
      isCached (meddling.between (meddling.before tree)) cacheRoot entity = cached entity := by
  have hbefore := (hkeeps.before tree entity hmem).trans (h.status entity hmem)
  exact ⟨hbefore, (hkeeps.between _ entity hmem).trans hbefore⟩

/-- An entity in front without a page has one with a page behind it if there is one in the queue,
so the rotation is not over. -/
theorem behind (h : Steady cacheRoot refs cached state tree)
    (hfound : ∃ entity ∈ state.queue, cached entity = true) (hfront : state.queue = entity :: rest)
    (hmissing : cached entity = false) :
    (∃ other ∈ rest, cached other = true) ∧ state.idle < rest.length := by
  have hmore : ∃ other ∈ rest, cached other = true := by
    obtain ⟨other, hother, hcached⟩ := hfound
    rw [hfront] at hother
    rcases List.mem_cons.mp hother with rfl | hother
    · rw [hmissing] at hcached
      cases hcached
    · exact ⟨other, hother, hcached⟩
  have hidle := h.idle
  rw [hfront, trailing_cons entity hmore] at hidle
  exact ⟨hmore, Nat.lt_of_le_of_lt hidle (length_trailing_lt hmore)⟩

theorem waits (h : Steady cacheRoot refs cached state tree)
    (hkeeps : meddling.KeepsPages cacheRoot refs) (hfront : state.queue = entity :: rest)
    (hmissing : cached entity = false) (hmore : ∃ other ∈ rest, cached other = true)
    (hrest : next.queue = rest ++ [entity]) (hidle : next.idle = state.idle + 1) :
    Steady cacheRoot refs cached next (meddling.between (meddling.before tree)) where
  mem other hother := by
    rw [hrest] at hother
    refine h.mem other ?_
    rw [hfront]
    exact (List.perm_append_singleton entity rest).subset hother
  status other hother := (h.status_amid hkeeps hother).2
  idle := by
    have hbefore := h.idle
    rw [hfront] at hbefore
    rw [hrest, hidle, (round_cons_missing entity hmore hmissing).2.2, List.length_append]
    exact Nat.succ_le_succ hbefore

theorem leaves (outRoot : Path) (h : Steady cacheRoot refs cached state tree)
    (hkeeps : meddling.KeepsPages cacheRoot refs) (hfront : state.queue = entity :: rest)
    (hrest : next.queue = rest) (hidle : next.idle = 0) :
    Steady cacheRoot refs cached next (buildCached cacheRoot outRoot entity
      (meddling.between (meddling.before tree))).tree where
  mem other hother := h.mem other (by rw [hfront, ← hrest]; exact List.mem_cons_of_mem _ hother)
  status other hother := (isCached_buildCached ..).trans (h.status_amid hkeeps hother).2
  idle := by
    rw [hidle]
    exact Nat.zero_le _

end Steady

variable (hlimits : limits.maxTurns = none) (hover : limits.fetchFinished = true)

include hlimits hover

variable (outRoot) in
/-- A rotation that begins without any page is the last one. -/
theorem ends_of_round (hkeeps : ∀ meddling ∈ meddlings, meddling.KeepsPages cacheRoot refs)
    (h : Steady cacheRoot refs cached state tree)
    (hmissing : ∀ entity ∈ state.queue, cached entity = false) (hidle : state.idle = 0)
    (hfinished : state.finishedAtStart = true) (hlength : state.queue.length < meddlings.length) :
    Ends state state.queue.length [] state.queue
      (turnsAmid cacheRoot outRoot limits meddlings state tree) := by
  by_cases hempty : state.queue = []
  · rw [hempty]
    exact ends_of_empty hlimits hempty (Nat.zero_lt_of_lt hlength)
  · have hlast : state.lastTurns = state.queue.length := by
      have hpos := List.length_pos_iff.mpr hempty
      rw [lastTurns, hidle, hfinished, if_pos rfl]
      omega
    have hends := ends_of_missing outRoot hlimits hover
      (fun meddling hmem => (hkeeps meddling hmem).addsNoPage) hempty h.mem
      (fun entity hmem => (h.status entity (h.mem entity hmem)).trans (hmissing entity hmem))
      (by omega)
    rwa [hlast, List.rotate_length] at hends

/-- As long as there is a page in the queue, every entity comes to the front once; those in front
of the last page come a second time. -/
theorem ends_of_found (hkeeps : ∀ meddling ∈ meddlings, meddling.KeepsPages cacheRoot refs)
    (h : Steady cacheRoot refs cached state tree)
    (hfound : ∃ entity ∈ state.queue, cached entity = true)
    (hlength : roundTurns cached state.queue < meddlings.length) :
    ∃ retired, retired.map (·.entity) = state.queue.filter cached ∧
      Ends state (roundTurns cached state.queue) retired (leftOver cached state.queue)
        (turnsAmid cacheRoot outRoot limits meddlings state tree) := by
  induction meddlings generalizing state tree with
  | nil => cases hlength
  | cons meddling later ih =>
    rw [List.length_cons] at hlength
    obtain ⟨hmeddling, hlater⟩ := List.forall_mem_cons.mp hkeeps
    obtain ⟨move, hmove, hgoes⟩ :=
      exists_goes state (met cacheRoot outRoot limits meddling tree)
    have hfrontStatus : ∀ {entity rest}, state.queue = entity :: rest →
        isCached (meddling.before tree) cacheRoot entity = cached entity :=
      fun hfront => (h.status_amid hmeddling (h.mem _ (by simp [hfront]))).1
    cases hgoes with
    | empty hempty => simp [hempty] at hfound
    | @leaves entity rest next hfront hpage hrest hidle hflag _ =>
      have hcached : cached entity = true := (hfrontStatus hfront).symm.trans hpage
      have hnext := h.leaves outRoot hmeddling hfront hrest hidle
      by_cases hmore : ∃ other ∈ rest, cached other = true
      · obtain ⟨hturns, hleft⟩ := round_cons_found entity hmore hcached
        rw [hfront, hturns] at hlength
        obtain ⟨retired, hretired, hends⟩ := ih hlater hnext (by rwa [hrest])
          (by rw [hrest]; exact Nat.lt_of_succ_lt_succ hlength)
        rw [hrest] at hretired hends
        rw [hfront, hturns, hleft, List.filter_cons, if_pos hcached]
        exact ⟨⟨entity, _⟩ :: retired, by rw [List.map_cons, hretired],
          .of_retires hlimits hmove hends⟩
      · have hnone : ∀ other ∈ rest, cached other = false := fun other hother =>
          Bool.eq_false_iff.mpr fun hcached => hmore ⟨other, hother, hcached⟩
        obtain ⟨hturns, hleft⟩ := round_cons_last hcached hnone
        rw [hfront, hturns] at hlength
        have hends := ends_of_round outRoot hlimits hover hlater hnext
          (by rwa [hrest]) hidle (hflag.trans hover)
          (by rw [hrest]; exact Nat.lt_of_succ_lt_succ hlength)
        rw [hrest] at hends
        rw [hfront, hturns, hleft, List.filter_cons, if_pos hcached,
          List.filter_eq_nil_iff.mpr fun other hother => by simp [hnone other hother]]
        exact ⟨[⟨entity, _⟩], rfl, .of_retires hlimits hmove hends⟩
    | @givesUp entity rest last hfront hpage hwhole
    | @begins entity rest last hfront hpage hwhole =>
      -- The rotation cannot be over: the page in the queue would have been found in it.
      have hmissing : cached entity = false := (hfrontStatus hfront).symm.trans hpage
      exact absurd hwhole (Nat.not_le.mpr (h.behind hfound hfront hmissing).2)
    | @goesOn entity rest next hfront hpage _ hrest hidle _ _ =>
      have hmissing : cached entity = false := (hfrontStatus hfront).symm.trans hpage
      obtain ⟨hmore, -⟩ := h.behind hfound hfront hmissing
      obtain ⟨hturns, hleft, -⟩ := round_cons_missing entity hmore hmissing
      rw [hfront, hturns] at hlength
      obtain ⟨retired, hretired, hends⟩ := ih hlater
        (h.waits hmeddling hfront hmissing hmore hrest hidle)
        (by
          obtain ⟨other, hother, hcached⟩ := hmore
          exact ⟨other, by simp [hrest, hother], hcached⟩)
        (by rw [hrest]; exact Nat.lt_of_succ_lt_succ hlength)
      rw [hrest] at hretired hends
      rw [hfront, hturns, hleft]
      refine ⟨retired, ?_, .of_waits hlimits hmove hends⟩
      rw [hretired, List.filter_append, List.filter_cons, List.filter_cons, hmissing]
      simp

variable (outRoot limits) in
theorem ends_of_start (hkeeps : ∀ meddling ∈ meddlings, meddling.KeepsPages cacheRoot refs)
    (hstatus : ∀ entity ∈ refs, isCached tree cacheRoot entity = cached entity)
    (hlength : roundTurns cached refs < meddlings.length) :
    ∃ retired, retired.map (·.entity) = refs.filter cached ∧
      Ends (.start refs true) (roundTurns cached refs) retired (leftOver cached refs)
        (turnsAmid cacheRoot outRoot limits meddlings (.start refs true) tree) := by
  have hsteady : Steady cacheRoot refs cached (.start refs true) tree :=
    ⟨fun _ hmem => hmem, hstatus, Nat.zero_le _⟩
  by_cases hfound : ∃ entity ∈ refs, cached entity = true
  · exact ends_of_found hlimits hover hkeeps hsteady hfound hlength
  · have hnone : ∀ entity ∈ refs, cached entity = false := fun entity hmem =>
      Bool.eq_false_iff.mpr fun hcached => hfound ⟨entity, hmem, hcached⟩
    rw [roundTurns_eq, leading_of_missing hnone] at hlength ⊢
    rw [leftOver, trailing_of_missing hnone, leading_of_missing hnone, List.append_nil,
      List.filter_eq_nil_iff.mpr fun entity hmem => by simp [hnone entity hmem]]
    exact ⟨[], rfl, ends_of_round outRoot hlimits hover hkeeps hsteady hnone rfl rfl hlength⟩

end Uncapped

/-! ### A cap cuts the run short -/

section Capped

variable {cacheRoot outRoot : Path} {flag : Option Bool} {meddling : Meddling}
  {meddlings : List Meddling} {state last next : ParseState} {tree left : Tree} {turns : Nat}

theorem takeTurnAmid_of_lt {cap : Nat} (hroom : state.report.turns < cap) :
    takeTurnAmid cacheRoot outRoot ⟨some cap, flag⟩ meddling state tree =
      takeTurnAmid cacheRoot outRoot ⟨none, flag⟩ meddling state tree := by
  have hcap : ((some cap).any fun cap => decide (cap ≤ state.report.turns)) = false := by
    simpa using hroom
  rw [takeTurnAmid, takeTurnAmid, isOver, isOver, hcap, Option.any_none, move, move, hcap,
    Option.any_none]
  rfl

theorem turns_of_takenAmid
    (h : takeTurnAmid cacheRoot outRoot ⟨none, flag⟩ meddling state tree = .taken next left) :
    next.report.turns = state.report.turns + 1 := by
  rw [takeTurnAmid] at h
  split at h
  · cases h
  · exact turns_of_taken h

theorem turns_of_endedAmid
    (h : takeTurnAmid cacheRoot outRoot ⟨none, flag⟩ meddling state tree = .ended last left) :
    (last = state ∧ left = tree) ∨ last.report.turns = state.report.turns + 1 := by
  rw [takeTurnAmid] at h
  by_cases hover : state.isOver none = true
  · rw [if_pos hover] at h
    obtain ⟨rfl, rfl⟩ := Turn.ended.inj h
    exact .inl ⟨rfl, rfl⟩
  · rw [if_neg hover] at h
    obtain ⟨move, hmove, hgoes⟩ :=
      exists_goes state (met cacheRoot outRoot ⟨none, flag⟩ meddling tree)
    rw [hmove] at h
    cases hgoes with
    | empty hqueue => simp [isOver, hqueue] at hover
    | givesUp _ _ _ _ _ hturns =>
      obtain ⟨rfl, -⟩ := Turn.ended.inj h
      exact .inr hturns
    | leaves | begins | goesOn => cases h

/-- With room for so many turns under its cap, a stage takes these turns as it would without one,
and then it stops. -/
theorem turnsAmid_capped (cacheRoot outRoot : Path) (flag : Option Bool) (room : Nat)
    (meddlings : List Meddling) (state : ParseState) (tree : Tree) :
    turnsAmid cacheRoot outRoot ⟨some (state.report.turns + room), flag⟩ meddlings state tree =
      let stage := turnsAmid cacheRoot outRoot ⟨none, flag⟩ (meddlings.take room) state tree
      { stage with ended := decide (room < meddlings.length) || stage.ended } := by
  induction meddlings generalizing room state tree with
  | nil => simp [turnsAmid]
  | cons meddling later ih =>
    cases room with
    | zero =>
      have hover : state.isOver (some state.report.turns) = true := by simp [isOver]
      rw [turnsAmid, takeTurnAmid, Nat.add_zero, if_pos hover]
      simp [turnsAmid]
    | succ room =>
      rw [turnsAmid, takeTurnAmid_of_lt (by omega), List.take_succ_cons, turnsAmid]
      cases hturn : takeTurnAmid cacheRoot outRoot ⟨none, flag⟩ meddling state tree with
      | ended last left => simp
      | taken next left =>
        have hnext := ih room next left
        rw [turns_of_takenAmid hturn] at hnext
        simpa [Nat.add_right_comm, Nat.add_assoc, Nat.add_comm 1] using hnext

theorem turns_le_turnsAmid (cacheRoot outRoot : Path) (flag : Option Bool)
    (meddlings : List Meddling) (state : ParseState) (tree : Tree) : state.report.turns ≤
    (turnsAmid cacheRoot outRoot ⟨none, flag⟩ meddlings state tree).state.report.turns := by
  induction meddlings generalizing state tree with
  | nil => exact Nat.le_refl _
  | cons meddling later ih =>
    rw [turnsAmid]
    cases hturn : takeTurnAmid cacheRoot outRoot ⟨none, flag⟩ meddling state tree with
    | ended last left =>
      rcases turns_of_endedAmid hturn with ⟨rfl, -⟩ | hturns
      · exact Nat.le_refl _
      · exact hturns ▸ Nat.le_succ _
    | taken next left =>
      have hturns := turns_of_takenAmid hturn
      exact Nat.le_trans (by omega) (ih next left)

theorem turnsAmid_take (turns count : Nat)
    (hended : (turnsAmid cacheRoot outRoot ⟨none, flag⟩ meddlings state tree).ended = true)
    (hturns : (turnsAmid cacheRoot outRoot ⟨none, flag⟩ meddlings state tree).state.report.turns =
      state.report.turns + turns) :
    (turnsAmid cacheRoot outRoot ⟨none, flag⟩
        (meddlings.take (min count turns)) state tree).state.report.turns =
      state.report.turns + min count turns ∧
    (turnsAmid cacheRoot outRoot ⟨none, flag⟩ (meddlings.take count) state tree).stopped =
      (turnsAmid cacheRoot outRoot ⟨none, flag⟩
        (meddlings.take (min count turns)) state tree).stopped := by
  induction meddlings generalizing state tree turns count with
  | nil => cases hended
  | cons meddling later ih =>
    cases count with
    | zero =>
      rw [Nat.zero_min]
      exact ⟨rfl, rfl⟩
    | succ count =>
      rw [turnsAmid] at hended hturns
      rw [List.take_succ_cons, turnsAmid]
      cases hturn : takeTurnAmid cacheRoot outRoot ⟨none, flag⟩ meddling state tree with
      | ended last left =>
        simp only [hturn] at hturns ⊢
        rcases turns_of_endedAmid hturn with ⟨rfl, rfl⟩ | hlast
        · -- The queue was empty, so no turn was left to take.
          have hzero : turns = 0 := by omega
          rw [hzero, Nat.min_zero]
          exact ⟨rfl, rfl⟩
        · have hone : turns = 1 := by omega
          rw [hone, Nat.min_eq_right (Nat.succ_le_succ (Nat.zero_le _)), List.take_succ_cons,
            turnsAmid, hturn]
          exact ⟨hlast, rfl⟩
      | taken next left =>
        simp only [hturn] at hended hturns ⊢
        have hnext := turns_of_takenAmid hturn
        have hle := turns_le_turnsAmid cacheRoot outRoot flag later next left
        obtain ⟨more, rfl⟩ : ∃ more, turns = more + 1 := ⟨turns - 1, by omega⟩
        obtain ⟨hcount, hsame⟩ := ih more count hended (by omega)
        rw [Nat.succ_min_succ, List.take_succ_cons, turnsAmid, hturn]
        exact ⟨by simp only [hcount, hnext]; omega, hsame⟩

section Ended

variable
  (hended : (turnsAmid cacheRoot outRoot ⟨none, flag⟩ meddlings state tree).ended = true)
  (hturns : (turnsAmid cacheRoot outRoot ⟨none, flag⟩ meddlings state tree).state.report.turns =
    state.report.turns + turns)

include hended hturns

theorem turnsAmid_whole (hlength : turns ≤ meddlings.length) :
    turnsAmid cacheRoot outRoot ⟨none, flag⟩ meddlings state tree =
      (turnsAmid cacheRoot outRoot ⟨none, flag⟩ (meddlings.take turns) state tree).stopped := by
  have hall := (turnsAmid_take turns meddlings.length hended hturns).2
  rw [List.take_length, Nat.min_eq_right hlength] at hall
  rw [← hall, ParseEnd.stopped_of_ended hended]

theorem turnsAmid_cut (cap : Nat) :
    turnsAmid cacheRoot outRoot ⟨some (state.report.turns + cap), flag⟩ meddlings state tree =
      (turnsAmid cacheRoot outRoot ⟨none, flag⟩
        (meddlings.take (min cap turns)) state tree).stopped := by
  rw [← (turnsAmid_take turns cap hended hturns).2, turnsAmid_capped]
  by_cases hroom : cap < meddlings.length
  · simp only [hroom, decide_true, Bool.true_or]
    rfl
  · rw [List.take_of_length_le (Nat.le_of_not_lt hroom)]
    simp only [hended, Bool.or_true]
    rfl

end Ended

end Capped

/-! ### The rounds of a stage -/

/-- How a stage over `refs` goes after the end of the fetch stage. `stage` is the whole stage under
a cap or without one, and `first` are as many of its first turns without a cap: a cap leaves no
more of them than it allows, and their queue is what is pending then. -/
structure Rounds (cached : Entity → Bool) (refs : List Entity) (stage : Option Nat → ParseEnd)
    (first : Nat → ParseEnd) : Prop where
  ended : ∀ maxTurns, (stage maxTurns).ended = true
  turns : (stage none).state.report.turns = refs.length +
    ((refs.filter fun entity => !cached entity).length - (trailing cached refs).length)
  under : ∃ retired, retired.map (·.entity) = refs.filter cached ∧
    ∀ verdict, (stage none).state.report.under verdict = Retirement.under retired verdict
  pending : (stage none).state.report.pending =
    (trailing cached refs ++ leading cached refs).map (·.name)
  counted : ∀ count ≤ roundTurns cached refs, (first count).state.report.turns = count
  whole : stage none = (first (roundTurns cached refs)).stopped.closed
  capped : ∀ cap, stage (some cap) = (first (min cap (roundTurns cached refs))).stopped.closed
  cut : ∀ cap, (stage (some cap)).state.report.pending =
    (first (min cap (roundTurns cached refs))).state.queue.map (·.name)

theorem Rounds.congr_first {cached : Entity → Bool} {refs : List Entity}
    {stage : Option Nat → ParseEnd} {first other : Nat → ParseEnd}
    (h : Rounds cached refs stage first)
    (hfirst : ∀ count ≤ roundTurns cached refs, first count = other count) :
    Rounds cached refs stage other where
  ended := h.ended
  turns := h.turns
  under := h.under
  pending := h.pending
  counted count hcount := by
    rw [← hfirst count hcount]
    exact h.counted count hcount
  whole := by
    rw [← hfirst _ (Nat.le_refl _)]
    exact h.whole
  capped cap := by
    rw [← hfirst _ (Nat.min_le_right ..)]
    exact h.capped cap
  cut cap := by
    rw [← hfirst _ (Nat.min_le_right ..)]
    exact h.cut cap

section Rounds

variable {cacheRoot outRoot : Path} {refs : List Entity} {meddlings : List Meddling} {tree : Tree}

/-- The stage goes its rounds while others touch the tree, if they leave the pages of the refs alone
and the stage has the time. -/
theorem rounds_of_stageAmid (hkeeps : ∀ meddling ∈ meddlings, meddling.KeepsPages cacheRoot refs)
    (hlength : roundTurns (isCached tree cacheRoot) refs < meddlings.length) :
    Rounds (isCached tree cacheRoot) refs
      (fun maxTurns => stageAmid cacheRoot outRoot ⟨maxTurns, some true⟩ meddlings refs tree)
      fun count => turnsAmid cacheRoot outRoot ⟨none, some true⟩ (meddlings.take count)
        (.start refs true) tree := by
  obtain ⟨retired, hretired, hends⟩ :=
    ends_of_start outRoot ⟨none, some true⟩ rfl rfl hkeeps (fun _ _ => rfl) hlength
  have hstart : (start refs true).report.turns = 0 := rfl
  have hcut : ∀ cap, stageAmid cacheRoot outRoot ⟨some cap, some true⟩ meddlings refs tree =
      (turnsAmid cacheRoot outRoot ⟨none, some true⟩
        (meddlings.take (min cap (roundTurns (isCached tree cacheRoot) refs)))
        (.start refs true) tree).stopped.closed := by
    intro cap
    have hstage := turnsAmid_cut hends.ended hends.turns cap
    rw [hstart, Nat.zero_add] at hstage
    exact congrArg ParseEnd.closed hstage
  refine ⟨fun maxTurns => ?ended, ?turns, ⟨retired, hretired, fun verdict => ?under⟩, ?pending,
    fun count hcount => ?counted, ?whole, hcut, fun cap => ?cut⟩
  case ended =>
    cases maxTurns with
    | none => exact hends.ended
    | some cap => exact congrArg ParseEnd.ended (hcut cap)
  case turns => exact hends.turns.trans (by rw [hstart, Nat.zero_add, roundTurns])
  case under =>
    have hunder := hends.balance.under verdict
    cases verdict <;> exact hunder
  case pending => exact congrArg (List.map (·.name)) hends.queue
  case counted =>
    have hfirst := (turnsAmid_take _ count hends.ended hends.turns).1
    rwa [Nat.min_eq_left hcount, hstart, Nat.zero_add] at hfirst
  case whole =>
    exact congrArg ParseEnd.closed (turnsAmid_whole hends.ended hends.turns hlength.le)
  case cut =>
    have hpending := congrArg (·.state.report.pending) (hcut cap)
    exact hpending

theorem rounds_of_idle (cacheRoot outRoot : Path) (refs : List Entity) (tree : Tree) {turns : Nat}
    (h : roundTurns (isCached tree cacheRoot) refs < turns) :
    Rounds (isCached tree cacheRoot) refs
      (fun maxTurns => stageAmid cacheRoot outRoot ⟨maxTurns, some true⟩
        (List.replicate turns .none) refs tree)
      fun count => takeTurns cacheRoot outRoot ⟨none, some true⟩ count (.start refs true) tree := by
  have hkeeps : ∀ meddling ∈ List.replicate turns Meddling.none,
      meddling.KeepsPages cacheRoot refs := by
    intro meddling hmem
    rw [List.eq_of_mem_replicate hmem]
    exact Meddling.keepsPages_none cacheRoot refs
  refine (rounds_of_stageAmid hkeeps (by rwa [List.length_replicate])).congr_first
    fun count hcount => ?_
  rw [List.take_replicate, Nat.min_eq_left (hcount.trans h.le), turnsAmid_replicate]

theorem parseAll_capped (cacheRoot outRoot : Path) (flag : Option Bool) (refs : List Entity)
    (tree : Tree) {cap turns : Nat} (h : cap < turns) :
    parseAll cacheRoot outRoot ⟨some cap, flag⟩ refs tree =
      stageAmid cacheRoot outRoot ⟨some cap, flag⟩ (List.replicate turns .none) refs tree := by
  have hcapped : ∀ turns, cap < turns →
      turnsAmid cacheRoot outRoot ⟨some cap, flag⟩ (List.replicate turns .none)
          (.start refs (flag.getD false)) tree =
        (turnsAmid cacheRoot outRoot ⟨none, flag⟩ (List.replicate cap .none)
          (.start refs (flag.getD false)) tree).stopped := by
    intro turns hroom
    have hcut := turnsAmid_capped cacheRoot outRoot flag cap (List.replicate turns .none)
      (.start refs (flag.getD false)) tree
    rw [show (start refs (flag.getD false)).report.turns = 0 from rfl, Nat.zero_add,
      List.length_replicate, decide_eq_true hroom, List.take_replicate,
      Nat.min_eq_left hroom.le] at hcut
    exact hcut
  rw [parseAll_eq_stageAmid]
  exact congrArg ParseEnd.closed
    ((hcapped (cap + 1) (Nat.lt_succ_self cap)).trans (hcapped turns h).symm)

theorem rounds_of_parseAll (cacheRoot outRoot : Path) (refs : List Entity) (tree : Tree) :
    Rounds (isCached tree cacheRoot) refs
      (fun maxTurns => parseAll cacheRoot outRoot ⟨maxTurns, some true⟩ refs tree)
      fun count => takeTurns cacheRoot outRoot ⟨none, some true⟩ count (.start refs true) tree := by
  let bound := (refs.length + 1) * (refs.length + 1)
  have hbound : roundTurns (isCached tree cacheRoot) refs < bound := by
    have hle := roundTurns_le (isCached tree cacheRoot) refs
    simp only [bound, Nat.add_mul, Nat.mul_add]
    omega
  have h := rounds_of_idle cacheRoot outRoot refs tree hbound
  have hnone : parseAll cacheRoot outRoot ⟨none, some true⟩ refs tree =
      stageAmid cacheRoot outRoot ⟨none, some true⟩ (List.replicate bound .none) refs tree :=
    parseAll_eq_stageAmid ..
  have hcapped : ∀ cap, parseAll cacheRoot outRoot ⟨some cap, some true⟩ refs tree =
      (takeTurns cacheRoot outRoot ⟨none, some true⟩
        (min cap (roundTurns (isCached tree cacheRoot) refs)) (.start refs true)
        tree).stopped.closed := by
    intro cap
    rw [parseAll_capped cacheRoot outRoot (some true) refs tree
      (Nat.lt_of_lt_of_le (Nat.lt_succ_self cap) (Nat.le_max_left (cap + 1) bound))]
    exact (rounds_of_idle cacheRoot outRoot refs tree
      (Nat.lt_of_lt_of_le hbound (Nat.le_max_right ..))).capped cap
  refine ⟨fun maxTurns => ?ended, hnone ▸ h.turns, hnone ▸ h.under, hnone ▸ h.pending, h.counted,
    hnone ▸ h.whole, hcapped, fun cap => ?cut⟩
  case ended =>
    cases maxTurns with
    | none => exact hnone ▸ h.ended none
    | some cap => exact congrArg ParseEnd.ended (hcapped cap)
  case cut =>
    have hpending := congrArg (·.state.report.pending) (hcapped cap)
    exact hpending

/-- After the end of the fetch stage the parse stage goes its rounds and returns, also while others
touch the tree, if they leave the pages of the refs alone. -/
theorem parseAll_rounds (cacheRoot outRoot : Path) (refs : List Entity) (tree : Tree) :
    Rounds (isCached tree cacheRoot) refs
      (fun maxTurns => parseAll cacheRoot outRoot ⟨maxTurns, some true⟩ refs tree)
      (fun count => takeTurns cacheRoot outRoot ⟨none, some true⟩ count (.start refs true) tree) ∧
    ∀ meddlings, (∀ meddling ∈ meddlings, meddling.KeepsPages cacheRoot refs) →
      roundTurns (isCached tree cacheRoot) refs < meddlings.length →
      Rounds (isCached tree cacheRoot) refs
        (fun maxTurns => stageAmid cacheRoot outRoot ⟨maxTurns, some true⟩ meddlings refs tree)
        fun count => turnsAmid cacheRoot outRoot ⟨none, some true⟩ (meddlings.take count)
          (.start refs true) tree :=
  ⟨rounds_of_parseAll cacheRoot outRoot refs tree,
    fun _ hkeeps hlength => rounds_of_stageAmid hkeeps hlength⟩

/-- Of three refs only the second has a page, while another program builds its skeleton over and
over. The first ref is in front twice and comes to stand behind the last. -/
theorem parseAll_rounds_three :
    let a : Entity := ⟨"p.A".toList, [], by decide⟩
    let b : Entity := ⟨"p.B".toList, [], by decide⟩
    let c : Entity := ⟨"p.C".toList, [], by decide⟩
    let cache : Path := ⟨"cache".toList⟩
    let out : Path := ⟨"out".toList⟩
    let tree := ((writePage b cache "<h2 title=\"Enum B\">".toList).run (Tree.bare [])).2
    let meddlings := List.replicate 5 (Meddling.building cache out b)
    (∀ meddling ∈ meddlings, meddling.KeepsPages cache [a, b, c]) ∧
      roundTurns (isCached tree cache) [a, b, c] < meddlings.length ∧
      (stageAmid cache out ⟨none, some true⟩ meddlings [a, b, c] tree).state.report.turns = 4 ∧
      (stageAmid cache out ⟨none, some true⟩ meddlings [a, b, c] tree).state.report.pending =
        [c.name, a.name] := by
  intro a b c cache out tree meddlings
  have hkeeps : ∀ meddling ∈ meddlings, meddling.KeepsPages cache [a, b, c] := by
    intro meddling hmem
    rw [List.eq_of_mem_replicate hmem]
    exact Meddling.keepsPages_building cache out b [a, b, c]
  have hturns : roundTurns (isCached tree cache) [a, b, c] = 4 := by decide +kernel
  have hleft : trailing (isCached tree cache) [a, b, c] ++ leading (isCached tree cache) [a, b, c] =
      [c, a] := by decide +kernel
  have hlength : roundTurns (isCached tree cache) [a, b, c] < meddlings.length := by
    rw [hturns]
    decide
  have hrounds := (parseAll_rounds cache out [a, b, c] tree).2 meddlings hkeeps hlength
  refine ⟨hkeeps, hlength, hrounds.turns.trans hturns, ?_⟩
  rw [hrounds.pending, hleft]
  rfl

end Rounds

end ParseState

end ClassSkeleton
