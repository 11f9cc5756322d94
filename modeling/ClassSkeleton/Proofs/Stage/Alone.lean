import ClassSkeleton.Proofs.Stage.Rebuild

/-!
The parse stage by itself. As long as nothing else touches the tree, the pages in the cache are
those that were there when the stage began: what has one is built from it, whenever its turn
comes, and what has none goes behind the others until the stage gives up.
-/
namespace ClassSkeleton

open ClassSkeleton.Tree Storage

def Tree.prospect (cacheRoot outRoot : Path) (tree : Tree) : Prospect where
  cached := isCached tree cacheRoot
  verdict := Entity.verdict cacheRoot outRoot tree
  ended := true

/-- The stage has come to a point and a tree with some of the refs built. -/
def ParsePoint.IsReached (cacheRoot outRoot : Path) (refs : List Entity) (tree : Tree)
    (point : ParsePoint) (left : Tree) : Prop :=
  ∃ entities, Builds cacheRoot outRoot entities tree left ∧
    (tree.prospect cacheRoot outRoot).HoldsAt refs entities point

namespace ParsePoint

variable {cacheRoot outRoot : Path} {refs : List Entity} {tree left right : Tree}
  {state next : ParseState}

theorem isReached_start (cacheRoot outRoot : Path) (refs : List Entity) (tree : Tree) :
    IsReached cacheRoot outRoot refs tree (.turn (.start refs true)) tree :=
  ⟨[], .nil cacheRoot outRoot tree, Prospect.holdsAt_start refs⟩

variable (hnames : ∀ entity ∈ refs, '/' ∉ entity.name)
  (h : IsReached cacheRoot outRoot refs tree (.turn state) left)

include hnames h

/-- What a turn is, by the entity in front and whether its page was there at the start. -/
theorem isReached_takeTurn :
    match takeTurn cacheRoot outRoot Joint.afterFetch state left with
    | .taken next right => IsReached cacheRoot outRoot refs tree (.turn next) right
    | .ended last right => IsReached cacheRoot outRoot refs tree (.returned last.close) right := by
  obtain ⟨entities, hbuilds, hholds⟩ := h
  cases hqueue : state.queue with
  | nil =>
    simp only [takeTurn, hqueue]
    exact ⟨entities, hbuilds, Prospect.HoldsAt.close hholds.1 (by simp [hqueue])⟩
  | cons entity rest =>
    have hmem : entity ∈ refs := hholds.1.mem (by simp [hqueue])
    have hsame := hbuilds.isCached_eq (hnames entity hmem)
    cases hcached : isCached tree cacheRoot entity with
    | true =>
      obtain ⟨hbuilt, hverdict⟩ := hbuilds.build (hnames entity hmem) hcached
      have hready := (hholds.find hqueue hcached).load
      simp only [takeTurn, hqueue, Joint.afterFetch, Option.any_none, Bool.false_eq_true, if_false,
        hsame, hcached, if_true]
      exact ⟨entities ++ [entity], hbuilt, hready.build hverdict _⟩
    | false =>
      have hmissing := hholds.miss hqueue hcached
      cases hgivesUp : state.countTurn.givesUp rest with
      | true =>
        simp only [takeTurn, hqueue, Joint.afterFetch, Option.any_none, Bool.false_eq_true,
          if_false, hsame, hcached, hgivesUp, if_true]
        exact ⟨entities, hbuilds, hmissing.giveUp hgivesUp⟩
      | false =>
        simp only [takeTurn, hqueue, Joint.afterFetch, Option.any_none, Bool.false_eq_true,
          if_false, hsame, hcached, hgivesUp]
        exact ⟨entities, hbuilds, hmissing.postpone⟩

theorem isReached_takeTurns (turns : Nat)
    (hended : (takeTurns cacheRoot outRoot Joint.afterFetch turns state left).ended = true) :
    IsReached cacheRoot outRoot refs tree
      (.returned (takeTurns cacheRoot outRoot Joint.afterFetch turns state left).state.close)
      (takeTurns cacheRoot outRoot Joint.afterFetch turns state left).tree := by
  induction turns generalizing state left with
  | zero => cases hended
  | succ turns ih =>
    have hturn := isReached_takeTurn hnames h
    rw [takeTurns] at hended ⊢
    cases htaken : takeTurn cacheRoot outRoot Joint.afterFetch state left with
    | ended last right =>
      rw [htaken] at hturn
      exact hturn
    | taken next right =>
      rw [htaken] at hturn
      simp only [htaken] at hended ⊢
      exact ih hturn hended

end ParsePoint

/-- The parse stage by itself works through its refs, whatever the tree. -/
theorem Parsed.parseAll {refs : List Entity} (cacheRoot outRoot : Path)
    (hnames : ∀ entity ∈ refs, '/' ∉ entity.name) (tree : Tree) :
    Parsed cacheRoot outRoot refs tree
      (ClassSkeleton.parseAll cacheRoot outRoot Joint.afterFetch refs tree).tree
      (ClassSkeleton.parseAll cacheRoot outRoot Joint.afterFetch refs tree).state.report := by
  obtain ⟨entities, hbuilds, hholds⟩ := ParsePoint.isReached_takeTurns hnames
    (ParsePoint.isReached_start cacheRoot outRoot refs tree) _
    (Joint.parseAll_ended cacheRoot outRoot refs tree)
  obtain ⟨hperm, hpending⟩ := hholds.settled hbuilds.cached
  exact ⟨⟨entities, hbuilds, hperm, hholds.1.under⟩, hpending⟩

end ClassSkeleton
