import ClassSkeleton.Proofs.Storage.Slots

/-!
The two files of a skeleton. Both are staged before the first is committed, and whatever fails
takes back what was done, so that the script is one edit on four slots of one directory.
-/
namespace ClassSkeleton

open ClassSkeleton.Tree

namespace Storage

def settled (ran : SkeletonWrite × Tree) : Except IoCause (Path × Path) × Tree :=
  (ran.1.outcome, ran.2)

def commitBoth (headerPart sourcePart header source : Path) (tree : Tree) : SkeletonWrite × Tree :=
  match (commit headerPart header).run tree with
  | (.error e, committed) => (.failed e, removed sourcePart committed)
  | (.ok _, committed) =>
    match (commit sourcePart source).run committed with
    | (.error e, last) => (.withdrawn header e, removed header last)
    | (.ok _, last) => (.written header source, last)

def finishBoth (headerPart header source : Path) (skeleton : Skeleton) (tree : Tree) :
    SkeletonWrite × Tree :=
  match (stage source skeleton.source).run tree with
  | (.error e, staged) => (.failed e, removed headerPart staged)
  | (.ok sourcePart, staged) => commitBoth headerPart sourcePart header source staged

theorem writeSkeleton_run (entity : Entity) (root : Path) (skeleton : Skeleton) (tree : Tree) :
    (writeSkeleton entity root skeleton).run tree =
      match (stage (entity.headerPath root) skeleton.header).run tree with
      | (.error e, staged) => (.failed e, staged)
      | (.ok headerPart, staged) =>
        finishBoth headerPart (entity.headerPath root) (entity.sourcePath root) skeleton
          staged := by
  unfold writeSkeleton
  simp only
  rw [Script.run_bind]
  rcases (stage (entity.headerPath root) skeleton.header).run tree with ⟨_ | headerPart, staged⟩
  · rfl
  simp only [finishBoth]
  rw [Script.run_bind]
  rcases (stage (entity.sourcePath root) skeleton.source).run staged with ⟨_ | sourcePart, staged⟩
  · rfl
  simp only [commitBoth]
  rw [Script.run_bind]
  rcases (commit headerPart (entity.headerPath root)).run staged with ⟨_ | u, committed⟩
  · rfl
  simp only
  rw [Script.run_bind]
  rcases (commit sourcePart (entity.sourcePath root)).run committed with ⟨_ | u, last⟩
  · rfl
  · rfl

/-- Two files beside each other, by the backward segments and the names of their paths. -/
structure Beside (header source : Path) (above : List Text) (headerName sourceName : Text) :
    Prop where
  headerEnds : header.Ends above headerName
  sourceEnds : source.Ends above sourceName
  absolute : source.isAbsolute = header.isAbsolute
  names : headerName ≠ sourceName
  part : partName sourceName ≠ headerName

section Pair

variable (home : Place) (header source : Path) (above : List Text) (headerName sourceName : Text)
  (skeleton : Skeleton)

def commitAct : Act :=
  Act.andThen
    (.move header.isUsable (slotOf home header.isAbsolute above (partName headerName))
      (slotOf home header.isAbsolute above headerName) (.text skeleton.header))
    (.clear (slotOf home header.isAbsolute above (partName sourceName)))
    (Act.andThen
      (.move source.isUsable (slotOf home header.isAbsolute above (partName sourceName))
        (slotOf home header.isAbsolute above sourceName) (.text skeleton.source))
      (.clear (slotOf home header.isAbsolute above headerName)) .skip)

def finishAct : Act :=
  Act.andThen
    (.put (partOf source).isUsable (slotOf home header.isAbsolute above (partName sourceName))
      (.text skeleton.source))
    (.clear (slotOf home header.isAbsolute above (partName headerName)))
    (commitAct home header source above headerName sourceName skeleton)

def pairAct : Act :=
  Act.andThen
    (.put (partOf header).isUsable (slotOf home header.isAbsolute above (partName headerName))
      (.text skeleton.header))
    .skip (finishAct home header source above headerName sourceName skeleton)

def pairSlots : List Place :=
  [partName headerName, headerName, partName sourceName, sourceName].map
    (slotOf home header.isAbsolute above)

theorem isLocal_commit : (commitAct home header source above headerName sourceName skeleton).IsLocal
    (pairSlots home header above headerName sourceName) :=
  Act.isLocal_andThen (Act.isLocal_move _ _ (by simp [pairSlots]) (by simp [pairSlots]))
    (Act.isLocal_clear (by simp [pairSlots]))
    (Act.isLocal_andThen (Act.isLocal_move _ _ (by simp [pairSlots]) (by simp [pairSlots]))
      (Act.isLocal_clear (by simp [pairSlots])) (Act.isLocal_skip _))

theorem isLocal_pair : (pairAct home header source above headerName sourceName skeleton).IsLocal
    (pairSlots home header above headerName sourceName) :=
  Act.isLocal_andThen (Act.isLocal_put _ _ (by simp [pairSlots])) (Act.isLocal_skip _)
    (Act.isLocal_andThen (Act.isLocal_put _ _ (by simp [pairSlots]))
      (Act.isLocal_clear (by simp [pairSlots]))
      (isLocal_commit home header source above headerName sourceName skeleton))

def pairEdit : Edit :=
  editAt home header.isAbsolute above
    (isLocal_pair home header source above headerName sourceName skeleton)

end Pair

variable {header source : Path} {above : List Text} {headerName sourceName : Text}
  {skeleton : Skeleton} {tree : Tree}

def commitLast (sourcePart header source : Path) (tree : Tree) : SkeletonWrite × Tree :=
  match (commit sourcePart source).run tree with
  | (.error e, last) => (.withdrawn header e, removed header last)
  | (.ok _, last) => (.written header source, last)

theorem commitLast_effect (h : Beside header source above headerName sourceName)
    (hopen : Opens tree.get? (Path.origin tree.home header.isAbsolute) (Path.named above))
    (hheader : checkPath header = .ok ()) (hsource : checkPath (partOf source) = .ok ())
    (hfirst : tree.get? (slotOf tree.home header.isAbsolute above headerName) =
      some (.file (.text skeleton.header)))
    (hsecond : tree.get? (slotOf tree.home header.isAbsolute above (partName sourceName)) =
      some (.file (.text skeleton.source))) :
    Effect (header, source) tree (settled (commitLast (partOf source) header source tree))
      (Act.andThen
        (.move source.isUsable (slotOf tree.home header.isAbsolute above (partName sourceName))
          (slotOf tree.home header.isAbsolute above sourceName) (.text skeleton.source))
        (.clear (slotOf tree.home header.isAbsolute above headerName)) .skip tree.get?) := by
  have hlocal := isLocal_moveStaged tree.home header.isAbsolute above sourceName source.isUsable
    (.text skeleton.source)
  have hcommit := commit_effect h.sourceEnds (by rwa [h.absolute]) hsource (by rwa [h.absolute])
  rw [h.absolute] at hcommit
  have hlast := hcommit.opens hlocal hopen
  -- The header has no part in the move, so it is there to be taken back.
  have hstill := hlocal.off tree.get? (slotOf tree.home header.isAbsolute above headerName)
    (by simp [slotOf_inj, h.part.symm, h.names])
  rw [hfirst, ← hcommit.view, ← hcommit.home] at hstill
  rw [commitLast]
  generalize (commit (partOf source) source).run tree = ran at hcommit hlast hstill
  obtain ⟨outcome, last⟩ := ran
  refine hcommit.andThen (fun e he _ => ?_) fun hok _ => ?_
  · obtain rfl : outcome = .error e := he
    obtain ⟨hhome, hview⟩ := removed_of_file h.headerEnds hlast hheader hstill
    rw [hcommit.home] at hview
    exact ⟨rfl, hhome, hview⟩
  · obtain rfl : outcome = .ok () := hok
    exact ⟨rfl, rfl, fun _ => rfl, by simp [Act.skip]⟩

theorem commitBoth_effect (h : Beside header source above headerName sourceName)
    (hopen : Opens tree.get? (Path.origin tree.home header.isAbsolute) (Path.named above))
    (hheader : checkPath (partOf header) = .ok ()) (hsource : checkPath (partOf source) = .ok ())
    (hfirst : tree.get? (slotOf tree.home header.isAbsolute above (partName headerName)) =
      some (.file (.text skeleton.header)))
    (hsecond : tree.get? (slotOf tree.home header.isAbsolute above (partName sourceName)) =
      some (.file (.text skeleton.source))) :
    Effect (header, source) tree
      (settled (commitBoth (partOf header) (partOf source) header source tree))
      (commitAct tree.home header source above headerName sourceName skeleton tree.get?) := by
  have hlocal := isLocal_moveStaged tree.home header.isAbsolute above headerName header.isUsable
    (.text skeleton.header)
  have hcommit := commit_effect h.headerEnds hopen hheader hfirst
  have hcommitted := hcommit.opens hlocal hopen
  -- The staged source is still there, to be committed next or cleared away.
  have hpartNames : partName sourceName ≠ partName headerName := by
    simpa [partName] using h.names.symm
  have hstill := hlocal.off tree.get? (slotOf tree.home header.isAbsolute above
    (partName sourceName)) (by simp [slotOf_inj, hpartNames, h.part])
  rw [hsecond, ← hcommit.view, ← hcommit.home] at hstill
  rw [commitBoth]
  generalize (commit (partOf header) header).run tree = ran at hcommit hcommitted hstill
  obtain ⟨outcome, committed⟩ := ran
  refine hcommit.andThen (fun e he _ => ?_) fun hok hmove => ?_
  · obtain rfl : outcome = .error e := he
    obtain ⟨hhome, hview⟩ := removed_partOf h.sourceEnds (by rwa [h.absolute]) hsource
      (by rwa [h.absolute])
    rw [h.absolute, hcommit.home] at hview
    exact ⟨rfl, hhome, hview⟩
  · obtain rfl : outcome = .ok () := hok
    obtain ⟨husable, hmoved⟩ := Act.move_done hmove
    have hcheck := ((Path.isUsable_iff h.headerEnds.leadsTo).mp husable).1
    have hplaced : committed.get? (slotOf committed.home header.isAbsolute above headerName) =
        some (.file (.text skeleton.header)) := by
      rw [hcommit.view, hmoved, hcommit.home, Function.update_self]
    have hlast := commitLast_effect h hcommitted hcheck hsource hplaced hstill
    rwa [hcommit.home] at hlast

theorem finishBoth_effect (h : Beside header source above headerName sourceName)
    (hground : Path.isGrounded header.isAbsolute above = true)
    (hopen : Opens tree.get? (Path.origin tree.home header.isAbsolute) (Path.named above))
    (hheader : checkPath (partOf header) = .ok ())
    (hfirst : tree.get? (slotOf tree.home header.isAbsolute above (partName headerName)) =
      some (.file (.text skeleton.header))) :
    Effect (header, source) tree
      (settled (finishBoth (partOf header) header source skeleton tree))
      (finishAct tree.home header source above headerName sourceName skeleton tree.get?) := by
  have hlocal := Act.isLocal_put (partOf source).isUsable (.text skeleton.source)
    (List.mem_singleton_self (slotOf tree.home header.isAbsolute above (partName sourceName)))
  have hstage := stage_of_opens h.sourceEnds (by rwa [h.absolute]) (by rwa [h.absolute])
    skeleton.source
  rw [h.absolute] at hstage
  have hstaged := hstage.opens hlocal hopen
  -- The staged header is still there, to be committed next or cleared away.
  have hpartNames : partName headerName ≠ partName sourceName := by
    simpa [partName] using h.names
  have hstill := hlocal.off tree.get? (slotOf tree.home header.isAbsolute above
    (partName headerName)) (by simpa [slotOf_inj] using hpartNames)
  rw [hfirst, ← hstage.view, ← hstage.home] at hstill
  rw [finishBoth]
  generalize (stage source skeleton.source).run tree = ran at hstage hstaged hstill
  obtain ⟨outcome, staged⟩ := ran
  refine hstage.andThen (fun e he _ => ?_) fun hok hput => ?_
  · obtain rfl : outcome = .error e := he
    obtain ⟨hhome, hview⟩ := removed_partOf h.headerEnds hstaged hheader hstill
    rw [hstage.home] at hview
    exact ⟨rfl, hhome, hview⟩
  · obtain rfl : outcome = .ok (partOf source) := hok
    obtain ⟨husable, hdone⟩ := Act.put_done hput
    have hsource := ((Path.isUsable_iff (leadsTo_partOf h.sourceEnds)).mp husable).1
    have hcommit := commitBoth_effect h hstaged hheader hsource hstill
      (by rw [hstage.home, hstage.view, hdone, Function.update_self])
    rwa [hstage.home] at hcommit

/-- Writing a skeleton is one edit. -/
theorem writeSkeleton_effect {entity : Entity} {root : Path}
    (h : Beside (entity.headerPath root) (entity.sourcePath root) above headerName sourceName)
    (skeleton : Skeleton) (tree : Tree) :
    Effect (entity.headerPath root, entity.sourcePath root) tree
      (settled ((writeSkeleton entity root skeleton).run tree))
      ((pairEdit tree.home (entity.headerPath root) (entity.sourcePath root) above headerName
        sourceName skeleton).run tree.get?) := by
  rw [writeSkeleton_run]
  refine stage_effect h.headerEnds (isLocal_pair ..) (fun e staged hrun => by rw [hrun]; rfl)
    fun staged hrun hhome hground hopen hcheck hfirst => ?_
  have hfinish := finishBoth_effect h hground hopen hcheck hfirst
  rwa [hrun, ← hhome]

end Storage

end ClassSkeleton
