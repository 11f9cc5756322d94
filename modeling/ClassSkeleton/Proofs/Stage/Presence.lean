import ClassSkeleton.Proofs.Stage.Cache
import ClassSkeleton.Proofs.Storage.Lodging

/-!
Building a skeleton makes no page appear and takes none away, whatever the names of the entities
are. Its files have other endings than pages have. The directories that are made for them could
open the way to a cache that is reached through them; but the page that is built was found in the
cache, so the way to it was open before.
-/
namespace ClassSkeleton

open ClassSkeleton.Tree Storage

theorem pageSlot_not_mem (home : Place) (absolute : Bool) (header : Path)
    (above others : List Text) (stem other : Text) :
    slotOf home absolute above (stem ++ '.' :: "html".toList) ∉
      pairSlots home header others (other ++ '.' :: "h".toList) (other ++ '.' :: "c".toList) := by
  intro hmem
  obtain ⟨name, hname, hslot⟩ := List.mem_map.mp hmem
  have hlast : name.getLast? = some 'l' := by
    obtain ⟨-, hsame⟩ := List.append_inj' hslot rfl
    rw [List.singleton_inj.mp hsame, List.getLast?_append]
    rfl
  have hother : name.getLast? = some 't' ∨ name.getLast? = some 'h' ∨ name.getLast? = some 'c' := by
    simp only [List.mem_cons, List.not_mem_nil, or_false] at hname
    rcases hname with rfl | rfl | rfl | rfl <;> simp [partName, List.getLast?_append]
  rw [hlast] at hother
  simp at hother

namespace Entity.LodgesAt

variable {entity : Entity} {root base : Path} {above folders : List Text} {stem : Text}
  {tree left : Tree}

theorem isCached_iff (h : entity.LodgesAt root base above folders stem) :
    isCached tree root entity = true ↔
      checkPath (entity.cachePath root) = .ok () ∧ tree.Reaches base ∧
        isFileAt tree.get?
          (slotOf tree.home base.isAbsolute above (stem ++ '.' :: "html".toList)) = true := by
  obtain ⟨hends, habsolute⟩ := h.path "html".toList (by decide) (by decide)
  have hleads := hends.leadsTo
  rw [habsolute] at hleads
  rw [isCached, cachePath, isFile_iff hleads, slotOf, h.named, opens_append]
  constructor
  · rintro ⟨hcheck, ⟨hopen, -⟩, hfile⟩
    exact ⟨hcheck, hopen, hfile⟩
  · rintro ⟨hcheck, hopen, hfile⟩
    refine ⟨hcheck, ⟨hopen, ?_⟩, hfile⟩
    obtain ⟨content, hentry⟩ := isFileAt_iff.mp hfile
    rw [spot, seat_append, seat_of_not_dots _ h.proper] at hentry
    exact opens_folders h.proper hentry

theorem opens_of_isCached (h : entity.LodgesAt root base above folders stem)
    (hcached : isCached tree root entity = true) :
    Opens tree.get? (Path.origin tree.home base.isAbsolute) (Path.named above) := by
  obtain ⟨hends, habsolute⟩ := h.path "html".toList (by decide) (by decide)
  rw [← habsolute]
  exact ((isFile_iff hends.leadsTo).mp hcached).2.1

theorem beside (h : entity.LodgesAt root base above folders stem) :
    Beside (entity.headerPath root) (entity.sourcePath root) above (stem ++ '.' :: "h".toList)
      (stem ++ '.' :: "c".toList) where
  headerEnds := (h.path "h".toList (by decide) (by decide)).1
  sourceEnds := (h.path "c".toList (by decide) (by decide)).1
  absolute := (h.path "c".toList (by decide) (by decide)).2.trans
    (h.path "h".toList (by decide) (by decide)).2.symm
  names := by simp
  part := by simp [partName]

/-- An edit elsewhere changes nothing about a page, if the way to it was open or no directory is
made. -/
theorem isCached_congr (h : entity.LodgesAt root base above folders stem) {edit : Edit}
    (hhome : left.home = tree.home) (hview : left.get? = (edit.run tree.get?).2)
    (hslot : slotOf tree.home base.isAbsolute above (stem ++ '.' :: "html".toList) ∉ edit.slots)
    (hway : tree.Reaches base ∨ edit.paved tree.get? = tree.get?) :
    isCached left root entity = isCached tree root entity := by
  have hfile : isFileAt (edit.run tree.get?).2 _ = isFileAt tree.get? _ :=
    Edit.isFileAt_run fun hmem => absurd hmem hslot
  have hopen : left.Reaches base ↔ tree.Reaches base := by
    rw [Reaches, Reaches, hhome, hview]
    refine ⟨fun hleft => ?_, Edit.opens_run edit⟩
    rcases hway with hreaches | hpaved
    · exact hreaches
    · intro place hplace
      have hdirectory := (Edit.run_directory edit tree.get? place).mp (hleft place hplace)
      rwa [hpaved] at hdirectory
  rw [Bool.eq_iff_iff, h.isCached_iff, h.isCached_iff, hopen, hhome, hview, hfile]

end Entity.LodgesAt

section Building

variable {entity : Entity} {cacheRoot outRoot : Path} {tree : Tree}

theorem buildCached_tree (cacheRoot : Path) (tree : Tree) {above : List Text}
    {headerName sourceName : Text}
    (h : Beside (entity.headerPath outRoot) (entity.sourcePath outRoot) above headerName
      sourceName) :
    (buildCached cacheRoot outRoot entity tree).tree = tree ∨
      ∃ skeleton, (buildCached cacheRoot outRoot entity tree).tree.home = tree.home ∧
        (buildCached cacheRoot outRoot entity tree).tree.get? =
          ((pairEdit tree.home (entity.headerPath outRoot) (entity.sourcePath outRoot) above
            headerName sourceName skeleton).run tree.get?).2 := by
  rw [buildCached]
  cases tree.readText (entity.cachePath cacheRoot) with
  | error e => exact .inl rfl
  | ok page =>
    simp only
    cases (ClassPage.read page entity).outcome with
    | error e => exact .inl rfl
    | ok result =>
      cases result with
      | notImplemented kind => exact .inl rfl
      | outline outline =>
        right
        obtain ⟨hhome, hview, -, -⟩ := writeSkeleton_effect h (Skeleton.ofOutline outline) tree
        refine ⟨Skeleton.ofOutline outline, ?_⟩
        simp only
        split <;> exact ⟨hhome, hview⟩

theorem paved_pairEdit {header source : Path} {above : List Text} {headerName sourceName : Text}
    {skeleton : Skeleton}
    (h : Opens tree.get? (Path.origin tree.home header.isAbsolute) (Path.named above)) :
    (pairEdit tree.home header source above headerName sourceName skeleton).paved tree.get? =
      tree.get? := by
  cases hable : (pairEdit tree.home header source above headerName sourceName skeleton).able with
  | false => exact Edit.paved_of_not_able hable _
  | true =>
    rw [Edit.paved_of_able hable]
    exact pave_of_opens h

/-- The way to every page is open or no directory is made, if the page that is built was found. -/
theorem exists_way (outRoot : Path) (hcached : isCached tree cacheRoot entity = true) :
    ∃ above stem, Beside (entity.headerPath outRoot) (entity.sourcePath outRoot) above
        (stem ++ '.' :: "h".toList) (stem ++ '.' :: "c".toList) ∧
      (tree.Reaches cacheRoot ∨ ∀ skeleton, (pairEdit tree.home (entity.headerPath outRoot)
        (entity.sourcePath outRoot) above (stem ++ '.' :: "h".toList) (stem ++ '.' :: "c".toList)
        skeleton).paved tree.get? = tree.get?) := by
  rcases entity.lodgesAt_cases with ⟨folders, stem, h⟩ | ⟨above, folders, stem, h⟩ | h
  · obtain ⟨cacheAbove, hcache⟩ := h cacheRoot
    obtain ⟨outAbove, hout⟩ := h outRoot
    exact ⟨outAbove, stem, hout.beside, .inl (hcache.isCached_iff.mp hcached).2.1⟩
  · refine ⟨above, stem, (h outRoot).beside, .inr fun skeleton => paved_pairEdit ?_⟩
    have habsolute := ((h outRoot).path "h".toList (by decide) (by decide)).2
    rw [Entity.headerPath, habsolute]
    exact (h cacheRoot).opens_of_isCached hcached
  · rw [h cacheRoot tree] at hcached
    cases hcached

theorem buildCached_of_missing (outRoot : Path)
    (hmissing : isCached tree cacheRoot entity = false) :
    (buildCached cacheRoot outRoot entity tree).tree = tree := by
  have hread : ∃ e, tree.readText (entity.cachePath cacheRoot) = .error e := by
    rw [isCached, isFile] at hmissing
    rw [readText]
    cases hlook : tree.lookup (entity.cachePath cacheRoot) with
    | error e => exact ⟨e, rfl⟩
    | ok found =>
      obtain ⟨place, - | content⟩ := found
      · exact ⟨.isDirectory, rfl⟩
      · simp [hlook] at hmissing
  obtain ⟨e, hread⟩ := hread
  rw [buildCached, hread]

/-- The cache holds the same pages after a skeleton has been built. -/
theorem isCached_buildCached (cacheRoot outRoot : Path) (entity other : Entity) (tree : Tree) :
    isCached (buildCached cacheRoot outRoot entity tree).tree cacheRoot other =
      isCached tree cacheRoot other := by
  cases hcached : isCached tree cacheRoot entity with
  | false => rw [buildCached_of_missing outRoot hcached]
  | true =>
    obtain ⟨above, stem, hbeside, hway⟩ := exists_way outRoot hcached
    rcases buildCached_tree cacheRoot tree hbeside with hsame | ⟨skeleton, hhome, hview⟩
    · rw [hsame]
    rcases other.lodgesAt_cases with ⟨folders, name, h⟩ | ⟨otherAbove, folders, name, h⟩ | h
    · obtain ⟨otherAbove, hlodges⟩ := h cacheRoot
      exact hlodges.isCached_congr hhome hview (pageSlot_not_mem _ _ _ _ _ _ _)
        (hway.imp_right fun hpaved => hpaved skeleton)
    · have htop : tree.Reaches ⟨['/']⟩ := (opens_nil _ _).mpr (get?_nil tree)
      exact (h cacheRoot).isCached_congr hhome hview (pageSlot_not_mem _ _ _ _ _ _ _) (.inl htop)
    · rw [h, h]

end Building

end ClassSkeleton
