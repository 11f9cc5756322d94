import ClassSkeleton.Proofs.Stage.Stored
import ClassSkeleton.Proofs.Storage.Pairing

/-!
Building a skeleton delivers both of its files or neither. What the tree has in the way of one of
them, of its sibling or of their parent is found out while the files are staged, or else by
renaming; the header is in place for a moment without its source, and is taken back if the source
cannot follow.
-/
namespace ClassSkeleton

open ClassSkeleton.Tree Storage

namespace Entity

variable {faulty : Operation → Prop} {entity : Entity} {root : Path} {skeleton : Skeleton}
  {write : SkeletonWrite} {tree left : Tree}

def skeletonGoals (entity : Entity) (root : Path) (tree : Tree) : List Place :=
  [partOf (entity.headerPath root), partOf (entity.sourcePath root), entity.headerPath root,
    entity.sourcePath root].map tree.goal

/-- Header and source are there, no sibling is left over, and no other file has changed. -/
structure Delivers (entity : Entity) (root : Path) (skeleton : Skeleton) (tree left : Tree) :
    Prop where
  header : left.Holds (entity.headerPath root) skeleton.header
  source : left.Holds (entity.sourcePath root) skeleton.source
  headerPart : left.isFile (partOf (entity.headerPath root)) = false
  sourcePart : left.isFile (partOf (entity.sourcePath root)) = false
  others : ∀ place ∉ entity.skeletonGoals root tree, tree.SameFile left place

/-- There is no header, since the source could not be renamed into place. -/
def Withdrawn (entity : Entity) (root : Path) (skeleton : Skeleton) (tree left : Tree) : Prop :=
  left.exists? (entity.headerPath root) = false ∧
    ∃ e, (.rename (partOf (entity.sourcePath root)) (entity.sourcePath root), .error e) ∈
      (writeSkeleton entity root skeleton).trace tree

/-- No file has changed, but a header may have been withdrawn and siblings may be gone. A pinned
path leads to what it led to before. -/
structure Withholds (entity : Entity) (root : Path) (skeleton : Skeleton) (tree left : Tree) :
    Prop where
  header : tree.SameFile left (tree.goal (entity.headerPath root)) ∨
    entity.Withdrawn root skeleton tree left
  source : tree.SameFile left (tree.goal (entity.sourcePath root))
  headerPart : tree.SameFile left (tree.goal (partOf (entity.headerPath root))) ∨
    left.isFile (partOf (entity.headerPath root)) = false
  sourcePart : tree.SameFile left (tree.goal (partOf (entity.sourcePath root))) ∨
    left.isFile (partOf (entity.sourcePath root)) = false
  others : ∀ place ∉ entity.skeletonGoals root tree, tree.SameFile left place
  pinned : tree.Pins (entity.headerPath root) →
    tree.SameAt left (entity.sourcePath root) ∧
      (tree.SameAt left (entity.headerPath root) ∨ entity.Withdrawn root skeleton tree left)

/-- The source could not be renamed into place, and there is no header if it can be removed. -/
def Revoked (faulty : Operation → Prop) (entity : Entity) (root : Path) (write : SkeletonWrite)
    (left : Tree) : Prop :=
  (∃ path e, write = .withdrawn path e) ∧
    (¬ faulty (.remove (entity.headerPath root)) → left.exists? (entity.headerPath root) = false)

/-- What is left when operations may be faulty. No file has changed but the siblings, which are as
they were or gone if they can be removed, and a header that has been revoked. -/
structure Spared (faulty : Operation → Prop) (entity : Entity) (root : Path)
    (write : SkeletonWrite) (tree left : Tree) : Prop where
  header : tree.SameFile left (tree.goal (entity.headerPath root)) ∨
    entity.Revoked faulty root write left
  source : tree.SameFile left (tree.goal (entity.sourcePath root))
  headerPart : Swept faulty (entity.headerPath root) tree left
  sourcePart : Swept faulty (entity.sourcePath root) tree left
  others : ∀ place ∉ entity.skeletonGoals root tree, tree.SameFile left place
  pinned : tree.Pins (entity.headerPath root) →
    tree.SameAt left (entity.sourcePath root) ∧
      (tree.SameAt left (entity.headerPath root) ∨ entity.Revoked faulty root write left)

theorem partName_header_ne (entity : Entity) :
    partName (entity.fileName "h".toList) ≠ entity.fileName "c".toList := by
  rw [partName_fileName]
  exact fun h => absurd (fileName_inj h).2 (by decide)

theorem delivers_of_paired {header source : Path}
    (h : Paired faulty (entity.headerPath root) (entity.sourcePath root) skeleton tree
      (.written header source) left) : entity.Delivers root skeleton tree left where
  header := h.2.1
  source := h.2.2.1
  headerPart := h.2.2.2.1
  sourcePart := h.2.2.2.2
  others := h.1.files

section Written

variable (hname : '/' ∉ entity.name)

include hname

theorem spared_of_drifts {slots : List Place}
    (hdrifts : Drifts (tree.madeFor (entity.headerPath root)) slots tree left)
    (hslots : slots ⊆ entity.skeletonGoals root tree)
    (hheader : tree.goal (entity.headerPath root) ∉ slots ∨ entity.Revoked faulty root write left)
    (hsource : tree.goal (entity.sourcePath root) ∉ slots)
    (hheaderPart : Swept faulty (entity.headerPath root) tree left)
    (hsourcePart : Swept faulty (entity.sourcePath root) tree left) :
    entity.Spared faulty root write tree left where
  header := hheader.imp_left (hdrifts.files _)
  source := hdrifts.files _ hsource
  headerPart := hheaderPart
  sourcePart := hsourcePart
  others place hplace := hdrifts.files place fun hslot => hplace (hslots hslot)
  pinned hpins := by
    have hbeside := beside hname root
    have hsourceWay := (pins_beside hbeside hpins).unmoved
    rw [madeFor_beside hbeside] at hsourceWay
    exact ⟨hdrifts.lookup_toOption hsourceWay fun _ _ _ => hsource,
      hheader.imp_left fun hslot => hdrifts.lookup_toOption hpins.unmoved fun _ _ _ => hslot⟩

/-- Whichever operations fail, and however much of their work they leave behind, writing a skeleton
delivers it or spares what was there. -/
theorem writeSkeleton_delivers (faulty : Operation → Prop) (root : Path) (skeleton : Skeleton)
    (tree : Tree) (hcomes : Script.Comes faulty (writeSkeleton entity root skeleton, tree)
      (.done write, left)) :
    (∃ paths, write.outcome = .ok paths) ∧ entity.Delivers root skeleton tree left ∨
      (∃ e, write.outcome = .error e) ∧ entity.Spared faulty root write tree left := by
  have hbeside := beside hname root
  have hseparate := separate hbeside entity.partName_header_ne tree
  have hpaired : Paired faulty (entity.headerPath root) (entity.sourcePath root) skeleton tree write
      left :=
    ((writeSkeleton_secures hbeside entity.partName_header_ne faulty skeleton tree).comes hcomes).2
  cases write with
  | written header source => exact .inl ⟨⟨_, rfl⟩, delivers_of_paired hpaired⟩
  | failed e =>
    obtain ⟨hdrifts, hheaderPart, hsourcePart⟩ := hpaired
    refine .inr ⟨⟨e, rfl⟩, spared_of_drifts hname hdrifts (by simp [skeletonGoals]) (.inl ?_) ?_
      hheaderPart hsourcePart⟩
    · simp [hseparate.ofHeader.symm, hseparate.sourcePart.symm]
    · simp [hseparate.ofSource.symm, hseparate.headerPart.symm]
  | withdrawn header e =>
    obtain ⟨hdrifts, hgone, hheaderPart, hsourcePart⟩ := hpaired
    refine .inr ⟨⟨e, rfl⟩, spared_of_drifts hname hdrifts (by simp [skeletonGoals])
      (.inr ⟨⟨header, e, rfl⟩, hgone⟩) ?_ hheaderPart hsourcePart⟩
    simp [hseparate.ofSource.symm, hseparate.headerPart.symm, hseparate.files.symm]

end Written

theorem withdrawn_of_revoked (h : entity.Revoked (fun _ => False) root write left)
    (hwrite : ((writeSkeleton entity root skeleton).run tree).1 = write) :
    entity.Withdrawn root skeleton tree left := by
  obtain ⟨⟨path, e, rfl⟩, hgone⟩ := h
  exact ⟨hgone fun hfaulty => hfaulty, e, rename_of_withdrawn hwrite⟩

theorem withholds_of_spared (h : entity.Spared (fun _ => False) root write tree left)
    (hwrite : ((writeSkeleton entity root skeleton).run tree).1 = write) :
    entity.Withholds root skeleton tree left where
  header := h.header.imp_right fun hrevoked => withdrawn_of_revoked hrevoked hwrite
  source := h.source
  headerPart := h.headerPart.imp_right fun hcleared => hcleared fun hfaulty => hfaulty
  sourcePart := h.sourcePart.imp_right fun hcleared => hcleared fun hfaulty => hfaulty
  others := h.others
  pinned hpins := ⟨(h.pinned hpins).1, (h.pinned hpins).2.imp_right fun hrevoked =>
    withdrawn_of_revoked hrevoked hwrite⟩

theorem run_writeSkeleton (hname : '/' ∉ entity.name) (root : Path) (skeleton : Skeleton)
    (tree : Tree) :
    let ran := (writeSkeleton entity root skeleton).run tree
    (∃ paths, ran.1.outcome = .ok paths) ∧ entity.Delivers root skeleton tree ran.2 ∨
      (∃ e, ran.1.outcome = .error e) ∧ entity.Withholds root skeleton tree ran.2 := by
  intro ran
  have hcomes := Script.comes_run (fun _ => False) (writeSkeleton entity root skeleton) tree
  exact (writeSkeleton_delivers hname _ root skeleton tree hcomes).imp_right
    (And.imp_right fun hspared => withholds_of_spared hspared rfl)

/-- Below a root that is found the files of a skeleton are pinned. -/
theorem pins_of_finds (hname : '/' ∉ entity.name) (hfinds : tree.Finds root) :
    tree.Pins (entity.headerPath root) := by
  obtain ⟨hends, habsolute⟩ := headerPath_ends hname root
  have hproper : ∀ name ∈ entity.folders ++ [entity.fileName "h".toList], name ≠ ['.', '.'] := by
    intro name hmem hup
    rcases List.mem_append.mp hmem with hfolder | hfile
    · have hdots := isDots_of_mem_folders hfolder
      rw [hup] at hdots
      cases hdots
    · have hdots := hends.proper
      rw [← List.mem_singleton.mp hfile, hup] at hdots
      cases hdots
  refine .inr ?_
  rw [hends.leadsTo.names, named_above entity root hname, Path.startOf_eq, habsolute,
    List.append_assoc]
  rcases hfinds with hdown | hopen
  · refine Anchored.of_downward fun name hmem => ?_
    exact (List.mem_append.mp hmem).elim (hdown name) (hproper name)
  · exact Anchored.of_opens hopen hproper

/-- The page in the cache can be read, and is a class page with this outline. -/
def Outlines (entity : Entity) (cacheRoot : Path) (tree : Tree) (outline : Outline) : Prop :=
  ∃ page, tree.readText (entity.cachePath cacheRoot) = .ok page ∧
    ClassPage.result page entity = .ok (.outline outline)

theorem buildCached_cases (hname : '/' ∉ entity.name) (cacheRoot outRoot : Path) (tree : Tree) :
    let built := buildCached cacheRoot outRoot entity tree
    (∃ outline, entity.Outlines cacheRoot tree outline ∧
      (built.outcome = .ok .written ∧
          entity.Delivers outRoot (Skeleton.ofOutline outline) tree built.tree ∨
        (∃ e, built.outcome = .error e) ∧
          entity.Withholds outRoot (Skeleton.ofOutline outline) tree built.tree)) ∨
      (∀ outline, ¬ entity.Outlines cacheRoot tree outline) ∧ built.outcome ≠ .ok .written ∧
        built.tree = tree := by
  intro built
  have hbuilt : built = buildCached cacheRoot outRoot entity tree := rfl
  rw [buildCached] at hbuilt
  cases hread : tree.readText (entity.cachePath cacheRoot) with
  | error e =>
    simp only [hread] at hbuilt
    refine .inr ⟨fun outline ⟨page, hpage, _⟩ => ?_, by simp [hbuilt], by rw [hbuilt]⟩
    rw [hread] at hpage
    cases hpage
  | ok page =>
    have hresult : ∀ outline, entity.Outlines cacheRoot tree outline ↔
        (ClassPage.read page entity).outcome = .ok (.outline outline) := by
      intro outline
      simp [Outlines, hread, ClassPage.result]
    simp only [hread] at hbuilt
    cases houtcome : (ClassPage.read page entity).outcome with
    | error e =>
      simp only [houtcome] at hbuilt
      exact .inr ⟨fun outline => by simp [hresult, houtcome], by simp [hbuilt], by rw [hbuilt]⟩
    | ok result =>
      cases result with
      | notImplemented kind =>
        simp only [houtcome] at hbuilt
        exact .inr ⟨fun outline => by simp [hresult, houtcome], by simp [hbuilt], by rw [hbuilt]⟩
      | outline outline =>
        refine .inl ⟨outline, (hresult outline).mpr houtcome, ?_⟩
        simp only [houtcome] at hbuilt
        rcases run_writeSkeleton hname outRoot (Skeleton.ofOutline outline) tree with
          ⟨⟨paths, hwrite⟩, hdelivers⟩ | ⟨⟨e, hwrite⟩, hwithholds⟩
        · simp only [hwrite] at hbuilt
          exact .inl ⟨by rw [hbuilt], by rw [hbuilt]; exact hdelivers⟩
        · simp only [hwrite] at hbuilt
          exact .inr ⟨⟨.io e, by rw [hbuilt]⟩, by rw [hbuilt]; exact hwithholds⟩

end Entity

/-- Building a skeleton delivers both files that the page asks for. If the page asks for none the
tree stays as it is; and if they cannot be written, nothing stands where they were to go that was
not there before. -/
theorem buildCached_both_or_neither {entity : Entity} (hname : '/' ∉ entity.name)
    (cacheRoot outRoot : Path) (tree : Tree) :
    let built := buildCached cacheRoot outRoot entity tree
    (built.outcome = .ok .written → ∃ outline, entity.Outlines cacheRoot tree outline ∧
      entity.Delivers outRoot (Skeleton.ofOutline outline) tree built.tree) ∧
    (∀ kind, built.outcome = .ok (.notImplemented kind) → built.tree = tree) ∧
    ∀ e, built.outcome = .error e →
      (∀ outline, ¬ entity.Outlines cacheRoot tree outline) ∧ built.tree = tree ∨
        ∃ outline, entity.Outlines cacheRoot tree outline ∧
          entity.Withholds outRoot (Skeleton.ofOutline outline) tree built.tree := by
  intro built
  rcases Entity.buildCached_cases hname cacheRoot outRoot tree with
    ⟨outline, hasked, ⟨houtcome, hdelivers⟩ | ⟨⟨cause, houtcome⟩, hwithholds⟩⟩ |
    ⟨hnone, hunwritten, htree⟩
  · refine ⟨fun _ => ⟨outline, hasked, hdelivers⟩, fun kind hkind => ?_, fun e he => ?_⟩
    · rw [houtcome] at hkind
      cases hkind
    · rw [houtcome] at he
      cases he
  · refine ⟨fun hwritten => ?_, fun kind hkind => ?_, fun e _ => .inr ⟨outline, hasked, hwithholds⟩⟩
    · rw [houtcome] at hwritten
      cases hwritten
    · rw [houtcome] at hkind
      cases hkind
  · exact ⟨fun hwritten => absurd hwritten hunwritten, fun _ _ => htree,
      fun _ _ => .inl ⟨hnone, htree⟩⟩

def blockedTree : Tree :=
  [(["c".toList], Entry.directory),
    (["c".toList, "X.html".toList],
      .file (.text "<h2 title=\"Class X\"><pre>class X</pre>".toList)),
    (["o".toList], .directory), (["o".toList, "X.h".toList], .file (.text "old".toList)),
    (["o".toList, "X.c".toList], .directory)].foldl
      (fun tree item => tree.put item.1 item.2) (Tree.bare [])

/-- A source that cannot be renamed into place takes its header with it. -/
theorem buildCached_both_or_neither_blocked :
    let entity : Entity := ⟨"X".toList, "u".toList, by decide⟩
    let built := buildCached ⟨"c".toList⟩ ⟨"o".toList⟩ entity blockedTree
    '/' ∉ entity.name ∧ built.outcome = .error (.io .isDirectory) ∧
      built.tree.exists? (entity.headerPath ⟨"o".toList⟩) = false ∧
      blockedTree.SameAt built.tree (entity.sourcePath ⟨"o".toList⟩) ∧
      ∃ outline, entity.Outlines ⟨"c".toList⟩ blockedTree outline ∧
        entity.Withholds ⟨"o".toList⟩ (Skeleton.ofOutline outline) blockedTree built.tree := by
  intro entity built
  have hname : '/' ∉ entity.name := by decide
  have hfailed : built.outcome = .error (.io .isDirectory) := by decide +kernel
  have hgone : built.tree.exists? (entity.headerPath ⟨"o".toList⟩) = false := by decide +kernel
  have hbefore : blockedTree.exists? (entity.headerPath ⟨"o".toList⟩) = true := by decide +kernel
  obtain ⟨-, -, hwithheld⟩ :=
    buildCached_both_or_neither hname ⟨"c".toList⟩ ⟨"o".toList⟩ blockedTree
  rcases hwithheld _ hfailed with ⟨-, hsame⟩ | ⟨outline, houtline, hwithholds⟩
  · have htree : built.tree = blockedTree := hsame
    rw [htree, hbefore] at hgone
    cases hgone
  · have hfinds : blockedTree.Finds ⟨"o".toList⟩ := .inl (by decide)
    have hpins := Entity.pins_of_finds hname hfinds
    exact ⟨hname, hfailed, hgone, (hwithholds.pinned hpins).1, outline, houtline, hwithholds⟩

/-- The directories that are made for a skeleton can stand where its source was to go. -/
theorem not_sameAt_sourcePath :
    ¬ ∀ (entity : Entity) (cacheRoot outRoot : Path) (tree : Tree) (e : Failure),
      '/' ∉ entity.name → (buildCached cacheRoot outRoot entity tree).outcome = .error e →
        tree.SameAt (buildCached cacheRoot outRoot entity tree).tree
          (entity.sourcePath outRoot) := by
  intro hclaim
  have hfailed : (buildCached ⟨"c".toList⟩ ⟨"X.c/..".toList⟩
      ⟨"X".toList, "u".toList, by decide⟩ blockedTree).outcome = .error (.io .isDirectory) := by
    decide +kernel
  exact absurd (hclaim _ _ _ _ _ (by decide) hfailed) (by decide +kernel)

end ClassSkeleton
