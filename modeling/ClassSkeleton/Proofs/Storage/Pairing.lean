import ClassSkeleton.Proofs.Storage.Pair
import ClassSkeleton.Proofs.Storage.Replacing

/-!
Writing the two files of a skeleton, from operation to operation. Nothing but their siblings
changes until the first of them is renamed; when the second cannot be renamed, the first is taken
back; and no sibling is left over that has been written on the way.
-/
namespace ClassSkeleton

open ClassSkeleton.Tree

namespace Storage

variable {faulty : Operation → Prop} {path header source : Path} {tree left last : Tree}
  {above : List Text} {headerName sourceName contents : Text} {skeleton : Skeleton}

theorem madeFor_of_isFile (h : tree.isFile (partOf path) = true) : tree.madeFor path = [] := by
  rw [madeFor]
  split
  · rfl
  · rename_i parent hparent
    rw [if_pos]
    rw [Bool.or_eq_true, List.isEmpty_iff, or_iff_not_imp_left]
    exact fun htext => exists_of_isDirectory (isDirectory_of_isFile_partOf hparent htext h)

theorem isFile_of_holds (h : tree.Holds path contents) : tree.isFile path = true := by
  rw [isFile, h]

theorem exists?_of_gone {slots : List Place} (hholds : left.Holds path contents)
    (hdrifts : Drifts [] slots left last) (hgone : last.isFile path = false) :
    last.exists? path = false := by
  rw [exists?]
  cases hlook : last.lookup path with
  | error e => rfl
  | ok found =>
    obtain ⟨place, - | content⟩ := found
    · rw [hdrifts.lookup_directory (.inl rfl), hholds] at hlook
      cases hlook
    · simp [isFile, hlook] at hgone

/-- The sibling of a path is as it was, or there is none if it can be removed. -/
def Swept (faulty : Operation → Prop) (path : Path) (tree left : Tree) : Prop :=
  tree.SameFile left (tree.goal (partOf path)) ∨ Cleared faulty left path

/-- How the writing of two files ends. -/
def Paired (faulty : Operation → Prop) (header source : Path) (skeleton : Skeleton) (tree : Tree) :
    SkeletonWrite → Tree → Prop
  | .written _ _, left =>
    Drifts (tree.madeFor header)
        [tree.goal (partOf header), tree.goal (partOf source), tree.goal header, tree.goal source]
        tree left ∧
      left.Holds header skeleton.header ∧ left.Holds source skeleton.source ∧
      left.isFile (partOf header) = false ∧ left.isFile (partOf source) = false
  | .failed _, left =>
    Drifts (tree.madeFor header) [tree.goal (partOf header), tree.goal (partOf source)] tree left ∧
      Swept faulty header tree left ∧ Swept faulty source tree left
  | .withdrawn _ _, left =>
    Drifts (tree.madeFor header)
        [tree.goal (partOf header), tree.goal (partOf source), tree.goal header] tree left ∧
      (¬ faulty (.remove header) → left.exists? header = false) ∧
      Swept faulty header tree left ∧ Swept faulty source tree left

/-- The places of two files and their siblings are four. -/
structure Separate (tree : Tree) (header source : Path) : Prop where
  parts : tree.goal (partOf header) ≠ tree.goal (partOf source)
  files : tree.goal header ≠ tree.goal source
  ofHeader : tree.goal (partOf header) ≠ tree.goal header
  ofSource : tree.goal (partOf source) ≠ tree.goal source
  headerPart : tree.goal (partOf header) ≠ tree.goal source
  sourcePart : tree.goal (partOf source) ≠ tree.goal header

section Goals

variable (h : Beside header source above headerName sourceName)

include h

theorem separate (hpart : partName headerName ≠ sourceName) (tree : Tree) :
    Separate tree header source := by
  have hheaderPart : tree.goal (partOf header) =
      slotOf tree.home header.isAbsolute above (partName headerName) := by
    rw [goal_eq_spot (leadsTo_partOf h.headerEnds), spot_partOf]
  have hsourcePart : tree.goal (partOf source) =
      slotOf tree.home header.isAbsolute above (partName sourceName) := by
    rw [goal_eq_spot (leadsTo_partOf h.sourceEnds), spot_partOf, h.absolute]
  have hheader := goal_eq_spot h.headerEnds.leadsTo tree
  have hsource := goal_eq_spot h.sourceEnds.leadsTo tree
  rw [h.absolute] at hsource
  have hself : ∀ name : Text, partName name ≠ name := fun name hname => by
    have hlength := congrArg List.length hname
    simp [partName] at hlength
  have hparts : partName headerName ≠ partName sourceName := by
    simpa [partName] using h.names
  constructor <;> simp [hheaderPart, hsourcePart, hheader, hsource, slotOf_inj, hself, hparts,
    hpart, h.part, h.names]

theorem madeFor_beside (tree : Tree) : tree.madeFor source = tree.madeFor header := by
  rw [madeFor, madeFor, h.sourceEnds.parent?, h.headerEnds.parent?, h.absolute]

theorem pins_beside (hpins : tree.Pins header) : tree.Pins source := by
  refine hpins.imp (fun hparent => ?_) fun hanchored => ?_
  · rwa [h.sourceEnds.parent?, h.absolute, ← h.headerEnds.parent?]
  · rw [h.headerEnds.leadsTo.names] at hanchored
    rw [h.sourceEnds.leadsTo.names, Path.startOf_eq, h.absolute, ← Path.startOf_eq]
    exact (hanchored.initial (List.prefix_append _ _)).concat h.sourceEnds.proper

end Goals

theorem Cleared.drifts {slots : List Place} (h : Cleared faulty left path)
    (hdrifts : Drifts [] slots left last) (hslot : left.goal (partOf path) ∉ slots) :
    Cleared faulty last path := fun hsound => (hdrifts.isFile_eq rfl hslot).trans (h hsound)

section Course

variable (hseparate : Separate tree header source)

include hseparate

theorem commitSource_secures (faulty : Operation → Prop) {dirs : List Text} {name : Text}
    {absolute : Bool} (hleads : header.LeadsTo absolute dirs name)
    (hdrifts : Drifts (tree.madeFor header)
      [tree.goal (partOf header), tree.goal (partOf source), tree.goal header] tree left)
    (hheader : left.Holds header skeleton.header) (hgone : left.isFile (partOf header) = false)
    (hsource : left.Holds (partOf source) skeleton.source) :
    (commit (partOf source) source >>= fun outcome => match outcome with
      | .error e => Script.operation (.remove header) >>= fun _ => pure (.withdrawn header e)
      | .ok _ => pure (.written header source)).Secures faulty (fun _ => True)
        (Paired faulty header source skeleton tree) left := by
  have hgoal : ∀ path, left.goal path = tree.goal path := goal_congr hdrifts.home
  refine ((commit_secures faulty hsource).weaken fun _ _ => trivial).bind
    fun outcome last hlast => ?_
  cases outcome with
  | ok u =>
    obtain ⟨hmoved, hholds, hsourceGone⟩ := hlast
    have hheaderSlot : left.goal header ∉ [left.goal (partOf source), left.goal source] := by
      simp [hgoal, hseparate.sourcePart.symm, hseparate.files]
    have hpartSlot : left.goal (partOf header) ∉ [left.goal (partOf source), left.goal source] := by
      simp [hgoal, hseparate.parts, hseparate.headerPart]
    refine ⟨trivial, ?_, hheader.drifts hmoved hheaderSlot, hholds, ?_, hsourceGone⟩
    · refine (hdrifts.mono (List.Subset.refl _) (by simp)).trans
        (hmoved.mono (List.nil_subset _) (by simp [hgoal]))
    · exact (hmoved.isFile_eq rfl hpartSlot).trans hgone
  | error e =>
    obtain ⟨hfailed, hcleared⟩ := hlast
    have hgoalLast : ∀ path, last.goal path = tree.goal path := fun path =>
      (goal_congr hfailed.home path).trans (hgoal path)
    refine ⟨trivial, fun outcome final hends => ⟨trivial, ?_, ?_, .inr fun _ => ?_, .inr ?_⟩⟩
    · refine (hdrifts.trans (hfailed.mono (List.nil_subset _) ?_)).trans
        (hends.drifts.mono (List.nil_subset _) ?_)
      · simp [hgoal]
      · simp [Operation.slots, hgoalLast]
    · intro hsound
      refine exists?_of_gone (hheader.drifts hfailed ?_) hends.drifts
        (hends.remove_isFile hleads hsound)
      simp [hgoal, hseparate.sourcePart.symm]
    · rw [hends.drifts.isFile_eq rfl (by simp [Operation.slots, hgoalLast, hseparate.ofHeader]),
        hfailed.isFile_eq rfl (by simp [hgoal, hseparate.parts]), hgone]
    · exact hcleared.drifts hends.drifts
        (by simp [Operation.slots, hgoalLast, hseparate.sourcePart])

theorem commitHeader_secures (faulty : Operation → Prop) {dirs : List Text} {name : Text}
    {absolute : Bool} (hleads : header.LeadsTo absolute dirs name)
    (hdrifts : Drifts (tree.madeFor header)
      [tree.goal (partOf header), tree.goal (partOf source)] tree left)
    (hheader : left.Holds (partOf header) skeleton.header)
    (hsource : left.Holds (partOf source) skeleton.source) :
    (commit (partOf header) header >>= fun outcome => match outcome with
      | .error e => Script.operation (.remove (partOf source)) >>= fun _ => pure (.failed e)
      | .ok _ => commit (partOf source) source >>= fun outcome => match outcome with
        | .error e => Script.operation (.remove header) >>= fun _ => pure (.withdrawn header e)
        | .ok _ => pure (.written header source)).Secures faulty (fun _ => True)
        (Paired faulty header source skeleton tree) left := by
  have hgoal : ∀ path, left.goal path = tree.goal path := goal_congr hdrifts.home
  refine ((commit_secures faulty hheader).weaken fun _ _ => trivial).bind
    fun outcome last hlast => ?_
  cases outcome with
  | ok u =>
    obtain ⟨hmoved, hholds, hgone⟩ := hlast
    refine commitSource_secures hseparate faulty hleads ?_ hholds hgone (hsource.drifts hmoved ?_)
    · exact (hdrifts.mono (List.Subset.refl _) (by simp)).trans
        (hmoved.mono (List.nil_subset _) (by simp [hgoal]))
    · simp [hgoal, hseparate.parts.symm, hseparate.sourcePart]
  | error e =>
    obtain ⟨hfailed, hcleared⟩ := hlast
    have hgoalLast : ∀ path, last.goal path = tree.goal path := fun path =>
      (goal_congr hfailed.home path).trans (hgoal path)
    refine remove_secures trivial fun final hremoved hclearedSource =>
      ⟨trivial, ?_, .inr ?_, .inr hclearedSource⟩
    · exact (hdrifts.trans (hfailed.mono (List.nil_subset _) (by simp [hgoal]))).trans
        (hremoved.mono (List.nil_subset _) (by simp [hgoalLast]))
    · exact hcleared.drifts hremoved (by simp [hgoalLast, hseparate.parts])

theorem stageSource_secures (faulty : Operation → Prop) {dirs : List Text} {name : Text}
    {absolute : Bool} (hleads : header.LeadsTo absolute dirs name)
    (hmade : left.madeFor source = []) (hpending : Pending header tree left)
    (hheader : left.Holds (partOf header) skeleton.header) :
    (stage source skeleton.source >>= fun outcome => match outcome with
      | .error e => Script.operation (.remove (partOf header)) >>= fun _ => pure (.failed e)
      | .ok part => commit (partOf header) header >>= fun outcome => match outcome with
        | .error e => Script.operation (.remove part) >>= fun _ => pure (.failed e)
        | .ok _ => commit part source >>= fun outcome => match outcome with
          | .error e => Script.operation (.remove header) >>= fun _ => pure (.withdrawn header e)
          | .ok _ => pure (.written header source)).Secures faulty (fun _ => True)
        (Paired faulty header source skeleton tree) left := by
  have hgoal : ∀ path, left.goal path = tree.goal path := goal_congr hpending.home
  have hpair : Drifts (tree.madeFor header)
      [tree.goal (partOf header), tree.goal (partOf source)] tree left :=
    hpending.mono (List.Subset.refl _) (by simp)
  refine ((stage_secures faulty source skeleton.source left).weaken fun _ _ => trivial).bind
    fun outcome last hlast => ?_
  cases outcome with
  | ok part =>
    obtain ⟨hstaged, rfl, hsource⟩ := hlast
    rw [Pending, hmade] at hstaged
    refine commitHeader_secures hseparate faulty hleads ?_ (hheader.drifts hstaged ?_) hsource
    · exact hpair.trans (hstaged.mono (List.nil_subset _) (by simp [hgoal]))
    · simp [hgoal, hseparate.parts]
  | error e =>
    obtain ⟨hstaged, hswept⟩ := hlast
    rw [Pending, hmade] at hstaged
    have hgoalLast : ∀ path, last.goal path = tree.goal path := fun path =>
      (goal_congr hstaged.home path).trans (hgoal path)
    refine remove_secures trivial fun final hremoved hclearedHeader =>
      ⟨trivial, ?_, .inr hclearedHeader, ?_⟩
    · exact (hpair.trans (hstaged.mono (List.nil_subset _) (by simp [hgoal]))).trans
        (hremoved.mono (List.nil_subset _) (by simp [hgoalLast]))
    · rcases hswept with hunready | hcleared
      · refine .inl fun content => ?_
        have hapart := hseparate.parts.symm
        rw [hremoved.files _ (by simpa [hgoalLast] using hapart),
          hunready.1.files _ List.not_mem_nil,
          hpending.files _ (by simpa using hapart)]
      · exact .inr (hcleared.drifts hremoved (by simp [hgoalLast, hseparate.parts.symm]))

end Course

/-- Two files beside each other are both written, or neither is; whatever fails. -/
theorem writeSkeleton_secures {entity : Entity} {root : Path}
    (h : Beside (entity.headerPath root) (entity.sourcePath root) above headerName sourceName)
    (hpart : partName headerName ≠ sourceName) (faulty : Operation → Prop) (skeleton : Skeleton)
    (tree : Tree) :
    (writeSkeleton entity root skeleton).Secures faulty (fun _ => True)
      (Paired faulty (entity.headerPath root) (entity.sourcePath root) skeleton tree) tree := by
  have hseparate := separate h hpart tree
  have hmade : ∀ left : Tree, left.madeFor (entity.sourcePath root) =
      left.madeFor (entity.headerPath root) := madeFor_beside h
  have hleads := h.headerEnds.leadsTo
  unfold writeSkeleton
  simp only
  generalize entity.headerPath root = header, entity.sourcePath root = source at *
  refine ((stage_secures faulty header skeleton.header tree).weaken fun _ _ => trivial).bind
    fun outcome left hleft => ?_
  cases outcome with
  | ok part =>
    obtain ⟨hpending, rfl, hheader⟩ := hleft
    refine stageSource_secures hseparate faulty hleads ?_ hpending hheader
    rw [hmade, madeFor_of_isFile (isFile_of_holds hheader)]
  | error e =>
    obtain ⟨hpending, hswept⟩ := hleft
    refine ⟨trivial, hpending.mono (List.Subset.refl _) (by simp), ?_, .inl fun content => ?_⟩
    · exact hswept.imp_left fun hunready content => hunready.1.files _ List.not_mem_nil content
    · exact hpending.files _ (by simpa using hseparate.parts.symm) content

theorem trace_commit {part : Path} {e : IoCause} (h : ((commit part path).run tree).1 = .error e) :
    (.rename part path, .error e) ∈ (commit part path).trace tree := by
  rw [commit_run] at h
  rw [commit, Script.trace_bind]
  refine List.mem_append_left _ (List.mem_singleton.mpr ?_)
  cases hrename : tree.rename part path with
  | ok moved => simp [hrename] at h
  | error cause =>
    rw [hrename] at h
    rw [← h]

/-- The header is taken back only if the source could not be renamed. -/
theorem rename_of_withdrawn {entity : Entity} {root : Path} {e : IoCause}
    (h : ((writeSkeleton entity root skeleton).run tree).1 = .withdrawn header e) :
    (.rename (partOf (entity.sourcePath root)) (entity.sourcePath root), .error e) ∈
      (writeSkeleton entity root skeleton).trace tree := by
  refine Script.mem_trace_of_bind (fun staged left _ h => ?_) h
  cases staged with
  | error e => cases h
  | ok headerPart =>
    refine Script.mem_trace_of_bind (fun staged last hstage h => ?_) h
    cases staged with
    | error e => cases h
    | ok sourcePart =>
      have hstaged := (stage_secures (fun _ => False) (entity.sourcePath root) skeleton.source
        left).run
      rw [hstage] at hstaged
      obtain ⟨-, rfl, -⟩ := hstaged
      refine Script.mem_trace_of_bind (fun committed last _ h => ?_) h
      cases committed with
      | error e => cases h
      | ok u =>
        rw [Script.run_bind] at h
        rw [Script.trace_bind]
        refine List.mem_append_left _ (trace_commit ?_)
        cases hcommit : ((commit (partOf (entity.sourcePath root)) (entity.sourcePath root)).run
            last).1 with
        | error cause =>
          rw [hcommit] at h
          cases h
          rfl
        | ok u =>
          rw [hcommit] at h
          cases h

end Storage

end ClassSkeleton
