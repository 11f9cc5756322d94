import ClassSkeleton.Proofs.Stage.Stored
import ClassSkeleton.Proofs.Storage.Components

/-!
The files of all entities below one root. No two of them have the same path and none stands where
another needs a directory, so what is written for one entity leaves the files of the others alone
and ends as it would without them. What can change for others is the way to the root: a root that
is reached by way of a directory that does not exist is found once something has been written.
-/
namespace ClassSkeleton

open ClassSkeleton.Tree Storage

inductive FileKind where
  | page
  | header
  | source
  deriving DecidableEq

/-- A file of an entity, or the sibling that it is written to first. -/
structure EntityFile where
  kind : FileKind
  staged : Bool
  deriving DecidableEq

namespace FileKind

def ending : FileKind → Text
  | .page => "html".toList
  | .header => "h".toList
  | .source => "c".toList

end FileKind

namespace EntityFile

def ending (file : EntityFile) : Text :=
  file.kind.ending ++ if file.staged then ".part".toList else []

theorem ending_inj {file other : EntityFile} (h : file.ending = other.ending) : file = other := by
  obtain ⟨kind, staged⟩ := file
  obtain ⟨otherKind, otherStaged⟩ := other
  revert h
  cases kind <;> cases staged <;> cases otherKind <;> cases otherStaged <;> decide

end EntityFile

namespace Entity

variable {entity other : Entity} {root : Path} {tree left : Tree}

def keptPath (entity : Entity) (root : Path) : FileKind → Path
  | .page => entity.cachePath root
  | .header => entity.headerPath root
  | .source => entity.sourcePath root

def pathOf (entity : Entity) (root : Path) (file : EntityFile) : Path :=
  if file.staged then partOf (entity.keptPath root file.kind) else entity.keptPath root file.kind

theorem keptPath_ends (hname : '/' ∉ entity.name) (root : Path) (kind : FileKind) :
    (entity.keptPath root kind).Ends (entity.above root) (entity.fileName kind.ending) ∧
      (entity.keptPath root kind).isAbsolute = root.isAbsolute := by
  cases kind with
  | page => exact cachePath_ends hname root
  | header => exact headerPath_ends hname root
  | source => exact sourcePath_ends hname root

theorem components_pathOf (hname : '/' ∉ entity.name) (root : Path) (file : EntityFile) :
    (entity.pathOf root file).components =
      root.components ++ entity.folders ++ [entity.fileName file.ending] := by
  obtain ⟨kind, staged⟩ := file
  obtain ⟨hends, habsolute⟩ := keptPath_ends hname root kind
  rw [← components_above root hname]
  cases staged with
  | false =>
    rw [pathOf, if_neg (by simp), hends.components, habsolute, EntityFile.ending, if_neg (by simp),
      List.append_nil]
  | true =>
    rw [pathOf, if_pos rfl, hends.components_partOf, habsolute, partName_fileName,
      EntityFile.ending, if_pos rfl]

theorem leadsTo_pathOf (hname : '/' ∉ entity.name) (root : Path) (file : EntityFile) :
    ∃ dirs, (entity.pathOf root file).LeadsTo root.isAbsolute dirs (entity.fileName file.ending) ∧
      Path.SameWay dirs (root.names ++ entity.folders) := by
  obtain ⟨kind, staged⟩ := file
  obtain ⟨hends, habsolute⟩ := keptPath_ends hname root kind
  rw [← named_above entity root hname, ← habsolute]
  cases staged with
  | false =>
    refine ⟨Path.named (entity.above root), ?_,
      ⟨fun _ _ => rfl, fun _ _ => Iff.rfl, fun _ _ => Iff.rfl, fun _ => rfl⟩⟩
    rw [pathOf, if_neg (by simp), EntityFile.ending, if_neg (by simp), List.append_nil]
    exact hends.leadsTo
  | true =>
    refine ⟨Path.named (Path.settle (entity.above root)), ?_, Path.sameWay_settle _⟩
    rw [pathOf, if_pos rfl, EntityFile.ending, if_pos rfl, ← partName_fileName]
    exact leadsTo_partOf hends

theorem lookup_pathOf_iff (hname : '/' ∉ entity.name) {file : EntityFile} {place : Place}
    {content : Content} :
    tree.lookup (entity.pathOf root file) = .ok (place, .file content) ↔
      checkPath (entity.pathOf root file) = .ok () ∧ tree.Reaches root ∧
        place = entity.filePlace tree.home root file.ending ∧
        tree.get? place = some (.file content) := by
  obtain ⟨dirs, hleads, hsame⟩ := leadsTo_pathOf hname root file
  have hspot : spot tree.home root.isAbsolute dirs (entity.fileName file.ending) =
      entity.filePlace tree.home root file.ending := by
    rw [spot, hsame.seat, ← named_above entity root hname]
    exact slotOf_above hname file.ending
  rw [lookup_file_iff hleads, hspot, hsame.opens, opens_append]
  constructor
  · rintro ⟨hcheck, ⟨hopen, -⟩, hplace, hentry⟩
    exact ⟨hcheck, hopen, hplace, hentry⟩
  · rintro ⟨hcheck, hopen, rfl, hentry⟩
    exact ⟨hcheck, ⟨hopen, opens_folders (fun _ => isDots_of_mem_folders) hentry⟩, rfl, hentry⟩

theorem isFile_pathOf_iff (hname : '/' ∉ entity.name) {file : EntityFile} :
    tree.isFile (entity.pathOf root file) = true ↔
      checkPath (entity.pathOf root file) = .ok () ∧ tree.Reaches root ∧
        isFileAt tree.get? (entity.filePlace tree.home root file.ending) = true := by
  rw [isFile, isFileAt_iff]
  constructor
  · intro hfile
    split at hfile
    · rename_i place content hlook
      obtain ⟨hcheck, hopen, rfl, hentry⟩ := (lookup_pathOf_iff hname).mp hlook
      exact ⟨hcheck, hopen, content, hentry⟩
    · simp at hfile
  · rintro ⟨hcheck, hopen, content, hentry⟩
    rw [(lookup_pathOf_iff hname).mpr ⟨hcheck, hopen, rfl, hentry⟩]

end Entity

/-- What is written for an entity: the page that was loaded, or the skeleton. -/
inductive Writing where
  | page (body : Text)
  | pair (skeleton : Skeleton)

namespace Writing

/-- Whether the files could be written, and the tree afterwards. -/
def perform (entity : Entity) (root : Path) : Writing → Tree → Bool × Tree
  | .page body, tree =>
    let ran := (writePage entity root body).run tree
    (ran.1.toBool, ran.2)
  | .pair skeleton, tree =>
    let ran := (writeSkeleton entity root skeleton).run tree
    (ran.1.outcome.toBool, ran.2)

def edit (home : Place) (root : Path) (entity : Entity) : Writing → Edit
  | .page body => entity.pageEdit home root body
  | .pair skeleton => entity.skeletonEdit home root skeleton

def endings : Writing → List Text
  | .page _ => pageEndings
  | .pair _ => skeletonEndings

variable {entity other : Entity} {root : Path} {tree left : Tree}

theorem serves_edit (hname : '/' ∉ entity.name) (home : Place) (root : Path) (writing : Writing) :
    (writing.edit home root entity).Serves home root entity writing.endings := by
  cases writing with
  | page body => exact Entity.serves_pageEdit hname home root body
  | pair skeleton => exact Entity.serves_skeletonEdit hname home root skeleton

theorem perform_effect (hname : '/' ∉ entity.name) (root : Path) (writing : Writing) (tree : Tree) :
    (writing.perform entity root tree).2.home = tree.home ∧
      (writing.perform entity root tree).2.get? =
        ((writing.edit tree.home root entity).run tree.get?).2 ∧
      (writing.perform entity root tree).1 =
        ((writing.edit tree.home root entity).run tree.get?).1 := by
  cases writing with
  | page body =>
    have heffect := Entity.writePage_effect hname root body tree
    simp only [perform, edit]
    exact ⟨heffect.home, heffect.view, heffect.toBool⟩
  | pair skeleton =>
    have heffect := writeSkeleton_effect (Entity.beside hname root) skeleton tree
    have hok := heffect.toBool
    obtain ⟨hhome, hview, -, -⟩ := heffect
    simp only [settled] at hhome hview hok
    simp only [perform, edit]
    exact ⟨hhome, hview, hok⟩

end Writing

/-- What the files of the second entity and the writing for it have from the writing for the first:
files that are there stay as they are, the writing ends as it would have, the order does not
matter, and no file appears below a root that is found. -/
structure Undisturbed (root : Path) (entity other : Entity) (writing otherWriting : Writing)
    (tree : Tree) : Prop where
  kept : ∀ file, tree.isFile (other.pathOf root file) = true →
    (writing.perform entity root tree).2.lookup (other.pathOf root file) =
      tree.lookup (other.pathOf root file)
  outcome : (otherWriting.perform other root (writing.perform entity root tree).2).1 =
    (otherWriting.perform other root tree).1
  order : (otherWriting.perform other root (writing.perform entity root tree).2).2.get? =
    (writing.perform entity root (otherWriting.perform other root tree).2).2.get?
  absent : tree.Finds root → ∀ file,
    (writing.perform entity root tree).2.isFile (other.pathOf root file) =
      tree.isFile (other.pathOf root file)

section Apart

variable {entity other : Entity} {root : Path} {tree : Tree}

theorem filePlace_not_mem_slots {edit : Edit} {home : Place} {endings : List Text}
    (h : edit.Serves home root entity endings) (hnames : entity.name ≠ other.name) (ending : Text) :
    other.filePlace home root ending ∉ edit.slots := by
  intro hslot
  obtain ⟨_, -, hplace⟩ := h.slots _ hslot
  exact hnames (Entity.name_eq_of_filePlace hplace).symm

/-- No file of an entity stands where a directory of another file is. -/
theorem not_isAbove_pathOf (hname : '/' ∉ entity.name) (hother : '/' ∉ other.name)
    (file otherFile : EntityFile) :
    ¬ (entity.pathOf root file).IsAbove (other.pathOf root otherFile) := by
  rintro ⟨hlead, hdiffer⟩
  rw [Entity.components_pathOf hname, Entity.components_pathOf hother] at hlead hdiffer
  rcases List.prefix_concat_iff.mp hlead with hsame | hfolders
  · exact hdiffer hsame
  · rw [List.append_assoc, List.prefix_append_right_inj] at hfolders
    have hmem : entity.fileName file.ending ∈ other.folders := hfolders.subset (by simp)
    exact Edit.fileName_not_mem_folders entity other file.ending hmem

theorem components_pathOf_eq_iff (hname : '/' ∉ entity.name) (hother : '/' ∉ other.name)
    {file otherFile : EntityFile} :
    (entity.pathOf root file).components = (other.pathOf root otherFile).components ↔
      entity.name = other.name ∧ file = otherFile := by
  rw [Entity.components_pathOf hname, Entity.components_pathOf hother]
  constructor
  · intro h
    obtain ⟨hfolders, hlast⟩ := List.append_inj' h rfl
    obtain ⟨hshort, hending⟩ := Entity.fileName_inj (List.cons.inj hlast).1
    refine ⟨Entity.name_eq_of_segments ?_, EntityFile.ending_inj hending⟩
    rw [entity.segments_eq, other.segments_eq, List.append_cancel_left hfolders, hshort]
  · rintro ⟨hsame, rfl⟩
    have hsegments : entity.segments = other.segments := congrArg (Text.splitOn ['.']) hsame
    rw [Entity.folders, Entity.folders, Entity.fileName, Entity.fileName, Entity.shortName,
      Entity.shortName, hsegments]

variable (hname : '/' ∉ entity.name) (hother : '/' ∉ other.name) (hnames : entity.name ≠ other.name)
  (writing otherWriting : Writing)

include hname

theorem reaches_perform (hopen : tree.Reaches root) :
    (writing.perform entity root tree).2.Reaches root := by
  obtain ⟨hhome, hview, -⟩ := writing.perform_effect hname root tree
  rw [Reaches, hhome, hview]
  exact Edit.opens_run _ hopen

include hother

theorem spares_writing (view : View) :
    Edit.Spares (writing.edit tree.home root entity)
      (otherWriting.edit tree.home root other) view :=
  (writing.serves_edit hname tree.home root).spares_same
    (otherWriting.serves_edit hother tree.home root) view

theorem outcome_perform :
    (otherWriting.perform other root (writing.perform entity root tree).2).1 =
      (otherWriting.perform other root tree).1 := by
  obtain ⟨hhome, hview, -⟩ := writing.perform_effect hname root tree
  obtain ⟨-, -, hthen⟩ :=
    otherWriting.perform_effect hother root (writing.perform entity root tree).2
  obtain ⟨-, -, hdone⟩ := otherWriting.perform_effect hother root tree
  rw [hthen, hhome, hview, hdone]
  exact Edit.run_fst (spares_writing hname hother writing otherWriting _)
    (spares_writing hother hname otherWriting writing _)

include hnames

theorem perform_comm :
    (otherWriting.perform other root (writing.perform entity root tree).2).2.get? =
      (writing.perform entity root (otherWriting.perform other root tree).2).2.get? := by
  obtain ⟨hhome, hview, -⟩ := writing.perform_effect hname root tree
  obtain ⟨hhome', hview', -⟩ := otherWriting.perform_effect hother root tree
  obtain ⟨-, hthen, -⟩ :=
    otherWriting.perform_effect hother root (writing.perform entity root tree).2
  obtain ⟨-, hback, -⟩ :=
    writing.perform_effect hname root (otherWriting.perform other root tree).2
  rw [hthen, hback, hhome, hhome', hview, hview']
  refine Edit.run_comm (spares_writing hname hother writing otherWriting _)
    (spares_writing hother hname otherWriting writing _) ?_
  exact (otherWriting.serves_edit hother tree.home root).disjoint_of_names
    (writing.serves_edit hname tree.home root) hnames.symm

theorem lookup_perform {file : EntityFile} (hfile : tree.isFile (other.pathOf root file) = true) :
    (writing.perform entity root tree).2.lookup (other.pathOf root file) =
      tree.lookup (other.pathOf root file) := by
  obtain ⟨hhome, hview, -⟩ := writing.perform_effect hname root tree
  obtain ⟨hcheck, hopen, hentry⟩ := (Entity.isFile_pathOf_iff hother).mp hfile
  obtain ⟨content, hcontent⟩ := isFileAt_iff.mp hentry
  have hslot := filePlace_not_mem_slots (writing.serves_edit hname tree.home root) hnames
    file.ending
  rw [(Entity.lookup_pathOf_iff hother).mpr ⟨hcheck, hopen, rfl, hcontent⟩,
    Entity.lookup_pathOf_iff hother]
  refine ⟨hcheck, reaches_perform hname writing hopen, by rw [hhome], ?_⟩
  rw [hview, Edit.run_file hslot hentry, hcontent]

/-- Below a root that is found, the writing for another entity makes no file appear. -/
theorem isFile_perform (hfinds : tree.Finds root) (file : EntityFile) :
    (writing.perform entity root tree).2.isFile (other.pathOf root file) =
      tree.isFile (other.pathOf root file) := by
  obtain ⟨hhome, hview, -⟩ := writing.perform_effect hname root tree
  have hslot := filePlace_not_mem_slots (writing.serves_edit hname tree.home root) hnames
    file.ending
  rw [Bool.eq_iff_iff, Entity.isFile_pathOf_iff hother, Entity.isFile_pathOf_iff hother, hhome,
    hview, Edit.isFileAt_run fun hmem => absurd hmem hslot]
  constructor
  · rintro ⟨hcheck, -, hfile⟩
    obtain ⟨content, hentry⟩ := isFileAt_iff.mp hfile
    exact ⟨hcheck, hfinds.reaches (isInside_filePlace tree.home root other file.ending) hentry,
      hfile⟩
  · rintro ⟨hcheck, hopen, hfile⟩
    exact ⟨hcheck, reaches_perform hname writing hopen, hfile⟩

omit hnames

/-- Files of two entities below one root have one path only if they are the same file of one name,
none of them lies above another or is one of the directories made for it, and what is written for an
entity leaves those of another name undisturbed. -/
theorem files_apart :
    (∀ file otherFile,
      ((entity.pathOf root file).components = (other.pathOf root otherFile).components ↔
        entity.name = other.name ∧ file = otherFile) ∧
      ¬ (entity.pathOf root file).IsAbove (other.pathOf root otherFile) ∧
      entity.pathOf root file ∉ (other.pathOf root otherFile).ancestors.tail) ∧
    (entity.name ≠ other.name → ∀ tree writing otherWriting,
      Undisturbed root entity other writing otherWriting tree) := by
  refine ⟨fun file otherFile => ?_, fun hnames tree writing otherWriting => ?_⟩
  · have habove : ¬ (entity.pathOf root file).IsAbove (other.pathOf root otherFile) :=
      not_isAbove_pathOf hname hother file otherFile
    exact ⟨components_pathOf_eq_iff hname hother, habove, fun hmem =>
      habove (Path.isAbove_of_mem_ancestors hmem)⟩
  exact {
    kept := fun file hfile => lookup_perform hname hother hnames writing hfile
    outcome := outcome_perform hname hother writing otherWriting
    order := perform_comm hname hother hnames writing otherWriting
    absent := fun hfinds file => isFile_perform hname hother hnames writing hfinds file }

end Apart

/-- The files of a type and of one nested in it, whose directory is called like the type. -/
theorem files_apart_nested :
    let map : Entity := ⟨"java.util.Map".toList, "u".toList, by decide⟩
    let entry : Entity := ⟨"java.util.Map.Entry".toList, "u".toList, by decide⟩
    let root : Path := ⟨"out".toList⟩
    (∀ file otherFile,
      (map.pathOf root file).components ≠ (entry.pathOf root otherFile).components ∧
      ¬ (map.pathOf root file).IsAbove (entry.pathOf root otherFile)) ∧
    ∀ tree writing otherWriting, Undisturbed root map entry writing otherWriting tree := by
  intro map entry root
  have hnames : map.name ≠ entry.name := by decide
  have hapart := @files_apart map entry root (by decide) (by decide)
  refine ⟨fun file otherFile => ?_, hapart.2 hnames⟩
  obtain ⟨hsame, habove, -⟩ := hapart.1 file otherFile
  exact ⟨fun h => hnames (hsame.mp h).1, habove⟩

/-- A page in a directory that the root leads to once another directory is there. -/
def coveredTree : Tree :=
  [(["c".toList], Entry.directory), (["c".toList, "p".toList], .directory),
    (["c".toList, "p".toList, "B.html".toList], .file (.text "body".toList))].foldl
      (fun tree item => tree.put item.1 item.2) (Tree.bare [])

/-- Below a root that is not found yet, storing a page can make another one look cached. -/
theorem not_isCached_stays :
    ¬ ∀ (root : Path) (entity other : Entity) (body : Text) (tree : Tree),
      '/' ∉ entity.name → '/' ∉ other.name → entity.name ≠ other.name →
        isCached tree root other = false →
          isCached ((writePage entity root body).run tree).2 root other = false := by
  intro hclaim
  have huncovered := hclaim ⟨"x/../c".toList⟩ ⟨"p.A".toList, "u".toList, by decide⟩
    ⟨"p.B".toList, "u".toList, by decide⟩ "other".toList coveredTree (by decide) (by decide)
    (by decide) (by decide +kernel)
  exact absurd huncovered (by decide +kernel)

end ClassSkeleton
