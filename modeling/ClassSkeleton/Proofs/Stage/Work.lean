import ClassSkeleton.Proofs.Stage.Ground
import ClassSkeleton.Proofs.Storage.Pair
import ClassSkeleton.Stage.Parse

/-!
The work of the stages on the tree. Storing a page is one edit and building a skeleton is another,
both on the ground of their entity. What a page asks for hangs on the page and on the name of the
entity alone, and whether a page is in the cache on the file at its place, once the way to the
cache is open.
-/
namespace ClassSkeleton

open ClassSkeleton.Tree Storage

def pageEndings : List Text := ["html.part".toList, "html".toList]

def skeletonEndings : List Text :=
  ["h.part".toList, "h".toList, "c.part".toList, "c".toList]

/-- What became of an entity, without the reasons. -/
inductive Verdict where
  | written
  | notImplemented
  | failed
  deriving DecidableEq, Repr

def Verdict.of : Except Failure Outcome → Verdict
  | .ok .written => .written
  | .ok (.notImplemented _) => .notImplemented
  | .error _ => .failed

namespace Entity

/-- Where the page of the entity is. -/
def pagePlace (home : Place) (root : Path) (entity : Entity) : Place :=
  entity.filePlace home root "html".toList

/-- Where the page of the entity is written first. -/
def pagePart (home : Place) (root : Path) (entity : Entity) : Place :=
  entity.filePlace home root "html.part".toList

def pageEdit (home : Place) (root : Path) (entity : Entity) (body : Text) : Edit :=
  replaceEdit home (entity.cachePath root) (entity.above root) (entity.fileName "html".toList) body

def Fits (entity : Entity) (root : Path) (tree : Tree) (body : Text) : Prop :=
  ((entity.pageEdit tree.home root body).run tree.get?).1 = true

def skeletonEdit (home : Place) (root : Path) (entity : Entity) (skeleton : Skeleton) : Edit :=
  pairEdit home (entity.headerPath root) (entity.sourcePath root) (entity.above root)
    (entity.fileName "h".toList) (entity.fileName "c".toList) skeleton

/-- What a page that has been read asks for: a skeleton, or nothing but a verdict. -/
def draftOf : Except Failure PageResult → Except Verdict Skeleton
  | .error _ => .error .failed
  | .ok (.notImplemented _) => .error .notImplemented
  | .ok (.outline outline) => .ok (Skeleton.ofOutline outline)

def draft (entity : Entity) : Except IoCause Text → Except Verdict Skeleton
  | .error _ => .error .failed
  | .ok text => draftOf (ClassPage.result text entity)

def draftEdit (home : Place) (root : Path) (entity : Entity) : Except Verdict Skeleton → Edit
  | .ok skeleton => entity.skeletonEdit home root skeleton
  | .error _ =>
    ⟨false, root.rootStart home, root.names ++ entity.folders, [], .skip, Act.isLocal_skip []⟩

def draftVerdict (done : Bool) : Except Verdict Skeleton → Verdict
  | .ok _ => if done then .written else .failed
  | .error verdict => verdict

/-- Building what the page in the cache asks for. -/
def buildEdit (cacheRoot outRoot : Path) (tree : Tree) (entity : Entity) : Edit :=
  entity.draftEdit tree.home outRoot (entity.draft (tree.readText (entity.cachePath cacheRoot)))

/-- The verdict on an entity whose page is built at once. -/
def verdict (cacheRoot outRoot : Path) (tree : Tree) (entity : Entity) : Verdict :=
  draftVerdict ((entity.buildEdit cacheRoot outRoot tree).run tree.get?).1
    (entity.draft (tree.readText (entity.cachePath cacheRoot)))

variable {entity other : Entity} {root cacheRoot outRoot : Path} {home : Place} {tree tree' : Tree}

theorem slotOf_above (hname : '/' ∉ entity.name) (ending : Text) :
    slotOf home root.isAbsolute (entity.above root) (entity.fileName ending) =
      entity.filePlace home root ending := by
  have hfolders : seat (root.rootPlace home) entity.folders =
      root.rootPlace home ++ entity.folders :=
    seat_of_not_dots _ fun _ => isDots_of_mem_folders
  rw [slotOf, spot, named_above entity root hname, seat_append]
  exact congrArg (· ++ [entity.fileName ending]) hfolders

theorem partName_fileName (ending : Text) :
    partName (entity.fileName ending) = entity.fileName (ending ++ ".part".toList) := by
  simp [partName, fileName]

theorem cachePath_ends (hname : '/' ∉ entity.name) (root : Path) :
    (entity.cachePath root).Ends (entity.above root) (entity.fileName "html".toList) ∧
      (entity.cachePath root).isAbsolute = root.isAbsolute :=
  entity.localPath_ends root hname (by decide) (by decide)

theorem headerPath_ends (hname : '/' ∉ entity.name) (root : Path) :
    (entity.headerPath root).Ends (entity.above root) (entity.fileName "h".toList) ∧
      (entity.headerPath root).isAbsolute = root.isAbsolute :=
  entity.localPath_ends root hname (by decide) (by decide)

theorem sourcePath_ends (hname : '/' ∉ entity.name) (root : Path) :
    (entity.sourcePath root).Ends (entity.above root) (entity.fileName "c".toList) ∧
      (entity.sourcePath root).isAbsolute = root.isAbsolute :=
  entity.localPath_ends root hname (by decide) (by decide)

theorem beside (hname : '/' ∉ entity.name) (root : Path) :
    Beside (entity.headerPath root) (entity.sourcePath root) (entity.above root)
      (entity.fileName "h".toList) (entity.fileName "c".toList) where
  headerEnds := (headerPath_ends hname root).1
  sourceEnds := (sourcePath_ends hname root).1
  absolute := (sourcePath_ends hname root).2.trans (headerPath_ends hname root).2.symm
  names := by simp [fileName]
  part := by
    rw [partName_fileName]
    exact fun h => absurd (fileName_inj h).2 (by decide)

theorem serves_pageEdit (hname : '/' ∉ entity.name) (home : Place) (root : Path) (body : Text) :
    (entity.pageEdit home root body).Serves home root entity pageEndings := by
  obtain ⟨hends, habsolute⟩ := cachePath_ends hname root
  refine ⟨congrArg (Path.origin home) habsolute, named_above entity root hname,
    fun place hplace => ?_⟩
  change place ∈ replaceSlots home (entity.cachePath root) (entity.above root)
    (entity.fileName "html".toList) at hplace
  rw [replaceSlots, partName_fileName, habsolute, slotOf_above hname, slotOf_above hname] at hplace
  rcases List.mem_cons.mp hplace with rfl | hplace
  · exact ⟨_, List.mem_cons_self, rfl⟩
  · rw [List.mem_singleton.mp hplace]
    exact ⟨_, List.mem_cons_of_mem _ List.mem_cons_self, rfl⟩

theorem serves_skeletonEdit (hname : '/' ∉ entity.name) (home : Place) (root : Path)
    (skeleton : Skeleton) :
    (entity.skeletonEdit home root skeleton).Serves home root entity skeletonEndings := by
  obtain ⟨hends, habsolute⟩ := headerPath_ends hname root
  refine ⟨congrArg (Path.origin home) habsolute, named_above entity root hname,
    fun place hplace => ?_⟩
  change place ∈ pairSlots home (entity.headerPath root) (entity.above root)
    (entity.fileName "h".toList) (entity.fileName "c".toList) at hplace
  rw [pairSlots, partName_fileName, partName_fileName, habsolute] at hplace
  obtain ⟨name, hmem, rfl⟩ := List.mem_map.mp hplace
  have hending : ∃ ending ∈ skeletonEndings, name = entity.fileName ending := by
    simpa [skeletonEndings] using hmem
  obtain ⟨ending, hending, rfl⟩ := hending
  exact ⟨ending, hending, slotOf_above hname ending⟩

theorem serves_draftEdit (hname : '/' ∉ entity.name) (home : Place) (root : Path)
    (draft : Except Verdict Skeleton) :
    (entity.draftEdit home root draft).Serves home root entity skeletonEndings := by
  cases draft with
  | ok skeleton => exact serves_skeletonEdit hname home root skeleton
  | error verdict => exact ⟨rfl, rfl, by simp [draftEdit]⟩

theorem serves_buildEdit (hname : '/' ∉ entity.name) (cacheRoot outRoot : Path) (tree : Tree) :
    (entity.buildEdit cacheRoot outRoot tree).Serves tree.home outRoot entity skeletonEndings :=
  serves_draftEdit hname tree.home outRoot _

/-- Storing a page replaces the file at its place. -/
theorem writePage_run (entity : Entity) (root : Path) (body : Text) (tree : Tree) :
    (writePage entity root body).run tree =
      match (writeReplacing (entity.cachePath root) body).run tree with
      | (.error e, left) => (.error e, left)
      | (.ok _, left) => (.ok (entity.cachePath root), left) := by
  refine (Script.run_bind (writeReplacing (entity.cachePath root) body) _ tree).trans ?_
  rcases (writeReplacing (entity.cachePath root) body).run tree with ⟨outcome, left⟩
  cases outcome <;> rfl

/-- Storing a page does to the tree what its edit does to the view. -/
theorem writePage_effect (hname : '/' ∉ entity.name) (root : Path) (body : Text) (tree : Tree) :
    Effect (entity.cachePath root) tree ((writePage entity root body).run tree)
      ((entity.pageEdit tree.home root body).run tree.get?) := by
  have heffect := writeReplacing_effect (cachePath_ends hname root).1 body tree
  rw [writePage_run]
  generalize (writeReplacing (entity.cachePath root) body).run tree = ran at heffect
  obtain ⟨outcome, left⟩ := ran
  obtain ⟨hhome, hview, hok, herror⟩ := heffect
  cases outcome with
  | ok u =>
    refine ⟨hhome, hview, fun _ => rfl, fun hfalse => ?_⟩
    obtain ⟨e, he⟩ := herror hfalse
    simp at he
  | error e =>
    refine ⟨hhome, hview, fun htrue => ?_, fun _ => ⟨e, rfl⟩⟩
    have hunit := hok htrue
    simp at hunit

section Store

/-! What storing a page does to the files. -/

variable {body : Text} {place : Place} {content : Content} (hname : '/' ∉ entity.name)

include hname

theorem slots_page (home : Place) :
    slotOf home (entity.cachePath root).isAbsolute (entity.above root)
        (entity.fileName "html".toList) = entity.pagePlace home root ∧
      slotOf home (entity.cachePath root).isAbsolute (entity.above root)
        (partName (entity.fileName "html".toList)) = entity.pagePart home root := by
  rw [(cachePath_ends hname root).2, partName_fileName, slotOf_above hname, slotOf_above hname]
  exact ⟨rfl, rfl⟩

theorem store_arrived
    (h : ((writePage entity root body).run tree).2.get? place = some (.file content)) :
    tree.get? place = some (.file content) ∨
      entity.Fits root tree body ∧ place = entity.pagePlace tree.home root ∧
        content = .text body := by
  rw [(writePage_effect hname root body tree).view] at h
  rw [Fits]
  by_cases harrives : (entity.pageEdit tree.home root body).Arrives tree.get?
  · rw [Edit.run_of_arrives harrives] at h ⊢
    refine (replaceAct_arrived h).imp Edit.paved_file.mp fun ⟨hdone, hplace, hcontent⟩ => ?_
    exact ⟨hdone, hplace.trans (slots_page hname tree.home).1, hcontent⟩
  · rw [Edit.run_of_not_arrives harrives] at h
    exact .inl (Edit.paved_file.mp h)

theorem store_stays (h : tree.get? place = some (.file content)) :
    ((writePage entity root body).run tree).2.get? place = some (.file content) ∨
      place = entity.pagePart tree.home root ∨
      entity.Fits root tree body ∧ place = entity.pagePlace tree.home root := by
  rw [(writePage_effect hname root body tree).view, Fits]
  have hpaved : (entity.pageEdit tree.home root body).paved tree.get? place =
      some (.file content) := Edit.paved_file.mpr h
  by_cases harrives : (entity.pageEdit tree.home root body).Arrives tree.get?
  · rw [Edit.run_of_arrives harrives]
    refine (replaceAct_stays place).imp (fun hsame => hsame.trans hpaved) (Or.imp ?_ ?_)
    · exact fun hplace => hplace.trans (slots_page hname tree.home).2
    · exact fun ⟨hdone, hplace⟩ => ⟨hdone, hplace.trans (slots_page hname tree.home).1⟩
  · rw [Edit.run_of_not_arrives harrives]
    exact .inl hpaved

end Store

theorem draftOf_readClass (name url otherUrl : Text) (h : isQualifiedName name = true)
    (cursor : Markup.Cursor) :
    draftOf (ClassPage.readClass ⟨name, url, h⟩ cursor).outcome =
      draftOf (ClassPage.readClass ⟨name, otherUrl, h⟩ cursor).outcome := by
  have hshort : shortName ⟨name, url, h⟩ = shortName ⟨name, otherUrl, h⟩ := rfl
  unfold ClassPage.readClass
  simp only [hshort]
  cases ClassPage.readFront cursor with
  | error e => rfl
  | ok front =>
    simp only
    rcases front.cursor.between ClassPage.declarationOpening ClassPage.declarationClosing with
      ⟨_ | declaration, cursor⟩
    · rfl
    · simp only
      cases ClassPage.readDetail cursor.text (shortName ⟨name, otherUrl, h⟩) cursor.position with
      | error e => rfl
      | ok detail => rfl

theorem draft_congr (h : entity.name = other.name) (page : Except IoCause Text) :
    entity.draft page = other.draft page := by
  obtain ⟨name, url, hqualified⟩ := entity
  obtain ⟨otherName, otherUrl, hother⟩ := other
  obtain rfl : name = otherName := h
  cases page with
  | error e => rfl
  | ok text =>
    simp only [draft, ClassPage.result, ClassPage.read]
    rcases (Markup.Cursor.start text).between ClassPage.titleMark ['"'] with ⟨_ | title, cursor⟩
    · rfl
    · simp only
      rcases Kind.ofTitle? (Markup.decodeEntities title.inner) with _ | (_ | _ | _)
      · rfl
      · exact draftOf_readClass name url otherUrl hqualified cursor
      · rfl
      · rfl

theorem buildEdit_congr (h : entity.name = other.name) (cacheRoot outRoot : Path) (tree : Tree) :
    entity.buildEdit cacheRoot outRoot tree = other.buildEdit cacheRoot outRoot tree := by
  rw [buildEdit, buildEdit, draft_congr h]
  obtain ⟨name, url, hqualified⟩ := entity
  obtain ⟨otherName, otherUrl, hother⟩ := other
  obtain rfl : name = otherName := h
  rfl

theorem run_draftEdit_error (home : Place) (root : Path) (verdict : Verdict) (view : View) :
    ((entity.draftEdit home root (.error verdict)).run view).2 = view :=
  congrArg Prod.snd (Edit.run_of_not_able rfl view)

/-- Building a skeleton does to the tree what its edit does to the view, and ends with the
verdict on the entity. -/
theorem buildCached_effect (hname : '/' ∉ entity.name) (cacheRoot outRoot : Path) (tree : Tree) :
    (buildCached cacheRoot outRoot entity tree).tree.home = tree.home ∧
      (buildCached cacheRoot outRoot entity tree).tree.get? =
        ((entity.buildEdit cacheRoot outRoot tree).run tree.get?).2 ∧
      Verdict.of (buildCached cacheRoot outRoot entity tree).outcome =
        entity.verdict cacheRoot outRoot tree := by
  unfold buildCached verdict buildEdit
  cases hpage : tree.readText (entity.cachePath cacheRoot) with
  | error e => exact ⟨rfl, (run_draftEdit_error tree.home outRoot .failed tree.get?).symm, rfl⟩
  | ok page =>
    simp only [draft, ClassPage.result]
    cases (ClassPage.read page entity).outcome with
    | error e => exact ⟨rfl, (run_draftEdit_error tree.home outRoot .failed tree.get?).symm, rfl⟩
    | ok result =>
      cases result with
      | notImplemented kind =>
        exact ⟨rfl, (run_draftEdit_error tree.home outRoot .notImplemented tree.get?).symm, rfl⟩
      | outline outline =>
        have heffect :=
          writeSkeleton_effect (beside hname outRoot) (Skeleton.ofOutline outline) tree
        dsimp only [draftOf, draftEdit, draftVerdict]
        rw [skeletonEdit]
        generalize (writeSkeleton entity outRoot (Skeleton.ofOutline outline)).run tree = ran
          at heffect ⊢
        obtain ⟨write, left⟩ := ran
        obtain ⟨hhome, hview, hok, herror⟩ := heffect
        generalize (pairEdit tree.home (entity.headerPath outRoot) (entity.sourcePath outRoot)
          (entity.above outRoot) (entity.fileName "h".toList) (entity.fileName "c".toList)
          (Skeleton.ofOutline outline)).run tree.get? = done at hview hok herror ⊢
        obtain ⟨_ | _, view⟩ := done
        · obtain ⟨e, he⟩ := herror rfl
          simp only [settled] at he
          simp only [he]
          exact ⟨hhome, hview, rfl⟩
        · have houtcome := hok rfl
          simp only [settled] at houtcome
          simp only [houtcome]
          exact ⟨hhome, hview, rfl⟩

end Entity

end ClassSkeleton
