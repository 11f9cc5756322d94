import ClassSkeleton.Proofs.Catalog.Offline

/-!
Names of pages. The documentation keeps the page of a type in the directory of its package, under
the names of the types around it with dots between; the cache has a directory for each of those
types. Which directories are types is told by the capital in front of the first one, so that the
name in the documentation is read off from the place in the cache.
-/
namespace ClassSkeleton

open ClassSkeleton.Tree Storage

/-- A segment of a name: not blank, and free of the characters that part segments. -/
def IsSegment (segment : Text) : Prop :=
  Text.trim segment ≠ [] ∧ '.' ∉ segment ∧ '/' ∉ segment

instance (segment : Text) : Decidable (IsSegment segment) := inferInstanceAs (Decidable (_ ∧ _))

/-- Does the segment begin with an ASCII capital? -/
def beginsType : Text → Bool
  | c :: _ => c.isUpper
  | [] => false

theorem beginsType_append {segment : Text} (h : beginsType segment = true) (ending : Text) :
    beginsType (segment ++ ending) = true := by
  cases segment with
  | nil => cases h
  | cons c rest => exact h

namespace Catalog

theorem dottedName_join {pieces : List Text} (h : ∀ piece ∈ pieces, '/' ∉ piece) :
    dottedName (Text.join ['/'] pieces ++ pageEnding) = Text.join ['.'] pieces := by
  have hsame : (pieces.map fun piece => piece.map fun c => if c = '/' then '.' else c) =
      pieces := by
    refine (List.map_congr_left fun piece hmem => ?_).trans (List.map_id pieces)
    refine (List.map_congr_left fun c hc => if_neg ?_).trans (List.map_id piece)
    rintro rfl
    exact h piece hmem hc
  rw [dottedName, Text.dropEndMark?_append, Option.getD_some, Text.map_join, hsame]
  rfl

/-- The index target of a cached page is made of the segments before its first type and of those
from there on. -/
theorem pageTarget_eq (cached : Text) : pageTarget cached =
    match (Text.splitOn ['/'] cached).dropWhile fun segment => !beginsType segment with
    | [] => cached
    | type => Text.join ['/'] ((Text.splitOn ['/'] cached).takeWhile
        (fun segment => !beginsType segment) ++ [Text.join ['.'] type]) := rfl

theorem pageTarget_of_split {cached : Text} {packages inner : List Text} {outermost : Text}
    (hsplit : Text.splitOn ['/'] cached = packages ++ outermost :: inner)
    (hlower : ∀ package ∈ packages, beginsType package = false)
    (hcapital : beginsType outermost = true) : pageTarget cached =
      Text.join ['/'] (packages ++ [Text.join ['.'] (outermost :: inner)]) := by
  have hpass : ∀ package ∈ packages, (!beginsType package) = true := fun package hmem => by
    rw [hlower package hmem]
    rfl
  rw [pageTarget_eq, hsplit, List.dropWhile_append_of_pos hpass,
    List.takeWhile_append_of_pos hpass, List.dropWhile_cons_of_neg (by simp [hcapital]),
    List.takeWhile_cons_of_neg (by simp [hcapital]), List.append_nil]

end Catalog

namespace Entity

/-- The names that lead to the page of the entity from the root of the cache. -/
def pageNames (entity : Entity) : Place := entity.folders ++ [entity.fileName "html".toList]

variable {entity other : Entity}

theorem pagePlace_eq (home : Place) (root : Path) (entity : Entity) :
    entity.pagePlace home root = root.rootPlace home ++ entity.pageNames :=
  List.append_assoc _ _ _

theorem isPage_pageNames (entity : Entity) : Catalog.isPage entity.pageNames = true := by
  rw [pageNames, Catalog.isPage_file]
  decide

theorem name_eq_of_pageNames (h : entity.pageNames = other.pageNames) :
    entity.name = other.name := by
  obtain ⟨hfolders, hfile⟩ := List.append_inj' h rfl
  have hshort := (fileName_inj (List.singleton_inj.mp hfile)).1
  exact name_eq_of_segments (by rw [entity.segments_eq, other.segments_eq, hfolders, hshort])

theorem slashless_pageNames (hname : '/' ∉ entity.name) {piece : Text}
    (hmem : piece ∈ entity.pageNames) : '/' ∉ piece := by
  rcases List.mem_append.mp hmem with hmem | hmem
  · exact slashless_of_mem_segments hname (mem_segments_of_mem_folders hmem)
  · rw [List.mem_singleton.mp hmem, fileName]
    have hshort := slashless_of_mem_segments hname entity.shortName_mem
    simp [hshort]

theorem join_pageNames (entity : Entity) : Text.join ['/'] entity.pageNames =
    Text.join ['/'] entity.segments ++ Catalog.pageEnding := by
  rw [entity.segments_eq]
  exact Text.join_append_ending ['/'] entity.shortName Catalog.pageEnding entity.folders

end Entity

/-- The name of a page as the documentation gives them: packages in lower case, and types of which
the outermost begins with a capital. -/
structure PageName where
  packages : List Text
  /-- The types around the type, from the outermost. -/
  around : List Text
  type : Text
  segment : ∀ segment ∈ packages ++ around ++ [type], IsSegment segment
  lower : ∀ package ∈ packages, beginsType package = false
  capital : ∀ outermost ∈ (around ++ [type]).head?, beginsType outermost = true

namespace PageName

variable (name : PageName)

def segments : List Text := name.packages ++ name.around ++ [name.type]

def target : Text :=
  Text.join ['/'] (name.packages ++ [Text.join ['.'] (name.around ++ [name.type])]) ++
    Catalog.pageEnding

def dotted : Text := Text.join ['.'] name.segments

theorem splitOn_dotted : Text.splitOn ['.'] name.dotted = name.segments :=
  Text.splitOn_join (by simp [segments]) fun segment hmem => (name.segment segment hmem).2.1

theorem qualified : isQualifiedName name.dotted = true := by
  rw [isQualifiedName, splitOn_dotted, List.all_eq_true]
  intro segment hmem
  simpa using (name.segment segment hmem).1

/-- The entity that has the page. -/
def entity (baseUrl : Text) : Entity := ⟨name.dotted, baseUrl ++ name.target, name.qualified⟩

variable (baseUrl : Text)

@[simp] theorem name_entity : (name.entity baseUrl).name = name.dotted := rfl

theorem segments_entity : (name.entity baseUrl).segments = name.segments := name.splitOn_dotted

theorem pageNames_entity : (name.entity baseUrl).pageNames =
    name.packages ++ (name.around ++ [name.type ++ Catalog.pageEnding]) := by
  rw [Entity.pageNames, Entity.folders, Entity.fileName, Entity.shortName, segments_entity,
    segments, List.dropLast_concat, List.getLastD_concat, List.append_assoc]
  rfl

theorem dottedName_target : Catalog.dottedName name.target = name.dotted := by
  rw [target, Catalog.dottedName_join, Text.join_join _ _ (by simp), dotted, segments,
    List.append_assoc]
  intro piece hmem hc
  rcases List.mem_append.mp hmem with hmem | hmem
  · exact (name.segment piece (by simp [hmem])).2.2 hc
  · rw [List.mem_singleton.mp hmem] at hc
    rcases Text.mem_join hc with hdot | ⟨type, htype, hc⟩
    · exact absurd hdot (by decide)
    · exact (name.segment type (by simpa using .inr (by simpa using htype))).2.2 hc

theorem indexEntity_target :
    Catalog.indexEntity baseUrl name.target = .ok (name.entity baseUrl) := by
  rw [Catalog.indexEntity, dottedName_target, Entity.ofName?, dif_pos name.qualified]
  rfl

theorem slashless_segments : ∀ segment ∈ name.segments, '/' ∉ segment := fun segment hmem =>
  (name.segment segment hmem).2.2

/-- The page of a nested type is found in the documentation by the capital of its outermost
type. -/
theorem pageTarget_pageNames :
    Catalog.pageTarget (Text.join ['/'] (name.entity baseUrl).pageNames) = name.target := by
  have hslash : '/' ∉ (name.entity baseUrl).name := by
    rw [name_entity, ← dottedName_target]
    exact Catalog.slashless_dottedName _
  have hsplit : Text.splitOn ['/'] (Text.join ['/'] (name.entity baseUrl).pageNames) =
      name.packages ++ (name.around ++ [name.type ++ Catalog.pageEnding]) := by
    rw [Text.splitOn_join (by simp [Entity.pageNames]), pageNames_entity]
    exact fun piece hmem => Entity.slashless_pageNames hslash hmem
  have htarget : name.target = Text.join ['/'] (name.packages ++
      [Text.join ['.'] (name.around ++ [name.type ++ Catalog.pageEnding])]) := by
    rw [Text.join_append_ending ['.'], Text.join_append_ending ['/']]
    rfl
  rw [htarget]
  have hcapital := name.capital
  cases haround : name.around with
  | nil =>
    rw [haround] at hsplit hcapital
    refine Catalog.pageTarget_of_split hsplit name.lower ?_
    exact beginsType_append (hcapital name.type rfl) _
  | cons outermost inner =>
    rw [haround] at hsplit hcapital
    exact Catalog.pageTarget_of_split hsplit name.lower (hcapital outermost rfl)

theorem cachedEntity_pageNames :
    Catalog.cachedEntity baseUrl (Text.join ['/'] (name.entity baseUrl).pageNames) =
      .ok (name.entity baseUrl) := by
  rw [Catalog.cachedEntity, pageTarget_pageNames, Entity.join_pageNames, segments_entity,
    Catalog.dottedName_join name.slashless_segments]
  exact dif_pos name.qualified

theorem target_eq_of_dotted {other : PageName} (h : name.dotted = other.dotted) :
    name.target = other.target := by
  have hsegments : name.segments = other.segments := by
    rw [← splitOn_dotted, ← splitOn_dotted, h]
  rw [← name.pageTarget_pageNames [], ← other.pageTarget_pageNames [], Entity.join_pageNames,
    Entity.join_pageNames, segments_entity, segments_entity, hsegments]

end PageName

end ClassSkeleton
