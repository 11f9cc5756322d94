import ClassSkeleton.Proofs.Storage.Places

/-!
The ground that the stages work on. Below a root the files of an entity lie in the directories of
its package; directories have no dot in their names there and files have one, so a file never
stands where a directory is wanted. What can still get in the way is a root that is reached
through the other one.
-/
namespace ClassSkeleton

open ClassSkeleton.Tree Storage

/-- Where the names of a root start. -/
def Path.rootStart (home : Place) (root : Path) : Place := Path.origin home root.isAbsolute

/-- Where a root is, if the way to it is open. -/
def Path.rootPlace (home : Place) (root : Path) : Place := seat (root.rootStart home) root.names

/-- The places on the way to a root, with the one where it starts. -/
def Path.rootWay (home : Place) (root : Path) : List Place :=
  root.rootStart home :: trail (root.rootStart home) root.names

/-- A place below another one. -/
def Tree.IsInside (place other : Place) : Prop := other <+: place ∧ place ≠ other

instance (place other : Place) : Decidable (IsInside place other) :=
  inferInstanceAs (Decidable (_ ∧ _))

/-- The skeletons are kept in the cache itself, or neither root lies inside the other one. -/
def Path.Unnested (home : Place) (cacheRoot outRoot : Path) : Prop :=
  outRoot = cacheRoot ∨
    (¬ IsInside (outRoot.rootPlace home) (cacheRoot.rootPlace home) ∧
      ¬ IsInside (cacheRoot.rootPlace home) (outRoot.rootPlace home))

instance (home : Place) (cacheRoot outRoot : Path) :
    Decidable (Path.Unnested home cacheRoot outRoot) :=
  inferInstanceAs (Decidable (_ ∨ _ ∧ _))

/-- The skeletons are kept in the cache itself, or the way to them does not lead into it. -/
def Path.Apart (home : Place) (cacheRoot outRoot : Path) : Prop :=
  outRoot = cacheRoot ∨
    ∀ place ∈ outRoot.rootWay home, ¬ IsInside place (cacheRoot.rootPlace home)

/-- Without dots in its path, a root is reached through another one only if it lies inside. -/
theorem Path.apart_of_not_inside {home : Place} {cacheRoot outRoot : Path}
    (hdots : ∀ name ∈ outRoot.names, isDots name = false)
    (h : ¬ IsInside (outRoot.rootPlace home) (cacheRoot.rootPlace home)) :
    cacheRoot.Apart home outRoot := by
  refine Or.inr fun place hplace hinside => h ?_
  have hbelow : place <+: outRoot.rootPlace home := by
    rw [rootPlace, seat_of_not_dots _ hdots]
    rcases List.mem_cons.mp hplace with rfl | hplace
    · exact List.prefix_append _ _
    · obtain ⟨front, name, hfront, rfl⟩ := mem_trail_of_not_dots hdots hplace
      rw [List.append_assoc]
      exact (List.prefix_append_right_inj _).mpr hfront
  refine ⟨hinside.1.trans hbelow, fun hsame => hinside.2 ?_⟩
  exact (hsame ▸ hbelow).eq_of_length_le hinside.1.length_le

def Entity.folder (home : Place) (root : Path) (entity : Entity) : Place :=
  root.rootPlace home ++ entity.folders

/-- The place of a file of an entity. -/
def Entity.filePlace (home : Place) (root : Path) (entity : Entity) (extension : Text) : Place :=
  entity.folder home root ++ [entity.fileName extension]

theorem Entity.fileName_inj {entity other : Entity} {ending otherEnding : Text}
    (h : entity.fileName ending = other.fileName otherEnding) :
    entity.shortName = other.shortName ∧ ending = otherEnding := by
  have hdot := Entity.dotless_of_mem_segments entity.shortName_mem
  have hother := Entity.dotless_of_mem_segments other.shortName_mem
  have hshort : entity.shortName = other.shortName := by
    have htake := congrArg (List.takeWhile fun c => c != '.') h
    have hpass : ∀ name : Text, '.' ∉ name → ∀ c ∈ name, (c != '.') = true := by
      intro name hname c hc
      simp only [bne_iff_ne]
      rintro rfl
      exact hname hc
    simpa [Entity.fileName, List.takeWhile_append_of_pos (hpass _ hdot),
      List.takeWhile_append_of_pos (hpass _ hother)] using htake
  refine ⟨hshort, ?_⟩
  rw [Entity.fileName, Entity.fileName, hshort, List.append_cancel_left_eq] at h
  exact (List.cons.inj h).2

theorem Entity.fileName_eq_of_filePlace {entity other : Entity} {home : Place}
    {root otherRoot : Path} {ending otherEnding : Text}
    (h : entity.filePlace home root ending = other.filePlace home otherRoot otherEnding) :
    entity.shortName = other.shortName ∧ ending = otherEnding :=
  Entity.fileName_inj (List.cons.inj (List.append_inj' h rfl).2).1

theorem Entity.name_eq_of_filePlace {entity other : Entity} {home : Place} {root : Path}
    {ending otherEnding : Text}
    (h : entity.filePlace home root ending = other.filePlace home root otherEnding) :
    entity.name = other.name := by
  have hshort := (Entity.fileName_eq_of_filePlace h).1
  have hfolders : entity.folders = other.folders :=
    List.append_cancel_left (List.append_inj' h rfl).1
  apply Entity.name_eq_of_segments
  rw [entity.segments_eq, other.segments_eq, hfolders, hshort]

namespace Tree.Edit

/-- The edit works on files of an entity below a root, namely those with the given endings. -/
structure Serves (edit : Edit) (home : Place) (root : Path) (entity : Entity)
    (endings : List Text) : Prop where
  start : edit.start = root.rootStart home
  names : edit.names = root.names ++ entity.folders
  slots : ∀ place ∈ edit.slots, ∃ ending ∈ endings, place = entity.filePlace home root ending

variable {edit first second : Edit} {home place : Place} {root firstRoot secondRoot : Path}
  {entity firstEntity secondEntity : Entity} {endings firstEndings secondEndings : List Text}
  {view : View}

/-- The ground of an edit is the way to the root and the directories of the package. -/
theorem Serves.ground_cases (h : edit.Serves home root entity endings)
    (hplace : place ∈ edit.ground) :
    place ∈ root.rootWay home ∨ ∃ front name, name ∈ entity.folders ∧
      place = root.rootPlace home ++ front ++ [name] := by
  rw [ground, h.start, h.names, trail_append, ← List.cons_append] at hplace
  rcases List.mem_append.mp hplace with hway | hbelow
  · exact Or.inl hway
  · obtain ⟨front, name, hfront, rfl⟩ :=
      mem_trail_of_not_dots (fun _ => Entity.isDots_of_mem_folders) hbelow
    exact Or.inr ⟨front, name, hfront.subset (by simp), rfl⟩

theorem Serves.way_subset (h : edit.Serves home root entity endings)
    (hplace : place ∈ root.rootWay home) : place ∈ edit.ground := by
  rw [ground, h.start, h.names, trail_append, ← List.cons_append]
  exact List.mem_append_left _ hplace

theorem fileName_not_mem_folders (entity other : Entity) (ending : Text) :
    entity.fileName ending ∉ other.folders := by
  intro hmem
  have hdot := Entity.dotless_of_mem_segments (Entity.mem_segments_of_mem_folders hmem)
  simp [Entity.fileName] at hdot

/-- A slot of an edit stands on the ground of another one only if it is on the way to the root. -/
theorem Serves.slot_on_way (hfirst : first.Serves home firstRoot firstEntity firstEndings)
    (hsecond : second.Serves home secondRoot secondEntity secondEndings)
    (hslot : place ∈ first.slots)
    (hground : place ∈ second.ground) : place ∈ secondRoot.rootWay home := by
  rcases hsecond.ground_cases hground with hway | ⟨front, name, hname, hplace⟩
  · exact hway
  · obtain ⟨ending, -, rfl⟩ := hfirst.slots place hslot
    obtain ⟨-, hlast⟩ := List.append_inj' hplace rfl
    rw [← (List.cons.inj hlast).1] at hname
    exact absurd hname (fileName_not_mem_folders firstEntity secondEntity ending)

theorem Serves.slot_inside (h : edit.Serves home root entity endings) (hslot : place ∈ edit.slots) :
    IsInside place (root.rootPlace home) := by
  obtain ⟨ending, -, rfl⟩ := h.slots place hslot
  rw [Entity.filePlace, Entity.folder, List.append_assoc]
  exact ⟨List.prefix_append _ _, by simp⟩

theorem Serves.spares_same (hfirst : first.Serves home root firstEntity firstEndings)
    (hsecond : second.Serves home root secondEntity secondEndings) (view : View) :
    Spares first second view where
  start hstart _ := by rwa [hsecond.start, ← hfirst.start]
  slots _ hslot hground := Or.inr (hfirst.way_subset (hfirst.slot_on_way hsecond hslot hground))

/-- An edit inside an open root spares one below a root that is reached without going into it. -/
theorem Serves.spares_apart (hfirst : first.Serves home firstRoot firstEntity firstEndings)
    (hsecond : second.Serves home secondRoot secondEntity secondEndings)
    (hopen : Opens view (firstRoot.rootStart home) firstRoot.names)
    (hapart : firstRoot.Apart home secondRoot) : Spares first second view := by
  rcases hapart with rfl | hapart
  · exact hfirst.spares_same hsecond view
  refine ⟨fun _ hstart => ?_, fun place hslot hground => ?_⟩
  · rcases hfirst.ground_cases (List.mem_cons_of_mem _ hstart) with hway | ⟨front, name, -, hplace⟩
    · exact hopen _ hway
    · have hinside : IsInside second.start (firstRoot.rootPlace home) := by
        rw [hplace, List.append_assoc]
        exact ⟨List.prefix_append _ _, by simp⟩
      refine absurd hinside (hapart _ ?_)
      rw [hsecond.start]
      exact List.mem_cons_self
  · exact absurd (hfirst.slot_inside hslot)
      (hapart _ (hfirst.slot_on_way hsecond hslot hground))

theorem Serves.spares_open (hfirst : first.Serves home firstRoot firstEntity firstEndings)
    (hsecond : second.Serves home secondRoot secondEntity secondEndings)
    (hopen : Opens view (secondRoot.rootStart home) secondRoot.names) :
    Spares first second view where
  start _ _ := by
    rw [hsecond.start]
    exact hopen.start
  slots _ hslot hground := Or.inl (hopen _ (hfirst.slot_on_way hsecond hslot hground))

theorem Serves.disjoint_of_endings (hfirst : first.Serves home firstRoot firstEntity firstEndings)
    (hsecond : second.Serves home secondRoot secondEntity secondEndings)
    (hendings : ∀ ending ∈ firstEndings, ending ∉ secondEndings) :
    ∀ slot ∈ first.slots, slot ∉ second.slots := by
  intro slot hslot hother
  obtain ⟨ending, hending, rfl⟩ := hfirst.slots slot hslot
  obtain ⟨other, hotherEnding, hplace⟩ := hsecond.slots _ hother
  obtain ⟨-, rfl⟩ := Entity.fileName_eq_of_filePlace hplace
  exact hendings ending hending hotherEnding

theorem Serves.disjoint_of_names (hfirst : first.Serves home root firstEntity firstEndings)
    (hsecond : second.Serves home root secondEntity secondEndings)
    (hnames : firstEntity.name ≠ secondEntity.name) :
    ∀ slot ∈ first.slots, slot ∉ second.slots := by
  intro slot hslot hother
  obtain ⟨ending, -, rfl⟩ := hfirst.slots slot hslot
  obtain ⟨other, -, hplace⟩ := hsecond.slots _ hother
  exact hnames (Entity.name_eq_of_filePlace hplace)

end Tree.Edit

end ClassSkeleton
