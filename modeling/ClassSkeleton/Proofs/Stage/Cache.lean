import ClassSkeleton.Proofs.Stage.Work

/-!
The cache while the stages work. A page that is in the cache stays there as it is, whatever is
built or stored; building makes no page appear; and a page can be stored before a number of
skeletons is built as well as after.
-/
namespace ClassSkeleton

open ClassSkeleton.Tree Storage

def Content.read : Content → Except IoCause Text
  | .text page => .ok page
  | .bytes _ => .error .notUtf8

/-- The way to a root is open. -/
def Tree.Reaches (tree : Tree) (root : Path) : Prop :=
  Opens tree.get? (root.rootStart tree.home) root.names

theorem Tree.opens_folders {tree : Tree} {base : Place} {folders : List Text} {name : Text}
    {entry : Entry} (hdots : ∀ folder ∈ folders, isDots folder = false)
    (h : tree.get? (base ++ folders ++ [name]) = some entry) : Opens tree.get? base folders := by
  intro place hplace
  rcases List.mem_cons.mp hplace with rfl | hplace
  · rw [List.append_assoc] at h
    exact get?_of_append (by simp) h
  · obtain ⟨front, folder, ⟨back, hback⟩, rfl⟩ := mem_trail_of_not_dots hdots hplace
    rw [← hback, List.append_assoc, List.append_assoc] at h
    have hbelow : tree.get? (base ++ front ++ [folder] ++ (back ++ [name])) = some entry := by
      simpa using h
    exact get?_of_append (by simp) hbelow

section Cached

variable {entity other : Entity} {root : Path} {tree left : Tree}

theorem lookup_page_iff (hname : '/' ∉ entity.name) {place : Place} {content : Content} :
    tree.lookup (entity.cachePath root) = .ok (place, .file content) ↔
      checkPath (entity.cachePath root) = .ok () ∧ tree.Reaches root ∧
        place = entity.pagePlace tree.home root ∧ tree.get? place = some (.file content) := by
  obtain ⟨hends, habsolute⟩ := Entity.cachePath_ends hname root
  have hslot : spot tree.home root.isAbsolute (Path.named (entity.above root))
      (entity.fileName "html".toList) = entity.pagePlace tree.home root :=
    Entity.slotOf_above hname "html".toList
  rw [lookup_file_iff hends.leadsTo, habsolute, hslot, Entity.named_above entity root hname,
    opens_append]
  refine ⟨?_, ?_⟩
  · rintro ⟨hcheck, ⟨hopen, -⟩, hplace, hentry⟩
    exact ⟨hcheck, hopen, hplace, hentry⟩
  · rintro ⟨hcheck, hopen, rfl, hentry⟩
    exact ⟨hcheck, ⟨hopen, opens_folders (fun _ => Entity.isDots_of_mem_folders) hentry⟩, rfl,
      hentry⟩

/-- A page is in the cache if its path can be used, the way to the cache is open, and there is a
file at its place. -/
theorem isCached_iff (hname : '/' ∉ entity.name) : isCached tree root entity = true ↔
    checkPath (entity.cachePath root) = .ok () ∧ tree.Reaches root ∧
      isFileAt tree.get? (entity.pagePlace tree.home root) = true := by
  rw [isCached, isFile, isFileAt_iff]
  constructor
  · intro hfile
    split at hfile
    · rename_i place content hlook
      obtain ⟨hcheck, hopen, rfl, hentry⟩ := (lookup_page_iff hname).mp hlook
      exact ⟨hcheck, hopen, content, hentry⟩
    · simp at hfile
  · rintro ⟨hcheck, hopen, content, hentry⟩
    rw [(lookup_page_iff hname).mpr ⟨hcheck, hopen, rfl, hentry⟩]

theorem readText_of_cached (hname : '/' ∉ entity.name) (hcached : isCached tree root entity = true)
    {content : Content}
    (hentry : tree.get? (entity.pagePlace tree.home root) = some (.file content)) :
    tree.readText (entity.cachePath root) = content.read := by
  obtain ⟨hcheck, hopen, -⟩ := (isCached_iff hname).mp hcached
  rw [readText, (lookup_page_iff hname).mpr ⟨hcheck, hopen, rfl, hentry⟩]
  cases content <;> rfl

theorem readText_congr (hname : '/' ∉ entity.name) (hhome : left.home = tree.home)
    (hcached : isCached tree root entity = true) (hleft : isCached left root entity = true)
    (hentry : left.get? (entity.pagePlace tree.home root) =
      tree.get? (entity.pagePlace tree.home root)) :
    left.readText (entity.cachePath root) = tree.readText (entity.cachePath root) := by
  obtain ⟨-, -, hfile⟩ := (isCached_iff hname).mp hcached
  obtain ⟨content, hcontent⟩ := isFileAt_iff.mp hfile
  rw [readText_of_cached hname hcached hcontent,
    readText_of_cached hname hleft (by rw [hhome, hentry, hcontent])]

theorem isCached_congr (h : entity.name = other.name) (tree : Tree) (root : Path) :
    isCached tree root entity = isCached tree root other := by
  simp only [isCached, Entity.cachePath, Entity.localPath, Entity.segments, h]

end Cached

section Kept

/-! Pages that are in the cache stay there. -/

variable {entity other : Entity} {root otherRoot : Path} {tree left : Tree} {edits : List Edit}

theorem pagePlace_not_mem_slots {edit : Edit} {home : Place}
    (h : edit.Serves home otherRoot other skeletonEndings) :
    entity.pagePlace home root ∉ edit.slots := by
  intro hslot
  obtain ⟨ending, hending, hplace⟩ := h.slots _ hslot
  obtain ⟨-, rfl⟩ := Entity.fileName_eq_of_filePlace hplace
  exact absurd hending (by decide)

variable (hname : '/' ∉ entity.name) (hhome : left.home = tree.home)
  (hview : left.get? = Edit.runAll edits tree.get?)
  (hslots : ∀ edit ∈ edits, entity.pagePlace tree.home root ∉ edit.slots)

include hname hhome hview hslots

theorem isCached_of_runAll (hcached : isCached tree root entity = true) :
    isCached left root entity = true := by
  obtain ⟨hcheck, hopen, hfile⟩ := (isCached_iff hname).mp hcached
  refine (isCached_iff hname).mpr ⟨hcheck, ?_, ?_⟩
  · rw [Reaches, hhome, hview]
    exact Edit.opens_runAll edits hopen
  · rw [hhome, hview, Edit.isFileAt_runAll hslots, hfile]

/-- Edits of other places make no page appear once the way to the cache is open. -/
theorem isCached_runAll (hopen : edits ≠ [] → tree.Reaches root) :
    isCached left root entity = isCached tree root entity := by
  by_cases hcached : isCached tree root entity = true
  · rw [hcached, isCached_of_runAll hname hhome hview hslots hcached]
  · rw [Bool.eq_false_iff.mpr hcached, Bool.eq_false_iff]
    intro hleft
    obtain ⟨hcheck, hopenLeft, hfile⟩ := (isCached_iff hname).mp hleft
    rw [hhome, hview, Edit.isFileAt_runAll hslots] at hfile
    refine hcached ((isCached_iff hname).mpr ⟨hcheck, ?_, hfile⟩)
    by_cases hedits : edits = []
    · rw [Reaches, hhome, hview, hedits] at hopenLeft
      exact hopenLeft
    · exact hopen hedits

theorem readText_runAll (hcached : isCached tree root entity = true) :
    left.readText (entity.cachePath root) = tree.readText (entity.cachePath root) := by
  obtain ⟨-, -, hfile⟩ := (isCached_iff hname).mp hcached
  refine readText_congr hname hhome hcached
    (isCached_of_runAll hname hhome hview hslots hcached) ?_
  rw [hview, Edit.runAll_file hslots hfile]

end Kept

end ClassSkeleton
