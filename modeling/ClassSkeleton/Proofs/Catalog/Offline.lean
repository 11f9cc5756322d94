import ClassSkeleton.Catalog
import ClassSkeleton.Proofs.Stage.Builds

/-!
The catalog of the cache. What it lists hangs on nothing but the pages below the root: neither the
order in which the tree keeps its entries nor the files of another kind matter, and the order of
the catalog is all that two trees with the same pages can differ in.
-/
namespace ClassSkeleton

open ClassSkeleton.Tree Storage

namespace Tree

variable {tree left : Tree} {root : Path} {place names : Place}

/-- Files below a place, each by the names that lead to it from there. -/
def filesUnder (tree : Tree) (place : Place) : List Place :=
  tree.items.filterMap fun item =>
    match item.2 with
    | .directory => none
    | .file _ => if place.isPrefixOf item.1 then some (item.1.drop place.length) else none

theorem filesBelow_eq_ok {places : List Place} : tree.filesBelow root = .ok places ↔
    checkPath root = .ok () ∧ tree.Reaches root ∧
      places = tree.filesUnder (root.rootPlace tree.home) := by
  unfold filesBelow
  constructor
  · intro h
    split at h
    · simp at h
    · simp at h
    · rename_i found hlookup
      obtain ⟨hcheck, hopen, rfl⟩ := lookup_directory_iff.mp hlookup
      exact ⟨hcheck, hopen, (Except.ok.inj h).symm⟩
  · rintro ⟨hcheck, hopen, rfl⟩
    rw [lookup_directory_iff.mpr ⟨hcheck, hopen, rfl⟩]
    rfl

theorem find?_of_mem {items : List (Place × Entry)} {entry : Entry}
    (hnodup : (items.map (·.1)).Nodup) (hmem : (place, entry) ∈ items) :
    find? place items = some entry := by
  induction items with
  | nil => exact absurd hmem List.not_mem_nil
  | cons item items ih =>
    obtain ⟨hnew, hrest⟩ := List.nodup_cons.mp hnodup
    rcases List.mem_cons.mp hmem with rfl | hmem
    · rw [find?, if_pos rfl]
    · have hne : item.1 ≠ place := fun he =>
        hnew (List.mem_map.mpr ⟨(place, entry), hmem, he.symm⟩)
      rw [find?, if_neg hne, ih hrest hmem]

theorem mem_items_iff {entry : Entry} :
    (place, entry) ∈ tree.items ↔ place ≠ [] ∧ tree.get? place = some entry := by
  constructor
  · intro hmem
    have hfound := find?_of_mem tree.sound.nodup hmem
    have hne := (tree.sound.below place entry hfound).1
    exact ⟨hne, by rw [get?, entryIn, if_neg hne, hfound]⟩
  · rintro ⟨hne, hentry⟩
    rw [get?, entryIn, if_neg hne] at hentry
    exact mem_of_find? hentry

theorem mem_filesUnder :
    names ∈ tree.filesUnder place ↔ isFileAt tree.get? (place ++ names) = true := by
  rw [filesUnder, List.mem_filterMap, isFileAt_iff]
  constructor
  · rintro ⟨⟨found, entry⟩, hmem, hnames⟩
    cases entry with
    | directory => cases hnames
    | file content =>
      simp only at hnames
      split at hnames
      · rename_i hprefix
        obtain ⟨rest, rfl⟩ := List.isPrefixOf_iff_prefix.mp hprefix
        obtain rfl : rest = names := by simpa using hnames
        exact ⟨content, (mem_items_iff.mp hmem).2⟩
      · cases hnames
  · rintro ⟨content, hentry⟩
    have hne : place ++ names ≠ [] := fun hnil => by
      rw [hnil, get?_nil] at hentry
      cases hentry
    exact ⟨(place ++ names, .file content), mem_items_iff.mpr ⟨hne, hentry⟩, by simp⟩

theorem nodup_filesUnder (tree : Tree) (place : Place) : (tree.filesUnder place).Nodup := by
  have hkeys : tree.items.Pairwise fun item other => item.1 ≠ other.1 :=
    List.pairwise_map.mp tree.sound.nodup
  rw [filesUnder, List.Nodup, List.pairwise_filterMap]
  refine hkeys.imp fun {item other} hne names hnames others hothers => ?_
  obtain ⟨found, entry⟩ := item
  obtain ⟨otherFound, otherEntry⟩ := other
  cases entry with
  | directory => cases hnames
  | file content =>
    cases otherEntry with
    | directory => cases hothers
    | file otherContent =>
      simp only at hnames hothers
      split at hnames
      · rename_i hprefix
        split at hothers
        · rename_i hotherPrefix
          obtain ⟨rest, rfl⟩ := List.isPrefixOf_iff_prefix.mp hprefix
          obtain ⟨otherRest, rfl⟩ := List.isPrefixOf_iff_prefix.mp hotherPrefix
          obtain rfl : rest = names := by simpa using hnames
          obtain rfl : otherRest = others := by simpa using hothers
          exact fun he => hne (congrArg (place ++ ·) he)
        · cases hothers
      · cases hnames

end Tree

namespace Entity

theorem extension_fileName (entity : Entity) (ending : Text) :
    (Path.splitExtension (entity.fileName ending)).2 = (Text.splitOn ['.'] ending).getLast? := by
  have hshort := dotless_of_mem_segments entity.shortName_mem
  obtain ⟨c, rest, hc⟩ := List.exists_cons_of_ne_nil (ne_nil_of_mem_segments entity.shortName_mem)
  have hsplit : Text.splitOn ['.'] (entity.fileName ending) =
      entity.shortName :: Text.splitOn ['.'] ending := by
    rw [fileName, Text.splitOn_append_char, Text.splitOn_eq_self hshort]
    rfl
  have hpieces : Text.splitOn ['.'] ending ≠ [] := Text.splitFrom_ne_nil _ _ _
  rw [Path.splitExtension, hsplit]
  generalize Text.splitOn ['.'] ending = pieces at hpieces
  obtain ⟨front, last, rfl⟩ : ∃ front last, pieces = front ++ [last] :=
    ⟨_, _, (List.dropLast_concat_getLast hpieces).symm⟩
  have hreverse : (entity.shortName :: (front ++ [last])).reverse =
      last :: (entity.shortName :: front).reverse := by simp
  rw [hreverse]
  simp only [List.reverse_reverse, List.getLast?_concat]
  rw [hc]
  cases front <;> rfl

end Entity

namespace Catalog

variable {tree left : Tree} {root : Path} {options : Options} {place names : Place}
  {entities : List Entity} {entity : Entity}

theorem isPage_append (place : Place) (h : isPage names = true) :
    isPage (place ++ names) = true := by
  unfold isPage at h ⊢
  cases hlast : names.getLast? with
  | none => simp [hlast] at h
  | some name =>
    rw [List.getLast?_append, hlast]
    rwa [hlast] at h

theorem isPage_file (place : Place) (entity : Entity) (ending : Text) :
    isPage (place ++ [entity.fileName ending]) =
      ((Text.splitOn ['.'] ending).getLast? == some "html".toList) := by
  rw [isPage, List.getLast?_concat]
  exact congrArg (· == some "html".toList) (entity.extension_fileName ending)

/-- Only an edit that serves pages has a slot for one. -/
theorem not_mem_slots_of_isPage {edit : Edit} {home : Place} {endings : List Text}
    (hserves : edit.Serves home root entity endings)
    (hendings : ∀ ending ∈ endings, (Text.splitOn ['.'] ending).getLast? ≠ some "html".toList)
    (hpage : isPage names = true) : place ++ names ∉ edit.slots := by
  intro hslot
  obtain ⟨ending, hending, hplace⟩ := hserves.slots _ hslot
  have hfile := isPage_append place hpage
  rw [hplace, Entity.filePlace, isPage_file, beq_iff_eq] at hfile
  exact hendings ending hending hfile

/-- Building skeletons makes and removes no page. -/
theorem isFileAt_builds {outRoot : Path} (h : Builds root outRoot entities tree left)
    (hpage : isPage names = true) :
    isFileAt left.get? (place ++ names) = isFileAt tree.get? (place ++ names) := by
  rw [h.view]
  refine Edit.isFileAt_runAll fun edit hedit => ?_
  obtain ⟨other, hserves⟩ := h.serves hedit
  exact not_mem_slots_of_isPage hserves (by decide) hpage

/-- The pages below a place. -/
def pagesUnder (tree : Tree) (place : Place) : List Place :=
  (tree.filesUnder place).filter isPage

theorem mem_pagesUnder : names ∈ pagesUnder tree place ↔
    isFileAt tree.get? (place ++ names) = true ∧ isPage names = true := by
  rw [pagesUnder, List.mem_filter, mem_filesUnder]

theorem perm_pagesUnder (hsame : ∀ names, isPage names = true →
    isFileAt left.get? (place ++ names) = isFileAt tree.get? (place ++ names)) :
    (pagesUnder left place).Perm (pagesUnder tree place) := by
  refine (List.perm_ext_iff_of_nodup ((nodup_filesUnder _ _).filter _)
    ((nodup_filesUnder _ _).filter _)).mpr fun names => ?_
  rw [← pagesUnder, ← pagesUnder, mem_pagesUnder, mem_pagesUnder]
  refine and_congr_left fun hpage => ?_
  rw [hsame names hpage]

/-- The entities that some pages stand for, in the order of the catalog. -/
def entitiesOf (options : Options) (pages : List Place) : List Entity :=
  ((Text.sort (pages.map (Text.join ['/']))).filterMap fun target =>
    (cachedEntity options.baseUrl target).toOption).filter fun entity =>
      options.accepts entity.name

theorem perm_entitiesOf {pages others : List Place} (hperm : pages.Perm others) :
    (entitiesOf options pages).Perm (entitiesOf options others) := by
  have hsort : (Text.sort (pages.map (Text.join ['/']))).Perm
      (Text.sort (others.map (Text.join ['/']))) :=
    ((List.mergeSort_perm _ _).trans (hperm.map _)).trans (List.mergeSort_perm _ _).symm
  exact (hsort.filterMap _).filter _

theorem toOption_eq_some {result : Except Failure Entity} :
    result.toOption = some entity ↔ result = .ok entity := by
  cases result <;> simp [Except.toOption]

theorem mem_entitiesOf {pages : List Place} : entity ∈ entitiesOf options pages ↔
    (∃ page ∈ pages, cachedEntity options.baseUrl (Text.join ['/'] page) = .ok entity) ∧
      options.accepts entity.name = true := by
  rw [entitiesOf, List.mem_filter, List.mem_filterMap]
  refine and_congr_left fun _ => ?_
  constructor
  · rintro ⟨target, hmem, hentity⟩
    obtain ⟨page, hpage, rfl⟩ := List.mem_map.mp ((List.mergeSort_perm _ _).subset hmem)
    exact ⟨page, hpage, toOption_eq_some.mp hentity⟩
  · rintro ⟨page, hpage, hentity⟩
    refine ⟨Text.join ['/'] page, ?_, toOption_eq_some.mpr hentity⟩
    exact (List.mergeSort_perm _ _).symm.subset (List.mem_map_of_mem hpage)

theorem outcome_ofCache (hcheck : checkPath root = .ok ()) (hopen : tree.Reaches root) :
    (ofCache tree root options).outcome =
      if (entitiesOf options (pagesUnder tree (root.rootPlace tree.home))).isEmpty then
        .error (.noPages root)
      else .ok (entitiesOf options (pagesUnder tree (root.rootPlace tree.home))) := by
  rw [ofCache, filesBelow_eq_ok.mpr ⟨hcheck, hopen, rfl⟩]
  exact apply_ite Listing.outcome _ _ _

theorem ofCache_eq_ok : (ofCache tree root options).outcome = .ok entities ↔
    checkPath root = .ok () ∧ tree.Reaches root ∧ entities ≠ [] ∧
      entities = entitiesOf options (pagesUnder tree (root.rootPlace tree.home)) := by
  constructor
  · intro h
    cases hfiles : tree.filesBelow root with
    | error e =>
      rw [ofCache, hfiles] at h
      cases h
    | ok places =>
      obtain ⟨hcheck, hopen, rfl⟩ := filesBelow_eq_ok.mp hfiles
      rw [outcome_ofCache hcheck hopen] at h
      split at h
      · cases h
      · rename_i hsome
        obtain rfl := Except.ok.inj h
        exact ⟨hcheck, hopen, fun hnil => hsome (List.isEmpty_iff.mpr hnil), rfl⟩
  · rintro ⟨hcheck, hopen, hsome, rfl⟩
    rw [outcome_ofCache hcheck hopen, if_neg fun hnil => hsome (List.isEmpty_iff.mp hnil)]

/-- The catalog of the cache where the pages are the same. -/
theorem ofCache_again (h : (ofCache tree root options).outcome = .ok entities)
    (hhome : left.home = tree.home)
    (hopen : left.Reaches root)
    (hsame : ∀ names, isPage names = true →
      isFileAt left.get? (root.rootPlace tree.home ++ names) =
        isFileAt tree.get? (root.rootPlace tree.home ++ names)) :
    ∃ others, (ofCache left root options).outcome = .ok others ∧ others.Perm entities := by
  obtain ⟨hcheck, -, hsome, rfl⟩ := ofCache_eq_ok.mp h
  have hperm : (entitiesOf options (pagesUnder left (root.rootPlace tree.home))).Perm
      (entitiesOf options (pagesUnder tree (root.rootPlace tree.home))) :=
    perm_entitiesOf (perm_pagesUnder hsame)
  refine ⟨_, ofCache_eq_ok.mpr ⟨hcheck, hopen, fun hnil => hsome ?_, rfl⟩, ?_⟩
  · rw [hhome] at hnil
    exact List.perm_nil.mp (hnil ▸ hperm.symm)
  · rw [hhome]
    exact hperm

/-! Names in a catalog have no separator, wherever they come from. -/

theorem slashless_dottedName (target : Text) : '/' ∉ dottedName target := by
  intro hmem
  obtain ⟨c, -, hc⟩ := List.mem_map.mp hmem
  split at hc
  · exact absurd hc (by decide)
  · rename_i hne
    exact hne hc

theorem name_of_ofName? {name url : Text} (h : Entity.ofName? name url = .ok entity) :
    entity.name = name ∧ entity.url = url := by
  unfold Entity.ofName? at h
  split at h
  · obtain rfl := Except.ok.inj h
    exact ⟨rfl, rfl⟩
  · cases h

theorem slashless_of_ofCache (h : (ofCache tree root options).outcome = .ok entities) :
    ∀ entity ∈ entities, '/' ∉ entity.name := by
  obtain ⟨-, -, -, rfl⟩ := ofCache_eq_ok.mp h
  intro entity hmem
  obtain ⟨⟨page, -, hentity⟩, -⟩ := mem_entitiesOf.mp hmem
  rw [(name_of_ofName? hentity).1]
  exact slashless_dottedName _

theorem load_eq_ok {site : Site} (h : (load site options).outcome = .ok entities) :
    ∃ html, site.fetch options.indexUrl = .ok html ∧ entities =
      (parseIndex html options.baseUrl).filter fun entity => options.accepts entity.name := by
  unfold load at h
  split at h
  · cases h
  · rename_i html hfetch
    refine ⟨html, hfetch, ?_⟩
    dsimp only at h
    split at h
    · cases h
    · exact (Except.ok.inj h).symm

theorem mem_parseIndex {html baseUrl : Text} : entity ∈ parseIndex html baseUrl ↔
    ∃ target ∈ indexTargets html, indexEntity baseUrl target = .ok entity := by
  simp only [parseIndex, List.mem_filterMap, toOption_eq_some]

theorem slashless_of_load {site : Site} (h : (load site options).outcome = .ok entities) :
    ∀ entity ∈ entities, '/' ∉ entity.name := by
  obtain ⟨html, -, rfl⟩ := load_eq_ok h
  intro entity hmem
  obtain ⟨target, -, hentity⟩ := mem_parseIndex.mp (List.mem_filter.mp hmem).1
  rw [(name_of_ofName? hentity).1]
  exact slashless_dottedName _

end Catalog

end ClassSkeleton
