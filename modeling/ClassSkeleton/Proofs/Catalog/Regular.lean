import ClassSkeleton.Proofs.Catalog.Names
import Mathlib.Data.List.Nodup
import Mathlib.Data.List.Pairwise

/-!
When a page is where its entity looks for it. A file below the cache root becomes an entity by its
path, with dots for slashes, and the entity looks for its page by its name, with slashes for dots.
The two agree on the names without a dot but that of the ending; a page with another dot is listed
under the name of a page that lies deeper, whether there is one or not.
-/
namespace ClassSkeleton

open ClassSkeleton.Tree Storage

/-- The only dot in the names of a page is that of its ending. -/
def IsPlainPage (page : Place) : Prop := page.flatten.count '.' = 1

instance (page : Place) : Decidable (IsPlainPage page) := inferInstanceAs (Decidable (_ = _))

theorem isPlainPage_iff {folders : List Text} {stem : Text} :
    IsPlainPage (folders ++ [stem ++ Catalog.pageEnding]) ↔
      ∀ piece ∈ folders ++ [stem], '.' ∉ piece := by
  have hending : Catalog.pageEnding.count '.' = 1 := by decide
  have hcount : (folders ++ [stem ++ Catalog.pageEnding]).flatten.count '.' =
      (folders ++ [stem]).flatten.count '.' + 1 := by
    simp [hending, Nat.add_assoc]
  rw [IsPlainPage, hcount, Nat.add_eq_right, List.count_eq_zero, List.mem_flatten]
  constructor
  · intro hnone piece hmem hdot
    exact hnone ⟨piece, hmem, hdot⟩
  · rintro hnone ⟨piece, hmem, hdot⟩
    exact hnone piece hmem hdot

theorem Path.exists_stem {name : Text} (h : (splitExtension name).2 = some "html".toList) :
    ∃ stem, name = stem ++ Catalog.pageEnding := by
  rw [splitExtension] at h
  split at h
  · rename_i extension above hreverse
    have hpieces : Text.splitOn ['.'] name = above.reverse ++ [extension] := by
      rw [← List.reverse_reverse (Text.splitOn ['.'] name), hreverse, List.reverse_cons]
    split at h
    · cases h
    · rename_i hstem
      obtain rfl : extension = "html".toList := Option.some.inj h
      have habove : above.reverse ≠ [] := fun hnil => hstem (by rw [hnil]; rfl)
      refine ⟨Text.join ['.'] above.reverse, ?_⟩
      rw [← Text.join_splitOn (List.cons_ne_nil '.' []) name, hpieces, Text.join_concat _ _ habove,
        List.append_assoc]
      rfl
  · cases h

theorem Catalog.exists_stem {page : Place} (h : isPage page = true) :
    ∃ folders stem, page = folders ++ [stem ++ pageEnding] := by
  unfold isPage at h
  cases hlast : page.getLast? with
  | none => simp [hlast] at h
  | some name =>
    rw [hlast] at h
    obtain ⟨stem, rfl⟩ := Path.exists_stem (beq_iff_eq.mp h)
    obtain ⟨folders, rfl⟩ := List.getLast?_eq_some_iff.mp hlast
    exact ⟨folders, stem, rfl⟩

namespace Entity

theorem isPlainPage_pageNames (entity : Entity) : IsPlainPage entity.pageNames := by
  have hplain : ∀ piece ∈ entity.folders ++ [entity.shortName], '.' ∉ piece := by
    rw [← entity.segments_eq]
    exact fun piece hmem => dotless_of_mem_segments hmem
  exact isPlainPage_iff.mpr hplain

theorem pageNames_of_plain {entity : Entity} {folders : List Text} {stem : Text}
    (hname : entity.name = Text.join ['.'] (folders ++ [stem]))
    (hplain : IsPlainPage (folders ++ [stem ++ Catalog.pageEnding])) :
    entity.pageNames = folders ++ [stem ++ Catalog.pageEnding] := by
  have hsegments : entity.segments = folders ++ [stem] := by
    rw [segments, hname]
    exact Text.splitOn_join (by simp) (isPlainPage_iff.mp hplain)
  rw [pageNames, Entity.folders, fileName, shortName, hsegments, List.dropLast_concat,
    List.getLastD_concat]
  rfl

end Entity

namespace Catalog

variable {tree : Tree} {root : Path} {options : Options} {place page other : Place}
  {entities : List Entity} {entity : Entity}

/-- The entity that a page stands for, if the options accept it. -/
def selected? (options : Options) (page : Place) : Option Entity :=
  (cachedEntity options.baseUrl (Text.join ['/'] page)).toOption.filter fun entity =>
    options.accepts entity.name

theorem selected?_eq_some : selected? options page = some entity ↔
    cachedEntity options.baseUrl (Text.join ['/'] page) = .ok entity ∧
      options.accepts entity.name = true := by
  rw [selected?, Option.filter_eq_some_iff, toOption_eq_some]

theorem perm_entitiesOf_selected (options : Options) (pages : List Place) :
    (entitiesOf options pages).Perm (pages.filterMap (selected? options)) := by
  have hsorted : (entitiesOf options pages).Perm
      (((pages.map (Text.join ['/'])).filterMap fun target =>
        (cachedEntity options.baseUrl target).toOption).filter fun entity =>
          options.accepts entity.name) :=
    ((List.mergeSort_perm _ _).filterMap _).filter _
  rw [List.filterMap_map, List.filter_filterMap] at hsorted
  exact hsorted

theorem nodup_pagesUnder (tree : Tree) (place : Place) : (pagesUnder tree place).Nodup :=
  (nodup_filesUnder tree place).filter _

theorem slashless_of_mem_pagesUnder (hmem : page ∈ pagesUnder tree place) :
    ∀ piece ∈ page, '/' ∉ piece := by
  intro piece hpiece
  obtain ⟨content, hentry⟩ := isFileAt_iff.mp (mem_pagesUnder.mp hmem).1
  have hne : place ++ page ≠ [] := List.append_ne_nil_of_right_ne_nil _ (List.ne_nil_of_mem hpiece)
  have hname := tree.sound.named _ (mem_items_iff.mpr ⟨hne, hentry⟩) piece
    (List.mem_append_right _ hpiece)
  simp only [isName, Bool.and_eq_true, decide_eq_true_eq] at hname
  exact hname.1.1.2

theorem name_of_selected (hslash : ∀ piece ∈ page, '/' ∉ piece)
    (h : selected? options page = some entity) {folders : List Text} {stem : Text}
    (hpage : page = folders ++ [stem ++ pageEnding]) :
    entity.name = Text.join ['.'] (folders ++ [stem]) := by
  have hpieces : ∀ piece ∈ folders ++ [stem], '/' ∉ piece := by
    intro piece hmem hc
    rcases List.mem_append.mp hmem with hmem | hmem
    · exact hslash piece (by simp [hpage, hmem]) hc
    · rw [List.mem_singleton.mp hmem] at hc
      exact hslash (stem ++ pageEnding) (by simp [hpage]) (List.mem_append_left _ hc)
  rw [(name_of_ofName? (selected?_eq_some.mp h).1).1, hpage, Text.join_append_ending,
    dottedName_join hpieces]

/-- A page is where its entity looks for it exactly if it is plain. -/
theorem pageNames_eq_iff (hmem : page ∈ pagesUnder tree place)
    (h : selected? options page = some entity) : entity.pageNames = page ↔ IsPlainPage page := by
  constructor
  · intro hsame
    rw [← hsame]
    exact entity.isPlainPage_pageNames
  · intro hplain
    obtain ⟨folders, stem, hpage⟩ := exists_stem (mem_pagesUnder.mp hmem).2
    have hname := name_of_selected (slashless_of_mem_pagesUnder hmem) h hpage
    rw [hpage] at hplain ⊢
    exact Entity.pageNames_of_plain hname hplain

theorem selected?_pageNames (hname : '/' ∉ entity.name)
    (h : selected? options page = some entity) :
    ∃ twin, selected? options entity.pageNames = some twin ∧ twin.name = entity.name := by
  have hdotted : dottedName (Text.join ['/'] entity.pageNames) = entity.name := by
    rw [entity.join_pageNames, dottedName_join fun piece hmem =>
      Entity.slashless_of_mem_segments hname hmem]
    exact Text.join_splitOn (List.cons_ne_nil '.' []) entity.name
  have hentity : cachedEntity options.baseUrl (Text.join ['/'] entity.pageNames) =
      .ok ⟨entity.name, options.baseUrl ++ pageTarget (Text.join ['/'] entity.pageNames),
        entity.qualified⟩ := by
    rw [cachedEntity, hdotted]
    exact dif_pos entity.qualified
  exact ⟨_, selected?_eq_some.mpr ⟨hentity, (selected?_eq_some.mp h).2⟩, rfl⟩

/-- No two of the pages give one name. -/
def NamesApart (options : Options) (pages : List Place) : Prop :=
  ∀ page ∈ pages, ∀ other ∈ pages, page ≠ other →
    ∀ entity ∈ selected? options page, ∀ twin ∈ selected? options other, entity.name ≠ twin.name

theorem nodup_names_iff {pages : List Place} (hnodup : pages.Nodup) :
    ((pages.filterMap (selected? options)).map Entity.name).Nodup ↔ NamesApart options pages := by
  rw [List.Nodup, List.pairwise_map, List.pairwise_filterMap]
  constructor
  · intro hpairwise page hpage other hother hne
    have hsymm : Std.Symm fun page other => ∀ entity ∈ selected? options page,
        ∀ twin ∈ selected? options other, entity.name ≠ twin.name :=
      ⟨fun page other h entity hentity twin htwin => (h twin htwin entity hentity).symm⟩
    exact hpairwise.forall hpage hother hne
  · intro hapart
    exact hnodup.pairwise_of_forall_ne fun page hpage other hother hne =>
      hapart page hpage other hother hne

/-- Every page that is selected lies where the cache keeps pages: it is plain, and its path is one
that can be used. -/
def IsRegular (tree : Tree) (root : Path) (options : Options) : Prop :=
  ∀ page ∈ pagesUnder tree (root.rootPlace tree.home), ∀ entity ∈ selected? options page,
    IsPlainPage page ∧ checkPath (entity.cachePath root) = .ok ()

theorem pageNames_of_isRegular (h : IsRegular tree root options)
    (hmem : page ∈ pagesUnder tree (root.rootPlace tree.home))
    (hselected : selected? options page = some entity) : entity.pageNames = page :=
  (pageNames_eq_iff hmem hselected).mpr (h page hmem entity hselected).1

theorem namesApart_of_isRegular (h : IsRegular tree root options) :
    NamesApart options (pagesUnder tree (root.rootPlace tree.home)) := by
  intro page hpage other hother hne entity hentity twin htwin hname
  apply hne
  rw [← pageNames_of_isRegular h hpage hentity, ← pageNames_of_isRegular h hother htwin,
    Entity.pageNames, Entity.pageNames, Entity.folders, Entity.folders, Entity.fileName,
    Entity.fileName, Entity.shortName, Entity.shortName, Entity.segments, Entity.segments, hname]

variable (h : (ofCache tree root options).outcome = .ok entities)

include h

theorem perm_of_ofCache : entities.Perm
    ((pagesUnder tree (root.rootPlace tree.home)).filterMap (selected? options)) := by
  obtain ⟨-, -, -, rfl⟩ := ofCache_eq_ok.mp h
  exact perm_entitiesOf_selected options _

/-- What a catalog lists is in the cache, each name once, exactly if the cache is regular. -/
theorem isRegular_iff :
    ((∀ entity ∈ entities, isCached tree root entity = true) ∧
      (entities.map Entity.name).Nodup) ↔ IsRegular tree root options := by
  have hnames := slashless_of_ofCache h
  have hperm := perm_of_ofCache h
  obtain ⟨-, hopen, -⟩ := ofCache_eq_ok.mp h
  have hlisted : ∀ page ∈ pagesUnder tree (root.rootPlace tree.home), ∀ entity,
      selected? options page = some entity → entity ∈ entities := fun page hmem entity hselected =>
    hperm.symm.subset (List.mem_filterMap.mpr ⟨page, hmem, hselected⟩)
  rw [(hperm.map Entity.name).nodup_iff, nodup_names_iff (nodup_pagesUnder _ _)]
  constructor
  · rintro ⟨hcached, hapart⟩ page hmem entity hselected
    have hentity := hlisted page hmem entity hselected
    obtain ⟨hcheck, -, hfile⟩ := (isCached_iff (hnames entity hentity)).mp (hcached entity hentity)
    refine ⟨(pageNames_eq_iff hmem hselected).mp ?_, hcheck⟩
    -- The page that the entity looks for is there, so it would be listed a second time.
    by_contra hne
    rw [Entity.pagePlace_eq] at hfile
    obtain ⟨twin, htwin, hname⟩ := selected?_pageNames (hnames entity hentity) hselected
    exact hapart _ (mem_pagesUnder.mpr ⟨hfile, entity.isPage_pageNames⟩) page hmem hne twin htwin
      entity hselected hname
  · intro hregular
    refine ⟨fun entity hentity => ?_, namesApart_of_isRegular hregular⟩
    obtain ⟨page, hmem, hselected⟩ := List.mem_filterMap.mp (hperm.subset hentity)
    obtain ⟨-, hcheck⟩ := hregular page hmem entity hselected
    have hfile := (mem_pagesUnder.mp hmem).1
    rw [← pageNames_of_isRegular hregular hmem hselected, ← Entity.pagePlace_eq] at hfile
    exact (isCached_iff (hnames entity hentity)).mpr ⟨hcheck, hopen, hfile⟩

/-- The entities of a regular cache look for the pages that were selected. -/
theorem perm_pageNames (hregular : IsRegular tree root options) :
    (entities.map Entity.pageNames).Perm
      ((pagesUnder tree (root.rootPlace tree.home)).filter fun page =>
        (selected? options page).isSome) := by
  refine ((perm_of_ofCache h).map Entity.pageNames).trans (List.Perm.of_eq ?_)
  rw [List.map_filterMap, ← List.filterMap_eq_filter]
  refine List.filterMap_congr fun page hmem => ?_
  cases hselected : selected? options page with
  | none => simp [Option.guard, hselected]
  | some entity =>
    simp [Option.guard, hselected, pageNames_of_isRegular hregular hmem hselected]

end Catalog

end ClassSkeleton
