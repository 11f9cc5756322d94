import ClassSkeleton.Proofs.Catalog.Names
import ClassSkeleton.Proofs.Stage.Stored
import Mathlib.Data.List.Basic

/-!
The catalog of a cache that the fetch stage has filled. As long as no other pages stand below the
root, the pages that do are those of refs in the cache, and each of them gives back its ref, with
the name and the address that the index gave it.
-/
namespace ClassSkeleton

open ClassSkeleton.Tree Storage

/-- The pages below a root are those of refs in the cache. -/
def Stocked (root : Path) (refs : List Entity) (tree : Tree) : Prop :=
  ∀ names, Catalog.isPage names = true →
    isFileAt tree.get? (root.rootPlace tree.home ++ names) = true →
      ∃ entity ∈ refs, names = entity.pageNames ∧ isCached tree root entity = true

namespace Stocked

variable {root : Path} {refs : List Entity} {tree left : Tree} {stored : Entity}

theorem of_same (h : Stocked root refs tree) (hnames : ∀ entity ∈ refs, '/' ∉ entity.name)
    (hhome : left.home = tree.home) (hview : left.get? = tree.get?) : Stocked root refs left := by
  intro names hpage hfile
  rw [hhome, hview] at hfile
  obtain ⟨entity, hmem, hplace, hcached⟩ := h names hpage hfile
  exact ⟨entity, hmem, hplace, (isCached_of_same (hnames entity hmem) hhome hview).trans hcached⟩

theorem names_eq_of_mem_slots (hstored : '/' ∉ stored.name) {home : Place} {body : Text}
    {names : Place} (hpage : Catalog.isPage names = true)
    (hslot : root.rootPlace home ++ names ∈ (stored.pageEdit home root body).slots) :
    names = stored.pageNames := by
  obtain ⟨ending, hending, hplace⟩ :=
    (Entity.serves_pageEdit hstored home root body).slots _ hslot
  have hfile := Catalog.isPage_append (root.rootPlace home) hpage
  rw [hplace, Entity.filePlace, Catalog.isPage_file, beq_iff_eq] at hfile
  rcases List.mem_cons.mp hending with rfl | hending
  · exact absurd hfile (by decide)
  · rw [List.mem_singleton.mp hending] at hplace
    exact List.append_cancel_left (hplace.trans (Entity.pagePlace_eq home root stored))

theorem store (h : Stocked root refs tree) (hnames : ∀ entity ∈ refs, '/' ∉ entity.name)
    (hmem : stored ∈ refs) (hmissing : isCached tree root stored = false) (body : Text) :
    Stocked root refs ((writePage stored root body).run tree).2 := by
  have hstored := hnames stored hmem
  have heffect := Entity.writePage_effect hstored root body tree
  intro names hpage hfile
  rw [heffect.home, heffect.view] at hfile
  by_cases hslot : root.rootPlace tree.home ++ names ∈
      (stored.pageEdit tree.home root body).slots
  · obtain rfl := names_eq_of_mem_slots hstored hpage hslot
    refine ⟨stored, hmem, rfl, ?_⟩
    cases hdone : ((stored.pageEdit tree.home root body).run tree.get?).1 with
    | true => exact isCached_of_done hstored hdone
    | false =>
      rw [← Entity.pagePlace_eq, isFileAt_of_failed hstored hdone, Entity.pagePlace_eq] at hfile
      obtain ⟨other, -, hplace, hcached⟩ := h _ hpage hfile
      rw [← isCached_congr (Entity.name_eq_of_pageNames hplace), hmissing] at hcached
      cases hcached
  · rw [Edit.isFileAt_run fun hs => absurd hs hslot] at hfile
    obtain ⟨entity, hentity, hplace, hcached⟩ := h names hpage hfile
    exact ⟨entity, hentity, hplace,
      isCached_store hstored hmissing body (hnames entity hentity) hcached⟩

theorem visit {state : FetchState} (h : Stocked root refs state.tree)
    (hnames : ∀ entity ∈ refs, '/' ∉ entity.name) (hmem : stored ∈ refs) (fetcher : Site) :
    Stocked root refs (state.visit fetcher root stored).tree := by
  rcases visit_cases (hnames stored hmem) fetcher root state with
    ⟨-, htree, -⟩ | ⟨-, -, htree, -⟩ | ⟨hmissing, body, -, htree, -⟩
  · rw [htree]
    exact h
  · rw [htree]
    exact h
  · rw [htree]
    exact h.store hnames hmem hmissing body

/-- A fetch stage that begins without pages leaves none but those of its refs. -/
theorem fetchAll (hnames : ∀ entity ∈ refs, '/' ∉ entity.name) (fetcher : Site)
    (hbare : Stocked root refs tree) :
    Stocked root refs (ClassSkeleton.fetchAll fetcher root refs tree).tree :=
  fetchAll_induction fetcher root refs hbare fun _ hmem _ h => h.visit hnames hmem fetcher

theorem perm_pagesUnder (h : Stocked root refs tree)
    (hnames : ∀ entity ∈ refs, '/' ∉ entity.name)
    (hdistinct : refs.Pairwise fun entity other => entity.name ≠ other.name) :
    (Catalog.pagesUnder tree (root.rootPlace tree.home)).Perm
      ((refs.filter fun entity => isCached tree root entity).map Entity.pageNames) := by
  have hpairwise : ((refs.filter fun entity => isCached tree root entity).map
      Entity.pageNames).Nodup :=
    List.pairwise_map.mpr ((hdistinct.filter _).imp fun hne hplace =>
      hne (Entity.name_eq_of_pageNames hplace))
  refine (List.perm_ext_iff_of_nodup ((nodup_filesUnder _ _).filter _) hpairwise).mpr ?_
  intro names
  rw [← Catalog.pagesUnder, Catalog.mem_pagesUnder, List.mem_map]
  constructor
  · rintro ⟨hfile, hpage⟩
    obtain ⟨entity, hmem, hplace, hcached⟩ := h names hpage hfile
    exact ⟨entity, List.mem_filter.mpr ⟨hmem, hcached⟩, hplace.symm⟩
  · rintro ⟨entity, hmem, rfl⟩
    obtain ⟨hentity, hcached⟩ := List.mem_filter.mp hmem
    obtain ⟨-, -, hfile⟩ := (isCached_iff (hnames entity hentity)).mp hcached
    rw [Entity.pagePlace_eq] at hfile
    exact ⟨hfile, entity.isPage_pageNames⟩

end Stocked

namespace Catalog

variable {options : Options} {root : Path} {refs entities : List Entity} {tree after : Tree}
  {names : List PageName} {html : Text}

theorem perm_entitiesOf_pageNames (hback : ∀ entity ∈ entities,
      cachedEntity options.baseUrl (Text.join ['/'] entity.pageNames) = .ok entity)
    (haccepts : ∀ entity ∈ entities, options.accepts entity.name = true) :
    (entitiesOf options (entities.map Entity.pageNames)).Perm entities := by
  have hlisted : (((entities.map Entity.pageNames).map (Text.join ['/'])).filterMap fun target =>
      (cachedEntity options.baseUrl target).toOption) = entities := by
    rw [List.map_map, List.filterMap_map]
    exact (List.filterMap_eq_map_iff_forall_eq_some.mpr fun entity hmem =>
      toOption_eq_some.mpr (hback entity hmem)).trans (List.map_id entities)
  have hperm := (((List.mergeSort_perm ((entities.map Entity.pageNames).map (Text.join ['/']))
    fun a b => !Text.precedes b a).filterMap fun target =>
      (cachedEntity options.baseUrl target).toOption).filter fun entity =>
        options.accepts entity.name)
  rw [hlisted, List.filter_eq_self.mpr haccepts] at hperm
  exact hperm

theorem parseIndex_eq (htargets : indexTargets html = names.map PageName.target) (baseUrl : Text) :
    parseIndex html baseUrl = names.map fun name => name.entity baseUrl := by
  rw [parseIndex, htargets, List.filterMap_map]
  exact List.filterMap_eq_map_iff_forall_eq_some.mpr fun name _ =>
    toOption_eq_some.mpr (name.indexEntity_target baseUrl)

/-- What an index of conventional and distinct targets gives: entities that can be read off from
their pages, each with a name of its own. -/
theorem load_conventional {site : Site} (hindex : site.fetch options.indexUrl = .ok html)
    (htargets : indexTargets html = names.map PageName.target)
    (hdistinct : (names.map PageName.target).Nodup)
    (hload : (load site options).outcome = .ok refs) :
    (refs.Pairwise fun entity other => entity.name ≠ other.name) ∧
      ∀ entity ∈ refs, options.accepts entity.name = true ∧
        cachedEntity options.baseUrl (Text.join ['/'] entity.pageNames) = .ok entity := by
  obtain ⟨_, hfetch, rfl⟩ := load_eq_ok hload
  obtain rfl := Except.ok.inj (hindex.symm.trans hfetch)
  rw [parseIndex_eq htargets]
  constructor
  · refine List.Pairwise.filter _ (List.pairwise_map.mpr ?_)
    exact (List.pairwise_map.mp hdistinct).imp fun hne hname =>
      hne (PageName.target_eq_of_dotted _ hname)
  · intro entity hmem
    obtain ⟨hentity, haccepts⟩ := List.mem_filter.mp hmem
    obtain ⟨name, -, rfl⟩ := List.mem_map.mp hentity
    exact ⟨haccepts, name.cachedEntity_pageNames options.baseUrl⟩

/-- The catalog of the cache recovers that of the index: of a cache without pages that a fetch
stage has been at, it lists the refs with a page, each as the index gave it and once, and there is
none if no ref has a page. The tree may keep its entries in any order. -/
theorem ofCache_fetchAll {site fetcher : Site} (hroot : root.text ≠ [])
    (hindex : site.fetch options.indexUrl = .ok html)
    (htargets : indexTargets html = names.map PageName.target)
    (hdistinct : (names.map PageName.target).Nodup)
    (hload : (load site options).outcome = .ok refs)
    (hbare : ∀ place, isPage place = true →
      isFileAt tree.get? (root.rootPlace tree.home ++ place) = false)
    (hhome : after.home = (fetchAll fetcher root refs tree).tree.home)
    (hview : after.get? = (fetchAll fetcher root refs tree).tree.get?) :
    let cached := refs.filter fun entity => isCached after root entity
    (cached ≠ [] → ∃ entities, (ofCache after root options).outcome = .ok entities ∧
        entities.Perm cached ∧ entities.Nodup ∧
          ∀ entity ∈ entities, isCached after root entity = true) ∧
      (cached = [] → ∃ cause, (ofCache after root options).outcome = .error cause) := by
  intro cached
  have hnames := slashless_of_load hload
  obtain ⟨hpairwise, hrefs⟩ := load_conventional hindex htargets hdistinct hload
  have hempty : Stocked root refs tree := fun place hpage hfile => by
    rw [hbare place hpage] at hfile
    cases hfile
  have hstocked : Stocked root refs after :=
    (Stocked.fetchAll hnames fetcher hempty).of_same hnames hhome hview
  have hlisted : (entitiesOf options (pagesUnder after (root.rootPlace after.home))).Perm cached :=
    (perm_entitiesOf (hstocked.perm_pagesUnder hnames hpairwise)).trans
      (perm_entitiesOf_pageNames (fun entity hmem => (hrefs entity (List.mem_filter.mp hmem).1).2)
        fun entity hmem => (hrefs entity (List.mem_filter.mp hmem).1).1)
  constructor
  · intro hsome
    obtain ⟨entity, hmem⟩ := List.exists_mem_of_ne_nil _ hsome
    obtain ⟨hentity, hcached⟩ := List.mem_filter.mp hmem
    obtain ⟨hcheck, hopen, -⟩ := (isCached_iff (hnames entity hentity)).mp hcached
    have hrootCheck : checkPath root = .ok () := Path.checkPath_of_prefix hcheck
      (entity.prefix_localPath root (hnames entity hentity) (by decide) (by decide)) hroot
    have hnonempty : entitiesOf options (pagesUnder after (root.rootPlace after.home)) ≠ [] :=
      fun hnil => hsome (List.perm_nil.mp (hnil ▸ hlisted.symm))
    refine ⟨_, ofCache_eq_ok.mpr ⟨hrootCheck, hopen, hnonempty, rfl⟩, hlisted, ?_,
      fun other hother => ?_⟩
    · have hdistinctRefs : refs.Nodup := hpairwise.imp fun hne he => hne (congrArg Entity.name he)
      exact hlisted.nodup_iff.mpr (hdistinctRefs.filter _)
    · exact (List.mem_filter.mp (hlisted.subset hother)).2
  · intro hnone
    cases houtcome : (ofCache after root options).outcome with
    | error cause => exact ⟨cause, rfl⟩
    | ok entities =>
      obtain ⟨-, -, hsome, rfl⟩ := ofCache_eq_ok.mp houtcome
      exact absurd (List.perm_nil.mp (hnone ▸ hlisted)) hsome

/-- A nested type, and a class whose page cannot be had. -/
def sampleNames : List PageName :=
  [⟨["p".toList, "q".toList], ["Outer".toList], "Inner".toList, by decide, by decide, by decide⟩,
    ⟨["p".toList], [], "B".toList, by decide, by decide, by decide⟩]

def sampleIndex : Text :=
  "<ul>\n<li><a href=\"p/q/Outer.Inner.html\">Inner</a>\n".toList ++
    "<li><a href=\"p/B.html\">B</a>\n</ul>".toList

def sampleSite : Site := Site.ofPages
  [("d/i".toList, sampleIndex), ("d/p/q/Outer.Inner.html".toList, "page".toList)]

def sampleOptions : Options :=
  ⟨"d/".toList, "i".toList, [], false, ⟨"cache".toList⟩, ⟨"out".toList⟩⟩

def sampleRefs : List Entity := sampleNames.map fun name => name.entity "d/".toList

theorem sample_conventional :
    sampleSite.fetch sampleOptions.indexUrl = .ok sampleIndex ∧
      indexTargets sampleIndex = sampleNames.map PageName.target ∧
      (sampleNames.map PageName.target).Nodup ∧
      (load sampleSite sampleOptions).outcome = .ok sampleRefs :=
  ⟨by decide +kernel, by decide +kernel, by decide +kernel, by decide +kernel⟩

theorem isFileAt_bare (home place : Place) : isFileAt (Tree.bare home).get? place = false := by
  by_cases hplace : place = []
  · rw [hplace]
    exact isFileAt_eq_false_of_directory (get?_nil _)
  · refine isFileAt_eq_false_of_none ?_
    rw [Tree.get?, entryIn, if_neg hplace]
    rfl

theorem ofCache_fetchAll_nested :
    let after := (fetchAll sampleSite ⟨"cache".toList⟩ sampleRefs (Tree.bare [])).tree
    ∃ entities, (ofCache after ⟨"cache".toList⟩ sampleOptions).outcome = .ok entities ∧
      entities.Perm (sampleRefs.take 1) := by
  intro after
  obtain ⟨hindex, htargets, hdistinct, hload⟩ := sample_conventional
  have hroot : (Path.mk "cache".toList).text ≠ [] := by decide
  have hcached : (sampleRefs.filter fun entity => isCached after ⟨"cache".toList⟩ entity) =
      sampleRefs.take 1 := by decide +kernel
  obtain ⟨hsome, -⟩ := ofCache_fetchAll hroot hindex htargets hdistinct hload
    (fun place _ => isFileAt_bare [] _) (Eq.refl after.home) rfl
  obtain ⟨entities, houtcome, hperm, -⟩ := hsome (by rw [hcached]; decide)
  exact ⟨entities, houtcome, hcached ▸ hperm⟩

/-- In the directory that is named by no path at all, pages can be stored but not listed. -/
theorem not_ofCache_fetchAll_unnamed :
    ¬ ∀ (site fetcher : Site) (options : Options) (root : Path) (html : Text)
      (names : List PageName) (refs : List Entity) (tree after : Tree),
      site.fetch options.indexUrl = .ok html →
      indexTargets html = names.map PageName.target →
      (names.map PageName.target).Nodup →
      (load site options).outcome = .ok refs →
      (∀ place, isPage place = true →
        isFileAt tree.get? (root.rootPlace tree.home ++ place) = false) →
      after.home = (fetchAll fetcher root refs tree).tree.home →
      after.get? = (fetchAll fetcher root refs tree).tree.get? →
      (∃ entity ∈ refs, isCached after root entity = true) →
      ∃ entities, (ofCache after root options).outcome = .ok entities := by
  intro hall
  obtain ⟨hindex, htargets, hdistinct, hload⟩ := sample_conventional
  obtain ⟨entities, houtcome⟩ := hall sampleSite sampleSite sampleOptions ⟨[]⟩ sampleIndex
    sampleNames sampleRefs (Tree.bare []) _ hindex htargets hdistinct hload
    (fun place _ => isFileAt_bare [] _) rfl rfl (by decide +kernel)
  obtain ⟨hcheck, -⟩ := ofCache_eq_ok.mp houtcome
  exact absurd hcheck (by decide)

end Catalog

end ClassSkeleton
