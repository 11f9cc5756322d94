import ClassSkeleton.Proofs.Stage.Cache

/-!
Skeletons built one after another from the cache. What becomes of each is settled by the tree
they all started from, the order does not matter, and a page that was not in the cache can be
stored below them all.
-/
namespace ClassSkeleton

open ClassSkeleton.Tree Storage

/-- A number of entities have been built on a tree, each of them from its page there. -/
structure Builds (cacheRoot outRoot : Path) (entities : List Entity) (tree left : Tree) : Prop where
  named : ∀ entity ∈ entities, '/' ∉ entity.name
  cached : ∀ entity ∈ entities, isCached tree cacheRoot entity = true
  home : left.home = tree.home
  view : left.get? =
    Edit.runAll (entities.map fun entity => entity.buildEdit cacheRoot outRoot tree) tree.get?

namespace Builds

variable {cacheRoot outRoot : Path} {entities others : List Entity} {tree left right : Tree}
  {entity : Entity}

theorem nil (cacheRoot outRoot : Path) (tree : Tree) : Builds cacheRoot outRoot [] tree tree :=
  ⟨by simp, by simp, rfl, rfl⟩

variable (h : Builds cacheRoot outRoot entities tree left)

include h

/-- Something has been built only if the way to the cache is open. -/
theorem reaches (hentities : entities ≠ []) : tree.Reaches cacheRoot := by
  obtain ⟨entity, hmem⟩ := List.exists_mem_of_ne_nil _ hentities
  exact ((isCached_iff (h.named entity hmem)).mp (h.cached entity hmem)).2.1

theorem serves {edit : Edit}
    (hedit : edit ∈ entities.map fun entity => entity.buildEdit cacheRoot outRoot tree) :
    ∃ entity, edit.Serves tree.home outRoot entity skeletonEndings := by
  obtain ⟨entity, hmem, rfl⟩ := List.mem_map.mp hedit
  exact ⟨entity, Entity.serves_buildEdit (h.named entity hmem) cacheRoot outRoot tree⟩

theorem slots (entity : Entity) : ∀ edit ∈ entities.map fun entity =>
    entity.buildEdit cacheRoot outRoot tree, entity.pagePlace tree.home cacheRoot ∉ edit.slots := by
  intro edit hedit
  obtain ⟨other, hserves⟩ := h.serves hedit
  exact pagePlace_not_mem_slots hserves

theorem isCached_eq (hname : '/' ∉ entity.name) :
    isCached left cacheRoot entity = isCached tree cacheRoot entity :=
  isCached_runAll hname h.home h.view (h.slots entity) fun hedits =>
    h.reaches (by simpa using hedits)

theorem readText_eq (hname : '/' ∉ entity.name)
    (hcached : isCached tree cacheRoot entity = true) :
    left.readText (entity.cachePath cacheRoot) = tree.readText (entity.cachePath cacheRoot) :=
  readText_runAll hname h.home h.view (h.slots entity) hcached

/-- One more entity is built, with the verdict that it would have had before all others. -/
theorem build (hname : '/' ∉ entity.name)
    (hcached : isCached tree cacheRoot entity = true) :
    Builds cacheRoot outRoot (entities ++ [entity]) tree
        (buildCached cacheRoot outRoot entity left).tree ∧
      Verdict.of (buildCached cacheRoot outRoot entity left).outcome =
        entity.verdict cacheRoot outRoot tree := by
  obtain ⟨hhome, hview, hverdict⟩ := Entity.buildCached_effect hname cacheRoot outRoot left
  have hedit : entity.buildEdit cacheRoot outRoot left =
      entity.buildEdit cacheRoot outRoot tree := by
    rw [Entity.buildEdit, Entity.buildEdit, h.home, h.readText_eq hname hcached]
  have hserves := Entity.serves_buildEdit hname cacheRoot outRoot tree
  refine ⟨⟨?_, ?_, hhome.trans h.home, ?_⟩, ?_⟩
  · intro other hother
    rcases List.mem_append.mp hother with hother | hother
    · exact h.named other hother
    · exact List.mem_singleton.mp hother ▸ hname
  · intro other hother
    rcases List.mem_append.mp hother with hother | hother
    · exact h.cached other hother
    · exact List.mem_singleton.mp hother ▸ hcached
  · rw [hview, hedit, h.view, List.map_append, List.map_singleton, Edit.runAll_concat]
  · have hdone : ((entity.buildEdit cacheRoot outRoot tree).run left.get?).1 =
        ((entity.buildEdit cacheRoot outRoot tree).run tree.get?).1 := by
      rw [h.view]
      refine Edit.run_runAll_fst (fun hedits => h.reaches (by simpa using hedits)) ?_
      intro edit hmem view _
      obtain ⟨other, hother⟩ := h.serves hmem
      exact ⟨hother.spares_same hserves view, hserves.spares_same hother view⟩
    rw [hverdict, Entity.verdict, Entity.verdict, hedit, hdone, h.readText_eq hname hcached]

theorem view_of_perm (hperm : entities.Perm others) : left.get? =
    Edit.runAll (others.map fun entity => entity.buildEdit cacheRoot outRoot tree) tree.get? := by
  rw [h.view]
  refine Edit.runAll_perm (hperm.map _) ?_ tree.get?
  intro first hfirst second hsecond view
  obtain ⟨entity, hentity, rfl⟩ := List.mem_map.mp hfirst
  obtain ⟨other, hother, rfl⟩ := List.mem_map.mp hsecond
  by_cases hnames : entity.name = other.name
  · rw [Entity.buildEdit_congr hnames]
  · have hone := Entity.serves_buildEdit (h.named entity hentity) cacheRoot outRoot tree
    have htwo := Entity.serves_buildEdit (h.named other hother) cacheRoot outRoot tree
    exact Edit.run_comm (hone.spares_same htwo view) (htwo.spares_same hone view)
      (htwo.disjoint_of_names hone (Ne.symm hnames))

/-- The order in which entities are built does not matter. -/
theorem perm (hright : Builds cacheRoot outRoot others tree right) (hperm : entities.Perm others) :
    left.home = right.home ∧ left.get? = right.get? :=
  ⟨h.home.trans hright.home.symm, (h.view_of_perm hperm).trans hright.view.symm⟩

end Builds

section Store

/-! A page is stored that was not in the cache. -/

variable {cacheRoot outRoot : Path} {tree : Tree} {entity stored : Entity}
  (hstored : '/' ∉ stored.name) (hmissing : isCached tree cacheRoot stored = false) (body : Text)

theorem store_effect (hstored : '/' ∉ stored.name) (root : Path) (body : Text) (tree : Tree) :
    ((writePage stored root body).run tree).2.home = tree.home ∧
      ((writePage stored root body).run tree).2.get? =
        Edit.runAll [stored.pageEdit tree.home root body] tree.get? :=
  let heffect := Entity.writePage_effect hstored root body tree
  ⟨heffect.home, heffect.view⟩

include hstored hmissing

theorem pagePlace_not_mem_store
    (hcached : isCached tree cacheRoot entity = true) :
    ∀ edit ∈ [stored.pageEdit tree.home cacheRoot body],
      entity.pagePlace tree.home cacheRoot ∉ edit.slots := by
  intro edit hedit hslot
  rw [List.mem_singleton.mp hedit] at hslot
  obtain ⟨ending, -, hplace⟩ :=
    (Entity.serves_pageEdit hstored tree.home cacheRoot body).slots _ hslot
  rw [isCached_congr (Entity.name_eq_of_filePlace hplace), hmissing] at hcached
  simp at hcached

theorem isCached_store (hname : '/' ∉ entity.name)
    (hcached : isCached tree cacheRoot entity = true) :
    isCached ((writePage stored cacheRoot body).run tree).2 cacheRoot entity = true := by
  obtain ⟨hhome, hview⟩ := store_effect hstored cacheRoot body tree
  exact isCached_of_runAll hname hhome hview
    (pagePlace_not_mem_store hstored hmissing body hcached) hcached

theorem readText_store (hname : '/' ∉ entity.name)
    (hcached : isCached tree cacheRoot entity = true) :
    ((writePage stored cacheRoot body).run tree).2.readText (entity.cachePath cacheRoot) =
      tree.readText (entity.cachePath cacheRoot) := by
  obtain ⟨hhome, hview⟩ := store_effect hstored cacheRoot body tree
  exact readText_runAll hname hhome hview
    (pagePlace_not_mem_store hstored hmissing body hcached) hcached

theorem buildEdit_store (hname : '/' ∉ entity.name)
    (hcached : isCached tree cacheRoot entity = true) :
    entity.buildEdit cacheRoot outRoot ((writePage stored cacheRoot body).run tree).2 =
      entity.buildEdit cacheRoot outRoot tree := by
  rw [Entity.buildEdit, Entity.buildEdit, readText_store hstored hmissing body hname hcached,
    (store_effect hstored cacheRoot body tree).1]

variable (hapart : cacheRoot.Apart tree.home outRoot)

include hapart

theorem verdict_store (hname : '/' ∉ entity.name)
    (hcached : isCached tree cacheRoot entity = true) :
    entity.verdict cacheRoot outRoot ((writePage stored cacheRoot body).run tree).2 =
      entity.verdict cacheRoot outRoot tree := by
  have hopen := ((isCached_iff hname).mp hcached).2.1
  have hpage := Entity.serves_pageEdit hstored tree.home cacheRoot body
  have hbuild := Entity.serves_buildEdit hname cacheRoot outRoot tree
  rw [Entity.verdict, Entity.verdict, buildEdit_store hstored hmissing body hname hcached,
    readText_store hstored hmissing body hname hcached,
    (Entity.writePage_effect hstored cacheRoot body tree).view,
    Edit.run_fst (hpage.spares_apart hbuild hopen hapart) (hbuild.spares_open hpage hopen)]

/-- A page can be stored before entities are built or after. -/
theorem Builds.store {entities : List Entity} {left : Tree}
    (h : Builds cacheRoot outRoot entities tree left) :
    Builds cacheRoot outRoot entities ((writePage stored cacheRoot body).run tree).2
        ((writePage stored cacheRoot body).run left).2 ∧
      ((writePage stored cacheRoot body).run left).1.toBool =
        ((writePage stored cacheRoot body).run tree).1.toBool := by
  have hpage := Entity.serves_pageEdit hstored tree.home cacheRoot body
  have heffect := Entity.writePage_effect hstored cacheRoot body tree
  have heffectLeft := Entity.writePage_effect hstored cacheRoot body left
  rw [h.home, h.view] at heffectLeft
  have hopen : (entities.map fun entity => entity.buildEdit cacheRoot outRoot tree) ≠ [] →
      tree.Reaches cacheRoot := fun hedits => h.reaches (by simpa using hedits)
  have hspares : ∀ edit ∈ entities.map fun entity => entity.buildEdit cacheRoot outRoot tree,
      ∀ view, Opens view (cacheRoot.rootStart tree.home) cacheRoot.names →
        Edit.Spares edit (stored.pageEdit tree.home cacheRoot body) view ∧
          Edit.Spares (stored.pageEdit tree.home cacheRoot body) edit view := by
    intro edit hedit view hview
    obtain ⟨entity, hbuild⟩ := h.serves hedit
    exact ⟨hbuild.spares_open hpage hview, hpage.spares_apart hbuild hview hapart⟩
  have hsame : (entities.map fun entity => entity.buildEdit cacheRoot outRoot
      ((writePage stored cacheRoot body).run tree).2) =
        entities.map fun entity => entity.buildEdit cacheRoot outRoot tree :=
    List.map_congr_left fun entity hmem =>
      buildEdit_store hstored hmissing body (h.named entity hmem) (h.cached entity hmem)
  have hcached : ∀ entity ∈ entities,
      isCached ((writePage stored cacheRoot body).run tree).2 cacheRoot entity = true :=
    fun entity hmem =>
      isCached_store hstored hmissing body (h.named entity hmem) (h.cached entity hmem)
  refine ⟨⟨h.named, hcached, ?_, ?_⟩, ?_⟩
  · rw [heffectLeft.home, heffect.home, h.home]
  · rw [hsame, heffectLeft.view, heffect.view]
    refine Edit.run_runAll_snd hopen hspares fun edit hedit => ?_
    obtain ⟨entity, hbuild⟩ := h.serves hedit
    exact hpage.disjoint_of_endings hbuild (by decide)
  · rw [heffectLeft.toBool, heffect.toBool]
    exact Edit.run_runAll_fst hopen hspares

end Store

end ClassSkeleton
