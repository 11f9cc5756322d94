import ClassSkeleton.Proofs.Catalog.Regular
import ClassSkeleton.Proofs.Stage.Alone
import ClassSkeleton.Run

/-!
A run on cached pages only. It works through the catalog of the cache: what is listed and in the
cache is translated, once for each time that it is listed, and what is listed only is pending at
the end. In a regular cache nothing is pending, and the translated pages are those selected. All
this is about a cache of directories and regular files whose names are UTF-8: any other name would
be listed with replacement characters, under which no page is found.
-/
namespace ClassSkeleton.Run

open ClassSkeleton.Tree Storage

variable {site : Site} {options : Options} {root : Path} {tree : Tree} {entities : List Entity}

def cachedOnly (options : Options) (root : Path) : Options :=
  { options with parseOnly := true, cacheRoot := root }

theorem outcome_cachedOnly (h : (Catalog.ofCache tree root options).outcome = .ok entities)
    (site : Site) (thread : Text) :
    (perform site (cachedOnly options root) thread tree).outcome = .ok ⟨⟨0, 0, []⟩,
      (parseAll root options.outRoot Joint.afterFetch entities tree).state.report⟩ := by
  have hcatalog : (catalog site (cachedOnly options root) tree).outcome = .ok entities := h
  unfold perform
  simp only [hcatalog]
  rfl

theorem filter_verdict {cacheRoot outRoot : Path} (hnames : ∀ entity ∈ entities, '/' ∉ entity.name)
    (tree : Tree) (verdict : Verdict) :
    (entities.filter fun entity => entity.verdict cacheRoot outRoot tree == verdict) =
      entities.filter fun entity =>
        Verdict.of (buildCached cacheRoot outRoot entity tree).outcome == verdict := by
  refine List.filter_congr fun entity hmem => ?_
  obtain ⟨-, -, hverdict⟩ := Entity.buildCached_effect (hnames entity hmem) cacheRoot outRoot tree
  rw [hverdict]

theorem perm_under {left : Tree} {report : ParseReport} {cacheRoot outRoot : Path}
    (h : Parsed cacheRoot outRoot entities tree left report) (verdict : Verdict) :
    (report.under verdict).Perm
      (((entities.filter fun entity => isCached tree cacheRoot entity).filter fun entity =>
        Verdict.of (buildCached cacheRoot outRoot entity tree).outcome == verdict).map
          (·.name)) := by
  obtain ⟨built, hbuilds, hperm, hunder⟩ := h.built
  rw [hunder verdict, filter_verdict hbuilds.named]
  exact (hperm.filter _).map _

/-- The catalog of the cache lists cached pages alone, each name once, exactly if the cache is
regular. A run on it returns, with each cached page that was listed under its verdict and the
others pending; so on a regular cache it translates the selected pages, each once, and leaves
nothing pending. -/
theorem perform_cachedOnly (h : (Catalog.ofCache tree root options).outcome = .ok entities)
    (site : Site) (thread : Text) :
    ((∀ entity ∈ entities, isCached tree root entity = true) ∧
        (entities.map Entity.name).Nodup ↔ Catalog.IsRegular tree root options) ∧
      ∃ summary,
        (perform site (cachedOnly options root) thread tree).outcome = .ok summary ∧
        summary.parse.pending.Perm
          ((entities.filter fun entity => !isCached tree root entity).map (·.name)) ∧
        (∀ verdict, (summary.parse.under verdict).Perm
          (((entities.filter fun entity => isCached tree root entity).filter fun entity =>
            Verdict.of (buildCached root options.outRoot entity tree).outcome == verdict).map
              (·.name))) ∧
        (Catalog.IsRegular tree root options → summary.parse.pending = [] ∧
          (entities.map Entity.pageNames).Perm
            ((Catalog.pagesUnder tree (root.rootPlace tree.home)).filter fun page =>
              (Catalog.selected? options page).isSome) ∧
          ∀ verdict, (summary.parse.under verdict).Perm ((entities.filter fun entity =>
            Verdict.of (buildCached root options.outRoot entity tree).outcome == verdict).map
              (·.name))) := by
  have hiff := Catalog.isRegular_iff h
  have hparsed := Parsed.parseAll root options.outRoot (Catalog.slashless_of_ofCache h) tree
  have hunder := perm_under hparsed
  refine ⟨hiff, _, outcome_cachedOnly h site thread, hparsed.pending, hunder, fun hregular => ?_⟩
  have hcached := (hiff.mpr hregular).1
  refine ⟨?_, Catalog.perm_pageNames h hregular, fun verdict => ?_⟩
  · have hnone : (entities.filter fun entity => !isCached tree root entity) = [] :=
      List.filter_eq_nil_iff.mpr fun entity hmem => by simp [hcached entity hmem]
    simpa only [hnone, List.map_nil, List.perm_nil] using hparsed.pending
  · have hall : (entities.filter fun entity => isCached tree root entity) = entities :=
      List.filter_eq_self.mpr hcached
    simpa only [hall] using hunder verdict

section Samples

/-! One page below the cache root, under a name of its own choice. -/

def singlePage (name : Text) : Tree :=
  [(["c".toList], Entry.directory), (["c".toList, "p".toList], .directory),
    (["c".toList, "p".toList, name],
      .file (.text "<h2 title=\"Class T\"><pre>class T</pre>".toList))].foldl
      (fun tree item => tree.put item.1 item.2) (Tree.bare [])

def singleOptions : Options :=
  ⟨"d/".toList, "i".toList, [], true, ⟨"c".toList⟩, ⟨"out".toList⟩⟩

theorem perform_cachedOnly_single :
    ∃ entities, (Catalog.ofCache (singlePage "T.html".toList) ⟨"c".toList⟩ singleOptions).outcome =
        .ok entities ∧ entities.map (·.name) = ["p.T".toList] ∧
      ∃ summary, (perform Site.unreachable (cachedOnly singleOptions ⟨"c".toList⟩) []
          (singlePage "T.html".toList)).outcome = .ok summary ∧
        summary.parse.pending = [] ∧ summary.parse.written = ["p.T".toList] := by
  have hlisted : (Catalog.ofCache (singlePage "T.html".toList) ⟨"c".toList⟩ singleOptions).outcome =
      .ok [⟨"p.T".toList, "d/p/T.html".toList, by decide⟩] := by decide +kernel
  obtain ⟨hiff, summary, houtcome, -, -, hall⟩ :=
    perform_cachedOnly hlisted Site.unreachable []
  obtain ⟨hpending, -, hunder⟩ := hall (hiff.mp (by decide +kernel))
  refine ⟨_, hlisted, rfl, summary, houtcome, hpending, ?_⟩
  have hwritten : (List.filter (fun entity : Entity => Verdict.of (buildCached ⟨"c".toList⟩
      singleOptions.outRoot entity (singlePage "T.html".toList)).outcome == Verdict.written)
        [⟨"p.T".toList, "d/p/T.html".toList, by decide⟩]).map (·.name) = ["p.T".toList] := by
    decide +kernel
  have hperm := hunder .written
  rw [hwritten] at hperm
  exact List.perm_singleton.mp hperm

/-- The page of a nested type under its dotted name: it is listed, but not where its entity looks
for it. -/
theorem not_isCached_dotted :
    ¬ ∀ (tree : Tree) (root : Path) (options : Options) (entities : List Entity),
      (Catalog.ofCache tree root options).outcome = .ok entities →
      (∀ entity ∈ entities, isCached tree root entity = true) ∧
        (entities.map Entity.name).Nodup := by
  intro hall
  have hlisted : (Catalog.ofCache (singlePage "Map.Entry.html".toList) ⟨"c".toList⟩
      singleOptions).outcome =
        .ok [⟨"p.Map.Entry".toList, "d/p/Map.Entry.html".toList, by decide⟩] := by decide +kernel
  obtain ⟨hcached, -⟩ := hall _ _ _ _ hlisted
  exact absurd (hcached _ List.mem_cons_self) (by decide +kernel)

end Samples

end ClassSkeleton.Run
